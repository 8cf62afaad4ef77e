/-
The dispatch table: which operation answers to a name on a type.

The last operation installed under a name wins and keeps the place that the name first had. A batch
is installed at once, and tells which operations it replaced.
-/
import Graft.Bundle
import Graft.Ledger

set_option autoImplicit false

namespace Graft

/-- A handler in its place: installed on a type, under a name. -/
structure Operation where
  destination : String
  name : String
  handler : Handler
  source : Provenance

/-- The installed operations, by type and name. -/
structure Dispatch where
  table : OrderedMap String (OrderedMap String Operation)

namespace Dispatch

/-- The table without operations. -/
def empty : Dispatch := ⟨.empty⟩

/-- The operations of a type by name. -/
def operationsOf (dispatch : Dispatch) (destination : String) : OrderedMap String Operation :=
  (dispatch.table.get? destination).getD .empty

/-- The operation of a name. -/
def get? (dispatch : Dispatch) (destination name : String) : Option Operation :=
  (dispatch.operationsOf destination).get? name

/-- Whether a name is installed. -/
def contains (dispatch : Dispatch) (destination name : String) : Bool :=
  (dispatch.operationsOf destination).contains name

/-- The names installed on a type, in the order in which they first came. -/
def names (dispatch : Dispatch) (destination : String) : List String :=
  (dispatch.operationsOf destination).keys

/-- The number of installed operations. -/
def size (dispatch : Dispatch) : Nat :=
  dispatch.table.values.foldr (fun operations count => operations.size + count) 0

/-- Installs a batch on a type. Gives, for each operation of the batch, the one that its name had
before the batch, if any. -/
def install (dispatch : Dispatch) (destination : String) (batch : List Operation) :
    List Operation × Dispatch :=
  let before := dispatch.operationsOf destination
  let after := batch.foldl (fun operations op => operations.insert op.name op) before
  (batch.filterMap (fun op => before.get? op.name), ⟨dispatch.table.insert destination after⟩)

end Dispatch

end Graft
