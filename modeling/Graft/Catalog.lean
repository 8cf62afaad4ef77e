/-
The declared types, and which of them take operations from outside.
-/
import Graft.Collections.OrderedMap
import Graft.RegisterError

set_option autoImplicit false

namespace Graft

/-- The declared types, each with whether it takes operations. -/
structure Catalog where
  types : OrderedMap String Bool

namespace Catalog

/-- The catalog without types. -/
def empty : Catalog := ⟨.empty⟩

/-- Declares a type, or declares it again: the latest declaration counts. -/
def declare (catalog : Catalog) (name : String) (extensible : Bool) : Catalog :=
  ⟨catalog.types.insert name extensible⟩

/-- Whether a type is declared. -/
def contains (catalog : Catalog) (name : String) : Bool := catalog.types.contains name

/-- Whether a declared type takes operations. -/
def extensible? (catalog : Catalog) (name : String) : Option Bool := catalog.types.get? name

/-- The number of declared types. -/
def size (catalog : Catalog) : Nat := catalog.types.size

/-- Whether operations may be installed on a type: it is declared and takes them. -/
def admits (catalog : Catalog) (name : String) : Bool := (catalog.extensible? name).getD false

/-- The gate for a destination. -/
def check (catalog : Catalog) (destination : String) : Except GateError Unit :=
  if catalog.admits destination then .ok () else .error (.destination destination)

end Catalog

end Graft
