/-
Types with a JSON form.

A type says how a value is written and which trees are read as a value. Readers count how many
arrays and objects they may still enter, so that a tree that nests too deeply is refused; whatever a
reader does not look at may nest as it likes.

A record may be written as an object of its fields, in any order and with unknown fields among
them, or as an array of its fields in the declared order. A variant may be written as its name
alone or as an object with that single name.
-/
import Graft.Json.Printer
import Graft.Json.Reader
import Graft.Text.Utf8

set_option autoImplicit false

namespace Graft.Json

/-- A type whose values are written as JSON and read back. -/
class Codec (α : Type) where
  encode : α → Json
  /-- The value that a tree stands for; `depth` arrays and objects may be entered. -/
  decode? (depth : Nat) (json : Json) : Option α

export Codec (encode decode?)

/-- How deep the arrays and objects that a reader enters may nest. -/
def nestingLimit : Nat := 127

section

variable {α : Type} [Codec α]

/-- The value that a text stands for. -/
def ofText? (text : String) : Option α :=
  (parse? (text.toList.map some)).bind (decode? nestingLimit)

/-- The value that the content of a file stands for. -/
def ofBytes? (bytes : ByteArray) : Option α :=
  (parse? (Utf8.characters bytes)).bind (decode? nestingLimit)

/-- The value as text on one line. -/
def toText (value : α) : String := compact (encode value)

/-- The value as text spread over lines. -/
def toPrettyText (value : α) : String := pretty (encode value)

end

/-! ## 1. Plain values -/

instance : Codec String where
  encode := text
  decode?
    | _, .string spelled => spelled
    | _, _ => none

instance : Codec Bool where
  encode := .bool
  decode?
    | _, .bool value => some value
    | _, _ => none

/-- The whole number that a literal spells, if it has digits only and fits sixty-four bits. -/
def word64? (literal : String) : Option Nat :=
  if literal.toList.all Char.isDigit then literal.toNat?.filter (· < UInt64.size) else none

/-- Whole numbers below `2 ^ 64`. -/
instance : Codec Nat where
  encode := ofNat
  decode?
    | _, .number literal => word64? literal
    | _, _ => none

instance {α : Type} [Codec α] : Codec (List α) where
  encode values := .array (values.map encode)
  decode?
    | depth + 1, .array items => items.mapM (decode? depth)
    | _, _ => none

/-- An absent value is written as `null`. -/
instance {α : Type} [Codec α] : Codec (Option α) where
  encode
    | some value => encode value
    | none => .null
  decode?
    | _, .null => some none
    | depth, json => (decode? depth json).map some

/-! ## 2. Variants -/

/-- The name of a variant without content: alone, or as the one field of an object, with `null`. -/
def variantName? : Nat → Json → Option String
  | _, .string spelled => spelled
  | _ + 1, .object [(name, .null)] => name
  | _, _ => none

/-! ## 3. Records -/

/-- The fields of a record that were written. -/
structure Record where
  /-- Whether they came as an array. -/
  positional : Bool
  fields : List (String × Json)
  /-- How many arrays and objects the values may enter. -/
  depth : Nat

/-- Whether a record tolerates fields that it does not declare. -/
inductive Unknown
  | ignored
  | refused
  deriving DecidableEq

/-- The declared fields of a record. In an object no declared field may stand twice, and every name
must spell text; an array may be shorter than the declaration and not longer. -/
def record? (unknown : Unknown) (names : List String) : Nat → Json → Option Record
  | depth + 1, .object fields => do
    let named ← fields.mapM (fun field => field.1.map (·, field.2))
    let known := named.filter (fun field => field.1 ∈ names)
    if unknown = .refused ∧ known.length < named.length then none
    else if (known.map Prod.fst).Nodup then some ⟨false, known, depth⟩
    else none
  | depth + 1, .array items =>
    if items.length ≤ names.length then some ⟨true, names.zip items, depth⟩ else none
  | _, _ => none

namespace Record

variable {α : Type} [Codec α]

/-- A field that must be written. -/
def required (record : Record) (name : String) : Option α :=
  (record.fields.lookup name).bind (decode? record.depth)

/-- A field with a value to take when it is not written. -/
def defaulted (record : Record) (name : String) (default : α) : Option α :=
  match record.fields.lookup name with
  | none => some default
  | some json => decode? record.depth json

/-- A field that may be absent. In an array its place must still be filled. -/
def optional (record : Record) (name : String) : Option (Option α) :=
  match record.fields.lookup name with
  | none => if record.positional then none else some none
  | some json => decode? record.depth json

end Record

end Graft.Json
