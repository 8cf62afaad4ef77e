/-
Hints: static annotations of parameters and results, and the values that inhabit them.

An integer inhabits `float`. A named type cannot be checked against a value, so it admits every
value, as `mixed` does.
-/
import Graft.Json.Codec
import Graft.Text.Quoted
import Graft.Value

set_option autoImplicit false

namespace Graft

/-- The annotation of a parameter or a result. -/
inductive Hint
  | mixed
  | null
  | bool
  | int
  | float
  | string
  | list (item : Hint)
  | nullable (inner : Hint)
  | named (name : String)
  deriving DecidableEq, Inhabited

namespace Hint

/-! ## 1. Values of a hint -/

/-- Whether a value inhabits a hint. -/
def accepts : Hint → Value → Bool
  | .mixed, _ => true
  | .named _, _ => true
  | .null, .null => true
  | .bool, .bool _ => true
  | .int, .int _ => true
  | .float, .float _ => true
  | .float, .int _ => true
  | .string, .string _ => true
  | .list item, .list items => items.all item.accepts
  | .nullable _, .null => true
  | .nullable inner, value => inner.accepts value
  | _, _ => false

/-! ## 2. Text -/

/-- The hint as signatures show it: `list<int>`, `?string`, a type's name. -/
def text : Hint → String
  | .mixed => "mixed"
  | .null => "null"
  | .bool => "bool"
  | .int => "int"
  | .float => "float"
  | .string => "string"
  | .list item => "list<" ++ item.text ++ ">"
  | .nullable inner => "?" ++ inner.text
  | .named name => name

/-- The hint with its structure spelled out: `List(Int)`, `Named("app::Widget")`. -/
def debugText : Hint → String
  | .mixed => "Mixed"
  | .null => "Null"
  | .bool => "Bool"
  | .int => "Int"
  | .float => "Float"
  | .string => "String"
  | .list item => "List(" ++ item.debugText ++ ")"
  | .nullable inner => "Nullable(" ++ inner.debugText ++ ")"
  | .named name => "Named(" ++ Text.quoted name ++ ")"

/-! ## 3. JSON -/

/-- A plain hint is its word; the others are objects with one field. -/
def toJson : Hint → Json
  | .mixed => .text "mixed"
  | .null => .text "null"
  | .bool => .text "bool"
  | .int => .text "int"
  | .float => .text "float"
  | .string => .text "string"
  | .list item => .record [("list", item.toJson)]
  | .nullable inner => .record [("nullable", inner.toJson)]
  | .named name => .record [("named", .text name)]

/-- The plain hint of a word. -/
def ofWord? : String → Option Hint
  | "mixed" => some .mixed
  | "null" => some .null
  | "bool" => some .bool
  | "int" => some .int
  | "float" => some .float
  | "string" => some .string
  | _ => none

/-- The hint that a tree stands for. -/
def ofJson? : Nat → Json → Option Hint
  | depth + 1, .object [(some "list", item)] => (ofJson? depth item).map .list
  | depth + 1, .object [(some "nullable", inner)] => (ofJson? depth inner).map .nullable
  | depth + 1, .object [(some "named", name)] => (Json.decode? depth name).map .named
  | depth, json => (Json.variantName? depth json).bind ofWord?

instance : Json.Codec Hint := ⟨toJson, ofJson?⟩

end Hint

end Graft
