/-
Values: what operations receive and return.

A double is kept as its bits, so that it passes through unchanged, whichever of the many
not-a-numbers it is; its text is the shortest decimal that reads back.
-/
import Graft.Decimal.Shortest

set_option autoImplicit false

namespace Graft

/-- A dynamic value. -/
inductive Value
  | null
  | bool (b : Bool)
  | int (i : Int64)
  /-- A double, by its bits. -/
  | float (bits : UInt64)
  | string (s : String)
  | list (items : List Value)
  deriving Inhabited

namespace Value

/-- The kinds of value that messages tell apart. -/
inductive Kind
  | null
  | bool
  | int
  | float
  | string
  | list
  deriving DecidableEq

/-- The word for a kind. -/
def Kind.text : Kind → String
  | .null => "null"
  | .bool => "bool"
  | .int => "int"
  | .float => "float"
  | .string => "string"
  | .list => "list"

/-- The kind of a value. -/
def kind : Value → Kind
  | .null => .null
  | .bool _ => .bool
  | .int _ => .int
  | .float _ => .float
  | .string _ => .string
  | .list _ => .list

/-! ## 1. Views -/

def isNull : Value → Bool
  | .null => true
  | _ => false

def string? : Value → Option String
  | .string s => some s
  | _ => none

def int? : Value → Option Int64
  | .int i => some i
  | _ => none

def bool? : Value → Option Bool
  | .bool b => some b
  | _ => none

def list? : Value → Option (List Value)
  | .list items => some items
  | _ => none

/-! ## 2. Text -/

mutual

/-- The text of a value: strings as they are, lists in brackets. -/
def text : Value → String
  | .null => "null"
  | .bool true => "true"
  | .bool false => "false"
  | .int i => toString i.toInt
  | .float bits => Decimal.shortestText bits
  | .string s => s
  | .list items => "[" ++ String.intercalate ", " (texts items) ++ "]"

/-- The texts of the items of a list. -/
def texts : List Value → List String
  | [] => []
  | item :: items => item.text :: texts items

end

/-! ## 3. Equality -/

/-- Equality of doubles: the two zeros are equal, and no not-a-number equals anything. -/
def floatEq (a b : UInt64) : Bool := Float.ofBits a == Float.ofBits b

mutual

/-- Equality of values: kinds never mix, and doubles compare as numbers. -/
def eq : Value → Value → Bool
  | .null, .null => true
  | .bool a, .bool b => a == b
  | .int a, .int b => a == b
  | .float a, .float b => floatEq a b
  | .string a, .string b => a == b
  | .list a, .list b => eqItems a b
  | _, _ => false

/-- Equality of lists, item by item. -/
def eqItems : List Value → List Value → Bool
  | [], [] => true
  | a :: as, b :: bs => eq a b && eqItems as bs
  | _, _ => false

end

end Value

end Graft
