/-
JSON values as they are written.

A tree keeps what a reader may still need to decide: a number keeps its literal, an object its
fields in order with repetitions, and a string the text that it spells, or `none` when the literal
is well formed but spells no text (a lone surrogate, bytes that are no characters). Such a literal
is harmless in a place that nobody looks at and refused everywhere else.
-/
set_option autoImplicit false

namespace Graft

/-- A JSON value. -/
inductive Json
  | null
  | bool (value : Bool)
  | number (literal : String)
  | string (spelled : Option String)
  | array (items : List Json)
  | object (fields : List (Option String × Json))
  deriving Inhabited

namespace Json

/-- A string. -/
def text (s : String) : Json := .string (some s)

/-- A whole number. -/
def ofNat (n : Nat) : Json := .number (toString n)

/-- An object with the given fields, in order. -/
def record (fields : List (String × Json)) : Json :=
  .object (fields.map (fun field => (some field.1, field.2)))

/-- The field of a name in an object; of several the last counts. -/
def get? (json : Json) (name : String) : Option Json :=
  match json with
  | .object fields => fields.reverse.lookup (some name)
  | _ => none

mutual

/-- The tree in which no object has a name twice: of several fields only the last is kept. -/
def settled : Json → Json
  | .array items => .array (settledItems items)
  | .object fields => .object (settledFields fields)
  | json => json

/-- The settled items of an array. -/
def settledItems : List Json → List Json
  | [] => []
  | item :: items => item.settled :: settledItems items

/-- The settled fields of an object that no later field replaces. -/
def settledFields : List (Option String × Json) → List (Option String × Json)
  | [] => []
  | (name, value) :: fields =>
    if fields.any (fun field => field.1 == name) then settledFields fields
    else (name, value.settled) :: settledFields fields

end

/-- Whether a text is a number literal: an optional minus, a whole part without superfluous zeros,
and optionally a fraction and an exponent, each with at least one digit. -/
def isNumber (literal : List Char) : Bool :=
  let unsigned := match literal with
    | '-' :: rest => rest
    | _ => literal
  let whole := unsigned.takeWhile Char.isDigit
  let afterWhole := unsigned.dropWhile Char.isDigit
  let (fractionOk, afterFraction) := match afterWhole with
    | '.' :: rest => (!(rest.takeWhile Char.isDigit).isEmpty, rest.dropWhile Char.isDigit)
    | _ => (true, afterWhole)
  let exponentOk := match afterFraction with
    | [] => true
    | mark :: rest =>
      let digits := match rest with
        | '+' :: more => more
        | '-' :: more => more
        | _ => rest
      (mark == 'e' || mark == 'E') && !digits.isEmpty && digits.all Char.isDigit
  (whole == ['0'] || (!whole.isEmpty && whole.head? != some '0')) && fractionOk && exponentOk

end Json

end Graft
