/-
JSON trees read from tokens.

The reader holds a stack of the arrays and objects that are still open and a note of what may come
next; every token moves it on or is refused. A value that is complete goes into the innermost open
array or object, or, when none is open, is the value of the text.
-/
import Graft.Json.Token

set_option autoImplicit false

namespace Graft.Json

/-- An array or object that is still open, with its finished parts, latest first. -/
inductive Frame
  | array (items : List Json)
  | object (fields : List (Option String × Json))
  /-- An object whose field of this name waits for its value. -/
  | field (fields : List (Option String × Json)) (name : Option String)

/-- What the reader expects. -/
inductive Expect
  | value
  | firstItem
  | firstName
  | name
  | colon (name : Option String)
  | separator
  | done (value : Json)

/-- The open arrays and objects, innermost first, and what is expected next. -/
structure Builder where
  stack : List Frame
  expect : Expect

/-- Puts a complete value where it belongs. -/
def Builder.complete (stack : List Frame) (value : Json) : Option Builder :=
  match stack with
  | [] => some ⟨[], .done value⟩
  | .array items :: rest => some ⟨.array (value :: items) :: rest, .separator⟩
  | .field fields name :: rest => some ⟨.object ((name, value) :: fields) :: rest, .separator⟩
  | .object _ :: _ => none

/-- A token where a value is expected. -/
def Builder.value (stack : List Frame) (token : Token) : Option Builder :=
  match token with
  | .openArray => some ⟨.array [] :: stack, .firstItem⟩
  | .openObject => some ⟨.object [] :: stack, .firstName⟩
  | .string spelled => complete stack (.string spelled)
  | .atom value => complete stack value
  | _ => none

/-- The innermost array or object is closed. -/
def Builder.close (stack : List Frame) (token : Token) : Option Builder :=
  match stack, token with
  | .array items :: rest, .closeArray => complete rest (.array items.reverse)
  | .object fields :: rest, .closeObject => complete rest (.object fields.reverse)
  | _, _ => none

/-- One token. -/
def Builder.step (builder : Builder) (token : Token) : Option Builder :=
  match builder.expect with
  | .value => value builder.stack token
  | .firstItem => match token with
    | .closeArray => close builder.stack token
    | _ => value builder.stack token
  | .firstName => match token with
    | .closeObject => close builder.stack token
    | .string name => some ⟨builder.stack, .colon name⟩
    | _ => none
  | .name => match token with
    | .string name => some ⟨builder.stack, .colon name⟩
    | _ => none
  | .colon name => match builder.stack, token with
    | .object fields :: rest, .colon => some ⟨.field fields name :: rest, .value⟩
    | _, _ => none
  | .separator => match builder.stack, token with
    | .array items :: rest, .comma => some ⟨.array items :: rest, .value⟩
    | .object fields :: rest, .comma => some ⟨.object fields :: rest, .name⟩
    | _, _ => close builder.stack token
  | .done _ => none

/-- The tree that a sequence of tokens spells. -/
def ofTokens? (tokens : List Token) : Option Json :=
  match tokens.foldlM Builder.step ⟨[], .value⟩ with
  | some ⟨_, .done value⟩ => some value
  | _ => none

/-- The tree that a text spells. -/
def parse? (cs : List (Option Char)) : Option Json := (tokens? cs).bind ofTokens?

end Graft.Json
