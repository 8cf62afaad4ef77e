/-
Signatures: the parameters of an operation, whether the last one takes all that follows, and the
result.

A signature bounds the number of arguments and gives every argument its hint. Optional parameters
lower the least number; a variadic signature has no greatest number, and its last parameter, when
it is not optional, may also be left without an argument.
-/
import Graft.Hint

set_option autoImplicit false

namespace Graft

/-- One declared parameter. -/
structure Parameter where
  name : String
  hint : Hint
  /-- Whether a caller may leave it out. -/
  optional : Bool := false
  deriving DecidableEq

/-- The declared form of an operation. -/
structure Signature where
  parameters : List Parameter := []
  /-- Whether the last parameter takes any number of trailing arguments. -/
  variadic : Bool := false
  returns : Hint := .mixed
  deriving DecidableEq, Inhabited

/-- How many arguments a call may have. -/
structure Arity where
  least : Nat
  /-- No bound when absent. -/
  most : Option Nat
  deriving DecidableEq

namespace Arity

/-- Whether a number of arguments is within the bounds. -/
def admits (arity : Arity) (given : Nat) : Bool :=
  arity.least ≤ given && arity.most.all (given ≤ ·)

/-- The bounds in words: a number, `r..=m`, or `at least r`. -/
def text (arity : Arity) : String :=
  match arity.most with
  | some most =>
    if most = arity.least then toString arity.least
    else toString arity.least ++ "..=" ++ toString most
  | none => "at least " ++ toString arity.least

end Arity

namespace Signature

/-! ## 1. Arguments -/

/-- The number of arguments that a caller must give. -/
def requiredArity (signature : Signature) : Nat :=
  let declared := (signature.parameters.filter (fun p => !p.optional)).length
  let lastOptional := (signature.parameters.getLast?).any (fun p => p.optional)
  if signature.variadic && 0 < declared && !lastOptional then declared - 1 else declared

/-- The greatest number of arguments, if there is one. -/
def maxArity (signature : Signature) : Option Nat :=
  if signature.variadic then none else some signature.parameters.length

/-- The bounds on the number of arguments. -/
def arity (signature : Signature) : Arity := ⟨signature.requiredArity, signature.maxArity⟩

/-- The hint of the argument at a position. -/
def hintAt (signature : Signature) (index : Nat) : Option Hint :=
  match signature.parameters[index]? with
  | some parameter => some parameter.hint
  | none => if signature.variadic then signature.parameters.getLast?.map Parameter.hint else none

/-! ## 2. Text -/

/-- The texts of parameters; the dots stand before the last one of a variadic signature. -/
def parameterTexts (variadic : Bool) : List Parameter → List String
  | [] => []
  | p :: rest =>
    ((if variadic && rest.isEmpty then "..." else "") ++ p.name ++
      (if p.optional then "?" else "") ++ ": " ++ p.hint.text) :: parameterTexts variadic rest

/-- The signature as people write it: `(name: string, ...rest: int) -> mixed`. -/
def text (signature : Signature) : String :=
  "(" ++ String.intercalate ", " (parameterTexts signature.variadic signature.parameters) ++
    ") -> " ++ signature.returns.text

/-- The word for a truth value. -/
def boolText (b : Bool) : String := if b then "true" else "false"

/-- A parameter with its structure spelled out. -/
def parameterDebugText (p : Parameter) : String :=
  "Parameter \x7b name: " ++ Text.quoted p.name ++ ", hint: " ++ p.hint.debugText ++
    ", optional: " ++ boolText p.optional ++ " \x7d"

/-- The signature with its structure spelled out. -/
def debugText (signature : Signature) : String :=
  "Signature \x7b parameters: [" ++
    String.intercalate ", " (signature.parameters.map parameterDebugText) ++
    "], variadic: " ++ boolText signature.variadic ++
    ", returns: " ++ signature.returns.debugText ++ " \x7d"

end Signature

/-! ## 3. JSON -/

instance : Json.Codec Parameter where
  encode p := .record [("name", .text p.name), ("hint", Json.encode p.hint),
    ("optional", .bool p.optional)]
  decode? depth json := do
    let record ← Json.record? .ignored ["name", "hint", "optional"] depth json
    return {
      name := ← record.required "name"
      hint := ← record.required "hint"
      optional := ← record.defaulted "optional" false }

instance : Json.Codec Signature where
  encode s := .record [("parameters", Json.encode s.parameters), ("variadic", .bool s.variadic),
    ("returns", Json.encode s.returns)]
  decode? depth json := do
    let record ← Json.record? .ignored ["parameters", "variadic", "returns"] depth json
    return {
      parameters := ← record.required "parameters"
      variadic := ← record.defaulted "variadic" false
      returns := ← record.required "returns" }

end Graft
