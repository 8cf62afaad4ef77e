/-
Bundles: named members that can be copied onto types, and what their operations do.

The body of an operation is a script: a value or a fault, a panic, or a request to the registry that
it runs in, with the rest of the script as a function of the reply. A script is data, so a call that
runs other calls can be followed step by step.

An instance is a bundle with an identity. Extracting its interface binds every public operation to
that identity, and the handler that results remembers it, so that it can be told on which instance
an installed operation runs.
-/
import Graft.Collections.OrderedMap
import Graft.Fault
import Graft.RegisterError

set_option autoImplicit false

namespace Graft

/-! ## 1. Calls and scripts -/

/-- Which instance of a bundle: one that was handed in by whoever owns it, or the one that a
blueprint made when it was used for the `count`-th time. -/
inductive Identity
  | given (number : Nat)
  | made (blueprint count : Nat)
  deriving DecidableEq, Inhabited

/-- The instance that an operation belongs to. -/
structure Owner where
  identity : Identity
  /-- The name of its bundle. -/
  name : String
  deriving DecidableEq, Inhabited

/-- What an operation knows about the call that it serves. -/
structure Call where
  /-- The value that the call is made on; a static call has none. -/
  receiver : Option Value
  /-- The type that the operation is installed on. -/
  scope : String
  /-- The name under which it was called. -/
  operation : String

/-- The receiver, or the fault of not having one. -/
def Call.receiverOrFault (call : Call) : Except Fault Value :=
  match call.receiver with
  | some receiver => .ok receiver
  | none => .error .missingReceiver

/-- Who may use a member. -/
inductive Visibility
  | publicAccess
  | protectedAccess
  | privateAccess
  deriving DecidableEq, Inhabited

mutual

/-- What the body of an operation does. -/
inductive Script
  /-- Ends with a value or a fault. -/
  | done (outcome : Except Fault Value)
  /-- Breaks off; the payload has no text when it is not a string. -/
  | panic (payload : Option String)
  /-- Calls an operation by name. -/
  | invoke (destination name : String) (receiver : Option Value) (arguments : List Value)
      (next : Except CallError Value → Script)
  /-- Registers the operations of a unit. -/
  | register (destination : String) (unit : BundleRef) (next : Except RegisterError Nat → Script)
  /-- Registers a single handler. -/
  | registerOperation (destination name : String) (handler : Handler)
      (next : Except GateError Unit → Script)
  /-- Takes all operations away. -/
  | reset (next : Script)

/-- Something that can be called, with its declared form. -/
structure Handler where
  signature : Signature
  /-- The instance that it is bound to; a handler registered on its own has none. -/
  owner : Option Owner
  body : Call → List Value → Script

/-- An operation or a property of a bundle. -/
inductive MemberKind
  | operation (signature : Signature) (body : Owner → Call → List Value → Script)
  | property (hint : Hint)

/-- One declared member of a bundle. -/
structure Member where
  name : String
  visibility : Visibility
  isStatic : Bool
  kind : MemberKind

/-- A named list of members, in the order of their declaration. Both are data: to ask for them runs
nothing, and only the bodies of operations can call a registry. -/
structure Bundle where
  name : String
  members : List Member

/-- A bundle that is somebody. -/
structure Instance where
  identity : Identity
  bundle : Bundle

/-- How a registration refers to a unit: by an instance, or by the name of a blueprint. -/
inductive BundleRef
  | live (unit : Instance)
  | named (name : String)

end

instance : Inhabited Script := ⟨.done (.ok .null)⟩
instance : Inhabited Bundle := ⟨⟨"", []⟩⟩

/-! ## 2. Interfaces -/

/-- A member of the interface as a handler bound to its owner. -/
def Member.handler? (member : Member) (owner : Owner) : Option Handler :=
  match member.kind with
  | .operation signature body =>
    if member.visibility = .publicAccess ∧ member.isStatic = false then
      some ⟨signature, some owner, body owner⟩
    else none
  | .property _ => none

/-- Who the operations of an instance belong to. -/
def Instance.owner (unit : Instance) : Owner := ⟨unit.identity, unit.bundle.name⟩

/-- The public operations of an instance by name, bound to it. A name that is declared again keeps
its first place and takes its last body. -/
def Instance.interface (unit : Instance) : OrderedMap String Handler :=
  OrderedMap.ofList (unit.bundle.members.filterMap (fun member =>
    (member.handler? unit.owner).map (member.name, ·)))

/-- The name that stands for a reference in messages. -/
def BundleRef.describe : BundleRef → String
  | .live unit => unit.bundle.name
  | .named name => name

/-! ## 3. Text -/

/-- The word for a visibility in JSON. -/
def Visibility.word : Visibility → String
  | .publicAccess => "public"
  | .protectedAccess => "protected"
  | .privateAccess => "private"

/-- The visibility of a word. -/
def Visibility.ofWord? : String → Option Visibility
  | "public" => some .publicAccess
  | "protected" => some .protectedAccess
  | "private" => some .privateAccess
  | _ => none

instance : Json.Codec Visibility where
  encode v := .text v.word
  decode? depth json := (Json.variantName? depth json).bind Visibility.ofWord?

/-- The visibility in a text that spells structure out. -/
def Visibility.debugText : Visibility → String
  | .publicAccess => "Public"
  | .protectedAccess => "Protected"
  | .privateAccess => "Private"

/-- A member with its structure spelled out. -/
def Member.debugText (member : Member) : String :=
  let kind := match member.kind with
    | .operation signature _ => "operation" ++ signature.text
    | .property hint => "property: " ++ hint.text
  "Member \x7b name: " ++ Text.quoted member.name ++ ", visibility: " ++
    member.visibility.debugText ++ ", is_static: " ++ Signature.boolText member.isStatic ++
    ", kind: " ++ Text.quoted kind ++ " \x7d"

/-- A reference with its structure spelled out. -/
def BundleRef.debugText : BundleRef → String
  | .live unit => "Instance(" ++ Text.quoted unit.bundle.name ++ ")"
  | .named name => "Named(" ++ Text.quoted name ++ ")"

/-- A bound operation with its structure spelled out, its body left out. -/
def Handler.boundText (handler : Handler) : String :=
  "BoundOperation \x7b unit: " ++ Text.quoted ((handler.owner.map Owner.name).getD "") ++
    ", signature: " ++ handler.signature.debugText ++ ", .. \x7d"

end Graft
