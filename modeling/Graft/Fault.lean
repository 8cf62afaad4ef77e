/-
What can go wrong when an operation runs, and when it is called by name; the check of arguments.

A fault is what the run itself ends in; a call that fails names the operation as well. Each has one
text, made by one function.
-/
import Graft.Signature

set_option autoImplicit false

namespace Graft

/-- Words that a fault quotes. The check of arguments has its own; the body of an operation, which may
end in any fault, chooses others as it likes. -/
structure Fault.Words where
  text : String
  deriving DecidableEq

/-- Why an operation gave no value. -/
inductive Fault
  /-- The number of arguments is out of bounds. -/
  | arity (expected : Fault.Words) (given : Nat)
  /-- An argument does not inhabit the hint of its position. -/
  | argument (index : Nat) (expected : Hint) (found : Fault.Words)
  /-- The operation needs a receiver and was called without one. -/
  | missingReceiver
  /-- The operation gave up, and says why. -/
  | failed (message : String)
  /-- The operation broke off with a message that it did not mean to return. -/
  | panicked (message : String)
  deriving DecidableEq

/-- The fault in words. -/
def Fault.message : Fault → String
  | .arity expected given =>
    "expected " ++ expected.text ++ " argument(s), got " ++ toString given
  | .argument index expected found =>
    "argument " ++ toString index ++ " expects " ++ expected.text ++ ", got " ++ found.text
  | .missingReceiver => "operation requires a receiver"
  | .failed message => message
  | .panicked message => "operation panicked: " ++ message

/-- The fault of the first argument, from a position on, that does not inhabit its hint. -/
def Signature.firstMismatch? (signature : Signature) : Nat → List Value → Option Fault
  | _, [] => none
  | index, value :: rest =>
    match signature.hintAt index with
    | some hint =>
      if hint.accepts value then signature.firstMismatch? (index + 1) rest
      else some (.argument index hint ⟨value.kind.text⟩)
    | none => signature.firstMismatch? (index + 1) rest

/-- Checks the arguments of a call: first their number, then each against its hint. -/
def Signature.check (signature : Signature) (arguments : List Value) : Except Fault Unit :=
  if signature.arity.admits arguments.length then
    match signature.firstMismatch? 0 arguments with
    | some fault => .error fault
    | none => .ok ()
  else .error (.arity ⟨signature.arity.text⟩ arguments.length)

/-- A fault of the operation `operation` of the type `destination`. -/
structure InvocationError where
  destination : String
  operation : String
  fault : Fault
  deriving DecidableEq

/-- The failed call in words. -/
def InvocationError.message (error : InvocationError) : String :=
  error.destination ++ "::" ++ error.operation ++ " failed: " ++ error.fault.message

/-- Why a call by name gave no value. -/
inductive CallError
  | unknownOperation (destination name : String)
  | invocation (error : InvocationError)
  deriving DecidableEq

/-- The failed call in words. -/
def CallError.message : CallError → String
  | .unknownOperation destination name =>
    destination ++ " has no operation named " ++ Text.quoted name
  | .invocation error => error.message

end Graft
