/-
What can go wrong when operations are registered.

Before anything is changed a gate checks the destination and then the unit; after it, the unit has
to be produced, which may involve its wrapper record on disk.
-/
import Graft.Host
import Graft.Text.Quoted

set_option autoImplicit false

namespace Graft

/-- Why the gate is closed. -/
inductive GateError
  /-- The destination is not declared, or does not take operations. -/
  | destination (name : String)
  /-- The reference is neither an instance nor the name of a composable blueprint. -/
  | unit (reference : String)
  deriving DecidableEq

/-- The closed gate in words. -/
def GateError.message : GateError → String
  | .destination _ => "destination must support dynamic operation registration"
  | .unit _ => "unit must be an instance or a composable behavior unit"

/-- Why a named unit could not be produced. -/
inductive WrapperError
  /-- A file operation on the record or its directory failed. -/
  | io (path : Path) (error : FileError)
  /-- The record is not one. -/
  | corrupt (path : Path)
  /-- The record belongs to another name. -/
  | mismatch (path : Path) (expected found : String)
  /-- No blueprint has the name. -/
  | unresolved (reference : String)
  deriving DecidableEq

/-- The failure in words. -/
def WrapperError.message : WrapperError → String
  | .io path error => "wrapper " ++ path.text ++ ": " ++ error.message
  | .corrupt path => "wrapper " ++ path.text ++ " is corrupt"
  | .mismatch path expected found =>
    "wrapper " ++ path.text ++ " records unit " ++ Text.quoted found ++
      ", expected " ++ Text.quoted expected
  | .unresolved reference => "no composition named " ++ Text.quoted reference

/-- Why a registration failed. -/
inductive RegisterError
  | gate (error : GateError)
  | wrapper (error : WrapperError)
  deriving DecidableEq

/-- The failed registration in words. -/
def RegisterError.message : RegisterError → String
  | .gate error => error.message
  | .wrapper error => "materializing unit failed: " ++ error.message

end Graft
