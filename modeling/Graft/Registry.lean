/-
The registry: types, blueprints, wrapper records, installed operations and their ledger, and what
can be done with them.

A registration passes the gate, produces an instance, extracts its interface and installs it as one
batch, if the type still takes operations; the dispatch table and the ledger change together, and
only after everything that can fail has succeeded. A call looks its operation up once, checks the
arguments and runs the operation's script; whatever the script does to the registry meanwhile, the
call goes on with the operation that it found.

Scripts may call further operations to any depth, so running one takes a bound on the number of
steps; a run that exceeds it has no outcome at all, which is told apart from every fault.
-/
import Graft.Catalog
import Graft.Dispatch
import Graft.Wrapper

set_option autoImplicit false

namespace Graft

/-! ## 1. Making a registry -/

/-- How a registry is set up. -/
structure Registry.Options where
  /-- The directory for wrapper records; none keeps everything in memory. -/
  wrapperDirectory : Option Path := none
  ledger : Ledger.Mode := .enabled
  deriving DecidableEq, Inhabited

instance : Json.Codec Registry.Options where
  encode o := .record [("wrapper_dir", Json.encode (o.wrapperDirectory.map Path.text)),
    ("ledger", Json.encode o.ledger)]
  decode? depth json := do
    let record ← Json.record? .refused ["wrapper_dir", "ledger"] depth json
    return {
      wrapperDirectory := (← record.defaulted "wrapper_dir" (none : Option String)).map Path.mk
      ledger := ← record.defaulted "ledger" Ledger.Mode.enabled }

/-- What an application declares before it starts: types with whether they take operations,
blueprints, and which blueprints go onto which types. -/
structure Manifest where
  types : List (String × Bool)
  blueprints : List (String × Blueprint.Kind × (Nat → Bundle))
  /-- Destinations, each with the name of a blueprint. -/
  mixins : List (String × String)

/-- The manifest of an application that declares nothing. -/
def Manifest.empty : Manifest := ⟨[], [], []⟩

/-- The types of a manifest. -/
def Manifest.catalog (manifest : Manifest) : Catalog :=
  manifest.types.foldl (fun catalog declared => catalog.declare declared.1 declared.2) .empty

/-- The blueprints of a manifest. -/
def Manifest.definitions (manifest : Manifest) : Blueprints :=
  manifest.blueprints.foldl
    (fun blueprints (name, kind, make) => blueprints.define name kind make) .empty

/-- Everything that registrations and calls touch. -/
structure Registry where
  catalog : Catalog
  blueprints : Blueprints
  wrappers : WrapperStore
  dispatch : Dispatch
  ledger : Ledger

namespace Registry

/-- A registry with the types and blueprints of a manifest and nothing installed. -/
def ofManifest (manifest : Manifest) (options : Options) : Registry where
  catalog := manifest.catalog
  blueprints := manifest.definitions
  wrappers := .new options.wrapperDirectory
  dispatch := .empty
  ledger := .new options.ledger

/-- A registry that knows no types and no blueprints. -/
def new (options : Options) : Registry := ofManifest .empty options

/-- Declares a type. -/
def declare (registry : Registry) (name : String) (extensible : Bool) : Registry :=
  { registry with catalog := registry.catalog.declare name extensible }

/-- Defines a blueprint. -/
def define (registry : Registry) (name : String) (kind : Blueprint.Kind) (make : Nat → Bundle) :
    Registry :=
  { registry with blueprints := registry.blueprints.define name kind make }

/-- Takes every operation and every record of the ledger away. Types and blueprints stay. -/
def reset (registry : Registry) : Registry :=
  { registry with dispatch := .empty, ledger := registry.ledger.reset }

/-! ## 2. Registering -/

section

variable {m : Type → Type} [Monad m] [Host m]

/-- Records one registration of a batch. -/
def recordOne (destination : String) (source : Provenance) (ledger : Ledger)
    (handler : String × Handler) : Ledger :=
  (ledger.record destination handler.1 handler.2.signature source).2

/-- The dispatch table and the ledger after a batch, and the operations that it replaced. -/
def installed (registry : Registry) (destination : String) (handlers : List (String × Handler))
    (source : Provenance) : List Operation × Registry :=
  let batch := handlers.map (fun (name, handler) =>
    (⟨destination, name, handler, source⟩ : Operation))
  let (replaced, dispatch) := registry.dispatch.install destination batch
  (replaced, { registry with
    dispatch := dispatch
    ledger := handlers.foldl (recordOne destination source) registry.ledger })

/-- Installs a batch of handlers on a type and reports what was replaced and what was added. The type
is asked once more whether it takes operations, right before the change. -/
def install (registry : Registry) (destination : String) (handlers : List (String × Handler))
    (source : Provenance) : m (Except GateError Registry) := do
  match registry.catalog.check destination with
  | .error error => return .error error
  | .ok () =>
    let (replaced, registry) := registry.installed destination handlers source
    replaced.forM (fun old => Host.debug "operation shadowed" [("destination", destination),
      ("operation", old.name), ("previous", old.source.text), ("current", source.text)])
    Host.debug "registered operations" [("destination", destination), ("source", source.text),
      ("operations", toString handlers.length)]
    return .ok registry

/-- Whether a destination takes operations and a reference may be used, the destination first. -/
def gate (registry : Registry) (destination : String) (unit : BundleRef) :
    Except GateError Unit := do
  registry.catalog.check destination
  registry.blueprints.check unit

/-- The provenance that is recorded for a unit. -/
def provenance (unit : BundleRef) (made : Instance) : Provenance :=
  match unit with
  | .live _ => .live made.bundle.name
  | .named name => .named name

/-- Installs every public operation of a unit on a type, and gives their number. Between the gate and
the installation an instance is made and its members are listed, and neither can call the registry; so
the type that the gate let through is still open when it is asked again, and that check cannot fail
here. -/
def register (registry : Registry) (destination : String) (unit : BundleRef) :
    m (Except RegisterError Nat × Registry) := do
  match registry.gate destination unit with
  | .error error => return (.error (.gate error), registry)
  | .ok () =>
    let (made, wrappers, blueprints) ← registry.wrappers.materialize registry.blueprints unit
    let registry := { registry with wrappers := wrappers, blueprints := blueprints }
    match made with
    | .error error => return (.error (.wrapper error), registry)
    | .ok made =>
      let handlers := made.interface.entries
      match ← registry.install destination handlers (provenance unit made) with
      | .error error => return (.error (.gate error), registry)
      | .ok registry => return (.ok handlers.length, registry)

/-- Installs a single handler on a type. -/
def registerOperation (registry : Registry) (destination name : String) (handler : Handler) :
    m (Except GateError Unit × Registry) := do
  match registry.catalog.check destination with
  | .error error => return (.error error, registry)
  | .ok () =>
    match ← registry.install destination [(name, handler)] .handler with
    | .error error => return (.error error, registry)
    | .ok registry => return (.ok (), registry)

/-- Registers the mixins of a list one after the other, up to the first that fails. -/
def registerAll (registry : Registry) : List (String × String) →
    m (Except RegisterError Unit × Registry)
  | [] => pure (.ok (), registry)
  | (destination, name) :: rest => do
    match ← registry.register destination (.named name) with
    | (.ok _, registry) => registry.registerAll rest
    | (.error error, registry) => return (.error error, registry)

/-- The registry of a manifest with its mixins applied. -/
def bootstrap (manifest : Manifest) (options : Options) : m (Except RegisterError Registry) := do
  match ← (ofManifest manifest options).registerAll manifest.mixins with
  | (.ok (), registry) => return .ok registry
  | (.error error, _) => return .error error

/-! ## 3. Running scripts -/

/-- How a script ends. -/
inductive Ending
  | returned (outcome : Except Fault Value)
  | panicked (payload : Option String)

/-- What is caught of an ending: a panic becomes a fault with its message. -/
def Ending.captured : Ending → Except Fault Value
  | .returned outcome => outcome
  | .panicked (some message) => .error (.panicked message)
  | .panicked none => .error (.panicked "non-string panic payload")

/-- Runs one call of a handler with a way to run scripts: the arguments are checked first. -/
def attemptWith (run : Script → Registry → m (Option Ending × Registry)) (handler : Handler)
    (call : Call) (arguments : List Value) (registry : Registry) :
    m (Option (Except Fault Value) × Registry) :=
  match handler.signature.check arguments with
  | .error fault => pure (some (.error fault), registry)
  | .ok () => do
    let (ending, registry) ← run (handler.body call arguments) registry
    return (ending.map Ending.captured, registry)

/-- Names the operation that a fault belongs to. -/
def attributed (destination name : String) (outcome : Except Fault Value) :
    Except InvocationError Value :=
  outcome.mapError (fun fault => ⟨destination, name, fault⟩)

/-- Calls an operation by name with a way to run scripts. -/
def invokeWith (run : Script → Registry → m (Option Ending × Registry))
    (destination name : String) (receiver : Option Value) (arguments : List Value)
    (registry : Registry) : m (Option (Except CallError Value) × Registry) :=
  match registry.dispatch.get? destination name with
  | none => pure (some (.error (.unknownOperation destination name)), registry)
  | some op => do
    let (outcome, registry) ←
      attemptWith run op.handler ⟨receiver, op.destination, op.name⟩ arguments registry
    return (outcome.map (fun outcome =>
      (attributed op.destination op.name outcome).mapError .invocation), registry)

/-- Runs a script for at most the given number of steps. -/
def run : Nat → Script → Registry → m (Option Ending × Registry)
  | 0, _, registry => pure (none, registry)
  | _ + 1, .done outcome, registry => pure (some (.returned outcome), registry)
  | _ + 1, .panic payload, registry => pure (some (.panicked payload), registry)
  | steps + 1, .invoke destination name receiver arguments next, registry => do
    match ← invokeWith (run steps) destination name receiver arguments registry with
    | (some result, registry) => run steps (next result) registry
    | (none, registry) => return (none, registry)
  | steps + 1, .register destination unit next, registry => do
    let (result, registry) ← registry.register destination unit
    run steps (next result) registry
  | steps + 1, .registerOperation destination name handler next, registry => do
    let (result, registry) ← registry.registerOperation destination name handler
    run steps (next result) registry
  | steps + 1, .reset next, registry => run steps next registry.reset

/-! ## 4. Calling -/

/-- Runs an operation and keeps its fault, if any. -/
def attempt (steps : Nat) (op : Operation) (receiver : Option Value) (arguments : List Value)
    (registry : Registry) : m (Option (Except Fault Value) × Registry) :=
  attemptWith (run steps) op.handler ⟨receiver, op.destination, op.name⟩ arguments registry

/-- Runs an operation and names it in its fault, if any. -/
def call (steps : Nat) (op : Operation) (receiver : Option Value) (arguments : List Value)
    (registry : Registry) : m (Option (Except InvocationError Value) × Registry) := do
  let (outcome, registry) ← attempt steps op receiver arguments registry
  return (outcome.map (attributed op.destination op.name), registry)

/-- Calls an operation by name. -/
def invoke (steps : Nat) (destination name : String) (receiver : Option Value)
    (arguments : List Value) (registry : Registry) :
    m (Option (Except CallError Value) × Registry) :=
  invokeWith (run steps) destination name receiver arguments registry

/-- Deletes the wrapper records. -/
def flushWrappers (registry : Registry) : m (Except WrapperError Nat × Registry) := do
  let (result, wrappers) ← registry.wrappers.flush
  return (result, { registry with wrappers := wrappers })

end

/-- Whether a type takes operations. -/
def admitsDestination (registry : Registry) (destination : String) : Bool :=
  registry.catalog.admits destination

/-- Whether a reference may be registered. -/
def admitsUnit (registry : Registry) (unit : BundleRef) : Bool := registry.blueprints.admits unit

end Registry

end Graft
