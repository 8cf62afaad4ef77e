/-
The ledger: every registration that was ever made, in order.

The log only grows, until it is reset; the dispatch table remembers the winner of each name, the
ledger remembers all. Its fingerprint is the digest of a text with one line for each registration,
grouped by destination; the text itself is kept apart from its digest, so that what it determines
can be stated without assumptions on the digest.
-/
import Graft.Collections.OrderedMap
import Graft.Collections.OrderedSet
import Graft.Hash.Sha256
import Graft.Signature

set_option autoImplicit false

namespace Graft

/-! ## 1. Registrations -/

/-- Where an installed operation came from. -/
inductive Provenance
  /-- A blueprint that was referred to by name. -/
  | named (name : String)
  /-- An instance, known by the name of its bundle. -/
  | live (name : String)
  /-- A handler that was registered on its own. -/
  | handler
  deriving DecidableEq, Inhabited

/-- The provenance as messages and fingerprints show it. -/
def Provenance.text : Provenance → String
  | .named name => "named:" ++ name
  | .live name => "instance:" ++ name
  | .handler => "handler"

/-- The provenance of a kind with what stands as its name. -/
def Provenance.ofParts? (kind : String) (name : Option Json) : Option Provenance :=
  match kind, name with
  | "named", some (.string spelled) => spelled.map .named
  | "instance", some (.string spelled) => spelled.map .live
  | "handler", none => some .handler
  | "handler", some .null => some .handler
  | _, _ => none

/-- Reads a kind and a name: fields of an object in either order, each at most once and among any
others, or the two items of an array. The kind is a word, which a field may also spell as the only
key of an object. -/
def Provenance.ofJson? : Nat → Json → Option Provenance
  | depth + 1, .object fields => do
    let named ← fields.mapM (fun field => field.1.map (·, field.2))
    match named.filter (·.1 = "kind"), named.filter (·.1 = "name") with
    | [(_, kind)], [] => ofParts? (← Json.variantName? depth kind) none
    | [(_, kind)], [(_, name)] => ofParts? (← Json.variantName? depth kind) (some name)
    | _, _ => none
  | _ + 1, .array [.string kind, name] => do ofParts? (← kind) (some name)
  | _, _ => none

instance : Json.Codec Provenance where
  encode
    | .named name => .record [("kind", .text "named"), ("name", .text name)]
    | .live name => .record [("kind", .text "instance"), ("name", .text name)]
    | .handler => .record [("kind", .text "handler")]
  decode? := Provenance.ofJson?

/-- One recorded registration. -/
structure Registration where
  destination : String
  name : String
  signature : Signature
  source : Provenance
  /-- Its place in the order of all registrations. -/
  sequence : Nat
  deriving DecidableEq

instance : Json.Codec Registration where
  encode r := .record [("destination", .text r.destination), ("name", .text r.name),
    ("signature", Json.encode r.signature), ("source", Json.encode r.source),
    ("sequence", Json.encode r.sequence)]
  decode? depth json := do
    let record ← Json.record? .ignored
      ["destination", "name", "signature", "source", "sequence"] depth json
    return {
      destination := ← record.required "destination"
      name := ← record.required "name"
      signature := ← record.required "signature"
      source := ← record.required "source"
      sequence := ← record.required "sequence" }

/-! ## 2. The ledger -/

/-- Whether registrations are recorded. -/
inductive Ledger.Mode
  | enabled
  /-- Registrations are installed and leave no record. -/
  | disabled
  deriving DecidableEq, Inhabited

/-- The word for a mode in JSON. -/
def Ledger.Mode.word : Ledger.Mode → String
  | .enabled => "enabled"
  | .disabled => "disabled"

/-- The mode of a word. -/
def Ledger.Mode.ofWord? : String → Option Ledger.Mode
  | "enabled" => some .enabled
  | "disabled" => some .disabled
  | _ => none

instance : Json.Codec Ledger.Mode where
  encode mode := .text mode.word
  decode? depth json := (Json.variantName? depth json).bind Ledger.Mode.ofWord?

/-- The registrations since the last reset. -/
structure Ledger where
  mode : Ledger.Mode
  /-- Oldest first. -/
  log : List Registration

namespace Ledger

/-- A ledger without records. -/
def new (mode : Mode) : Ledger := ⟨mode, []⟩

/-- Records a registration at the end. Gives its sequence number, or none when nothing is
recorded. -/
def record (ledger : Ledger) (destination name : String) (signature : Signature)
    (source : Provenance) : Option Nat × Ledger :=
  match ledger.mode with
  | .disabled => (none, ledger)
  | .enabled =>
    let sequence := ledger.log.length
    (some sequence,
      { ledger with log := ledger.log ++ [⟨destination, name, signature, source, sequence⟩] })

/-- Forgets every registration and numbers from zero again. -/
def reset (ledger : Ledger) : Ledger := new ledger.mode

/-! ## 3. Views -/

/-- The registrations for a destination, oldest first. -/
def bindings (ledger : Ledger) (destination : String) : List Registration :=
  ledger.log.filter (fun r => r.destination = destination)

/-- The most recent registration of a name. -/
def latest? (ledger : Ledger) (destination name : String) : Option Registration :=
  (ledger.bindings destination).reverse.find? (fun r => r.name = name)

/-- The most recent registration of every name, in the order in which the names first came. -/
def latestBindings (ledger : Ledger) (destination : String) : List Registration :=
  (OrderedMap.ofList ((ledger.bindings destination).map (fun r => (r.name, r)))).values

/-- The destinations with a registration, in the order in which they first came. -/
def destinations (ledger : Ledger) : List String :=
  (OrderedSet.ofList (ledger.log.map Registration.destination)).toList

theorem mem_bindings {ledger : Ledger} {d : String} {r : Registration} :
    r ∈ ledger.bindings d ↔ r ∈ ledger.log ∧ r.destination = d := by
  rw [bindings, List.mem_filter, decide_eq_true_iff]

theorem mem_destinations {ledger : Ledger} {d : String} :
    d ∈ ledger.destinations ↔ ∃ r ∈ ledger.log, r.destination = d := by
  have hmem : d ∈ ledger.destinations ↔ d ∈ ledger.log.map Registration.destination :=
    OrderedSet.mem_ofList
  rw [hmem, List.mem_map]

/-- The number of registrations. -/
def size (ledger : Ledger) : Nat := ledger.log.length

/-! ## 4. Fingerprint -/

/-- The line that stands for a registration. -/
def line (r : Registration) : String :=
  r.destination ++ "\x00" ++ r.name ++ "\x00" ++ r.signature.text ++ "\x00" ++
    r.source.text ++ "\n"

/-- The lines of all registrations, destination after destination. -/
def fingerprintText (ledger : Ledger) : String :=
  String.join (ledger.destinations.flatMap (fun d => (ledger.bindings d).map line))

/-- The digest of the lines of all registrations. -/
def fingerprint (ledger : Ledger) : String := Sha256.hexOfText ledger.fingerprintText

/-- The fingerprint of a ledger only depends on its registrations. -/
theorem fingerprint_congr {ledger other : Ledger} (h : ledger.log = other.log) :
    ledger.fingerprint = other.fingerprint := by
  unfold fingerprint fingerprintText destinations bindings
  rw [h]

/-- A fingerprint has sixty-four digits, so a text that starts with one tells it. -/
theorem length_toList_fingerprint (ledger : Ledger) : ledger.fingerprint.toList.length = 64 := by
  rw [String.length_toList]
  exact Sha256.length_hexDigest _

/-- The mode in a text that spells structure out. -/
def Mode.debugText : Mode → String
  | .enabled => "Enabled"
  | .disabled => "Disabled"

/-- The ledger in short. -/
def debugText (ledger : Ledger) : String :=
  "RegistrationLedger \x7b mode: " ++ ledger.mode.debugText ++ ", len: " ++
    toString ledger.size ++ " \x7d"

end Ledger

end Graft
