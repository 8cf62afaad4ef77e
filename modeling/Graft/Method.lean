/-
Methods: what a type checker is told about an installed operation.

A method is derived from the latest registration of its name and never stored. It is reported as
public and static, with one call shape taken from the signature; what the ledger cannot know is
reported absent, and whether there are side effects as open.
-/
import Graft.Bundle
import Graft.Ledger

set_option autoImplicit false

namespace Graft

/-! ## 1. Parts of a description -/

/-- An answer that may be open. -/
inductive Certainty
  | yes
  | no
  | maybe
  deriving DecidableEq, Inhabited

/-- The word for an answer. -/
def Certainty.word : Certainty → String
  | .yes => "yes"
  | .no => "no"
  | .maybe => "maybe"

/-- The answer of a word. -/
def Certainty.ofWord? : String → Option Certainty
  | "yes" => some .yes
  | "no" => some .no
  | "maybe" => some .maybe
  | _ => none

instance : Json.Codec Certainty where
  encode c := .text c.word
  decode? depth json := (Json.variantName? depth json).bind Certainty.ofWord?

/-- Template parameters by name, in the order of the names. -/
structure Templates where
  entries : List (String × Hint)
  sorted : entries.Pairwise (fun a b => a.1 < b.1)

namespace Templates

/-- No template parameters. -/
def empty : Templates := ⟨[], .nil⟩

/-- Puts an entry in its place; one of the same name is replaced. -/
def insertSorted (name : String) (hint : Hint) : List (String × Hint) → List (String × Hint)
  | [] => [(name, hint)]
  | entry :: rest =>
    if name < entry.1 then (name, hint) :: entry :: rest
    else if name = entry.1 then (name, hint) :: rest
    else entry :: insertSorted name hint rest

theorem mem_insertSorted {name : String} {hint : Hint} {entries : List (String × Hint)}
    {entry : String × Hint} (h : entry ∈ insertSorted name hint entries) :
    entry = (name, hint) ∨ entry ∈ entries := by
  induction entries with
  | nil => simpa [insertSorted] using h
  | cons first rest ih =>
    simp only [insertSorted] at h
    split at h
    · exact (List.mem_cons.1 h).imp_right id
    · split at h
      · exact (List.mem_cons.1 h).imp_right (List.mem_cons_of_mem _)
      · rcases List.mem_cons.1 h with h | h
        · exact .inr (h ▸ List.mem_cons_self)
        · exact (ih h).imp_right (List.mem_cons_of_mem _)

theorem pairwise_insertSorted (name : String) (hint : Hint) {entries : List (String × Hint)}
    (h : entries.Pairwise (fun a b => a.1 < b.1)) :
    (insertSorted name hint entries).Pairwise (fun a b => a.1 < b.1) := by
  induction entries with
  | nil => simp [insertSorted]
  | cons first rest ih =>
    obtain ⟨hfirst, hrest⟩ := List.pairwise_cons.1 h
    simp only [insertSorted]
    split
    · next hlt =>
      refine List.pairwise_cons.2 ⟨fun entry he => ?_, h⟩
      rcases List.mem_cons.1 he with rfl | he
      · exact hlt
      · exact String.lt_trans hlt (hfirst entry he)
    · split
      · next heq => exact List.pairwise_cons.2 ⟨fun entry he => heq ▸ hfirst entry he, hrest⟩
      · next hlt hne =>
        refine List.pairwise_cons.2 ⟨fun entry he => ?_, ih hrest⟩
        rcases mem_insertSorted he with rfl | he
        · exact Std.lt_of_le_of_ne (String.not_lt.1 hlt) (fun e => hne e.symm)
        · exact hfirst entry he

/-- Adds a parameter; the latest of a name counts. -/
def insert (templates : Templates) (name : String) (hint : Hint) : Templates :=
  ⟨insertSorted name hint templates.entries, pairwise_insertSorted name hint templates.sorted⟩

/-- Adds parameters one after the other. -/
def ofList (entries : List (String × Hint)) : Templates :=
  entries.foldl (fun templates entry => templates.insert entry.1 entry.2) empty

/-- The hint of a parameter. -/
def get? (templates : Templates) (name : String) : Option Hint := templates.entries.lookup name

/-- Whether there are no parameters. -/
def isEmpty (templates : Templates) : Bool := templates.entries.isEmpty

end Templates

instance : Json.Codec Templates where
  encode templates := .record (templates.entries.map (fun entry => (entry.1, Json.encode entry.2)))
  decode?
    | depth + 1, .object fields =>
      (fields.mapM (fun (field : Option String × Json) => do
        return (← field.1, ← Json.decode? depth field.2))).map Templates.ofList
    | _, _ => none

/-- One way to call a method. -/
structure CallShape where
  templates : Templates
  /-- Absent until a call site fixes the templates. -/
  resolvedTemplates : Option Templates
  parameters : List Parameter
  variadic : Bool
  returns : Hint

/-- The call shape that a signature declares: it has no templates. -/
def CallShape.ofSignature (signature : Signature) : CallShape where
  templates := .empty
  resolvedTemplates := none
  parameters := signature.parameters
  variadic := signature.variadic
  returns := signature.returns

instance : Json.Codec CallShape where
  encode c := .record [("template_types", Json.encode c.templates),
    ("resolved_template_types", Json.encode c.resolvedTemplates),
    ("parameters", Json.encode c.parameters), ("variadic", .bool c.variadic),
    ("return_type", Json.encode c.returns)]
  decode? depth json := do
    let record ← Json.record? .ignored
      ["template_types", "resolved_template_types", "parameters", "variadic", "return_type"]
      depth json
    return {
      templates := ← record.required "template_types"
      resolvedTemplates := ← record.optional "resolved_template_types"
      parameters := ← record.required "parameters"
      variadic := ← record.required "variadic"
      returns := ← record.required "return_type" }

/-! ## 2. Methods -/

/-- The description of a method. -/
structure Method where
  declaringType : String
  name : String
  visibility : Visibility
  isStatic : Bool
  isFinal : Certainty
  isInternal : Certainty
  docComment : Option String
  isDeprecated : Certainty
  deprecatedDescription : Option String
  throwType : Option Hint
  hasSideEffects : Certainty
  shapes : List CallShape

namespace Method

/-- The method that a registration amounts to. -/
def ofRegistration (r : Registration) : Method where
  declaringType := r.destination
  name := r.name
  visibility := .publicAccess
  isStatic := true
  isFinal := .no
  isInternal := .no
  docComment := none
  isDeprecated := .no
  deprecatedDescription := none
  throwType := none
  hasSideEffects := .maybe
  shapes := [.ofSignature r.signature]

/-- The declaration that a method overrides: an installed one is its own. -/
def prototype (method : Method) : Method := method

instance : Json.Codec Method where
  encode method := .record [("declaring_type", .text method.declaringType),
    ("name", .text method.name), ("visibility", Json.encode method.visibility),
    ("is_static", .bool method.isStatic), ("is_final", Json.encode method.isFinal),
    ("is_internal", Json.encode method.isInternal),
    ("doc_comment", Json.encode method.docComment),
    ("is_deprecated", Json.encode method.isDeprecated),
    ("deprecated_description", Json.encode method.deprecatedDescription),
    ("throw_type", Json.encode method.throwType),
    ("has_side_effects", Json.encode method.hasSideEffects),
    ("variants", Json.encode method.shapes)]
  decode? depth json := do
    let record ← Json.record? .ignored
      ["declaring_type", "name", "visibility", "is_static", "is_final", "is_internal",
        "doc_comment", "is_deprecated", "deprecated_description", "throw_type",
        "has_side_effects", "variants"] depth json
    return {
      declaringType := ← record.required "declaring_type"
      name := ← record.required "name"
      visibility := ← record.required "visibility"
      isStatic := ← record.required "is_static"
      isFinal := ← record.required "is_final"
      isInternal := ← record.required "is_internal"
      docComment := ← record.optional "doc_comment"
      isDeprecated := ← record.required "is_deprecated"
      deprecatedDescription := ← record.optional "deprecated_description"
      throwType := ← record.optional "throw_type"
      hasSideEffects := ← record.required "has_side_effects"
      shapes := ← record.required "variants" }

end Method

/-! ## 3. Queries of a ledger -/

namespace Ledger

/-- The methods of a type, in the order in which their names first came. -/
def methods (ledger : Ledger) (destination : String) : List Method :=
  (ledger.latestBindings destination).map Method.ofRegistration

/-- A type with a registration has a method: that of the latest one of some name. -/
theorem methods_ne_nil {ledger : Ledger} {d : String} (h : d ∈ ledger.destinations) :
    ledger.methods d ≠ [] := by
  obtain ⟨r, hlog, rfl⟩ := mem_destinations.mp h
  have hbindings : ledger.bindings r.destination ≠ [] :=
    List.ne_nil_of_mem (mem_bindings.mpr ⟨hlog, rfl⟩)
  rw [methods, latestBindings, OrderedMap.values, Ne, List.map_eq_nil_iff, List.map_eq_nil_iff]
  exact OrderedMap.entries_ofList_ne_nil (by rwa [Ne, List.map_eq_nil_iff])

/-- Whether a type has a method. -/
def hasMethod (ledger : Ledger) (destination name : String) : Bool :=
  (ledger.latest? destination name).isSome

/-- The method of a name. -/
def method? (ledger : Ledger) (destination name : String) : Option Method :=
  (ledger.latest? destination name).map Method.ofRegistration

end Ledger

end Graft
