/-
Decoding undoes encoding.

Each type with a JSON form is lawful (`Json.Lawful`), and each of its values reads back from its
tree; a registration does so as far as its number fits sixty-four bits. Each type needs three short
facts, put together from those of its parts in the order in which the types are built: hints,
parameters, signatures, registrations; templates, call shapes, methods.

The main statement is `Json.decoding_undoes_encoding`. `Json.Faithful` says what it says of a type.
-/
import Graft.Method
import Graft.Registry
import Graft.Proofs.Nesting

set_option autoImplicit false

namespace Graft

open Json (Lawful ReadsBack Settled Written Worded)

/-! ## 1. Words -/

theorem Certainty.worded : Worded Certainty.word Certainty.ofWord? where
  encode_eq _ := rfl
  decode?_eq _ _ := rfl
  ofWord?_word value := by cases value <;> rfl

theorem Visibility.worded : Worded Visibility.word Visibility.ofWord? where
  encode_eq _ := rfl
  decode?_eq _ _ := rfl
  ofWord?_word value := by cases value <;> rfl

theorem Ledger.Mode.worded : Worded Ledger.Mode.word Ledger.Mode.ofWord? where
  encode_eq _ := rfl
  decode?_eq _ _ := rfl
  ofWord?_word value := by cases value <;> rfl

theorem Blueprint.Kind.worded : Worded Blueprint.Kind.word Blueprint.Kind.ofWord? where
  encode_eq _ := rfl
  decode?_eq _ _ := rfl
  ofWord?_word value := by cases value <;> rfl

instance : Lawful Certainty := Certainty.worded.lawful
instance : Lawful Visibility := Visibility.worded.lawful
instance : Lawful Ledger.Mode := Ledger.Mode.worded.lawful
instance : Lawful Blueprint.Kind := Blueprint.Kind.worded.lawful

/-! ## 2. Hints -/

theorem Hint.written (hint : Hint) : Written hint.toJson := by
  induction hint with
  | mixed | null | bool | int | float | string => exact .string _
  | list item ih => exact Json.written_record (List.forall_mem_singleton.mpr ih)
  | nullable inner ih => exact Json.written_record (List.forall_mem_singleton.mpr ih)
  | named name => exact Json.written_record (List.forall_mem_singleton.mpr (.string _))

theorem Hint.readsBack (hint : Hint) : ReadsBack hint := by
  induction hint with
  | mixed | null | bool | int | float | string => intro depth _; cases depth <;> rfl
  | list item ih =>
    intro depth hdepth
    obtain ⟨below, rfl, hitem⟩ := Json.exists_of_nesting_record_le hdepth
    show (Hint.ofJson? below item.toJson).map Hint.list = _
    rw [show Hint.ofJson? below item.toJson = some item from
      ih below (hitem _ List.mem_cons_self)]
    rfl
  | nullable inner ih =>
    intro depth hdepth
    obtain ⟨below, rfl, hinner⟩ := Json.exists_of_nesting_record_le hdepth
    show (Hint.ofJson? below inner.toJson).map Hint.nullable = _
    rw [show Hint.ofJson? below inner.toJson = some inner from
      ih below (hinner _ List.mem_cons_self)]
    rfl
  | named name =>
    intro depth hdepth
    obtain ⟨below, rfl, -⟩ := Json.exists_of_nesting_record_le hdepth
    rfl

theorem Hint.nesting_ofWord? {word : String} {hint : Hint} (h : Hint.ofWord? word = some hint) :
    hint.toJson.nesting = 0 := by
  unfold Hint.ofWord? at h
  split at h
  all_goals cases h
  all_goals rfl

/-- The induction follows the reader: below a list or a nullable hint it may go one level less deep. -/
theorem Hint.nesting_of_ofJson? {depth : Nat} {json : Json} {hint : Hint}
    (h : Hint.ofJson? depth json = some hint) : hint.toJson.nesting ≤ depth := by
  fun_induction Hint.ofJson? depth json generalizing hint with
  | case1 depth item ih =>
    obtain ⟨found, hfound, rfl⟩ := Option.map_eq_some_iff.mp h
    exact Json.nesting_record_le_iff.mpr (List.forall_mem_singleton.mpr (ih hfound))
  | case2 depth inner ih =>
    obtain ⟨found, hfound, rfl⟩ := Option.map_eq_some_iff.mp h
    exact Json.nesting_record_le_iff.mpr (List.forall_mem_singleton.mpr (ih hfound))
  | case3 depth name =>
    obtain ⟨found, -, rfl⟩ := Option.map_eq_some_iff.mp h
    exact Json.nesting_record_le_iff.mpr (List.forall_mem_singleton.mpr (Nat.zero_le _))
  | case4 depth json =>
    obtain ⟨word, -, hword⟩ := Option.bind_eq_some_iff.mp h
    rw [Hint.nesting_ofWord? hword]
    exact Nat.zero_le _

instance : Lawful Hint where
  written := Hint.written
  settled {_ _ hint} h := ⟨Hint.nesting_of_ofJson? h, hint.readsBack⟩

/-! ## 3. Signatures -/

theorem Parameter.readsBack (p : Parameter) : ReadsBack p := by
  intro depth hdepth
  obtain ⟨below, rfl, hfields⟩ := Json.exists_of_nesting_record_le hdepth
  have hhint := p.hint.readsBack below (hfields ("hint", _) (by simp))
  refine (Json.bind_record? ?_ ?_ below _).trans ?_
  · rfl
  · decide
  · simp only [Json.Record.required, Json.Record.defaulted, List.lookup, String.reduceBEq,
      Option.bind_eq_bind, Option.bind_some, Option.pure_def, Json.decode?_text, Json.decode?_bool,
      hhint]

instance : Lawful Parameter where
  written p := Json.written_record (by simp [Lawful.written, Written.bool, Json.text, Written.string])
  settled {_ _ p} h := by
    obtain ⟨found, rfl, hread⟩ := Json.exists_of_bind_record? h
    simp only [Option.bind_eq_bind, Option.bind_eq_some_iff, Option.pure_def,
      Option.some.injEq] at hread
    obtain ⟨_, -, _, hhint, _, -, rfl⟩ := hread
    refine ⟨Json.nesting_record_le_iff.mpr ?_, Parameter.readsBack _⟩
    simp [Json.text, Json.nesting, (Json.settled_required hhint).1]

theorem Signature.readsBack (s : Signature) : ReadsBack s := by
  intro depth hdepth
  obtain ⟨below, rfl, hfields⟩ := Json.exists_of_nesting_record_le hdepth
  have hparameters := Json.readsBack_list (fun p _ => Parameter.readsBack p) below
    (hfields ("parameters", Json.encode s.parameters) (by simp))
  have hreturns := s.returns.readsBack below (hfields ("returns", _) (by simp))
  refine (Json.bind_record? ?_ ?_ below _).trans ?_
  · rfl
  · decide
  · simp only [Json.Record.required, Json.Record.defaulted, List.lookup, String.reduceBEq,
      Option.bind_eq_bind, Option.bind_some, Option.pure_def, Json.decode?_bool, hparameters,
      hreturns]

instance : Lawful Signature where
  written s := Json.written_record (by simp [Lawful.written, Written.bool])
  settled {_ _ s} h := by
    obtain ⟨found, rfl, hread⟩ := Json.exists_of_bind_record? h
    simp only [Option.bind_eq_bind, Option.bind_eq_some_iff, Option.pure_def,
      Option.some.injEq] at hread
    obtain ⟨_, hparameters, _, -, _, hreturns, rfl⟩ := hread
    refine ⟨Json.nesting_record_le_iff.mpr ?_, Signature.readsBack _⟩
    simp [Json.nesting, (Json.settled_required hparameters).1, (Json.settled_required hreturns).1]

/-! ## 4. Registrations and wrapper records -/

theorem Provenance.readsBack (source : Provenance) : ReadsBack source := by
  intro depth hdepth
  cases source with
  | named name | live name | handler =>
    obtain ⟨below, rfl, -⟩ := Json.exists_of_nesting_record_le hdepth
    rfl

theorem Provenance.exists_of_ofJson? {depth : Nat} {json : Json} {source : Provenance}
    (h : Provenance.ofJson? depth json = some source) : ∃ below, depth = below + 1 := by
  cases depth with
  | zero => cases h
  | succ below => exact ⟨below, rfl⟩

instance : Lawful Provenance where
  written source := by
    cases source <;> exact Json.written_record (by simp [Json.text, Written.string])
  settled {_ _ source} h := by
    obtain ⟨below, rfl⟩ := Provenance.exists_of_ofJson? h
    refine ⟨?_, source.readsBack⟩
    cases source <;> exact Json.nesting_record_le_iff.mpr (by simp [Json.text, Json.nesting])

theorem Registration.readsBack {r : Registration} (hsequence : ReadsBack r.sequence) :
    ReadsBack r := by
  intro depth hdepth
  obtain ⟨below, rfl, hfields⟩ := Json.exists_of_nesting_record_le hdepth
  have hsignature := r.signature.readsBack below (hfields ("signature", _) (by simp))
  have hsource := r.source.readsBack below (hfields ("source", _) (by simp))
  have hnumber := hsequence below (Nat.zero_le _)
  refine (Json.bind_record? ?_ ?_ below _).trans ?_
  · rfl
  · decide
  · simp only [Json.Record.required, List.lookup, String.reduceBEq, Option.bind_eq_bind,
      Option.bind_some, Option.pure_def, Json.decode?_text, hsignature, hsource, hnumber]

/-- The number of a registration that was read fits its encoding. -/
theorem Registration.sequence_lt {depth : Nat} {json : Json} {r : Registration}
    (h : Json.decode? depth json = some r) : r.sequence < UInt64.size := by
  obtain ⟨found, rfl, hread⟩ := Json.exists_of_bind_record? h
  simp only [Option.bind_eq_bind, Option.bind_eq_some_iff, Option.pure_def,
    Option.some.injEq] at hread
  obtain ⟨_, -, _, -, _, -, _, -, _, hsequence, rfl⟩ := hread
  obtain ⟨number, -, hnumber⟩ := Option.bind_eq_some_iff.mp hsequence
  exact Json.lt_of_decode?_nat hnumber

theorem Registration.readsBack_iff (r : Registration) :
    r.sequence < UInt64.size ↔ ReadsBack r :=
  ⟨fun h => readsBack (Json.readsBack_nat h), fun h => sequence_lt (h _ (Nat.le_refl _))⟩

instance : Lawful Registration where
  written r := Json.written_record (by simp [Lawful.written, Json.text, Written.string])
  settled {_ _ r} h := by
    obtain ⟨found, rfl, hread⟩ := Json.exists_of_bind_record? h
    simp only [Option.bind_eq_bind, Option.bind_eq_some_iff, Option.pure_def,
      Option.some.injEq] at hread
    obtain ⟨_, -, _, -, _, hsignature, _, hsource, _, hsequence, rfl⟩ := hread
    have hnumber := Json.settled_required hsequence
    refine ⟨Json.nesting_record_le_iff.mpr ?_, Registration.readsBack hnumber.2⟩
    simp [Json.text, Json.nesting, (Json.settled_required hsignature).1,
      (Json.settled_required hsource).1, hnumber.1]

theorem Wrapper.readsBack (w : Wrapper) : ReadsBack w := by
  intro depth hdepth
  obtain ⟨below, rfl, hfields⟩ := Json.exists_of_nesting_record_le hdepth
  have hkind := Blueprint.Kind.worded.readsBack w.kind below (hfields ("kind", _) (by simp))
  refine (Json.bind_record? ?_ ?_ below _).trans ?_
  · rfl
  · decide
  · simp only [Json.Record.required, List.lookup, String.reduceBEq, Option.bind_eq_bind,
      Option.bind_some, Option.pure_def, Json.decode?_text, hkind]

instance : Lawful Wrapper where
  written w := Json.written_record (by simp [Lawful.written, Json.text, Written.string])
  settled {_ _ w} h := by
    obtain ⟨found, rfl, hread⟩ := Json.exists_of_bind_record? h
    simp only [Option.bind_eq_bind, Option.bind_eq_some_iff, Option.pure_def,
      Option.some.injEq] at hread
    obtain ⟨_, -, _, -, _, hkind, rfl⟩ := hread
    refine ⟨Json.nesting_record_le_iff.mpr ?_, Wrapper.readsBack _⟩
    simp [Json.text, Json.nesting, (Json.settled_required hkind).1]

/-! ## 5. Options of a registry -/

theorem encode_text_ne_null (value : String) : Json.encode value ≠ .null := by
  simp [Json.encode, Json.text]

instance : Lawful (Option String) := Json.lawful_option encode_text_ne_null Json.readsBack_string

theorem readsBack_text? (value : Option String) : ReadsBack value :=
  Json.readsBack_option encode_text_ne_null Json.readsBack_string value

theorem Registry.Options.readsBack (o : Registry.Options) : ReadsBack o := by
  intro depth hdepth
  obtain ⟨below, rfl, hfields⟩ := Json.exists_of_nesting_record_le hdepth
  have hdirectory := readsBack_text? (o.wrapperDirectory.map Path.text) below
    (hfields ("wrapper_dir", _) (by simp))
  have hledger := Ledger.Mode.worded.readsBack o.ledger below (hfields ("ledger", _) (by simp))
  refine (Json.bind_record? ?_ ?_ below _).trans ?_
  · rfl
  · decide
  · simp only [Json.Record.defaulted, List.lookup, String.reduceBEq, Option.bind_eq_bind,
      Option.bind_some, Option.pure_def, hdirectory, hledger, Option.map_map]
    rw [show Path.mk ∘ Path.text = id from rfl, Option.map_id, id]

instance : Lawful Registry.Options where
  written o := Json.written_record (by simp [Lawful.written])
  settled {_ _ o} h := by
    obtain ⟨found, rfl, hread⟩ := Json.exists_of_bind_record? h
    simp only [Option.bind_eq_bind, Option.bind_eq_some_iff, Option.pure_def,
      Option.some.injEq] at hread
    obtain ⟨_, hdirectory, _, hledger, rfl⟩ := hread
    refine ⟨Json.nesting_record_le_iff.mpr ?_, Registry.Options.readsBack _⟩
    have hmode := Json.settled_defaulted ⟨Nat.zero_le _, Ledger.Mode.worded.readsBack _⟩ hledger
    have htext := Json.settled_defaulted ⟨Nat.zero_le _, readsBack_text? _⟩ hdirectory
    simp [hmode.1, htext.1, Function.comp_def]

/-! ## 6. Methods -/

namespace Templates

theorem eq_of_entries_eq {t u : Templates} (h : t.entries = u.entries) : t = u := by
  cases t
  cases u
  cases h
  rfl

/-- A name behind all others goes to the end. -/
theorem insertSorted_of_forall_lt {name : String} {entries : List (String × Hint)}
    (h : ∀ entry ∈ entries, entry.1 < name) (hint : Hint) :
    insertSorted name hint entries = entries ++ [(name, hint)] := by
  induction entries with
  | nil => rfl
  | cons entry rest ih =>
    obtain ⟨hentry, hrest⟩ := List.forall_mem_cons.mp h
    rw [insertSorted, if_neg (fun hlt => String.lt_irrefl _ (String.lt_trans hlt hentry)),
      if_neg (fun heq => String.lt_irrefl _ (heq ▸ hentry)), ih hrest]
    rfl

/-- Parameters in the order of their names are added one behind the other. -/
theorem ofList_entries (t : Templates) : ofList t.entries = t := by
  have hfold : ∀ (entries : List (String × Hint)) (u : Templates),
      (u.entries ++ entries).Pairwise (fun a b => a.1 < b.1) →
        (entries.foldl (fun u entry => u.insert entry.1 entry.2) u).entries
          = u.entries ++ entries := by
    intro entries
    induction entries with
    | nil => exact fun u _ => (List.append_nil _).symm
    | cons entry rest ih =>
      intro u hsorted
      have hlast : (u.insert entry.1 entry.2).entries = u.entries ++ [entry] :=
        insertSorted_of_forall_lt
          (fun before hbefore => (List.pairwise_append.mp hsorted).2.2 before hbefore entry
            List.mem_cons_self) entry.2
      rw [List.foldl_cons, ih _ (by rwa [hlast, List.append_assoc]), hlast, List.append_assoc]
      rfl
  exact eq_of_entries_eq (hfold t.entries empty t.sorted)

theorem mem_of_mem_ofList {entries : List (String × Hint)} {entry : String × Hint}
    (h : entry ∈ (ofList entries).entries) : entry ∈ entries := by
  induction entries using List.reverseRecOn with
  | nil => exact h
  | append_singleton entries last ih =>
    rw [ofList, List.foldl_append] at h
    rcases mem_insertSorted h with rfl | h
    · exact List.mem_append_right _ List.mem_cons_self
    · exact List.mem_append_left _ (ih h)

theorem readsBack (t : Templates) : ReadsBack t := by
  intro depth hdepth
  obtain ⟨below, rfl, hfields⟩ := Json.exists_of_nesting_record_le hdepth
  have hentries : ∀ entries : List (String × Hint),
      (∀ entry ∈ entries, (Json.encode entry.2).nesting ≤ below) →
        ((entries.map fun entry => (entry.1, Json.encode entry.2)).map
            fun field => (some field.1, field.2)).mapM
          (fun field : Option String × Json => do
            return (← field.1, ← Json.decode? below field.2)) = some entries := by
    intro entries
    induction entries with
    | nil => exact fun _ => rfl
    | cons entry rest ih =>
      intro hall
      obtain ⟨hentry, hrest⟩ := List.forall_mem_cons.mp hall
      have hhint := entry.2.readsBack below hentry
      rw [List.map_cons, List.map_cons, List.mapM_cons, ih hrest]
      simp [hhint]
  refine (congrArg (Option.map ofList) (hentries t.entries ?_)).trans ?_
  · exact fun entry hentry => List.forall_mem_map.mp hfields entry hentry
  · exact congrArg some t.ofList_entries

instance : Lawful Templates where
  written t := Json.written_record (List.forall_mem_map.mpr fun entry _ => Lawful.written entry.2)
  settled {depth json t} h := by
    refine ⟨?_, t.readsBack⟩
    cases depth with
    | zero => cases h
    | succ below =>
      cases json with
      | object fields =>
        obtain ⟨entries, hentries, rfl⟩ := Option.map_eq_some_iff.mp h
        refine Json.nesting_record_le_iff.mpr (List.forall_mem_map.mpr fun entry hentry => ?_)
        -- Whatever became of repeated names, the hint was read from one of the fields.
        obtain ⟨field, -, hfield⟩ :=
          Json.exists_of_mem_mapM hentries entry (mem_of_mem_ofList hentry)
        simp only [Option.bind_eq_bind, Option.bind_eq_some_iff, Option.pure_def,
          Option.some.injEq] at hfield
        obtain ⟨_, -, _, hhint, rfl⟩ := hfield
        exact (Lawful.settled hhint).1
      | _ => cases h

end Templates

theorem encode_templates_ne_null (t : Templates) : Json.encode t ≠ .null := by
  simp [Json.encode, Json.record]

instance : Lawful (Option Templates) :=
  Json.lawful_option encode_templates_ne_null Templates.readsBack

theorem CallShape.readsBack (c : CallShape) : ReadsBack c := by
  intro depth hdepth
  obtain ⟨below, rfl, hfields⟩ := Json.exists_of_nesting_record_le hdepth
  have htemplates := c.templates.readsBack below (hfields ("template_types", _) (by simp))
  have hresolved := Json.readsBack_option encode_templates_ne_null Templates.readsBack
    c.resolvedTemplates below (hfields ("resolved_template_types", _) (by simp))
  have hparameters := Json.readsBack_list (fun p _ => Parameter.readsBack p) below
    (hfields ("parameters", Json.encode c.parameters) (by simp))
  have hreturns := c.returns.readsBack below (hfields ("return_type", _) (by simp))
  refine (Json.bind_record? ?_ ?_ below _).trans ?_
  · rfl
  · decide
  · simp only [Json.Record.required, Json.Record.optional, List.lookup, String.reduceBEq,
      Option.bind_eq_bind, Option.bind_some, Option.pure_def, Json.decode?_bool, htemplates,
      hresolved, hparameters, hreturns]

instance : Lawful CallShape where
  written c := Json.written_record (by simp [Lawful.written, Written.bool])
  settled {_ _ c} h := by
    obtain ⟨found, rfl, hread⟩ := Json.exists_of_bind_record? h
    simp only [Option.bind_eq_bind, Option.bind_eq_some_iff, Option.pure_def,
      Option.some.injEq] at hread
    obtain ⟨_, htemplates, _, hresolved, _, hparameters, _, -, _, hreturns, rfl⟩ := hread
    refine ⟨Json.nesting_record_le_iff.mpr ?_, CallShape.readsBack _⟩
    simp [Json.nesting, (Json.settled_required htemplates).1, (Json.settled_optional hresolved).1,
      (Json.settled_required hparameters).1, (Json.settled_required hreturns).1]

theorem Hint.toJson_ne_null (hint : Hint) : Json.encode hint ≠ .null := by
  cases hint <;> simp [Json.encode, Hint.toJson, Json.record, Json.text]

instance : Lawful (Option Hint) := Json.lawful_option Hint.toJson_ne_null Hint.readsBack

theorem Method.readsBack (method : Method) : ReadsBack method := by
  intro depth hdepth
  obtain ⟨below, rfl, hfields⟩ := Json.exists_of_nesting_record_le hdepth
  have hanswer (answer : Certainty) := Certainty.worded.readsBack answer below (Nat.zero_le _)
  have hvisibility := Visibility.worded.readsBack method.visibility below (Nat.zero_le _)
  have hdoc := readsBack_text? method.docComment below (hfields ("doc_comment", _) (by simp))
  have hdescription := readsBack_text? method.deprecatedDescription below
    (hfields ("deprecated_description", _) (by simp))
  have hthrow := Json.readsBack_option Hint.toJson_ne_null Hint.readsBack method.throwType below
    (hfields ("throw_type", _) (by simp))
  have hshapes := Json.readsBack_list (fun c _ => CallShape.readsBack c) below
    (hfields ("variants", Json.encode method.shapes) (by simp))
  refine (Json.bind_record? ?_ ?_ below _).trans ?_
  · rfl
  · decide
  · simp only [Json.Record.required, Json.Record.optional, List.lookup, String.reduceBEq,
      Option.bind_eq_bind, Option.bind_some, Option.pure_def, Json.decode?_text, Json.decode?_bool,
      hanswer, hvisibility, hdoc, hdescription, hthrow, hshapes]

instance : Lawful Method where
  written method := Json.written_record
    (by simp [Lawful.written, Written.bool, Json.text, Written.string])
  settled {_ _ method} h := by
    obtain ⟨found, rfl, hread⟩ := Json.exists_of_bind_record? h
    obtain ⟨_, -, hread⟩ := Option.bind_eq_some_iff.mp hread
    obtain ⟨_, -, hread⟩ := Option.bind_eq_some_iff.mp hread
    obtain ⟨_, hvisibility, hread⟩ := Option.bind_eq_some_iff.mp hread
    obtain ⟨_, -, hread⟩ := Option.bind_eq_some_iff.mp hread
    obtain ⟨_, hfinal, hread⟩ := Option.bind_eq_some_iff.mp hread
    obtain ⟨_, hinternal, hread⟩ := Option.bind_eq_some_iff.mp hread
    obtain ⟨_, hdoc, hread⟩ := Option.bind_eq_some_iff.mp hread
    obtain ⟨_, hdeprecated, hread⟩ := Option.bind_eq_some_iff.mp hread
    obtain ⟨_, hdescription, hread⟩ := Option.bind_eq_some_iff.mp hread
    obtain ⟨_, hthrow, hread⟩ := Option.bind_eq_some_iff.mp hread
    obtain ⟨_, heffects, hread⟩ := Option.bind_eq_some_iff.mp hread
    obtain ⟨_, hshapes, hread⟩ := Option.bind_eq_some_iff.mp hread
    obtain rfl := Option.some.inj hread
    refine ⟨Json.nesting_record_le_iff.mpr ?_, Method.readsBack _⟩
    simp only [List.forall_mem_cons, Json.text, Json.nesting, Nat.zero_le,
      (Json.settled_required hvisibility).1, (Json.settled_required hfinal).1,
      (Json.settled_required hinternal).1, (Json.settled_optional hdoc).1,
      (Json.settled_required hdeprecated).1, (Json.settled_optional hdescription).1,
      (Json.settled_optional hthrow).1, (Json.settled_required heffects).1,
      (Json.settled_required hshapes).1, true_and]
    exact List.forall_mem_nil _

/-! ## 7. Every type with a JSON form -/

/-- Parsing what was written for a value gives the value back, and writing what was parsed and
parsing that again changes nothing more: for every type with a JSON form, for every value of it
that does not nest too deeply, and for every text that is accepted for the type. Only a registration
has values that its encoding does not hold, those whose number takes more than sixty-four bits. -/
theorem Json.decoding_undoes_encoding :
    Json.Faithful Hint (fun _ => True) ∧
    Json.Faithful Parameter (fun _ => True) ∧
    Json.Faithful Signature (fun _ => True) ∧
    Json.Faithful Provenance (fun _ => True) ∧
    Json.Faithful Registration (fun r => r.sequence < UInt64.size) ∧
    Json.Faithful Wrapper (fun _ => True) ∧
    Json.Faithful Ledger.Mode (fun _ => True) ∧
    Json.Faithful Blueprint.Kind (fun _ => True) ∧
    Json.Faithful Visibility (fun _ => True) ∧
    Json.Faithful Certainty (fun _ => True) ∧
    Json.Faithful String (fun _ => True) ∧
    Json.Faithful Registry.Options (fun _ => True) ∧
    Json.Faithful Templates (fun _ => True) ∧
    Json.Faithful CallShape (fun _ => True) ∧
    Json.Faithful Method (fun _ => True) :=
  ⟨faithful_of_readsBack Hint.readsBack,
    faithful_of_readsBack Parameter.readsBack,
    faithful_of_readsBack Signature.readsBack,
    faithful_of_readsBack Provenance.readsBack,
    faithful_of_lawful Registration.readsBack_iff,
    faithful_of_readsBack Wrapper.readsBack,
    faithful_of_readsBack Ledger.Mode.worded.readsBack,
    faithful_of_readsBack Blueprint.Kind.worded.readsBack,
    faithful_of_readsBack Visibility.worded.readsBack,
    faithful_of_readsBack Certainty.worded.readsBack,
    faithful_of_readsBack readsBack_string,
    faithful_of_readsBack Registry.Options.readsBack,
    faithful_of_readsBack Templates.readsBack,
    faithful_of_readsBack CallShape.readsBack,
    faithful_of_readsBack Method.readsBack⟩

/-- A word may be spelled as the one field of an object; it is written as the word alone. -/
example : Json.normalize? Hint "\x7b\"mixed\":null\x7d" = some "\"mixed\"" := by decide

/-- Fields that have a value to take may be left out; they are written. -/
example : Json.normalize? Registry.Options "\x7b\x7d"
    = some "\x7b\"wrapper_dir\":null,\"ledger\":\"enabled\"\x7d" := by decide

end Graft
