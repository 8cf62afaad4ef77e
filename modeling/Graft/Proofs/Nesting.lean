/-
Trees that a reader may enter, and types whose reader undoes their writer.

A reader counts how many arrays and objects it may still enter, so whether it takes the tree of a
value depends on how deep that tree nests. `ReadsBack` says of a value that this is the only thing
that it depends on. Not every value needs to read back: a whole number above the range does not. But
what a reader of a lawful type has made of any tree whatsoever does, and nests no deeper than the
reader could go; so it may be written and read once more. Laws of a type follow from those of its
parts, for lists, for values that may be absent, for words and for records.

The main statement is `Json.faithful_of_lawful`: a lawful type keeps its values through texts.
-/
import Mathlib
import Graft.Proofs.JsonText

set_option autoImplicit false

namespace Graft.Json

/-! ## 1. How deep a tree nests -/

mutual

/-- How deep the arrays and objects of a tree nest. -/
def nesting : Json → Nat
  | .array items => nestingItems items + 1
  | .object fields => nestingFields fields + 1
  | _ => 0

/-- The nesting of the deepest item. -/
def nestingItems : List Json → Nat
  | [] => 0
  | item :: items => max item.nesting (nestingItems items)

/-- The nesting of the deepest field. -/
def nestingFields : List (Option String × Json) → Nat
  | [] => 0
  | (_, value) :: fields => max value.nesting (nestingFields fields)

end

theorem nestingItems_le_iff {items : List Json} {depth : Nat} :
    nestingItems items ≤ depth ↔ ∀ item ∈ items, item.nesting ≤ depth := by
  induction items with
  | nil => simp [nestingItems]
  | cons item items ih => rw [nestingItems, max_le_iff, ih, List.forall_mem_cons]

theorem nestingFields_le_iff {fields : List (Option String × Json)} {depth : Nat} :
    nestingFields fields ≤ depth ↔ ∀ field ∈ fields, field.2.nesting ≤ depth := by
  induction fields with
  | nil => simp [nestingFields]
  | cons field fields ih => rw [nestingFields, max_le_iff, ih, List.forall_mem_cons]

/-- An array nests one deeper than its items. -/
theorem nesting_array_le_iff {items : List Json} {depth : Nat} :
    nesting (.array items) ≤ depth + 1 ↔ ∀ item ∈ items, item.nesting ≤ depth := by
  rw [nesting, Nat.add_le_add_iff_right, nestingItems_le_iff]

/-- A record nests one deeper than its fields. -/
theorem nesting_record_le_iff {fields : List (String × Json)} {depth : Nat} :
    (record fields).nesting ≤ depth + 1 ↔ ∀ field ∈ fields, field.2.nesting ≤ depth := by
  rw [record, nesting, Nat.add_le_add_iff_right, nestingFields_le_iff, List.forall_mem_map]

/-- A reader that may enter an array can go one level down. -/
theorem exists_of_nesting_array_le {items : List Json} {depth : Nat}
    (h : nesting (.array items) ≤ depth) :
    ∃ below, depth = below + 1 ∧ ∀ item ∈ items, item.nesting ≤ below := by
  obtain ⟨below, rfl⟩ := Nat.exists_eq_add_of_le' (Nat.le_trans (Nat.le_add_left 1 _) h)
  exact ⟨below, rfl, nesting_array_le_iff.mp h⟩

/-- A reader that may enter a record can go one level down. -/
theorem exists_of_nesting_record_le {fields : List (String × Json)} {depth : Nat}
    (h : (record fields).nesting ≤ depth) :
    ∃ below, depth = below + 1 ∧ ∀ field ∈ fields, field.2.nesting ≤ below := by
  obtain ⟨below, rfl⟩ := Nat.exists_eq_add_of_le' (Nat.le_trans (Nat.le_add_left 1 _) h)
  exact ⟨below, rfl, nesting_record_le_iff.mp h⟩

/-! ## 2. Laws of a type -/

section

variable {α : Type} [Codec α]

/-- The tree of a value is read as the value by every reader that may go deep enough. -/
def ReadsBack (value : α) : Prop :=
  ∀ depth, (encode value).nesting ≤ depth → decode? depth (encode value) = some value

/-- A reader that may enter `depth` arrays and objects can read the tree of a value, and reads it as
the value. -/
def Settled (depth : Nat) (value : α) : Prop := (encode value).nesting ≤ depth ∧ ReadsBack value

/-- The trees of a type can be written as text, and whatever a reader makes of a tree is settled. -/
class Lawful (α : Type) [Codec α] : Prop where
  written : ∀ value : α, Written (encode value)
  settled : ∀ {depth : Nat} {json : Json} {value : α},
    decode? depth json = some value → Settled depth value

/-! ## 3. Plain values -/

instance : Lawful String where
  written value := .string (some value)
  settled _ := ⟨Nat.zero_le _, fun _ _ => rfl⟩

@[simp] theorem decode?_text (depth : Nat) (value : String) :
    decode? depth (text value) = some value := rfl

theorem readsBack_string (value : String) : ReadsBack value := fun _ _ => rfl

instance : Lawful Bool where
  written := .bool
  settled _ := ⟨Nat.zero_le _, fun _ _ => rfl⟩

@[simp] theorem decode?_bool (depth : Nat) (value : Bool) :
    decode? depth (.bool value) = some value := rfl

theorem isDigit_of_mem_repr {n : Nat} : ∀ c ∈ n.repr.toList, c.isDigit = true := by
  rw [Nat.toList_repr]
  exact fun c hc => Nat.isDigit_of_mem_toDigits (by decide) (by decide) hc

/-- The digits of a positive number do not start with a zero. -/
theorem head?_toDigits_ne_zero {n : Nat} (h : 0 < n) : (Nat.toDigits 10 n).head? ≠ some '0' := by
  induction n using Nat.strongRecOn with
  | ind n ih =>
    rw [Nat.toDigits_eq_if (by decide)]
    split
    · next hsmall =>
      have hall : ∀ m : Fin 10, 0 < m.val → m.val.digitChar ≠ '0' := by decide
      simpa using hall ⟨n, hsmall⟩ h
    · next hlarge =>
      have hne : Nat.toDigits 10 (n / 10) ≠ [] := Nat.toDigits_ne_nil
      rw [List.head?_append_of_ne_nil _ hne]
      exact ih (n / 10) (by omega) (by omega)

/-- Digits without a superfluous zero in front are a number literal. -/
theorem isNumber_of_digits {literal : List Char} (hdigits : ∀ c ∈ literal, c.isDigit = true)
    (hne : literal ≠ []) (hzero : literal = ['0'] ∨ literal.head? ≠ some '0') :
    isNumber literal = true := by
  unfold isNumber
  -- Digits do not start with a minus, and they all belong to the whole part.
  split
  · exact absurd (hdigits '-' List.mem_cons_self) (by decide)
  · simp only [List.takeWhile_eq_self_iff.mpr hdigits, List.dropWhile_eq_nil_iff.mpr hdigits]
    rcases hzero with rfl | hhead
    · decide
    · simp [hne, hhead]

/-- A whole number is written as a number literal. -/
theorem isNumber_repr (n : Nat) : isNumber n.repr.toList = true := by
  refine isNumber_of_digits isDigit_of_mem_repr (Nat.toList_repr ▸ Nat.toDigits_ne_nil) ?_
  rw [Nat.toList_repr]
  rcases Nat.eq_zero_or_pos n with rfl | hpos
  · exact .inl (Nat.toDigits_zero 10)
  · exact .inr (head?_toDigits_ne_zero hpos)

theorem written_ofNat (n : Nat) : Written (.ofNat n) := by
  refine .number (List.all_eq_true.mpr fun c hc => ?_) (isNumber_repr n)
  have hdigit := isDigit_of_mem_repr c hc
  simp [isWordChar, Char.isAlphanum, hdigit]

/-- A whole number below the bound is read as it was. -/
theorem word64?_repr {n : Nat} (h : n < UInt64.size) : word64? n.repr = some n := by
  unfold word64?
  rw [if_pos (List.all_eq_true.mpr isDigit_of_mem_repr), Nat.toNat?_repr, Option.filter_some,
    if_pos (decide_eq_true h)]

theorem lt_of_word64? {literal : String} {n : Nat} (h : word64? literal = some n) :
    n < UInt64.size := by
  unfold word64? at h
  split at h
  · exact of_decide_eq_true (Option.filter_eq_some_iff.mp h).2
  · exact absurd h (by simp)

theorem readsBack_nat {n : Nat} (h : n < UInt64.size) : ReadsBack n := fun _ _ => word64?_repr h

theorem lt_of_decode?_nat {depth : Nat} {json : Json} {n : Nat} (h : decode? depth json = some n) :
    n < UInt64.size := by
  cases json with
  | number literal => exact lt_of_word64? h
  | _ => cases h

instance : Lawful Nat where
  written := written_ofNat
  settled h := ⟨Nat.zero_le _, readsBack_nat (lt_of_decode?_nat h)⟩

/-! ## 4. Lists and values that may be absent -/

theorem mapM_eq_some_of_forall {values : List α} {read : Json → Option α}
    (h : ∀ value ∈ values, read (encode value) = some value) :
    (values.map encode).mapM read = some values := by
  induction values with
  | nil => rfl
  | cons value rest ih =>
    obtain ⟨hvalue, hrest⟩ := List.forall_mem_cons.mp h
    rw [List.map_cons, List.mapM_cons, hvalue, ih hrest]
    rfl

/-- Every value of a list that was read was read from one of the items. -/
theorem exists_of_mem_mapM {β γ : Type} {items : List β} {read : β → Option γ} {values : List γ}
    (h : items.mapM read = some values) : ∀ value ∈ values, ∃ item ∈ items,
      read item = some value := by
  induction items generalizing values with
  | nil =>
    obtain rfl := Option.some.inj h
    exact fun _ hvalue => absurd hvalue List.not_mem_nil
  | cons item items ih =>
    simp only [List.mapM_cons, Option.bind_eq_bind, Option.bind_eq_some_iff, Option.pure_def,
      Option.some.injEq] at h
    obtain ⟨first, hfirst, rest, hrest, rfl⟩ := h
    rintro value (_ | ⟨_, hvalue⟩)
    · exact ⟨item, List.mem_cons_self, hfirst⟩
    · obtain ⟨found, hfound, hread⟩ := ih hrest value hvalue
      exact ⟨found, List.mem_cons_of_mem _ hfound, hread⟩

theorem readsBack_list {values : List α} (h : ∀ value ∈ values, ReadsBack value) : ReadsBack values := by
  intro depth hdepth
  obtain ⟨below, rfl, hitems⟩ := exists_of_nesting_array_le hdepth
  rw [List.forall_mem_map] at hitems
  exact mapM_eq_some_of_forall fun value hvalue => h value hvalue below (hitems value hvalue)

instance [Lawful α] : Lawful (List α) where
  written values := .array (List.forall_mem_map.mpr fun value _ => Lawful.written value)
  settled {depth json values} h := by
    cases depth with
    | zero => cases h
    | succ below =>
      cases json with
      | array items =>
        have hsettled : ∀ value ∈ values, Settled below value := fun value hvalue =>
          (exists_of_mem_mapM h value hvalue).elim fun item hitem => Lawful.settled hitem.2
        exact ⟨nesting_array_le_iff.mpr (List.forall_mem_map.mpr fun value hvalue =>
          (hsettled value hvalue).1), readsBack_list fun value hvalue => (hsettled value hvalue).2⟩
      | _ => cases h

theorem readsBack_none : ReadsBack (none : Option α) := fun depth _ => by cases depth <;> rfl

/-- A value whose tree is not `null` is told apart from an absent one. -/
theorem decode?_some {depth : Nat} {json : Json} (h : json ≠ .null) :
    decode? depth json = (decode? depth json : Option α).map some := by
  cases json with
  | null => exact absurd rfl h
  | _ => cases depth <;> rfl

theorem readsBack_option (hne : ∀ value : α, encode value ≠ .null)
    (h : ∀ value : α, ReadsBack value) : ∀ value : Option α, ReadsBack value
  | none => readsBack_none
  | some value => fun depth hdepth => by
    show decode? depth (encode value) = _
    rw [decode?_some (hne value), h value depth hdepth]
    rfl

/-- A value that may be absent and whose tree is never `null`. -/
theorem lawful_option [Lawful α] (hne : ∀ value : α, encode value ≠ .null)
    (h : ∀ value : α, ReadsBack value) : Lawful (Option α) where
  written
    | none => .null
    | some value => Lawful.written value
  settled {depth json value} hread := by
    refine ⟨?_, readsBack_option hne h value⟩
    by_cases hnull : json = .null
    · obtain rfl : none = value := by
        subst hnull
        cases depth <;> exact Option.some.inj hread
      exact Nat.zero_le _
    · rw [decode?_some hnull] at hread
      obtain ⟨present, hpresent, rfl⟩ := Option.map_eq_some_iff.mp hread
      exact (Lawful.settled hpresent).1

/-! ## 5. Words -/

/-- A type whose values are words. -/
structure Worded (word : α → String) (ofWord? : String → Option α) : Prop where
  encode_eq : ∀ value : α, encode value = .text (word value)
  decode?_eq : ∀ depth json,
    (decode? depth json : Option α) = (variantName? depth json).bind ofWord?
  ofWord?_word : ∀ value, ofWord? (word value) = some value

variable {word : α → String} {ofWord? : String → Option α}

theorem Worded.readsBack (h : Worded word ofWord?) (value : α) : ReadsBack value := by
  intro depth _
  rw [h.encode_eq, h.decode?_eq]
  have hname : variantName? depth (.text (word value)) = some (word value) := by
    cases depth <;> rfl
  rw [hname]
  exact h.ofWord?_word value

theorem Worded.lawful (h : Worded word ofWord?) : Lawful α where
  written value := by
    rw [h.encode_eq]
    exact .string _
  settled {_ _ value} _ := by
    refine ⟨?_, h.readsBack value⟩
    rw [h.encode_eq]
    exact Nat.zero_le _

/-! ## 6. Records -/

/-- A record of the declared fields is taken apart into these fields. -/
theorem bind_record? {β : Type} {unknown : Unknown} {names : List String}
    {fields : List (String × Json)} (hnames : fields.map Prod.fst = names) (hnodup : names.Nodup)
    (depth : Nat) (next : Record → Option β) :
    (record? unknown names (depth + 1) (record fields)).bind next = next ⟨false, fields, depth⟩ := by
  subst hnames
  have hnamed : (fields.map fun field => (some field.1, field.2)).mapM
      (fun field : Option String × Json => field.1.map (·, field.2)) = some fields := by
    clear hnodup
    induction fields with
    | nil => rfl
    | cons field fields ih =>
      rw [List.map_cons, List.mapM_cons, ih]
      rfl
  have hknown : fields.filter (fun field => decide (field.1 ∈ fields.map Prod.fst)) = fields :=
    List.filter_eq_self.mpr fun field hfield =>
      decide_eq_true (List.mem_map_of_mem hfield)
  unfold record? record
  dsimp only
  rw [hnamed, Option.bind_eq_bind, Option.bind_some]
  simp only [hknown, lt_irrefl, and_false, if_false, if_pos hnodup, Option.bind_some]

/-- The fields of a record may go one level less deep than the record. -/
theorem depth_of_record? {unknown : Unknown} {names : List String} {depth : Nat} {json : Json}
    {found : Record} (h : record? unknown names depth json = some found) :
    depth = found.depth + 1 := by
  unfold record? at h
  split at h
  · obtain ⟨named, -, h⟩ := Option.bind_eq_some_iff.mp h
    dsimp only at h
    split at h
    · cases h
    · split at h
      · rw [← Option.some.inj h]
      · cases h
  · split at h
    · rw [← Option.some.inj h]
    · cases h
  · cases h

/-- What was made of a record was made of its fields, one level down. -/
theorem exists_of_bind_record? {β : Type} {unknown : Unknown} {names : List String} {depth : Nat}
    {json : Json} {read : Record → Option β} {value : β}
    (h : (record? unknown names depth json).bind read = some value) :
    ∃ found : Record, depth = found.depth + 1 ∧ read found = some value := by
  obtain ⟨found, hfound, hread⟩ := Option.bind_eq_some_iff.mp h
  exact ⟨found, depth_of_record? hfound, hread⟩

theorem settled_required [Lawful α] {found : Record} {name : String} {value : α}
    (h : found.required name = some value) : Settled found.depth value := by
  obtain ⟨json, -, hread⟩ := Option.bind_eq_some_iff.mp h
  exact Lawful.settled hread

/-- A field that was not written has its default, which has to be settled itself. -/
theorem settled_defaulted [Lawful α] {found : Record} {name : String} {default value : α}
    (hdefault : Settled found.depth default) (h : found.defaulted name default = some value) :
    Settled found.depth value := by
  unfold Record.defaulted at h
  split at h
  · rwa [← Option.some.inj h]
  · exact Lawful.settled h

theorem settled_optional [Lawful (Option α)] {found : Record} {name : String} {value : Option α}
    (h : found.optional name = some value) : Settled found.depth value := by
  unfold Record.optional at h
  split at h
  · split at h
    · cases h
    · rw [← Option.some.inj h]
      exact ⟨Nat.zero_le _, readsBack_none⟩
  · exact Lawful.settled h

/-! ## 7. Texts -/

/-- What is written for a value, in either layout, is read as what a reader makes of its tree. -/
theorem ofText?_write [Lawful α] {style : Style} (hstyle : style.Quiet) (value : α) :
    (ofText? (String.ofList (write style 0 (encode value))) : Option α)
      = decode? nestingLimit (encode value) := by
  rw [ofText?, String.toList_ofList, parse?_write hstyle (Lawful.written value)]
  rfl

theorem ofText?_toText [Lawful α] (value : α) :
    (ofText? (toText value) : Option α) = decode? nestingLimit (encode value) :=
  ofText?_write quiet_compact value

theorem ofText?_toPrettyText [Lawful α] (value : α) :
    (ofText? (toPrettyText value) : Option α) = decode? nestingLimit (encode value) :=
  ofText?_write quiet_pretty value

variable (α) in
/-- The text that is written for what a text stands for, if it is accepted at all. -/
def normalize? (text : String) : Option String := (ofText? text : Option α).map toText

variable (α) in
/-- The values of a type that fit their encoding are kept by texts. -/
structure Faithful (fits : α → Prop) : Prop where
  /-- Whatever fits is read back from the text written for it, in either layout. -/
  reads_back : ∀ value : α, fits value → (encode value).nesting ≤ nestingLimit →
    ofText? (toText value) = some value ∧ ofText? (toPrettyText value) = some value
  /-- What an accepted text stands for, however it spells it, fits and is read back as well. -/
  settles : ∀ (accepted : String) (value : α), ofText? accepted = some value →
    fits value ∧ (encode value).nesting ≤ nestingLimit ∧
      ofText? (toText value) = some value ∧ ofText? (toPrettyText value) = some value
  /-- So a normalized text is its own normal form. -/
  idempotent : ∀ accepted normal : String,
    normalize? α accepted = some normal → normalize? α normal = some normal

/-- A lawful type is faithful to the values that read back. -/
theorem faithful_of_lawful [Lawful α] {fits : α → Prop}
    (hfits : ∀ value, fits value ↔ ReadsBack value) : Faithful α fits := by
  have hreads : ∀ value : α, fits value → (encode value).nesting ≤ nestingLimit →
      ofText? (toText value) = some value ∧ ofText? (toPrettyText value) = some value := by
    intro value hvalue hnesting
    rw [ofText?_toText, ofText?_toPrettyText]
    exact ⟨(hfits value).mp hvalue nestingLimit hnesting,
      (hfits value).mp hvalue nestingLimit hnesting⟩
  have hsettled : ∀ (accepted : String) (value : α), ofText? accepted = some value →
      Settled nestingLimit value := by
    intro accepted value h
    obtain ⟨json, -, hread⟩ := Option.bind_eq_some_iff.mp h
    exact Lawful.settled hread
  refine ⟨hreads, fun accepted value h => ?_, fun accepted normal h => ?_⟩
  · obtain ⟨hnesting, hback⟩ := hsettled accepted value h
    have hvalue := (hfits value).mpr hback
    exact ⟨hvalue, hnesting, hreads value hvalue hnesting⟩
  · obtain ⟨value, hread, rfl⟩ := Option.map_eq_some_iff.mp h
    obtain ⟨hnesting, hback⟩ := hsettled accepted value hread
    rw [normalize?, (hreads value ((hfits value).mpr hback) hnesting).1, Option.map_some]

/-- A type all of whose values read back keeps each of them. -/
theorem faithful_of_readsBack [Lawful α] (h : ∀ value : α, ReadsBack value) :
    Faithful α fun _ => True :=
  faithful_of_lawful fun value => ⟨fun _ => h value, fun _ => trivial⟩

end

end Graft.Json
