/-
What the text of a signature shows.

The text puts parameters together from labels and hints, with `: `, `, ` and `) -> ` between them. A
label is the name of a parameter with its marks, the dots of a variadic signature in front and the
question mark of an optional parameter behind. If no label and no hint contains what stands around
it, the labels and the texts of the hints are found again in the text of the signature; these are
its outline.

An outline does not tell a mark from a name that is spelled with it, or a hint from a name that is
spelled like it, and does not show that a signature without parameters is variadic. A signature is
plain if it makes no use of that, and every outline is that of exactly one plain signature.
-/
import Graft.Proofs.HintText
import Graft.Proofs.Separators
import Graft.Signature

set_option autoImplicit false

namespace Graft

open Text

/-! ## 1. Outlines -/

/-- What stands before the colon: the name of a parameter and its marks. -/
def Parameter.label (dots : Bool) (p : Parameter) : String :=
  (if dots then "..." else "") ++ p.name ++ (if p.optional then "?" else "")

namespace Signature

/-- What is shown of a parameter. -/
structure Part where
  label : String
  hint : String
  deriving DecidableEq

/-- What is shown of the parameters. -/
def parts (variadic : Bool) : List Parameter → List Part
  | [] => []
  | p :: rest => ⟨p.label (variadic && rest.isEmpty), p.hint.text⟩ :: parts variadic rest

/-- What is shown of a signature. -/
structure Outline where
  parts : List Part
  returns : String
  deriving DecidableEq

/-- The outline of a signature. -/
def outline (s : Signature) : Outline := ⟨parts s.variadic s.parameters, s.returns.text⟩

/-- The text of the parameters that follow another one. -/
def trail (parts : List Part) : List Char :=
  parts.flatMap fun part =>
    ", ".toList ++ (part.label.toList ++ (": ".toList ++ part.hint.toList))

theorem trail_cons (part : Part) (rest : List Part) :
    trail (part :: rest)
      = ", ".toList ++ (part.label.toList ++ (": ".toList ++ (part.hint.toList ++ trail rest))) := by
  simp only [trail, List.flatMap_cons, List.append_assoc]

/-- The text of the parameters. -/
def listed : List Part → List Char
  | [] => []
  | part :: rest => part.label.toList ++ (": ".toList ++ (part.hint.toList ++ trail rest))

/-- The text that an outline stands for. -/
def Outline.text (o : Outline) : List Char :=
  '(' :: (listed o.parts ++ (") -> ".toList ++ o.returns.toList))

theorem toList_intercalate_parameterTexts (variadic : Bool) (parameters : List Parameter) :
    (String.intercalate ", " (parameterTexts variadic parameters)).toList
      = listed (parts variadic parameters) := by
  induction parameters with
  | nil => simp [parameterTexts, parts, listed]
  | cons p rest ih =>
    cases rest with
    | nil =>
      simp [parameterTexts, parts, listed, trail, Parameter.label, String.append_assoc]
    | cons q rest =>
      rw [parameterTexts, String.intercalate_cons_of_ne_nil (by simp [parameterTexts]),
        String.toList_append, ih]
      simp [parts, listed, trail, Parameter.label, String.append_assoc]

/-- The text of a signature is that of its outline. -/
theorem toList_text (s : Signature) : s.text.toList = s.outline.text := by
  simp only [Signature.text, String.toList_append, toList_intercalate_parameterTexts,
    Outline.text, outline, List.append_assoc]
  rfl

/-! ## 2. Finding the outline in the text -/

/-- A part contains nothing that could be taken for what stands around it. A hint may contain a
comma and a space: what follows the last of them, up to the colon, is the next label. -/
structure Part.Delimited (part : Part) : Prop where
  label_colon : FreeOf ": ".toList part.label.toList
  label_comma : FreeOf ", ".toList part.label.toList
  label_arrow : FreeOf ") -> ".toList part.label.toList
  hint_colon : FreeOf ": ".toList part.hint.toList
  hint_arrow : FreeOf ") -> ".toList part.hint.toList

/-- The outline of a signature can be found in its text. -/
def Delimited (s : Signature) : Prop := ∀ part ∈ s.outline.parts, part.Delimited

theorem borderless_colon : Borderless ": ".toList := by decide

theorem borderless_comma : Borderless ", ".toList.reverse := by decide

theorem borderless_arrow : Borderless ") -> ".toList := by decide

/-- Between two colons stand a hint, a comma and a label. -/
theorem freeOf_colon_between {hint : List Char} {part : Part} (hhint : FreeOf ": ".toList hint)
    (hpart : part.Delimited) : FreeOf ": ".toList (hint ++ (", ".toList ++ part.label.toList)) :=
  hhint.append_cons (by decide) (hpart.label_colon.cons (by decide))

theorem Part.eq_of_toList_eq {part part' : Part} (hlabel : part.label.toList = part'.label.toList)
    (hhint : part.hint.toList = part'.hint.toList) : part = part' := by
  obtain ⟨label, hint⟩ := part
  obtain ⟨label', hint'⟩ := part'
  obtain rfl : label = label' := String.toList_inj.mp hlabel
  obtain rfl : hint = hint' := String.toList_inj.mp hhint
  rfl

/-- The step from one label to the next: a hint and all that follows it. The induction is on the
parameters that follow; the text of a hint ends at the last comma before the next colon. -/
theorem trail_inj {rest rest' : List Part} {hint hint' : List Char}
    (hrest : ∀ part ∈ rest, part.Delimited) (hrest' : ∀ part ∈ rest', part.Delimited)
    (hhint : FreeOf ": ".toList hint) (hhint' : FreeOf ": ".toList hint')
    (h : hint ++ trail rest = hint' ++ trail rest') : hint = hint' ∧ rest = rest' := by
  have hcons (hint : List Char) (part : Part) (rest : List Part) :
      hint ++ trail (part :: rest) = (hint ++ (", ".toList ++ part.label.toList)) ++
        (": ".toList ++ (part.hint.toList ++ trail rest)) := by
    simp only [trail_cons, List.append_assoc]
  have hcolon {hint hint' : List Char} {part : Part} {rest : List Part}
      (h : hint = hint' ++ trail (part :: rest)) : ¬ FreeOf ": ".toList hint := by
    rw [hcons] at h
    exact fun hfree => hfree ⟨_, _, by rw [h, List.append_assoc]⟩
  induction rest generalizing hint hint' rest' with
  | nil =>
    rw [show trail [] = [] from rfl, List.append_nil] at h
    cases rest' with
    | nil => exact ⟨h.trans (List.append_nil _), rfl⟩
    | cons part' rest' => exact absurd hhint (hcolon h)
  | cons part rest ih =>
    cases rest' with
    | nil =>
      rw [show trail [] = [] from rfl, List.append_nil] at h
      exact absurd hhint' (hcolon h.symm)
    | cons part' rest' =>
      obtain ⟨hpart, hrest⟩ := List.forall_mem_cons.mp hrest
      obtain ⟨hpart', hrest'⟩ := List.forall_mem_cons.mp hrest'
      rw [hcons, hcons] at h
      -- First the colon behind the next label, then, from the right, the comma in front of it.
      obtain ⟨hbefore, hbehind⟩ := append_inj_of_freeOf borderless_colon
        (freeOf_colon_between hhint hpart) (freeOf_colon_between hhint' hpart') h
      obtain ⟨rfl, hlabel⟩ := append_inj_of_freeOf_right borderless_comma
        hpart.label_comma hpart'.label_comma hbefore
      obtain ⟨hhint, rfl⟩ := ih hrest hrest' hpart.hint_colon hpart'.hint_colon hbehind
      exact ⟨rfl, by rw [Part.eq_of_toList_eq hlabel hhint]⟩

/-- Delimited parts are found again in their text. -/
theorem listed_inj {ps ps' : List Part} (hps : ∀ part ∈ ps, part.Delimited)
    (hps' : ∀ part ∈ ps', part.Delimited) (h : listed ps = listed ps') : ps = ps' := by
  have hne (part : Part) (rest : List Part) : listed (part :: rest) ≠ [] := by
    intro hnil
    have hcolon : ": ".toList = [] := (List.append_eq_nil_iff.mp (List.append_eq_nil_iff.mp hnil).2).1
    exact absurd hcolon (by decide)
  cases ps with
  | nil =>
    cases ps' with
    | nil => rfl
    | cons part' rest' => exact absurd h.symm (hne _ _)
  | cons part rest =>
    cases ps' with
    | nil => exact absurd h (hne _ _)
    | cons part' rest' =>
      obtain ⟨hpart, hrest⟩ := List.forall_mem_cons.mp hps
      obtain ⟨hpart', hrest'⟩ := List.forall_mem_cons.mp hps'
      obtain ⟨hlabel, hbehind⟩ :=
        append_inj_of_freeOf borderless_colon hpart.label_colon hpart'.label_colon h
      obtain ⟨hhint, rfl⟩ := trail_inj hrest hrest' hpart.hint_colon hpart'.hint_colon hbehind
      rw [Part.eq_of_toList_eq hlabel hhint]

/-- No arrow starts before the end of the parameters. -/
theorem freeOf_arrow_trail {hint : List Char} {rest : List Part}
    (hhint : FreeOf ") -> ".toList hint) (hrest : ∀ part ∈ rest, part.Delimited) :
    FreeOf ") -> ".toList (hint ++ trail rest) := by
  induction rest generalizing hint with
  | nil => rwa [show trail [] = [] from rfl, List.append_nil]
  | cons part rest ih =>
    obtain ⟨hpart, hrest⟩ := List.forall_mem_cons.mp hrest
    have hbehind : FreeOf ") -> ".toList (part.hint.toList ++ trail rest) :=
      ih hpart.hint_arrow hrest
    -- Neither a comma nor a colon is part of the arrow, so they keep the pieces apart.
    have hlabel : FreeOf ") -> ".toList
        (part.label.toList ++ (": ".toList ++ (part.hint.toList ++ trail rest))) :=
      hpart.label_arrow.append_cons (by decide) (hbehind.cons (by decide))
    rw [trail_cons]
    exact hhint.append_cons (by decide) (hlabel.cons (by decide))

theorem freeOf_arrow_listed {ps : List Part} (hps : ∀ part ∈ ps, part.Delimited) :
    FreeOf ") -> ".toList (listed ps) := by
  cases ps with
  | nil => decide
  | cons part rest =>
    obtain ⟨hpart, hrest⟩ := List.forall_mem_cons.mp hps
    exact hpart.label_arrow.append_cons (by decide)
      ((freeOf_arrow_trail hpart.hint_arrow hrest).cons (by decide))

/-- Signatures that are delimited and have the same text have the same outline. -/
theorem outline_eq_of_text_eq {s t : Signature} (hs : s.Delimited) (ht : t.Delimited)
    (h : s.text = t.text) : s.outline = t.outline := by
  have hlists : s.outline.text = t.outline.text := by rw [← toList_text, ← toList_text, h]
  obtain ⟨hparts, hreturns⟩ := append_inj_of_freeOf borderless_arrow
    (freeOf_arrow_listed hs) (freeOf_arrow_listed ht) (List.cons.inj hlists).2
  have hps : s.outline.parts = t.outline.parts := listed_inj hs ht hparts
  have hret : s.outline.returns = t.outline.returns := String.toList_inj.mp hreturns
  show Outline.mk s.outline.parts s.outline.returns = Outline.mk t.outline.parts t.outline.returns
  rw [hps, hret]

/-! ## 3. Reading an outline -/

/-- The parameter that a label and the text of a hint are read as. -/
def readParameter (label : List Char) (hint : String) : Parameter :=
  if label.getLast? = some '?' then
    ⟨String.ofList label.dropLast, .ofChars hint.toList, true⟩
  else ⟨String.ofList label, .ofChars hint.toList, false⟩

/-- Whether parts are read as those of a variadic signature, and their parameters. -/
def readParts : List Part → Bool × List Parameter
  | [] => (false, [])
  | [part] =>
    if "...".toList <+: part.label.toList then
      (true, [readParameter (part.label.toList.drop 3) part.hint])
    else (false, [readParameter part.label.toList part.hint])
  | part :: next :: rest =>
    ((readParts (next :: rest)).1,
      readParameter part.label.toList part.hint :: (readParts (next :: rest)).2)

/-- The signature that an outline is read as. -/
def Outline.read (o : Outline) : Signature :=
  ⟨(readParts o.parts).2, (readParts o.parts).1, .ofChars o.returns.toList⟩

/-- A signature that hides nothing from its text: no type is named like another hint, no required
parameter like an optional one and no single one like the dots, and there is a parameter to carry
the dots of a variadic signature. -/
structure Plain (s : Signature) : Prop where
  returns : s.returns.Plain
  hint : ∀ p ∈ s.parameters, p.hint.Plain
  mark : ∀ p ∈ s.parameters, p.name.toList.getLast? = some '?' → p.optional = true
  dots : ∀ p, s.parameters.getLast? = some p → "...".toList <+: p.name.toList → s.variadic = true
  variadic : s.variadic = true → s.parameters ≠ []

/-- The name of a parameter with the mark of an optional one. -/
def marked (p : Parameter) : List Char := p.name.toList ++ (if p.optional then ['?'] else [])

theorem toList_label (dots : Bool) (p : Parameter) :
    (p.label dots).toList = (if dots then "...".toList else []) ++ marked p := by
  unfold Parameter.label marked
  cases dots <;> cases p.optional <;> simp

/-- What a label is read as has that label. -/
theorem marked_readParameter (label : List Char) (hint : String) :
    marked (readParameter label hint) = label := by
  unfold readParameter
  split
  · next hlast =>
    obtain ⟨before, rfl⟩ := List.getLast?_eq_some_iff.mp hlast
    show (String.ofList (before ++ ['?']).dropLast).toList ++ ['?'] = before ++ ['?']
    rw [List.dropLast_concat, String.toList_ofList]
  · show (String.ofList label).toList ++ [] = label
    rw [String.toList_ofList, List.append_nil]

theorem hint_readParameter (label : List Char) (hint : String) :
    (readParameter label hint).hint = .ofChars hint.toList := by
  unfold readParameter
  split <;> rfl

theorem text_ofChars_toList (hint : String) : (Hint.ofChars hint.toList).text = hint :=
  String.toList_inj.mp (Hint.text_ofChars hint.toList)

/-- A parameter whose name does not end in the mark of an optional one is what is shown of it. -/
theorem readParameter_marked {p : Parameter} (hhint : p.hint.Plain)
    (hmark : p.name.toList.getLast? = some '?' → p.optional = true) :
    readParameter (marked p) p.hint.text = p := by
  obtain ⟨name, hint, optional⟩ := p
  unfold readParameter
  rw [Hint.ofChars_text hhint]
  cases optional with
  | true =>
    have hlabel : marked ⟨name, hint, true⟩ = name.toList ++ ['?'] := rfl
    rw [hlabel, List.getLast?_concat, if_pos rfl, List.dropLast_concat, String.ofList_toList]
  | false =>
    have hlabel : marked ⟨name, hint, false⟩ = name.toList := List.append_nil _
    have hlast : name.toList.getLast? ≠ some '?' := fun h => absurd (hmark h) (by simp)
    rw [hlabel, if_neg hlast, String.ofList_toList]

theorem exists_cons_readParts (part : Part) (rest : List Part) :
    ∃ p ps, (readParts (part :: rest)).2 = p :: ps := by
  cases rest with
  | nil =>
    unfold readParts
    split <;> exact ⟨_, _, rfl⟩
  | cons next rest => exact ⟨_, _, rfl⟩

/-- What an outline is read as has that outline. -/
theorem outline_read (o : Outline) : o.read.outline = o := by
  obtain ⟨ps, returns⟩ := o
  have hpart (dots : Bool) (label : List Char) (part : Part)
      (h : (if dots then "...".toList else []) ++ label = part.label.toList) :
      Part.mk ((readParameter label part.hint).label dots) (readParameter label part.hint).hint.text
        = part := by
    have hlabel : (readParameter label part.hint).label dots = part.label := by
      rw [← String.toList_inj, toList_label, marked_readParameter, h]
    rw [hlabel, hint_readParameter, text_ofChars_toList]
  -- Only the last part may carry dots, so the cases are those of the reader.
  have hparts : parts (readParts ps).1 (readParts ps).2 = ps := by
    fun_induction readParts ps with
    | case1 => rfl
    | case2 part hdots =>
      obtain ⟨rest, hrest⟩ := hdots
      have hdrop : part.label.toList.drop 3 = rest := by rw [← hrest]; rfl
      rw [hdrop]
      exact congrArg (· :: []) (hpart true rest part hrest)
    | case3 part hdots => exact congrArg (· :: []) (hpart false _ part rfl)
    | case4 part next rest ih =>
      obtain ⟨p, ps, hread⟩ := exists_cons_readParts next rest
      have hlonger : (readParts (next :: rest)).2.isEmpty = false := by rw [hread]; rfl
      show Part.mk _ _ :: parts _ _ = _
      rw [ih, hlonger, Bool.and_false, hpart false part.label.toList part rfl]
  show Outline.mk (parts (readParts ps).1 (readParts ps).2) (Hint.ofChars returns.toList).text = _
  rw [hparts, text_ofChars_toList]

/-- Whatever is read from parts is read from a label and a hint. -/
theorem eq_readParameter_of_mem {ps : List Part} {p : Parameter} (h : p ∈ (readParts ps).2) :
    ∃ label hint, p = readParameter label hint := by
  fun_induction readParts ps with
  | case1 => exact absurd h List.not_mem_nil
  | case2 part hdots => exact ⟨_, _, List.mem_singleton.mp h⟩
  | case3 part hdots => exact ⟨_, _, List.mem_singleton.mp h⟩
  | case4 part next rest ih =>
    rcases List.mem_cons.mp h with h | h
    · exact ⟨_, _, h⟩
    · exact ih h

/-- The name that is read from a label starts the label, and ends in a mark only if there was
another one. -/
theorem name_readParameter (label : List Char) (hint : String) :
    (readParameter label hint).name.toList <+: label ∧
      ((readParameter label hint).name.toList.getLast? = some '?' →
        (readParameter label hint).optional = true) := by
  unfold readParameter
  split
  · refine ⟨?_, fun _ => rfl⟩
    show (String.ofList label.dropLast).toList <+: label
    rw [String.toList_ofList]
    exact List.dropLast_prefix label
  · next hlast =>
    show (String.ofList label).toList <+: label ∧
      ((String.ofList label).toList.getLast? = some '?' → false = true)
    rw [String.toList_ofList]
    exact ⟨List.prefix_refl _, fun h => absurd h hlast⟩

/-- Parts are read as those of a variadic signature whenever the last label starts with dots. -/
theorem variadic_of_dots {ps : List Part} {p : Parameter}
    (hlast : (readParts ps).2.getLast? = some p) (hdots : "...".toList <+: p.name.toList) :
    (readParts ps).1 = true := by
  fun_induction readParts ps with
  | case1 => exact absurd hlast (by simp)
  | case2 part hpart => rfl
  | case3 part hpart =>
    obtain rfl := Option.some.inj hlast
    exact absurd (hdots.trans (name_readParameter _ _).1) hpart
  | case4 part next rest ih =>
    obtain ⟨q, qs, hread⟩ := exists_cons_readParts next rest
    rw [hread, List.getLast?_cons_cons, ← hread] at hlast
    exact ih hlast

theorem readParts_ne_nil {ps : List Part} (h : (readParts ps).1 = true) :
    (readParts ps).2 ≠ [] := by
  cases ps with
  | nil => exact absurd h (by simp [readParts])
  | cons part rest =>
    obtain ⟨q, qs, hread⟩ := exists_cons_readParts part rest
    rw [hread]
    exact List.cons_ne_nil _ _

/-- What an outline is read as is plain. -/
theorem plain_read (o : Outline) : o.read.Plain where
  returns := Hint.plain_ofChars _
  hint := by
    intro p hp
    obtain ⟨label, hint, rfl⟩ := eq_readParameter_of_mem hp
    rw [hint_readParameter]
    exact Hint.plain_ofChars _
  mark := by
    intro p hp
    obtain ⟨label, hint, rfl⟩ := eq_readParameter_of_mem hp
    exact (name_readParameter label hint).2
  dots _ hlast hdots := variadic_of_dots hlast hdots
  variadic h := readParts_ne_nil h

/-- The mark of an optional parameter is no part of the dots. -/
theorem dots_of_dots_marked {p : Parameter} (h : "...".toList <+: marked p) :
    "...".toList <+: p.name.toList := by
  unfold marked at h
  split at h
  · rcases List.prefix_concat_iff.mp h with heq | h
    · have hmem : '?' ∈ "...".toList := heq ▸ List.mem_append_right _ List.mem_cons_self
      exact absurd hmem (by decide)
    · exact h
  · rwa [List.append_nil] at h

/-- The parameters of a plain signature are what is shown of them. -/
theorem readParts_parts {variadic : Bool} {parameters : List Parameter}
    (hhint : ∀ p ∈ parameters, p.hint.Plain)
    (hmark : ∀ p ∈ parameters, p.name.toList.getLast? = some '?' → p.optional = true)
    (hdots : ∀ p, parameters.getLast? = some p → "...".toList <+: p.name.toList → variadic = true)
    (hvariadic : variadic = true → parameters ≠ []) :
    readParts (parts variadic parameters) = (variadic, parameters) := by
  induction parameters with
  | nil =>
    cases variadic with
    | true => exact absurd rfl (hvariadic rfl)
    | false => rfl
  | cons p rest ih =>
    obtain ⟨hp, hrest⟩ := List.forall_mem_cons.mp hhint
    obtain ⟨hpmark, hrestmark⟩ := List.forall_mem_cons.mp hmark
    have hread : readParameter (marked p) p.hint.text = p := readParameter_marked hp hpmark
    -- The last parameter carries the dots; the others are read the same in either case.
    cases rest with
    | nil =>
      have hone : parts variadic [p] = [⟨p.label variadic, p.hint.text⟩] := by
        rw [parts, List.isEmpty_nil, Bool.and_true, parts]
      rw [hone, readParts]
      cases variadic with
      | true =>
        have hlabel : (p.label true).toList = "...".toList ++ marked p := toList_label true p
        have hdrop : (p.label true).toList.drop 3 = marked p := by rw [hlabel]; rfl
        rw [if_pos ⟨_, hlabel.symm⟩, hdrop, hread]
      | false =>
        have hlabel : (p.label false).toList = marked p := toList_label false p
        have hfree : ¬ "...".toList <+: marked p :=
          fun h => absurd (hdots p rfl (dots_of_dots_marked h)) (by simp)
        rw [hlabel, if_neg hfree, hread]
    | cons q rest =>
      have hrec := ih hrest hrestmark (fun r hr => hdots r hr) (fun _ => List.cons_ne_nil _ _)
      have hlabel : (p.label (variadic && (q :: rest).isEmpty)).toList = marked p := by
        rw [toList_label, List.isEmpty_cons, Bool.and_false]
        rfl
      show ((readParts (parts variadic (q :: rest))).1,
        readParameter (p.label (variadic && (q :: rest).isEmpty)).toList p.hint.text ::
          (readParts (parts variadic (q :: rest))).2) = _
      rw [hrec, hlabel, hread]

/-- A plain signature is what its outline is read as. -/
theorem read_outline {s : Signature} (h : s.Plain) : s.outline.read = s := by
  obtain ⟨parameters, variadic, returns⟩ := s
  show Signature.mk (readParts (parts variadic parameters)).2
    (readParts (parts variadic parameters)).1 (.ofChars returns.text.toList) = _
  rw [readParts_parts h.hint h.mark h.dots h.variadic, Hint.ofChars_text h.returns]

/-- Plain signatures with the same outline are the same. -/
theorem eq_of_outline_eq {s t : Signature} (hs : s.Plain) (ht : t.Plain)
    (h : s.outline = t.outline) : s = t := by
  rw [← read_outline hs, h, read_outline ht]

end Signature

end Graft
