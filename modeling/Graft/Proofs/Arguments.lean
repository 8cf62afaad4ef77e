/-
What the check of arguments lets through.

Before the script of an operation runs, the number of the arguments has to lie within the bounds of the
signature, and each of them has to inhabit the hint of its position. Here both are said without the
functions that decide them: what inhabits a hint is an inductive typing of values, and what a fault
says about the bounds is what its text stands for, read as a text. That the text can be read in one way
only is a matter of digits, which are neither points nor letters.

The main statement is `Registry.arguments_checked`.
-/
import Graft.Proofs.Nesting
import Graft.Proofs.Separators
import Graft.Registry

set_option autoImplicit false

namespace Graft

/-! ## 1. Values of a hint -/

/-- The typing of values by hints. -/
inductive Value.Inhabits : Value → Hint → Prop
  | mixed (value : Value) : Inhabits value .mixed
  /-- The values of a named type are not known here. -/
  | named (value : Value) (name : String) : Inhabits value (.named name)
  | null : Inhabits .null .null
  | bool (b : Bool) : Inhabits (.bool b) .bool
  | int (i : Int64) : Inhabits (.int i) .int
  | float (bits : UInt64) : Inhabits (.float bits) .float
  /-- A whole number stands for a double. -/
  | widened (i : Int64) : Inhabits (.int i) .float
  | string (s : String) : Inhabits (.string s) .string
  | list {items : List Value} {item : Hint} (h : ∀ value ∈ items, Inhabits value item) :
      Inhabits (.list items) (.list item)
  | absent (inner : Hint) : Inhabits .null (.nullable inner)
  | present {value : Value} {inner : Hint} (h : Inhabits value inner) :
      Inhabits value (.nullable inner)

namespace Hint

/-- The induction is on the hint: the items of a list are no parts of its hint, but they are looked at
with the hint of the items. -/
theorem inhabits_of_accepts {hint : Hint} {value : Value} (h : hint.accepts value = true) :
    value.Inhabits hint := by
  induction hint generalizing value with
  | mixed => exact .mixed value
  | named name => exact .named value name
  | null =>
    cases value with
    | null => exact .null
    | _ => cases h
  | bool =>
    cases value with
    | bool b => exact .bool b
    | _ => cases h
  | int =>
    cases value with
    | int i => exact .int i
    | _ => cases h
  | float =>
    cases value with
    | float bits => exact .float bits
    | int i => exact .widened i
    | _ => cases h
  | string =>
    cases value with
    | string s => exact .string s
    | _ => cases h
  | list item ih =>
    cases value with
    | list items =>
      have hall := List.all_eq_true.mp h
      exact .list fun value hvalue => ih (hall value hvalue)
    | _ => cases h
  | nullable inner ih =>
    cases value with
    | null => exact .absent inner
    | _ => exact .present (ih h)

theorem accepts_of_inhabits {hint : Hint} {value : Value} (h : value.Inhabits hint) :
    hint.accepts value = true := by
  induction h with
  | list _ ih => exact List.all_eq_true.mpr ih
  | @present value inner _ ih =>
    cases value with
    | null => rfl
    | _ => exact ih
  | _ => rfl

theorem accepts_iff_inhabits {hint : Hint} {value : Value} :
    hint.accepts value = true ↔ value.Inhabits hint :=
  ⟨inhabits_of_accepts, accepts_of_inhabits⟩

end Hint

/-! ## 2. Bounds in words -/

namespace Arity

/-- The numbers that a text of bounds stands for. -/
inductive Reads : String → Nat → Prop
  | exactly (n : Nat) : Reads (toString n) n
  | between {least most n : Nat} (above : least ≤ n) (below : n ≤ most) :
      Reads (toString least ++ "..=" ++ toString most) n
  | atLeast {least n : Nat} (above : least ≤ n) : Reads ("at least " ++ toString least) n

theorem not_mem_toString {n : Nat} {c : Char} (hc : c.isDigit = false) :
    c ∉ (toString n).toList := by
  intro hin
  have hdigit : c.isDigit = true := Json.isDigit_of_mem_repr c hin
  exact absurd (hc.symm.trans hdigit) (by simp)

theorem toString_ne_between (n least most : Nat) :
    toString n ≠ toString least ++ "..=" ++ toString most := by
  intro h
  apply not_mem_toString (n := n) (c := '.') rfl
  -- The points between the bounds would have to be digits.
  rw [h, String.toList_append, String.toList_append]
  simp

theorem toString_ne_atLeast (n least : Nat) : toString n ≠ "at least " ++ toString least := by
  intro h
  apply not_mem_toString (n := n) (c := 'a') rfl
  rw [h, String.toList_append]
  simp

theorem between_ne_atLeast (least most other : Nat) :
    toString least ++ "..=" ++ toString most ≠ "at least " ++ toString other := by
  intro h
  have hin : 'a' ∈ (toString least ++ "..=" ++ toString most).toList := by
    rw [h, String.toList_append]
    simp
  rw [String.toList_append, String.toList_append, List.mem_append, List.mem_append] at hin
  rcases hin with (hin | hin) | hin
  · exact not_mem_toString rfl hin
  · exact absurd hin (by decide)
  · exact not_mem_toString rfl hin

/-- The first point ends the lower bound. -/
theorem between_inj {least most least' most' : Nat}
    (h : toString least ++ "..=" ++ toString most = toString least' ++ "..=" ++ toString most') :
    least = least' ∧ most = most' := by
  have hchars := congrArg String.toList h
  simp only [String.toList_append, List.append_assoc] at hchars
  -- No bound has a point, so both lower bounds end before the same one.
  obtain ⟨hleast, hrest⟩ :=
    Text.append_inj_of_not_mem (not_mem_toString rfl) (not_mem_toString rfl) hchars
  have hpoints : ".=".toList ++ (toString most).toList = ".=".toList ++ (toString most').toList :=
    hrest
  have hmost := List.append_cancel_left hpoints
  exact ⟨Nat.repr_injective (String.toList_injective hleast),
    Nat.repr_injective (String.toList_injective hmost)⟩

theorem reads_toString_iff {m n : Nat} : Reads (toString m) n ↔ n = m := by
  constructor
  · intro h
    generalize htext : toString m = text at h
    cases h with
    | exactly => exact (Nat.repr_injective htext).symm
    | between => exact absurd htext (toString_ne_between _ _ _)
    | atLeast => exact absurd htext (toString_ne_atLeast _ _)
  · rintro rfl
    exact .exactly n

theorem reads_between_iff {least most n : Nat} :
    Reads (toString least ++ "..=" ++ toString most) n ↔ least ≤ n ∧ n ≤ most := by
  constructor
  · intro h
    generalize htext : toString least ++ "..=" ++ toString most = text at h
    cases h with
    | exactly => exact absurd htext.symm (toString_ne_between _ _ _)
    | between above below =>
      obtain ⟨rfl, rfl⟩ := between_inj htext
      exact ⟨above, below⟩
    | atLeast => exact absurd htext (between_ne_atLeast _ _ _)
  · exact fun h => .between h.1 h.2

theorem reads_atLeast_iff {least n : Nat} : Reads ("at least " ++ toString least) n ↔ least ≤ n := by
  constructor
  · intro h
    generalize htext : "at least " ++ toString least = text at h
    cases h with
    | exactly => exact absurd htext.symm (toString_ne_atLeast _ _)
    | between => exact absurd htext.symm (between_ne_atLeast _ _ _)
    | atLeast above =>
      have hleast := congrArg String.toList htext
      rw [String.toList_append, String.toList_append] at hleast
      obtain rfl := Nat.repr_injective (String.toList_injective (List.append_cancel_left hleast))
      exact above
  · exact .atLeast

/-- **The words say the bounds.** The text of an arity stands for the numbers that it admits. -/
theorem reads_text_iff (arity : Arity) (n : Nat) :
    Reads arity.text n ↔ arity.least ≤ n ∧ ∀ most, arity.most = some most → n ≤ most := by
  obtain ⟨least, most⟩ := arity
  unfold text
  cases most with
  | none =>
    rw [reads_atLeast_iff]
    simp
  | some most =>
    dsimp only
    split
    · next heq =>
      subst heq
      rw [reads_toString_iff]
      simp
      omega
    · rw [reads_between_iff]
      simp

/-- The three ways in which bounds are put in words: both are one number, one lies above the other,
or there is no upper one. -/
theorem text_cases (arity : Arity) (h : ∀ most, arity.most = some most → arity.least ≤ most) :
    (arity.most = some arity.least ∧ arity.text = toString arity.least) ∨
      (∃ most, arity.most = some most ∧ arity.least < most ∧
        arity.text = toString arity.least ++ "..=" ++ toString most) ∨
      arity.most = none ∧ arity.text = "at least " ++ toString arity.least := by
  obtain ⟨least, most⟩ := arity
  unfold text
  cases most with
  | none => exact .inr (.inr ⟨rfl, rfl⟩)
  | some most =>
    dsimp only
    split
    · next heq => exact .inl ⟨congrArg some heq, rfl⟩
    · next hne => exact .inr (.inl ⟨most, rfl, Nat.lt_of_le_of_ne (h most rfl) (Ne.symm hne), rfl⟩)

theorem admits_iff (arity : Arity) (n : Nat) :
    arity.admits n = true ↔ arity.least ≤ n ∧ ∀ most, arity.most = some most → n ≤ most := by
  unfold admits
  cases arity.most <;> simp

end Arity

/-! ## 3. Arguments of a signature -/

namespace Signature

/-- There is never a greatest number of arguments below the least one. -/
theorem requiredArity_le_length (signature : Signature) :
    signature.requiredArity ≤ signature.parameters.length := by
  have hfilter := List.length_filter_le (fun p : Parameter => !p.optional) signature.parameters
  unfold requiredArity
  dsimp only
  split
  · exact (Nat.sub_le _ _).trans hfilter
  · exact hfilter

theorem requiredArity_le_of_maxArity {signature : Signature} {most : Nat}
    (h : signature.maxArity = some most) : signature.requiredArity ≤ most := by
  unfold maxArity at h
  split at h
  · exact absurd h (by simp)
  · exact Option.some.inj h ▸ signature.requiredArity_le_length

/-- The signature has room for a number of arguments. -/
def Allows (signature : Signature) (given : Nat) : Prop :=
  signature.requiredArity ≤ given ∧ ∀ most, signature.maxArity = some most → given ≤ most

/-- A value may stand at a position: it inhabits the hint that the position has, if it has one. -/
def Fits (signature : Signature) (position : Nat) (value : Value) : Prop :=
  ∀ hint, signature.hintAt position = some hint → value.Inhabits hint

/-- The first argument that may not stand where it does. -/
structure FirstMisfit (signature : Signature) (arguments : List Value) (index : Nat) (hint : Hint)
    (value : Value) : Prop where
  given : arguments[index]? = some value
  expected : signature.hintAt index = some hint
  refused : ¬ value.Inhabits hint
  first : ∀ earlier < index, ∀ other, arguments[earlier]? = some other → signature.Fits earlier other

variable {signature : Signature} {arguments : List Value}

/-- One step of the search: the first argument may stand where it does, and the search goes on, or it
is found. -/
theorem firstMismatch?_cons (signature : Signature) (start : Nat) (value : Value)
    (rest : List Value) :
    (signature.Fits start value ∧
        signature.firstMismatch? start (value :: rest) = signature.firstMismatch? (start + 1) rest) ∨
      ∃ hint, signature.hintAt start = some hint ∧ ¬ value.Inhabits hint ∧
        signature.firstMismatch? start (value :: rest) = some (.argument start hint ⟨value.kind.text⟩) := by
  rw [firstMismatch?]
  cases hhint : signature.hintAt start with
  | none => exact .inl ⟨fun hint h => absurd (hhint.symm.trans h) (by simp), rfl⟩
  | some hint =>
    dsimp only
    split
    · next haccepts =>
      refine .inl ⟨fun other hother => ?_, rfl⟩
      obtain rfl := Option.some.inj (hhint.symm.trans hother)
      exact Hint.inhabits_of_accepts haccepts
    · next hrefuses =>
      exact .inr ⟨hint, rfl, fun h => hrefuses (Hint.accepts_of_inhabits h), rfl⟩

/-- The whole search. The induction is on the arguments that are left; those before them may stand where
they do. -/
theorem firstMismatch?_cases (signature : Signature) (before rest : List Value)
    (hbefore : ∀ index value, before[index]? = some value → signature.Fits index value) :
    (signature.firstMismatch? before.length rest = none ∧
        ∀ index value, (before ++ rest)[index]? = some value → signature.Fits index value) ∨
      ∃ index hint value, signature.FirstMisfit (before ++ rest) index hint value ∧
        signature.firstMismatch? before.length rest = some (.argument index hint ⟨value.kind.text⟩) := by
  induction rest generalizing before with
  | nil => exact .inl ⟨rfl, by rwa [List.append_nil]⟩
  | cons value rest ih =>
    rcases firstMismatch?_cons signature before.length value rest with
      ⟨hfits, hnext⟩ | ⟨hint, hexpected, hrefused, hfound⟩
    · -- The search goes on behind this argument, which is one of those that may stand where they do.
      have hmore : ∀ index other, (before ++ [value])[index]? = some other →
          signature.Fits index other := by
        intro index other hother
        rw [List.getElem?_append] at hother
        split at hother
        · exact hbefore index other hother
        · next hge =>
          have hlast : index - before.length < 1 := (List.getElem?_eq_some_iff.mp hother).1
          obtain rfl : index = before.length := by omega
          rw [Nat.sub_self] at hother
          obtain rfl := Option.some.inj hother
          exact hfits
      have hrest := ih (before ++ [value]) hmore
      rwa [List.append_assoc, List.singleton_append, List.length_append, List.length_singleton,
        ← hnext] at hrest
    · refine .inr ⟨before.length, hint, value, ⟨?_, hexpected, hrefused, ?_⟩, hfound⟩
      · rw [List.getElem?_append_right (Nat.le_refl _), Nat.sub_self]
        rfl
      · intro earlier hearlier other hother
        rw [List.getElem?_append_left hearlier] at hother
        exact hbefore earlier other hother

theorem admits_arity_iff {given : Nat} : signature.arity.admits given = true ↔ signature.Allows given :=
  Arity.admits_iff _ _

theorem check_of_not_allows (h : ¬ signature.Allows arguments.length) :
    signature.check arguments = .error (.arity ⟨signature.arity.text⟩ arguments.length) := by
  rw [check, if_neg (mt admits_arity_iff.mp h)]

/-- If the number of arguments is allowed, the check passes or ends at the first that may not stand
where it does. -/
theorem check_of_allows (h : signature.Allows arguments.length) :
    (signature.check arguments = .ok () ∧
        ∀ index value, arguments[index]? = some value → signature.Fits index value) ∨
      ∃ index hint value, signature.FirstMisfit arguments index hint value ∧
        signature.check arguments = .error (.argument index hint ⟨value.kind.text⟩) := by
  rw [check, if_pos (admits_arity_iff.mpr h)]
  rcases firstMismatch?_cases signature [] arguments (by simp) with
    ⟨hnone, hfits⟩ | ⟨index, hint, value, hmisfit, hfound⟩
  · rw [show signature.firstMismatch? 0 arguments = none from hnone]
    exact .inl ⟨rfl, hfits⟩
  · rw [show signature.firstMismatch? 0 arguments = _ from hfound]
    exact .inr ⟨index, hint, value, hmisfit, rfl⟩

theorem check_eq_ok_iff : signature.check arguments = .ok () ↔
    signature.Allows arguments.length ∧
      ∀ index value, arguments[index]? = some value → signature.Fits index value := by
  by_cases hallows : signature.Allows arguments.length
  · rcases check_of_allows hallows with ⟨hcheck, hfits⟩ | ⟨index, hint, value, hmisfit, hcheck⟩
    · exact ⟨fun _ => ⟨hallows, hfits⟩, fun _ => hcheck⟩
    · constructor
      · exact fun hok => absurd (hok.symm.trans hcheck) (by simp)
      · rintro ⟨-, hfits⟩
        exact absurd (hfits index value hmisfit.given hint hmisfit.expected) hmisfit.refused
  · rw [check_of_not_allows hallows]
    exact ⟨fun h => absurd h (by simp), fun h => absurd h.1 hallows⟩

end Signature

/-! ## 4. Attempts -/

namespace Registry

section

variable {m : Type → Type} [Monad m] [Host m] {op : Operation} {arguments : List Value}

theorem attempt_of_refused {fault : Fault}
    (h : op.handler.signature.check arguments = .error fault) (steps : Nat)
    (receiver : Option Value) (r : Registry) :
    (attempt steps op receiver arguments r : m _) = pure (some (.error fault), r) := by
  rw [attempt, attemptWith, h]

theorem attempt_of_checked (h : op.handler.signature.check arguments = .ok ()) (steps : Nat)
    (receiver : Option Value) (r : Registry) :
    (attempt steps op receiver arguments r : m _) = (do
      let (ending, r') ← run steps
        (op.handler.body ⟨receiver, op.destination, op.name⟩ arguments) r
      return (ending.map Ending.captured, r')) := by
  rw [attempt, attemptWith, h]

end

/-- How the arguments of one attempt are dealt with, on machines of any kind and in any registry. -/
structure ArgumentsChecked (m : Type → Type) [Monad m] [Host m] (op : Operation)
    (receiver : Option Value) (arguments : List Value) (r : Registry) : Prop where
  /-- The bounds are bounds: the least number is not above the greatest one. -/
  bounds : ∀ most, op.handler.signature.maxArity = some most →
    op.handler.signature.requiredArity ≤ most
  /-- Their text is one of three, ... -/
  wording : (op.handler.signature.maxArity = some op.handler.signature.requiredArity ∧
      op.handler.signature.arity.text = toString op.handler.signature.requiredArity) ∨
    (∃ most, op.handler.signature.maxArity = some most ∧
      op.handler.signature.requiredArity < most ∧
      op.handler.signature.arity.text
        = toString op.handler.signature.requiredArity ++ "..=" ++ toString most) ∨
    (op.handler.signature.maxArity = none ∧ op.handler.signature.arity.text
      = "at least " ++ toString op.handler.signature.requiredArity)
  /-- ... and whoever reads it reads the numbers that are within the bounds and no others. -/
  reading : ∀ given, Arity.Reads op.handler.signature.arity.text given ↔
    op.handler.signature.Allows given
  /-- A number out of bounds is the fault, whatever the arguments are. -/
  number : ¬ op.handler.signature.Allows arguments.length → ∀ steps,
    (attempt steps op receiver arguments r : m _)
      = pure (some (.error (.arity ⟨op.handler.signature.arity.text⟩ arguments.length)), r)
  /-- Within the bounds, an argument that may not stand where it does is the fault, and it is the first
  of those. -/
  argument : op.handler.signature.Allows arguments.length →
    (∃ index value, arguments[index]? = some value ∧ ¬ op.handler.signature.Fits index value) →
      ∃ index hint value, op.handler.signature.FirstMisfit arguments index hint value ∧ ∀ steps,
        (attempt steps op receiver arguments r : m _)
          = pure (some (.error (.argument index hint ⟨value.kind.text⟩)), r)
  /-- Otherwise the script of the operation runs once, on these arguments, and its outcome is that of
  the attempt. -/
  run : op.handler.signature.Allows arguments.length →
    (∀ index value, arguments[index]? = some value → op.handler.signature.Fits index value) →
      ∀ steps, (attempt steps op receiver arguments r : m _) = (do
        let (ending, r') ← Registry.run steps
          (op.handler.body ⟨receiver, op.destination, op.name⟩ arguments) r
        return (ending.map Ending.captured, r'))
  /-- Arguments that are refused never come to a script: any other one, be it one that breaks off,
  would do. -/
  unseen : ¬ (op.handler.signature.Allows arguments.length ∧
      ∀ index value, arguments[index]? = some value → op.handler.signature.Fits index value) →
    ∀ body steps,
      (attempt steps { op with handler := { op.handler with body := body } } receiver arguments r
        : m _) = attempt steps op receiver arguments r
  /-- What may stand at a position is a matter of typing: the check of a value against a hint agrees
  with the typing of values by hints. -/
  typing : ∀ (hint : Hint) (value : Value), hint.accepts value = true ↔ value.Inhabits hint

/-- **The check of arguments is exact.** For every signature, script, receiver and list of
arguments. -/
theorem arguments_checked (m : Type → Type) [Monad m] [Host m] (op : Operation)
    (receiver : Option Value) (arguments : List Value) (r : Registry) :
    ArgumentsChecked m op receiver arguments r where
  bounds _ := Signature.requiredArity_le_of_maxArity
  wording := Arity.text_cases op.handler.signature.arity
    fun _ => Signature.requiredArity_le_of_maxArity
  reading given := Arity.reads_text_iff op.handler.signature.arity given
  number hout steps := attempt_of_refused (Signature.check_of_not_allows hout) steps receiver r
  argument := by
    rintro hallows ⟨index, value, hgiven, hmisfit⟩
    rcases Signature.check_of_allows hallows with
      ⟨-, hfits⟩ | ⟨index', hint, value', hfirst, hcheck⟩
    · exact absurd (hfits index value hgiven) hmisfit
    · exact ⟨index', hint, value', hfirst, fun steps => attempt_of_refused hcheck steps receiver r⟩
  run hallows hfits steps :=
    attempt_of_checked (Signature.check_eq_ok_iff.mpr ⟨hallows, hfits⟩) steps receiver r
  unseen := by
    intro hrefused body steps
    -- Both operations have one signature, so both are refused with the same fault.
    cases hcheck : op.handler.signature.check arguments with
    | ok _ => exact absurd (Signature.check_eq_ok_iff.mp hcheck) hrefused
    | error fault =>
      have hother : ({ op with handler := { op.handler with body := body } } :
          Operation).handler.signature.check arguments = .error fault := hcheck
      rw [attempt_of_refused hother, attempt_of_refused hcheck]
  typing _ _ := Hint.accepts_iff_inhabits

end Registry

end Graft
