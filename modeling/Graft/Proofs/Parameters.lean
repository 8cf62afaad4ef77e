/-
Whether the parameters that a caller must supply are supplied.

The least number of arguments of a signature is the number of the parameters that are not optional, the
trailing one of a variadic signature aside. It says how many arguments there are and not for which
parameters, and arguments go to parameters by their position. So a call that is let through may lack
the argument of a parameter that is not optional: it does if an optional one stands before it and takes
the argument. It cannot happen exactly if the parameters that are not optional come first.

That the count is an honest bound only in this case is a statement about lists
(`lt_countP_iff_pairwise`); that the calls for the other direction exist needs a value for
every hint.

The main statement is `Signature.always_given_iff`.
-/
import Graft.Proofs.Arguments

set_option autoImplicit false

namespace Graft

/-! ## 1. Counting by position -/

section

variable {α : Type} {q : α → Bool} {items : List α}

/-- If there is any item that counts, there is one so far back that all that count fit before it and
with it. -/
theorem exists_countP_le (h : ∃ item ∈ items, q item = true) :
    ∃ index item, items[index]? = some item ∧ q item = true ∧ items.countP q ≤ index + 1 := by
  induction items with
  | nil => exact absurd h (by simp)
  | cons first rest ih =>
    by_cases hrest : ∃ item ∈ rest, q item = true
    · obtain ⟨index, item, hitem, hq, hcount⟩ := ih hrest
      refine ⟨index + 1, item, hitem, hq, ?_⟩
      rw [List.countP_cons]
      split <;> omega
    · -- Then it is the first item, and the only one.
      have hnone : rest.countP q = 0 :=
        List.countP_eq_zero.mpr fun item hin hq => hrest ⟨item, hin, hq⟩
      obtain ⟨item, hin, hq⟩ := h
      obtain rfl : item = first :=
        (List.mem_cons.mp hin).resolve_right fun hin => hrest ⟨item, hin, hq⟩
      refine ⟨0, item, rfl, hq, ?_⟩
      rw [List.countP_cons_of_pos hq, hnone]

/-- Items that count stand at positions below their number exactly if no item that does not count
stands before one that does. -/
theorem lt_countP_iff_pairwise :
    (∀ index item, items[index]? = some item → q item = true → index < items.countP q) ↔
      items.Pairwise fun earlier later => q later = true → q earlier = true := by
  induction items with
  | nil => simp
  | cons first rest ih =>
    rw [List.pairwise_cons, ← ih]
    by_cases hfirst : q first = true
    · rw [List.countP_cons_of_pos hfirst]
      constructor
      · intro h
        exact ⟨fun _ _ _ => hfirst, fun index item hitem hq =>
          Nat.lt_of_succ_lt_succ (h (index + 1) item hitem hq)⟩
      · rintro ⟨-, h⟩ index item hitem hq
        cases index with
        | zero => exact Nat.succ_pos _
        | succ index => exact Nat.succ_lt_succ (h index item hitem hq)
    · rw [List.countP_cons_of_neg hfirst]
      constructor
      · intro h
        -- One that counts would lie too far back, as the first item takes a position and adds nothing.
        have hnone : ¬ ∃ item ∈ rest, q item = true := by
          intro hsome
          obtain ⟨index, item, hitem, hq, hcount⟩ := exists_countP_le hsome
          have hlt := h (index + 1) item hitem hq
          omega
        exact ⟨fun item hin hq => absurd ⟨item, hin, hq⟩ hnone,
          fun index item hitem hq => absurd ⟨item, List.mem_of_getElem? hitem, hq⟩ hnone⟩
      · rintro ⟨hnone, -⟩ index item hitem hq
        cases index with
        | zero => exact absurd (Option.some.inj hitem ▸ hq) hfirst
        | succ index => exact absurd (hnone item (List.mem_of_getElem? hitem) hq) hfirst

end

/-! ## 2. Parameters that a caller must supply -/

/-- Every hint has a value. -/
theorem Hint.exists_inhabits (hint : Hint) : ∃ value : Value, value.Inhabits hint := by
  cases hint with
  | mixed => exact ⟨.null, .mixed .null⟩
  | named name => exact ⟨.null, .named .null name⟩
  | null => exact ⟨.null, .null⟩
  | bool => exact ⟨.bool true, .bool true⟩
  | int => exact ⟨.int 0, .int 0⟩
  | float => exact ⟨.float 0, .float 0⟩
  | string => exact ⟨.string "", .string ""⟩
  | list item => exact ⟨.list [], .list fun _ hin => absurd hin List.not_mem_nil⟩
  | nullable inner => exact ⟨.null, .absent inner⟩

namespace Signature

/-- The parameters that take one argument each: all but the trailing one of a variadic signature. -/
def positional (signature : Signature) : List Parameter :=
  if signature.variadic then signature.parameters.dropLast else signature.parameters

/-- A caller must supply the parameter of a position: it is not optional, and it is not the one that
takes any number of trailing arguments. -/
structure Requires (signature : Signature) (index : Nat) (p : Parameter) : Prop where
  declared : signature.parameters[index]? = some p
  required : p.optional = false
  single : signature.variadic = true → index + 1 < signature.parameters.length

/-- The parameters that a caller must supply come first: no optional one stands before any of them. -/
def RequiredFirst (signature : Signature) : Prop :=
  ∀ earlier p later p', earlier < later → signature.parameters[earlier]? = some p →
    signature.Requires later p' → p.optional = false

/-- Whatever the arguments are, if they are let through then there is one for a parameter, and it has
the hint of the parameter. -/
def AlwaysGiven (signature : Signature) (index : Nat) (p : Parameter) : Prop :=
  ∀ arguments, signature.check arguments = .ok () →
    ∃ value, arguments[index]? = some value ∧ value.Inhabits p.hint

variable {signature : Signature} {index : Nat} {p : Parameter}

theorem getElem?_positional : signature.positional[index]? = some p ↔
    signature.parameters[index]? = some p ∧
      (signature.variadic = true → index + 1 < signature.parameters.length) := by
  unfold positional
  split
  · next hvariadic =>
    rw [List.getElem?_dropLast]
    split
    · next hlt => exact ⟨fun h => ⟨h, fun _ => by omega⟩, fun h => h.1⟩
    · next hge =>
      exact ⟨fun h => absurd h (by simp), fun h => absurd (h.2 hvariadic) (by omega)⟩
  · next hplain => exact ⟨fun h => ⟨h, fun h => absurd h hplain⟩, fun h => h.1⟩

theorem requires_iff : signature.Requires index p ↔
    signature.positional[index]? = some p ∧ (!p.optional) = true := by
  rw [getElem?_positional, Bool.not_eq_true']
  exact ⟨fun h => ⟨⟨h.declared, h.single⟩, h.required⟩, fun h => ⟨h.1.1, h.2, h.1.2⟩⟩

/-- The least number of arguments is the number of the parameters that a caller must supply. -/
theorem requiredArity_eq_countP :
    signature.requiredArity = signature.positional.countP fun p => !p.optional := by
  unfold requiredArity positional
  rw [← List.countP_eq_length_filter]
  dsimp only
  cases signature.variadic with
  | false => rfl
  | true =>
    rcases List.eq_nil_or_concat' signature.parameters with hnil | ⟨before, last, hlast⟩
    · rw [hnil]
      rfl
    · rw [hlast, List.dropLast_concat, List.getLast?_concat, List.countP_append]
      cases hoptional : last.optional <;> simp [hoptional]

theorem requiredFirst_iff_pairwise : signature.RequiredFirst ↔
    signature.positional.Pairwise fun earlier later =>
      (!later.optional) = true → (!earlier.optional) = true := by
  rw [List.pairwise_iff_getElem]
  constructor
  · intro h i j hi hj hij hlater
    have hrequires : signature.Requires j signature.positional[j] :=
      requires_iff.mpr ⟨List.getElem?_eq_getElem hj, hlater⟩
    have hdeclared := (getElem?_positional.mp (List.getElem?_eq_getElem hi)).1
    rw [h i _ j _ hij hdeclared hrequires]
    rfl
  · intro h i p j p' hij hp hrequires
    obtain ⟨hp', hrequired⟩ := requires_iff.mp hrequires
    have hpositional : signature.positional[i]? = some p :=
      getElem?_positional.mpr ⟨hp, fun hvariadic => by have := hrequires.single hvariadic; omega⟩
    obtain ⟨hi, rfl⟩ := List.getElem?_eq_some_iff.mp hpositional
    obtain ⟨hj, rfl⟩ := List.getElem?_eq_some_iff.mp hp'
    exact (Bool.not_eq_true' _).mp (h i j hi hj hij hrequired)

/-- The parameters that a caller must supply stand within the least number of arguments exactly if they
come first. -/
theorem requires_lt_iff_requiredFirst :
    (∀ index p, signature.Requires index p → index < signature.requiredArity) ↔
      signature.RequiredFirst := by
  rw [requiredFirst_iff_pairwise, ← lt_countP_iff_pairwise, ← requiredArity_eq_countP]
  constructor
  · exact fun h index p hp hrequired => h index p (requires_iff.mpr ⟨hp, hrequired⟩)
  · exact fun h index p hp => h index p (requires_iff.mp hp).1 (requires_iff.mp hp).2

/-! ## 3. Calls that are let through -/

/-- Some call with any number of arguments within the bounds is let through. -/
theorem exists_check_eq_ok {given : Nat} (h : signature.Allows given) :
    ∃ arguments : List Value, arguments.length = given ∧ signature.check arguments = .ok () := by
  -- At every position some value may stand.
  have hfits (position : Nat) : ∃ value, signature.Fits position value := by
    cases hhint : signature.hintAt position with
    | none => exact ⟨.null, fun hint h => absurd (hhint.symm.trans h) (by simp)⟩
    | some hint =>
      obtain ⟨value, hvalue⟩ := hint.exists_inhabits
      exact ⟨value, fun other hother => Option.some.inj (hhint.symm.trans hother) ▸ hvalue⟩
  choose sample hsample using hfits
  refine ⟨(List.range given).map sample, by simp, check_eq_ok_iff.mpr ⟨by simpa using h, ?_⟩⟩
  intro index value hvalue
  rw [List.getElem?_map, Option.map_eq_some_iff] at hvalue
  obtain ⟨position, hposition, rfl⟩ := hvalue
  obtain ⟨hlt, rfl⟩ := List.getElem?_eq_some_iff.mp hposition
  rw [List.getElem_range]
  exact hsample index

/-- The least number of arguments is itself within the bounds. -/
theorem allows_requiredArity : signature.Allows signature.requiredArity :=
  ⟨Nat.le_refl _, fun _ => requiredArity_le_of_maxArity⟩

/-- A parameter of the signature is always given exactly if its position lies within the least number
of arguments. -/
theorem alwaysGiven_iff_lt (h : signature.parameters[index]? = some p) :
    signature.AlwaysGiven index p ↔ index < signature.requiredArity := by
  constructor
  · intro hgiven
    have hallows : signature.Allows signature.requiredArity := allows_requiredArity
    obtain ⟨arguments, hlength, hcheck⟩ := exists_check_eq_ok hallows
    obtain ⟨value, hvalue, -⟩ := hgiven arguments hcheck
    exact hlength ▸ (List.getElem?_eq_some_iff.mp hvalue).1
  · intro hlt arguments hcheck
    obtain ⟨⟨hleast, -⟩, hfits⟩ := check_eq_ok_iff.mp hcheck
    have hvalue := List.getElem?_eq_getElem (hlt.trans_le hleast)
    have hhint : signature.hintAt index = some p.hint := by rw [hintAt, h]
    exact ⟨_, hvalue, hfits index _ hvalue p.hint hhint⟩

/-- **Which parameters are never missing.** A parameter that a caller must supply is given in every
call that is let through exactly if its position lies within the least number of arguments; and all of
them are exactly if they come first. -/
theorem always_given_iff (signature : Signature) :
    (∀ index p, signature.Requires index p →
      (signature.AlwaysGiven index p ↔ index < signature.requiredArity)) ∧
    ((∀ index p, signature.Requires index p → signature.AlwaysGiven index p) ↔
      signature.RequiredFirst) := by
  have heach (index : Nat) (p : Parameter) (h : signature.Requires index p) :=
    alwaysGiven_iff_lt h.declared
  refine ⟨heach, ?_⟩
  rw [← requires_lt_iff_requiredFirst]
  exact ⟨fun h index p hp => (heach index p hp).mp (h index p hp),
    fun h index p hp => (heach index p hp).mpr (h index p hp)⟩

/-- One argument is enough for an optional parameter before one that is not optional, and it goes to the
optional one. -/
theorem second_parameter_missing :
    let signature : Signature := ⟨[⟨"a", .int, true⟩, ⟨"b", .int, false⟩], false, .mixed⟩
    signature.Requires 1 ⟨"b", .int, false⟩ ∧ signature.check [.int 1] = .ok () ∧
      ¬ signature.AlwaysGiven 1 ⟨"b", .int, false⟩ := by
  intro signature
  have hcheck : signature.check [.int 1] = .ok () := rfl
  refine ⟨⟨rfl, rfl, fun h => absurd h (by decide)⟩, hcheck, fun h => ?_⟩
  obtain ⟨value, hvalue, -⟩ := h [.int 1] hcheck
  exact absurd hvalue (by simp)

end Signature

end Graft
