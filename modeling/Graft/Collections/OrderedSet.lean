/-
Sets that remember the order in which their elements first arrived.

The view of a set is its list of elements; adding an element that is present changes nothing, a
new one goes to the end, and removing one leaves the order of the others.
-/
set_option autoImplicit false

namespace Graft

/-- A finite set whose elements stand in the order in which they were first added. -/
structure OrderedSet (α : Type) where
  /-- The elements, oldest first. -/
  toList : List α
  /-- No element stands twice. -/
  nodup : toList.Nodup

namespace OrderedSet

variable {α : Type}

/-- The set with no elements. -/
def empty : OrderedSet α := ⟨[], List.nodup_nil⟩

instance : Inhabited (OrderedSet α) := ⟨empty⟩

variable [DecidableEq α]

instance : Membership α (OrderedSet α) := ⟨fun set x => x ∈ set.toList⟩

instance (x : α) (set : OrderedSet α) : Decidable (x ∈ set) :=
  inferInstanceAs (Decidable (x ∈ set.toList))

/-- Whether an element is present. -/
def contains (set : OrderedSet α) (x : α) : Bool := decide (x ∈ set)

/-- Adds an element at the end unless it is present. -/
def insert (set : OrderedSet α) (x : α) : OrderedSet α :=
  if h : x ∈ set.toList then set
  else ⟨set.toList ++ [x], by
    rw [List.nodup_append]
    refine ⟨set.nodup, by simp, ?_⟩
    intro a ha b hb
    simp only [List.mem_singleton] at hb
    rintro rfl
    exact h (hb ▸ ha)⟩

/-- Removes an element; the others keep their order. -/
def erase (set : OrderedSet α) (x : α) : OrderedSet α :=
  ⟨set.toList.filter (fun y => y ≠ x), set.nodup.sublist List.filter_sublist⟩

/-- Adds the elements of a list one after the other. -/
def ofList (xs : List α) : OrderedSet α := xs.foldl insert empty

omit [DecidableEq α] in
@[simp] theorem mem_mk (x : α) (xs : List α) (h : xs.Nodup) :
    x ∈ (⟨xs, h⟩ : OrderedSet α) ↔ x ∈ xs := Iff.rfl

omit [DecidableEq α] in
@[simp] theorem not_mem_empty (x : α) : ¬ x ∈ (empty : OrderedSet α) := List.not_mem_nil

theorem toList_insert (set : OrderedSet α) (x : α) :
    (set.insert x).toList = if x ∈ set.toList then set.toList else set.toList ++ [x] := by
  unfold insert
  split <;> rfl

@[simp] theorem mem_insert (set : OrderedSet α) (x y : α) :
    y ∈ set.insert x ↔ y ∈ set ∨ y = x := by
  show y ∈ (set.insert x).toList ↔ y ∈ set.toList ∨ y = x
  rw [toList_insert]
  split
  · next h => exact ⟨Or.inl, fun o => o.elim id (fun e => e ▸ h)⟩
  · simp

@[simp] theorem mem_erase (set : OrderedSet α) (x y : α) :
    y ∈ set.erase x ↔ y ∈ set ∧ y ≠ x := by
  show y ∈ (set.erase x).toList ↔ y ∈ set.toList ∧ y ≠ x
  simp [erase]

theorem insert_of_mem {set : OrderedSet α} {x : α} (h : x ∈ set) : set.insert x = set := dif_pos h

theorem erase_of_not_mem {set : OrderedSet α} {x : α} (h : x ∉ set) : set.erase x = set := by
  have hfilter : set.toList.filter (fun y => y ≠ x) = set.toList := by
    rw [List.filter_eq_self]
    intro y hy
    refine decide_eq_true ?_
    rintro rfl
    exact h hy
  obtain ⟨xs, hnodup⟩ := set
  unfold erase
  congr

theorem ofList_append (xs ys : List α) : ofList (xs ++ ys) = ys.foldl insert (ofList xs) :=
  List.foldl_append

/-- Adding an element again and again adds it once. -/
theorem foldl_insert_of_forall_eq {set : OrderedSet α} {x : α} {xs : List α}
    (h : ∀ y ∈ xs, y = x) (hx : x ∈ set) : xs.foldl insert set = set := by
  induction xs with
  | nil => rfl
  | cons y rest ih =>
    obtain ⟨rfl, hrest⟩ := List.forall_mem_cons.mp h
    rw [List.foldl_cons, insert_of_mem hx]
    exact ih hrest

/-- A block of one new element adds that element at the end. -/
theorem toList_ofList_append {xs ys : List α} {y : α} (h : ∀ z ∈ ys, z = y) (hne : ys ≠ [])
    (hy : y ∉ ofList xs) : (ofList (xs ++ ys)).toList = (ofList xs).toList ++ [y] := by
  cases ys with
  | nil => exact absurd rfl hne
  | cons z rest =>
    obtain ⟨rfl, hrest⟩ := List.forall_mem_cons.mp h
    have hmem : z ∈ (ofList xs).insert z := (mem_insert _ _ _).mpr (.inr rfl)
    rw [ofList_append, List.foldl_cons, foldl_insert_of_forall_eq hrest hmem, toList_insert]
    exact if_neg hy

/-- The elements of a list are those of its set. -/
theorem mem_ofList {xs : List α} {x : α} : x ∈ ofList xs ↔ x ∈ xs := by
  have hfold : ∀ set : OrderedSet α, x ∈ xs.foldl insert set ↔ x ∈ set ∨ x ∈ xs := by
    induction xs with
    | nil => simp
    | cons y rest ih =>
      intro set
      rw [List.foldl_cons, ih, mem_insert, List.mem_cons, or_assoc]
  rw [ofList, hfold]
  simp

/-- The elements of a set, added one after the other, give the set back. -/
theorem ofList_toList (set : OrderedSet α) : ofList set.toList = set := by
  -- What is added stands behind what is there, as long as nothing is added twice.
  have hfold : ∀ (ys : List α) (start : OrderedSet α), (start.toList ++ ys).Nodup →
      (ys.foldl insert start).toList = start.toList ++ ys := by
    intro ys
    induction ys with
    | nil => intro start _; exact (List.append_nil _).symm
    | cons y rest ih =>
      intro start hnodup
      have hout : y ∉ start.toList := by
        intro hin
        exact (List.nodup_append.mp hnodup).2.2 y hin y List.mem_cons_self rfl
      have hstep : (start.insert y).toList = start.toList ++ [y] := by
        rw [toList_insert, if_neg hout]
      have hassoc : (start.insert y).toList ++ rest = start.toList ++ y :: rest := by
        rw [hstep, List.append_assoc, List.singleton_append]
      rw [List.foldl_cons, ih _ (hassoc ▸ hnodup), hassoc]
  have hlist : (ofList set.toList).toList = set.toList := hfold set.toList empty set.nodup
  obtain ⟨xs, hnodup⟩ := set
  generalize ofList xs = other at hlist
  obtain ⟨ys, hnodup'⟩ := other
  obtain rfl : ys = xs := hlist
  rfl

end OrderedSet

end Graft
