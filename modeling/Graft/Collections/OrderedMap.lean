/-
Maps that remember the order in which their keys first arrived.

Writing to a key that is present replaces its value and leaves its place; a new key goes to the
end. Every listing that this library prints in "first registration" or "first installation" order
comes from such a map, so the order is part of the type and not of the code that prints it.

The keys are kept distinct by a proof field. The view of a map is its list of entries; the lemmas
below say what each operation does to the keys and to a look-up, and nothing else needs unfolding.
-/
set_option autoImplicit false

namespace Graft

/-- A finite map whose entries stand in the order in which their keys were first inserted. -/
structure OrderedMap (κ ν : Type) where
  /-- The entries, oldest key first. -/
  entries : List (κ × ν)
  /-- No key stands twice. -/
  keys_nodup : (entries.map Prod.fst).Nodup

namespace OrderedMap

variable {κ ν : Type}

/-! ## 1. Views -/

/-- The map with no entries. -/
def empty : OrderedMap κ ν := ⟨[], by simp⟩

instance : Inhabited (OrderedMap κ ν) := ⟨empty⟩

/-- The keys, oldest first. -/
def keys (map : OrderedMap κ ν) : List κ := map.entries.map Prod.fst

/-- The values, in the order of their keys. -/
def values (map : OrderedMap κ ν) : List ν := map.entries.map Prod.snd

/-- The number of keys. -/
def size (map : OrderedMap κ ν) : Nat := map.entries.length

variable [DecidableEq κ]

/-- The value that stands at a key in a list of entries. -/
def find (key : κ) : List (κ × ν) → Option ν
  | [] => none
  | entry :: rest => if entry.1 = key then some entry.2 else find key rest

/-- The value stored at a key. -/
def get? (map : OrderedMap κ ν) (key : κ) : Option ν := find key map.entries

/-- Whether a key is present. -/
def contains (map : OrderedMap κ ν) (key : κ) : Bool := (map.get? key).isSome

/-! ## 2. Writing -/

/-- Replaces the value at a key in place, or adds the entry at the end. -/
def put (key : κ) (value : ν) : List (κ × ν) → List (κ × ν)
  | [] => [(key, value)]
  | entry :: rest =>
    if entry.1 = key then (key, value) :: rest else entry :: put key value rest

theorem map_fst_put (key : κ) (value : ν) (entries : List (κ × ν)) :
    (put key value entries).map Prod.fst =
      if key ∈ entries.map Prod.fst then entries.map Prod.fst
      else entries.map Prod.fst ++ [key] := by
  induction entries with
  | nil => simp [put]
  | cons entry rest ih =>
    by_cases h : entry.1 = key
    · simp [put, h]
    · have h' : key ≠ entry.1 := fun e => h e.symm
      simp only [put, h, if_false, List.map_cons, ih, List.mem_cons, h', false_or]
      split <;> simp

theorem nodup_put (key : κ) (value : ν) {entries : List (κ × ν)}
    (h : (entries.map Prod.fst).Nodup) : ((put key value entries).map Prod.fst).Nodup := by
  rw [map_fst_put]
  split
  · exact h
  · next hk =>
    rw [List.nodup_append]
    refine ⟨h, by simp, ?_⟩
    intro a ha b hb
    simp only [List.mem_singleton] at hb
    rintro rfl
    exact hk (hb ▸ ha)

/-- Stores a value: in place for a key that is present, at the end for a new one. -/
def insert (map : OrderedMap κ ν) (key : κ) (value : ν) : OrderedMap κ ν :=
  ⟨put key value map.entries, nodup_put key value map.keys_nodup⟩

/-- Removes a key; the others keep their order. -/
def erase (map : OrderedMap κ ν) (key : κ) : OrderedMap κ ν :=
  ⟨map.entries.filter (fun entry => entry.1 ≠ key),
    map.keys_nodup.sublist ((List.filter_sublist).map Prod.fst)⟩

/-- Keeps the entries whose key passes a test. -/
def filterKeys (map : OrderedMap κ ν) (test : κ → Bool) : OrderedMap κ ν :=
  ⟨map.entries.filter (fun entry => test entry.1),
    map.keys_nodup.sublist ((List.filter_sublist).map Prod.fst)⟩

/-- Inserts entries one after the other, so that the last value of a repeated key wins. -/
def ofList (entries : List (κ × ν)) : OrderedMap κ ν :=
  entries.foldl (fun map entry => map.insert entry.1 entry.2) empty

/-! ## 3. What the operations do to the views -/

omit [DecidableEq κ] in
@[simp] theorem keys_empty : (empty : OrderedMap κ ν).keys = [] := rfl

@[simp] theorem get?_empty (key : κ) : (empty : OrderedMap κ ν).get? key = none := rfl

/-- A new key goes to the end, a known one stays where it is. -/
theorem keys_insert (map : OrderedMap κ ν) (key : κ) (value : ν) :
    (map.insert key value).keys = if key ∈ map.keys then map.keys else map.keys ++ [key] :=
  map_fst_put key value map.entries

theorem find_put (key other : κ) (value : ν) (entries : List (κ × ν)) :
    find other (put key value entries) =
      if other = key then some value else find other entries := by
  induction entries with
  | nil => simp [put, find, eq_comm]
  | cons entry rest ih =>
    by_cases he : entry.1 = key
    · by_cases h : other = key
      · simp [put, find, he, h]
      · have h' : ¬ key = other := fun e => h e.symm
        simp [put, find, he, h, h']
    · by_cases h : other = key
      · subst h
        simp [put, find, he, ih]
      · simp only [put, he, if_false, find, ih, h]

theorem find_filter_ne (key other : κ) (entries : List (κ × ν)) :
    find other (entries.filter (fun entry => entry.1 ≠ key)) =
      if other = key then none else find other entries := by
  induction entries with
  | nil => simp [find]
  | cons entry rest ih =>
    rw [List.filter_cons]
    by_cases he : entry.1 = key
    · rw [if_neg (by simp [he]), ih, find]
      by_cases h : other = key
      · rw [if_pos h, if_pos h]
      · rw [if_neg h, if_neg h, if_neg (fun e => h (e.symm.trans he))]
    · rw [if_pos (by simp [he]), find, ih, find]
      by_cases h : other = key
      · rw [if_neg (fun e => he (e.trans h)), if_pos h, if_pos h]
      · rw [if_neg h, if_neg h]

/-- Reading after a removal finds nothing at its key and the old value elsewhere. -/
@[simp] theorem get?_erase (map : OrderedMap κ ν) (key other : κ) :
    (map.erase key).get? other = if other = key then none else map.get? other :=
  find_filter_ne key other map.entries

/-- Reading after a write gives the written value at its key and the old one elsewhere. -/
@[simp] theorem get?_insert (map : OrderedMap κ ν) (key other : κ) (value : ν) :
    (map.insert key value).get? other = if other = key then some value else map.get? other :=
  find_put key other value map.entries

theorem find_isSome_iff (entries : List (κ × ν)) (key : κ) :
    (find key entries).isSome = true ↔ key ∈ entries.map Prod.fst := by
  induction entries with
  | nil => simp [find]
  | cons entry rest ih =>
    by_cases h : entry.1 = key
    · simp [find, h]
    · have h' : ¬ key = entry.1 := fun e => h e.symm
      simp only [find, h, if_false, List.map_cons, List.mem_cons, h', false_or, ih]

/-- A key is present exactly when it is listed. -/
theorem contains_iff_mem_keys (map : OrderedMap κ ν) (key : κ) :
    map.contains key = true ↔ key ∈ map.keys :=
  find_isSome_iff map.entries key

omit [DecidableEq κ] in
/-- The entries are the whole map; the proof field adds nothing to them. -/
theorem ext_entries {map other : OrderedMap κ ν} (h : map.entries = other.entries) :
    map = other := by
  cases map
  cases other
  cases h
  rfl

theorem mem_entries_of_find {key : κ} {value : ν} {entries : List (κ × ν)}
    (h : find key entries = some value) : (key, value) ∈ entries := by
  induction entries with
  | nil => simp [find] at h
  | cons entry rest ih =>
    simp only [find] at h
    split at h
    · next hk =>
      obtain rfl := Option.some.inj h
      exact hk ▸ List.mem_cons_self
    · exact List.mem_cons_of_mem _ (ih h)

/-- What is found at a key is an entry of the map. -/
theorem mem_entries_of_get? {map : OrderedMap κ ν} {key : κ} {value : ν}
    (h : map.get? key = some value) : (key, value) ∈ map.entries :=
  mem_entries_of_find h

/-- An entry is found at its key, if the keys are distinct. -/
theorem find_of_mem {entries : List (κ × ν)} (hnodup : (entries.map Prod.fst).Nodup) {entry : κ × ν}
    (h : entry ∈ entries) : find entry.1 entries = some entry.2 := by
  induction entries with
  | nil => exact absurd h List.not_mem_nil
  | cons first rest ih =>
    obtain ⟨hnew, hrest⟩ := List.nodup_cons.mp hnodup
    rw [find]
    rcases List.mem_cons.mp h with rfl | hin
    · rw [if_pos rfl]
    · have hne : first.1 ≠ entry.1 := fun heq => hnew (heq ▸ List.mem_map_of_mem hin)
      rw [if_neg hne, ih hrest hin]

/-- Every entry of a map is found at its key. -/
theorem get?_of_mem_entries {map : OrderedMap κ ν} {entry : κ × ν} (h : entry ∈ map.entries) :
    map.get? entry.1 = some entry.2 :=
  find_of_mem map.keys_nodup h

/-- Writing what is there changes nothing. -/
theorem insert_of_get? {map : OrderedMap κ ν} {key : κ} {value : ν}
    (h : map.get? key = some value) : map.insert key value = map := by
  apply ext_entries
  have hput : ∀ entries : List (κ × ν), find key entries = some value →
      put key value entries = entries := by
    intro entries hfind
    induction entries with
    | nil => exact absurd hfind (by simp [find])
    | cons entry rest ih =>
      rw [find] at hfind
      rw [put]
      split at hfind
      · next hkey =>
        obtain rfl := Option.some.inj hfind
        rw [if_pos hkey, ← hkey]
      · next hkey => rw [if_neg hkey, ih hfind]
  exact hput map.entries h

/-- Of two writes to a key only the second one counts. -/
theorem insert_insert (map : OrderedMap κ ν) (key : κ) (value last : ν) :
    (map.insert key value).insert key last = map.insert key last := by
  apply ext_entries
  have hput : ∀ entries : List (κ × ν),
      put key last (put key value entries) = put key last entries := by
    intro entries
    induction entries with
    | nil => simp [put]
    | cons entry rest ih =>
      by_cases h : entry.1 = key
      · simp [put, h]
      · simp [put, h, ih]
  exact hput map.entries

theorem eq_or_mem_of_mem_put {key : κ} {value : ν} {entries : List (κ × ν)} {entry : κ × ν}
    (h : entry ∈ put key value entries) : entry = (key, value) ∨ entry ∈ entries := by
  induction entries with
  | nil => exact .inl (by simpa [put] using h)
  | cons first rest ih =>
    simp only [put] at h
    split at h
    · exact (List.mem_cons.mp h).imp_right (List.mem_cons_of_mem _)
    · rcases List.mem_cons.mp h with rfl | h
      · exact .inr List.mem_cons_self
      · exact (ih h).imp_right (List.mem_cons_of_mem _)

/-- After a write every entry is the written one or an old one. -/
theorem eq_or_mem_of_mem_insert {map : OrderedMap κ ν} {key : κ} {value : ν} {entry : κ × ν}
    (h : entry ∈ (map.insert key value).entries) : entry = (key, value) ∨ entry ∈ map.entries :=
  eq_or_mem_of_mem_put h

/-- A list that ends in an entry gives the map of the others with that entry written last. -/
theorem ofList_concat (entries : List (κ × ν)) (entry : κ × ν) :
    ofList (entries ++ [entry]) = (ofList entries).insert entry.1 entry.2 := by
  simp only [ofList, List.foldl_append, List.foldl_cons, List.foldl_nil]

theorem put_ne_nil (key : κ) (value : ν) (entries : List (κ × ν)) : put key value entries ≠ [] := by
  cases entries with
  | nil => simp [put]
  | cons entry rest =>
    rw [put]
    split <;> simp

/-- Only the map of no entries is empty. -/
theorem entries_ofList_ne_nil {entries : List (κ × ν)} (h : entries ≠ []) :
    (ofList entries).entries ≠ [] := by
  rw [← List.dropLast_concat_getLast h, ofList_concat]
  exact put_ne_nil _ _ _

/-- Every entry of the map of a list is one of the list. -/
theorem mem_of_mem_ofList {entries : List (κ × ν)} {entry : κ × ν}
    (h : entry ∈ (ofList entries).entries) : entry ∈ entries := by
  have hfold : ∀ map : OrderedMap κ ν,
      entry ∈ (entries.foldl (fun map pair => map.insert pair.1 pair.2) map).entries →
        entry ∈ map.entries ∨ entry ∈ entries := by
    clear h
    induction entries with
    | nil => exact fun _ => .inl
    | cons first rest ih =>
      intro map hin
      rcases ih (map.insert first.1 first.2) hin with hin | hin
      · rcases eq_or_mem_of_mem_insert hin with rfl | hold
        · exact .inr List.mem_cons_self
        · exact .inl hold
      · exact .inr (List.mem_cons_of_mem _ hin)
  exact (hfold empty h).resolve_left List.not_mem_nil

/-! ## 4. Maps of values -/

variable {μ : Type}

/-- The map with every value seen through a function. -/
def mapValues (f : ν → μ) (map : OrderedMap κ ν) : OrderedMap κ μ :=
  ⟨map.entries.map (fun entry => (entry.1, f entry.2)), by
    rw [List.map_map]
    exact map.keys_nodup⟩

omit [DecidableEq κ] in
@[simp] theorem keys_mapValues (f : ν → μ) (map : OrderedMap κ ν) :
    (map.mapValues f).keys = map.keys := by
  simp only [keys, mapValues, List.map_map]
  rfl

omit [DecidableEq κ] in
@[simp] theorem mapValues_empty (f : ν → μ) :
    (empty : OrderedMap κ ν).mapValues f = empty := rfl

theorem find_map_snd (f : ν → μ) (key : κ) (entries : List (κ × ν)) :
    find key (entries.map (fun entry => (entry.1, f entry.2))) = (find key entries).map f := by
  induction entries with
  | nil => rfl
  | cons entry rest ih =>
    simp only [List.map_cons, find, ih]
    split <;> rfl

@[simp] theorem get?_mapValues (f : ν → μ) (map : OrderedMap κ ν) (key : κ) :
    (map.mapValues f).get? key = (map.get? key).map f :=
  find_map_snd f key map.entries

/-- A view of the values may be taken before or after a write. -/
theorem mapValues_insert (f : ν → μ) (map : OrderedMap κ ν) (key : κ) (value : ν) :
    (map.insert key value).mapValues f = (map.mapValues f).insert key (f value) := by
  apply ext_entries
  show (put key value map.entries).map (fun entry => (entry.1, f entry.2))
    = put key (f value) (map.entries.map (fun entry => (entry.1, f entry.2)))
  induction map.entries with
  | nil => rfl
  | cons entry rest ih =>
    simp only [put, List.map_cons]
    split
    · rfl
    · rw [List.map_cons, ih]

end OrderedMap

end Graft
