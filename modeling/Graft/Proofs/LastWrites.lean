/-
The dispatch table is what was last written to it.

A table comes about by installing batches and by clearing. What matters of such a history are the
placements since the table was last cleared: which operation was installed on which type, in order. The
operations of a type are the map that its placements make, one after the other, and everything that a
table answers follows from this one equation: under a name stands the last operation of that name, the
names are listed where they first came, and the number of operations is the number of different pairs of
a type and a name.

A batch adds its operations to the placements one after the other, so it makes no difference whether a
batch is installed at once or operation by operation. What a batch has replaced is told from the
placements before it, for each of its operations, also if the batch itself names an operation twice.

The main statement is `Dispatch.last_write_wins`.
-/
import Graft.Proofs.Agreement
import Mathlib.Data.List.Nodup

set_option autoImplicit false

namespace Graft.Dispatch

/-! ## 1. Histories of a table -/

/-- A change of a table. -/
inductive Write
  | install (destination : String) (batch : List Operation)
  | clear

/-- The table after a change. -/
def written (dispatch : Dispatch) : Write → Dispatch
  | .install destination batch => (dispatch.install destination batch).2
  | .clear => .empty

/-- The table after a history. -/
def after (history : List Write) : Dispatch := history.foldl written .empty

/-- What a change makes of the placements so far. -/
def placed (placements : List (String × Operation)) : Write → List (String × Operation)
  | .install destination batch => placements ++ batch.map (destination, ·)
  | .clear => []

/-- What was installed since the table was last cleared, each operation with the type that it was
installed on, oldest first. -/
def placements (history : List Write) : List (String × Operation) := history.foldl placed []

/-- What was installed on a type since the table was last cleared. -/
def placedOn (history : List Write) (destination : String) : List Operation :=
  ((placements history).filter (fun placement => placement.1 = destination)).map Prod.snd

/-- The last of some operations that has a name. -/
def lastNamed (operations : List Operation) (name : String) : Option Operation :=
  (operations.filter (fun op => op.name = name)).getLast?

/-- The names that were installed since the table was last cleared, each with its type. -/
def placedNames (history : List Write) : List (String × String) :=
  (placements history).map (fun placement => (placement.1, placement.2.name))

theorem after_concat (history : List Write) (write : Write) :
    after (history ++ [write]) = (after history).written write := by
  rw [after, List.foldl_append]
  rfl

theorem placements_concat (history : List Write) (write : Write) :
    placements (history ++ [write]) = placed (placements history) write := by
  rw [placements, List.foldl_append]
  rfl

/-- Among the placements of a batch are those on another type never, and those on its own type all. -/
theorem placedOn_install (history : List Write) (destination : String) (batch : List Operation)
    (other : String) :
    placedOn (history ++ [.install destination batch]) other
      = if other = destination then placedOn history other ++ batch else placedOn history other := by
  rw [placedOn, placements_concat, placed, List.filter_append, List.map_append, ← placedOn]
  by_cases h : other = destination
  · subst h
    have hkept : (batch.map (other, ·)).filter (fun placement => placement.1 = other)
        = batch.map (other, ·) := by
      rw [List.filter_eq_self]
      intro placement hplacement
      obtain ⟨op, -, rfl⟩ := List.mem_map.mp hplacement
      exact decide_eq_true rfl
    have hback : (batch.map (other, ·)).map Prod.snd = batch := by
      rw [List.map_map]
      exact List.map_id batch
    rw [if_pos rfl, hkept, hback]
  · have hdropped : (batch.map (destination, ·)).filter (fun placement => placement.1 = other)
        = [] := by
      rw [List.filter_eq_nil_iff]
      intro placement hplacement
      obtain ⟨op, -, rfl⟩ := List.mem_map.mp hplacement
      simpa using Ne.symm h
    rw [if_neg h, hdropped, List.map_nil, List.append_nil]

theorem mem_placedNames {history : List Write} {destination name : String} :
    (destination, name) ∈ placedNames history
      ↔ name ∈ (placedOn history destination).map Operation.name := by
  rw [placedNames, placedOn, List.mem_map, List.mem_map]
  constructor
  · rintro ⟨placement, hin, heq⟩
    obtain ⟨rfl, rfl⟩ := Prod.mk.inj heq
    exact ⟨placement.2, List.mem_map.mpr
      ⟨placement, List.mem_filter.mpr ⟨hin, decide_eq_true rfl⟩, rfl⟩, rfl⟩
  · rintro ⟨op, hop, rfl⟩
    obtain ⟨placement, hin, rfl⟩ := List.mem_map.mp hop
    obtain ⟨hin, hdestination⟩ := List.mem_filter.mp hin
    exact ⟨placement, hin, by rw [of_decide_eq_true hdestination]⟩

/-! ## 2. The operations of a type -/

/-- The run lemma: the operations of a type are the map that its placements make. The induction is on
the history from its end; a batch is a fold of writes onto the map that was there. -/
theorem operationsOf_after (history : List Write) (destination : String) :
    (after history).operationsOf destination
      = OrderedMap.ofList ((placedOn history destination).map fun op => (op.name, op)) := by
  induction history using List.reverseRecOn with
  | nil => rfl
  | append_singleton before write ih =>
    rw [after_concat]
    cases write with
    | clear =>
      have hnone : placedOn (before ++ [.clear]) destination = [] := by
        rw [placedOn, placements_concat]
        rfl
      rw [hnone]
      rfl
    | install target batch =>
      rw [written, operationsOf_install, placedOn_install]
      by_cases h : destination = target
      · subst h
        rw [if_pos rfl, if_pos rfl, ih, List.map_append, OrderedMap.ofList_append, List.foldl_map]
      · rw [if_neg h, if_neg h, ih]

theorem get?_after (history : List Write) (destination name : String) :
    (after history).get? destination name = lastNamed (placedOn history destination) name := by
  rw [get?, operationsOf_after, OrderedMap.get?_ofList_map, lastNamed]

theorem names_after (history : List Write) (destination : String) :
    (after history).names destination
      = ((placedOn history destination).map Operation.name).eraseDups := by
  rw [names, operationsOf_after, OrderedMap.keys_ofList, List.map_map]
  rfl

/-! ## 3. The number of operations -/

/-- The names that are installed, each with its type. -/
def pairs (dispatch : Dispatch) : List (String × String) :=
  dispatch.table.entries.flatMap (fun entry => entry.2.keys.map (entry.1, ·))

theorem length_pairs (dispatch : Dispatch) : dispatch.pairs.length = dispatch.size := by
  rw [pairs, size, OrderedMap.values]
  induction dispatch.table.entries with
  | nil => rfl
  | cons entry rest ih =>
    have hkeys : entry.2.keys.length = entry.2.size := List.length_map _
    rw [List.flatMap_cons, List.length_append, ih, List.length_map, hkeys]
    rfl

theorem operationsOf_of_mem {dispatch : Dispatch} {entry : String × OrderedMap String Operation}
    (h : entry ∈ dispatch.table.entries) : dispatch.operationsOf entry.1 = entry.2 := by
  rw [operationsOf, OrderedMap.get?_of_mem_entries h, Option.getD_some]

theorem mem_pairs {dispatch : Dispatch} {destination name : String} :
    (destination, name) ∈ dispatch.pairs ↔ name ∈ dispatch.names destination := by
  rw [pairs, List.mem_flatMap]
  constructor
  · rintro ⟨entry, hentry, hin⟩
    obtain ⟨key, hkey, heq⟩ := List.mem_map.mp hin
    obtain ⟨rfl, rfl⟩ := Prod.mk.inj heq
    rw [names, operationsOf_of_mem hentry]
    exact hkey
  · intro hin
    cases hfound : dispatch.table.get? destination with
    | none =>
      -- A type without an entry has no names.
      rw [names, operationsOf, hfound] at hin
      exact absurd hin List.not_mem_nil
    | some operations =>
      have hentry := OrderedMap.mem_entries_of_get? hfound
      rw [names, operationsOf_of_mem hentry] at hin
      exact ⟨_, hentry, List.mem_map_of_mem hin⟩

theorem nodup_pairs (dispatch : Dispatch) : dispatch.pairs.Nodup := by
  rw [pairs, List.nodup_flatMap]
  constructor
  · intro entry _
    exact entry.2.keys_nodup.map fun a b heq => (Prod.mk.inj heq).2
  · -- Pairs of different entries have different types.
    refine (List.pairwise_map.mp dispatch.table.keys_nodup).imp ?_
    intro entry entry' hne pair hin hin'
    obtain ⟨key, -, rfl⟩ := List.mem_map.mp hin
    obtain ⟨key', -, heq⟩ := List.mem_map.mp hin'
    exact hne (Prod.mk.inj heq).1.symm

theorem size_after (history : List Write) :
    (after history).size = (placedNames history).eraseDups.length := by
  have hsame : ∀ pair, pair ∈ (after history).pairs ↔ pair ∈ (placedNames history).eraseDups := by
    intro pair
    obtain ⟨destination, name⟩ := pair
    rw [mem_pairs, names_after, List.mem_eraseDups, List.mem_eraseDups, mem_placedNames]
  have hperm := (List.perm_ext_iff_of_nodup (nodup_pairs _) (nodup_eraseDups _)).mpr hsame
  rw [← length_pairs, hperm.length_eq]

/-! ## 4. What a table answers -/

/-- What a table answers is what its history tells. -/
structure Reflects (history : List Write) (dispatch : Dispatch) : Prop where
  /-- Under a name stands the last operation of that name, ... -/
  get? : ∀ destination name,
    dispatch.get? destination name = lastNamed (placedOn history destination) name
  /-- ... if there is any, ... -/
  contains : ∀ destination name,
    dispatch.contains destination name = (dispatch.get? destination name).isSome
  /-- ... every name is listed once, where it first came, ... -/
  names : ∀ destination,
    dispatch.names destination = ((placedOn history destination).map Operation.name).eraseDups
  /-- ... and every pair of a type and a name counts once. -/
  size : dispatch.size = (placedNames history).eraseDups.length

theorem reflects_after (history : List Write) : Reflects history (after history) where
  get? := get?_after history
  contains _ _ := rfl
  names := names_after history
  size := size_after history

/-- Two tables answer alike. -/
structure Alike (dispatch other : Dispatch) : Prop where
  get? : ∀ destination name, other.get? destination name = dispatch.get? destination name
  contains : ∀ destination name,
    other.contains destination name = dispatch.contains destination name
  names : ∀ destination, other.names destination = dispatch.names destination
  size : other.size = dispatch.size

/-- Histories with the same placements lead to tables that answer alike. -/
theorem alike_of_placements_eq {history other : List Write}
    (h : placements other = placements history) : Alike (after history) (after other) := by
  have hon : ∀ destination, placedOn other destination = placedOn history destination := by
    intro destination
    rw [placedOn, placedOn, h]
  have hget (destination name : String) :
      (after other).get? destination name = (after history).get? destination name := by
    rw [get?_after, get?_after, hon]
  refine ⟨hget, ?_, ?_, ?_⟩
  · intro destination name
    rw [(reflects_after other).contains, (reflects_after history).contains, hget]
  · intro destination
    rw [names_after, names_after, hon]
  · rw [size_after, size_after, placedNames, placedNames, h]

/-! ## 5. A batch at once and one by one -/

/-- Installs operations on a type one after the other. -/
def installEach (dispatch : Dispatch) (destination : String) (batch : List Operation) : Dispatch :=
  batch.foldl (fun dispatch op => (dispatch.install destination [op]).2) dispatch

/-- The placements of a batch come one after the other. -/
theorem foldl_placed_each (destination : String) (batch : List Operation)
    (placements : List (String × Operation)) :
    (batch.map fun op => Write.install destination [op]).foldl placed placements
      = placements ++ batch.map (destination, ·) := by
  induction batch generalizing placements with
  | nil => exact (List.append_nil _).symm
  | cons op rest ih =>
    rw [List.map_cons, List.foldl_cons, ih, placed, List.append_assoc, List.map_cons]
    rfl

/-- A batch that was installed at once or one by one leaves the same placements, also later on. -/
theorem placements_each (history later : List Write) (destination : String)
    (batch : List Operation) :
    placements (history ++ (batch.map fun op => Write.install destination [op]) ++ later)
      = placements (history ++ Write.install destination batch :: later) := by
  rw [placements, List.foldl_append, List.foldl_append, foldl_placed_each, placements,
    List.foldl_append, List.foldl_cons, placed]

/-- A batch may be cut after its first operation: the operations of its type are written twice then,
and the second write is the one that counts. -/
theorem install_cons (dispatch : Dispatch) (destination : String) (op : Operation)
    (rest : List Operation) :
    (dispatch.install destination (op :: rest)).2
      = ((dispatch.install destination [op]).2.install destination rest).2 := by
  have hoperations := operationsOf_install dispatch destination [op] destination
  rw [if_pos rfl] at hoperations
  rw [install, install, hoperations]
  simp only [install, OrderedMap.insert_insert, List.foldl_cons, List.foldl_nil]

theorem install_eq_installEach (dispatch : Dispatch) (destination : String) (op : Operation)
    (rest : List Operation) :
    (dispatch.install destination (op :: rest)).2
      = dispatch.installEach destination (op :: rest) := by
  induction rest generalizing dispatch op with
  | nil => rfl
  | cons next rest ih =>
    rw [install_cons, ih]
    rfl

/-! ## 6. Last writes -/

/-- What a batch does after a history. -/
structure Installs (history : List Write) (destination : String) (batch : List Operation)
    (outcome : List Operation × Dispatch) : Prop where
  /-- It gives the operation that each name of the batch had before, if any, in the order of the
  batch, ... -/
  replaced : outcome.1 = batch.filterMap (fun op => lastNamed (placedOn history destination) op.name)
  /-- ... leaves the other types as they are, ... -/
  others : ∀ other, other ≠ destination →
    outcome.2.operationsOf other = (after history).operationsOf other
  /-- ... and makes the table that its operations make one by one. -/
  oneByOne : batch ≠ [] → outcome.2 = (after history).installEach destination batch
  /-- A batch without operations may still enter its type, which no answer shows, neither now nor
  later. -/
  alike : ∀ later, Alike (after (history ++ .install destination batch :: later))
    (after (history ++ (batch.map fun op => .install destination [op]) ++ later))

/-- **The last write wins.** After any history of batches and clearings, whatever the operations are
and wherever they were made for, a table answers what was last written to it, and lists names where they
first came; and the next batch is as good as its operations one by one. -/
theorem last_write_wins (history : List Write) (destination : String) (batch : List Operation) :
    Reflects history (after history) ∧
      Installs history destination batch ((after history).install destination batch) := by
  refine ⟨reflects_after history, ?_, ?_, ?_, ?_⟩
  · show batch.filterMap (fun op => (after history).get? destination op.name) = _
    simp only [get?_after]
  · intro other hother
    rw [operationsOf_install, if_neg hother]
  · intro hbatch
    obtain ⟨op, rest, rfl⟩ := List.exists_cons_of_ne_nil hbatch
    exact install_eq_installEach _ _ _ _
  · intro later
    exact alike_of_placements_eq (placements_each history later destination batch)

/-- An operation that does nothing, made for one type under a name. -/
def idleOperation (destination name : String) : Operation := ⟨destination, name, .idle, .handler⟩

/-- A batch that names an operation twice, and one that was made for another type. -/
theorem last_write_wins_twice :
    let history : List Write :=
      [.install "T" [idleOperation "T" "old"], .clear,
        .install "T" [idleOperation "T" "open", idleOperation "U" "close"]]
    let batch := [idleOperation "T" "close", idleOperation "T" "lock", idleOperation "T" "close"]
    "U" ≠ "T" ∧ batch ≠ [] ∧
      ((after history).install "T" batch).1.map Operation.destination = ["U", "U"] ∧
      ((after history).install "T" batch).2 = (after history).installEach "T" batch ∧
      (after history).names "T" = ["open", "close"] ∧
      ((after history).install "T" batch).2.operationsOf "U" = (after history).operationsOf "U" := by
  intro history batch
  have hother : "U" ≠ "T" := by decide
  have hbatch : batch ≠ [] := List.cons_ne_nil _ _
  obtain ⟨hreflects, hinstalls⟩ := last_write_wins history "T" batch
  refine ⟨hother, hbatch, ?_, hinstalls.oneByOne hbatch, ?_, hinstalls.others "U" hother⟩
  · rw [hinstalls.replaced]
    decide
  · rw [hreflects.names]
    decide

end Graft.Dispatch
