/-
Maps and sets that are made by writing a list, one element after the other.

A map keeps a key where it first came and the value that came last. So a map that was made from a list
of entries can be told from the list without the steps in between: its keys are the keys of the list,
each where it first stands, and under a key stands the value of the last entry with that key. The
interface of a unit, the operations of a type and the latest registrations are all such maps, and these
two equations are all that is used of them.
-/
import Graft.Collections.OrderedMap
import Graft.Collections.OrderedSet
import Mathlib.Data.List.Induction

set_option autoImplicit false

namespace Graft

/-- One more element comes last if it passes, and is dropped otherwise. -/
theorem filter_concat {α : Type} (p : α → Bool) (xs : List α) (x : α) :
    (xs ++ [x]).filter p = if p x = true then xs.filter p ++ [x] else xs.filter p := by
  rw [List.filter_append]
  by_cases h : p x = true
  · rw [if_pos h, List.filter_cons_of_pos h, List.filter_nil]
  · rw [if_neg h, List.filter_cons_of_neg h, List.filter_nil, List.append_nil]

section

variable {α : Type} [BEq α] [LawfulBEq α]

/-- One more element is listed at the end, unless it was there before. -/
theorem eraseDups_concat [DecidableEq α] (xs : List α) (x : α) :
    (xs ++ [x]).eraseDups = if x ∈ xs then xs.eraseDups else xs.eraseDups ++ [x] := by
  rw [List.eraseDups_append]
  by_cases hin : x ∈ xs
  · have hnone : [x].removeAll xs = [] := by simp [List.removeAll, hin]
    rw [if_pos hin, hnone, List.eraseDups_nil, List.append_nil]
  · have hone : [x].removeAll xs = [x] := by simp [List.removeAll, hin]
    rw [if_neg hin, hone]
    rfl

/-- Elements that are added one after the other are kept where they first come. -/
theorem OrderedSet.toList_ofList [DecidableEq α] (xs : List α) :
    (ofList xs).toList = xs.eraseDups := by
  induction xs using List.reverseRecOn with
  | nil => rfl
  | append_singleton before x ih =>
    have hlast : (ofList (before ++ [x])).toList = ((ofList before).insert x).toList := by
      rw [ofList_append]
      rfl
    have hmem : x ∈ (ofList before).toList ↔ x ∈ before := mem_ofList
    rw [hlast, toList_insert, eraseDups_concat, ih]
    rw [ih] at hmem
    simp only [hmem]

theorem nodup_eraseDups [DecidableEq α] (xs : List α) : xs.eraseDups.Nodup := by
  rw [← OrderedSet.toList_ofList]
  exact OrderedSet.nodup _

end

namespace OrderedMap

variable {κ ν : Type} [DecidableEq κ]

theorem ofList_append (entries more : List (κ × ν)) :
    ofList (entries ++ more)
      = more.foldl (fun map entry => map.insert entry.1 entry.2) (ofList entries) :=
  List.foldl_append

/-- The keys of a list of entries are kept where they first come. -/
theorem keys_ofList [BEq κ] [LawfulBEq κ] (entries : List (κ × ν)) :
    (ofList entries).keys = (entries.map Prod.fst).eraseDups := by
  induction entries using List.reverseRecOn with
  | nil => rfl
  | append_singleton before entry ih =>
    have hmem : entry.1 ∈ (before.map Prod.fst).eraseDups ↔ entry.1 ∈ before.map Prod.fst :=
      List.mem_eraseDups
    rw [ofList_concat, keys_insert, ih, List.map_append, List.map_singleton, eraseDups_concat]
    simp only [hmem]

/-- Under a key stands the value of the last entry that has it. -/
theorem get?_ofList (entries : List (κ × ν)) (key : κ) :
    (ofList entries).get? key
      = ((entries.filter (fun entry => entry.1 = key)).getLast?).map Prod.snd := by
  induction entries using List.reverseRecOn with
  | nil => rfl
  | append_singleton before entry ih =>
    rw [ofList_concat, get?_insert, filter_concat]
    by_cases h : key = entry.1
    · rw [if_pos h, if_pos (decide_eq_true h.symm), List.getLast?_concat, Option.map_some]
    · rw [if_neg h, if_neg (by simpa using Ne.symm h), ih]

/-- A map that was made from entries named by a function is read as the list that was named. -/
theorem get?_ofList_map {α : Type} (name : α → κ) (xs : List α) (key : κ) :
    (ofList (xs.map fun x => (name x, x))).get? key
      = (xs.filter (fun x => name x = key)).getLast? := by
  rw [get?_ofList, List.filter_map, ← List.getLast?_map, List.map_map]
  exact congrArg List.getLast? (List.map_id _)

end OrderedMap

end Graft
