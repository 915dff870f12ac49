/-
Maps from sequence numbers. A later entry replaces an earlier one of the same
number, and a reader goes through the numbers in ascending order.
-/

import Mathlib.Data.List.AList
import Mathlib.Data.List.Sort

namespace ReclaimTee

abbrev SequenceMap (α : Type) := AList fun _ : Nat => α

namespace SequenceMap

variable {α : Type}

def store (entries : List (Nat × α)) (map : SequenceMap α) : SequenceMap α :=
  entries.foldl (fun map entry => map.insert entry.1 entry.2) map

def find (map : SequenceMap α) (number : Nat) : Option α :=
  map.lookup number

def ascending (map : SequenceMap α) : List Nat :=
  map.keys.insertionSort (· ≤ ·)

theorem mem_store {number : Nat} (entries : List (Nat × α)) (map : SequenceMap α) :
    number ∈ store entries map ↔ number ∈ entries.map Prod.fst ∨ number ∈ map := by
  induction entries generalizing map with
  | nil => simp [store]
  | cons entry rest ih =>
    rw [store, List.foldl_cons, ← store, ih, AList.mem_insert, List.map_cons, List.mem_cons]
    tauto

theorem find_store_of_not_mem {number : Nat} {entries : List (Nat × α)} (map : SequenceMap α)
    (absent : number ∉ entries.map Prod.fst) :
    (store entries map).find number = map.find number := by
  induction entries generalizing map with
  | nil => rfl
  | cons entry rest ih =>
    rw [List.map_cons, List.mem_cons, not_or] at absent
    rw [store, List.foldl_cons, ← store, ih _ absent.2, find, AList.lookup_insert_ne absent.1, find]

theorem find_store_append {number : Nat} {value : α} (before : List (Nat × α))
    {after : List (Nat × α)} (map : SequenceMap α) (last : number ∉ after.map Prod.fst) :
    (store (before ++ (number, value) :: after) map).find number = some value := by
  have split : store (before ++ (number, value) :: after) map =
      store after ((store before map).insert number value) := by
    simp [store]
  rw [split, find_store_of_not_mem _ last, find, AList.lookup_insert]

theorem mem_ascending {number : Nat} {map : SequenceMap α} :
    number ∈ map.ascending ↔ number ∈ map := by
  rw [ascending, List.mem_insertionSort, AList.mem_keys]

theorem ascending_nodup (map : SequenceMap α) : map.ascending.Nodup :=
  (List.perm_insertionSort _ _).nodup_iff.mpr map.keys_nodup

theorem ascending_sorted (map : SequenceMap α) : map.ascending.Pairwise (· ≤ ·) :=
  List.pairwise_insertionSort _ _

theorem ascending_eq {map : SequenceMap α} {numbers : List Nat} (nodup : numbers.Nodup)
    (sorted : numbers.Pairwise (· ≤ ·)) (same : ∀ number, number ∈ numbers ↔ number ∈ map) :
    map.ascending = numbers := by
  have perm : map.ascending.Perm numbers :=
    (List.perm_ext_iff_of_nodup map.ascending_nodup nodup).mpr fun number => by
      rw [mem_ascending, same]
  exact perm.eq_of_pairwise (fun _ _ _ _ => Nat.le_antisymm) map.ascending_sorted sorted

end SequenceMap

end ReclaimTee
