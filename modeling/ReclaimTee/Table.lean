/-
Finite maps with one entry for each key. An entry is put in the place of an
earlier one, removed by its key, or removed with all others that fail a test;
only the first can make the map larger.
-/

import Mathlib.Data.List.Nodup

namespace ReclaimTee

open List

structure Table (Key Value : Type) where
  entries : List (Key × Value)
  nodup : (entries.map Prod.fst).Nodup

namespace Table

variable {Key Value : Type} [DecidableEq Key]

def empty : Table Key Value where
  entries := []
  nodup := List.nodup_nil

def size (table : Table Key Value) : Nat :=
  table.entries.length

def find (table : Table Key Value) (key : Key) : Option Value :=
  (table.entries.find? fun entry => entry.1 = key).map Prod.snd

def keep (test : Key → Value → Bool) (table : Table Key Value) : Table Key Value where
  entries := table.entries.filter fun entry => test entry.1 entry.2
  nodup := table.nodup.sublist (List.filter_sublist.map Prod.fst)

def remove (key : Key) (table : Table Key Value) : Table Key Value :=
  table.keep fun other _ => other ≠ key

def put (key : Key) (value : Value) (table : Table Key Value) : Table Key Value where
  entries := (key, value) :: (table.remove key).entries
  nodup := by
    rw [List.map_cons, List.nodup_cons]
    refine ⟨?_, (table.remove key).nodup⟩
    intro member
    obtain ⟨entry, inside, same⟩ := List.mem_map.mp member
    exact absurd same (of_decide_eq_true (List.mem_filter.mp inside).2)

theorem find_eq_some_iff {table : Table Key Value} {key : Key} {value : Value} :
    table.find key = some value ↔ (key, value) ∈ table.entries := by
  obtain ⟨entries, nodup⟩ := table
  induction entries with
  | nil => simp [find]
  | cons entry rest ih =>
    rw [map_cons, nodup_cons] at nodup
    have tail := ih nodup.2
    by_cases same : entry.1 = key
    · have first : find ⟨entry :: rest, nodup_cons.mpr nodup⟩ key = some entry.2 := by
        simp [find, same]
      have absent : (key, value) ∉ rest := by
        intro member
        apply nodup.1
        rw [same]
        exact mem_map_of_mem member
      rw [first, Option.some.injEq, mem_cons, or_iff_left absent]
      constructor
      · intro value
        rw [← same, ← value]
      · intro whole
        rw [← whole]
    · have later : find ⟨entry :: rest, nodup_cons.mpr nodup⟩ key = find ⟨rest, nodup.2⟩ key := by
        simp [find, same]
      have other : (key, value) ≠ entry := by
        intro whole
        rw [← whole] at same
        exact same rfl
      rw [later, tail, mem_cons, or_iff_right other]

theorem find_keep_eq_some_iff {table : Table Key Value} {test : Key → Value → Bool} {key : Key}
    {value : Value} :
    (table.keep test).find key = some value ↔ table.find key = some value ∧ test key value = true := by
  rw [find_eq_some_iff, find_eq_some_iff]
  exact mem_filter

theorem find_keep (test : Key → Value → Bool) (table : Table Key Value) (key : Key) :
    (table.keep test).find key = (table.find key).filter (test key) :=
  Option.ext fun _ => find_keep_eq_some_iff.trans Option.filter_eq_some_iff.symm

@[simp] theorem find_remove_self (key : Key) (table : Table Key Value) :
    (table.remove key).find key = none := by
  simp [remove, find_keep]

theorem find_remove_eq_some_iff {table : Table Key Value} {key asked : Key} {value : Value} :
    (table.remove key).find asked = some value ↔ table.find asked = some value ∧ asked ≠ key := by
  rw [remove, find_keep_eq_some_iff, decide_eq_true_iff]

theorem find_remove_other {key asked : Key} (table : Table Key Value) (other : asked ≠ key) :
    (table.remove key).find asked = table.find asked :=
  Option.ext fun _ => find_remove_eq_some_iff.trans (and_iff_left other)

@[simp] theorem find_put_self (key : Key) (value : Value) (table : Table Key Value) :
    (table.put key value).find key = some value := by
  rw [find_eq_some_iff]
  exact mem_cons_self

theorem find_put_other {key asked : Key} (value : Value) (table : Table Key Value)
    (other : asked ≠ key) : (table.put key value).find asked = table.find asked := by
  have same : ∀ found, (table.put key value).find asked = some found ↔
      table.find asked = some found := by
    intro found
    have different : (asked, found) ≠ (key, value) := fun whole => other (congrArg Prod.fst whole)
    rw [find_eq_some_iff]
    change (asked, found) ∈ (key, value) :: (table.remove key).entries ↔ _
    rw [mem_cons, or_iff_right different, ← find_eq_some_iff, find_remove_eq_some_iff,
      and_iff_left other]
  exact Option.ext same

theorem find_put_cases {table : Table Key Value} {key asked : Key} {value known : Value}
    (found : (table.put key value).find asked = some known) :
    asked = key ∧ value = known ∨ asked ≠ key ∧ table.find asked = some known := by
  by_cases here : asked = key
  · rw [here, find_put_self] at found
    exact .inl ⟨here, Option.some.inj found⟩
  · rw [find_put_other _ _ here] at found
    exact .inr ⟨here, found⟩

theorem entries_perm {left right : Table Key Value}
    (same : ∀ key, left.find key = right.find key) : left.entries.Perm right.entries := by
  refine (perm_ext_iff_of_nodup left.nodup.of_map right.nodup.of_map).mpr ?_
  intro entry
  rw [← find_eq_some_iff, ← find_eq_some_iff, same]

theorem values_remove {table : Table Key Value} {key : Key} {value : Value}
    (found : table.find key = some value) :
    (table.entries.map Prod.snd).Perm (value :: (table.remove key).entries.map Prod.snd) := by
  have same : ∀ asked, table.find asked = (table.put key value).find asked := by
    intro asked
    by_cases here : asked = key
    · rw [here, found, find_put_self]
    · rw [find_put_other _ _ here]
  exact (entries_perm same).map Prod.snd

theorem values_put {table : Table Key Value} {key : Key} (value : Value)
    (absent : table.find key = none) :
    ((table.put key value).entries.map Prod.snd).Perm (value :: table.entries.map Prod.snd) := by
  have same : ∀ asked, (table.remove key).find asked = table.find asked := by
    intro asked
    by_cases here : asked = key
    · rw [here, absent, find_remove_self]
    · exact find_remove_other table here
  exact ((entries_perm same).map Prod.snd).cons value

omit [DecidableEq Key] in
theorem size_keep_le (test : Key → Value → Bool) (table : Table Key Value) :
    (table.keep test).size ≤ table.size :=
  length_filter_le _ _

theorem size_remove_le (key : Key) (table : Table Key Value) :
    (table.remove key).size ≤ table.size :=
  table.size_keep_le _

theorem size_put_le (key : Key) (value : Value) (table : Table Key Value) :
    (table.put key value).size ≤ table.size + 1 :=
  Nat.succ_le_succ (table.size_remove_le key)

theorem size_put_of_find {table : Table Key Value} {key : Key} {known : Value} (value : Value)
    (found : table.find key = some known) : (table.put key value).size = table.size := by
  simpa [size, put] using (values_remove found).length_eq.symm

theorem passes_of_size_keep {table : Table Key Value} {test : Key → Value → Bool} {key : Key}
    {value : Value} (kept : table.size ≤ (table.keep test).size)
    (found : table.find key = some value) : test key value = true :=
  length_filter_eq_length_iff.mp (Nat.le_antisymm (table.size_keep_le _) kept) _
    (find_eq_some_iff.mp found)

end Table

end ReclaimTee
