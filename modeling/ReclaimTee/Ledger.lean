/-
An append-only sequence whose positions are handed out at most once. The taken
set is an arbitrary predicate, so frontier and out-of-order allocators are both
instances.
-/

import Mathlib.Data.List.Nodup
import Mathlib.Data.List.Range

namespace ReclaimTee

open List

structure Ledger (α : Type) where
  history : List α
  taken : Nat → Prop

namespace Ledger

variable {α : Type}

def empty : Ledger α :=
  { history := [], taken := fun _ => False }

def append (ledger : Ledger α) (batch : List α) : Ledger α :=
  { ledger with history := ledger.history ++ batch }

/-- A range is free when it lies in the history and no position is taken. -/
structure Free (ledger : Ledger α) (start count : Nat) : Prop where
  within : start + count ≤ ledger.history.length
  untaken : ∀ position, start ≤ position → position < start + count → ¬ ledger.taken position

def slice (ledger : Ledger α) (start count : Nat) : List α :=
  (ledger.history.drop start).take count

def mark (ledger : Ledger α) (start count : Nat) : Ledger α :=
  { ledger with
    taken := fun position =>
      ledger.taken position ∨ (start ≤ position ∧ position < start + count) }

@[simp] theorem append_history (ledger : Ledger α) (batch : List α) :
    (ledger.append batch).history = ledger.history ++ batch := rfl

@[simp] theorem mark_history (ledger : Ledger α) (start count : Nat) :
    (ledger.mark start count).history = ledger.history := rfl

@[simp] theorem mark_taken (ledger : Ledger α) (start count position : Nat) :
    (ledger.mark start count).taken position ↔
      ledger.taken position ∨ (start ≤ position ∧ position < start + count) :=
  Iff.rfl

theorem slice_indices (ledger : Ledger α) (index : α → Nat)
    (indexed : ledger.history.map index = List.range' 0 ledger.history.length)
    (start count : Nat) (within : start + count ≤ ledger.history.length) :
    (ledger.slice start count).map index = List.range' start count := by
  have enough : count ≤ ledger.history.length - start := by omega
  rw [slice, map_take, map_drop, indexed, drop_range',
    take_range'_of_length_ge enough, Nat.mul_one, Nat.zero_add]

/-- One move of a ledger, labelled with the positions it hands out. Discarding
positions marks them without handing them out. -/
inductive Step : Ledger α → List Nat → Ledger α → Prop
  | append (ledger : Ledger α) (batch : List α) :
      Step ledger [] (ledger.append batch)
  | handOut (ledger : Ledger α) (start count : Nat)
      (free : ledger.Free start count) :
      Step ledger (List.range' start count) (ledger.mark start count)
  | discard (ledger : Ledger α) (start count : Nat) :
      Step ledger [] (ledger.mark start count)

inductive Run : Ledger α → List Nat → Ledger α → Prop
  | refl (ledger : Ledger α) : Run ledger [] ledger
  | snoc {first middle last : Ledger α} {handed more : List Nat}
      (run : Run first handed middle) (step : Step middle more last) :
      Run first (handed ++ more) last

variable {first last : Ledger α} {handed : List Nat} {position : Nat}

theorem Step.taken_mono (step : Step first handed last) (taken : first.taken position) :
    last.taken position := by
  cases step with
  | append batch => exact taken
  | handOut | discard => exact Or.inl taken

theorem Step.handed_fresh (step : Step first handed last) (member : position ∈ handed) :
    ¬ first.taken position := by
  cases step with
  | append | discard => cases member
  | handOut start count free =>
    have bounds := mem_range'_1.mp member
    exact free.untaken position bounds.1 bounds.2

theorem Step.handed_taken (step : Step first handed last) (member : position ∈ handed) :
    last.taken position := by
  cases step with
  | append | discard => cases member
  | handOut start count free => exact Or.inr (mem_range'_1.mp member)

theorem Step.handed_nodup (step : Step first handed last) : handed.Nodup := by
  cases step with
  | append | discard => exact nodup_nil
  | handOut start count free => exact nodup_range'

theorem Run.handed_taken (run : Run first handed last) (member : position ∈ handed) :
    last.taken position := by
  induction run with
  | refl => cases member
  | snoc run step ih =>
    rcases mem_append.mp member with earlier | now
    · exact step.taken_mono (ih earlier)
    · exact step.handed_taken now

theorem Run.handed_nodup (run : Run first handed last) : handed.Nodup := by
  induction run with
  | refl => exact nodup_nil
  | snoc run step ih =>
    refine nodup_append.mpr ⟨ih, step.handed_nodup, ?_⟩
    intro position earlier other now same
    subst other
    exact step.handed_fresh now (run.handed_taken earlier)

theorem Run.log_snoc {index : α → Nat} {log : List (Nat × List α)} {start count : Nat}
    {entries : List α} (run : Run first (log.flatMap fun handed => handed.2.map index) last)
    (placed : ∀ handed ∈ log, handed.2.map index = List.range' handed.1 handed.2.length)
    (indexed : last.history.map index = List.range' 0 last.history.length)
    (free : last.Free start count) (sliced : entries = last.slice start count) :
    entries.length = count ∧
      Run first ((log ++ [(start, entries)]).flatMap fun handed => handed.2.map index)
        (last.mark start count) ∧
      ∀ handed ∈ log ++ [(start, entries)],
        handed.2.map index = List.range' handed.1 handed.2.length := by
  have stamped := last.slice_indices index indexed start count free.within
  rw [← sliced] at stamped
  have length : entries.length = count := by
    have lengths := congrArg List.length stamped
    rwa [length_map, length_range'] at lengths
  refine ⟨length, ?_, ?_⟩
  · rw [flatMap_append, flatMap_singleton, stamped]
    exact run.snoc (Step.handOut _ _ _ free)
  · intro handed member
    rcases mem_append.mp member with earlier | now
    · exact placed handed earlier
    · rw [mem_singleton.mp now, stamped, length]

end Ledger

end ReclaimTee
