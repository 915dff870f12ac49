/-
Each OT pool refines a ledger of every entry ever added. The ledger keeps the
erased and compacted entries, so a pool's answer is a slice of its history no
matter how often the pool has dropped its consumed front part.
-/

import Mathlib.Data.List.TakeWhile
import ReclaimTee.Mpc.Pool

namespace ReclaimTee.Mpc

open List

@[simp] theorem fillRange_length {α : Type} (items : List α) (offset count : Nat)
    (value : α) : (fillRange items offset count value).length = items.length := by
  simp [fillRange]

theorem fillRange_getElem?_outside {α : Type} (items : List α) (offset count : Nat)
    (value : α) (position : Nat) (outside : position < offset ∨ offset + count ≤ position) :
    (fillRange items offset count value)[position]? = items[position]? := by
  have notInside : ¬ (offset ≤ position ∧ position < offset + count) := by omega
  rw [fillRange, getElem?_mapIdx]
  cases items[position]? with
  | none => rfl
  | some item => simp [notInside]

theorem fillRange_getElem?_inside {α : Type} (items : List α) (offset count : Nat)
    (value : α) (position : Nat) (lower : offset ≤ position)
    (upper : position < offset + count) (bounded : offset + count ≤ items.length) :
    (fillRange items offset count value)[position]? = some value := by
  have present : position < items.length := by omega
  rw [fillRange, getElem?_mapIdx, getElem?_eq_getElem present]
  simp [lower, upper]

section Retained

variable {α : Type} {entries history : List α} {base start count : Nat}

/-- The entries held from a base on and the whole history have the same window where
they agree. -/
theorem window_eq_of_agree (retained : base ≤ start)
    (agree : ∀ step, step < count → entries[start + step - base]? = history[start + step]?) :
    (entries.drop (start - base)).take count = (history.drop start).take count := by
  apply ext_getElem?
  intro step
  rw [getElem?_take, getElem?_take, getElem?_drop, getElem?_drop, ← Nat.sub_add_comm retained]
  by_cases inside : step < count
  · rw [if_pos inside, if_pos inside]
    exact agree step inside
  · rw [if_neg inside, if_neg inside]

theorem getElem?_append_retained {position : Nat} (batch : List α)
    (extent : base + entries.length = history.length) (after : base ≤ position)
    (held : entries[position - base]? = history[position]?) :
    (entries ++ batch)[position - base]? = (history ++ batch)[position]? := by
  rw [getElem?_append, getElem?_append]
  by_cases early : position < history.length
  · have inside : position - base < entries.length := by omega
    rw [if_pos early, if_pos inside]
    exact held
  · have past : ¬ position - base < entries.length := by omega
    have sameOffset : position - base - entries.length = position - history.length := by omega
    rw [if_neg early, if_neg past, sameOffset]

end Retained

/-- The batch continues the pool exactly when both index conditions hold. -/
structure Continues (total : Nat) (indices : List Nat) : Prop where
  fits : total + indices.length ≤ maxUint64
  consecutive : indices = List.range' total indices.length

theorem continues_map_iff {α : Type} {total : Nat} {index : α → Nat} {batch : List α} :
    Continues total (batch.map index) ↔
      total + batch.length ≤ maxUint64 ∧ batch.map index = List.range' total batch.length := by
  constructor
  · rintro ⟨fits, consecutive⟩
    rw [length_map] at fits consecutive
    exact ⟨fits, consecutive⟩
  · rintro ⟨fits, consecutive⟩
    rw [← length_map index] at fits consecutive
    exact ⟨fits, consecutive⟩

/-- The entries held from a base on end with a history that is numbered from zero. -/
structure Numbered {α : Type} (index : α → Nat) (base : Nat) (entries history : List α) : Prop where
  extent : base + entries.length = history.length
  bounded : history.length ≤ maxUint64
  indexed : history.map index = List.range' 0 history.length

namespace Numbered

variable {α : Type} {index : α → Nat} {base : Nat} {entries history batch : List α}

@[simp] theorem nil : Numbered index 0 [] [] :=
  ⟨rfl, Nat.zero_le _, rfl⟩

variable (numbered : Numbered index base entries history)
include numbered

theorem checkedIndexEnd_eq : checkedIndexEnd base entries.length = .ok history.length := by
  have extent := numbered.extent
  have bounded := numbered.bounded
  exact checkedIndexEnd_ok_iff.mpr ⟨by omega, by omega, by omega⟩

theorem append (continues : Continues history.length (batch.map index)) :
    Numbered index base (entries ++ batch) (history ++ batch) := by
  obtain ⟨fits, consecutive⟩ := continues_map_iff.mp continues
  have extent := numbered.extent
  refine ⟨?_, ?_, ?_⟩
  · rw [length_append, length_append]
    omega
  · rw [length_append]
    exact fits
  · have joined : range' 0 history.length 1 ++ range' (0 + 1 * history.length) batch.length 1 =
        range' 0 (history.length + batch.length) 1 := range'_append
    rw [map_append, numbered.indexed, consecutive]
    simpa using joined

end Numbered

/-! ### Sender pool -/

structure SenderPool.Refines (pool : SenderPool) (ledger : Ledger SenderOT) : Prop
    extends Numbered SenderOT.index pool.baseIndex pool.entries ledger.history where
  baseLeNext : pool.baseIndex ≤ pool.nextIndex
  nextLeTotal : pool.nextIndex ≤ ledger.history.length
  frontier : ∀ position, ledger.taken position ↔ position < pool.nextIndex
  held : ∀ position, pool.nextIndex ≤ position →
    pool.entries[position - pool.baseIndex]? = ledger.history[position]?

theorem SenderPool.compactConsumed_nextIndex (pool : SenderPool) :
    pool.compactConsumed.nextIndex = pool.nextIndex := by
  unfold SenderPool.compactConsumed
  dsimp only
  split
  · rfl
  · rfl

theorem SenderPool.new_refines : SenderPool.new.Refines Ledger.empty := by
  constructor <;> simp [SenderPool.new, Ledger.empty]

namespace SenderPool

variable {pool next : SenderPool} {ledger : Ledger SenderOT} (refines : pool.Refines ledger)

include refines

namespace Refines

theorem total_eq : pool.total = .ok ledger.history.length := by
  have ordered : ¬ (pool.nextIndex < pool.baseIndex ∨ ledger.history.length < pool.nextIndex) := by
    have lower := refines.baseLeNext
    have upper := refines.nextLeTotal
    omega
  rw [total, refines.checkedIndexEnd_eq]
  exact if_neg ordered

theorem totalCount_eq : pool.totalCount = ledger.history.length := by
  rw [totalCount, refines.total_eq]

theorem compact : pool.compactConsumed.Refines ledger := by
  unfold compactConsumed
  dsimp only
  split
  · exact refines
  have extent := refines.extent
  have lower := refines.baseLeNext
  have upper := refines.nextLeTotal
  refine
    { refines with extent := ?_, baseLeNext := Nat.le_refl _, nextLeTotal := upper, held := ?_ }
  · change pool.nextIndex + (pool.entries.drop _).length = _
    rw [length_drop]
    omega
  · intro position after
    change pool.nextIndex ≤ position at after
    rw [getElem?_drop]
    have shifted : pool.nextIndex - pool.baseIndex + (position - pool.nextIndex) =
        position - pool.baseIndex := by omega
    rw [shifted]
    exact refines.held position after

end Refines

theorem validateAdd_eq_ok_iff (batch : List SenderOT) {value : Unit} :
    pool.validateAdd batch = .ok value ↔
      Continues ledger.history.length (batch.map SenderOT.index) := by
  have bounded := refines.bounded
  rw [validateAdd, refines.total_eq, continues_map_iff]
  simp only [bind_eq_ok_iff, validateSenderOTIndices, validateOTIndices_ok_iff,
    length_map, Except.ok.injEq, exists_eq_left', checkedIndexEnd_ok_iff]
  constructor
  · rintro ⟨_, _, fits, consecutive⟩
    exact ⟨by omega, consecutive⟩
  · rintro ⟨fits, consecutive⟩
    exact ⟨_, ⟨by omega, by omega, rfl⟩, by omega, consecutive⟩

theorem add_eq_ok_iff (batch : List SenderOT) :
    pool.add batch = .ok next ↔
      Continues ledger.history.length (batch.map SenderOT.index) ∧
        next = { pool with entries := pool.entries ++ batch } := by
  unfold add
  simp only [eq_ok_iff, validateAdd_eq_ok_iff refines, exists_const]
  exact and_congr_right fun _ => eq_comm

theorem add_refines {batch : List SenderOT} (added : pool.add batch = .ok next) :
    next.Refines (ledger.append batch) ∧ next.nextIndex = pool.nextIndex := by
  obtain ⟨continues, built⟩ := (add_eq_ok_iff refines batch).mp added
  subst built
  have lower := refines.baseLeNext
  refine ⟨?_, rfl⟩
  refine
    { refines.append continues, refines with
      baseLeNext := lower
      nextLeTotal := ?_
      held := ?_ }
  · rw [Ledger.append_history, length_append]
    exact Nat.le_add_right_of_le refines.nextLeTotal
  · intro position after
    exact getElem?_append_retained batch refines.extent (Nat.le_trans lower after)
      (refines.held position after)

theorem reserve_refines {count : Int} {start : Nat} {result : List SenderOT}
    (reserved : pool.reserve count = .ok ((start, result), next)) :
    start = pool.nextIndex ∧ 0 < count ∧ ledger.Free start count.toNat ∧
      result = ledger.slice start count.toNat ∧
      next.Refines (ledger.mark start count.toNat) ∧
      next.nextIndex = start + count.toNat := by
  unfold reserve at reserved
  simp only [eq_ok_iff, exists_const, refines.total_eq, Except.ok.injEq, exists_eq_left',
    Prod.mk.injEq, checkedIndexEnd_ok_iff] at reserved
  obtain ⟨positive, _, finish, ⟨_, _, finishEq⟩, enough, ⟨startEq, resultEq⟩, nextEq⟩ :=
    reserved
  subst startEq resultEq finishEq
  have extent := refines.extent
  have lower := refines.baseLeNext
  have free : ledger.Free pool.nextIndex count.toNat :=
    { within := by omega
      untaken := by
        intro position after _before taken
        have before := (refines.frontier position).mp taken
        omega }
  have answer : (pool.entries.drop (pool.nextIndex - pool.baseIndex)).take count.toNat =
      ledger.slice pool.nextIndex count.toNat := by
    apply window_eq_of_agree lower
    intro step _inside
    exact refines.held (pool.nextIndex + step) (Nat.le_add_right _ _)
  have wiped : Refines
      { pool with
        entries := fillRange pool.entries (pool.nextIndex - pool.baseIndex) count.toNat
          SenderOT.cleared
        nextIndex := pool.nextIndex + count.toNat }
      (ledger.mark pool.nextIndex count.toNat) :=
    { refines with
      extent := by
        rw [fillRange_length]
        exact extent
      baseLeNext := by
        change pool.baseIndex ≤ pool.nextIndex + count.toNat
        omega
      nextLeTotal := free.within
      frontier := by
        intro position
        rw [Ledger.mark_taken, refines.frontier]
        change _ ↔ position < pool.nextIndex + count.toNat
        omega
      held := by
        intro position after
        change pool.nextIndex + count.toNat ≤ position at after
        change (fillRange pool.entries _ _ _)[position - pool.baseIndex]? = _
        rw [fillRange_getElem?_outside _ _ _ _ _ (.inr (by omega))]
        exact refines.held position (by omega) }
  refine ⟨rfl, by omega, free, answer, ?_, ?_⟩
  · rw [← nextEq]
    exact wiped.compact
  · rw [← nextEq, compactConsumed_nextIndex]

theorem reserve_succeeds {count : Nat} (positive : 0 < count)
    (enough : pool.nextIndex + count ≤ ledger.history.length) :
    ∃ next, pool.reserve count =
      .ok ((pool.nextIndex, ledger.slice pool.nextIndex count), next) := by
  have bounded := refines.bounded
  have accepted : ∃ answer, pool.reserve count = .ok answer := by
    unfold reserve
    simp only [eq_ok_iff, exists_const, refines.total_eq, Except.ok.injEq, exists_eq_left',
      checkedIndexEnd_ok_iff]
    exact ⟨_, by omega, Nat.not_lt_of_le refines.baseLeNext, pool.nextIndex + count,
      ⟨by omega, by omega, by omega⟩, Nat.not_lt_of_le enough, rfl⟩
  obtain ⟨⟨⟨start, result⟩, next⟩, reserved⟩ := accepted
  obtain ⟨startEq, _, _, resultEq, _, _⟩ := reserve_refines refines reserved
  rw [Int.toNat_natCast] at resultEq
  exact ⟨next, by rw [reserved, resultEq, startEq]⟩

end SenderPool

/-! ### Receiver pool -/

structure ReceiverPool.Refines (pool : ReceiverPool) (ledger : Ledger ReceiverOT) : Prop
    extends Numbered ReceiverOT.index pool.baseIndex pool.entries ledger.history where
  flagged : pool.used.length = pool.entries.length
  counted : pool.availableCount = (pool.used.count false : Nat)
  baseLeHigh : pool.baseIndex ≤ pool.highWater
  highLeTotal : pool.highWater ≤ ledger.history.length
  recorded : ∀ position, ledger.taken position ↔
    position < pool.baseIndex ∨ pool.used[position - pool.baseIndex]? = some true
  takenBelow : ∀ position, ledger.taken position → position < pool.highWater
  held : ∀ position, pool.baseIndex ≤ position → ¬ ledger.taken position →
    pool.entries[position - pool.baseIndex]? = ledger.history[position]?

theorem ReceiverPool.compactConsumed_highWater (pool : ReceiverPool) :
    pool.compactConsumed.highWater = pool.highWater := by
  unfold ReceiverPool.compactConsumed
  dsimp only
  split
  · rfl
  · rfl

theorem ReceiverPool.new_refines : ReceiverPool.new.Refines Ledger.empty := by
  constructor <;> simp [ReceiverPool.new, Ledger.empty]

private theorem leading_used (used : List Bool) (position : Nat)
    (leading : position < (used.takeWhile fun flag => flag).length) :
    used[position]? = some true := by
  have split := takeWhile_append_dropWhile (p := fun flag : Bool => flag) (l := used)
  rw [← split, getElem?_append, if_pos leading, getElem?_eq_getElem leading]
  have passed := mem_takeWhile_imp (getElem_mem leading)
  rw [passed]

private theorem count_false_drop_leading (used : List Bool) :
    (used.drop (used.takeWhile fun flag => flag).length).count false = used.count false := by
  have leadingCount : (used.takeWhile fun flag => flag).count false = 0 := by
    rw [count_eq_zero]
    intro member
    have impossible := mem_takeWhile_imp member
    cases impossible
  have split := takeWhile_append_dropWhile (p := fun flag : Bool => flag) (l := used)
  have rest : used.drop (used.takeWhile fun flag => flag).length =
      used.dropWhile fun flag => flag := by
    nth_rewrite 2 [← split]
    exact drop_left
  rw [rest]
  nth_rewrite 2 [← split]
  rw [count_append, leadingCount, Nat.zero_add]

private theorem fillRange_eq_append {α : Type} (items : List α) (offset count : Nat)
    (value : α) (bounded : offset + count ≤ items.length) :
    fillRange items offset count value =
      items.take offset ++ (List.replicate count value ++ items.drop (offset + count)) := by
  apply ext_getElem?
  intro position
  have takeLength : (items.take offset).length = offset := by
    rw [length_take]
    omega
  rw [getElem?_append, takeLength]
  by_cases before : position < offset
  · rw [if_pos before, fillRange_getElem?_outside _ _ _ _ _ (.inl before),
      getElem?_take, if_pos before]
  · rw [if_neg before, getElem?_append, length_replicate]
    by_cases inside : position - offset < count
    · rw [if_pos inside, getElem?_replicate, if_pos inside]
      exact fillRange_getElem?_inside _ _ _ _ _ (by omega) (by omega) bounded
    · rw [if_neg inside, fillRange_getElem?_outside _ _ _ _ _ (.inr (by omega)), getElem?_drop]
      congr 1
      omega

private theorem count_false_fillRange (used : List Bool) (offset count : Nat)
    (bounded : offset + count ≤ used.length) :
    (fillRange used offset count true).count false +
      ((used.drop offset).take count).count false = used.count false := by
  have split : used = used.take offset ++
      ((used.drop offset).take count ++ used.drop (offset + count)) := by
    rw [← drop_drop, take_append_drop, take_append_drop]
  have total := congrArg (List.count false) split
  rw [count_append, count_append] at total
  rw [fillRange_eq_append _ _ _ _ bounded, count_append, count_append, count_replicate]
  simp only [beq_iff_eq, Bool.true_eq_false, if_false]
  omega

theorem firstUsed_eq_none_iff (used : List Bool) (offset count : Nat) :
    ReceiverPool.firstUsed used offset count = none ↔
      ∀ step, step < count → used[offset + step]? ≠ some true := by
  rw [ReceiverPool.firstUsed, findIdx?_eq_none_iff]
  constructor
  · intro unused step inside marked
    have member : true ∈ (used.drop offset).take count := by
      apply mem_of_getElem? (i := step)
      rw [getElem?_take, if_pos inside, getElem?_drop]
      exact marked
    have impossible := unused true member
    cases impossible
  · intro unused flag member
    obtain ⟨step, located⟩ := mem_iff_getElem?.mp member
    rw [getElem?_take] at located
    by_cases inside : step < count
    · rw [if_pos inside, getElem?_drop] at located
      cases flag with
      | false => rfl
      | true => exact absurd located (unused step inside)
    · rw [if_neg inside] at located
      cases located

namespace ReceiverPool

variable {pool next : ReceiverPool} {ledger : Ledger ReceiverOT} (refines : pool.Refines ledger)

include refines

namespace Refines

theorem total_eq : pool.total = .ok ledger.history.length := by
  have extent := refines.extent
  have consistent : ¬ (pool.used.length ≠ pool.entries.length ∨ pool.availableCount < 0 ∨
      pool.entries.length < pool.availableCount ∨
      pool.highWater < pool.baseIndex ∨ ledger.history.length < pool.highWater) := by
    have flagged := refines.flagged
    have counted := refines.counted
    have lower := refines.baseLeHigh
    have upper := refines.highLeTotal
    have countBound := count_le_length (a := false) (l := pool.used)
    omega
  rw [total, refines.checkedIndexEnd_eq]
  exact if_neg consistent

theorem totalCount_eq : pool.totalCount = ledger.history.length := by
  rw [totalCount, refines.total_eq]

theorem recorded_add {start : Nat} (retained : pool.baseIndex ≤ start) (step : Nat) :
    ledger.taken (start + step) ↔ pool.used[start - pool.baseIndex + step]? = some true := by
  rw [refines.recorded, Nat.sub_add_comm retained]
  exact or_iff_right (by omega)

theorem retained {start count : Nat} (positive : 0 < count)
    (free : ledger.Free start count) : pool.baseIndex ≤ start := by
  by_contra below
  exact free.untaken start (Nat.le_refl _) (by omega)
    ((refines.recorded start).mpr (.inl (by omega)))

theorem compact : pool.compactConsumed.Refines ledger := by
  unfold compactConsumed
  dsimp only
  split
  · exact refines
  generalize leadingEq : (pool.used.takeWhile fun flag => flag).length = leading
  have extent := refines.extent
  have flagged := refines.flagged
  have leadingUsed (position : Nat) (inside : position < leading) :
      pool.used[position]? = some true := by
    apply leading_used
    omega
  have leadingLe : leading ≤ pool.used.length := by
    rw [← leadingEq]
    exact ( takeWhile_prefix _).length_le
  have leadingTaken (position : Nat) (inside : position < pool.baseIndex + leading) :
      ledger.taken position := by
    apply (refines.recorded position).mpr
    by_cases below : position < pool.baseIndex
    · exact .inl below
    · exact .inr (leadingUsed _ (by omega))
  refine
    { refines with
      extent := ?_
      flagged := ?_
      counted := ?_
      baseLeHigh := ?_
      recorded := ?_
      held := ?_ }
  · change pool.baseIndex + leading + (pool.entries.drop leading).length = _
    rw [length_drop]
    omega
  · rw [length_drop, length_drop, flagged]
  · rw [refines.counted, ← leadingEq, count_false_drop_leading]
  · change pool.baseIndex + leading ≤ pool.highWater
    cases leading with
    | zero => exact refines.baseLeHigh
    | succ rest =>
      have lastTaken := leadingTaken (pool.baseIndex + rest) (by omega)
      have below := refines.takenBelow _ lastTaken
      omega
  · intro position
    by_cases inside : position < pool.baseIndex + leading
    · exact iff_of_true (leadingTaken position inside) (.inl inside)
    have sameOffset : leading + (position - (pool.baseIndex + leading)) =
        position - pool.baseIndex := by omega
    have notBelow : ¬ position < pool.baseIndex := by omega
    rw [getElem?_drop, sameOffset, refines.recorded]
    simp only [inside, notBelow]
  · intro position after untaken
    change pool.baseIndex + leading ≤ position at after
    have sameOffset : leading + (position - (pool.baseIndex + leading)) =
        position - pool.baseIndex := by omega
    rw [getElem?_drop, sameOffset]
    exact refines.held position (by omega) untaken

end Refines

theorem add_eq_ok_iff (batch : List ReceiverOT) :
    pool.add batch = .ok next ↔
      Continues ledger.history.length (batch.map ReceiverOT.index) ∧
        next =
          { pool with
            entries := pool.entries ++ batch
            used := pool.used ++ List.replicate batch.length false
            availableCount := pool.availableCount + batch.length } := by
  have bounded := refines.bounded
  unfold add
  simp only [eq_ok_iff, refines.total_eq, Except.ok.injEq, exists_eq_left',
    validateReceiverOTIndices, validateOTIndices_ok_iff, checkedIndexEnd_ok_iff, length_map,
    exists_const, continues_map_iff]
  constructor
  · rintro ⟨_, _, ⟨fits, consecutive⟩, built⟩
    exact ⟨⟨by omega, consecutive⟩, built.symm⟩
  · rintro ⟨⟨fits, consecutive⟩, built⟩
    exact ⟨_, ⟨by omega, by omega, rfl⟩, ⟨by omega, consecutive⟩, built.symm⟩

theorem add_refines {batch : List ReceiverOT} (added : pool.add batch = .ok next) :
    next.Refines (ledger.append batch) ∧ next.highWater = pool.highWater := by
  obtain ⟨continues, built⟩ := (add_eq_ok_iff refines batch).mp added
  subst built
  have flagged := refines.flagged
  have newFlag (position : Nat) :
      (pool.used ++ List.replicate batch.length false)[position]? = some true ↔
        pool.used[position]? = some true := by
    rw [getElem?_append]
    by_cases old : position < pool.used.length
    · rw [if_pos old]
    · rw [getElem?_replicate, getElem?_eq_none (by omega)]
      split <;> simp
  refine ⟨?_, rfl⟩
  refine
    { refines.append continues, refines with
      flagged := ?_
      counted := ?_
      highLeTotal := ?_
      recorded := ?_
      held := ?_ }
  · rw [length_append, length_append, length_replicate, flagged]
  · change pool.availableCount + batch.length = _
    rw [count_append, count_replicate_self, refines.counted]
    omega
  · rw [Ledger.append_history, length_append]
    exact Nat.le_add_right_of_le refines.highLeTotal
  · intro position
    rw [newFlag]
    exact refines.recorded position
  · intro position after untaken
    exact getElem?_append_retained batch refines.extent after (refines.held position after untaken)

theorem validateConsumable_eq_ok_iff (start : Nat) (count : Int) {value : Unit} :
    pool.validateConsumable start count = .ok value ↔
      0 < count ∧ ledger.Free start count.toNat := by
  have bounded := refines.bounded
  unfold validateConsumable
  simp only [eq_ok_iff, exists_const, refines.total_eq, Except.ok.injEq, exists_eq_left',
    checkedIndexEnd_ok_iff, rejectSome_eq_ok_iff, firstUsed_eq_none_iff]
  constructor
  · intro accepted
    obtain ⟨positive, notBelow, finish, ⟨_, _, finishEq⟩, enough, unused⟩ := accepted
    refine ⟨by omega, by omega, ?_⟩
    intro position after before taken
    refine unused (position - start) (by omega) ((refines.recorded_add (by omega) _).mp ?_)
    rw [Nat.add_sub_cancel' after]
    exact taken
  · intro valid
    obtain ⟨positive, free⟩ := valid
    have within := free.within
    have retained := refines.retained (by omega) free
    refine ⟨by omega, by omega, start + count.toNat, ⟨by omega, by omega, rfl⟩, by omega, ?_⟩
    intro step inside marked
    exact free.untaken (start + step) (Nat.le_add_right _ _) (by omega)
      ((refines.recorded_add retained step).mpr marked)

/-- Wiping a retained window marks it in the ledger, whichever call wipes it. -/
theorem Refines.wipe (start count high : Nat)
    (retained : pool.baseIndex ≤ start) (reached : start + count ≤ high)
    (monotone : pool.highWater ≤ high) (highLeTotal : high ≤ ledger.history.length) :
    Refines
      { pool with
        entries := fillRange pool.entries (start - pool.baseIndex) count ReceiverOT.cleared
        used := fillRange pool.used (start - pool.baseIndex) count true
        availableCount := pool.availableCount -
          (((pool.used.drop (start - pool.baseIndex)).take count).count false : Nat)
        highWater := high }
      (ledger.mark start count) := by
  have extent := refines.extent
  have flagged := refines.flagged
  have inFlags : start - pool.baseIndex + count ≤ pool.used.length := by omega
  refine
    { refines with
      extent := ?_
      flagged := ?_
      counted := ?_
      baseLeHigh := ?_
      highLeTotal := highLeTotal
      recorded := ?_
      takenBelow := ?_
      held := ?_ }
  · rw [fillRange_length]
    exact extent
  · rw [fillRange_length, fillRange_length]
    exact flagged
  · have accounting := count_false_fillRange pool.used _ _ inFlags
    change pool.availableCount - _ = ((fillRange pool.used _ _ true).count false : Nat)
    rw [refines.counted]
    omega
  · exact Nat.le_trans refines.baseLeHigh monotone
  · intro position
    change _ ↔ position < pool.baseIndex ∨
      (fillRange pool.used (start - pool.baseIndex) count true)[position - pool.baseIndex]? =
        some true
    rw [Ledger.mark_taken, refines.recorded]
    by_cases inside : start ≤ position ∧ position < start + count
    · rw [fillRange_getElem?_inside _ _ _ _ _ (by omega) (by omega) inFlags]
      exact iff_of_true (.inr inside) (.inr rfl)
    · by_cases below : position < pool.baseIndex
      · exact iff_of_true (.inl (.inl below)) (.inl below)
      · rw [fillRange_getElem?_outside _ _ _ _ _ (by omega)]
        simp only [inside, or_false]
  · intro position taken
    rcases taken with before | inside
    · exact Nat.lt_of_lt_of_le (refines.takenBelow position before) monotone
    · exact Nat.lt_of_lt_of_le inside.2 reached
  · intro position after untaken
    change pool.baseIndex ≤ position at after
    rw [Ledger.mark_taken, not_or] at untaken
    change (fillRange pool.entries _ _ _)[position - pool.baseIndex]? = _
    rw [fillRange_getElem?_outside _ _ _ _ _ (by omega)]
    exact refines.held position after untaken.1

/-- A free window has no used flag, so it counts as `count` free entries. -/
private theorem free_window_count {start count : Nat}
    (retained : pool.baseIndex ≤ start) (free : ledger.Free start count) :
    ((pool.used.drop (start - pool.baseIndex)).take count).count false = count := by
  have extent := refines.extent
  have flagged := refines.flagged
  have within := free.within
  have windowLength : ((pool.used.drop (start - pool.baseIndex)).take count).length = count := by
    rw [length_take, length_drop]
    omega
  have allFree : ∀ flag ∈ (pool.used.drop (start - pool.baseIndex)).take count,
      false = flag := by
    have unused : firstUsed pool.used (start - pool.baseIndex) count = none := by
      rw [firstUsed_eq_none_iff]
      intro step inside marked
      exact free.untaken (start + step) (Nat.le_add_right _ _) (by omega)
        ((refines.recorded_add retained step).mpr marked)
    rw [firstUsed, findIdx?_eq_none_iff] at unused
    intro flag member
    exact (unused flag member).symm
  rw [count_eq_length.mpr allFree]
  exact windowLength

theorem consume_refines {start : Nat} {count : Int} {result : List ReceiverOT}
    (consumed : pool.consume start count = .ok (result, next)) :
    0 < count ∧ ledger.Free start count.toNat ∧
      result = ledger.slice start count.toNat ∧
      next.Refines (ledger.mark start count.toNat) ∧
      next.highWater = max pool.highWater (start + count.toNat) := by
  unfold consume at consumed
  simp only [eq_ok_iff, validateConsumable_eq_ok_iff refines, exists_const, Prod.mk.injEq] at consumed
  obtain ⟨⟨positive, free⟩, resultEq, nextEq⟩ := consumed
  subst resultEq
  have retained := refines.retained (by omega) free
  have answer : (pool.entries.drop (start - pool.baseIndex)).take count.toNat =
      ledger.slice start count.toNat := by
    apply window_eq_of_agree retained
    intro step inside
    exact refines.held (start + step) (by omega)
      (free.untaken (start + step) (Nat.le_add_right _ _) (by omega))
  have highEq : (if pool.highWater < start + count.toNat then start + count.toNat
      else pool.highWater) = max pool.highWater (start + count.toNat) := by
    split <;> omega
  have within := free.within
  have highLeTotal := refines.highLeTotal
  have wiped := refines.wipe start count.toNat (max pool.highWater (start + count.toNat))
    retained (Nat.le_max_right _ _) (Nat.le_max_left _ _) (by omega)
  rw [free_window_count refines retained free] at wiped
  have countCast : ((count.toNat : Nat) : Int) = count := by omega
  rw [countCast, ← highEq] at wiped
  refine ⟨positive, free, answer, ?_, ?_⟩
  · rw [← nextEq]
    exact wiped.compact
  · rw [← nextEq, ← highEq, compactConsumed_highWater]

theorem consume_succeeds {start count : Nat} (positive : 0 < count)
    (free : ledger.Free start count) :
    ∃ next, pool.consume start count = .ok (ledger.slice start count, next) := by
  have valid : pool.validateConsumable start count = .ok () := by
    apply (validateConsumable_eq_ok_iff refines start count).mpr
    exact ⟨by omega, free⟩
  have accepted : ∃ answer, pool.consume start count = .ok answer := by
    unfold consume
    simp only [eq_ok_iff, valid, exists_const]
    exact ⟨_, trivial, rfl⟩
  obtain ⟨⟨result, next⟩, consumed⟩ := accepted
  obtain ⟨_, _, resultEq, _, _⟩ := consume_refines refines consumed
  rw [Int.toNat_natCast] at resultEq
  exact ⟨next, by rw [consumed, resultEq]⟩

/-- Advancing succeeds exactly between the highest consumed end and the total,
and leaves every entry below the new frontier taken. -/
theorem advanceTo_refines {frontier : Nat}
    (afterHigh : pool.highWater ≤ frontier) (inTotal : frontier ≤ ledger.history.length) :
    ∃ next, pool.advanceTo frontier = .ok next ∧
      next.Refines (ledger.mark pool.baseIndex (frontier - pool.baseIndex)) ∧
      next.highWater = frontier := by
  have lower := refines.baseLeHigh
  have inBounds : ¬ (frontier < pool.highWater ∨ ledger.history.length < frontier) := by
    omega
  have wiped := refines.wipe pool.baseIndex (frontier - pool.baseIndex) frontier
    (Nat.le_refl _) (by omega) afterHigh inTotal
  rw [Nat.sub_self, drop_zero] at wiped
  refine ⟨_, ?_, wiped.compact, compactConsumed_highWater _⟩
  unfold advanceTo
  simp only [eq_ok_iff, refines.total_eq, Except.ok.injEq, exists_eq_left', exists_const]
  exact ⟨inBounds, trivial⟩

theorem advanceTo_bounds {frontier : Nat} (advanced : pool.advanceTo frontier = .ok next) :
    pool.highWater ≤ frontier ∧ frontier ≤ ledger.history.length := by
  unfold advanceTo at advanced
  simp only [eq_ok_iff, refines.total_eq, Except.ok.injEq] at advanced
  omega

theorem advanceTo_kept {frontier : Nat} (advanced : pool.advanceTo frontier = .ok next) :
    next.Refines (ledger.mark pool.baseIndex (frontier - pool.baseIndex)) ∧
      next.highWater = frontier := by
  have inBounds := advanceTo_bounds refines advanced
  obtain ⟨reached, reachedEq, kept⟩ := advanceTo_refines refines inBounds.1 inBounds.2
  rw [reachedEq] at advanced
  cases advanced
  exact kept

end ReceiverPool

end ReclaimTee.Mpc
