/-
The sender pool as a queue. The queue keeps every entry it was ever given and
only counts how many it has handed out; the pool wipes, compacts and rebases.
Over every history of calls the two give the same answers.
-/

import ReclaimTee.Mpc.PoolLedger
import ReclaimTee.Transducer

namespace ReclaimTee.Mpc

open Transducer

/-- What a caller sees of one call. A count that cannot be served and a claim that is not
given out are failures. -/
inductive PoolAnswer (Entry : Type)
  | failed
  | done
  | range (start : Nat) (entries : List Entry)
  | claim (allocated : Nat)
  | counters (total : Nat) (available : Int) (next : Nat)

def PoolAnswer.held {Entry : Type} : Bool → PoolAnswer Entry
  | true => .done
  | false => .failed

def ranges {Entry : Type} (answers : List (PoolAnswer Entry)) : List (Nat × List Entry) :=
  answers.filterMap fun
    | .range start entries => some (start, entries)
    | _ => none

inductive SenderCall
  | add (batch : List SenderOT)
  | reserve (count : Int)
  | claimExtendIfNeeded (allocated : Nat)
  | ownsExtendClaim (claim : Option Nat)
  | releaseExtendClaim (claim : Option Nat)
  | invalidateExtendClaim
  | isExtendPending
  | counters

def SenderPool.call (pool : SenderPool) :
    SenderCall → SenderPool × List (PoolAnswer SenderOT)
  | .add batch =>
    match pool.add batch with
    | .error _ => (pool, [.failed])
    | .ok next => (next, [.done])
  | .reserve count =>
    match pool.reserve count with
    | .error _ => (pool, [.failed])
    | .ok ((start, entries), next) => (next, [.range start entries])
  | .claimExtendIfNeeded allocated =>
    match pool.claimExtendIfNeeded allocated with
    | (none, next) => (next, [.failed])
    | (some claim, next) => (next, [.claim claim])
  | .ownsExtendClaim claim => (pool, [.held (pool.ownsExtendClaim claim)])
  | .releaseExtendClaim claim =>
    ((pool.releaseExtendClaim claim).2, [.held (pool.releaseExtendClaim claim).1])
  | .invalidateExtendClaim => (pool.invalidateExtendClaim, [.done])
  | .isExtendPending => (pool, [.held pool.isExtendPending])
  | .counters => (pool, [.counters pool.totalCount pool.available pool.nextIndex])

structure IndexQueue where
  added : List SenderOT
  handed : Nat
  claim : Option Nat

namespace IndexQueue

def new : IndexQueue :=
  { added := [], handed := 0, claim := none }

instance (total : Nat) (indices : List Nat) : Decidable (Continues total indices) :=
  decidable_of_iff (total + indices.length ≤ maxUint64 ∧ indices = List.range' total indices.length)
    ⟨fun both => ⟨both.1, both.2⟩, fun continues => ⟨continues.1, continues.2⟩⟩

def call (queue : IndexQueue) : SenderCall → IndexQueue × List (PoolAnswer SenderOT)
  | .add batch =>
    if Continues queue.added.length (batch.map SenderOT.index) then
      ({ queue with added := queue.added ++ batch }, [.done])
    else
      (queue, [.failed])
  | .reserve count =>
    if 0 < count ∧ queue.handed + count.toNat ≤ queue.added.length then
      ({ queue with handed := queue.handed + count.toNat },
        [.range queue.handed ((queue.added.drop queue.handed).take count.toNat)])
    else
      (queue, [.failed])
  | .claimExtendIfNeeded allocated =>
    if queue.added.length - queue.handed < otPoolWatermark ∧ queue.claim = none then
      ({ queue with claim := some allocated }, [.claim allocated])
    else
      (queue, [.failed])
  | .ownsExtendClaim claim => (queue, [.held (claim.isSome && queue.claim == claim)])
  | .releaseExtendClaim claim =>
    if claim.isSome ∧ queue.claim = claim then
      ({ queue with claim := none }, [.done])
    else
      (queue, [.failed])
  | .invalidateExtendClaim => ({ queue with claim := none }, [.done])
  | .isExtendPending => (queue, [.held queue.claim.isSome])
  | .counters =>
    (queue, [.counters queue.added.length (queue.added.length - queue.handed : Nat)
      queue.handed])

end IndexQueue

/-- The pool holds what is left of the queue, and what was handed out so far is the
front of the queue. -/
structure SenderPool.Tracks (past : List (PoolAnswer SenderOT)) (pool : SenderPool)
    (queue : IndexQueue) : Prop where
  refines : ∃ taken, pool.Refines { history := queue.added, taken := taken }
  next : pool.nextIndex = queue.handed
  claim : pool.extendClaim = queue.claim
  handed : (ranges past).flatMap Prod.snd = queue.added.take queue.handed
  stamped : ∀ range ∈ ranges past,
    range.2.map SenderOT.index = List.range' range.1 range.2.length

theorem SenderPool.reserve_extendClaim {pool next : SenderPool} {count : Int}
    {handed : Nat × List SenderOT} (reserved : pool.reserve count = .ok (handed, next)) :
    next.extendClaim = pool.extendClaim := by
  unfold SenderPool.reserve at reserved
  simp only [eq_ok_iff, Prod.mk.injEq] at reserved
  obtain ⟨_, _, _, _, _, _, _, _, _, _, _, built⟩ := reserved
  rw [← built]
  unfold SenderPool.compactConsumed
  dsimp only
  split
  · rfl
  · rfl

namespace SenderPool.Tracks

variable {past : List (PoolAnswer SenderOT)} {pool : SenderPool} {queue : IndexQueue}

variable (tracks : Tracks past pool queue)
include tracks

theorem quiet (answer : PoolAnswer SenderOT)
    (none_out : ranges [answer] = []) : Tracks (past ++ [answer]) pool queue := by
  have same : ranges (past ++ [answer]) = ranges past := by
    rw [ranges, List.filterMap_append]
    exact List.append_right_eq_self.mpr none_out
  exact
    { tracks with
      handed := by rw [same]; exact tracks.handed
      stamped := by rw [same]; exact tracks.stamped }

theorem held (flag : Bool) : Tracks (past ++ [.held flag]) pool queue := by
  cases flag <;> exact tracks.quiet _ rfl

theorem add (batch : List SenderOT) :
    Alike SenderPool.call IndexQueue.call Tracks past pool queue (.add batch) := by
  obtain ⟨taken, refines⟩ := tracks.refines
  have accepts := @SenderPool.add_eq_ok_iff pool
  unfold Alike SenderPool.call IndexQueue.call
  dsimp only
  by_cases continues : Continues queue.added.length (batch.map SenderOT.index)
  · have added := (accepts refines batch).mpr ⟨continues, rfl⟩
    rw [added, if_pos continues]
    have within : queue.handed ≤ queue.added.length := by
      rw [← tracks.next]
      exact refines.nextLeTotal
    exact ⟨rfl,
      { tracks.quiet .done rfl with
        refines := ⟨taken, (SenderPool.add_refines refines added).1⟩
        handed := by
          rw [(tracks.quiet .done rfl).handed, List.take_append_of_le_length within] }⟩
  · rw [if_neg continues]
    cases answered : pool.add batch with
    | error text => exact ⟨rfl, tracks.quiet _ rfl⟩
    | ok next => exact absurd ((accepts refines batch).mp answered).1 continues

theorem reserve (count : Int) :
    Alike SenderPool.call IndexQueue.call Tracks past pool queue (.reserve count) := by
  obtain ⟨taken, refines⟩ := tracks.refines
  unfold Alike SenderPool.call IndexQueue.call
  dsimp only
  cases answered : pool.reserve count with
  | error text =>
    rw [if_neg]
    · exact ⟨rfl, tracks.quiet _ rfl⟩
    rintro ⟨positive, fits⟩
    rw [← tracks.next] at fits
    obtain ⟨next, reserved⟩ := SenderPool.reserve_succeeds refines
      (Int.lt_toNat.mpr positive) fits
    rw [Int.toNat_of_nonneg (Int.le_of_lt positive), answered] at reserved
    cases reserved
  | ok answer =>
    obtain ⟨⟨start, entries⟩, next⟩ := answer
    obtain ⟨startEq, positive, free, entriesEq, kept, nextEq⟩ :=
      SenderPool.reserve_refines refines answered
    have stamped := Ledger.slice_indices _ SenderOT.index refines.indexed _ _ free.within
    rw [tracks.next] at startEq
    subst startEq
    rw [← entriesEq] at stamped
    have handedLength : entries.length = count.toNat := by
      have lengths := congrArg List.length stamped
      rwa [List.length_map, List.length_range'] at lengths
    rw [if_pos ⟨positive, free.within⟩]
    refine ⟨by rw [entriesEq]; rfl, ?_⟩
    have split : ranges (past ++ [.range queue.handed entries]) =
        ranges past ++ [(queue.handed, entries)] := by
      rw [ranges, List.filterMap_append]
      rfl
    exact
      { refines := ⟨_, kept⟩
        next := nextEq
        claim := (SenderPool.reserve_extendClaim answered).trans tracks.claim
        handed := by
          rw [split, List.flatMap_append, tracks.handed, List.take_add, entriesEq]
          simp [Ledger.slice]
        stamped := by
          intro range member
          rw [split] at member
          rcases List.mem_append.mp member with earlier | now
          · exact tracks.stamped range earlier
          · rw [List.mem_singleton.mp now, handedLength]
            exact stamped }

theorem withClaim (claim : Option Nat) :
    Tracks past { pool with extendClaim := claim } { queue with claim := claim } := by
  obtain ⟨taken, refines⟩ := tracks.refines
  exact
    { tracks with refines := ⟨taken, { refines with }⟩, claim := rfl }

theorem claimExtendIfNeeded (allocated : Nat) :
    Alike SenderPool.call IndexQueue.call Tracks past pool queue
      (.claimExtendIfNeeded allocated) := by
  obtain ⟨taken, refines⟩ := tracks.refines
  have asked : (otPoolWatermark ≤ queue.added.length - pool.nextIndex ∨
      pool.extendClaim ≠ none) ↔
        ¬ (queue.added.length - queue.handed < otPoolWatermark ∧ queue.claim = none) := by
    rw [tracks.next, tracks.claim, not_and_or, Nat.not_lt]
  simp only [Alike, SenderPool.call, IndexQueue.call, SenderPool.claimExtendIfNeeded,
    refines.total_eq]
  by_cases needed : queue.added.length - queue.handed < otPoolWatermark ∧ queue.claim = none
  · rw [if_pos needed, if_neg (fun refused => asked.mp refused needed)]
    exact ⟨rfl, (tracks.withClaim (some allocated)).quiet (.claim allocated) rfl⟩
  · rw [if_neg needed, if_pos (asked.mpr needed)]
    exact ⟨rfl, tracks.quiet _ rfl⟩

theorem releaseExtendClaim (claim : Option Nat) :
    Alike SenderPool.call IndexQueue.call Tracks past pool queue
      (.releaseExtendClaim claim) := by
  have asked : (claim = none ∨ pool.extendClaim ≠ claim) ↔
      ¬ (claim.isSome ∧ queue.claim = claim) := by
    rw [tracks.claim, not_and_or, Option.not_isSome_iff_eq_none]
  simp only [Alike, SenderPool.call, IndexQueue.call, SenderPool.releaseExtendClaim]
  by_cases owned : claim.isSome ∧ queue.claim = claim
  · rw [if_pos owned, if_neg (fun refused => asked.mp refused owned)]
    exact ⟨rfl, (tracks.withClaim none).quiet .done rfl⟩
  · rw [if_neg owned, if_pos (asked.mpr owned)]
    exact ⟨rfl, tracks.quiet .failed rfl⟩

theorem step (made : SenderCall) :
    Alike SenderPool.call IndexQueue.call Tracks past pool queue made := by
  cases made with
  | add batch => exact tracks.add batch
  | reserve count => exact tracks.reserve count
  | claimExtendIfNeeded allocated => exact tracks.claimExtendIfNeeded allocated
  | ownsExtendClaim claim =>
    simp only [Alike, SenderPool.call, IndexQueue.call, SenderPool.ownsExtendClaim, tracks.claim]
    exact ⟨trivial, tracks.held _⟩
  | releaseExtendClaim claim => exact tracks.releaseExtendClaim claim
  | invalidateExtendClaim => exact ⟨rfl, (tracks.withClaim none).quiet .done rfl⟩
  | isExtendPending =>
    simp only [Alike, SenderPool.call, IndexQueue.call, SenderPool.isExtendPending, tracks.claim]
    exact ⟨trivial, tracks.held _⟩
  | counters =>
    obtain ⟨taken, refines⟩ := tracks.refines
    simp only [Alike, SenderPool.call, IndexQueue.call, refines.totalCount_eq, SenderPool.available,
      refines.total_eq, tracks.next]
    exact ⟨trivial, tracks.quiet _ rfl⟩

end SenderPool.Tracks

theorem SenderPool.call_failed {pool : SenderPool} {made : SenderCall}
    (failed : (pool.call made).2 = [.failed]) : (pool.call made).1 = pool := by
  cases made with
  | ownsExtendClaim | isExtendPending | counters => rfl
  | invalidateExtendClaim => cases failed
  | _ =>
    simp only [SenderPool.call, SenderPool.claimExtendIfNeeded,
      SenderPool.releaseExtendClaim] at failed ⊢
    grind [PoolAnswer.held]

/-- Over every history of calls the pool answers as the queue does. What it hands out are
the entries of the queue in order, each stamped with its position, and its counters keep
to the range of an index. -/
theorem senderPool_is_queue (calls : List SenderCall) :
    let pool := feedAll SenderPool.call SenderPool.new calls
    let queue := feedAll IndexQueue.call IndexQueue.new calls
    pool.2 = queue.2 ∧
      queue.1.added.map SenderOT.index = List.range' 0 queue.1.added.length ∧
      (ranges pool.2).flatMap Prod.snd = queue.1.added.take queue.1.handed ∧
      (∀ range ∈ ranges pool.2, range.2.map SenderOT.index = List.range' range.1 range.2.length) ∧
      (∀ made, (pool.1.call made).2 = [.failed] → (pool.1.call made).1 = pool.1) ∧
      pool.1.baseIndex ≤ pool.1.nextIndex ∧ pool.1.nextIndex = queue.1.handed ∧
      queue.1.handed ≤ queue.1.added.length ∧
      pool.1.baseIndex + pool.1.entries.length = queue.1.added.length ∧
      queue.1.added.length ≤ maxUint64 := by
  have start : SenderPool.Tracks [] SenderPool.new IndexQueue.new :=
    { refines := ⟨_, SenderPool.new_refines⟩
      next := rfl
      claim := rfl
      handed := rfl
      stamped := by intro range member; cases member }
  obtain ⟨same, tracks⟩ := feedAll_simulates
    (fun _ _ _ made tracks => tracks.step made) start calls
  rw [List.nil_append] at tracks
  obtain ⟨taken, refines⟩ := tracks.refines
  have within := refines.nextLeTotal
  rw [tracks.next] at within
  exact ⟨same, refines.indexed, tracks.handed, tracks.stamped,
    fun _ => SenderPool.call_failed, refines.baseLeNext, tracks.next, within,
    refines.extent, refines.bounded⟩

end ReclaimTee.Mpc
