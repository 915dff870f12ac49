/-
The receiver pool as a set of unused entries. The pool wipes, compacts and rebases;
over every history of calls it hands out what was added and neither handed out nor
skipped before.
-/

import ReclaimTee.Mpc.PoolLedger

namespace ReclaimTee.Mpc

open List

inductive ReceiverCall
  | add (batch : List ReceiverOT)
  | consume (start : Nat) (count : Int)
  | advanceTo (next : Nat)

/-- A pool with what was added, what was handed out, and how far it was advanced. -/
structure ReceiverRun where
  pool : ReceiverPool
  added : List ReceiverOT
  delivered : List ReceiverOT
  skipped : Nat

namespace ReceiverRun

def new : ReceiverRun :=
  { pool := ReceiverPool.new, added := [], delivered := [], skipped := 0 }

variable (run : ReceiverRun)

def call : ReceiverCall → Except String ReceiverRun
  | .add batch => do
    let pool ← run.pool.add batch
    return { run with pool := pool, added := run.added ++ batch }
  | .consume start count => do
    let (entries, pool) ← run.pool.consume start count
    return { run with pool := pool, delivered := run.delivered ++ entries }
  | .advanceTo next => do
    let pool ← run.pool.advanceTo next
    return { run with pool := pool, skipped := next }

def after (calls : List ReceiverCall) : ReceiverRun :=
  calls.foldl (fun run made => (run.call made).toOption.getD run) new

def unused : List Nat :=
  (List.range run.added.length).filter fun index =>
    run.skipped ≤ index ∧ index ∉ run.delivered.map ReceiverOT.index

def ledger : Ledger ReceiverOT where
  history := run.added
  taken index := index < run.skipped ∨ index ∈ run.delivered.map ReceiverOT.index

structure Sound : Prop where
  refines : run.pool.Refines run.ledger
  distinct : (run.delivered.map ReceiverOT.index).Nodup
  own : ∀ entry ∈ run.delivered, entry ∈ run.added

variable {run} {next : ReceiverRun}

theorem mem_unused {index : Nat} :
    index ∈ run.unused ↔ index < run.added.length ∧ ¬ run.ledger.taken index := by
  simp [unused, ledger]

theorem Sound.available_eq (sound : run.Sound) : run.pool.available = run.unused.length := by
  have refines := sound.refines
  have same : run.unused.Perm
      (((run.pool.used.zipIdx run.pool.baseIndex).filter (!·.1)).map Prod.snd) := by
    have distinct : run.unused.Nodup := nodup_range.filter _
    refine (perm_ext_iff_of_nodup distinct ?_).mpr fun index => ?_
    · refine Nodup.sublist (filter_sublist.map Prod.snd) ?_
      rw [zipIdx_map_snd]
      exact nodup_range'
    · have extent : _ = run.added.length := refines.extent
      have flagged := refines.flagged
      rw [mem_unused, refines.recorded]
      simp only [mem_map, mem_filter, Prod.exists, exists_eq_right,
        mk_mem_zipIdx_iff_le_and_getElem?_sub]
      grind
  have counted : run.pool.used.count false =
      ((run.pool.used.zipIdx run.pool.baseIndex).map Prod.fst).countP (!·) := by
    rw [zipIdx_map_fst, count_eq_countP]
    simp
  rw [ReceiverPool.available, refines.total_eq, refines.counted, counted, countP_map,
    same.length_eq, length_map, countP_eq_length_filter]
  rfl

theorem Sound.free_iff (sound : run.Sound) {start : Nat} {count : Int} {value : Unit} :
    run.pool.validateConsumable start count = .ok value ↔
      0 < count ∧ List.range' start count.toNat ⊆ run.unused := by
  rw [ReceiverPool.validateConsumable_eq_ok_iff sound.refines]
  refine and_congr_right fun positive => ?_
  constructor
  · intro free index member
    have bounds := mem_range'_1.mp member
    have within : _ ≤ run.added.length := free.within
    exact mem_unused.mpr ⟨by omega, free.untaken index bounds.1 bounds.2⟩
  · intro unused
    have free := fun index bounds => mem_unused.mp (unused (mem_range'_1.mpr bounds) : index ∈ _)
    have last := (free (start + count.toNat - 1) (by omega)).1
    exact ⟨by change _ ≤ run.added.length; omega, fun index lower upper => (free index ⟨lower, upper⟩).2⟩

theorem Sound.call (sound : run.Sound) {made : ReceiverCall} (called : run.call made = .ok next) :
    next.Sound := by
  have refines := sound.refines
  cases made with
  | add batch =>
    simp only [ReceiverRun.call, eq_ok_iff] at called
    obtain ⟨pool, added, rfl⟩ := called
    exact
      { refines := (ReceiverPool.add_refines refines added).1
        distinct := sound.distinct
        own := fun entry member => mem_append_left _ (sound.own entry member) }
  | consume start count =>
    simp only [ReceiverRun.call, eq_ok_iff, Prod.exists] at called
    obtain ⟨entries, pool, consumed, rfl⟩ := called
    obtain ⟨_, free, sliced, kept, _⟩ := ReceiverPool.consume_refines refines consumed
    have indexed := run.ledger.slice_indices _ refines.indexed _ _ free.within
    rw [← sliced] at indexed
    have same : (run.ledger.mark start count.toNat) = ledger
        { run with pool := pool, delivered := run.delivered ++ entries } := by
      refine congrArg (Ledger.mk _) (funext fun index => propext ?_)
      rw [map_append, indexed, mem_append, mem_range'_1, ← or_assoc]
      rfl
    refine ⟨same ▸ kept, ?_, forall_mem_append.mpr ⟨sound.own, fun entry member => ?_⟩⟩
    · rw [map_append, indexed, nodup_append]
      refine ⟨sound.distinct, nodup_range', fun index old _ new same => ?_⟩
      subst same
      have bounds := mem_range'_1.mp new
      exact free.untaken index bounds.1 bounds.2 (.inr old)
    · rw [sliced] at member
      exact mem_of_mem_drop (mem_of_mem_take member)
  | advanceTo frontier =>
    simp only [ReceiverRun.call, eq_ok_iff] at called
    obtain ⟨pool, advanced, rfl⟩ := called
    have kept := (ReceiverPool.advanceTo_kept refines advanced).1
    have bounds := ReceiverPool.advanceTo_bounds refines advanced
    have same : (run.ledger.mark run.pool.baseIndex (frontier - run.pool.baseIndex)) =
        ledger { run with pool := pool, skipped := frontier } := by
      refine congrArg (Ledger.mk _) (funext fun index => propext ?_)
      have below := refines.takenBelow index
      have recorded := refines.recorded index
      have lower := refines.baseLeHigh
      simp only [ledger] at below recorded ⊢
      grind
    exact ⟨same ▸ kept, sound.distinct, sound.own⟩

theorem sound_after (calls : List ReceiverCall) : (after calls).Sound := by
  refine foldlRecOn (motive := Sound) _ _ ⟨?_, nodup_nil, nofun⟩ fun run sound made _ => ?_
  · have start : new.ledger = Ledger.empty := by simp [ledger, new, Ledger.empty]
    exact start ▸ ReceiverPool.new_refines
  · cases called : run.call made with
    | error text => exact sound
    | ok next => exact sound.call called

end ReceiverRun

/-- Over every history of calls the pool is the set of its unused entries. -/
theorem receiverPool_is_unused_set (calls : List ReceiverCall) :
    let run := ReceiverRun.after calls
    (run.delivered.map ReceiverOT.index).Nodup ∧
      (∀ entry ∈ run.delivered, run.added[entry.index]? = some entry) ∧
      (∀ start count, (run.pool.validateConsumable start count = .ok () ↔
          0 < count ∧ List.range' start count.toNat ⊆ run.unused) ∧
        (run.pool.validateConsumable start count = .ok () ↔ ∃ next, run.pool.consume start count =
          .ok ((run.added.drop start).take count.toNat, next))) ∧
      run.pool.available = run.unused.length ∧
      run.pool.baseIndex ≤ run.pool.highWater ∧ run.pool.highWater ≤ run.added.length ∧
      run.pool.totalCount = run.added.length ∧
      ∀ made error, run.call made = .error error →
        ReceiverRun.after (calls ++ [made]) = run := by
  have sound := ReceiverRun.sound_after calls
  have refines := sound.refines
  refine ⟨sound.distinct, fun entry member => ?_, fun start count => ⟨sound.free_iff, ?_⟩,
    sound.available_eq, refines.baseLeHigh, refines.highLeTotal, refines.totalCount_eq, ?_⟩
  · obtain ⟨position, inside, rfl⟩ := mem_iff_getElem.mp (sound.own entry member)
    have stamped := congrArg (·[position]?) refines.indexed
    simp [ReceiverRun.ledger, inside] at stamped
    rw [stamped, getElem?_eq_getElem inside]
  · rw [ReceiverPool.validateConsumable_eq_ok_iff refines start count]
    constructor
    · rintro ⟨positive, free⟩
      have consumed := ReceiverPool.consume_succeeds refines (by omega) free
      rwa [Int.toNat_of_nonneg (Int.le_of_lt positive)] at consumed
    · rintro ⟨next, consumed⟩
      obtain ⟨positive, free, _⟩ := ReceiverPool.consume_refines refines consumed
      exact ⟨positive, free⟩
  · intro made error failed
    rw [ReceiverRun.after, foldl_append]
    change ((ReceiverRun.after calls).call made).toOption.getD _ = _
    rw [failed]
    rfl

end ReclaimTee.Mpc
