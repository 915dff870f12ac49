/-
What each section of TEE_T can do to the node. A pause keeps the batches, the
epoch and the readiness and drops at most a batch whose proof is not out yet;
every refusal and every consumption is one.
-/

import ReclaimTee.Mpc.PoolLedger
import ReclaimTee.Precompute.ReceiverNode

namespace ReclaimTee.Precompute

open ReclaimTee.Mpc

namespace ReceiverNode

variable {E : Extension} {t next : ReceiverNode}

/-- The pool holds what is left of the batches it was filled with. -/
def Backed (E : Extension) (t : ReceiverNode) : Prop :=
  ∃ taken, t.pool.Refines { history := E.receivedAll t.batches, taken := taken }

theorem backed_empty (held : t.pool = ReceiverPool.new) (none_left : t.batches = []) :
    t.Backed E := by
  refine ⟨fun _ => False, ?_⟩
  rw [held, none_left]
  exact ReceiverPool.new_refines

theorem Backed.add (backed : t.Backed E) {batch : Batch} {entries : List ReceiverOT}
    {added : ReceiverPool} (received : entries = E.received batch)
    (add : t.pool.add entries = .ok added) (pool : next.pool = added)
    (batches : next.batches = t.batches ++ [batch]) : next.Backed E := by
  obtain ⟨taken, refines⟩ := backed
  refine ⟨taken, ?_⟩
  rw [pool, batches, E.receivedAll_append, E.receivedAll_singleton, ← received]
  exact (ReceiverPool.add_refines refines add).1

structure Pauses (t next : ReceiverNode) : Prop where
  control : next.control = t.control
  opened : next.isOpen = true → t.isOpen = true
  stateID : next.stateID = t.stateID
  ready : next.ready = t.ready
  epoch : next.epoch = t.epoch
  batches : next.batches = t.batches
  pending : next.pending = t.pending ∨ next.pending = none ∧
    ∀ pending, t.pending = some pending → pending.phase ≠ .awaitComplete
  backed : ∀ E, t.Backed E → next.Backed E

namespace Pauses

theorem refl (t : ReceiverNode) : Pauses t t :=
  { control := rfl
    opened := id
    stateID := rfl
    ready := rfl
    epoch := rfl
    batches := rfl
    pending := .inl rfl
    backed := fun _ => id }

theorem of_close (t : ReceiverNode) : Pauses t { t with isOpen := false } :=
  { refl t with opened := nofun }

theorem of_pool (t : ReceiverNode) {pool : ReceiverPool}
    (kept : ∀ E, t.Backed E → ReceiverNode.Backed E { t with pool := pool }) :
    Pauses t { t with pool := pool } :=
  { refl t with backed := kept }

theorem of_drop {pending : ReceiverPrecompute} (held : t.pending = some pending)
    (early : pending.phase ≠ .awaitComplete) : Pauses t t.clearPendingReceiverPrecompute :=
  { refl t with
    pending := by
      refine .inr ⟨rfl, ?_⟩
      intro other otherHeld
      rw [held] at otherHeld
      cases otherHeld
      exact early }

end Pauses

theorem takeEntries_spec {startIndex : Nat} {entries : List ReceiverOT} {count : Int}
    (took : t.takeEntries startIndex count = .ok (entries, next)) :
    Pauses t next ∧ (t.Backed E →
      startIndex + count.toNat ≤ (E.receivedAll t.batches).length ∧
        entries = ((E.receivedAll t.batches).drop startIndex).take count.toNat) := by
  unfold takeEntries at took
  split at took
  · cases took
  rename_i result after consumedEq
  cases took
  constructor
  · apply Pauses.of_pool
    rintro E ⟨taken, refines⟩
    exact ⟨_, (ReceiverPool.consume_refines refines consumedEq).2.2.2.1⟩
  · rintro ⟨taken, refines⟩
    obtain ⟨_, free, sliced, _⟩ := ReceiverPool.consume_refines refines consumedEq
    exact ⟨free.within, sliced⟩

theorem consumeOTReceiverEntries_took {startIndex : Nat} {entries : List ReceiverOT}
    {count : Int} (took : t.consumeOTReceiverEntries startIndex count = .took entries next) :
    t.takeEntries startIndex count = .ok (entries, next) := by
  unfold consumeOTReceiverEntries at took
  split at took
  · cases took
  · cases took
  split at took
  · cases took
  split at took <;> cases took
  rename_i result after takenEq
  exact takenEq

theorem suspendOTReceiverPoolForReconnect_spec (t : ReceiverNode) :
    t.suspendOTReceiverPoolForReconnect.pending = none ∧
      (t.suspendOTReceiverPoolForReconnect.ready = true → t.ready = true ∧
        t.suspendOTReceiverPoolForReconnect.epoch = t.epoch ∧
        t.suspendOTReceiverPoolForReconnect.batches = t.batches) ∧
      ∀ E, t.Backed E → t.suspendOTReceiverPoolForReconnect.Backed E := by
  unfold suspendOTReceiverPoolForReconnect
  split
  · rename_i ready
    exact ⟨rfl, fun _ => ⟨ready, rfl, rfl⟩, fun _ => id⟩
  · refine ⟨rfl, ?_, fun _ _ => backed_empty rfl rfl⟩
    intro impossible
    cases impossible

/-! ### Control requests -/

inductive Handled (E : Extension) (t : ReceiverNode) (conn : Conn) :
    Request → Outcome ReceiverNode Response → Prop
  | refused {request : Request} {next : ReceiverNode} {text : String}
      (pause : Pauses t next) : Handled E t conn request (.error next text)
  | renewedOnly {message : PrecomputeBegin} {text : String} (initial : message.isInitial = true) :
      Handled E t conn (.precomputeBegin message) (.error (t.renewed message.epoch) text)
  | extended {message : PrecomputeBegin} (extension : message.isInitial = false)
      (ready : t.ready = true) (unoccupied : t.pending = none) (epoch : message.epoch = t.epoch) :
      Handled E t conn (.precomputeBegin message)
        (.ok { t with
          pending := some
            { message := message
              conn := conn
              entries := []
              phase := .awaitBaseChoices } }
          [.precompute message.count (.baseSetup message.session)])
  | renewed {message : PrecomputeBegin} (initial : message.isInitial = true) :
      Handled E t conn (.precomputeBegin message)
        (.ok { t.renewed message.epoch with
          pending := some
            { message := message
              conn := conn
              entries := []
              phase := .awaitBaseChoices } }
          [.precompute message.count (.baseSetup message.session)])
  | committed {message : Continuation} {pending : ReceiverPrecompute}
      (held : t.pending = some pending) (phase : pending.phase = .awaitBaseChoices)
      (session : message.session = pending.message.session) :
      Handled E t conn (.baseChoices message)
        (.ok { t with
          pending := some
            { pending with
              entries := E.received pending.message.batch
              phase := .awaitChallenge } }
          [.precompute message.count (.commitment pending.message.batch t.epoch)])
  | proved {message : Continuation} {pending : ReceiverPrecompute}
      (held : t.pending = some pending) (phase : pending.phase = .awaitChallenge)
      (session : message.session = pending.message.session) :
      Handled E t conn (.challenge message)
        (.ok { t with pending := some { pending with phase := .awaitComplete } }
          [.precompute message.count (.proof pending.message.session)])
  | completed {poolSize : Nat} {pending : ReceiverPrecompute} {added : ReceiverPool}
      (held : t.pending = some pending) (phase : pending.phase = .awaitComplete)
      (filled : pending.entries ≠ []) (add : t.pool.add pending.entries = .ok added) :
      Handled E t conn (.complete poolSize)
        (.ok { t with
          pool := added
          epoch := some (.extension pending.message.session)
          pending := none
          ready := true
          committed := pending.message.session :: t.committed
          batches := t.batches ++ [pending.message.batch] } [])
  | denied {epoch : Option Epoch} {nextIndex : Nat} :
      Handled E t conn (.resume epoch nextIndex) (.ok t [.resume false])
  | granted {epoch : Option Epoch} {nextIndex : Nat} {next : ReceiverNode} (pause : Pauses t next)
      (ready : t.ready = true) (unoccupied : t.pending = none) (same : t.epoch = epoch) :
      Handled E t conn (.resume epoch nextIndex) (.ok next [.resume true])

section Node

variable (E : Extension) (t : ReceiverNode) (conn : Conn)

theorem handleOTPrecomputeBegin_handled (message : PrecomputeBegin) (fails : Bool) :
    Handled E t conn (.precomputeBegin message)
      (t.handleOTPrecomputeBegin conn message fails) := by
  have unchanged := Pauses.refl t
  unfold handleOTPrecomputeBegin
  split
  · exact .refused unchanged
  split
  · exact .refused unchanged
  split
  · exact .refused unchanged
  rename_i extendable
  cases initial : message.isInitial with
  | true =>
    simp only [if_true]
    split
    · exact .renewedOnly initial
    split
    · exact .renewedOnly initial
    split
    · exact .renewedOnly initial
    · split
      · exact .renewedOnly initial
      · exact .renewed initial
  | false =>
    have ready : t.ready = true := by
      cases readyEq : t.ready with
      | false => exact absurd ⟨initial, readyEq⟩ extendable
      | true => rfl
    simp only [Bool.false_eq_true, if_false]
    split
    · exact .refused unchanged
    rename_i unoccupied
    split
    · exact .refused unchanged
    split
    · exact .refused unchanged
    rename_i matching
    split
    · exact .refused unchanged
    · refine .extended initial ready ?_ ?_
      · exact Option.not_isSome_iff_eq_none.mp unoccupied
      · exact Decidable.of_not_not fun differs => matching ⟨trivial, differs⟩

theorem handleOTPrecomputeChoices_handled (message : Continuation) (fails : Bool) :
    Handled E t conn (.baseChoices message)
      (t.handleOTPrecomputeChoices E conn message fails) := by
  have unchanged := Pauses.refl t
  unfold handleOTPrecomputeChoices
  split
  · exact .refused unchanged
  rename_i pending held
  split
  · exact .refused unchanged
  split
  · exact .refused unchanged
  rename_i phase
  have awaiting := Decidable.of_not_not phase
  split
  · refine .refused (Pauses.of_drop held ?_)
    rw [awaiting]
    decide
  · rename_i matching
    refine .committed held awaiting ?_
    exact Decidable.of_not_not fun differs => matching (.inl differs)

theorem handleOTPrecomputeChallenge_handled (message : Continuation) (fails : Bool) :
    Handled E t conn (.challenge message)
      (t.handleOTPrecomputeChallenge conn message fails) := by
  have unchanged := Pauses.refl t
  unfold handleOTPrecomputeChallenge
  split
  · exact .refused unchanged
  rename_i pending held
  split
  · exact .refused unchanged
  split
  · exact .refused unchanged
  rename_i phase
  have awaiting := Decidable.of_not_not (not_or.mp phase).1
  split
  · refine .refused (Pauses.of_drop held ?_)
    rw [awaiting]
    decide
  · rename_i matching
    refine .proved held awaiting ?_
    exact Decidable.of_not_not fun differs => matching (.inl differs)

theorem handleOTPrecomputeComplete_handled (poolSize : Nat) :
    Handled E t conn (.complete poolSize) (t.handleOTPrecomputeComplete conn poolSize) := by
  have unchanged := Pauses.refl t
  unfold handleOTPrecomputeComplete
  split
  · exact .refused unchanged
  rename_i pending held
  split
  · exact .refused unchanged
  rename_i filled
  split
  · exact .refused unchanged
  split
  · exact .refused unchanged
  rename_i phase
  split
  · exact .refused unchanged
  split
  · exact .refused unchanged
  · split
    · exact .refused unchanged
    · rename_i added addedEq
      exact .completed held (Decidable.of_not_not phase) filled addedEq

end Node

theorem resumeOTPool_grants {t : ReceiverNode} {epoch : Epoch} {frontier : Nat}
    {pool : ReceiverPool} (ready : t.ready = true) (unoccupied : t.pending = none)
    (current : t.epoch = some epoch) (advanced : t.pool.advanceTo frontier = .ok pool) :
    t.resumeOTPool (some epoch) frontier = (true, { t with pool := pool }) := by
  simp [resumeOTPool, ready, unoccupied, current, advanced]

theorem resumeOTPool_cases (t : ReceiverNode) (epoch : Option Epoch) (nextIndex : Nat) :
    t.resumeOTPool epoch nextIndex = (false, t) ∨
      ∃ next, t.resumeOTPool epoch nextIndex = (true, next) ∧ Pauses t next ∧
        t.ready = true ∧ t.pending = none ∧ t.epoch = epoch ∧
        ∀ E, t.Backed E → next.pool.highWater = nextIndex := by
  unfold resumeOTPool
  split
  · exact .inl rfl
  rename_i matching
  obtain ⟨_, ready, unoccupied, same⟩ :=
    (not_or.mp matching).imp_right fun rest => (not_or.mp rest).imp_right not_or.mp
  split
  · exact .inl rfl
  rename_i advanced advancedEq
  refine .inr ⟨_, rfl, Pauses.of_pool t ?_, Bool.eq_true_of_not_eq_false ready,
    Option.not_isSome_iff_eq_none.mp unoccupied, Decidable.of_not_not same, ?_⟩
  · rintro E ⟨taken, refines⟩
    exact ⟨_, (ReceiverPool.advanceTo_kept refines advancedEq).1⟩
  · rintro E ⟨taken, refines⟩
    exact (ReceiverPool.advanceTo_kept refines advancedEq).2

theorem handleOTResumeRequest_handled (E : Extension) (t : ReceiverNode) (conn : Conn)
    (epoch : Option Epoch) (nextIndex : Nat) (fails : Bool) :
    Handled E t conn (.resume epoch nextIndex)
      (t.handleOTResumeRequest epoch nextIndex fails) := by
  unfold handleOTResumeRequest
  rcases t.resumeOTPool_cases epoch nextIndex with refused | ⟨next, granted, pause, ready,
    unoccupied, same, _⟩
  · rw [refused]
    split
    · exact .refused (Pauses.refl t)
    · exact .denied
  · rw [granted]
    split
    · exact .refused pause
    · exact .granted pause ready unoccupied same

theorem handleControlMessage_handled (E : Extension) (t : ReceiverNode) (conn : Conn)
    (fails : Bool) (request : Request) :
    Handled E t conn request (t.handleControlMessage E conn fails request) := by
  cases request with
  | precomputeBegin message => exact handleOTPrecomputeBegin_handled E t conn message fails
  | baseChoices message => exact handleOTPrecomputeChoices_handled E t conn message fails
  | challenge message => exact handleOTPrecomputeChallenge_handled E t conn message fails
  | complete poolSize => exact handleOTPrecomputeComplete_handled E t conn poolSize
  | resume epoch nextIndex => exact handleOTResumeRequest_handled E t conn epoch nextIndex fails

theorem Handled.control {conn : Conn} {request : Request} {outcome : Outcome ReceiverNode Response}
    (handled : t.Handled E conn request outcome) : outcome.node.control = t.control := by
  cases handled with
  | refused pause => exact pause.control
  | granted pause => exact pause.control
  | renewedOnly | extended | renewed | committed | proved | completed | denied => rfl

end ReceiverNode

end ReclaimTee.Precompute
