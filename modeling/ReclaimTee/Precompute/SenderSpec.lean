/-
What each section of TEE_K can do to the node. A retreat covers every way of
giving up: the node drops its batch, empties its pool, releases a claim or closes
its connection, and nothing that it still holds is new.
-/

import ReclaimTee.Mpc.PoolLedger
import ReclaimTee.Precompute.SenderNode

namespace ReclaimTee.Mpc.SenderPool

variable {pool : SenderPool} {ledger : Ledger SenderOT}

def withClaim (pool : SenderPool) (claim : Option Nat) : SenderPool :=
  { pool with extendClaim := claim }

theorem Refines.withClaim (refines : pool.Refines ledger) (claim : Option Nat) :
    (pool.withClaim claim).Refines ledger :=
  { refines with held := refines.held }

theorem releaseExtendClaim_withClaim (pool : SenderPool) (claim : Option Nat) :
    ∃ left, (pool.releaseExtendClaim claim).2 = pool.withClaim left := by
  unfold releaseExtendClaim
  split
  · exact ⟨pool.extendClaim, rfl⟩
  · exact ⟨none, rfl⟩

theorem claimExtendIfNeeded_withClaim (pool : SenderPool) (allocated : Nat) :
    ∃ held, (pool.claimExtendIfNeeded allocated).2 = pool.withClaim held := by
  unfold claimExtendIfNeeded
  split
  · exact ⟨pool.extendClaim, rfl⟩
  · split
    · exact ⟨pool.extendClaim, rfl⟩
    · exact ⟨some allocated, rfl⟩

theorem clearEntries_refines (pool : SenderPool) : pool.clearEntries.Refines Ledger.empty :=
  new_refines.withClaim pool.extendClaim

theorem clear_refines (pool : SenderPool) : pool.clear.Refines Ledger.empty :=
  new_refines.withClaim none

theorem clearForExtendFailure_cases (pool : SenderPool) (claim : Option Nat) :
    pool.clearForExtendFailure claim = (false, pool) ∨
      pool.clearForExtendFailure claim = (true, pool.clearEntries) := by
  unfold clearForExtendFailure
  split
  · exact .inl rfl
  · exact .inr rfl

end ReclaimTee.Mpc.SenderPool

namespace ReclaimTee.Precompute

open ReclaimTee.Mpc

/-- The stages in which the supervisor has given up the retained pool. -/
def Stage.GivenUp (stage : Stage) : Prop :=
  stage = .fallback ∨ stage = .closing

/-- The entries of a payload are a window of the batches it names. -/
structure Payload.SentFrom (E : Extension) (payload : Payload) : Prop where
  within : payload.startIndex + otsPerOPRF ≤ (E.sentAll payload.batches).length
  window : payload.entries = ((E.sentAll payload.batches).drop payload.startIndex).take otsPerOPRF

namespace SenderNode

variable {E : Extension} {k next : SenderNode}

/-- The pool holds what is left of the batches it was filled with. -/
def Backed (E : Extension) (k : SenderNode) : Prop :=
  ∃ taken, k.pool.Refines { history := E.sentAll k.batches, taken := taken }

theorem backed_empty {pool : SenderPool} (refines : pool.Refines Ledger.empty)
    (held : k.pool = pool) (none_left : k.batches = []) : k.Backed E := by
  refine ⟨fun _ => False, ?_⟩
  rw [held, none_left]
  exact refines

/-- The connection and what the supervisor holds are as they were. -/
structure Frame (k next : SenderNode) : Prop where
  control : next.control = k.control
  used : next.used = k.used
  stage : next.stage = k.stage
  resumeChan : next.resumeChan = k.resumeChan
  refills : next.refills = k.refills
  healthy : next.controlHealthy = k.controlHealthy

/-- The connection is as it was, and a batch that is still built is the one that was. -/
structure Keeps (k next : SenderNode) : Prop where
  control : next.control = k.control
  used : next.used = k.used
  pending : ∀ pending, next.pending = some pending → next.batches = k.batches ∧
    (k.pending = some pending ∨
      ∃ former, k.pending = some former ∧ pending = { former with phase := .processingProof })
  completion : next.completion = k.completion ∨ next.completion = .idle

/-- The node gave something up and gained nothing. -/
structure Retreats (k next : SenderNode) : Prop extends k.Keeps next where
  stage : next.stage = k.stage ∧ next.resumeChan = k.resumeChan ∨
    k.stage ≠ .serving ∧ next.stage.GivenUp
  epoch : next.epoch = k.epoch ∨ next.stage.GivenUp ∧ next.ready = false ∧ next.pending = none
  refills : ∀ refill ∈ next.refills, ∃ former ∈ k.refills, refill.origin = former.origin
  healthy : next.controlHealthy = true → k.controlHealthy = true
  ready : next.ready = true → k.ready = true ∧ next.batches = k.batches
  frontier : next.ready = true → next.pool.nextIndex = k.pool.nextIndex
  backed : ∀ E, k.Backed E → next.Backed E

namespace Retreats

theorem refl (k : SenderNode) : Retreats k k :=
  { control := rfl
    used := rfl
    stage := .inl ⟨rfl, rfl⟩
    epoch := .inl rfl
    refills := fun refill member => ⟨refill, member, rfl⟩
    healthy := id
    ready := fun ready => ⟨ready, rfl⟩
    frontier := fun _ => rfl
    pending := fun _ held => ⟨rfl, .inl held⟩
    completion := .inl rfl
    backed := fun _ => id }

theorem trans {middle : SenderNode} (first : Retreats k middle) (second : Retreats middle next) :
    Retreats k next where
  control := second.control.trans first.control
  used := second.used.trans first.used
  stage := by
    rcases first.stage with ⟨sameStage, sameChan⟩ | ⟨notServing, earlier⟩
    · rw [← sameStage, ← sameChan]
      exact second.stage
    · refine .inr ⟨notServing, ?_⟩
      rcases second.stage with ⟨same, _⟩ | ⟨_, givenUp⟩
      · rw [same]
        exact earlier
      · exact givenUp
  epoch := by
    rcases second.epoch with same | givenUp
    · rcases first.epoch with sameFirst | ⟨givenUp, unready, dropped⟩
      · exact .inl (same.trans sameFirst)
      refine .inr ⟨?_, ?_, ?_⟩
      · rcases second.stage with ⟨sameStage, _⟩ | ⟨_, later⟩
        · rw [sameStage]
          exact givenUp
        · exact later
      · refine Bool.eq_false_iff.mpr fun ready => ?_
        cases unready.symm.trans (second.ready ready).1
      · refine Option.eq_none_iff_forall_ne_some.mpr fun pending held => ?_
        rcases (second.pending pending held).2 with same | ⟨former, same, _⟩
        · cases dropped.symm.trans same
        · cases dropped.symm.trans same
    · exact .inr givenUp
  refills := by
    intro refill member
    obtain ⟨former, present, same⟩ := second.refills refill member
    obtain ⟨earlier, presentEarlier, sameEarlier⟩ := first.refills former present
    exact ⟨earlier, presentEarlier, same.trans sameEarlier⟩
  healthy := fun healthy => first.healthy (second.healthy healthy)
  ready := fun ready =>
    have kept := second.ready ready
    ⟨(first.ready kept.1).1, kept.2.trans (first.ready kept.1).2⟩
  frontier := fun ready =>
    (second.frontier ready).trans (first.frontier (second.ready ready).1)
  pending := by
    intro pending held
    obtain ⟨sameLater, later⟩ := second.pending pending held
    rcases later with unchanged | ⟨former, formerly, processed⟩
    · obtain ⟨sameEarlier, earlier⟩ := first.pending pending unchanged
      exact ⟨sameLater.trans sameEarlier, earlier⟩
    · obtain ⟨sameEarlier, earlier⟩ := first.pending former formerly
      refine ⟨sameLater.trans sameEarlier, .inr ?_⟩
      rcases earlier with unchanged | ⟨first, firstly, processedFirst⟩
      · exact ⟨former, unchanged, processed⟩
      · exact ⟨first, firstly, by rw [processed, processedFirst]⟩
  completion := by
    rcases second.completion with same | idle
    · rw [same]
      exact first.completion
    · exact .inr idle
  backed := fun E backed => second.backed E (first.backed E backed)

section Node

variable (k : SenderNode)

theorem of_close : Retreats k k.close :=
  { refl k with }

theorem of_drop : Retreats k { k with pending := none } :=
  { refl k with epoch := .inl rfl, pending := nofun }

theorem of_failPending (session : Session) : Retreats k (k.failPendingPrecompute session) := by
  unfold failPendingPrecompute
  split
  · exact of_drop k
  · exact refl k

theorem of_emptied {pool : SenderPool} (cleared : pool.Refines Ledger.empty) :
    Retreats k (k.emptied pool) :=
  { refl k with
    epoch := .inl rfl
    ready := nofun
    frontier := nofun
    pending := nofun
    backed := fun _ _ => backed_empty cleared rfl rfl }

theorem of_failPendingAndClear (expected : SenderPrecompute) :
    Retreats k (k.failPendingPrecomputeAndClear expected) := by
  unfold failPendingPrecomputeAndClear
  split
  · split
    · exact of_emptied k (SenderPool.clear_refines k.pool)
    rcases k.pool.clearForExtendFailure_cases expected.extendClaim with kept | cleared
    · rw [kept]
      exact refl k
    · rw [cleared]
      exact of_emptied k (SenderPool.clearEntries_refines k.pool)
  · exact refl k

theorem of_claim (claim : Option Nat) : Retreats k { k with pool := k.pool.withClaim claim } :=
  { refl k with
    backed := fun _ backed =>
      have ⟨taken, refines⟩ := backed
      ⟨taken, refines.withClaim claim⟩ }

theorem of_release (claim : Nat) : Retreats k (k.releaseClaim claim) := by
  obtain ⟨left, released⟩ := k.pool.releaseExtendClaim_withClaim (some claim)
  rw [releaseClaim, released]
  exact of_claim k left

theorem of_distrust :
    Retreats k { k with inconsistent := true, controlHealthy := false, isOpen := false } :=
  { refl k with healthy := nofun }

theorem of_recover (claim : Nat) (origin : Conn) :
    Retreats k (k.recoverFailedClaimedOTExtension claim origin) := by
  unfold recoverFailedClaimedOTExtension
  split
  · exact refl k
  rename_i released releasedEq
  obtain ⟨left, withLeft⟩ := k.pool.releaseExtendClaim_withClaim (some claim)
  rw [releasedEq] at withLeft
  have step := of_claim k left
  rw [← withLeft] at step
  dsimp only
  split
  · exact step
  · split
    · exact step
    · exact step.trans (of_distrust _)

theorem of_abandon (conn : Conn) : Retreats k (k.reconcileAbandonedOTReservation conn) := by
  unfold reconcileAbandonedOTReservation
  split
  · exact of_distrust k
  · exact refl k

end Node

theorem of_processing {pending : SenderPrecompute} (held : k.pending = some pending) :
    Retreats k (k.advance pending .processingProof) :=
  { refl k with
    epoch := .inl rfl
    pending := by
      intro now nowHeld
      cases nowHeld
      exact ⟨rfl, .inr ⟨pending, held, rfl⟩⟩ }

theorem withStage (retreat : Retreats k next) {former stage : Stage} (before : k.stage = former)
    (givenUp : stage.GivenUp) (resumeChan : Option (Conn × Bool))
    (notServing : former ≠ .serving := by nofun) :
    Retreats k { next with stage := stage, resumeChan := resumeChan } :=
  { retreat with
    stage := .inr ⟨before ▸ notServing, givenUp⟩
    epoch := retreat.epoch.imp id fun changed => ⟨givenUp, changed.2⟩ }

theorem of_refills (k : SenderNode) {refills : List Refill}
    (kept : ∀ refill ∈ refills, ∃ former ∈ k.refills, refill.origin = former.origin) :
    Retreats k { k with refills := refills } :=
  { refl k with refills := kept }

theorem of_idle (k : SenderNode) : Retreats k { k with completion := .idle } :=
  { refl k with completion := .inr rfl }

end Retreats

open Retreats

/-! ### Starting a batch -/

/-- A batch was set up on an idle node and its first message is due. -/
structure Started (k : SenderNode) (session : Session) (isInitial : Bool)
    (claim : Option Nat) (origin : Conn) (next : SenderNode) (message : PrecomputeBegin) :
    Prop extends Frame k next where
  current : k.control = some origin
  unoccupied : k.pending = none
  extending : isInitial = false → k.ready = true ∧ next.batches = k.batches ∧ next.epoch = k.epoch
  renewing : isInitial = true →
    next.ready = false ∧ next.batches = [] ∧ next.epoch = some (.initial session)
  stillReady : next.ready = true → k.ready = true ∧ isInitial = false
  frontier : next.ready = true → next.pool.nextIndex = k.pool.nextIndex
  pending : next.pending = some
    { message with
      session := session
      isInitial := isInitial
      phase := .awaitBaseSetup
      conn := origin
      extendClaim := claim }
  messageSession : message.session = session
  messageInitial : message.isInitial = isInitial
  messageEpoch : message.epoch = next.epoch
  backed : ∀ E, k.Backed E → next.Backed E
  completion : next.completion = k.completion

variable {session : Session} {claim : Option Nat} {origin : Conn} {message : PrecomputeBegin}

theorem performOTPrecomputation_started {isInitial : Bool}
    (started : k.performOTPrecomputation session isInitial claim origin = some (next, message)) :
    Started k session isInitial claim origin next message := by
  unfold performOTPrecomputation at started
  dsimp only at started
  split at started
  · cases started
  rename_i available
  obtain ⟨current, unoccupied⟩ := not_or.mp available
  split at started
  · cases started
  rename_i allowed
  split at started
  · cases started
  cases isInitial with
  | false =>
    cases started
    exact
      { current := Decidable.of_not_not current
        unoccupied := Decidable.of_not_not unoccupied
        extending := fun _ => by
          refine ⟨?_, rfl, rfl⟩
          cases readyEq : k.ready with
          | false => exact absurd ⟨rfl, .inl readyEq⟩ allowed
          | true => rfl
        renewing := nofun
        stillReady := fun ready => ⟨ready, rfl⟩
        frontier := fun _ => rfl
        pending := rfl
        messageSession := rfl
        messageInitial := rfl
        messageEpoch := rfl
        backed := fun _ => id
        toFrame := ⟨rfl, rfl, rfl, rfl, rfl, rfl⟩
        completion := rfl }
  | true =>
    cases started
    exact
      { current := Decidable.of_not_not current
        unoccupied := Decidable.of_not_not unoccupied
        extending := nofun
        renewing := fun _ => ⟨rfl, rfl, rfl⟩
        stillReady := nofun
        frontier := nofun
        pending := rfl
        messageSession := rfl
        messageInitial := rfl
        messageEpoch := rfl
        backed := fun _ _ => backed_empty (SenderPool.clear_refines k.pool) rfl rfl
        toFrame := ⟨rfl, rfl, rfl, rfl, rfl, rfl⟩
        completion := rfl }

theorem Started.failPending {isInitial : Bool}
    (started : Started k session isInitial claim origin next message) :
    next.failPendingPrecompute session = { next with pending := none } := by
  unfold failPendingPrecompute
  rw [if_pos]
  rw [hasPending, started.pending]
  rfl

theorem Started.unsent_refill (started : Started k session false claim origin next message) :
    Retreats k (next.failPendingPrecompute session) := by
  obtain ⟨ready, sameBatches, sameEpoch⟩ := started.extending rfl
  rw [started.failPending]
  exact
    { started with
      stage := .inl ⟨started.stage, started.resumeChan⟩
      epoch := .inl sameEpoch
      refills := by
        intro refill member
        exact ⟨refill, started.refills ▸ member, rfl⟩
      healthy := fun healthy => started.healthy ▸ healthy
      ready := fun _ => ⟨ready, sameBatches⟩
      pending := nofun
      completion := .inl started.completion
      backed := started.backed }

theorem Started.unsent_initial (fallback : k.stage = .fallback)
    (started : Started k session true claim origin next message) :
    Retreats k { (next.failPendingPrecompute session).close with stage := .closing } := by
  obtain ⟨unready, _⟩ := started.renewing rfl
  rw [started.failPending]
  exact
    { started with
      stage := .inr ⟨by simp [fallback], .inr rfl⟩
      epoch := .inr ⟨.inr rfl, unready, rfl⟩
      refills := by
        intro refill member
        exact ⟨refill, started.refills ▸ member, rfl⟩
      healthy := fun healthy => started.healthy ▸ healthy
      ready := by
        intro ready
        rw [show next.ready = true from ready] at unready
        cases unready
      pending := nofun
      completion := .inl started.completion
      backed := started.backed }

/-! ### Completing a batch -/

/-- What a precompute response does to an idle reader. -/
inductive Answered (E : Extension) (k : SenderNode) :
    ResponseData → Outcome SenderNode Request → Prop
  | failed {data : ResponseData} {next : SenderNode} {text : String}
      (retreat : Retreats k next) : Answered E k data (.error next text)
  | chose {pending : SenderPrecompute} (held : k.pending = some pending)
      (phase : pending.phase = .awaitBaseSetup) :
      Answered E k (.baseSetup pending.session)
        (.ok (k.advance pending .awaitCommitment) [.baseChoices (k.continuation pending)])
  | challenged {pending : SenderPrecompute} (held : k.pending = some pending)
      (phase : pending.phase = .awaitCommitment) :
      Answered E k (.commitment pending.batch k.epoch)
        (.ok (k.advance pending .awaitProof) [.challenge (k.continuation pending)])
  | verified {pending : SenderPrecompute} (held : k.pending = some pending)
      (phase : pending.phase = .awaitProof) :
      Answered E k (.proof pending.session)
        (.ok { k.advance pending .processingProof with completion := .verified pending } [])

theorem Answered.advances {data : ResponseData} {requests : List Request}
    (answer : Answered E k data (.ok next requests)) :
    ∃ pending phase completion, k.pending = some pending ∧
      next = { k.advance pending phase with completion := completion } ∧
      ∀ epoch frontier, .resume epoch frontier ∉ requests := by
  generalize outcomeEq : (Outcome.ok next requests : Outcome SenderNode Request) = outcome
    at answer
  cases answer with
  | failed => cases outcomeEq
  | chose held | challenged held | verified held =>
    cases outcomeEq
    exact ⟨_, _, _, held, rfl, by simp⟩

theorem validateCompletion_answered {pending : SenderPrecompute}
    (held : k.pending = some pending) (phase : pending.phase = .awaitProof) :
    Answered E k (.proof pending.session) (validateCompletion E k pending) := by
  have processing := of_processing held
  unfold validateCompletion
  dsimp only
  split
  · exact .failed processing
  split
  · exact .failed (processing.trans (of_failPendingAndClear _ _))
  split
  · split
    · exact .failed (processing.trans (of_failPendingAndClear _ _))
    · exact .failed (processing.trans
        ((of_failPending _ _).trans (of_recover _ _ _)))
  · exact .verified held phase

theorem handleOTPrecomputeResponse_answered (E : Extension) (k : SenderNode) (count : Nat)
    (data : ResponseData) (fails : Bool) :
    Answered E k data (k.handleOTPrecomputeResponse E count data fails) := by
  have dropped := of_failPending k
  unfold handleOTPrecomputeResponse
  split
  · exact .failed (refl k)
  rename_i pending held
  split
  · exact .failed (refl k)
  split
  · exact .failed (dropped _)
  split
  · rename_i phase
    split
    · rename_i matching
      rw [matching.1]
      exact .chose held phase
    · exact .failed (dropped _)
  · rename_i phase
    split
    · rename_i matching
      rw [matching.1]
      exact .challenged held phase
    · exact .failed (dropped _)
  · rename_i phase
    split
    · rename_i matching
      rw [matching.1]
      exact validateCompletion_answered held phase
    · exact .failed (dropped _)
  · exact .failed (refl k)

theorem sendOTPrecomputeComplete_cases (E : Extension) (k : SenderNode)
    (pending : SenderPrecompute) (fails : Bool) :
    (∃ next text, Retreats k next ∧ next.completion = .idle ∧
      k.sendOTPrecomputeComplete E pending fails = .error next text) ∨
    k.sendOTPrecomputeComplete E pending fails =
      .ok { k with completion := .announced pending }
        [.complete (pending.startIndex + (E.sent pending.batch).length)] := by
  unfold sendOTPrecomputeComplete
  split
  · exact .inl ⟨_, _, (of_failPendingAndClear k pending).trans (of_idle _),
      rfl, rfl⟩
  · exact .inr rfl

/-- The batch of a pending request was added to the pool. -/
structure Commits (E : Extension) (k : SenderNode) (pending : SenderPrecompute)
    (next : SenderNode) : Prop extends Frame k next where
  held : k.hasPending pending.session
  continued : k.Backed E → next.Backed E
  batches : next.batches = k.batches ++ [pending.batch]
  frontier : k.Backed E → next.pool.nextIndex = k.pool.nextIndex
  epoch : next.epoch = some (.extension pending.session)
  ready : next.ready = true → k.ready = true ∨ pending.isInitial = true
  dropped : next.pending = none
  completion : next.completion = .idle

theorem commitSenderPrecompute_cases (E : Extension) (k : SenderNode) (pending : SenderPrecompute) :
    (∃ next text, Retreats k next ∧ next.completion = .idle ∧
      k.commitSenderPrecompute E pending = .error next text) ∨
    (∃ next, Commits E k pending next ∧ k.commitSenderPrecompute E pending = .ok next []) := by
  have givenUp : ∀ text, ∃ next reason, Retreats k next ∧ next.completion = .idle ∧
      (Outcome.error ({ k with completion := .idle }.failPendingPrecomputeAndClear pending) text :
        Outcome SenderNode Request) = .error next reason := by
    intro text
    have cleared := of_failPendingAndClear { k with completion := .idle } pending
    refine ⟨_, _, (of_idle k).trans cleared, ?_, rfl⟩
    rcases cleared.completion with same | idle
    · exact same
    · exact idle
  unfold commitSenderPrecompute
  dsimp only
  split
  · exact .inl (givenUp _)
  rename_i current
  have held : k.hasPending pending.session :=
    Decidable.of_not_not fun missing => current (.inl missing)
  split
  · exact .inl (givenUp _)
  rename_i added addedEq
  refine .inr ⟨_, ?_, rfl⟩
  exact
    { held := held
      continued := by
        rintro ⟨taken, refines⟩
        refine ⟨taken, ?_⟩
        have after := (SenderPool.add_refines refines addedEq).1
        have joined := E.sentAll_append k.batches [pending.batch]
        rw [E.sentAll_singleton] at joined
        rw [joined]
        split
        · exact after
        · obtain ⟨left, released⟩ :=
            added.releaseExtendClaim_withClaim pending.extendClaim
          rw [released]
          exact after.withClaim left
      batches := rfl
      frontier := by
        rintro ⟨taken, refines⟩
        have same := (SenderPool.add_refines refines addedEq).2
        split
        · exact same
        · obtain ⟨left, released⟩ :=
            added.releaseExtendClaim_withClaim pending.extendClaim
          rw [released]
          exact same
      epoch := rfl
      ready := fun ready => Bool.or_eq_true _ _ ▸ ready
      dropped := rfl
      completion := rfl
      toFrame := ⟨rfl, rfl, rfl, rfl, rfl, rfl⟩ }

/-! ### Reserving, resuming and closing -/

theorem reserveOTEntriesForSession_frame (k : SenderNode) (allocated : Nat) (origin : Conn) :
    ∃ pool refills, (k.reserveOTEntriesForSession allocated origin).1 =
        { k with pool := pool, refills := refills } ∧
      (∀ refill ∈ refills, refill ∈ k.refills ∨ refill.origin = origin) ∧
      (∀ E, k.Backed E → SenderNode.Backed E { k with pool := pool, refills := refills } ∧
        k.pool.nextIndex ≤ pool.nextIndex) := by
  unfold reserveOTEntriesForSession
  split
  · exact ⟨k.pool, k.refills, rfl, fun _ member => .inl member,
      fun _ backed => ⟨backed, Nat.le_refl _⟩⟩
  refine ⟨_, _, rfl, ?_, ?_⟩
  · intro refill member
    split at member
    · exact .inl member
    · rcases List.mem_append.mp member with earlier | now
      · exact .inl earlier
      · rw [List.mem_singleton.mp now]
        exact .inr rfl
  · rintro E ⟨taken, refines⟩
    cases reservedEq : k.pool.reserve otsPerOPRF with
    | error text =>
      obtain ⟨held, claimed⟩ := k.pool.claimExtendIfNeeded_withClaim allocated
      rw [claimed]
      exact ⟨⟨taken, refines.withClaim held⟩, Nat.le_refl _⟩
    | ok reserved =>
      obtain ⟨⟨startIndex, entries⟩, after⟩ := reserved
      obtain ⟨startEq, _, _, _, marked, nextEq⟩ :=
        SenderPool.reserve_refines refines reservedEq
      obtain ⟨held, claimed⟩ := after.claimExtendIfNeeded_withClaim allocated
      rw [claimed]
      refine ⟨⟨_, marked.withClaim held⟩, ?_⟩
      change k.pool.nextIndex ≤ after.nextIndex
      rw [nextEq, startEq]
      exact Nat.le_add_right _ _

theorem reserveOTEntriesForSession_payload {allocated : Nat} {payload : Payload}
    (reserved : (k.reserveOTEntriesForSession allocated origin).2 = some payload) :
    payload.conn = origin ∧ payload.batches = k.batches ∧ k.ready = true ∧
      ∀ E, k.Backed E → payload.SentFrom E := by
  unfold reserveOTEntriesForSession at reserved
  split at reserved
  · cases reserved
  rename_i usable
  obtain ⟨readyNow, _⟩ := not_or.mp usable
  dsimp only at reserved
  split at reserved
  · cases reserved
  rename_i startIndex entries after reservedEq
  cases reserved
  refine ⟨rfl, rfl, Bool.eq_true_of_not_eq_false readyNow, ?_⟩
  rintro E ⟨taken, refines⟩
  obtain ⟨_, _, free, sliced, _⟩ := SenderPool.reserve_refines refines reservedEq
  exact
    { free with window := sliced }

theorem ensureResumedOTPoolUsable_cases (k : SenderNode) (allocated : Nat) (origin : Conn) :
    ∃ held,
      (k.ensureResumedOTPoolUsable allocated origin = { k with stage := .fallback } ∨
        (∃ claim, k.ensureResumedOTPoolUsable allocated origin =
          { k with pool := k.pool.withClaim held, stage := .refillClaimed claim }) ∨
        ∃ refills, (∀ refill ∈ refills, refill ∈ k.refills ∨ refill.origin = origin) ∧
          k.ensureResumedOTPoolUsable allocated origin =
            { k.serve with
              pool := k.pool.withClaim held
              refills := refills }) := by
  unfold ensureResumedOTPoolUsable
  split
  · exact ⟨k.pool.extendClaim, .inr (.inr ⟨k.refills, fun _ => .inl, rfl⟩)⟩
  split
  · exact ⟨none, .inl rfl⟩
  rename_i claim claimed claimedEq
  obtain ⟨held, withHeld⟩ := k.pool.claimExtendIfNeeded_withClaim allocated
  rw [claimedEq] at withHeld
  rw [show claimed = k.pool.withClaim held from withHeld]
  refine ⟨held, ?_⟩
  split
  · exact .inr (.inl ⟨claim, rfl⟩)
  refine .inr (.inr ⟨_, ?_, rfl⟩)
  intro refill member
  rcases List.mem_append.mp member with earlier | now
  · exact .inl earlier
  · rw [List.mem_singleton.mp now]
    exact .inr rfl

theorem suspendOTPoolForReconnect_retreats (k : SenderNode) :
    Retreats k k.suspendOTPoolForReconnect ∧ k.suspendOTPoolForReconnect.pending = none := by
  unfold suspendOTPoolForReconnect
  split
  · exact ⟨(of_drop k).trans (of_claim _ none), rfl⟩
  · have emptied := of_emptied k (SenderPool.clear_refines k.pool)
    exact ⟨{ emptied with }, rfl⟩

end SenderNode

end ReclaimTee.Precompute
