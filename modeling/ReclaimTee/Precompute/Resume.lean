/-
Soundness of a resumed pool. The receiver grants a resume request only for its
epoch and at or above everything it has handed out; the frontier in a request is
never ahead of the sender. So what the sender has left is unused and correlated.
-/

import ReclaimTee.Precompute.Lineage
import ReclaimTee.Precompute.Progress

namespace ReclaimTee.Mpc

open List

def SenderPool.unusedAt (pool : SenderPool) (index : Nat) : Option SenderOT :=
  if pool.nextIndex ≤ index then pool.entries[index - pool.baseIndex]? else none

def ReceiverPool.unusedAt (pool : ReceiverPool) (index : Nat) : Option ReceiverOT :=
  if pool.baseIndex ≤ index ∧ pool.used[index - pool.baseIndex]? = some false then
    pool.entries[index - pool.baseIndex]?
  else
    none

theorem SenderPool.Refines.unusedAt_eq {pool : SenderPool} {ledger : Ledger SenderOT}
    (refines : pool.Refines ledger) {index : Nat} {sent : SenderOT}
    (unused : pool.unusedAt index = some sent) : ledger.history[index]? = some sent := by
  unfold SenderPool.unusedAt at unused
  split at unused
  · rename_i ahead
    rw [← refines.held index ahead]
    exact unused
  · cases unused

theorem ReceiverPool.Refines.unusedAt_eq {pool : ReceiverPool} {ledger : Ledger ReceiverOT}
    (refines : pool.Refines ledger) {index : Nat} {received : ReceiverOT}
    (unused : pool.unusedAt index = some received) : ledger.history[index]? = some received := by
  unfold ReceiverPool.unusedAt at unused
  split at unused
  · rename_i inside
    have untaken : ¬ ledger.taken index := by
      intro taken
      rcases (refines.recorded index).mp taken with below | used
      · exact Nat.not_lt_of_le inside.1 below
      · rw [inside.2] at used
        cases used
    rw [← refines.held index inside.1 untaken]
    exact unused
  · cases unused

theorem SenderPool.Refines.unusedAt_ahead {pool : SenderPool} {ledger : Ledger SenderOT}
    (refines : pool.Refines ledger) {index : Nat} (ahead : pool.nextIndex ≤ index)
    (inside : index < ledger.history.length) : ∃ sent, pool.unusedAt index = some sent := by
  refine ⟨ledger.history[index], ?_⟩
  rw [SenderPool.unusedAt, if_pos ahead, refines.held index ahead, getElem?_eq_getElem inside]

theorem ReceiverPool.Refines.unusedAt_untaken {pool : ReceiverPool} {ledger : Ledger ReceiverOT}
    (refines : pool.Refines ledger) {index : Nat} (untaken : ¬ ledger.taken index)
    (inside : index < ledger.history.length) : ∃ received, pool.unusedAt index = some received := by
  have retained : pool.baseIndex ≤ index := by
    by_contra below
    exact untaken ((refines.recorded index).mpr (.inl (Nat.lt_of_not_le below)))
  have stored : index - pool.baseIndex < pool.used.length := by
    have extent := refines.extent
    have flagged := refines.flagged
    omega
  have unmarked : pool.used[index - pool.baseIndex]? = some false := by
    rw [getElem?_eq_getElem stored]
    cases flag : pool.used[index - pool.baseIndex] with
    | false => rfl
    | true =>
      refine absurd ((refines.recorded index).mpr (.inr ?_)) untaken
      rw [getElem?_eq_getElem stored, flag]
  refine ⟨ledger.history[index], ?_⟩
  rw [ReceiverPool.unusedAt, if_pos ⟨retained, unmarked⟩, refines.held index retained untaken,
    getElem?_eq_getElem inside]

end ReclaimTee.Mpc

namespace ReclaimTee.Precompute

open ReclaimTee.Mpc List

/-- The two pools were filled with the same batches, and an index that neither
side has used is correlated. -/
structure SamePools (k : SenderNode) (t : ReceiverNode) : Prop where
  batches : k.batches = t.batches
  totals : k.pool.totalCount = t.pool.totalCount
  correlated : ∀ index sent received, k.pool.unusedAt index = some sent →
    t.pool.unusedAt index = some received → sent.index = index ∧ Correlated sent received

theorem SamePools.of_batches {E : Extension} {k : SenderNode} {t : ReceiverNode}
    (sender : k.Backed E) (receiver : t.Backed E) (same : k.batches = t.batches) :
    SamePools k t := by
  obtain ⟨_, sent⟩ := sender
  obtain ⟨_, received⟩ := receiver
  have paired := E.pairedAll k.batches
  exact
    { batches := same
      totals := by
        rw [sent.totalCount_eq, received.totalCount_eq, ← same]
        exact paired.length_eq
      correlated := by
        intro index entry counterpart unusedSent unusedReceived
        have atSender := sent.unusedAt_eq unusedSent
        have atReceiver := received.unusedAt_eq unusedReceived
        rw [← same] at atReceiver
        obtain ⟨senderInside, senderEntry⟩ := List.getElem?_eq_some_iff.mp atSender
        obtain ⟨receiverInside, receiverEntry⟩ := List.getElem?_eq_some_iff.mp atReceiver
        constructor
        · have indexed := sent.indexed
          have located := congrArg (fun indices => indices[index]?) indexed
          simp only [getElem?_map, atSender, Option.map_some] at located
          rw [getElem?_range' senderInside, Option.some.injEq] at located
          omega
        · have pair := forall₂_iff_get.mp paired
          have related := pair.2 index senderInside receiverInside
          simp only [get_eq_getElem] at related
          rw [senderEntry, receiverEntry] at related
          exact related }

/-- What a resume request in flight says about the sender. -/
structure Requested (s : System) (epoch : Option Epoch) (frontier : Nat) : Prop where
  named : ∃ session, epoch = some (.extension session) ∧ session < s.nextSession
  settled : ∀ pending, s.sender.pending = some pending → epoch ≠ some (.extension pending.session)
  behind : s.sender.ready = true → s.sender.epoch = epoch → frontier ≤ s.sender.pool.nextIndex

structure ResumeOrder (s : System) : Prop where
  unadopted : ∀ pending, s.sender.pending = some pending →
    s.sender.epoch ≠ some (.extension pending.session)
  requested : ∀ epoch frontier, .resume epoch frontier ∈ s.toReceiver → Requested s epoch frontier

namespace ResumeOrder

variable {E : Extension} {s next : System} {action : Action}

theorem start : ResumeOrder System.start :=
  { unadopted := nofun, requested := nofun }

theorem sent {requests : List Request} (known : ResumeOrder s)
    (silent : ∀ epoch frontier, .resume epoch frontier ∉ requests) :
    ResumeOrder (s.sendToReceiver requests) := by
  obtain ⟨toReceiver, same, queue⟩ := s.sendToReceiver_eq requests
  rw [same]
  refine ⟨known.unadopted, ?_⟩
  intro epoch frontier member
  rcases queue _ member with queued | ⟨_, now⟩
  · exact { known.requested epoch frontier queued with }
  · exact absurd now (silent epoch frontier)

variable (known : ResumeOrder s)
include known

theorem withReceiver {receiver : ReceiverNode} {toReceiver : List Request}
    {toSender : List Response} {nextConn : Conn} {online : List Payload} {waiting : List Waiter}
    {consumed : List Consumption}
    (read : ∀ epoch frontier, .resume epoch frontier ∈ toReceiver →
      .resume epoch frontier ∈ s.toReceiver) :
    ResumeOrder
      { s with
        receiver := receiver
        toReceiver := toReceiver
        toSender := toSender
        nextConn := nextConn
        online := online
        waiting := waiting
        consumed := consumed } where
  unadopted := known.unadopted
  requested := fun epoch frontier member =>
    { known.requested epoch frontier (read epoch frontier member) with }

variable {k : SenderNode} {toSender : List Response} {nextSession : Session} {nextClaim : Nat}
  {lineage : Lineages} {online : List Payload}

/-- A step of the sender that sends no resume request, adopts no epoch and starts
no batch under a session in use. -/
theorem withSender (later : s.nextSession ≤ nextSession)
    (pending : ∀ now, k.pending = some now →
      (∃ former, s.sender.pending = some former ∧ former.session = now.session ∧
        k.epoch = s.sender.epoch) ∨
      now.session = s.nextSession ∧ k.epoch ≠ some (.extension s.nextSession))
    (ready : k.ready = true → k.epoch = s.sender.epoch →
      s.sender.ready = true ∧ s.sender.pool.nextIndex ≤ k.pool.nextIndex)
    (epoch : k.ready = true → k.epoch ≠ s.sender.epoch →
      ∃ former, s.sender.pending = some former ∧ k.epoch = some (.extension former.session)) :
    ResumeOrder
      { s with
        sender := k
        toSender := toSender
        nextSession := nextSession
        nextClaim := nextClaim
        lineage := lineage
        online := online } where
  unadopted := by
    intro now held
    rcases pending now held with ⟨former, formerly, same, sameEpoch⟩ | ⟨fresh, unadopted⟩
    · rw [sameEpoch, ← same]
      exact known.unadopted former formerly
    · rw [fresh]
      exact unadopted
  requested := by
    intro asked frontier member
    have before := known.requested asked frontier member
    obtain ⟨session, named, bounded⟩ := before.named
    exact
      { named := ⟨session, named, Nat.lt_of_lt_of_le bounded later⟩
        settled := by
          intro now held
          rcases pending now held with ⟨former, formerly, same, _⟩ | ⟨fresh, _⟩
          · rw [← same]
            exact before.settled former formerly
          · rw [named, fresh]
            intro equal
            cases equal
            exact Nat.lt_irrefl _ bounded
        behind := by
          intro readyNow current
          by_cases sameEpoch : k.epoch = s.sender.epoch
          · obtain ⟨wasReady, ahead⟩ := ready readyNow sameEpoch
            exact Nat.le_trans (before.behind wasReady (sameEpoch.symm.trans current)) ahead
          · obtain ⟨former, formerly, adopted⟩ := epoch readyNow sameEpoch
            exact absurd (current.symm.trans adopted) (before.settled former formerly) }

theorem congr (pending : ∀ now, k.pending = some now →
      ∃ former, s.sender.pending = some former ∧ former.session = now.session)
    (ready : k.ready = s.sender.ready) (epoch : k.epoch = s.sender.epoch)
    (frontier : s.sender.pool.nextIndex ≤ k.pool.nextIndex) :
    ResumeOrder
      { s with
        sender := k
        toSender := toSender
        nextClaim := nextClaim
        online := online } := by
  refine known.withSender (Nat.le_refl _) ?_ ?_ ?_
  · intro now held
    obtain ⟨former, formerly, same⟩ := pending now held
    exact .inl ⟨former, formerly, same, epoch⟩
  · intro readyNow _
    exact ⟨ready ▸ readyNow, frontier⟩
  · intro _ differs
    exact absurd epoch differs

theorem retreated (retreat : s.sender.Retreats k) (later : s.nextSession ≤ nextSession) :
    ResumeOrder (s.withSender k toSender nextSession nextClaim lineage) := by
  refine known.withSender later ?_ ?_ ?_
  · intro now held
    have sameEpoch : k.epoch = s.sender.epoch := by
      rcases retreat.epoch with same | ⟨_, _, dropped⟩
      · exact same
      · rw [dropped] at held
        cases held
    rcases (retreat.pending now held).2 with unchanged | ⟨former, formerly, processed⟩
    · exact .inl ⟨now, unchanged, rfl, sameEpoch⟩
    · exact .inl ⟨former, formerly, by rw [processed], sameEpoch⟩
  · intro ready _
    exact ⟨(retreat.ready ready).1, Nat.le_of_eq (retreat.frontier ready).symm⟩
  · intro ready differs
    rcases retreat.epoch with same | ⟨_, unready, _⟩
    · exact absurd same differs
    · rw [unready] at ready
      cases ready

theorem started (lineal : Lineal E s) {isInitial : Bool} {claim : Option Nat} {origin : Conn}
    {k : SenderNode} {message : PrecomputeBegin} {stage : Stage} {refills : List Refill}
    {lineage : Lineages} (begun : s.sender.Started s.nextSession isInitial claim origin k message) :
    ResumeOrder
      ((s.starting k stage refills lineage).sendToReceiver [.precomputeBegin message]) := by
  have pendingEq := begun.pending
  refine .sent
    (known.withSender (Nat.le_succ _) ?_ ?_ ?_) fun _ _ => by simp
  · intro now held
    have sameSession : now.session = s.nextSession := by
      rw [show k.pending = some now from held] at pendingEq
      rw [Option.some.inj pendingEq]
    refine .inr ⟨sameSession, ?_⟩
    cases isInitial with
    | true =>
      rw [(begun.renewing rfl).2.2]
      intro equal
      cases equal
    | false =>
      obtain ⟨ready, _, sameEpoch⟩ := begun.extending rfl
      obtain ⟨session, current, recorded⟩ := lineal.sender.ready ready
      have older := lineal.recorded_lt recorded
      rw [sameEpoch, current]
      intro equal
      cases equal
      exact Nat.lt_irrefl _ older
  · intro ready _
    exact ⟨(begun.stillReady ready).1, Nat.le_of_eq (begun.frontier ready).symm⟩
  · intro ready differs
    have extension := (begun.stillReady ready).2
    exact absurd (begun.extending extension).2.2 differs

theorem resumeSent (lineal : Lineal E s) (ready : s.sender.ready = true) :
    ResumeOrder
      (s.resuming.sendToReceiver [.resume s.sender.epoch s.sender.pool.nextIndex]) := by
  obtain ⟨toReceiver, same, queue⟩ := s.resuming.sendToReceiver_eq
    [.resume s.sender.epoch s.sender.pool.nextIndex]
  rw [same]
  refine ⟨known.unadopted, ?_⟩
  intro epoch frontier member
  rcases queue _ member with queued | ⟨_, now⟩
  · exact { known.requested epoch frontier queued with }
  rw [mem_singleton] at now
  cases now
  obtain ⟨session, current, recorded⟩ := lineal.sender.ready ready
  exact
    { named := ⟨session, current, lineal.recorded_lt recorded⟩
      settled := known.unadopted
      behind := fun _ _ => Nat.le_refl _ }

theorem answered {data : ResponseData} {rest : List Response}
    {requests : List Request} (answer : s.sender.Answered E data (.ok k requests)) :
    ResumeOrder
      (System.sendToReceiver
        { s with
          sender := k
          toSender := rest } requests) := by
  obtain ⟨pending, phase, completion, held, node, silent⟩ := answer.advances
  subst node
  refine .sent
    (known.congr ?_ rfl rfl (Nat.le_refl _)) silent
  intro now nowHeld
  cases nowHeld
  exact ⟨pending, held, rfl⟩

theorem committed {pending : SenderPrecompute} {k : SenderNode}
    (commits : s.sender.Commits E pending k) : ResumeOrder { s with sender := k } := by
  obtain ⟨current, currently, sameSession⟩ := Option.map_eq_some_iff.mp commits.held
  have adopted : k.epoch = some (.extension current.session) := by
    rw [commits.epoch, sameSession]
  refine known.withSender (Nat.le_refl _) ?_ ?_ ?_
  · intro now held
    have dropped := commits.dropped
    rw [show k.pending = some now from held] at dropped
    cases dropped
  · intro _ same
    have unadopted := known.unadopted current currently
    rw [← show k.epoch = s.sender.epoch from same, adopted] at unadopted
    exact absurd rfl unadopted
  · intro _ _
    exact ⟨current, currently, adopted⟩

theorem move (lineal : Lineal E s) (moved : s.Move E action next) : ResumeOrder next := by
  cases moved with
  | activated | parted => exact known.withReceiver nofun
  | received served opened first handled =>
    obtain ⟨isOpen, toSender, same⟩ := System.afterReceiver_eq _ _
    rw [same]
    refine known.withReceiver ?_
    intro epoch frontier member
    rw [first]
    exact mem_cons_of_mem _ member
  | paused pause online_kept waiting_kept taken =>
    exact known.withReceiver fun _ _ => id
  | retreated retreat read recorded =>
    exact known.retreated retreat (lineal.grows recorded).2.1
  | tornDown quiet =>
    have suspended : ResumeOrder { s with sender := s.sender.suspendOTPoolForReconnect } :=
      known.retreated s.sender.suspendOTPoolForReconnect_retreats.1 (Nat.le_refl _)
    exact suspended.congr (fun now held => ⟨now, held, rfl⟩) rfl rfl (Nat.le_refl _)
  | resumeSent connected ready => exact known.resumeSent lineal ready
  | established | resumeAnswered | resumed | claimed | served =>
    exact known.congr (fun now held => ⟨now, held, rfl⟩) rfl rfl (Nat.le_refl _)
  | started starts => exact known.started lineal starts.begun
  | answered quiet first answer => exact known.answered answer
  | announced verified =>
    exact .sent (known.congr (fun now held => ⟨now, held, rfl⟩) rfl rfl
      (Nat.le_refl _)) fun _ _ => by simp
  | committed announced commits => exact known.committed commits
  | reserved =>
    obtain ⟨pool, refills, node, _, backed⟩ :=
      s.sender.reserveOTEntriesForSession_frame s.nextClaim _
    rw [System.reserving, node]
    exact known.congr (fun now held => ⟨now, held, rfl⟩) rfl rfl (backed E lineal.sender.backed).2

end ResumeOrder

section Reachable

variable {E : Extension} {allowed : System → Action → Prop} {s : System}

theorem reach_lineal (reached : (System.machine E).Reach allowed s) : Lineal E s :=
  reached.invariant (Lineal.start E) fun _ _ _ known _ taken => known.move (System.step_move taken)

theorem reach_resumeOrder (reached : (System.machine E).Reach allowed s) : ResumeOrder s :=
  reached.invariant_given (fun _ earlier => reach_lineal earlier) ResumeOrder.start
    fun _ _ _ lineal known _ taken => known.move lineal (System.step_move taken)

theorem Lineal.samePools (known : Lineal E s) (sender : s.sender.ready = true)
    (receiver : s.receiver.ready = true) (same : s.sender.epoch = s.receiver.epoch) :
    SamePools s.sender s.receiver := by
  have held := known.sender.ready sender
  rw [same] at held
  exact .of_batches known.sender.backed known.receiver.backed
    (held.unique (known.receiver.ready receiver))

/-- A granted resume leaves both nodes ready under the requested epoch with the
same pools, and no index that the sender has left is missing on the other side. -/
structure Resumed (k : SenderNode) (t : ReceiverNode) (epoch : Option Epoch) : Prop where
  ready : t.ready = true
  epoch : t.epoch = epoch
  samePools : SamePools k t
  available : ∀ index, k.pool.nextIndex ≤ index → index < k.pool.totalCount →
    ∃ sent received, k.pool.unusedAt index = some sent ∧ t.pool.unusedAt index = some received

theorem Lineal.resumed (known : Lineal E s) {epoch : Option Epoch} {frontier : Nat}
    {t : ReceiverNode} (requested : Requested s epoch frontier)
    (granted : s.receiver.resumeOTPool epoch frontier = (true, t)) (ready : s.sender.ready = true)
    (current : s.sender.epoch = epoch) : Resumed s.sender t epoch := by
  rcases s.receiver.resumeOTPool_cases epoch frontier with
    refused | ⟨next, grantedNext, pause, receiverReady, _, receiverEpoch, advanced⟩
  · rw [refused] at granted
    cases granted
  · rw [grantedNext] at granted
    cases granted
    have same := known.samePools ready receiverReady (current.trans receiverEpoch.symm)
    have backed := pause.backed E known.receiver.backed
    have sameBatches : s.sender.batches = t.batches := same.batches.trans pause.batches.symm
    exact
      { ready := pause.ready.trans receiverReady
        epoch := pause.epoch.trans receiverEpoch
        samePools := SamePools.of_batches known.sender.backed backed sameBatches
        available := by
          intro index ahead inside
          obtain ⟨_, sent⟩ := known.sender.backed
          obtain ⟨taken, received⟩ := backed
          rw [sent.totalCount_eq] at inside
          have insideReceived : index < (E.receivedAll t.batches).length := by
            rw [← sameBatches, ← (E.pairedAll s.sender.batches).length_eq]
            exact inside
          have untaken : ¬ taken index := by
            intro marked
            have below := received.takenBelow index marked
            rw [advanced E known.receiver.backed] at below
            have behind := requested.behind ready current
            omega
          obtain ⟨entry, atSender⟩ := sent.unusedAt_ahead ahead inside
          obtain ⟨counterpart, atReceiver⟩ := received.unusedAt_untaken untaken insideReceived
          exact ⟨entry, counterpart, atSender, atReceiver⟩ }

/-- In every reachable state, a resume request that the receiver grants finds the
same pools on both sides, and so does any state in which both are ready under one
epoch. -/
theorem resume_sound (reached : (System.machine E).Reach Machine.Any s) :
    (∀ epoch frontier rest t, s.toReceiver = .resume epoch frontier :: rest →
      s.receiver.resumeOTPool epoch frontier = (true, t) → s.sender.ready = true →
      s.sender.epoch = epoch → Resumed s.sender t epoch) ∧
    (s.sender.ready = true → s.receiver.ready = true → s.sender.epoch = s.receiver.epoch →
      SamePools s.sender s.receiver) := by
  have known := reach_lineal reached
  have order := reach_resumeOrder reached
  refine ⟨?_, known.samePools⟩
  intro epoch frontier rest t first granted ready current
  have requested : Requested s epoch frontier := by
    apply order.requested
    rw [first]
    exact mem_cons_self
  exact known.resumed requested granted ready current

end Reachable

theorem resume_sound_retained_pool :
    ∃ (E : Extension) (s : System) (t : ReceiverNode),
      (System.machine E).Reach Machine.Any s ∧
      s.toReceiver = [.resume (some (.extension 0)) 0] ∧
      s.receiver.resumeOTPool (some (.extension 0)) 0 = (true, t) ∧
      Resumed s.sender t (some (.extension 0)) ∧ SamePools s.sender s.receiver := by
  let E := Extension.labelled fun _ => Label.zero
  let s := System.opened.reconnected E (System.opened.matched E)
  have permitted : ∀ action : Action, action ≠ .reserve → ∀ before : System,
      Machine.Any before action := fun _ _ _ => trivial
  have reached : (System.machine E).Reach Machine.Any s :=
    System.reach_extend permitted
      (System.reach_completed permitted (System.reach_opened permitted) System.opened_idle)
      (by decide) (System.run_reconnect (Nat.le_refl 1) (System.opened.matched E) [])
  obtain ⟨next, advanced, _, _⟩ :=
    ReceiverPool.advanceTo_refines (filledReceiver_refines E 0) (Nat.le_refl 0) (Nat.zero_le _)
  have granted := ReceiverNode.resumeOTPool_grants (t := s.receiver) rfl rfl rfl advanced
  have sound := resume_sound reached
  exact ⟨E, s, _, reached, rfl, granted, sound.1 _ _ _ _ rfl granted rfl rfl, sound.2 rfl rfl rfl⟩

end ReclaimTee.Precompute
