/-
Agreement of consumed entries in settled runs. The batches behind a payload are a
prefix of the receiver's batches, or exceed them by the one batch whose completion
the receiver still awaits.
-/

import ReclaimTee.Precompute.Resume
import ReclaimTee.Precompute.Wire

namespace ReclaimTee.Precompute

open ReclaimTee.Mpc ReclaimTee.Precompute.System List

/-- The receiver holds these batches, up to one that it is about to commit. -/
def ReceiverNode.Follows (t : ReceiverNode) (batches : List Batch) : Prop :=
  batches <+: t.batches ∨
    ∃ pending, t.pending = some pending ∧ pending.phase = .awaitComplete ∧
      batches = t.batches ++ [pending.message.batch]

namespace ReceiverNode.Follows

variable {E : Extension} {t next : ReceiverNode} {batches : List Batch}

variable (follows : t.Follows batches)
include follows

theorem pauses (pause : t.Pauses next) : next.Follows batches := by
  rcases follows with kept | ⟨pending, held, phase, grown⟩
  · exact .inl (pause.batches ▸ kept)
  · rcases pause.pending with same | ⟨_, early⟩
    · exact .inr ⟨pending, same.trans held, phase, pause.batches ▸ grown⟩
    · exact absurd phase (early pending held)

/-- While no proof is out, the receiver holds all of the batches. -/
theorem unproved (unproved : ∀ pending, t.pending = some pending → pending.phase ≠ .awaitComplete) :
    batches <+: t.batches := by
  rcases follows with kept | ⟨pending, held, phase, _⟩
  · exact kept
  · exact absurd phase (unproved pending held)

theorem handled {conn : Conn} {request : Request} {outcome : Outcome ReceiverNode Response}
    (result : t.Handled E conn request outcome)
    (noReset : ∀ message, request = .precomputeBegin message → message.isInitial = false) :
    outcome.node.Follows batches := by
  cases result with
  | refused pause => exact follows.pauses pause
  | extended extension ready unoccupied epoch =>
    refine .inl (follows.unproved ?_)
    intro pending held
    rw [unoccupied] at held
    cases held
  | renewedOnly initial | renewed initial =>
    rw [noReset _ rfl] at initial
    cases initial
  | committed held phase session | proved held phase session =>
    refine .inl (follows.unproved ?_)
    intro pending otherHeld
    rw [held] at otherHeld
    cases otherHeld
    rw [phase]
    exact ReceiverPhase.noConfusion
  | completed held phase filled add =>
    rcases follows with kept | ⟨pending, otherHeld, _, grown⟩
    · exact .inl (kept.trans (prefix_append _ _))
    · rw [held] at otherHeld
      cases otherHeld
      rw [grown]
      exact .inl (prefix_refl _)
  | denied => exact follows
  | granted pause ready unoccupied same => exact follows.pauses pause

theorem window_eq {start count : Nat} (within : start + count ≤ (E.receivedAll batches).length)
    (reached : start + count ≤ (E.receivedAll t.batches).length) :
    ((E.receivedAll t.batches).drop start).take count =
      ((E.receivedAll batches).drop start).take count := by
  have extended : ∀ {shorter longer : List Batch}, shorter <+: longer →
      start + count ≤ (E.receivedAll shorter).length →
      ((E.receivedAll longer).drop start).take count =
        ((E.receivedAll shorter).drop start).take count := by
    rintro shorter longer ⟨rest, joined⟩ inside
    rw [← joined, E.receivedAll_append, drop_append_of_le_length (by omega),
      take_append_of_le_length (by rw [length_drop]; omega)]
  rcases follows with kept | ⟨pending, _, _, grown⟩
  · exact extended kept within
  · exact (extended ⟨_, grown.symm⟩ reached).symm

end ReceiverNode.Follows

structure Chained (s : System) : Prop where
  sender : s.sender.Trusted → s.Linked → s.receiver.Follows s.sender.batches
  payloads : ∀ payload, s.InFlight payload → s.receiver.control = some payload.conn →
    s.receiver.Follows payload.batches

namespace Chained

variable {E : Extension} {s next : System} {action : Action}

theorem start : Chained start where
  sender := fun trusted => by cases trusted.1
  payloads := nofun

theorem sent {requests : List Request} (known : Chained s) :
    Chained (s.sendToReceiver requests) := by
  obtain ⟨toReceiver, same, _⟩ := s.sendToReceiver_eq requests
  rw [same]
  exact { known with }

variable (known : Chained s)
include known

theorem withSender {k : SenderNode} {toSender : List Response} {nextSession : Session}
    {nextClaim : Nat} {lineage : Lineages} (control : k.control = s.sender.control)
    (trusted : k.Trusted → s.sender.Trusted ∧ k.batches = s.sender.batches) :
    Chained (s.withSender k toSender nextSession nextClaim lineage) where
  sender := by
    rintro trust ⟨conn, current, served⟩
    obtain ⟨before, sameBatches⟩ := trusted trust
    rw [sameBatches]
    exact known.sender before ⟨conn, control ▸ current, served⟩
  payloads := known.payloads

theorem received (wired : Wired s) {conn : Conn} {request : Request}
    {rest : List Request} {outcome : Outcome ReceiverNode Response}
    (first : s.toReceiver = request :: rest) (handled : s.receiver.Handled E conn request outcome) :
    Chained ({ s with toReceiver := rest }.afterReceiver outcome) := by
  obtain ⟨isOpen, toSender, same⟩ := afterReceiver_eq { s with toReceiver := rest } outcome
  rw [same]
  have member : request ∈ s.toReceiver := by
    rw [first]
    exact mem_cons_self
  have noReset : ∀ {requests}, NoInitial requests → request ∈ requests →
      ∀ message, request = .precomputeBegin message → message.isInitial = false := by
    intro requests harmless inside message isBegin
    exact harmless message (isBegin ▸ inside)
  exact
    { sender := by
        rintro trusted ⟨other, current, served⟩
        have linked : s.Linked := ⟨other, current, handled.control ▸ served⟩
        exact (known.sender trusted linked).handled handled
          (noReset ((wired.link linked).trusted trusted) member)
      payloads := by
        intro payload flying served
        have servedBefore : s.receiver.control = some payload.conn := handled.control ▸ served
        exact (known.payloads payload flying servedBefore).handled handled
          (noReset (wired.served payload flying servedBefore) member) }

theorem committed (wired : Wired s) (lineal : Lineal E s) {pending : SenderPrecompute}
    {k : SenderNode} (announced : s.sender.completion = .announced pending)
    (commits : s.sender.Commits E pending k) : Chained { s with sender := k } where
  sender := by
    rintro _ ⟨conn, current, served⟩
    have linked : s.Linked := ⟨conn, commits.control ▸ current, served⟩
    rw [commits.batches]
    cases (wired.link linked).announced pending announced commits.held with
    | due awaits queued =>
      obtain ⟨other, held, same, phase⟩ := awaits
      have atReceiver := (lineal.receiver.pending other held).1
      have atSender := lineal.sender.completes_batch announced commits.held
      rw [same, atSender] at atReceiver
      exact .inr ⟨other, held, phase, Option.some.inj atReceiver⟩
    | done grown empty =>
      rw [← grown]
      exact .inl (prefix_refl _)
  payloads := known.payloads

theorem reserved (ordered : Ordered s) {conn : Conn} (current : s.sender.control = some conn)
    (healthy : s.sender.controlHealthy = true) : Chained (s.reserving conn) := by
  have serving := ordered.healthyServing healthy
  have fresh : ∀ payload,
      payload ∈ (s.sender.reserveOTEntriesForSession s.nextClaim conn).2.toList →
      payload.conn = conn ∧ payload.batches = s.sender.batches ∧ s.sender.ready = true := by
    intro payload now
    obtain ⟨same, sameBatches, ready, _⟩ :=
      SenderNode.reserveOTEntriesForSession_payload (Option.mem_toList.mp now)
    exact ⟨same, sameBatches, ready⟩
  obtain ⟨pool, refills, node, _, _⟩ :=
    s.sender.reserveOTEntriesForSession_frame s.nextClaim conn
  rw [reserving, node]
  exact
    { known with
      payloads := by
        rintro payload (sent | waits) served
        · rcases mem_append.mp sent with now | earlier
          · obtain ⟨same, sameBatches, ready⟩ := fresh payload now
            rw [sameBatches]
            refine known.sender ⟨ready, ?_⟩ ⟨conn, current, same ▸ served⟩
            rw [serving]
            trivial
          · exact known.payloads payload (.inl earlier) served
        · exact known.payloads payload (.inr waits) served }

theorem move (wired : Wired s) (ordered : Ordered s) (lineal : Lineal E s)
    (healthy : HealthyReservation s action) (moved : s.Move E action next) : Chained next := by
  cases moved with
  | activated =>
    have apart : ∀ conn, conn < s.sender.used →
        (activate s).receiver.control ≠ some conn := by
      intro conn older served
      have fresh : some s.nextConn = some conn := served
      cases fresh
      exact Nat.lt_irrefl _ (Nat.lt_of_lt_of_le older ordered.usedKnown)
    exact
      { sender := by
          rintro _ ⟨conn, current, served⟩
          exact absurd served (apart conn (ordered.controlUsed conn current))
        payloads := fun payload flying served =>
          absurd served (apart _ (ordered.payloadUsed payload flying)) }
  | parted =>
    exact
      { sender := nofun, payloads := nofun }
  | received served opened first handled => exact known.received wired first handled
  | paused pause online_kept waiting_kept taken =>
    exact
      { sender := by
          rintro trusted ⟨conn, current, served⟩
          exact (known.sender trusted ⟨conn, current, pause.control ▸ served⟩).pauses pause
        payloads := by
          rintro payload (sent | ⟨waiter, waits, same⟩) served
          · exact (known.payloads payload (online_kept payload sent)
              (pause.control ▸ served)).pauses pause
          · exact (known.payloads payload (same ▸ waiting_kept waiter waits)
              (pause.control ▸ served)).pauses pause }
  | retreated retreat read recorded =>
    exact known.withSender retreat.control fun trusted =>
      ⟨retreat.trusted trusted, (retreat.ready trusted.1).2⟩
  | established | tornDown =>
    exact
      { sender := fun trusted => trusted.2.elim
        payloads := known.payloads }
  | resumeSent connected ready =>
    exact .sent
      { sender := fun trusted => trusted.2.elim
        payloads := known.payloads }
  | resumeAnswered resuming first answer =>
    exact known.withSender rfl fun trusted => ⟨trusted, rfl⟩
  | @resumed conn resuming accepted =>
    exact
      { sender := by
          rintro ⟨ready, _⟩ linked
          obtain ⟨_, receiverReady, sameEpoch, _⟩ :=
            (wired.link linked).granted resuming (.inr ⟨conn, accepted⟩)
          have same := lineal.samePools ready receiverReady sameEpoch.symm
          rw [same.batches]
          exact .inl (prefix_refl _)
        payloads := known.payloads }
  | claimed resumed =>
    refine known.withSender rfl ?_
    rintro ⟨ready, _⟩
    refine ⟨⟨ready, ?_⟩, rfl⟩
    rw [resumed]
    trivial
  | served from_stage refilled =>
    refine known.withSender rfl ?_
    rintro ⟨ready, _⟩
    refine ⟨⟨ready, ?_⟩, rfl⟩
    rcases from_stage with same | ⟨claim, session, same⟩ | ⟨session, same⟩ <;> rw [same] <;>
      trivial
  | started starts =>
    refine .sent (known.withSender starts.begun.control ?_)
    rintro ⟨ready, active⟩
    obtain ⟨wasReady, extension⟩ := starts.begun.stillReady ready
    refine ⟨⟨wasReady, ?_⟩, (starts.begun.extending extension).2.1⟩
    rcases starts.extending extension with ⟨claim, before, _⟩ | ⟨same, _⟩
    · rw [before]
      trivial
    · exact same ▸ active
  | answered quiet first answer =>
    obtain ⟨pending, phase, completion, held, node, _⟩ := answer.advances
    subst node
    exact .sent (known.withSender rfl fun trusted => ⟨trusted, rfl⟩)
  | announced verified =>
    exact .sent (known.withSender rfl fun trusted => ⟨trusted, rfl⟩)
  | committed announced commits => exact known.committed wired lineal announced commits
  | reserved reserves current => exact known.reserved ordered current (healthy reserves)

end Chained

/-! ### Consumed entries -/

/-- The entries taken for a payload are the receiver's side of the same window of
the same batches as the entries the sender used. -/
structure Counterparts (E : Extension) (consumption : Consumption) : Prop where
  sent : consumption.payload.entries =
    ((E.sentAll consumption.payload.batches).drop consumption.payload.startIndex).take otsPerOPRF
  received : consumption.entries =
    ((E.receivedAll consumption.payload.batches).drop
      consumption.payload.startIndex).take otsPerOPRF
  count : consumption.entries.length = otsPerOPRF
  correlated : List.Forall₂ Correlated consumption.payload.entries consumption.entries

theorem Counterparts.of_windows {E : Extension} {consumption : Consumption}
    (sent : consumption.payload.SentFrom E)
    (received : consumption.entries =
      ((E.receivedAll consumption.payload.batches).drop
        consumption.payload.startIndex).take otsPerOPRF) : Counterparts E consumption where
  sent := sent.window
  received := received
  count := by
    have within := sent.within
    rw [E.allLength] at within
    rw [received, length_take, length_drop]
    omega
  correlated := by
    rw [sent.window, received]
    exact forall₂_take _ (forall₂_drop _ (E.pairedAll _))

theorem Chained.takes {E : Extension} {s : System} {consumption : Consumption} (known : Chained s)
    (lineal : Lineal E s) (takes : s.Takes consumption) : Counterparts E consumption := by
  have sent := lineal.inFlight _ takes.inFlight
  have follows := known.payloads _ takes.inFlight takes.served
  obtain ⟨reached, window⟩ := takes.window E lineal.receiver.backed
  have within := sent.within
  rw [E.allLength] at within
  exact .of_windows sent (window.trans (follows.window_eq within reached))

/-- Every consumption so far took the counterparts of its payload. -/
def Settles (E : Extension) (s : System) : Prop :=
  ∀ consumption ∈ s.consumed, Counterparts E consumption

theorem Settles.move {E : Extension} {s next : System} {action : Action} (known : Settles E s)
    (chained : Chained s) (lineal : Lineal E s) (moved : s.Move E action next) :
    Settles E next := by
  cases moved with
  | paused pause online_kept waiting_kept taken =>
    intro consumption member
    rcases taken consumption member with earlier | now
    · exact known consumption earlier
    · exact chained.takes lineal now
  | received served opened first handled =>
    obtain ⟨isOpen, toSender, same⟩ := afterReceiver_eq _ _
    rw [same]
    exact known
  | resumeSent | started | answered | announced =>
    obtain ⟨toReceiver, same, _⟩ := sendToReceiver_eq _ _
    rw [same]
    exact known
  | activated | parted | retreated | established | tornDown | resumeAnswered | resumed | claimed
  | served | committed | reserved => exact known

/-- What holds along every run whose reservations find a healthy connection. -/
structure Settled (E : Extension) (s : System) : Prop where
  ordered : Ordered s
  wired : Wired s
  chained : Chained s
  settles : Settles E s

theorem reach_settled {E : Extension} {s : System}
    (reached : (machine E).Reach HealthyReservation s) : Settled E s := by
  refine reached.invariant_given (fun _ earlier => reach_lineal earlier) ?_ ?_
  · exact
      { ordered := Ordered.start, wired := Wired.start, chained := Chained.start, settles := nofun }
  · intro before action after lineal known healthy taken
    have moved := step_move taken
    exact
      { ordered := known.ordered.move healthy moved
        wired := known.wired.move known.ordered lineal healthy moved
        chained := known.chained.move known.wired known.ordered lineal healthy moved
        settles := known.settles.move known.chained lineal moved }

/-- When every reservation is made on a healthy control connection, every
consumption takes the counterparts of the entries its payload was built from. -/
theorem consumed_counterparts {E : Extension} {s : System}
    (reached : (machine E).Reach HealthyReservation s) :
    ∀ consumption ∈ s.consumed, Counterparts E consumption :=
  (reach_settled reached).settles

theorem consumed_counterparts_first_range :
    ∃ (E : Extension) (s : System) (consumption : Consumption),
      (machine E).Reach HealthyReservation s ∧ consumption ∈ s.consumed ∧
      Counterparts E consumption := by
  let E := Extension.labelled fun _ => Label.zero
  have permitted : ∀ action : Action, action ≠ .reserve → ∀ before : System,
      HealthyReservation before action := fun _ other _ same => absurd same other
  have completed : (machine E).Reach HealthyReservation (opened.completedRound E) :=
    reach_completed permitted (reach_opened permitted) opened_idle
  obtain ⟨pool, refills, reserved⟩ :=
    step_reserve (E := E) (s := opened.completedRound E) rfl rfl rfl
      (filledSender_refines E 0) (initial_window E 0).1
  have reserving := reach_step completed (fun _ => rfl) reserved
  obtain ⟨last, reached, consumed⟩ :=
    reach_online rfl rfl rfl (filledReceiver_refines E 0) (initial_window E 0).2 reserving
      (permitted (.online 0) (by decide) _)
  exact ⟨E, last, _, reached, consumed, consumed_counterparts reached _ consumed⟩

theorem labelled_mismatch {label : Session → Label} {first second : Session}
    (apart : label second ≠ label first) :
    ¬ List.Forall₂ Correlated
      ((Ledger.empty.append ((Extension.labelled label).sent (initialBatch first))).slice 0
        otsPerOPRF)
      ((Ledger.empty.append ((Extension.labelled label).received (initialBatch second))).slice 0
        otsPerOPRF) := by
  intro paired
  cases paired with
  | cons head _ => exact apart head.chosen

/-- A reservation made while a resume is pending outlives the pool it came from:
the resume is denied, both nodes build a new pool on the same connection, and the
receiver consumes the old range from it. -/
theorem consumed_mismatch_after_denied_resume :
    ∃ (E : Extension) (s : System) (consumption : Consumption),
      (machine E).Reach Machine.Any s ∧ consumption ∈ s.consumed ∧
      ¬ List.Forall₂ Correlated consumption.payload.entries consumption.entries := by
  let label : Session → Label := fun session =>
    { d0 := BitVec.ofNat 64 session, d1 := 0 }
  let E := Extension.labelled label
  let unread := opened.answering 0 (E.received (initialBatch 0)) .awaitComplete
  let asking := opened.reconnected E unread
  have permitted : ∀ action : Action, action ≠ .reserve → ∀ before : System,
      Machine.Any before action := fun _ _ _ => trivial
  have lost : (machine E).Reach Machine.Any asking :=
    reach_extend permitted
      (reach_announced permitted (reach_opened permitted) opened_idle)
      (by decide) (run_reconnect (Nat.le_refl 1) unread [.complete otPoolInitialSize])
  obtain ⟨pool, refills, reserved⟩ :=
    step_reserve (E := E) (s := asking) rfl rfl rfl (filledSender_refines E 0)
      (initial_window E 0).1
  have reserving := reach_step lost trivial reserved
  have fallen := reach_extend permitted reserving (by decide)
    (run_denied (E := E) rfl rfl rfl rfl rfl rfl rfl rfl rfl rfl)
  have rebuilt := reach_completed permitted fallen ⟨rfl, rfl, rfl, rfl, rfl, rfl, rfl, rfl, rfl⟩
  obtain ⟨last, reached, consumed⟩ :=
    reach_online rfl rfl rfl (filledReceiver_refines E 1) (initial_window E 1).2 rebuilt
      trivial
  exact ⟨E, last, _, reached, consumed, labelled_mismatch (by decide)⟩

end ReclaimTee.Precompute
