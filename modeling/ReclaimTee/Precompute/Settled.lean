/-
Settled runs: every reservation is made while the control connection is healthy.
Then a payload or refill exists only while the supervisor serves its connection,
and there is no batch in progress while it connects and resumes.
-/

import ReclaimTee.Precompute.Lineage

namespace ReclaimTee.Precompute

open ReclaimTee.Mpc

/-- The condition on a step: a reservation needs a healthy control connection. -/
def HealthyReservation (s : System) (action : Action) : Prop :=
  action = .reserve → s.sender.controlHealthy = true

/-- The stages before any request of the connection was answered. -/
def Stage.Early (stage : Stage) : Prop :=
  stage = .offline ∨ stage = .connected ∨ stage = .resuming

theorem Stage.Early.not_givenUp {stage : Stage} (early : stage.Early) : ¬ stage.GivenUp := by
  rcases early with same | same | same <;> rw [same] <;> rintro (other | other) <;> cases other

theorem Stage.Early.not_serving {stage : Stage} (early : stage.Early) : stage ≠ .serving := by
  rcases early with same | same | same <;> rw [same] <;> exact Stage.noConfusion

structure Ordered (s : System) : Prop where
  controlUsed : ∀ conn, s.sender.control = some conn → conn < s.sender.used
  usedKnown : s.sender.used ≤ s.nextConn
  servedKnown : ∀ conn, s.receiver.control = some conn → conn < s.nextConn
  payloadUsed : ∀ payload, s.InFlight payload → payload.conn < s.sender.used
  refillUsed : ∀ refill ∈ s.sender.refills, refill.origin < s.sender.used
  payloadServing : ∀ payload, s.InFlight payload → s.sender.control = some payload.conn →
    s.sender.stage = .serving
  refillServing : ∀ refill ∈ s.sender.refills, s.sender.control = some refill.origin →
    s.sender.stage = .serving
  healthyServing : s.sender.controlHealthy = true → s.sender.stage = .serving
  unoccupied : s.sender.stage.Early → s.sender.pending = none ∧ s.sender.completion = .idle

namespace Ordered

variable {E : Extension} {s next : System} {action : Action}

theorem start : Ordered System.start where
  controlUsed := nofun
  usedKnown := Nat.le_refl _
  servedKnown := nofun
  payloadUsed := nofun
  refillUsed := nofun
  payloadServing := nofun
  refillServing := nofun
  healthyServing := nofun
  unoccupied := fun _ => ⟨rfl, rfl⟩

theorem late (known : Ordered s)
    (busy : s.sender.pending ≠ none ∨ s.sender.completion ≠ .idle) : ¬ s.sender.stage.Early := by
  intro early
  obtain ⟨dropped, idle⟩ := known.unoccupied early
  rcases busy with holds | completes
  · exact holds dropped
  · exact completes idle

/-- Requests that are only sent change nothing the order depends on. -/
theorem sent {requests : List Request} (known : Ordered s) :
    Ordered (s.sendToReceiver requests) := by
  obtain ⟨toReceiver, same, _⟩ := s.sendToReceiver_eq requests
  rw [same]
  exact { known with }

variable (known : Ordered s)
include known

theorem withReceiver {receiver : ReceiverNode} {toReceiver : List Request}
    {toSender : List Response} {nextConn : Conn} {online : List Payload} {waiting : List Waiter}
    {consumed : List Consumption} (later : s.nextConn ≤ nextConn)
    (served : ∀ conn, receiver.control = some conn → conn < nextConn)
    (inFlight : ∀ payload, payload ∈ online ∨ (∃ waiter ∈ waiting, waiter.payload = payload) →
      s.InFlight payload) :
    Ordered
      { s with
        receiver := receiver
        toReceiver := toReceiver
        toSender := toSender
        nextConn := nextConn
        online := online
        waiting := waiting
        consumed := consumed } :=
  { known with
    usedKnown := Nat.le_trans known.usedKnown later
    servedKnown := served
    payloadUsed := fun payload flying => known.payloadUsed payload (inFlight payload flying)
    payloadServing := fun payload flying => known.payloadServing payload (inFlight payload flying) }

variable {k : SenderNode} {toSender : List Response} {nextSession : Session} {nextClaim : Nat}
  {lineage : Lineages}

theorem withSender (control : k.control = s.sender.control) (used : k.used = s.sender.used)
    (refills : ∀ refill ∈ k.refills,
      (∃ former ∈ s.sender.refills, refill.origin = former.origin) ∨
        s.sender.control = some refill.origin ∧ k.stage = .serving)
    (stage : s.sender.stage = .serving → k.stage = .serving)
    (healthy : k.controlHealthy = true → k.stage = .serving)
    (unoccupied : k.stage.Early → k.pending = none ∧ k.completion = .idle) :
    Ordered (s.withSender k toSender nextSession nextClaim lineage) where
  controlUsed := by
    rw [control, used]
    exact known.controlUsed
  usedKnown := by
    rw [used]
    exact known.usedKnown
  servedKnown := known.servedKnown
  payloadUsed := by
    rw [used]
    exact known.payloadUsed
  refillUsed := by
    intro refill member
    rw [used]
    rcases refills refill member with ⟨former, present, same⟩ | ⟨current, _⟩
    · rw [same]
      exact known.refillUsed former present
    · exact known.controlUsed _ current
  payloadServing := by
    intro payload flying current
    rw [control] at current
    exact stage (known.payloadServing payload flying current)
  refillServing := by
    intro refill member current
    rw [control] at current
    rcases refills refill member with ⟨former, present, same⟩ | ⟨_, serving⟩
    · rw [same] at current
      exact stage (known.refillServing former present current)
    · exact serving
  healthyServing := healthy
  unoccupied := unoccupied

theorem not_healthy (notServing : s.sender.stage ≠ .serving) : s.sender.controlHealthy ≠ true :=
  fun healthy => notServing (known.healthyServing healthy)

theorem retreated (retreat : s.sender.Retreats k) :
    Ordered (s.withSender k toSender nextSession nextClaim lineage) := by
  have servingKept : s.sender.stage = .serving → k.stage = .serving := by
    intro serving
    rcases retreat.stage with ⟨same, _⟩ | ⟨notServing, _⟩
    · exact same.trans serving
    · exact absurd serving notServing
  refine known.withSender retreat.control retreat.used ?_ servingKept ?_ ?_
  · intro refill member
    exact .inl (retreat.refills refill member)
  · intro healthy
    exact servingKept (known.healthyServing (retreat.healthy healthy))
  · intro early
    rcases retreat.stage with ⟨same, _⟩ | ⟨_, givenUp⟩
    · rw [same] at early
      obtain ⟨pendingNone, idle⟩ := known.unoccupied early
      constructor
      · cases pendingEq : k.pending with
        | none => rfl
        | some pending =>
          rcases (retreat.pending pending pendingEq).2 with held | ⟨former, held, _⟩
          · rw [pendingNone] at held
            cases held
          · rw [pendingNone] at held
            cases held
      · rcases retreat.completion with sameCompletion | nowIdle
        · exact sameCompletion.trans idle
        · exact nowIdle
    · exact absurd givenUp early.not_givenUp

theorem withStage {stage : Stage} {resumeChan : Option (Conn × Bool)} {inconsistent : Bool}
    {pool : SenderPool} (notServing : s.sender.stage ≠ .serving)
    (unoccupied : stage.Early → s.sender.pending = none ∧ s.sender.completion = .idle) :
    Ordered
      { s with
        sender :=
          { s.sender with
            stage := stage
            resumeChan := resumeChan
            inconsistent := inconsistent
            pool := pool }
        toSender := toSender
        nextClaim := nextClaim } := by
  refine known.withSender rfl rfl (fun refill member => .inl ⟨refill, member, rfl⟩) ?_ ?_ unoccupied
  · exact fun serving => absurd serving notServing
  · exact fun healthy => absurd healthy (known.not_healthy notServing)

theorem established {conn : Conn} (offline : s.sender.stage = .offline)
    (unused : s.sender.used ≤ conn) (announced : conn < s.nextConn) :
    Ordered { s with sender := s.sender.establish conn, toSender := [] } where
  controlUsed := by
    intro other current
    cases current
    exact Nat.lt_succ_self conn
  usedKnown := announced
  servedKnown := known.servedKnown
  payloadUsed := by
    intro payload flying
    have earlier := known.payloadUsed payload flying
    exact Nat.lt_succ_of_lt (Nat.lt_of_lt_of_le earlier unused)
  refillUsed := by
    intro refill member
    have earlier := known.refillUsed refill member
    exact Nat.lt_succ_of_lt (Nat.lt_of_lt_of_le earlier unused)
  payloadServing := by
    intro payload flying current
    have earlier := Nat.lt_of_lt_of_le (known.payloadUsed payload flying) unused
    cases current
    exact absurd earlier (Nat.lt_irrefl _)
  refillServing := by
    intro refill member current
    have earlier := Nat.lt_of_lt_of_le (known.refillUsed refill member) unused
    cases current
    exact absurd earlier (Nat.lt_irrefl _)
  healthyServing := by
    intro healthy
    have serving := known.healthyServing healthy
    rw [offline] at serving
    cases serving
  unoccupied := fun _ => known.unoccupied (.inl offline)

theorem tornDown (quiet : s.sender.completion = .idle) :
    Ordered { s with sender := s.sender.tearDownControl } := by
  obtain ⟨retreat, dropped⟩ := s.sender.suspendOTPoolForReconnect_retreats
  exact
    { known with
      controlUsed := nofun
      usedKnown := by
        change s.sender.suspendOTPoolForReconnect.used ≤ s.nextConn
        rw [retreat.used]
        exact known.usedKnown
      payloadUsed := by
        intro payload flying
        change payload.conn < s.sender.suspendOTPoolForReconnect.used
        rw [retreat.used]
        exact known.payloadUsed payload flying
      refillUsed := by
        intro refill member
        obtain ⟨former, present, same⟩ := retreat.refills refill member
        change refill.origin < s.sender.suspendOTPoolForReconnect.used
        rw [retreat.used, same]
        exact known.refillUsed former present
      payloadServing := nofun
      refillServing := nofun
      healthyServing := nofun
      unoccupied := by
        intro _
        refine ⟨dropped, ?_⟩
        change s.sender.suspendOTPoolForReconnect.completion = .idle
        rcases retreat.completion with same | idle
        · rw [same]
          exact quiet
        · exact idle }

theorem started {isInitial : Bool} {claim : Option Nat} {origin : Conn}
    {k : SenderNode} {message : PrecomputeBegin} {stage : Stage} {refills : List Refill}
    {lineage : Lineages} (starts : s.Starts isInitial claim origin k message stage refills) :
    Ordered
      ((s.starting k stage refills lineage).sendToReceiver [.precomputeBegin message]) := by
  have begun := starts.begun
  have staged : stage = .serving ∧ s.sender.stage = .serving ∨
      s.sender.stage ≠ .serving ∧ ¬ stage.Early := by
    cases isInitial with
    | true =>
      obtain ⟨before, after⟩ := starts.initially rfl
      rw [before, after]
      refine .inr ⟨Stage.noConfusion, ?_⟩
      simp [Stage.Early]
    | false =>
      rcases starts.extending rfl with ⟨held, before, after⟩ | ⟨same, refill, member, origined⟩
      · rw [before, after]
        refine .inr ⟨Stage.noConfusion, ?_⟩
        simp [Stage.Early]
      · have serving := known.refillServing refill member (by rw [origined]; exact begun.current)
        exact .inl ⟨same.trans serving, serving⟩
  have servingKept : s.sender.stage = .serving → stage = .serving := by
    intro serving
    rcases staged with ⟨after, _⟩ | ⟨notServing, _⟩
    · exact after
    · exact absurd serving notServing
  refine Ordered.sent
    (known.withSender begun.control begun.used ?_ servingKept ?_ ?_)
  · intro refill member
    exact .inl (starts.refilled refill member)
  · intro healthy
    exact servingKept (known.healthyServing (begun.healthy ▸ healthy))
  · intro early
    rcases staged with ⟨after, _⟩ | ⟨_, notEarly⟩
    · exact absurd after early.not_serving
    · exact absurd early notEarly

theorem reserved {conn : Conn} (current : s.sender.control = some conn)
    (healthy : s.sender.controlHealthy = true) : Ordered (s.reserving conn) := by
  have serving := known.healthyServing healthy
  obtain ⟨pool, refills, node, refilled, _⟩ :=
    s.sender.reserveOTEntriesForSession_frame s.nextClaim conn
  have flown : ∀ payload, payload ∈ (s.sender.reserveOTEntriesForSession s.nextClaim conn).2.toList ∨
      s.InFlight payload → payload.conn < s.sender.used := by
    rintro payload (now | earlier)
    · have fresh := (SenderNode.reserveOTEntriesForSession_payload
        (Option.mem_toList.mp now)).1
      rw [fresh]
      exact known.controlUsed conn current
    · exact known.payloadUsed payload earlier
  rw [System.reserving, node]
  exact
    { known with
      payloadUsed := by
        rintro payload (sent | waits)
        · rcases List.mem_append.mp sent with now | earlier
          · exact flown payload (.inl now)
          · exact flown payload (.inr (.inl earlier))
        · exact flown payload (.inr (.inr waits))
      refillUsed := by
        intro refill member
        rcases refilled refill member with earlier | now
        · exact known.refillUsed refill earlier
        · rw [now]
          exact known.controlUsed conn current
      payloadServing := fun _ _ _ => serving
      refillServing := fun _ _ _ => serving
      healthyServing := fun _ => serving
      unoccupied := fun early => absurd serving early.not_serving }

theorem answered {data : ResponseData} {rest : List Response} {k : SenderNode}
    {requests : List Request} (answer : s.sender.Answered E data (.ok k requests)) :
    Ordered
      (System.sendToReceiver
        { s with
          sender := k
          toSender := rest } requests) := by
  obtain ⟨pending, phase, completion, held, node, _⟩ := answer.advances
  subst node
  refine Ordered.sent (known.withSender rfl rfl
    (fun refill member => .inl ⟨refill, member, rfl⟩) id known.healthyServing ?_)
  exact fun early => absurd early (known.late (.inl (by simp [held])))

theorem move (healthy : HealthyReservation s action)
    (moved : s.Move E action next) : Ordered next := by
  cases moved with
  | activated =>
    refine known.withReceiver (Nat.le_succ _) ?_ fun _ => id
    intro conn served
    have fresh : some s.nextConn = some conn := served
    cases fresh
    exact Nat.lt_succ_self _
  | parted =>
    exact known.withReceiver (Nat.le_refl _) nofun
      fun _ => id
  | @received conn request rest outcome served opened first handled =>
    obtain ⟨isOpen, toSender, same⟩ := System.afterReceiver_eq { s with toReceiver := rest } outcome
    rw [same]
    refine known.withReceiver (Nat.le_refl _) ?_ fun _ => id
    intro other current
    apply known.servedKnown
    rw [← handled.control]
    exact current
  | paused pause online_kept waiting_kept taken =>
    refine known.withReceiver (Nat.le_refl _) ?_ ?_
    · intro conn served
      apply known.servedKnown
      rw [← pause.control]
      exact served
    · rintro payload (sent | ⟨waiter, waits, same⟩)
      · exact online_kept payload sent
      · exact same ▸ waiting_kept waiter waits
  | retreated retreat read recorded => exact known.retreated retreat
  | established offline unused announced => exact known.established offline unused announced
  | tornDown quiet => exact known.tornDown quiet
  | resumeSent connected ready =>
    have early : s.sender.stage.Early := .inr (.inl connected)
    exact Ordered.sent (known.withStage early.not_serving fun _ => known.unoccupied early)
  | resumeAnswered resuming | resumed resuming =>
    have early : s.sender.stage.Early := .inr (.inr resuming)
    exact known.withStage early.not_serving fun _ => known.unoccupied early
  | claimed resumed =>
    refine known.withStage ?_ ?_
    · rw [resumed]
      exact Stage.noConfusion
    · simp [Stage.Early]
  | served from_stage refilled =>
    refine known.withSender rfl rfl ?_ (fun _ => rfl) (fun _ => rfl) ?_
    · intro refill member
      exact (refilled refill member).imp id fun current => ⟨current, rfl⟩
    · simp [Stage.Early, SenderNode.serve]
  | started starts => exact known.started starts
  | answered quiet first answer => exact known.answered answer
  | announced verified =>
    refine Ordered.sent (known.withSender rfl rfl
      (fun refill member => .inl ⟨refill, member, rfl⟩) id known.healthyServing ?_)
    exact fun early => absurd early (known.late (.inr (by simp [verified])))
  | committed announced commits =>
    refine known.withSender commits.control commits.used ?_ ?_ ?_ ?_
    · intro refill member
      exact .inl ⟨refill, commits.refills ▸ member, rfl⟩
    · exact fun serving => commits.stage.trans serving
    · intro nowHealthy
      exact commits.stage.trans (known.healthyServing (commits.healthy ▸ nowHealthy))
    · rw [commits.stage]
      exact fun early => absurd early (known.late (.inr (by simp [announced])))
  | reserved reserves current => exact known.reserved current (healthy reserves)

end Ordered

end ReclaimTee.Precompute
