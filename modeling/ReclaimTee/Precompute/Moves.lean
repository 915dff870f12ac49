/-
The moves of the joint system. Every step of either node is one of these moves,
so an invariant needs one argument for each move and never unfolds a step.
-/

import ReclaimTee.Precompute.ReceiverSpec
import ReclaimTee.Precompute.SenderSpec
import ReclaimTee.Precompute.System

namespace ReclaimTee.Precompute

open ReclaimTee.Mpc SenderNode List Retreats

namespace System

variable {E : Extension} {s next : System} {action : Action}

section Sending

variable (s : System) (requests : List Request) (responses : List Response)

theorem sendToReceiver_eq :
    ∃ toReceiver, s.sendToReceiver requests = { s with toReceiver := toReceiver } ∧
      ∀ request ∈ toReceiver, request ∈ s.toReceiver ∨
        s.sender.control = s.receiver.control ∧ request ∈ requests := by
  unfold sendToReceiver
  split
  · rename_i linked
    exact ⟨_, rfl, fun _ member => (mem_append.mp member).imp id fun sent => ⟨linked, sent⟩⟩
  · exact ⟨s.toReceiver, rfl, fun _ member => .inl member⟩

theorem sendToSender_eq :
    ∃ toSender, s.sendToSender responses = { s with toSender := toSender } ∧
      ∀ response ∈ toSender, response ∈ s.toSender ∨
        s.sender.control = s.receiver.control ∧ response ∈ responses := by
  unfold sendToSender
  split
  · rename_i linked
    exact ⟨_, rfl, fun _ member => (mem_append.mp member).imp id fun sent => ⟨linked, sent⟩⟩
  · exact ⟨s.toSender, rfl, fun _ member => .inl member⟩

theorem afterReceiver_eq (outcome : Outcome ReceiverNode Response) :
    ∃ isOpen toSender, s.afterReceiver outcome =
      { s with
        receiver := { outcome.node with isOpen := isOpen }
        toSender := toSender } := by
  obtain ⟨toSender, same, _⟩ := sendToSender_eq
    { s with receiver := if outcome.failure.isSome then { outcome.node with isOpen := false }
        else outcome.node } outcome.messages
  refine ⟨if outcome.failure.isSome then false else outcome.node.isOpen, toSender, ?_⟩
  rw [afterReceiver, same]
  split <;> rfl

@[simp] theorem sendToReceiver_sender : (s.sendToReceiver requests).sender = s.sender := by
  unfold sendToReceiver
  split <;> rfl

@[simp] theorem sendToReceiver_nil : s.sendToReceiver [] = s := by
  unfold sendToReceiver
  split
  · rw [append_nil]
  · rfl

end Sending

/-- The registry is as it was, or has one more session. -/
inductive Recorded (s : System) : Session → Registry Session (List Batch) → Prop
  | same : Recorded s s.nextSession s.lineage
  | new (batches : List Batch) :
      Recorded s (s.nextSession + 1) (s.lineage.record s.nextSession batches)

def InFlight (s : System) (payload : Payload) : Prop :=
  payload ∈ s.online ∨ ∃ waiter ∈ s.waiting, waiter.payload = payload

/-- Entries that the receiver takes for a payload in flight. -/
structure Takes (s : System) (consumption : Consumption) : Prop where
  inFlight : s.InFlight consumption.payload
  served : s.receiver.control = some consumption.payload.conn
  window : ∀ E, s.receiver.Backed E →
    consumption.payload.startIndex + otsPerOPRF ≤ (E.receivedAll s.receiver.batches).length ∧
      consumption.entries = ((E.receivedAll s.receiver.batches).drop
        consumption.payload.startIndex).take otsPerOPRF

abbrev reserving (s : System) (conn : Conn) : System :=
  { s with
    sender := (s.sender.reserveOTEntriesForSession s.nextClaim conn).1
    nextClaim := s.nextClaim + 1
    online := (s.sender.reserveOTEntriesForSession s.nextClaim conn).2.toList ++ s.online }

/-- The state in which a batch has been started, before its first message. -/
abbrev starting (s : System) (k : SenderNode) (stage : Stage) (refills : List Refill)
    (lineage : Registry Session (List Batch)) : System :=
  { s with
    sender :=
      { k with stage := stage, refills := refills }
    nextSession := s.nextSession + 1
    lineage := lineage }

/-- The state with another sender, and what only the sender reads or counts. -/
abbrev withSender (s : System) (k : SenderNode) (toSender : List Response) (nextSession : Session)
    (nextClaim : Nat) (lineage : Registry Session (List Batch)) : System :=
  { s with
    sender := k
    toSender := toSender
    nextSession := nextSession
    nextClaim := nextClaim
    lineage := lineage }

/-- The state in which the retained pool is offered, before the request. -/
abbrev resuming (s : System) : System :=
  { s with sender := { s.sender with stage := .resuming, resumeChan := none } }

/-- The supervisor starts the first batch or a refill, or a launched refill starts, with
no refill that was not there. -/
structure Starts (s : System) (isInitial : Bool) (claim : Option Nat) (origin : Conn)
    (k : SenderNode) (message : PrecomputeBegin) (stage : Stage) (refills : List Refill) :
    Prop where
  begun : s.sender.Started s.nextSession isInitial claim origin k message
  initially : isInitial = true → s.sender.stage = .fallback ∧ stage = .precomputing s.nextSession
  extending : isInitial = false →
    (∃ claim, s.sender.stage = .refillClaimed claim ∧ stage = .refilling claim s.nextSession) ∨
    stage = s.sender.stage ∧ ∃ refill ∈ s.sender.refills, refill.origin = origin
  refilled : ∀ refill ∈ refills, ∃ former ∈ s.sender.refills, refill.origin = former.origin

inductive Move (E : Extension) (s : System) (action : Action) : System → Prop
  | activated : Move E s action s.activate
  | parted :
      Move E s action { s with receiver := s.receiver.tearDownControlConnection, toReceiver := [] }
  | received {conn : Conn} {request : Request} {rest : List Request}
      {outcome : Outcome ReceiverNode Response} (served : s.receiver.control = some conn)
      (opened : s.receiver.isOpen = true) (first : s.toReceiver = request :: rest)
      (handled : s.receiver.Handled E conn request outcome) :
      Move E s action ({ s with toReceiver := rest }.afterReceiver outcome)
  | paused {t : ReceiverNode} {online : List Payload} {waiting : List Waiter}
      {consumed : List Consumption} (pause : s.receiver.Pauses t)
      (online_kept : ∀ payload ∈ online, s.InFlight payload)
      (waiting_kept : ∀ waiter ∈ waiting, s.InFlight waiter.payload)
      (taken : ∀ consumption ∈ consumed, consumption ∈ s.consumed ∨ s.Takes consumption) :
      Move E s action
        { s with receiver := t, online := online, waiting := waiting, consumed := consumed }
  | retreated {k : SenderNode} {rest : List Response} {nextSession : Session}
      {nextClaim : Nat} {lineage : Registry Session (List Batch)}
      (retreat : s.sender.Retreats k) (read : rest <:+ s.toSender)
      (recorded : Recorded s nextSession lineage) :
      Move E s action (s.withSender k rest nextSession nextClaim lineage)
  | established {conn : Conn} (offline : s.sender.stage = .offline)
      (unused : s.sender.used ≤ conn) (known : conn < s.nextConn) :
      Move E s action { s with sender := s.sender.establish conn, toSender := [] }
  | tornDown (quiet : s.sender.completion = .idle) :
      Move E s action { s with sender := s.sender.tearDownControl }
  | resumeSent (connected : s.sender.stage = .connected) (ready : s.sender.ready = true) :
      Move E s action
        (s.resuming.sendToReceiver [.resume s.sender.epoch s.sender.pool.nextIndex])
  | resumeAnswered {conn : Conn} {accepted : Bool} {rest : List Response}
      {resumeChan : Option (Conn × Bool)} (resuming : s.sender.stage = .resuming)
      (first : s.toSender = .resume accepted :: rest)
      (answer : resumeChan = some (conn, accepted) ∨ resumeChan = s.sender.resumeChan) :
      Move E s action
        { s with sender := { s.sender with resumeChan := resumeChan }, toSender := rest }
  | resumed {conn : Conn} (resuming : s.sender.stage = .resuming)
      (accepted : s.sender.resumeChan = some (conn, true)) :
      Move E s action
        { s with
          sender :=
            { s.sender with
              resumeChan := none
              inconsistent := false
              stage := .resumed } }
  | claimed {held : Option Nat} {claim nextClaim : Nat}
      (resumed : s.sender.stage = .resumed) :
      Move E s action
        { s with
          sender :=
            { s.sender with pool := s.sender.pool.withClaim held, stage := .refillClaimed claim }
          nextClaim := nextClaim }
  | served {held : Option Nat} {refills : List Refill} {nextClaim : Nat}
      (from_stage : s.sender.stage = .resumed ∨
        (∃ claim session, s.sender.stage = .refilling claim session) ∨
        ∃ session, s.sender.stage = .precomputing session)
      (refilled : ∀ refill ∈ refills, (∃ former ∈ s.sender.refills, refill.origin = former.origin) ∨
        s.sender.control = some refill.origin) :
      Move E s action
        { s with
          sender :=
            { s.sender.serve with pool := s.sender.pool.withClaim held, refills := refills }
          nextClaim := nextClaim }
  | started {isInitial : Bool} {claim : Option Nat} {origin : Conn}
      {k : SenderNode} {message : PrecomputeBegin} {stage : Stage} {refills : List Refill}
      (starts : s.Starts isInitial claim origin k message stage refills) :
      Move E s action
        ((s.starting k stage refills (s.lineage.record s.nextSession
          (k.batches ++ [message.batch]))).sendToReceiver [.precomputeBegin message])
  | answered {data : ResponseData} {count : Nat} {rest : List Response}
      {k : SenderNode} {requests : List Request} (quiet : s.sender.completion = .idle)
      (first : s.toSender = .precompute count data :: rest)
      (answer : s.sender.Answered E data (.ok k requests)) :
      Move E s action
        ({ s with sender := k, toSender := rest }.sendToReceiver requests)
  | announced {pending : SenderPrecompute}
      (verified : s.sender.completion = .verified pending) :
      Move E s action
        ({ s with sender := { s.sender with completion := .announced pending } }.sendToReceiver
          [.complete (pending.startIndex + (E.sent pending.batch).length)])
  | committed {pending : SenderPrecompute} {k : SenderNode}
      (announced : s.sender.completion = .announced pending)
      (commits : s.sender.Commits E pending k) :
      Move E s action { s with sender := k }
  | reserved {conn : Conn} (reserves : action = .reserve)
      (current : s.sender.control = some conn) : Move E s action (s.reserving conn)

/-! ### Every step is a move -/

variable {k : SenderNode} {position : Nat}

theorem Move.of_retreat (retreat : s.sender.Retreats k) : Move E s action { s with sender := k } :=
  Move.retreated retreat (suffix_refl _) Recorded.same

theorem attemptBatch_cases (s : System) (isInitial : Bool) (claim : Option Nat) (origin : Conn)
    (attempt : Attempt) :
    s.attemptBatch isInitial claim origin attempt = (s, none) ∨
    ∃ k message, s.sender.Started s.nextSession isInitial claim origin k message ∧
      (s.attemptBatch isInitial claim origin attempt =
          ({ s with
            sender := k.failPendingPrecompute s.nextSession
            nextSession := s.nextSession + 1
            lineage := s.lineage.record s.nextSession (k.batches ++ [message.batch]) }, none) ∨
        s.attemptBatch isInitial claim origin attempt =
          ({ s with
            sender := k
            nextSession := s.nextSession + 1
            lineage := s.lineage.record s.nextSession
              (k.batches ++ [message.batch]) }.sendToReceiver [.precomputeBegin message],
            some s.nextSession)) := by
  unfold attemptBatch
  split
  · exact .inl rfl
  split
  · exact .inl rfl
  rename_i k message startedEq
  refine .inr ⟨k, message, SenderNode.performOTPrecomputation_started startedEq, ?_⟩
  split
  · exact .inl rfl
  · exact .inr rfl

theorem sendToReceiver_update (s : System) (requests : List Request)
    (same : k.control = s.sender.control) :
    { s.sendToReceiver requests with sender := k } =
      { s with sender := k }.sendToReceiver requests := by
  unfold sendToReceiver
  rw [same]
  split
  · rfl
  · rfl

theorem setStage_sendToReceiver (s : System) (requests : List Request) (stage : Stage) :
    (s.sendToReceiver requests).setStage stage = (s.setStage stage).sendToReceiver requests := by
  rw [setStage, sendToReceiver_update, sendToReceiver_sender, setStage]
  rw [sendToReceiver_sender]

theorem startRefill_move {attempt : Attempt} (stepped : s.startRefill attempt = some next) :
    Move E s action next := by
  unfold startRefill at stepped
  split at stepped
  · rename_i claim conn stageEq controlEq
    rcases s.attemptBatch_cases false (some claim) conn attempt with
      refused | ⟨k, message, started, unsent | sent⟩
    · rw [refused] at stepped
      cases stepped
      have released := of_release s.sender claim
      exact .of_retreat (released.withStage stageEq (.inl rfl) _)
    · rw [unsent] at stepped
      cases stepped
      have released := started.unsent_refill.trans (of_release _ claim)
      exact .retreated (released.withStage stageEq (.inl rfl) _) (suffix_refl _) (Recorded.new _)
    · rw [sent] at stepped
      cases stepped
      rw [setStage_sendToReceiver]
      refine .started ⟨started, nofun, ?_, ?_⟩
      · intro _
        exact .inl ⟨claim, stageEq, rfl⟩
      · intro refill member
        exact ⟨refill, started.refills ▸ member, rfl⟩
  · cases stepped

theorem startInitial_move {attempt : Attempt} (stepped : s.startInitial attempt = some next) :
    Move E s action next := by
  unfold startInitial at stepped
  split at stepped
  · rename_i conn stageEq controlEq
    rcases s.attemptBatch_cases true none conn attempt with
      refused | ⟨k, message, started, unsent | sent⟩
    · rw [refused] at stepped
      cases stepped
      have closed := of_close s.sender
      exact .of_retreat (closed.withStage stageEq (.inr rfl) _)
    · rw [unsent] at stepped
      cases stepped
      exact .retreated (started.unsent_initial stageEq) (suffix_refl _) (Recorded.new _)
    · rw [sent] at stepped
      cases stepped
      rw [setStage_sendToReceiver]
      refine .started ⟨started, ?_, nofun, ?_⟩
      · intro _
        exact ⟨stageEq, rfl⟩
      · intro refill member
        exact ⟨refill, started.refills ▸ member, rfl⟩
  · cases stepped

theorem erased_refills (position : Nat) :
    ∀ refill ∈ k.refills.eraseIdx position, ∃ former ∈ k.refills, refill.origin = former.origin :=
  fun refill member => ⟨refill, mem_of_mem_eraseIdx member, rfl⟩

theorem dropLaunched_retreats (s : System) (position : Nat) (refill : Refill) :
    ∃ k, s.sender.Retreats k ∧ s.dropLaunched position refill = { s with sender := k } :=
  ⟨_, (of_recover s.sender refill.claim refill.origin).trans
    (of_refills _ (erased_refills position)), rfl⟩

theorem launch_move {attempt : Attempt}
    (stepped : s.launch position attempt = some next) : Move E s action next := by
  unfold launch at stepped
  split at stepped
  · cases stepped
  rename_i refill present
  have member : refill ∈ s.sender.refills := mem_of_getElem? present
  split at stepped
  · cases stepped
  rcases s.attemptBatch_cases false (some refill.claim) refill.origin attempt with
    refused | ⟨k, message, started, unsent | sent⟩
  · rw [refused] at stepped
    cases stepped
    obtain ⟨k, retreat, dropped⟩ := s.dropLaunched_retreats position refill
    rw [dropped]
    exact .of_retreat retreat
  · rw [unsent] at stepped
    cases stepped
    refine .retreated (started.unsent_refill.trans ?_) (suffix_refl _)
      (Recorded.new _)
    exact (of_recover _ refill.claim refill.origin).trans
      (of_refills _ (erased_refills position))
  · rw [sent] at stepped
    cases stepped
    rw [sendToReceiver_update, sendToReceiver_sender]
    · refine .started ⟨started, nofun, ?_, ?_⟩
      · intro _
        exact .inr ⟨started.stage, refill, member, rfl⟩
      · intro other otherMember
        rw [started.refills] at otherMember
        rcases mem_or_eq_of_mem_set otherMember with earlier | now
        · exact ⟨other, earlier, rfl⟩
        · exact ⟨refill, member, by rw [now]⟩
    · rw [sendToReceiver_sender]

theorem launchedFails_move (stepped : s.launchedFails position = some next) :
    Move E s action next := by
  unfold launchedFails at stepped
  split at stepped
  · rename_i refill present
    split at stepped <;> cases stepped
    rename_i session waiting
    obtain ⟨k, retreat, dropped⟩ := dropLaunched_retreats
      { s with sender := s.sender.failPendingPrecompute session } position refill
    rw [dropped]
    exact .of_retreat ((of_failPending s.sender session).trans retreat)
  · cases stepped

theorem launchedDone_move (stepped : s.launchedDone position = some next) :
    Move E s action next := by
  unfold launchedDone at stepped
  split at stepped
  · split at stepped <;> cases stepped
    exact .of_retreat (of_refills s.sender (erased_refills position))
  · cases stepped

theorem Move.of_error {rest : List Response} {text : String}
    (retreat : s.sender.Retreats k) (read : rest <:+ s.toSender) :
    Move E s action ({ s with toSender := rest }.afterSender (.error k text)) := by
  unfold afterSender
  dsimp only [Outcome.error, Option.isSome]
  rw [sendToReceiver_nil]
  exact .retreated (retreat.trans (of_close k)) read Recorded.same

theorem respond_move {fails : Bool} (stepped : s.respond E fails = some next) :
    Move E s action next := by
  unfold respond at stepped
  split at stepped
  · rename_i conn response rest controlEq first
    have read : rest <:+ s.toSender := by
      rw [first]
      exact suffix_cons response rest
    split at stepped
    · rename_i idleOpen
      split at stepped
      · rename_i count data
        cases stepped
        have answer := s.sender.handleOTPrecomputeResponse_answered E count data fails
        generalize s.sender.handleOTPrecomputeResponse E count data fails = outcome at answer
        cases answer with
        | failed retreat => exact .of_error retreat read
        | chose held phase => exact .answered idleOpen.2 first (.chose held phase)
        | challenged held phase => exact .answered idleOpen.2 first (.challenged held phase)
        | verified held phase => exact .answered idleOpen.2 first (.verified held phase)
      · rename_i accepted
        cases stepped
        unfold SenderNode.handleOTResumeResponse
        split
        · rename_i resuming
          unfold afterSender
          dsimp only [Outcome.ok, Option.isSome]
          rw [sendToReceiver_nil]
          refine .resumeAnswered resuming first
            (?_ : _ = some (conn, accepted) ∨ _ = s.sender.resumeChan)
          cases s.sender.resumeChan with
          | none => exact .inl rfl
          | some waiting => exact .inr rfl
        · exact .of_error (refl s.sender) read
    · cases stepped
  · cases stepped

theorem announce_move {fails : Bool} (stepped : s.announce E fails = some next) :
    Move E s action next := by
  unfold announce at stepped
  split at stepped <;> cases stepped
  rename_i pending verified
  rcases s.sender.sendOTPrecomputeComplete_cases E pending fails with
    ⟨k, text, retreat, _, failed⟩ | sent
  · rw [failed]
    exact .of_error retreat (suffix_refl _)
  · rw [sent]
    exact .announced verified

theorem commit_move (stepped : s.commit E = some next) : Move E s action next := by
  unfold commit at stepped
  split at stepped <;> cases stepped
  rename_i pending announced
  rcases s.sender.commitSenderPrecompute_cases E pending with
    ⟨k, text, retreat, _, failed⟩ | ⟨k, commits, committed⟩
  · rw [failed]
    exact .of_error retreat (suffix_refl _)
  · rw [committed]
    unfold afterSender
    dsimp only [Outcome.ok, Option.isSome]
    rw [sendToReceiver_nil]
    exact .committed announced commits

theorem establish_move {conn : Conn} (stepped : s.establish conn = some next) :
    Move E s action next := by
  unfold establish at stepped
  split at stepped <;> cases stepped
  rename_i allowed
  exact .established allowed.1 allowed.2.1 allowed.2.2

theorem tearDownSender_move (stepped : s.tearDownSender = some next) : Move E s action next := by
  unfold tearDownSender at stepped
  split at stepped <;> cases stepped
  rename_i allowed
  exact .tornDown allowed.2.1

theorem tryResume_move {fails : Bool} (stepped : s.tryResume fails = some next) :
    Move E s action next := by
  unfold tryResume at stepped
  split at stepped <;> cases stepped
  rename_i connected
  have givenUp := (refl s.sender).withStage connected (.inl rfl)
  unfold tryResumeOTPool
  split
  · rename_i resumable
    split
    · dsimp only
      rw [sendToReceiver_nil]
      exact .of_retreat (givenUp none)
    · simp only [hasResumablePool, Bool.and_eq_true] at resumable
      exact .resumeSent connected resumable.1.1
  · dsimp only
    rw [sendToReceiver_nil]
    exact .of_retreat (givenUp s.sender.resumeChan)

theorem resumeResult_move (stepped : s.resumeResult = some next) : Move E s action next := by
  unfold resumeResult at stepped
  split at stepped <;> cases stepped
  rename_i result resuming answered
  obtain ⟨conn, accepted⟩ := result
  unfold takeResumeResult
  dsimp only
  split
  · rename_i current
    rw [current.2] at answered
    exact .resumed resuming answered
  · exact .of_retreat ((refl s.sender).withStage resuming (.inl rfl) none)

theorem resumeTimeout_move (stepped : s.resumeTimeout = some next) : Move E s action next := by
  unfold resumeTimeout at stepped
  split at stepped <;> cases stepped
  rename_i resuming
  exact .of_retreat ((refl s.sender).withStage resuming (.inl rfl) s.sender.resumeChan)

theorem ensureUsable_move (stepped : s.ensureUsable = some next) : Move E s action next := by
  unfold ensureUsable at stepped
  split at stepped <;> cases stepped
  rename_i conn resumed current
  obtain ⟨held, dropped | ⟨claim, claimed⟩ | ⟨refills, refilled, served⟩⟩ :=
    s.sender.ensureResumedOTPoolUsable_cases s.nextClaim conn
  · rw [dropped]
    exact .retreated ((refl s.sender).withStage resumed (.inl rfl) s.sender.resumeChan)
      (suffix_refl _) Recorded.same
  · rw [claimed]
    exact .claimed resumed
  · rw [served]
    refine .served (.inl resumed) ?_
    intro refill member
    rcases refilled refill member with earlier | now
    · exact .inl ⟨refill, earlier, rfl⟩
    · rw [now]
      exact .inr current

theorem serve_move (from_stage : (∃ claim session, s.sender.stage = .refilling claim session) ∨
      ∃ session, s.sender.stage = .precomputing session) :
    Move E s action { s with sender := s.sender.serve } :=
  have moved : Move E s action
      { s with
        sender :=
          { s.sender.serve with
            pool := s.sender.pool.withClaim s.sender.pool.extendClaim } } :=
    Move.served (.inr from_stage) fun refill member => .inl ⟨refill, member, rfl⟩
  moved

theorem refillDone_move (stepped : s.refillDone = some next) : Move E s action next := by
  unfold refillDone at stepped
  split at stepped
  · rename_i claim session stageEq
    split at stepped <;> cases stepped
    exact serve_move (.inl ⟨claim, session, stageEq⟩)
  · cases stepped

theorem initialDone_move (stepped : s.initialDone = some next) : Move E s action next := by
  unfold initialDone at stepped
  split at stepped
  · rename_i session stageEq
    split at stepped <;> cases stepped
    exact serve_move (.inr ⟨session, stageEq⟩)
  · cases stepped

theorem refillFails_move (stepped : s.refillFails = some next) : Move E s action next := by
  unfold refillFails at stepped
  split at stepped <;> cases stepped
  rename_i claim session stageEq
  have released := (of_failPending s.sender session).trans (of_release _ claim)
  exact .of_retreat (released.withStage stageEq (.inl rfl) _)

theorem initialFails_move (stepped : s.initialFails = some next) : Move E s action next := by
  unfold initialFails at stepped
  split at stepped <;> cases stepped
  rename_i session stageEq
  have closed := (of_failPending s.sender session).trans (of_close _)
  exact .of_retreat (closed.withStage stageEq (.inr rfl) _)

theorem receive_move {fails : Bool} (stepped : s.receive E fails = some next) :
    Move E s action next := by
  unfold receive at stepped
  split at stepped
  · rename_i conn request rest served first
    split at stepped <;> cases stepped
    rename_i opened
    exact .received served opened first
      (s.receiver.handleControlMessage_handled E conn fails request)
  · cases stepped

theorem Move.of_taken {payload : Payload} {entries : List ReceiverOT} {t : ReceiverNode}
    {online : List Payload} {waiting : List Waiter} (inFlight : s.InFlight payload)
    (served : s.receiver.control = some payload.conn)
    (online_kept : ∀ other ∈ online, s.InFlight other)
    (waiting_kept : ∀ waiter ∈ waiting, s.InFlight waiter.payload)
    (took : s.receiver.takeEntries payload.startIndex otsPerOPRF = .ok (entries, t)) :
    Move E s action
      ({ s with
        online := online
        waiting := waiting }.recordConsumed payload entries t) := by
  refine .paused (ReceiverNode.takeEntries_spec (E := E) took).1 online_kept waiting_kept ?_
  intro consumption member
  rcases mem_cons.mp member with now | earlier
  · subst now
    exact .inr
      { inFlight := inFlight
        served := served
        window := fun _ backed => (ReceiverNode.takeEntries_spec took).2 backed }
  · exact .inl earlier

theorem deliverOnline_move (stepped : s.deliverOnline position = some next) :
    Move E s action next := by
  unfold deliverOnline at stepped
  split at stepped
  · cases stepped
  rename_i payload present
  have inFlight : s.InFlight payload := .inl (mem_of_getElem? present)
  have online_kept : ∀ other ∈ s.online.eraseIdx position, s.InFlight other :=
    fun other member => .inl (mem_of_mem_eraseIdx member)
  have waiting_kept : ∀ waiter ∈ s.waiting, s.InFlight waiter.payload :=
    fun waiter member => .inr ⟨waiter, member, rfl⟩
  split at stepped
  · rename_i served
    dsimp only at stepped
    split at stepped
    · cases stepped
      exact .paused (ReceiverNode.Pauses.refl s.receiver) online_kept waiting_kept
        fun _ => .inl
    · cases stepped
      refine .paused (ReceiverNode.Pauses.refl s.receiver) online_kept ?_ fun _ => .inl
      intro waiter member
      rcases mem_cons.mp member with now | earlier
      · subst now
        exact inFlight
      · exact waiting_kept waiter earlier
    · rename_i entries node took
      cases stepped
      exact .of_taken inFlight served online_kept waiting_kept
        (ReceiverNode.consumeOTReceiverEntries_took took)
  · cases stepped

theorem wake_move (stepped : s.wake position = some next) : Move E s action next := by
  unfold wake at stepped
  split at stepped
  · cases stepped
  rename_i waiter present
  have inFlight : s.InFlight waiter.payload := .inr ⟨waiter, mem_of_getElem? present, rfl⟩
  have online_kept : ∀ other ∈ s.online, s.InFlight other := fun other member => .inl member
  have waiting_kept : ∀ other ∈ s.waiting.eraseIdx position, s.InFlight other.payload :=
    fun other member => .inr ⟨other, mem_of_mem_eraseIdx member, rfl⟩
  have unchanged : Move E s action { s with waiting := s.waiting.eraseIdx position } :=
    Move.paused (ReceiverNode.Pauses.refl s.receiver) online_kept waiting_kept fun _ => .inl
  split at stepped
  · cases stepped
  dsimp only at stepped
  split at stepped
  · rename_i current
    split at stepped
    · cases stepped
      exact unchanged
    · rename_i entries node took
      cases stepped
      exact .of_taken inFlight current.1 online_kept waiting_kept took
  · cases stepped
    exact unchanged

theorem step_move (stepped : step E s action = some next) : Move E s action next := by
  cases action with
  | activate =>
    cases stepped
    exact .activated
  | closeReceiver =>
    cases stepped
    exact .paused (ReceiverNode.Pauses.of_close s.receiver) (fun _ => .inl)
      (fun waiter member => .inr ⟨waiter, member, rfl⟩) fun _ => .inl
  | tearDownReceiver =>
    cases stepped
    exact .parted
  | receive fails => exact receive_move stepped
  | establish conn => exact establish_move stepped
  | closeSender =>
    cases stepped
    exact .of_retreat (of_close s.sender)
  | tearDownSender => exact tearDownSender_move stepped
  | tryResume fails => exact tryResume_move stepped
  | resumeResult => exact resumeResult_move stepped
  | resumeTimeout => exact resumeTimeout_move stepped
  | ensureUsable => exact ensureUsable_move stepped
  | startRefill attempt => exact startRefill_move stepped
  | refillDone => exact refillDone_move stepped
  | refillFails => exact refillFails_move stepped
  | startInitial attempt => exact startInitial_move stepped
  | initialDone => exact initialDone_move stepped
  | initialFails => exact initialFails_move stepped
  | launch position attempt => exact launch_move stepped
  | launchedDone position => exact launchedDone_move stepped
  | launchedFails position => exact launchedFails_move stepped
  | respond fails => exact respond_move stepped
  | announce fails => exact announce_move stepped
  | commit => exact commit_move stepped
  | reserve =>
    change s.reserve = some next at stepped
    unfold reserve at stepped
    split at stepped <;> cases stepped
    rename_i conn current
    exact .reserved rfl current
  | abandon conn =>
    cases stepped
    exact .of_retreat (of_abandon s.sender conn)
  | online position => exact deliverOnline_move stepped
  | wake position => exact wake_move stepped

end System

end ReclaimTee.Precompute
