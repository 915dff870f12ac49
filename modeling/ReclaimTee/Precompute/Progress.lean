/-
Progress of one initial batch: from any state in which the two nodes serve the
same idle connection, its messages lead both nodes to pools that hold exactly
that batch.
-/

import ReclaimTee.Mpc.PoolLedger
import ReclaimTee.Precompute.System

namespace ReclaimTee.Precompute

open ReclaimTee.Mpc SenderPool

/-! ### Pools filled by one batch -/

def filledSender (E : Extension) (batch : Batch) : SenderPool :=
  { new with entries := E.sent batch }

def filledReceiver (E : Extension) (batch : Batch) : ReceiverPool :=
  { ReceiverPool.new with
    entries := E.received batch
    used := List.replicate (E.received batch).length false
    availableCount := (E.received batch).length }

def initialBatch (session : Session) : Batch :=
  { session := session, startIndex := 0, count := otPoolInitialSize }

section Filled

variable (E : Extension) (session : Session)

theorem sent_length (batch : Batch) : (E.sent batch).length = batch.count := by
  have lengths := congrArg List.length (E.sentIndices batch)
  rwa [List.length_map, List.length_range'] at lengths

theorem received_length (batch : Batch) : (E.received batch).length = batch.count :=
  (E.paired batch).length_eq.symm.trans (sent_length E batch)

theorem received_ne_nil : E.received (initialBatch session) ≠ [] := by
  intro impossible
  have lengths := received_length E (initialBatch session)
  rw [impossible] at lengths
  exact Nat.succ_ne_zero _ lengths.symm

theorem received_indices (batch : Batch) :
    (E.received batch).map ReceiverOT.index = List.range' batch.startIndex batch.count := by
  rw [← E.sentIndices batch]
  have paired := E.paired batch
  generalize E.sent batch = sent at paired
  generalize E.received batch = received at paired
  induction paired with
  | nil => rfl
  | cons head _ ih => rw [List.map_cons, List.map_cons, head.sameIndex, ih]

theorem initial_fits : checkedIndexEnd 0 (otPoolInitialSize : Nat) = .ok otPoolInitialSize := by
  decide

theorem initial_continues : Continues 0 (List.range' 0 otPoolInitialSize) where
  fits := by
    rw [List.length_range']
    decide
  consecutive := by rw [List.length_range']

theorem sender_add_initial :
    new.add (E.sent (initialBatch session)) =
      .ok (filledSender E (initialBatch session)) := by
  refine (add_eq_ok_iff new_refines _).mpr ⟨?_, rfl⟩
  rw [E.sentIndices]
  exact initial_continues

theorem receiver_add_initial :
    ReceiverPool.new.add (E.received (initialBatch session)) =
      .ok (filledReceiver E (initialBatch session)) := by
  refine (ReceiverPool.add_eq_ok_iff ReceiverPool.new_refines _).mpr ⟨?_, ?_⟩
  · rw [received_indices]
    exact initial_continues
  · rw [filledReceiver]
    simp [ReceiverPool.new]

theorem filledSender_refines :
    (filledSender E (initialBatch session)).Refines
      (Ledger.empty.append (E.sent (initialBatch session))) :=
  (add_refines new_refines (sender_add_initial E session)).1

theorem filledReceiver_refines :
    (filledReceiver E (initialBatch session)).Refines
      (Ledger.empty.append (E.received (initialBatch session))) :=
  (ReceiverPool.add_refines ReceiverPool.new_refines (receiver_add_initial E session)).1

theorem initial_window :
    (filledSender E (initialBatch session)).nextIndex + otsPerOPRF ≤
        (Ledger.empty.append (E.sent (initialBatch session))).history.length ∧
      (Ledger.empty.append (E.received (initialBatch session))).Free 0 otsPerOPRF := by
  have fits : 0 + otsPerOPRF ≤ otPoolInitialSize := by decide
  refine ⟨?_, ?_, fun _ _ _ => id⟩
  · rw [Ledger.append_history, Ledger.empty, List.nil_append, sent_length]
    exact fits
  · rw [Ledger.append_history, Ledger.empty, List.nil_append, received_length]
    exact fits

theorem filledSender_available :
    (filledSender E (initialBatch session)).available = otPoolInitialSize := by
  rw [available, (filledSender_refines E session).total_eq]
  change (E.sent (initialBatch session)).length - 0 = _
  rw [sent_length]
  rfl

end Filled

/-- An extension whose labels tell the sessions apart. -/
def Extension.labelled (label : Session → Label) : Extension where
  sent batch := (List.range' batch.startIndex batch.count).map fun index =>
    { r0 := label batch.session, r1 := label batch.session, index := index }
  received batch := (List.range' batch.startIndex batch.count).map fun index =>
    { r := label batch.session, index := index, choice := false }
  sentIndices batch := by
    rw [List.map_map]
    exact List.map_id _
  paired batch := by
    rw [List.forall₂_map_left_iff, List.forall₂_map_right_iff, List.forall₂_same]
    intro index _
    exact ⟨rfl, rfl⟩

/-! ### The messages of the batch -/

namespace System

/-- Both nodes serve the connection, and the sender is about to rebuild its pool. -/
structure Idle (s : System) (conn : Conn) : Prop where
  sender : s.sender.control = some conn
  receiver : s.receiver.control = some conn
  senderOpen : s.sender.isOpen = true
  receiverOpen : s.receiver.isOpen = true
  stage : s.sender.stage = .fallback
  unoccupied : s.sender.pending = none
  quiet : s.sender.completion = .idle
  toReceiver : s.toReceiver = []
  toSender : s.toSender = []

def initialPending (s : System) (conn : Conn) (phase : SenderPhase) : SenderPrecompute :=
  { session := s.nextSession
    count := otPoolInitialSize
    startIndex := 0
    isInitial := true
    phase := phase
    conn := conn
    extendClaim := none }

def initialBegin (s : System) : PrecomputeBegin :=
  { session := s.nextSession
    startIndex := 0
    count := otPoolInitialSize
    epoch := some (.initial s.nextSession)
    isInitial := true }

def initialContinuation (s : System) : Continuation :=
  { session := s.nextSession
    count := otPoolInitialSize
    epoch := some (.initial s.nextSession)
    isInitial := true }

/-- The sender during the batch, and the receiver once it has the first message. -/
def building (s : System) (conn : Conn) (phase : SenderPhase) (completion : Completion) :
    SenderNode :=
  { s.sender with
    stage := .precomputing s.nextSession
    epoch := some (.initial s.nextSession)
    pool := new
    ready := false
    batches := []
    pending := some (s.initialPending conn phase)
    completion := completion }

def answering (s : System) (conn : Conn) (entries : List ReceiverOT) (phase : ReceiverPhase) :
    ReceiverNode :=
  { s.receiver.renewed (some (.initial s.nextSession)) with
    pending := some
      { message := s.initialBegin
        conn := conn
        entries := entries
        phase := phase } }

def during (s : System) (k : SenderNode) (t : ReceiverNode) (toReceiver : List Request)
    (toSender : List Response) : System :=
  { s with
    sender := k
    receiver := t
    toReceiver := toReceiver
    toSender := toSender
    nextSession := s.nextSession + 1
    lineage := s.lineage.record s.nextSession [initialBatch s.nextSession] }

variable {E : Extension} {s : System} {conn : Conn}

/-- The sender after its commit, and the receiver after its own. -/
def filled (E : Extension) (s : System) (stage : Stage) : SenderNode :=
  { s.sender with
    stage := stage
    epoch := some (.extension s.nextSession)
    pool := filledSender E (initialBatch s.nextSession)
    ready := true
    inconsistent := false
    committed := s.nextSession :: s.sender.committed
    batches := [initialBatch s.nextSession]
    pending := none
    completion := .idle }

def matched (E : Extension) (s : System) : ReceiverNode :=
  { s.receiver with
    stateID := s.receiver.stateID + 1
    pool := filledReceiver E (initialBatch s.nextSession)
    ready := true
    epoch := some (.extension s.nextSession)
    pending := none
    committed := s.nextSession :: s.receiver.committed
    batches := [initialBatch s.nextSession] }

def initialRound : List Action :=
  [.startInitial .sent, .receive false, .respond false, .receive false, .respond false,
    .receive false, .respond false, .announce false, .commit, .initialDone]

/-- The state after the sender's side of the batch; the receiver still has to
read the completion. -/
def announcedRound (E : Extension) (s : System) (conn : Conn) : System :=
  s.during (s.filled E (.precomputing s.nextSession)).serve
    (s.answering conn (E.received (initialBatch s.nextSession)) .awaitComplete)
    [.complete otPoolInitialSize] []

def completedRound (E : Extension) (s : System) : System :=
  s.during (s.filled E (.precomputing s.nextSession)).serve (s.matched E) [] []

/-- The states that the actions of the round lead through. -/
def roundState (E : Extension) (s : System) (conn : Conn) : Nat → System :=
  let batch := initialBatch s.nextSession
  let claimed := s.building conn .processingProof
  let answered := s.answering conn (E.received batch)
  let response := Response.precompute otPoolInitialSize
  let verified := s.initialPending conn .awaitProof
  fun
  | 0 => s
  | 1 => s.during (s.building conn .awaitBaseSetup .idle) s.receiver
      [.precomputeBegin s.initialBegin] []
  | 2 => s.during (s.building conn .awaitBaseSetup .idle) (s.answering conn [] .awaitBaseChoices) []
      [response (.baseSetup s.nextSession)]
  | 3 => s.during (s.building conn .awaitCommitment .idle) (s.answering conn [] .awaitBaseChoices)
      [.baseChoices s.initialContinuation] []
  | 4 => s.during (s.building conn .awaitCommitment .idle) (answered .awaitChallenge) []
      [response (.commitment batch (some (.initial s.nextSession)))]
  | 5 => s.during (s.building conn .awaitProof .idle) (answered .awaitChallenge)
      [.challenge s.initialContinuation] []
  | 6 => s.during (s.building conn .awaitProof .idle) (answered .awaitComplete) []
      [response (.proof s.nextSession)]
  | 7 => s.during (claimed (.verified verified)) (answered .awaitComplete) [] []
  | 8 => s.during (claimed (.announced verified)) (answered .awaitComplete)
      [.complete otPoolInitialSize] []
  | 9 => s.during (s.filled E (.precomputing s.nextSession)) (answered .awaitComplete)
      [.complete otPoolInitialSize] []
  | _ => s.announcedRound E conn

-- What the messages of a batch unfold to.
attribute [local simp] step receive respond during building answering ReceiverNode.renewed
  afterReceiver afterSender Outcome.ok sendToSender sendToReceiver ReceiverNode.handleControlMessage
  SenderNode.handleOTPrecomputeResponse initialPending initialBegin initialContinuation initialBatch
  SenderNode.advance SenderNode.continuation SenderPrecompute.batch PrecomputeBegin.batch
  ReceiverNode.metadataMatches roundState

section Idle

variable (idle : s.Idle conn)
include idle

theorem step_startInitial :
    (s.roundState E conn 0).step E (.startInitial .sent) = some (s.roundState E conn 1) := by
  simp [startInitial, idle.stage, idle.sender, attemptBatch, SenderNode.performOTPrecomputation,
    idle.unoccupied, initial_fits, idle.senderOpen, idle.receiver, idle.toReceiver, setStage,
    idle.quiet, idle.toSender, clear, clearEntries, new]

theorem step_receiveBegin :
    (s.roundState E conn 1).step E (.receive false) = some (s.roundState E conn 2) := by
  have allowed : validatePrecomputeCount (otPoolInitialSize : Nat) = .ok () := by decide
  have empty : ReceiverPool.new.totalCount = 0 := by decide
  simp [idle.receiver, idle.receiverOpen, ReceiverNode.handleOTPrecomputeBegin, allowed,
    initial_fits, empty, idle.sender]

theorem step_respondSetup :
    (s.roundState E conn 2).step E (.respond false) = some (s.roundState E conn 3) := by
  simp [idle.sender, idle.senderOpen, idle.receiver]

theorem step_receiveChoices :
    (s.roundState E conn 3).step E (.receive false) = some (s.roundState E conn 4) := by
  simp [idle.receiver, idle.receiverOpen, ReceiverNode.handleOTPrecomputeChoices, idle.sender]

theorem step_respondCommitment :
    (s.roundState E conn 4).step E (.respond false) = some (s.roundState E conn 5) := by
  simp [idle.sender, idle.senderOpen, idle.receiver]

theorem step_receiveChallenge :
    (s.roundState E conn 5).step E (.receive false) = some (s.roundState E conn 6) := by
  have nonempty := received_ne_nil E s.nextSession
  rw [initialBatch] at nonempty
  simp [idle.receiver, idle.receiverOpen, ReceiverNode.handleOTPrecomputeChallenge, idle.sender,
    nonempty]

theorem step_respondProof :
    (s.roundState E conn 6).step E (.respond false) = some (s.roundState E conn 7) := by
  have fits : checkedIndexEnd 0 (E.sent (initialBatch s.nextSession)).length =
      .ok otPoolInitialSize := by
    rw [sent_length]
    exact initial_fits
  have valid : new.validateAdd (E.sent (initialBatch s.nextSession)) = .ok () := by
    apply (validateAdd_eq_ok_iff new_refines _).mpr
    rw [E.sentIndices]
    exact initial_continues
  have empty : new.totalCount = 0 := by decide
  rw [initialBatch] at fits valid
  simp [idle.sender, idle.senderOpen, SenderNode.validateCompletion, fits, valid, empty]

theorem step_announce :
    (s.roundState E conn 7).step E (.announce false) = some (s.roundState E conn 8) := by
  simp [announce, SenderNode.sendOTPrecomputeComplete, idle.senderOpen, sent_length, idle.sender,
    idle.receiver]

theorem step_commit : (s.roundState E conn 8).step E .commit = some (s.roundState E conn 9) := by
  have empty : new.totalCount = 0 := by decide
  have added := sender_add_initial E s.nextSession
  rw [initialBatch] at added
  simp [commit, filled, SenderNode.commitSenderPrecompute, SenderNode.hasPending, added,
    idle.sender, empty]

end Idle

theorem step_initialDone :
    (s.roundState E conn 9).step E .initialDone = some (s.announcedRound E conn) := by
  simp [initialDone, filled, announcedRound]

theorem run_step {next : System} {action : Action} {rest : List Action}
    (taken : s.step E action = some next) :
    (machine E).run s (action :: rest) = (machine E).run next rest :=
  Machine.run_cons rest taken

theorem reach_step {allowed : System → Action → Prop} {next : System} {action : Action}
    (reached : (machine E).Reach allowed s) (permitted : allowed s action)
    (taken : s.step E action = some next) : (machine E).Reach allowed next :=
  Machine.Reach.step reached permitted taken

theorem run_initialRound (idle : s.Idle conn) :
    (machine E).run s initialRound = some (s.announcedRound E conn) := by
  change (machine E).run (s.roundState E conn 0) initialRound = _
  rw [initialRound, run_step (step_startInitial idle), run_step (step_receiveBegin idle),
    run_step (step_respondSetup idle), run_step (step_receiveChoices idle),
    run_step (step_respondCommitment idle), run_step (step_receiveChallenge idle),
    run_step (step_respondProof idle), run_step (step_announce idle),
    run_step (step_commit idle), run_step step_initialDone]
  rfl

/-- The receiver's commit, which may come at any time after the sender's. -/
theorem step_receiveComplete (idle : s.Idle conn) :
    (s.announcedRound E conn).step E (.receive false) = some (s.completedRound E) := by
  have nonempty := received_ne_nil E s.nextSession
  have fits : checkedIndexEnd 0 (E.received (initialBatch s.nextSession)).length =
      .ok otPoolInitialSize := by
    rw [received_length]
    exact initial_fits
  have empty : ReceiverPool.new.totalCount = 0 := by decide
  simp [-initialBatch, announcedRound, completedRound, matched, idle.receiver, idle.receiverOpen, ReceiverNode.handleOTPrecomputeComplete, nonempty, empty,
    fits, receiver_add_initial]
  rfl

/-! ### Reconnecting with a retained pool -/

def reconnect (s : System) : List Action :=
  [.closeSender, .tearDownSender, .tearDownReceiver, .activate, .establish s.nextConn,
    .tryResume false]

/-- The sender asks to resume its pool; the receiver has what it retained. -/
def reconnected (E : Extension) (s : System) (t : ReceiverNode) : System :=
  { s.during
      { s.filled E .resuming with
        control := some s.nextConn
        used := s.nextConn + 1
        isOpen := true
        controlHealthy := false
        resumeChan := none }
      { t.suspendOTReceiverPoolForReconnect with control := some s.nextConn, isOpen := true }
      [.resume (some (.extension s.nextSession)) 0] [] with
    nextConn := s.nextConn + 1 }

theorem run_reconnect (used : s.sender.used ≤ s.nextConn) (t : ReceiverNode)
    (queued : List Request) :
    (machine E).run
        (s.during (s.filled E (.precomputing s.nextSession)).serve t queued []) s.reconnect =
      some (s.reconnected E t) := by
  have kept : (filledSender E (initialBatch s.nextSession)).invalidateExtendClaim =
      filledSender E (initialBatch s.nextSession) := rfl
  have filledUp : 0 < (filledSender E (initialBatch s.nextSession)).available := by
    rw [filledSender_available]
    decide
  have unreserved : (filledSender E (initialBatch s.nextSession)).nextIndex = 0 := rfl
  simp [-initialBatch, Machine.run, reconnect, machine, tearDownSender, establish, tryResume, activate, filled,
    SenderNode.serve, SenderNode.close, SenderNode.tearDownControl,
    SenderNode.suspendOTPoolForReconnect, kept, SenderNode.establish, used,
    SenderNode.tryResumeOTPool, SenderNode.hasResumablePool, filledUp, unreserved,
    ReceiverNode.tearDownControlConnection, ReceiverNode.activateControlConnection, reconnected]

/-- A denied resume falls back to a new pool, whatever was reserved meanwhile. -/
theorem run_denied {epoch : Option Epoch} {frontier : Nat} (sender : s.sender.control = some conn)
    (receiver : s.receiver.control = some conn) (senderOpen : s.sender.isOpen = true)
    (receiverOpen : s.receiver.isOpen = true) (resuming : s.sender.stage = .resuming)
    (quiet : s.sender.completion = .idle) (unanswered : s.sender.resumeChan = none)
    (asked : s.toReceiver = [.resume epoch frontier]) (silent : s.toSender = [])
    (denied : s.receiver.resumeOTPool epoch frontier = (false, s.receiver)) :
    (machine E).run s [.receive false, .respond false, .resumeResult] = some
      { s with
        sender := { s.sender with stage := .fallback }
        toReceiver := [] } := by
  simp [Machine.run, machine, receiver, asked, receiverOpen, ReceiverNode.handleOTResumeRequest,
    denied, sender, silent, senderOpen, quiet, SenderNode.handleOTResumeResponse, resuming,
    unanswered, resumeResult, SenderNode.takeResumeResult]

/-! ### Reserving and consuming -/

theorem step_reserve (current : s.sender.control = some conn) (ready : s.sender.ready = true)
    (consistent : s.sender.inconsistent = false) {ledger : Ledger SenderOT}
    (refines : s.sender.pool.Refines ledger)
    (enough : s.sender.pool.nextIndex + otsPerOPRF ≤ ledger.history.length) :
    ∃ pool refills, s.step E .reserve = some
      { s with
        sender :=
          { s.sender with pool := pool, refills := refills }
        nextClaim := s.nextClaim + 1
        online :=
          { conn := conn
            startIndex := s.sender.pool.nextIndex
            entries := ledger.slice s.sender.pool.nextIndex otsPerOPRF
            batches := s.sender.batches } :: s.online } := by
  obtain ⟨next, reserved⟩ := reserve_succeeds refines (by decide) enough
  have passes : ¬ (s.sender.ready = false ∨ s.sender.inconsistent = true) := by
    simp [ready, consistent]
  simp only [step, reserve, current, SenderNode.reserveOTEntriesForSession, if_neg passes, reserved]
  exact ⟨_, _, rfl⟩

section Online

variable {payload : Payload} {rest : List Payload} {ledger : Ledger ReceiverOT}
  (first : s.online = payload :: rest) (served : s.receiver.control = some payload.conn)
  (ready : s.receiver.ready = true) (refines : s.receiver.pool.Refines ledger)
  (free : ledger.Free payload.startIndex otsPerOPRF)
include first served ready refines free

theorem step_online :
    ∃ pool, s.step E (.online 0) = some
      ({ s with online := rest }.recordConsumed payload
        (ledger.slice payload.startIndex otsPerOPRF) { s.receiver with pool := pool }) := by
  obtain ⟨next, consumed⟩ := ReceiverPool.consume_succeeds refines (by decide) free
  have within := free.within
  have bounded := refines.bounded
  have finish : checkedIndexEnd payload.startIndex (otsPerOPRF : Nat) =
      .ok (payload.startIndex + otsPerOPRF) := by
    refine checkedIndexEnd_ok_iff.mpr ⟨by omega, ?_, rfl⟩
    rw [Int.toNat_natCast]
    omega
  have complete : s.receiver.pendingReceiverCompletionForRange payload.startIndex
      (otsPerOPRF : Nat) = .ok none := by
    simp [ReceiverNode.pendingReceiverCompletionForRange, finish, refines.totalCount_eq, within]
  refine ⟨next, ?_⟩
  simp [deliverOnline, first, served, ReceiverNode.consumeOTReceiverEntries, complete, ready,
    ReceiverNode.takeEntries, consumed]

theorem reach_online {allowed : System → Action → Prop} (reached : (machine E).Reach allowed s)
    (permitted : allowed s (.online 0)) :
    ∃ last, (machine E).Reach allowed last ∧
      { payload := payload, entries := ledger.slice payload.startIndex otsPerOPRF } ∈
        last.consumed := by
  obtain ⟨pool, taken⟩ := step_online (E := E) first served ready refines free
  exact ⟨_, reach_step reached permitted taken, List.mem_cons_self⟩

end Online

/-! ### The first connection -/

/-- The first connection, with nothing to resume. -/
def opened : System :=
  { start with
    sender :=
      { SenderNode.start with control := some 0, used := 1, isOpen := true, stage := .fallback }
    receiver :=
      { ReceiverNode.start with control := some 0, isOpen := true }
    nextConn := 1 }

theorem opened_idle : opened.Idle 0 where
  sender := rfl
  receiver := rfl
  senderOpen := rfl
  receiverOpen := rfl
  stage := rfl
  unoccupied := rfl
  quiet := rfl
  toReceiver := rfl
  toSender := rfl

/-- Both nodes are ready under one epoch, with all entries of one initial batch. -/
structure Rebuilt (s : System) : Prop where
  sender : s.sender.ready = true
  receiver : s.receiver.ready = true
  epoch : s.sender.epoch = s.receiver.epoch
  available : s.sender.pool.available = otPoolInitialSize
  unused : s.receiver.pool.availableCount = otPoolInitialSize
  correlated : List.Forall₂ Correlated s.sender.pool.entries s.receiver.pool.entries

/-- From every state in which both nodes serve one idle connection, the messages
of an initial batch rebuild both pools. -/
theorem initial_batch_rebuilds (E : Extension) (idle : s.Idle conn) :
    ∃ last, (machine E).run s (initialRound ++ [.receive false]) = some last ∧ last.Rebuilt := by
  refine ⟨s.completedRound E, ?_, rfl, rfl, rfl, filledSender_available E s.nextSession,
    congrArg Nat.cast (received_length E (initialBatch s.nextSession)), E.paired _⟩
  rw [Machine.run_append _ (run_initialRound idle), run_step (step_receiveComplete idle)]
  rfl

theorem initial_batch_rebuilds_opened :
    opened.Idle 0 ∧ ∃ last,
      (machine (.labelled fun _ => Label.zero)).run opened (initialRound ++ [.receive false]) =
        some last ∧ last.Rebuilt :=
  ⟨opened_idle, initial_batch_rebuilds _ opened_idle⟩

section Reached

variable {allowed : System → Action → Prop}
  (permitted : ∀ action, action ≠ .reserve → ∀ before, allowed before action)

include permitted

/-- No run below reserves entries, so a condition on reservations permits it. -/
theorem reach_extend {last : System} (reached : (machine E).Reach allowed s)
    {actions : List Action} (noReserve : ∀ action ∈ actions, action ≠ .reserve)
    (ran : (machine E).run s actions = some last) : (machine E).Reach allowed last :=
  reached.run (fun action member => permitted action (noReserve action member)) ran

theorem reach_announced (reached : (machine E).Reach allowed s) (idle : s.Idle conn) :
    (machine E).Reach allowed (s.announcedRound E conn) :=
  reach_extend permitted reached (by decide) (run_initialRound idle)

theorem reach_completed (reached : (machine E).Reach allowed s) (idle : s.Idle conn) :
    (machine E).Reach allowed (s.completedRound E) :=
  reach_step (reach_announced permitted reached idle) (permitted (.receive false) (by decide) _)
    (step_receiveComplete idle)

theorem reach_opened : (machine E).Reach allowed opened := by
  have ran : (machine E).run start [.activate, .establish 0, .tryResume false] = some opened := rfl
  exact reach_extend permitted Machine.Reach.start (by decide) ran

end Reached

end System

end ReclaimTee.Precompute
