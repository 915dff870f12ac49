/-
What is on the control connection of a settled run. The completion names only a
pool size; that the receiver commits the sender's batch follows from the order of
the messages.
-/

import ReclaimTee.Precompute.Settled

namespace ReclaimTee.Precompute

open ReclaimTee.Mpc List

def System.Linked (s : System) : Prop :=
  ∃ conn, s.sender.control = some conn ∧ s.receiver.control = some conn

/-- The receiver has sent the proof of a batch and waits for its completion. -/
def ReceiverNode.Awaits (t : ReceiverNode) (session : Session) : Prop :=
  ∃ pending, t.pending = some pending ∧ pending.message.session = session ∧
    pending.phase = .awaitComplete

def Unchallenged (requests : List Request) (session : Session) : Prop :=
  ∀ message, .challenge message ∈ requests → message.session ≠ session

def Unproved (responses : List Response) (session : Session) : Prop :=
  ∀ count, .precompute count (.proof session) ∉ responses

/-- No request resets the receiver's pool. -/
def NoInitial (requests : List Request) : Prop :=
  ∀ message, .precomputeBegin message ∈ requests → message.isInitial = false

/-- The stages in which the sender may build on its pool. -/
def Stage.Active : Stage → Prop
  | .resumed | .refillClaimed _ | .refilling _ _ | .precomputing _ | .serving => True
  | .offline | .connected | .resuming | .fallback | .closing => False

def SenderNode.Trusted (k : SenderNode) : Prop :=
  k.ready = true ∧ k.stage.Active

/-- A granted resume is on its way to the supervisor. -/
def SenderNode.Token (k : SenderNode) (responses : List Response) : Prop :=
  .resume true ∈ responses ∨ ∃ conn, k.resumeChan = some (conn, true)

/-- Where the proof of the sender's batch can be while the sender waits for it. -/
inductive ProofDue (t : ReceiverNode) (requests : List Request) (responses : List Response)
    (session : Session) : Prop
  | challenged {before : List Request} {message : Continuation}
      (queued : requests = before ++ [.challenge message]) (same : message.session = session)
      (once : Unchallenged before session) (unproved : Unproved responses session)
  | proved (awaits : t.Awaits session) (empty : requests = [])
  | lost (closed : t.isOpen = false) (unproved : Unproved responses session)

/-- What the receiver can have done with the completion of the sender's batch. -/
inductive CompletionDue (t : ReceiverNode) (requests : List Request) (session : Session)
    (batches : List Batch) : Prop
  | due (awaits : t.Awaits session)
      (queued : requests = [] ∨ ∃ poolSize, requests = [.complete poolSize])
  | done (committed : t.batches = batches) (empty : requests = [])

/-- Two linked nodes, with the requests and responses between them. -/
structure Link (k : SenderNode) (t : ReceiverNode) (requests : List Request)
    (responses : List Response) : Prop where
  connected : k.stage = .connected → requests = []
  asked : k.stage = .resuming → requests = [] ∨ ∃ frontier, requests = [.resume k.epoch frontier]
  granted : k.stage = .resuming → k.Token responses →
    requests = [] ∧ t.ready = true ∧ t.epoch = k.epoch ∧ t.pending = none
  early : ∀ pending, k.pending = some pending →
    pending.phase = .awaitBaseSetup ∨ pending.phase = .awaitCommitment →
    Unchallenged requests pending.session ∧ Unproved responses pending.session
  awaiting : ∀ pending, k.pending = some pending → pending.phase = .awaitProof →
    ProofDue t requests responses pending.session
  verified : ∀ pending, k.completion = .verified pending → k.hasPending pending.session →
    t.Awaits pending.session ∧ requests = []
  announced : ∀ pending, k.completion = .announced pending → k.hasPending pending.session →
    CompletionDue t requests pending.session (k.batches ++ [pending.batch])
  trusted : k.Trusted → NoInitial requests

structure Wired (s : System) : Prop where
  unused : ∀ conn, s.receiver.control = some conn → s.sender.used ≤ conn → s.toReceiver = []
  connected : s.sender.stage = .connected → s.toSender = []
  completing : ∀ pending, s.sender.pending = some pending → pending.phase = .awaitProof →
    s.sender.completion = .idle
  served : ∀ payload, s.InFlight payload → s.receiver.control = some payload.conn →
    NoInitial s.toReceiver
  link : s.Linked → Link s.sender s.receiver s.toReceiver s.toSender

theorem SenderNode.Retreats.trusted {k next : SenderNode} (retreat : k.Retreats next)
    (trusted : next.Trusted) : k.Trusted := by
  obtain ⟨ready, active⟩ := trusted
  refine ⟨(retreat.ready ready).1, ?_⟩
  rcases retreat.stage with ⟨sameStage, _⟩ | ⟨_, givenUp | givenUp⟩
  · exact sameStage ▸ active
  · rw [givenUp] at active
    exact active.elim
  · rw [givenUp] at active
    exact active.elim

/-- A step of the sender that only gives up or keeps what the invariant speaks of. -/
structure SenderNode.Subsides (k next : SenderNode) (responses : List Response) : Prop
    extends k.Keeps next where
  stage : next.stage.Early → next.stage = k.stage ∧ next.epoch = k.epoch ∧
    ∀ conn, next.resumeChan = some (conn, true) → k.Token responses
  trusted : next.Trusted → k.Trusted

theorem SenderNode.Keeps.of_eq {k next : SenderNode} (control : next.control = k.control)
    (used : next.used = k.used) (pending : next.pending = k.pending)
    (batches : next.batches = k.batches) (completion : next.completion = k.completion) :
    k.Keeps next :=
  ⟨control, used, fun _ held => ⟨batches, .inl (pending ▸ held)⟩, .inl completion⟩

theorem SenderNode.Keeps.awaiting {k next : SenderNode} (keeps : k.Keeps next) {pending : SenderPrecompute}
    (held : next.pending = some pending) (phase : pending.phase ≠ .processingProof) :
    k.pending = some pending := by
  rcases (keeps.pending pending held).2 with unchanged | ⟨former, _, processed⟩
  · exact unchanged
  · rw [processed] at phase
    exact absurd rfl phase

theorem ReceiverNode.Awaits.pauses {t next : ReceiverNode} {session : Session}
    (awaits : t.Awaits session) (pause : t.Pauses next) : next.Awaits session := by
  obtain ⟨pending, held, same, phase⟩ := awaits
  rcases pause.pending with kept | ⟨_, early⟩
  · exact ⟨pending, kept.trans held, same, phase⟩
  · exact absurd phase (early pending held)

theorem NoInitial.append {first second : List Request} (one : NoInitial first)
    (other : NoInitial second) : NoInitial (first ++ second) :=
  fun message member => (mem_append.mp member).elim (one message) (other message)

theorem Unchallenged.append {requests more : List Request} {session : Session}
    (one : Unchallenged requests session) (other : ∀ message, .challenge message ∉ more) :
    Unchallenged (requests ++ more) session :=
  fun message member =>
    (mem_append.mp member).elim (one message) fun later => absurd later (other message)

namespace Link

variable {E : Extension} {k next : SenderNode} {t : ReceiverNode} {requests : List Request}
  {responses rest : List Response}

theorem of_unoccupied (unoccupied : k.pending = none ∧ k.completion = .idle)
    (connected : k.stage = .connected → requests = [])
    (asked : k.stage = .resuming → ¬ k.Token responses ∧
      ∃ frontier, requests = [.resume k.epoch frontier])
    (trusted : k.Trusted → NoInitial requests) : Link k t requests responses := by
  have free : ∀ pending, k.pending ≠ some pending := by
    rw [unoccupied.1]
    nofun
  have idle : ∀ state, state ≠ .idle → k.completion ≠ state := by
    rw [unoccupied.2]
    exact fun state busy => busy.symm
  exact
    { connected := connected
      asked := fun resuming => .inr (asked resuming).2
      granted := fun resuming token => absurd token (asked resuming).1
      early := fun pending held => absurd held (free pending)
      awaiting := fun pending held => absurd held (free pending)
      verified := fun _ verified => absurd verified (idle _ Completion.noConfusion)
      announced := fun _ announced => absurd announced (idle _ Completion.noConfusion)
      trusted := trusted }

/-- Past the resume, the phases of the sender's batch are bound to what is in the queues. -/
theorem of_late (late : ¬ k.stage.Early)
    (early : ∀ pending, k.pending = some pending →
      pending.phase = .awaitBaseSetup ∨ pending.phase = .awaitCommitment →
      Unchallenged requests pending.session ∧ Unproved responses pending.session)
    (awaiting : ∀ pending, k.pending = some pending → pending.phase = .awaitProof →
      ProofDue t requests responses pending.session)
    (verified : ∀ pending, k.completion = .verified pending → k.hasPending pending.session →
      t.Awaits pending.session ∧ requests = [])
    (announced : ∀ pending, k.completion = .announced pending → k.hasPending pending.session →
      t.Awaits pending.session ∧ ∃ poolSize, requests = [.complete poolSize])
    (trusted : k.Trusted → NoInitial requests) : Link k t requests responses where
  connected := fun connected => absurd (.inr (.inl connected)) late
  asked := fun resuming => absurd (.inr (.inr resuming)) late
  granted := fun resuming => absurd (.inr (.inr resuming)) late
  early := early
  awaiting := awaiting
  verified := verified
  announced := fun pending holds held =>
    .due (announced pending holds held).1 (.inr (announced pending holds held).2)
  trusted := trusted

section Known

variable (link : Link k t requests responses)
include link

theorem paused {t' : ReceiverNode} (pause : t.Pauses t') : Link k t' requests responses :=
  { link with
    granted := by
      intro resuming token
      obtain ⟨empty, ready, epoch, unoccupied⟩ := link.granted resuming token
      refine ⟨empty, pause.ready.trans ready, pause.epoch.trans epoch, ?_⟩
      rcases pause.pending with same | ⟨dropped, _⟩
      · exact same.trans unoccupied
      · exact dropped
    awaiting := by
      intro pending held phase
      cases link.awaiting pending held phase with
      | challenged queued same once unproved => exact .challenged queued same once unproved
      | proved awaits empty => exact .proved (awaits.pauses pause) empty
      | lost closed unproved =>
        refine .lost (Bool.eq_false_iff.mpr fun openEq => ?_) unproved
        rw [pause.opened openEq] at closed
        cases closed
    verified := fun pending verified held =>
      (link.verified pending verified held).imp (·.pauses pause) id
    announced := by
      intro pending announced held
      cases link.announced pending announced held with
      | due awaits queued => exact .due (awaits.pauses pause) queued
      | done committed empty => exact .done (pause.batches.trans committed) empty }

theorem subsided (subsides : k.Subsides next responses) (read : rest <:+ responses) :
    Link next t requests rest := by
  have unproved : ∀ {session}, Unproved responses session → Unproved rest session :=
    fun absent count member => absent count (read.subset member)
  have sessions : ∀ {session}, next.hasPending session →
      k.hasPending session ∧ next.batches = k.batches := by
    intro session held
    obtain ⟨now, nowHeld, same⟩ := Option.map_eq_some_iff.mp held
    obtain ⟨sameBatches, unchanged | ⟨former, formerly, processed⟩⟩ :=
      subsides.pending now nowHeld
    · exact ⟨Option.map_eq_some_iff.mpr ⟨now, unchanged, same⟩, sameBatches⟩
    · exact ⟨Option.map_eq_some_iff.mpr ⟨former, formerly, by rw [← same, processed]⟩, sameBatches⟩
  have completing : ∀ {state}, state ≠ .idle → next.completion = state → k.completion = state := by
    intro state busy now
    rcases subsides.completion with same | idle
    · exact same.symm.trans now
    · exact absurd (now.symm.trans idle) busy
  exact
    { connected := fun connected =>
        link.connected ((subsides.stage (.inr (.inl connected))).1.symm.trans connected)
      asked := by
        intro resuming
        obtain ⟨before, epoch, _⟩ := subsides.stage (.inr (.inr resuming))
        rw [epoch]
        exact link.asked (before.symm.trans resuming)
      granted := by
        intro resuming token
        obtain ⟨before, epoch, chan⟩ := subsides.stage (.inr (.inr resuming))
        rw [epoch]
        refine link.granted (before.symm.trans resuming) ?_
        rcases token with queued | ⟨conn, answered⟩
        · exact .inl (read.subset queued)
        · exact chan conn answered
      early := by
        intro pending held phase
        have unchanged := subsides.awaiting held (by rcases phase with same | same <;> simp [same])
        exact (link.early pending unchanged phase).imp id unproved
      awaiting := by
        intro pending held phase
        cases link.awaiting pending (subsides.awaiting held (by simp [phase])) phase with
        | challenged queued same once absent =>
          exact .challenged queued same once (unproved absent)
        | proved awaits empty => exact .proved awaits empty
        | lost closed absent => exact .lost closed (unproved absent)
      verified := fun pending verified held =>
        link.verified pending (completing Completion.noConfusion verified) (sessions held).1
      announced := by
        intro pending announced held
        obtain ⟨heldBefore, sameBatches⟩ := sessions held
        rw [sameBatches]
        exact link.announced pending (completing Completion.noConfusion announced) heldBefore
      trusted := fun trust => link.trusted (subsides.trusted trust) }

end Known

end Link

namespace Wired

variable {E : Extension} {s next : System} {action : Action}

theorem start : Wired System.start where
  unused := fun _ _ _ => rfl
  connected := nofun
  completing := nofun
  served := nofun
  link := nofun

section Known

variable (known : Wired s)
include known

theorem unlinked {t : ReceiverNode} {nextConn : Conn}
    (apart : ∀ conn, s.sender.control = some conn → t.control ≠ some conn) :
    Wired
      { s with
        receiver := t
        toReceiver := []
        nextConn := nextConn } :=
  { known with
    unused := fun _ _ _ => rfl
    served := fun _ _ _ => nofun
    link := fun ⟨conn, current, served⟩ => absurd served (apart conn current) }

theorem paused {t : ReceiverNode} {online : List Payload}
    {waiting : List Waiter} {consumed : List Consumption} (pause : s.receiver.Pauses t)
    (online_kept : ∀ payload ∈ online, s.InFlight payload)
    (waiting_kept : ∀ waiter ∈ waiting, s.InFlight waiter.payload) :
    Wired
      { s with
        receiver := t
        online := online
        waiting := waiting
        consumed := consumed } := by
  have relinked : ∀ {conn}, t.control = some conn → s.receiver.control = some conn :=
    fun served => pause.control ▸ served
  exact
    { known with
      unused := fun conn served => known.unused conn (relinked served)
      served := by
        rintro payload (sent | ⟨waiter, waits, same⟩) served
        · exact known.served payload (online_kept payload sent) (relinked served)
        · exact known.served payload (same ▸ waiting_kept waiter waits) (relinked served)
      link := fun ⟨conn, current, served⟩ =>
        (known.link ⟨conn, current, relinked served⟩).paused pause }

variable {k : SenderNode} {rest : List Response} {conn : Conn} {nextSession : Session}
  {nextClaim : Nat} {lineage : Lineages}

theorem subsided {online : List Payload} (subsides : s.sender.Subsides k s.toSender)
    (read : rest <:+ s.toSender)
    (sent : ∀ payload ∈ online, payload ∈ s.online ∨
      s.sender.Trusted ∧ s.sender.control = some payload.conn) :
    Wired
      { s with
        sender := k
        toSender := rest
        nextSession := nextSession
        nextClaim := nextClaim
        lineage := lineage
        online := online } where
  unused := by
    rw [subsides.used]
    exact known.unused
  connected := by
    intro connected
    have empty := known.connected ((subsides.stage (.inr (.inl connected))).1.symm.trans connected)
    rw [empty] at read
    exact suffix_nil.mp read
  completing := by
    intro pending held phase
    have idle := known.completing pending (subsides.awaiting held (by simp [phase])) phase
    exact subsides.completion.elim (·.trans idle) id
  served := by
    rintro payload (flying | waits) served
    · rcases sent payload flying with earlier | ⟨trust, current⟩
      · exact known.served payload (.inl earlier) served
      · exact (known.link ⟨payload.conn, current, served⟩).trusted trust
    · exact known.served payload (.inr waits) served
  link := fun ⟨conn, current, served⟩ =>
    (known.link ⟨conn, subsides.control ▸ current, served⟩).subsided subsides read

theorem retreated (retreat : s.sender.Retreats k) (read : rest <:+ s.toSender) :
    Wired (s.withSender k rest nextSession nextClaim lineage) := by
  refine known.subsided ⟨retreat.toKeeps, fun early => ?_, retreat.trusted⟩ read fun _ => .inl
  rcases retreat.stage with ⟨sameStage, sameChan⟩ | ⟨_, givenUp⟩
  · refine ⟨sameStage, ?_, fun conn answered => .inr ⟨conn, sameChan ▸ answered⟩⟩
    rcases retreat.epoch with sameEpoch | ⟨givenUp, _⟩
    · exact sameEpoch
    · exact absurd givenUp early.not_givenUp
  · exact absurd givenUp early.not_givenUp

theorem tornDown : Wired { s with sender := s.sender.tearDownControl } := by
  obtain ⟨retreat, dropped⟩ := s.sender.suspendOTPoolForReconnect_retreats
  refine ⟨fun conn served ahead => ?_, nofun, ?_, known.served, nofun⟩
  · refine known.unused conn served ?_
    rw [← retreat.used]
    exact ahead
  · intro pending held
    rw [show s.sender.tearDownControl.pending = none from dropped] at held
    cases held

theorem resumeAnswered {accepted : Bool} {resumeChan : Option (Conn × Bool)}
    (first : s.toSender = .resume accepted :: rest)
    (answer : resumeChan = some (conn, accepted) ∨ resumeChan = s.sender.resumeChan) :
    Wired
      { s with
        sender := { s.sender with resumeChan := resumeChan }
        toSender := rest } := by
  have read : rest <:+ s.toSender := by
    rw [first]
    exact suffix_cons _ rest
  refine known.subsided ⟨.of_eq rfl rfl rfl rfl rfl, fun _ => ⟨rfl, rfl, ?_⟩, id⟩ read
    fun _ => .inl
  intro other answered
  rcases answer with now | earlier
  · rw [now] at answered
    cases answered
    refine .inl ?_
    rw [first]
    exact mem_cons_self
  · rw [earlier] at answered
    exact .inr ⟨other, answered⟩

end Known

/-! ### Sending -/

section Ordered

variable (known : Wired s) (ordered : Ordered s)
include known ordered

/-- The sender writes: only the sender has changed, and it is still on its connection. -/
theorem sent {k : SenderNode} {responses : List Response} {requests : List Request}
    {nextSession : Session} {lineage : Lineages} (control : k.control = s.sender.control)
    (used : k.used = s.sender.used) (connected : k.stage ≠ .connected)
    (completing : ∀ pending, k.pending = some pending → pending.phase = .awaitProof →
      k.completion = .idle)
    (harmless : ∀ payload, s.InFlight payload → s.sender.control = some payload.conn →
      NoInitial requests)
    (link : s.Linked → Link k s.receiver (s.toReceiver ++ requests) responses) :
    Wired
      (System.sendToReceiver
        { s with
          sender := k
          toSender := responses
          nextSession := nextSession
          lineage := lineage } requests) := by
  unfold System.sendToReceiver
  dsimp only
  rw [control]
  split
  · next linked =>
    refine ⟨fun conn served ahead => ?_, fun now => absurd now connected, completing,
      fun payload flying served => ?_, fun ⟨conn, current, served⟩ => ?_⟩
    · exact absurd (ordered.controlUsed conn (linked.trans served))
        (Nat.not_lt_of_le (used ▸ ahead))
    · exact NoInitial.append (known.served payload flying served)
        (harmless payload flying (linked.trans served))
    · exact link ⟨conn, control ▸ current, served⟩
  · next apart =>
    refine ⟨fun conn served ahead => known.unused conn served (used ▸ ahead),
      fun now => absurd now connected, completing, known.served, fun ⟨conn, current, served⟩ => ?_⟩
    exact absurd ((control ▸ current : s.sender.control = some conn).trans served.symm) apart

theorem resumeSent (connected : s.sender.stage = .connected) :
    Wired (s.resuming.sendToReceiver [.resume s.sender.epoch s.sender.pool.nextIndex]) := by
  have unoccupied := ordered.unoccupied (.inr (.inl connected))
  have silent := known.connected connected
  refine known.sent ordered rfl rfl nofun (fun _ _ _ => unoccupied.2) (fun _ _ _ => by simp [NoInitial])
    fun linked => Link.of_unoccupied unoccupied nofun ?_ fun trusted => trusted.2.elim
  intro _
  rw [(known.link linked).connected connected]
  refine ⟨?_, _, rfl⟩
  rintro (queued | ⟨conn, answered⟩)
  · rw [silent] at queued
    cases queued
  · cases answered

theorem established {conn : Conn} (offline : s.sender.stage = .offline)
    (unused : s.sender.used ≤ conn) :
    Wired
      { s with
        sender := s.sender.establish conn
        toSender := [] } := by
  have unoccupied := ordered.unoccupied (.inl offline)
  refine ⟨fun other served ahead => ?_, fun _ => rfl, fun _ _ _ => unoccupied.2, known.served, ?_⟩
  · exact known.unused other served (Nat.le_trans unused (Nat.le_of_succ_le ahead))
  · rintro ⟨other, current, served⟩
    cases current
    exact Link.of_unoccupied unoccupied (fun _ => known.unused conn served unused) nofun
      fun trusted => trusted.2.elim

theorem resumed {conn : Conn} (resuming : s.sender.stage = .resuming)
    (accepted : s.sender.resumeChan = some (conn, true)) :
    Wired
      { s with
        sender :=
          { s.sender with
            resumeChan := none
            inconsistent := false
            stage := .resumed } } := by
  have unoccupied := ordered.unoccupied (.inr (.inr resuming))
  refine ⟨known.unused, nofun, fun _ _ _ => unoccupied.2, known.served, fun linked => ?_⟩
  refine Link.of_unoccupied unoccupied nofun nofun fun _ => ?_
  have empty := ((known.link linked).granted resuming (.inr ⟨conn, accepted⟩)).1
  rw [show s.toReceiver = [] from empty]
  exact fun _ => nofun

theorem started (lineal : Lineal E s) {k : SenderNode} {isInitial : Bool} {claim : Option Nat}
    {origin : Conn} {message : PrecomputeBegin} {stage : Stage} {refills : List Refill}
    {lineage : Lineages} (starts : s.Starts isInitial claim origin k message stage refills) :
    Wired
      ((s.starting k stage refills lineage).sendToReceiver [.precomputeBegin message]) := by
  have begun := starts.begun
  have staged : (isInitial = true ∧ s.sender.stage = .fallback ∨
      isInitial = false ∧ (stage.Active → s.sender.stage.Active)) ∧ ¬ stage.Early := by
    cases isInitial with
    | true =>
      obtain ⟨before, after⟩ := starts.initially rfl
      refine ⟨.inl ⟨rfl, before⟩, ?_⟩
      rw [after]
      simp [Stage.Early]
    | false =>
      rcases starts.extending rfl with ⟨held, before, after⟩ | ⟨same, refill, member, origined⟩
      · refine ⟨.inr ⟨rfl, fun _ => ?_⟩, ?_⟩
        · rw [before]
          trivial
        · rw [after]
          simp [Stage.Early]
      · have serving := ordered.refillServing refill member (by rw [origined]; exact begun.current)
        rw [same, serving]
        simp [Stage.Early]
  have newSession : ∀ pending, k.pending = some pending → pending.session = s.nextSession ∧
      pending.phase = .awaitBaseSetup := by
    intro pending held
    rw [begun.pending] at held
    cases held
    exact ⟨rfl, rfl⟩
  have notProving : ∀ pending, k.pending = some pending → pending.phase ≠ .awaitProof := by
    intro pending held
    rw [(newSession pending held).2]
    decide
  have notCompleting : ∀ pending, k.completion = .verified pending ∨
      k.completion = .announced pending → ¬ k.hasPending pending.session := by
    intro pending completes held
    rw [begun.completion] at completes
    obtain ⟨base, recorded⟩ := lineal.sender.completing pending completes
    obtain ⟨now, nowHeld, same⟩ := Option.map_eq_some_iff.mp held
    have older := lineal.recorded_lt recorded
    rw [← same, (newSession now nowHeld).1] at older
    exact Nat.lt_irrefl _ older
  have extension : isInitial = false → NoInitial [.precomputeBegin message] := by
    intro extension sent member
    rw [mem_singleton] at member
    cases member
    exact begun.messageInitial.trans extension
  refine known.sent ordered begun.control begun.used (fun same => staged.2 (.inr (.inl same)))
    (fun pending held phase => absurd phase (notProving pending held)) ?_
    fun linked => Link.of_late staged.2 ?_
      (fun pending held phase => absurd phase (notProving pending held))
      (fun pending verified held => absurd held (notCompleting pending (.inl verified)))
      (fun pending announced held => absurd held (notCompleting pending (.inr announced))) ?_
  · intro payload flying current
    rcases staged.1 with ⟨_, fallback⟩ | ⟨extends_, _⟩
    · have serving := ordered.payloadServing payload flying current
      rw [fallback] at serving
      cases serving
    · exact extension extends_
  · intro pending held _
    rw [(newSession pending held).1]
    constructor
    · refine Unchallenged.append ?_ (by simp)
      exact fun challenge earlier => Nat.ne_of_lt (lineal.challenges challenge earlier)
    · intro count member
      exact Nat.lt_irrefl _ (lineal.proofs count _ member)
  · rintro ⟨ready, active⟩
    obtain ⟨wasReady, extends_⟩ := begun.stillReady ready
    refine NoInitial.append ((known.link linked).trusted ⟨wasReady, ?_⟩) (extension extends_)
    rcases staged.1 with ⟨initial, _⟩ | ⟨_, activeBefore⟩
    · rw [extends_] at initial
      cases initial
    · exact activeBefore active

/-- A response is accepted: the sender's batch moves on, in the phase the answer
leaves it in. -/
theorem answered {k : SenderNode} {data : ResponseData} {count : Nat} {rest : List Response}
    {requests : List Request} (quiet : s.sender.completion = .idle)
    (first : s.toSender = .precompute count data :: rest)
    (answer : s.sender.Answered E data (.ok k requests)) :
    Wired
      (System.sendToReceiver
        { s with
          sender := k
          toSender := rest } requests) := by
  have later : ∀ {session}, Unproved s.toSender session → Unproved rest session := by
    rw [first]
    exact fun absent amount member => absent amount (mem_cons_of_mem _ member)
  have busy : ∀ {state}, state ≠ .idle → s.sender.completion ≠ state :=
    fun notIdle same => notIdle (same.symm.trans quiet)
  have notEarly : ∀ {pending}, s.sender.pending = some pending → ¬ s.sender.stage.Early :=
    fun held => ordered.late (.inl (by simp [held]))
  generalize outcomeEq : (Outcome.ok k requests : Outcome SenderNode Request) = outcome at answer
  cases answer with
  | failed => cases outcomeEq
  | @chose pending held phase | @challenged pending held phase =>
    cases outcomeEq
    have late := notEarly held
    refine known.sent ordered rfl rfl (fun same => late (.inr (.inl same))) (fun _ _ _ => quiet)
      (fun _ _ _ => by simp [NoInitial]) fun linked => Link.of_late late ?_ ?_
        (fun _ verified => absurd verified (busy Completion.noConfusion))
        (fun _ announced => absurd announced (busy Completion.noConfusion))
        fun trusted => NoInitial.append ((known.link linked).trusted trusted) (by simp [NoInitial])
    all_goals
      rintro now ⟨⟩ waits
      obtain ⟨unchallenged, unproved⟩ := (known.link linked).early pending held (by simp [phase])
      -- of the two phases only the one that the batch has moved to is left
      first
      | exact .challenged rfl rfl unchallenged (later unproved)
      | (simp at waits; done)
      | exact ⟨Unchallenged.append unchallenged (by simp), later unproved⟩
  | @verified pending held phase =>
    cases outcomeEq
    have late := notEarly held
    refine known.sent ordered rfl rfl (fun same => late (.inr (.inl same))) (by rintro _ ⟨⟩ ⟨⟩)
      (fun _ _ _ => fun _ => nofun) fun linked => ?_
    rw [append_nil]
    refine Link.of_late late ?_ (by rintro _ ⟨⟩ ⟨⟩) ?_ nofun (known.link linked).trusted
    · rintro now ⟨⟩ (⟨⟨⟩⟩ | ⟨⟨⟩⟩)
    · rintro other ⟨⟩ _
      have present : Response.precompute count (.proof pending.session) ∈ s.toSender := by
        rw [first]
        exact mem_cons_self
      cases (known.link linked).awaiting pending held phase with
      | proved awaits empty => exact ⟨awaits, empty⟩
      | challenged _ _ _ unproved | lost _ unproved => exact absurd present (unproved count)

theorem announces {pending : SenderPrecompute}
    {poolSize : Nat} (verified : s.sender.completion = .verified pending) :
    Wired
      (System.sendToReceiver { s with sender := { s.sender with completion := .announced pending } }
        [.complete poolSize]) := by
  have late := ordered.late (.inr (by simp [verified]))
  have notProving : ∀ now, s.sender.pending = some now → now.phase ≠ .awaitProof := by
    intro now held phase
    have idle := known.completing now held phase
    rw [verified] at idle
    cases idle
  refine known.sent ordered rfl rfl (fun same => late (.inr (.inl same)))
    (fun now held phase => absurd phase (notProving now held)) (fun _ _ _ => by simp [NoInitial])
    fun linked => Link.of_late late ?_
      (fun now held phase => absurd phase (notProving now held)) nofun ?_
      fun trusted => NoInitial.append ((known.link linked).trusted trusted) (by simp [NoInitial])
  · intro now held phase
    obtain ⟨unchallenged, unproved⟩ := (known.link linked).early now held phase
    exact ⟨Unchallenged.append unchallenged (by simp), unproved⟩
  · rintro now ⟨⟩ held
    obtain ⟨awaits, empty⟩ := (known.link linked).verified pending verified held
    rw [empty]
    exact ⟨awaits, poolSize, rfl⟩

theorem commits {k : SenderNode} {pending : SenderPrecompute}
    (announced : s.sender.completion = .announced pending)
    (committed : s.sender.Commits E pending k) : Wired { s with sender := k } := by
  have late : ¬ k.stage.Early := by
    rw [committed.stage]
    exact ordered.late (.inr (by simp [announced]))
  refine ⟨fun conn served ahead => known.unused conn served (committed.used ▸ ahead),
    fun connected => absurd (.inr (.inl connected)) late, fun _ _ _ => committed.completion,
    known.served, fun ⟨conn, current, served⟩ => ?_⟩
  refine Link.of_unoccupied ⟨committed.dropped, committed.completion⟩
    (fun connected => absurd (.inr (.inl connected)) late)
    (fun resuming => absurd (.inr (.inr resuming)) late) fun _ message member => ?_
  have link := known.link ⟨conn, committed.control ▸ current, served⟩
  cases link.announced pending announced committed.held with
  | due _ queued =>
    rcases queued with empty | ⟨poolSize, single⟩
    · rw [show s.toReceiver = [] from empty] at member
      cases member
    · rw [show s.toReceiver = [.complete poolSize] from single] at member
      simp at member
  | done _ empty =>
    rw [show s.toReceiver = [] from empty] at member
    cases member

theorem reserved {conn : Conn} (current : s.sender.control = some conn)
    (healthy : s.sender.controlHealthy = true) : Wired (s.reserving conn) := by
  have serving := ordered.healthyServing healthy
  obtain ⟨pool, refills, node, _, _⟩ :=
    s.sender.reserveOTEntriesForSession_frame s.nextClaim conn
  have reserved : ∀ payload,
      payload ∈ (s.sender.reserveOTEntriesForSession s.nextClaim conn).2.toList →
      payload.conn = conn ∧ s.sender.ready = true := by
    intro payload now
    obtain ⟨same, _, ready, _⟩ :=
      SenderNode.reserveOTEntriesForSession_payload (Option.mem_toList.mp now)
    exact ⟨same, ready⟩
  rw [System.reserving, node]
  refine known.subsided ⟨.of_eq rfl rfl rfl rfl rfl,
    fun early => absurd serving early.not_serving, id⟩ (suffix_refl _) ?_
  intro payload sent
  rcases mem_append.mp sent with now | earlier
  · obtain ⟨same, ready⟩ := reserved payload now
    refine .inr ⟨⟨ready, ?_⟩, ?_⟩
    · rw [serving]
      trivial
    · rw [same]
      exact current
  · exact .inl earlier

end Ordered

/-! ### Receiving -/

section Received

variable {conn : Conn} {request : Request} {rest : List Request}
  {outcome : Outcome ReceiverNode Response} {t : ReceiverNode} {responses : List Response}

/-- What a handler leaves: its node, which an error closes, and no response but its own. -/
structure Replies (s : System) (outcome : Outcome ReceiverNode Response) (t : ReceiverNode)
    (responses : List Response) : Prop where
  control : t.control = outcome.node.control
  pending : t.pending = outcome.node.pending
  ready : t.ready = outcome.node.ready
  epoch : t.epoch = outcome.node.epoch
  batches : t.batches = outcome.node.batches
  closed : outcome.failure.isSome = true → t.isOpen = false
  responses : ∀ response ∈ responses, response ∈ s.toSender ∨
    s.sender.control = outcome.node.control ∧ response ∈ outcome.messages

theorem afterReceiver_replies (s : System) (rest : List Request)
    (outcome : Outcome ReceiverNode Response) :
    ∃ t responses, Replies s outcome t responses ∧
      { s with toReceiver := rest }.afterReceiver outcome =
        { s with
          receiver := t
          toReceiver := rest
          toSender := responses } := by
  have sent (t : ReceiverNode) := System.sendToSender_eq
    { s with
      receiver := t
      toReceiver := rest } outcome.messages
  unfold System.afterReceiver
  dsimp only
  split
  · next failed =>
    obtain ⟨responses, same, queue⟩ := sent { outcome.node with isOpen := false }
    exact ⟨{ outcome.node with isOpen := false }, responses,
      ⟨rfl, rfl, rfl, rfl, rfl, fun _ => rfl, queue⟩, same⟩
  · next succeeded =>
    obtain ⟨responses, same, queue⟩ := sent outcome.node
    exact ⟨_, responses,
      ⟨rfl, rfl, rfl, rfl, rfl, fun failed => absurd failed succeeded, queue⟩, same⟩

theorem Replies.awaits (replies : Replies s outcome t responses) {session : Session}
    (awaits : outcome.node.Awaits session) : t.Awaits session := by
  obtain ⟨pending, held, same, phase⟩ := awaits
  exact ⟨pending, replies.pending.trans held, same, phase⟩

section Handled

variable (handled : s.receiver.Handled E conn request outcome)
  (replies : Replies s outcome t responses)
include handled replies

/-- Only a challenge is answered with a proof. -/
theorem unproved_handled {session : Session} (unproved : Unproved s.toSender session)
    (other : ∀ message, request = .challenge message → message.session ≠ session) :
    Unproved responses session := by
  intro count member
  rcases replies.responses _ member with queued | ⟨_, sent⟩
  · exact unproved count queued
  cases handled with
  | @proved message pending held phase same =>
    simp only [Outcome.ok, mem_singleton, Response.precompute.injEq,
      ResponseData.proof.injEq] at sent
    exact other message rfl (same.trans sent.2.symm)
  | refused | renewedOnly | completed => cases sent
  | extended | renewed | committed | denied | granted => simp [Outcome.ok] at sent

/-- A resume request of the current epoch: a grant is the only token. -/
theorem resume_handled {frontier : Nat} (isResume : request = .resume s.sender.epoch frontier)
    (untold : ¬ s.sender.Token s.toSender) (token : s.sender.Token responses) :
    t.ready = true ∧ t.epoch = s.sender.epoch ∧ t.pending = none := by
  have sent : Response.resume true ∈ outcome.messages := by
    rcases token with queued | answered
    · rcases replies.responses _ queued with earlier | ⟨_, now⟩
      · exact absurd (.inl earlier) untold
      · exact now
    · exact absurd (.inr answered) untold
  rw [replies.ready, replies.epoch, replies.pending]
  subst isResume
  cases handled with
  | refused pause => cases sent
  | denied => simp [Outcome.ok] at sent
  | granted pause ready unoccupied same =>
    refine ⟨pause.ready.trans ready, pause.epoch.trans same, ?_⟩
    rcases pause.pending with kept | ⟨dropped, _⟩
    · exact kept.trans unoccupied
    · exact dropped

theorem challenge_handled {message : Continuation} (isChallenge : request = .challenge message)
    (unproved : Unproved s.toSender message.session) :
    ProofDue t [] responses message.session := by
  subst isChallenge
  cases handled with
  | refused pause =>
    refine .lost (replies.closed rfl) fun count member => ?_
    rcases replies.responses _ member with queued | ⟨_, sent⟩
    · exact unproved count queued
    · cases sent
  | proved held phase same => exact .proved (replies.awaits ⟨_, rfl, same.symm, rfl⟩) rfl

theorem complete_handled (lineal : Lineal E s) {poolSize : Nat} {pending : SenderPrecompute}
    (isComplete : request = .complete poolSize)
    (announced : s.sender.completion = .announced pending)
    (held : s.sender.hasPending pending.session) (awaits : s.receiver.Awaits pending.session) :
    CompletionDue t [] pending.session (s.sender.batches ++ [pending.batch]) := by
  subst isComplete
  cases handled with
  | refused pause => exact .due (replies.awaits (awaits.pauses pause)) (.inl rfl)
  | @completed _ other added otherHeld phase filled add =>
    obtain ⟨same, sameHeld, session, _⟩ := awaits
    rw [otherHeld] at sameHeld
    cases sameHeld
    refine .done (replies.batches.trans ?_) rfl
    have atReceiver := (lineal.receiver.pending other otherHeld).1
    have atSender := lineal.sender.completes_batch announced held
    rw [session, atSender] at atReceiver
    exact (Option.some.inj atReceiver).symm

theorem link_received (lineal : Lineal E s) (opened : s.receiver.isOpen = true)
    (link : Link s.sender s.receiver (request :: rest) s.toSender) :
    Link s.sender t rest responses where
  connected := fun connected => nomatch link.connected connected
  asked := fun resuming => (link.asked resuming).elim nofun fun ⟨_, single⟩ =>
    .inl (List.cons.inj single).2
  granted := by
    intro resuming token
    have untold : ¬ s.sender.Token s.toSender := fun told => nomatch (link.granted resuming told).1
    rcases link.asked resuming with impossible | ⟨frontier, single⟩
    · cases impossible
    · obtain ⟨isResume, empty⟩ := List.cons.inj single
      exact ⟨empty, resume_handled handled replies isResume untold token⟩
  early := by
    intro pending held phase
    obtain ⟨unchallenged, unproved⟩ := link.early pending held phase
    refine ⟨fun message member => unchallenged message (mem_cons_of_mem _ member),
      unproved_handled handled replies unproved fun message isChallenge => ?_⟩
    exact unchallenged message (isChallenge ▸ mem_cons_self)
  awaiting := by
    intro pending held phase
    cases link.awaiting pending held phase with
    | proved awaits empty => cases empty
    | lost shut unproved =>
      rw [opened] at shut
      cases shut
    | @challenged before message queued same once unproved =>
      cases before with
      | nil =>
        obtain ⟨isChallenge, rfl⟩ := List.cons.inj queued
        rw [← same] at unproved ⊢
        exact challenge_handled handled replies isChallenge unproved
      | cons head tail =>
        obtain ⟨rfl, remaining⟩ := List.cons.inj queued
        refine .challenged remaining same (fun other member => once other (mem_cons_of_mem _ member))
          (unproved_handled handled replies unproved fun other isChallenge => ?_)
        exact once other (isChallenge ▸ mem_cons_self)
  verified := fun pending verified held => nomatch (link.verified pending verified held).2
  announced := by
    intro pending announced held
    cases link.announced pending announced held with
    | done committed empty => cases empty
    | due awaits queued =>
      rcases queued with impossible | ⟨poolSize, single⟩
      · cases impossible
      · obtain ⟨isComplete, rfl⟩ := List.cons.inj single
        exact complete_handled handled replies lineal isComplete announced held awaits
  trusted := fun trust message member => link.trusted trust message (mem_cons_of_mem _ member)

end Handled

theorem received (known : Wired s) (lineal : Lineal E s)
    (served : s.receiver.control = some conn) (opened : s.receiver.isOpen = true)
    (first : s.toReceiver = request :: rest) (handled : s.receiver.Handled E conn request outcome) :
    Wired ({ s with toReceiver := rest }.afterReceiver outcome) := by
  obtain ⟨t, responses, replies, same⟩ := afterReceiver_replies s rest outcome
  rw [same]
  have control : t.control = s.receiver.control := replies.control.trans handled.control
  have nonempty : s.toReceiver ≠ [] := first ▸ cons_ne_nil _ _
  refine ⟨fun other served ahead => ?_, fun connected => ?_, known.completing,
    fun payload flying served message member => ?_, fun ⟨other, current, served⟩ => ?_⟩
  · exact absurd (known.unused other (control ▸ served) ahead) nonempty
  · refine eq_nil_iff_forall_not_mem.mpr fun response member => ?_
    rcases replies.responses response member with queued | ⟨linked, _⟩
    · rw [known.connected connected] at queued
      cases queued
    · have current : s.sender.control = some conn := linked.trans (handled.control.trans served)
      exact absurd ((known.link ⟨conn, current, served⟩).connected connected) nonempty
  · refine known.served payload flying (control ▸ served) message ?_
    rw [first]
    exact mem_cons_of_mem _ member
  · have link := known.link ⟨other, current, control ▸ served⟩
    rw [first] at link
    have result : Link s.sender t rest responses :=
      link_received handled replies lineal opened link
    exact result

end Received

theorem move (known : Wired s) (ordered : Ordered s) (lineal : Lineal E s)
    (healthy : HealthyReservation s action) (moved : s.Move E action next) : Wired next := by
  cases moved with
  | activated =>
    refine known.unlinked ?_
    intro conn current served
    have fresh : some s.nextConn = some conn := served
    cases fresh
    have older := Nat.lt_of_lt_of_le (ordered.controlUsed _ current) ordered.usedKnown
    exact Nat.lt_irrefl _ older
  | parted => exact known.unlinked fun _ _ => (Option.some_ne_none _).symm
  | received served opened first handled => exact known.received lineal served opened first handled
  | paused pause online_kept waiting_kept taken =>
    exact known.paused pause online_kept waiting_kept
  | retreated retreat read recorded => exact known.retreated retreat read
  | established offline unused announced => exact known.established ordered offline unused
  | tornDown quiet => exact known.tornDown
  | resumeSent connected ready => exact known.resumeSent ordered connected
  | resumeAnswered resuming first answer => exact known.resumeAnswered first answer
  | resumed resuming accepted => exact known.resumed ordered resuming accepted
  | claimed resumed =>
    refine known.subsided ⟨.of_eq rfl rfl rfl rfl rfl, by simp [Stage.Early],
      fun trusted => ⟨trusted.1, ?_⟩⟩ (suffix_refl _) fun _ => .inl
    rw [resumed]
    trivial
  | served from_stage refilled =>
    refine known.subsided ⟨.of_eq rfl rfl rfl rfl rfl,
      by simp [Stage.Early, SenderNode.serve], fun trusted => ⟨trusted.1, ?_⟩⟩ (suffix_refl _) fun _ => .inl
    rcases from_stage with same | ⟨claim, session, same⟩ | ⟨session, same⟩ <;> rw [same] <;>
      trivial
  | started starts => exact known.started ordered lineal starts
  | answered quiet first answer => exact known.answered ordered quiet first answer
  | announced verified => exact known.announces ordered verified
  | committed announced commits => exact known.commits ordered announced commits
  | reserved reserves current => exact known.reserved ordered current (healthy reserves)

end Wired

end ReclaimTee.Precompute
