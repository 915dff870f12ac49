/-
Lineages: every session is started on a definite list of batches, and a node that
is ready under an epoch holds exactly the lineage of that epoch's session,
whatever is lost, refused or repeated.
-/

import ReclaimTee.Precompute.Moves

namespace ReclaimTee.Precompute

open ReclaimTee.Mpc List

abbrev Lineages := Registry Session (List Batch)

def Lineages.Grows (older newer : Lineages) : Prop :=
  ∀ session batches, older session = some batches → newer session = some batches

/-- Readiness under an epoch means to hold the lineage of its session. -/
def HoldsEpoch (lineage : Lineages) (epoch : Option Epoch) (batches : List Batch) : Prop :=
  ∃ session, epoch = some (.extension session) ∧ lineage session = some batches

theorem HoldsEpoch.unique {lineage : Lineages} {epoch : Option Epoch} {first second : List Batch}
    (one : HoldsEpoch lineage epoch first) (other : HoldsEpoch lineage epoch second) :
    first = second := by
  obtain ⟨session, epochEq, recorded⟩ := one
  obtain ⟨session', epochEq', recorded'⟩ := other
  rw [epochEq] at epochEq'
  cases epochEq'
  rw [recorded] at recorded'
  exact Option.some.inj recorded'

theorem HoldsEpoch.mono {older newer : Lineages} (grows : older.Grows newer)
    {epoch : Option Epoch} {batches : List Batch} (holds : HoldsEpoch older epoch batches) :
    HoldsEpoch newer epoch batches := by
  obtain ⟨session, epochEq, recorded⟩ := holds
  exact ⟨session, epochEq, grows _ _ recorded⟩

/-- What the first message of a batch promises about its session. -/
def BeginLineage (lineage : Lineages) (message : PrecomputeBegin) : Prop :=
  ∃ base, lineage message.session = some (base ++ [message.batch]) ∧
    (message.isInitial = true → base = []) ∧
    (message.isInitial = false → HoldsEpoch lineage message.epoch base)

theorem BeginLineage.mono {older newer : Lineages} (grows : older.Grows newer)
    {message : PrecomputeBegin} (known : BeginLineage older message) :
    BeginLineage newer message := by
  obtain ⟨base, recorded, initial, extension⟩ := known
  exact ⟨base, grows _ _ recorded, initial, fun later => (extension later).mono grows⟩

structure SenderLineage (E : Extension) (lineage : Lineages) (k : SenderNode) : Prop where
  backed : k.Backed E
  ready : k.ready = true → HoldsEpoch lineage k.epoch k.batches
  pending : ∀ pending, k.pending = some pending →
    lineage pending.session = some (k.batches ++ [pending.batch])
  completing : ∀ pending, k.completion = .verified pending ∨ k.completion = .announced pending →
    ∃ base, lineage pending.session = some (base ++ [pending.batch])

namespace SenderLineage

variable {E : Extension} {lineage newer : Lineages} {k next : SenderNode}

theorem mono (grows : lineage.Grows newer) (known : SenderLineage E lineage k) :
    SenderLineage E newer k :=
  { known with
    ready := fun ready => (known.ready ready).mono grows
    pending := fun pending held => grows _ _ (known.pending pending held)
    completing := fun pending completes =>
      have ⟨base, recorded⟩ := known.completing pending completes
      ⟨base, grows _ _ recorded⟩ }

variable (known : SenderLineage E lineage k)
include known

theorem retreat (retreats : k.Retreats next) : SenderLineage E lineage next where
  backed := retreats.backed E known.backed
  ready := by
    intro ready
    obtain ⟨wasReady, sameBatches⟩ := retreats.ready ready
    rw [sameBatches]
    rcases retreats.epoch with same | ⟨_, unready, _⟩
    · rw [same]
      exact known.ready wasReady
    · rw [unready] at ready
      cases ready
  pending := by
    intro pending held
    obtain ⟨sameBatches, unchanged | ⟨former, formerly, processed⟩⟩ :=
      retreats.pending pending held
    · rw [sameBatches]
      exact known.pending pending unchanged
    · rw [sameBatches, processed]
      exact known.pending former formerly
  completing := by
    intro pending completes
    rcases retreats.completion with same | idle
    · rw [same] at completes
      exact known.completing pending completes
    · rw [idle] at completes
      rcases completes with impossible | impossible <;> cases impossible

section Started

variable {session : Session} {isInitial : Bool} {claim : Option Nat} {origin : Conn}
  {message : PrecomputeBegin} (fresh : lineage session = none)
  (begun : k.Started session isInitial claim origin next message)
include fresh begun

theorem started :
    SenderLineage E (lineage.record session (next.batches ++ [message.batch])) next where
  backed := begun.backed E known.backed
  ready := by
    intro ready
    obtain ⟨wasReady, extension⟩ := begun.stillReady ready
    obtain ⟨_, sameBatches, sameEpoch⟩ := begun.extending extension
    rw [sameBatches, sameEpoch]
    exact (known.ready wasReady).mono fun _ _ => Registry.record_keeps fresh
  pending := by
    intro pending held
    rw [begun.pending] at held
    cases held
    have sameBatch : message.batch =
        { message with
          session := session
          count := message.count } := by
      rw [PrecomputeBegin.batch, begun.messageSession]
    rw [sameBatch]
    exact Registry.record_self lineage session _
  completing := by
    intro pending completes
    rw [begun.completion] at completes
    obtain ⟨base, recorded⟩ := known.completing pending completes
    exact ⟨base, Registry.record_keeps fresh recorded⟩

theorem begins_lineage :
    BeginLineage (lineage.record session (next.batches ++ [message.batch])) message := by
  refine ⟨next.batches, ?_, ?_, ?_⟩
  · rw [begun.messageSession]
    exact Registry.record_self lineage session _
  · intro initial
    rw [begun.messageInitial] at initial
    exact (begun.renewing initial).2.1
  · intro extension
    rw [begun.messageInitial] at extension
    obtain ⟨wasReady, sameBatches, sameEpoch⟩ := begun.extending extension
    rw [begun.messageEpoch, sameBatches, sameEpoch]
    exact (known.ready wasReady).mono fun _ _ => Registry.record_keeps fresh

end Started

theorem completes_batch {pending : SenderPrecompute}
    (announced : k.completion = .announced pending) (held : k.hasPending pending.session) :
    lineage pending.session = some (k.batches ++ [pending.batch]) := by
  obtain ⟨base, recorded⟩ := known.completing pending (.inr announced)
  obtain ⟨current, currently, sameSession⟩ := Option.map_eq_some_iff.mp held
  have now := known.pending current currently
  rw [sameSession, recorded] at now
  have sameBase := (append_inj' (Option.some.inj now) rfl).1
  rw [recorded, sameBase]

theorem commits {pending : SenderPrecompute} (announced : k.completion = .announced pending)
    (committed : k.Commits E pending next) : SenderLineage E lineage next where
  backed := committed.continued known.backed
  ready := by
    intro _
    refine ⟨pending.session, committed.epoch, ?_⟩
    rw [committed.batches]
    exact known.completes_batch announced committed.held
  pending := by
    intro other held
    rw [committed.dropped] at held
    cases held
  completing := by
    intro other completes
    rw [committed.completion] at completes
    rcases completes with impossible | impossible <;> cases impossible

end SenderLineage

structure ReceiverLineage (E : Extension) (lineage : Lineages) (t : ReceiverNode) : Prop where
  backed : t.Backed E
  ready : t.ready = true → HoldsEpoch lineage t.epoch t.batches
  pending : ∀ pending, t.pending = some pending →
    lineage pending.message.session = some (t.batches ++ [pending.message.batch]) ∧
      (pending.entries = [] ∨ pending.entries = E.received pending.message.batch)

namespace ReceiverLineage

variable {E : Extension} {lineage newer : Lineages} {t next : ReceiverNode}

theorem mono (grows : lineage.Grows newer) (known : ReceiverLineage E lineage t) :
    ReceiverLineage E newer t :=
  { known with
    ready := fun ready => (known.ready ready).mono grows
    pending := fun pending held =>
      have ⟨recorded, entries⟩ := known.pending pending held
      ⟨grows _ _ recorded, entries⟩ }

theorem renewed (lineage : Lineages) (t : ReceiverNode) (epoch : Option Epoch) :
    ReceiverLineage E lineage (t.renewed epoch) :=
  { backed := ReceiverNode.backed_empty rfl rfl
    ready := fun ready => Bool.noConfusion ready
    pending := nofun }

variable (known : ReceiverLineage E lineage t)
include known

theorem pauses (pause : t.Pauses next) : ReceiverLineage E lineage next where
  backed := pause.backed E known.backed
  ready := by
    rw [pause.ready, pause.epoch, pause.batches]
    exact known.ready
  pending := by
    intro pending held
    rw [pause.batches]
    rcases pause.pending with same | ⟨dropped, _⟩
    · rw [same] at held
      exact known.pending pending held
    · rw [dropped] at held
      cases held

theorem suspended : ReceiverLineage E lineage t.suspendOTReceiverPoolForReconnect where
  backed := t.suspendOTReceiverPoolForReconnect_spec.2.2 E known.backed
  ready := by
    intro ready
    obtain ⟨wasReady, sameEpoch, sameBatches⟩ :=
      t.suspendOTReceiverPoolForReconnect_spec.2.1 ready
    rw [sameEpoch, sameBatches]
    exact known.ready wasReady
  pending := by
    intro pending held
    rw [t.suspendOTReceiverPoolForReconnect_spec.1] at held
    cases held

theorem reconnected (control : Option Conn) (isOpen : Bool) :
    ReceiverLineage E lineage { t with control := control, isOpen := isOpen } :=
  { known with }

theorem begun {message : PrecomputeBegin} (conn : Conn)
    (recorded : lineage message.session = some (t.batches ++ [message.batch])) :
    ReceiverLineage E lineage
      { t with
        pending := some
          { message := message
            conn := conn
            entries := []
            phase := .awaitBaseChoices } } :=
  { known with
    pending := by
      intro pending held
      cases held
      exact ⟨recorded, .inl rfl⟩ }

theorem handled {conn : Conn} {request : Request} {outcome : Outcome ReceiverNode Response} (result : t.Handled E conn request outcome)
    (begins : ∀ message, request = .precomputeBegin message → BeginLineage lineage message) :
    ReceiverLineage E lineage outcome.node := by
  cases result with
  | refused pause => exact known.pauses pause
  | renewedOnly initial => exact renewed lineage t _
  | extended extension ready unoccupied epoch =>
    obtain ⟨base, recorded, _, lineal⟩ := begins _ rfl
    have held := lineal extension
    rw [epoch] at held
    have sameBase := held.unique (known.ready ready)
    rw [sameBase] at recorded
    exact known.begun conn recorded
  | @renewed message initial =>
    obtain ⟨base, recorded, fromNothing, _⟩ := begins _ rfl
    rw [fromNothing initial] at recorded
    exact (renewed lineage t message.epoch).begun conn recorded
  | committed held phase session =>
    exact
      { known with
        pending := by
          intro pending now
          cases now
          exact ⟨(known.pending _ held).1, .inr rfl⟩ }
  | proved held phase session =>
    exact
      { known with
        pending := by
          intro pending now
          cases now
          have recorded := known.pending _ held
          exact recorded }
  | @completed _ pending added held phase filled add =>
    obtain ⟨recorded, entries⟩ := known.pending _ held
    exact
      { backed := known.backed.add (entries.resolve_left filled) add rfl rfl
        ready := fun _ => ⟨pending.message.session, rfl, recorded⟩
        pending := nofun }
  | denied => exact known
  | granted pause ready unoccupied same => exact known.pauses pause

end ReceiverLineage

/-- Both nodes, the messages between them and the payloads in flight keep to the
registry of lineages. -/
structure Lineal (E : Extension) (s : System) : Prop where
  fresh : ∀ session, s.nextSession ≤ session → s.lineage session = none
  sender : SenderLineage E s.lineage s.sender
  receiver : ReceiverLineage E s.lineage s.receiver
  begins : ∀ message, .precomputeBegin message ∈ s.toReceiver → BeginLineage s.lineage message
  challenges : ∀ message, .challenge message ∈ s.toReceiver → message.session < s.nextSession
  proofs : ∀ count session, .precompute count (.proof session) ∈ s.toSender →
    session < s.nextSession
  inFlight : ∀ payload, s.InFlight payload → payload.SentFrom E

namespace Lineal

variable {E : Extension} {s next : System} {action : Action}

theorem start (E : Extension) : Lineal E System.start :=
  { fresh := fun _ _ => rfl
    sender :=
      { backed := SenderNode.backed_empty SenderPool.new_refines rfl rfl
        ready := fun ready => Bool.noConfusion ready
        pending := nofun
        completing := fun _ completes => by rcases completes with impossible | impossible <;> cases impossible }
    receiver :=
      { backed := ReceiverNode.backed_empty rfl rfl
        ready := fun ready => Bool.noConfusion ready
        pending := nofun }
    begins := nofun
    challenges := nofun
    proofs := nofun
    inFlight := nofun }

variable (known : Lineal E s)
include known

theorem recorded_lt {session : Session} {batches : List Batch}
    (recorded : s.lineage session = some batches) : session < s.nextSession := by
  by_contra beyond
  rw [known.fresh session (Nat.le_of_not_lt beyond)] at recorded
  cases recorded

theorem grows {nextSession : Session} {lineage : Lineages}
    (recorded : s.Recorded nextSession lineage) :
    Lineages.Grows s.lineage lineage ∧ s.nextSession ≤ nextSession ∧
      ∀ session, nextSession ≤ session → lineage session = none := by
  cases recorded with
  | same => exact ⟨fun _ _ => id, Nat.le_refl _, known.fresh⟩
  | new batches =>
    refine ⟨fun _ _ => Registry.record_keeps (known.fresh _ (Nat.le_refl _)), Nat.le_succ _, ?_⟩
    intro session beyond
    have later : s.nextSession < session := beyond
    rw [Registry.record_other _ _ (Nat.ne_of_gt later)]
    exact known.fresh session (Nat.le_of_lt later)

theorem withSender {k : SenderNode} {rest : List Response} {nextSession : Session} {nextClaim : Nat}
    {lineage : Lineages} (kept : SenderLineage E lineage k) (read : rest <:+ s.toSender)
    (recorded : s.Recorded nextSession lineage) :
    Lineal E (s.withSender k rest nextSession nextClaim lineage) := by
  obtain ⟨growing, later, fresh⟩ := known.grows recorded
  exact
    { fresh := fresh
      sender := kept
      receiver := known.receiver.mono growing
      begins := fun message member => (known.begins message member).mono growing
      challenges := fun message member => Nat.lt_of_lt_of_le (known.challenges message member) later
      proofs := fun count session member =>
        Nat.lt_of_lt_of_le (known.proofs count session (read.subset member)) later
      inFlight := known.inFlight }

theorem withNode {k : SenderNode} {nextClaim : Nat} (kept : SenderLineage E s.lineage k) :
    Lineal E { s with sender := k, nextClaim := nextClaim } :=
  known.withSender kept (suffix_refl _) System.Recorded.same

theorem sendToReceiver {requests : List Request}
    (begins : ∀ message, .precomputeBegin message ∈ requests → BeginLineage s.lineage message)
    (challenges : ∀ message, .challenge message ∈ requests → message.session < s.nextSession) :
    Lineal E (s.sendToReceiver requests) := by
  obtain ⟨toReceiver, same, queue⟩ := s.sendToReceiver_eq requests
  rw [same]
  refine { known with begins := ?_, challenges := ?_ }
  · intro message member
    rcases queue _ member with queued | ⟨_, sent⟩
    · exact known.begins message queued
    · exact begins message sent
  · intro message member
    rcases queue _ member with queued | ⟨_, sent⟩
    · exact known.challenges message queued
    · exact challenges message sent

theorem withReceiver {t : ReceiverNode} {rest : List Request}
    {nextConn : Conn} (kept : ReceiverLineage E s.lineage t) (read : rest ⊆ s.toReceiver) :
    Lineal E { s with receiver := t, toReceiver := rest, nextConn := nextConn } :=
  { known with
    receiver := kept
    begins := fun message member => known.begins message (read member)
    challenges := fun message member => known.challenges message (read member)
    inFlight := known.inFlight }

theorem sendToSender {responses : List Response}
    (proofs : ∀ count session, .precompute count (.proof session) ∈ responses →
      session < s.nextSession) : Lineal E (s.sendToSender responses) := by
  obtain ⟨toSender, same, queue⟩ := s.sendToSender_eq responses
  rw [same]
  refine { known with proofs := ?_ }
  intro count session member
  rcases queue _ member with queued | ⟨_, sent⟩
  · exact known.proofs count session queued
  · exact proofs count session sent

theorem received {conn : Conn} {request : Request} {rest : List Request}
    {outcome : Outcome ReceiverNode Response} (first : s.toReceiver = request :: rest)
    (handled : s.receiver.Handled E conn request outcome) :
    Lineal E ({ s with toReceiver := rest }.afterReceiver outcome) := by
  have member : request ∈ s.toReceiver := by
    rw [first]
    exact mem_cons_self
  have read : rest ⊆ s.toReceiver := by
    rw [first]
    exact subset_cons_self request rest
  have node : ReceiverLineage E s.lineage outcome.node := by
    apply known.receiver.handled handled
    intro message isBegin
    rw [isBegin] at member
    exact known.begins message member
  have kept : ReceiverLineage E s.lineage
      (if outcome.failure.isSome then { outcome.node with isOpen := false } else outcome.node) := by
    split
    · exact node.pauses (ReceiverNode.Pauses.of_close _)
    · exact node
  refine .sendToSender (known.withReceiver kept read) ?_
  intro count session sent
  cases handled with
  | proved held phase same =>
    have recorded := (known.receiver.pending _ held).1
    simp only [Outcome.ok, mem_singleton, Response.precompute.injEq,
      ResponseData.proof.injEq] at sent
    rw [sent.2]
    exact known.recorded_lt recorded
  | refused | renewedOnly | completed => cases sent
  | extended | renewed | committed | denied | granted => simp [Outcome.ok] at sent

theorem answered {data : ResponseData} {count : Nat} {rest : List Response}
    {k : SenderNode} {requests : List Request} (first : s.toSender = .precompute count data :: rest)
    (answer : s.sender.Answered E data (.ok k requests)) :
    Lineal E
      ({ s with
        sender := k
        toSender := rest }.sendToReceiver requests) := by
  have read : rest <:+ s.toSender := by
    rw [first]
    exact suffix_cons _ rest
  have advanced : ∀ pending phase, s.sender.pending = some pending →
      SenderLineage E s.lineage (s.sender.advance pending phase) := by
    intro pending phase held
    exact
      { known.sender with
        pending := by
          intro now nowHeld
          cases nowHeld
          exact known.sender.pending pending held }
  generalize outcomeEq : (Outcome.ok k requests : Outcome SenderNode Request) = outcome at answer
  cases answer with
  | failed => cases outcomeEq
  | chose held phase =>
    cases outcomeEq
    exact .sendToReceiver
      (known.withSender (advanced _ _ held) read System.Recorded.same) (by simp) (by simp)
  | challenged held phase =>
    cases outcomeEq
    refine .sendToReceiver
      (known.withSender (advanced _ _ held) read System.Recorded.same) (by simp) ?_
    intro message member
    rw [mem_singleton] at member
    cases member
    exact known.recorded_lt (known.sender.pending _ held)
  | @verified pending held phase =>
    cases outcomeEq
    rw [System.sendToReceiver_nil]
    refine known.withSender ?_ read System.Recorded.same
    exact
      { advanced pending .processingProof held with
        completing := by
          intro other completes
          rcases completes with same | impossible
          · cases same
            exact ⟨_, known.sender.pending pending held⟩
          · cases impossible }

theorem reserved (conn : Conn) : Lineal E (s.reserving conn) := by
  obtain ⟨pool, refills, node, _, backed⟩ :=
    s.sender.reserveOTEntriesForSession_frame s.nextClaim conn
  have kept : SenderLineage E s.lineage (s.sender.reserveOTEntriesForSession s.nextClaim conn).1 := by
    rw [node]
    exact { known.sender with backed := (backed E known.sender.backed).1 }
  have base : Lineal E
      { s with
        sender := (s.sender.reserveOTEntriesForSession s.nextClaim conn).1
        nextClaim := s.nextClaim + 1 } := known.withNode kept
  exact
    { base with
      inFlight := by
        rintro payload (sent | waits)
        · rcases mem_append.mp sent with now | earlier
          · exact (SenderNode.reserveOTEntriesForSession_payload
              (Option.mem_toList.mp now)).2.2.2 E known.sender.backed
          · exact known.inFlight payload (.inl earlier)
        · exact known.inFlight payload (.inr waits) }

theorem move (moved : s.Move E action next) : Lineal E next := by
  cases moved with
  | activated =>
    refine known.withReceiver ?_ (nil_subset _)
    unfold ReceiverNode.activateControlConnection
    split
    · exact known.receiver.suspended.reconnected _ _
    · exact known.receiver.reconnected _ _
  | parted =>
    exact known.withReceiver (known.receiver.suspended.reconnected _ _) (nil_subset _)
  | received served opened first handled => exact known.received first handled
  | @paused t _ _ _ pause online_kept waiting_kept taken =>
    have base : Lineal E { s with receiver := t } :=
      known.withReceiver (known.receiver.pauses pause) (List.Subset.refl _)
    exact
      { base with
        inFlight := by
          rintro payload (sent | ⟨waiter, waits, same⟩)
          · exact known.inFlight payload (online_kept payload sent)
          · exact same ▸ known.inFlight _ (waiting_kept waiter waits) }
  | retreated retreat read recorded =>
    have kept := (known.sender.mono (known.grows recorded).1).retreat retreat
    exact known.withSender kept read recorded
  | established offline unused known_conn =>
    exact known.withSender { known.sender with }
      (nil_suffix) System.Recorded.same
  | tornDown quiet =>
    have kept := known.sender.retreat s.sender.suspendOTPoolForReconnect_retreats.1
    exact known.withNode { kept with }
  | resumeSent connected ready =>
    apply Lineal.sendToReceiver
    · exact known.withNode { known.sender with }
    · simp
    · simp
  | resumeAnswered resuming first answer =>
    refine known.withSender { known.sender with } ?_
      System.Recorded.same
    rw [first]
    exact suffix_cons _ _
  | resumed resuming accepted =>
    exact known.withNode { known.sender with }
  | claimed | served =>
    obtain ⟨taken, refines⟩ := known.sender.backed
    exact known.withNode { known.sender with backed := ⟨taken, refines.withClaim _⟩ }
  | started starts =>
    have started := starts.begun
    have fresh := known.fresh _ (Nat.le_refl _)
    have kept := known.sender.started fresh started
    apply Lineal.sendToReceiver
    · exact known.withSender { kept with }
        (suffix_refl _) (System.Recorded.new _)
    · intro message member
      rw [mem_singleton] at member
      cases member
      exact known.sender.begins_lineage fresh started
    · simp
  | answered quiet first answer => exact known.answered first answer
  | announced verified =>
    apply Lineal.sendToReceiver
    · refine known.withNode ?_
      exact
        { known.sender with
          completing := by
            intro other completes
            rcases completes with impossible | same
            · cases impossible
            · cases same
              exact known.sender.completing _ (.inl verified) }
    · simp
    · simp
  | committed announced commits =>
    exact known.withNode (known.sender.commits announced commits)
  | reserved => exact known.reserved _

end Lineal

end ReclaimTee.Precompute
