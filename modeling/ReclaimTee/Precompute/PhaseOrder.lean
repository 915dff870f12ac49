/-
The phases of a batch at TEE_T against any peer, which sends requests in any
order on any connection. The number of batches begun stands for the pointer to
the batch in progress; the log of accepted requests is not part of the node.
-/

import ReclaimTee.Precompute.ReceiverSpec

namespace ReclaimTee.Precompute

open ReclaimTee.Mpc

/-- A session of one control connection that waits for a batch. -/
structure BatchWaiter where
  conn : Conn
  stateID : Nat
  batch : Nat
  startIndex : Nat
  count : Int

/-- TEE_T with its waiting sessions; the batch in progress is the last one begun. -/
structure Reception where
  node : ReceiverNode
  nextConn : Conn
  begun : Nat
  committed : List Nat
  waiting : List BatchWaiter
  log : List (Nat × Conn × Request)

inductive ReceptionEvent where
  | activate
  | tearDown
  | request (conn : Conn) (fails : Bool) (request : Request)
  | consume (conn : Conn) (startIndex : Nat) (count : Int)
  | wake (position : Nat) (canceled : Bool)

namespace Reception

def start : Reception :=
  { node := ReceiverNode.start
    nextConn := 0
    begun := 0
    committed := []
    waiting := []
    log := [] }

def record (s : Reception) (conn : Conn) (request : Request) : Reception :=
  { s with log := s.log ++ [(s.begun, conn, request)] }

/-- The lease admits the requests of the current connection only. -/
def handle (E : Extension) (s : Reception) (conn : Conn) (fails : Bool) (request : Request) :
    Reception :=
  if s.node.control = some conn then
    let outcome := s.node.handleControlMessage E conn fails request
    let s := { s with node := outcome.node }
    if outcome.failure.isSome then
      s
    else
      match request with
      | .precomputeBegin _ => { s with begun := s.begun + 1 }.record conn request
      | .complete _ => { s with committed := s.begun :: s.committed }.record conn request
      | .resume _ _ => s
      | _ => s.record conn request
  else
    s

def consumeOTReceiverEntries (s : Reception) (conn : Conn) (startIndex : Nat) (count : Int) :
    Reception :=
  if s.node.control = some conn then
    match s.node.consumeOTReceiverEntries startIndex count with
    | .refused _ => s
    | .waits _ =>
      { s with
        waiting :=
          { conn := conn
            stateID := s.node.stateID
            batch := s.begun
            startIndex := startIndex
            count := count } :: s.waiting }
    | .took _ node => { s with node := node }
  else
    s

/-- What a waiting session gets; it is blocked while its batch is in progress. -/
def answer (s : Reception) (waiter : BatchWaiter) (canceled : Bool) :
    Option (Except String (List ReceiverOT × ReceiverNode)) :=
  if canceled then
    some (.error "OT receiver precompute wait canceled")
  else if s.node.pending.isSome ∧ s.begun = waiter.batch then
    none
  else if s.node.control ≠ some waiter.conn then
    some (.error "session owner was superseded")
  else if s.node.stateID ≠ waiter.stateID then
    some (.error "OT receiver state changed while waiting for precompute")
  else if waiter.batch ∉ s.committed then
    some (.error "OT receiver precompute did not commit")
  else
    some (s.node.takeEntries waiter.startIndex waiter.count)

def wake (s : Reception) (position : Nat) (canceled : Bool) : Reception :=
  match s.waiting[position]? with
  | none => s
  | some waiter =>
    match s.answer waiter canceled with
    | none => s
    | some (.error _) => { s with waiting := s.waiting.eraseIdx position }
    | some (.ok (_, node)) =>
      { s with node := node, waiting := s.waiting.eraseIdx position }

def step (E : Extension) (s : Reception) : ReceptionEvent → Reception
  | .activate =>
    { s with node := s.node.activateControlConnection s.nextConn, nextConn := s.nextConn + 1 }
  | .tearDown => { s with node := s.node.tearDownControlConnection }
  | .request conn fails request => s.handle E conn fails request
  | .consume conn startIndex count => s.consumeOTReceiverEntries conn startIndex count
  | .wake position canceled => s.wake position canceled

def run (E : Extension) (events : List ReceptionEvent) : Reception :=
  events.foldl (step E) start

end Reception

/-! ### The order of the phases -/

/-- The log ends with the first requests of a batch, on one connection and for one
session. -/
def InOrder (batch : Nat) (conn : Conn) (message : PrecomputeBegin) (count : Nat)
    (log : List (Nat × Conn × Request)) : Prop :=
  ∃ choices challenge poolSize, choices.session = message.session ∧
    challenge.session = message.session ∧
    ([Request.precomputeBegin message, .baseChoices choices, .challenge challenge,
      .complete poolSize].take count).map (fun request => (batch, conn, request)) <:+ log

theorem suffix_snoc {batch : Nat} {conn : Conn} {requests : List Request}
    {log : List (Nat × Conn × Request)}
    (ends : requests.map (fun request => (batch, conn, request)) <:+ log) (request : Request) :
    (requests ++ [request]).map (fun request => (batch, conn, request)) <:+
      log ++ [(batch, conn, request)] := by
  obtain ⟨past, rfl⟩ := ends
  exact ⟨past, by rw [List.map_append, List.append_assoc]; rfl⟩

theorem InOrder.begin (batch : Nat) (conn : Conn) (message : PrecomputeBegin)
    (log : List (Nat × Conn × Request)) :
    InOrder batch conn message 1 (log ++ [(batch, conn, .precomputeBegin message)]) :=
  ⟨⟨message.session, 0, none, true⟩, ⟨message.session, 0, none, true⟩, 0, rfl, rfl,
    List.suffix_append _ _⟩

def ReceiverPhase.handled : ReceiverPhase → Nat
  | .awaitBaseChoices => 1
  | .awaitChallenge => 2
  | .awaitComplete => 3

theorem ReceiverNode.handleControlMessage_owner {E : Extension} {t : ReceiverNode} {conn : Conn}
    {fails : Bool} {request : Request} {pending : ReceiverPrecompute}
    (held : t.pending = some pending)
    (passed : (t.handleControlMessage E conn fails request).failure = none)
    (notBegin : ∀ message, request ≠ .precomputeBegin message)
    (notResume : ∀ epoch nextIndex, request ≠ .resume epoch nextIndex) : pending.conn = conn := by
  by_contra other
  cases request with
  | precomputeBegin message => exact notBegin message rfl
  | baseChoices message =>
    simp [handleControlMessage, handleOTPrecomputeChoices, held, metadataMatches, other,
      Outcome.error] at passed
  | challenge message =>
    simp [handleControlMessage, handleOTPrecomputeChallenge, held, metadataMatches, other,
      Outcome.error] at passed
  | complete poolSize =>
    simp only [handleControlMessage, handleOTPrecomputeComplete, held] at passed
    split at passed <;> cases passed
  | resume epoch nextIndex => exact notResume epoch nextIndex rfl

namespace Reception

theorem answer_ok {s : Reception} {waiter : BatchWaiter} {canceled : Bool}
    {result : List ReceiverOT × ReceiverNode}
    (answered : s.answer waiter canceled = some (.ok result)) :
    waiter.batch ∈ s.committed ∧
      s.node.takeEntries waiter.startIndex waiter.count = .ok result := by
  unfold answer at answered
  iterate 4
    split at answered
    · cases answered
  split at answered
  · cases answered
  · next member => exact ⟨Decidable.of_not_not member, Option.some.inj answered⟩

/-- The log accounts for the batch in progress and for every committed batch. -/
structure Phased (E : Extension) (s : Reception) : Prop where
  backed : s.node.Backed E
  pending : ∀ pending, s.node.pending = some pending →
    (pending.entries = [] ∨ pending.entries = E.received pending.message.batch) ∧
      InOrder s.begun pending.conn pending.message pending.phase.handled s.log
  committed : ∀ batch ∈ s.committed, ∃ conn message past, past <+: s.log ∧
    InOrder batch conn message 4 past

/-- The completion of the batch in progress, all of whose requests were handled. -/
def Commits (s : Reception) (event : ReceptionEvent) (next : Reception) : Prop :=
  ∃ conn fails poolSize message, event = .request conn fails (.complete poolSize) ∧
    InOrder s.begun conn message 4 next.log ∧
    next.node.batches = s.node.batches ++ [message.batch]

structure Advances (E : Extension) (s : Reception) (event : ReceptionEvent)
    (next : Reception) : Prop where
  phased : next.Phased E
  batches : next.node.batches = s.node.batches ∨ next.node.batches = [] ∨ s.Commits event next

namespace Phased

variable {E : Extension} {s : Reception} {event : ReceptionEvent}

theorem withNode (known : s.Phased E) (nextConn : Conn) (waiting : List BatchWaiter)
    {node : ReceiverNode} (backed : node.Backed E)
    (pending : node.pending = s.node.pending ∨ node.pending = none)
    (batches : node.batches = s.node.batches ∨ node.batches = []) :
    s.Advances E event { s with node := node, nextConn := nextConn, waiting := waiting } where
  phased :=
    { backed := backed
      pending := by
        intro batch held
        rcases pending with same | dropped
        · exact known.pending batch (same ▸ held)
        · cases dropped.symm.trans held
      committed := known.committed }
  batches := batches.imp_right .inl

theorem pauses (known : s.Phased E) (waiting : List BatchWaiter) {node : ReceiverNode}
    (pause : s.node.Pauses node) : s.Advances E event { s with node := node, waiting := waiting } :=
  known.withNode s.nextConn waiting (pause.backed E known.backed)
    (pause.pending.imp_right And.left) (.inl pause.batches)

theorem suspended (known : s.Phased E) (nextConn : Conn) (control : Option Conn) (isOpen : Bool) :
    s.Advances E event
      { s with
        node :=
          { s.node.suspendOTReceiverPoolForReconnect with control := control, isOpen := isOpen }
        nextConn := nextConn } := by
  have suspends := s.node.suspendOTReceiverPoolForReconnect_spec
  refine known.withNode _ _ (suspends.2.2 E known.backed) (.inr suspends.1) ?_
  unfold ReceiverNode.suspendOTReceiverPoolForReconnect
  split
  · exact .inl rfl
  · exact .inr rfl

theorem logged (known : s.Phased E) (entry : Nat × Conn × Request) :
    ∀ batch ∈ s.committed, ∃ conn message past, past <+: s.log ++ [entry] ∧
      InOrder batch conn message 4 past := by
  intro batch member
  obtain ⟨conn, message, past, before, ordered⟩ := known.committed batch member
  exact ⟨conn, message, past, before.trans (List.prefix_append _ _), ordered⟩

theorem handle (known : s.Phased E) (conn : Conn) (fails : Bool) (request : Request) :
    s.Advances E (.request conn fails request) (s.handle E conn fails request) := by
  unfold Reception.handle
  split
  swap
  · exact known.pauses _ (ReceiverNode.Pauses.refl _)
  have owner := fun pending held => @ReceiverNode.handleControlMessage_owner E s.node conn fails
    request pending held
  have handled := s.node.handleControlMessage_handled E conn fails request
  generalize s.node.handleControlMessage E conn fails request = outcome at *
  cases handled with
  | refused pause => exact known.pauses _ pause
  | renewedOnly initial =>
    exact known.withNode _ _ (ReceiverNode.backed_empty rfl rfl) (.inr rfl) (.inr rfl)
  | extended =>
    refine ⟨⟨known.backed, ?_, known.logged _⟩, .inl rfl⟩
    rintro _ ⟨⟩
    exact ⟨.inl rfl, InOrder.begin _ _ _ _⟩
  | renewed =>
    refine ⟨⟨ReceiverNode.backed_empty rfl rfl, ?_, known.logged _⟩, .inr (.inl rfl)⟩
    rintro _ ⟨⟩
    exact ⟨.inl rfl, InOrder.begin _ _ _ _⟩
  | committed held phase session =>
    cases owner _ held rfl nofun nofun
    obtain ⟨_, _, challenge, poolSize, _, later, ends⟩ := known.pending _ held
    rw [phase] at ends
    refine ⟨⟨known.backed, ?_, known.logged _⟩, .inl rfl⟩
    rintro _ ⟨⟩
    exact ⟨.inr rfl, _, challenge, poolSize, session, later, suffix_snoc ends _⟩
  | proved held phase session =>
    cases owner _ held rfl nofun nofun
    obtain ⟨entries, choices, _, poolSize, first, _, ends⟩ := known.pending _ held
    rw [phase] at ends
    refine ⟨⟨known.backed, ?_, known.logged _⟩, .inl rfl⟩
    rintro _ ⟨⟩
    exact ⟨entries, choices, _, poolSize, first, session, suffix_snoc ends _⟩
  | @completed poolSize pending _ held phase filled add =>
    cases owner _ held rfl nofun nofun
    obtain ⟨entries, choices, challenge, _, first, later, ends⟩ := known.pending _ held
    rw [phase] at ends
    have ordered : InOrder s.begun pending.conn pending.message 4 _ :=
      ⟨choices, challenge, poolSize, first, later, suffix_snoc ends _⟩
    refine ⟨⟨known.backed.add (entries.resolve_left filled) add rfl rfl, nofun, ?_⟩,
      .inr (.inr ⟨_, _, _, pending.message, rfl, ordered, rfl⟩)⟩
    intro batch member
    rcases List.mem_cons.mp member with rfl | before
    · exact ⟨_, _, _, List.prefix_rfl, ordered⟩
    · exact known.logged _ batch before
  | denied => exact known.pauses _ (ReceiverNode.Pauses.refl _)
  | granted pause => exact known.pauses _ pause

theorem step (known : s.Phased E) (event : ReceptionEvent) :
    s.Advances E event (s.step E event) := by
  have unchanged : s.Advances E event s := known.pauses _ (ReceiverNode.Pauses.refl _)
  cases event with
  | activate =>
    dsimp only [Reception.step, ReceiverNode.activateControlConnection]
    split
    · exact known.suspended _ _ _
    · exact known.withNode _ _ known.backed (.inl rfl) (.inl rfl)
  | tearDown => exact known.suspended _ _ _
  | request conn fails request => exact known.handle conn fails request
  | consume conn startIndex count =>
    dsimp only [Reception.step, Reception.consumeOTReceiverEntries]
    split
    · split
      · exact unchanged
      · exact known.pauses _ (ReceiverNode.Pauses.refl _)
      · next took =>
        have taken := ReceiverNode.consumeOTReceiverEntries_took took
        exact known.pauses _ (ReceiverNode.takeEntries_spec (E := E) taken).1
    · exact unchanged
  | wake position canceled =>
    dsimp only [Reception.step, Reception.wake]
    split
    · exact unchanged
    split
    · exact unchanged
    · exact known.pauses _ (ReceiverNode.Pauses.refl _)
    · next answered =>
      exact known.pauses _ (ReceiverNode.takeEntries_spec (E := E) (answer_ok answered).2).1

theorem run (events : List ReceptionEvent) : (Reception.run E events).Phased E :=
  List.foldlRecOn events _ ⟨ReceiverNode.backed_empty rfl rfl, nofun, nofun⟩
    fun _ known event _ => (known.step event).phased

end Phased

theorem precompute_phases (E : Extension) (events : List ReceptionEvent) :
    let s := run E events
    (∀ event, s.node.pool.totalCount < (s.step E event).node.pool.totalCount →
      s.Commits event (s.step E event)) ∧
    ∀ waiter canceled,
      (s.answer waiter canceled = none ↔
        canceled = false ∧ s.node.pending.isSome ∧ s.begun = waiter.batch) ∧
      ∀ result, s.answer waiter canceled = some (.ok result) →
        ∃ conn message past, past <+: s.log ∧ InOrder waiter.batch conn message 4 past := by
  intro s
  have known : s.Phased E := Phased.run events
  refine ⟨?_, ?_⟩
  · intro event grows
    have advances := known.step event
    obtain ⟨taken, refines⟩ := known.backed
    obtain ⟨takenNext, refinesNext⟩ := advances.phased.backed
    rw [refines.totalCount_eq, refinesNext.totalCount_eq] at grows
    rcases advances.batches with same | emptied | commits
    · rw [same] at grows
      exact absurd grows (Nat.lt_irrefl _)
    · rw [emptied] at grows
      cases grows
    · exact commits
  · intro waiter canceled
    constructor
    · unfold answer
      cases canceled <;> grind
    · intro result answered
      exact known.committed _ (answer_ok answered).1

end Reception

end ReclaimTee.Precompute
