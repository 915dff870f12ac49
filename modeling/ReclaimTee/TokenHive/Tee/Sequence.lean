/-
The provider's sequence numbers over whole runs of the TEE. A number is durable
before it is handed out, and a crash ends every call. Numbers are issued in order
and once, and a call that got one ends with a receipt for it, but for sessions.
-/

import ReclaimTee.TokenHive.Tee.Service

namespace ReclaimTee.TokenHive.Tee

open List Option

/-! ### The sequence store -/

/-- The counters in memory and in the file, and the numbers recorded so far. -/
structure SeqStore where
  boot : Nat
  data : Text → Nat
  file : Text → Nat
  history : List (Text × Nat)

namespace SeqStore

def initial : SeqStore where
  boot := 0
  data _ := 0
  file _ := 0
  history := []

/-- The counter is advanced, and the counters are written to the file, before
the number is returned. -/
def next (store : SeqStore) (provider : Text) : SeqStore :=
  let data := Function.update store.data provider (store.data provider + 1)
  { store with
    data := data
    file := data
    history := store.history ++ [(provider, store.data provider + 1)] }

/-- A new run of the process reads the file. -/
def restart (store : SeqStore) : SeqStore :=
  { store with boot := store.boot + 1, data := store.file }

/-- A number that could not be written is taken back. -/
def answer (store : SeqStore) : (call : TeeCall) → call.Answer → Option SeqStore
  | .next provider, .ok seq =>
    if seq = store.data provider + 1 then some (store.next provider) else none
  | _, _ => some store

def handle (store : SeqStore) : (request : TeeRequest) → request.Answer → Option SeqStore
  | .sent boot call, answer => if boot = store.boot then store.answer call answer else none
  | .crash, _ => some store.restart

end SeqStore

/-! ### Calls -/

inductive TeeJob
  | execute (boot : Nat) (job : Job)
  | session (boot : Nat) (job : Job)
  | crash
deriving DecidableEq, Repr

def TeeJob.isSession : TeeJob → Bool
  | session _ _ => true
  | _ => false

abbrev TeeResult := Option (Except TeeError SignedReceipt)

namespace Config

variable (config : Config)

def body : TeeJob → TeeProgram TeeResult
  | .execute boot job => do
      let result ← execute config boot job
      return some result
  | .session boot job => do
      let result ← serveSession config boot job
      return some result
  | .crash => do
      let _ ← @Program.ask tee .crash
      return none

def calls : Concurrent tee SeqStore TeeJob TeeResult where
  initial := .initial
  body := config.body
  handle := SeqStore.handle

end Config

abbrev TeeThread := Thread tee TeeJob TeeResult

abbrev TeePool := Pool tee SeqStore TeeJob TeeResult

/-! ### What a call has got and done -/

structure CallPhase where
  number : Option (Text × Nat)
  contacted : Bool
  receipts : List (Text × Nat)
  /-- No fresh signer, or the signature failed. -/
  unsigned : Bool
  /-- The tunnel was not opened, or the Hub could not be told. -/
  dropped : Bool
deriving DecidableEq, Repr

namespace CallPhase

def begin : CallPhase where
  number := none
  contacted := false
  receipts := []
  unsigned := false
  dropped := false

def answered (phase : CallPhase) : (call : TeeCall) → call.Answer → CallPhase
  | .next provider, .ok seq => { phase with number := some (provider, seq) }
  | .exchange _, _ => { phase with contacted := true }
  | .openSession _, .ok _ => { phase with contacted := true }
  | .openSession _, .error _ => { phase with contacted := true, dropped := true }
  | .writeAck, false => { phase with dropped := true }
  | .signingStale, true => { phase with unsigned := true }
  | .sign receipt, .ok _ =>
    { phase with receipts := phase.receipts ++ [(receipt.provider, receipt.providerSeq)] }
  | .sign _, .error _ => { phase with unsigned := true }
  | _, _ => phase

def after (phase : CallPhase) : (request : TeeRequest) → request.Answer → CallPhase
  | .sent _ call, answer => phase.answered call answer
  | .crash, _ => phase

def permitted (phase : CallPhase) : TeeRequest → Prop
  | .sent _ (.next _) => phase.number = none
  | .sent _ (.exchange _) => phase.number ≠ none
  | .sent _ (.openSession _) => phase.number ≠ none
  | .sent _ .writeAck => phase.number ≠ none
  | .sent _ (.sign receipt) =>
    phase.number = some (receipt.provider, receipt.providerSeq) ∧ phase.receipts = []
  | _ => True

end CallPhase

def discipline : Program.Discipline tee CallPhase where
  permitted := CallPhase.permitted
  after := CallPhase.after

def callPhase (thread : TeeThread) : CallPhase :=
  discipline.phaseAfter .begin thread.events

/-- How a call may end: without a number, with a receipt for it, without a
signature, or dropped. -/
structure Concluded (unopened : Prop) (phase : CallPhase) : Prop where
  contacted : ∀ number, phase.number = some number → phase.contacted = true ∨ unopened
  receipt : ∀ number, phase.number = some number →
    phase.receipts = [number] ∨ phase.unsigned = true ∨ phase.dropped = true ∨ unopened
  lost : phase.dropped = true ∨ unopened → phase.receipts = [] ∧ phase.unsigned = false

theorem Concluded.signed {unopened : Prop} {phase : CallPhase} (contacted : phase.contacted = true)
    (kept : phase.dropped = false) (opens : ¬ unopened)
    (receipt : ∀ number, phase.number = some number →
      phase.receipts = [number] ∨ phase.unsigned = true) : Concluded unopened phase where
  contacted _ _ := .inl contacted
  receipt number same := (receipt number same).imp_right .inl
  lost := by
    intro dropped
    rcases dropped with dropped | closed
    · rw [kept] at dropped
      cases dropped
    · exact absurd closed opens

theorem Concluded.unsigned {unopened : Prop} {phase : CallPhase} (receipts : phase.receipts = [])
    (unsigned : phase.unsigned = false)
    (contacted : ∀ number, phase.number = some number → phase.contacted = true ∨ unopened)
    (lost : ∀ number, phase.number = some number → phase.dropped = true ∨ unopened) :
    Concluded unopened phase where
  contacted := contacted
  receipt number same := .inr (.inr (lost number same))
  lost _ := ⟨receipts, unsigned⟩

/-! ### Sending one request -/

section Conduct

variable {Value : Type} {ends : CallPhase → Value → Prop} {phase : CallPhase} {boot : Nat}

theorem obeys_send {call : TeeCall} {rest : call.Answer → TeeProgram Value}
    (onwards : ∀ answer : call.Answer,
      (rest answer).Obeys discipline ends (phase.answered call answer))
    (permitted : phase.permitted (.sent boot call) := by trivial) :
    (send boot call >>= rest).Obeys discipline ends phase :=
  ⟨permitted, onwards⟩

theorem obeys_return {result : Value} (meets : ends phase result) :
    (pure result : TeeProgram Value).Obeys discipline ends phase :=
  meets

variable {config : Config}

theorem precheck_obeys (job : Job) (start : phase = .begin) :
    (precheck config boot job).Obeys discipline (fun later _ => later = .begin) phase := by
  subst start
  refine obeys_send fun stale => ?_
  split
  · exact obeys_return rfl
  refine obeys_send fun spent => ?_
  split
  · exact obeys_return rfl
  have submitter : (admitSubmitter config boot job.spec).Obeys discipline
      (fun later _ => later = .begin) .begin := by
    unfold admitSubmitter
    split
    · exact ⟨trivial, fun _ => rfl⟩
    · exact obeys_return rfl
  refine submitter.bind fun later rejected same => ?_
  subst same
  split
  · exact obeys_return rfl
  refine obeys_send fun invalid => ?_
  split
  · exact obeys_return rfl
  split
  · exact obeys_return rfl
  · exact obeys_return rfl

def numbered (provider : Text) (seq : Nat) : CallPhase :=
  { CallPhase.begin with number := some (provider, seq) }

theorem allocate_obeys (spec : Spec) (decision : Decision) :
    (allocate boot spec decision).Obeys discipline
      (fun later allocated => match allocated with
        | .error _ => later = .begin
        | .ok admitted => later = numbered spec.provider admitted.seq) .begin := by
  refine obeys_send fun injected => ?_
  split
  · exact obeys_return rfl
  refine obeys_send fun hashed => ?_
  split
  · exact obeys_return rfl
  refine obeys_send (fun allocated => ?_) rfl
  cases allocated with
  | error | ok => exact obeys_return rfl

theorem signReceipt_obeys {receipt : Receipt} {unopened : Prop}
    (own : phase.number = some (receipt.provider, receipt.providerSeq))
    (first : phase.receipts = []) (contacted : phase.contacted = true)
    (kept : phase.dropped = false) (opens : ¬ unopened) :
    (signReceipt boot receipt).Obeys discipline (fun later _ => Concluded unopened later) phase := by
  refine obeys_send (fun signature => ?_) ⟨own, first⟩
  cases signature with
  | error reason => exact obeys_return (.signed contacted kept opens fun _ _ => .inr rfl)
  | ok signature =>
    refine obeys_return (.signed contacted kept opens ?_)
    intro number same
    left
    change phase.receipts ++ [(receipt.provider, receipt.providerSeq)] = [number]
    have same : phase.number = some number := same
    rw [own] at same
    rw [first, Option.some.inj same]
    rfl

theorem perform_obeys {unopened : Prop} (opens : ¬ unopened) (job : Job) (admitted : Admitted) (request : Request) :
    (perform config boot job admitted request).Obeys discipline
      (fun later _ => Concluded unopened later) (numbered job.spec.provider admitted.seq) := by
  refine obeys_send (fun exchange => ?_) nofun
  refine obeys_send fun pinned => ?_
  refine obeys_send fun stale => ?_
  cases stale with
  | true => exact obeys_return (.signed rfl rfl opens fun _ _ => .inr rfl)
  | false => exact signReceipt_obeys rfl rfl rfl rfl opens

theorem concluded_begin (unopened : Prop) : Concluded unopened .begin where
  contacted _ impossible := by cases impossible
  receipt _ impossible := by cases impossible
  lost _ := ⟨rfl, rfl⟩

theorem execute_obeys {unopened : Prop} (opens : ¬ unopened) (job : Job) :
    (execute config boot job).Obeys discipline (fun later _ => Concluded unopened later) .begin := by
  refine (precheck_obeys job rfl).bind fun later refused same => ?_
  subst same
  split
  · exact obeys_return (concluded_begin unopened)
  refine obeys_send fun authorized => ?_
  split
  · exact obeys_return (concluded_begin unopened)
  split
  · exact obeys_return (concluded_begin unopened)
  refine (allocate_obeys job.spec _).bind fun later allocated reached => ?_
  cases allocated with
  | error error =>
    subst reached
    exact obeys_return (concluded_begin unopened)
  | ok admitted =>
    subst reached
    exact perform_obeys opens job admitted _

def opened (provider : Text) (seq : Nat) : CallPhase :=
  { numbered provider seq with contacted := true }

theorem openSession_obeys (job : Job) :
    (openSession config boot job).Obeys discipline
      (fun later result => match result with
        | .error _ => Concluded (config.opensSessions = false) later
        | .ok session =>
          config.opensSessions = true ∧ later = opened session.spec.provider session.seq ∧
            session.emitted = none)
      .begin := by
  refine (precheck_obeys job rfl).bind fun later refused same => ?_
  subst same
  split
  · exact obeys_return (concluded_begin _)
  split
  · exact obeys_return (concluded_begin _)
  refine obeys_send fun authorized => ?_
  split
  · exact obeys_return (concluded_begin _)
  refine (allocate_obeys job.spec _).bind fun later allocated reached => ?_
  cases allocated with
  | error error =>
    subst reached
    exact obeys_return (concluded_begin _)
  | ok admitted =>
    subst reached
    dsimp only
    split
    · next closed =>
      exact obeys_return (.unsigned rfl rfl (fun _ _ => .inr closed) fun _ _ => .inr closed)
    next opens =>
    refine obeys_send (fun answer => ?_) nofun
    cases answer with
    | error reason =>
      exact obeys_return (.unsigned rfl rfl (fun _ _ => .inl rfl) fun _ _ => .inl rfl)
    | ok _ => exact obeys_return ⟨Bool.of_not_eq_false opens, rfl, rfl⟩

/-- What the receipt of a session takes from its opening. -/
def Session.opening (session : Session) : Spec × Nat × TeeResult :=
  (session.spec, session.seq, session.emitted)

theorem read_opening (session : Session) (chunk : Text) :
    (session.read chunk).opening = session.opening := by
  unfold Session.read
  repeat' split
  all_goals rfl

theorem relayed_opening (session : Session) (relayed : Relayed) :
    (session.relayed relayed).opening = session.opening := by
  have sent : Session.opening { session with requestBytes := relayed.sent } = session.opening := rfl
  exact List.foldlRecOn (motive := fun later => later.opening = session.opening) relayed.reads
    Session.read sent fun later same chunk _ => (read_opening later chunk).trans same

theorem receipt_obeys {unopened : Prop} (opens : ¬ unopened) (session : Session) (fresh : session.emitted = none) :
    (session.receipt config boot).Obeys discipline (fun later _ => Concluded unopened later)
      (opened session.spec.provider session.seq) := by
  unfold Session.receipt
  rw [fresh]
  refine obeys_send fun stale => ?_
  cases stale with
  | true => exact obeys_return (.signed rfl rfl opens fun _ _ => .inr rfl)
  | false =>
    have signs : (signReceipt boot (session.receiptBody config)).Obeys discipline
        (fun later _ => Concluded unopened later) (opened session.spec.provider session.seq) :=
      signReceipt_obeys rfl rfl rfl rfl opens
    exact signs.bind fun later _ concluded => obeys_return concluded

theorem serveSession_obeys (job : Job) :
    (serveSession config boot job).Obeys discipline
      (fun later _ => Concluded (config.opensSessions = false) later) .begin := by
  refine (openSession_obeys job).bind fun later result reached => ?_
  cases result with
  | error error => exact obeys_return reached
  | ok session =>
    obtain ⟨opens, same, fresh⟩ := reached
    subst same
    refine obeys_send (fun told => ?_) (some_ne_none _)
    cases told with
    | false =>
      exact obeys_return (.unsigned rfl rfl (fun _ _ => .inl rfl) fun _ _ => .inl rfl)
    | true =>
      refine obeys_send fun relayed => ?_
      have kept := relayed_opening session relayed
      simp only [Session.opening, Prod.mk.injEq] at kept
      obtain ⟨spec, seq, emitted⟩ := kept
      have receipt := @receipt_obeys boot config (config.opensSessions = false)
        (fun closed => Bool.false_ne_true (closed.symm.trans opens))
        (session.relayed relayed) (emitted.trans fresh)
      rw [spec, seq] at receipt
      refine receipt.bind fun later _ concluded => ?_
      exact obeys_return concluded

def unopened (config : Config) (job : TeeJob) : Prop :=
  job.isSession = true ∧ config.opensSessions = false

theorem body_obeys (job : TeeJob) :
    (config.body job).Obeys discipline (fun later _ => Concluded (unopened config job) later)
      .begin := by
  cases job with
  | execute boot job =>
    have opens : ¬ unopened config (.execute boot job) := fun closed => Bool.false_ne_true closed.1
    exact (execute_obeys opens job).bind fun _ _ concluded => obeys_return concluded
  | session boot job =>
    refine (serveSession_obeys job).bind fun later _ concluded => ?_
    have same : (config.opensSessions = false) = unopened config (.session boot job) :=
      propext ⟨fun closed => ⟨rfl, closed⟩, fun closed => closed.2⟩
    rw [same] at concluded
    exact obeys_return concluded
  | crash => exact ⟨trivial, fun _ => concluded_begin _⟩

end Conduct

/-! ### What holds of every call -/

/-- A receipt is one for the call's number, and no provider is contacted without. -/
structure Orderly (phase : CallPhase) : Prop where
  contacted : phase.contacted = true → phase.number ≠ none
  dropped : phase.dropped = true → phase.number ≠ none
  receipts : phase.receipts = [] ∨ ∃ number, phase.number = some number ∧ phase.receipts = [number]

theorem Orderly.answered {phase : CallPhase} {call : TeeCall} {boot : Nat} (answer : call.Answer)
    (permitted : phase.permitted (.sent boot call)) (orderly : Orderly phase) :
    Orderly (phase.answered call answer) := by
  obtain ⟨contacted, dropped, receipts⟩ := orderly
  cases call with
  | next provider =>
    cases answer with
    | error reason => exact ⟨contacted, dropped, receipts⟩
    | ok seq =>
      refine ⟨fun _ => some_ne_none _, fun _ => some_ne_none _, ?_⟩
      rcases receipts with none | ⟨number, same, _⟩
      · exact .inl none
      · have fresh : phase.number = none := permitted
        rw [fresh] at same
        cases same
  | exchange request => exact ⟨fun _ => permitted, dropped, receipts⟩
  | openSession request =>
    cases answer with
    | error reason => exact ⟨fun _ => permitted, fun _ => permitted, receipts⟩
    | ok _ => exact ⟨fun _ => permitted, dropped, receipts⟩
  | writeAck =>
    cases answer with
    | false => exact ⟨contacted, fun _ => permitted, receipts⟩
    | true => exact ⟨contacted, dropped, receipts⟩
  | signingStale => cases answer <;> exact ⟨contacted, dropped, receipts⟩
  | sign receipt =>
    cases answer with
    | error reason => exact ⟨contacted, dropped, receipts⟩
    | ok signature =>
      refine ⟨contacted, dropped, .inr ⟨_, permitted.1, ?_⟩⟩
      change phase.receipts ++ [_] = [_]
      rw [permitted.2]
      rfl
  | _ => exact ⟨contacted, dropped, receipts⟩

section Runs

variable {config : Config} {allowed : TeePool → Turn tee TeeJob → Prop} {before after pool : TeePool}

theorem orderly_everywhere (reached : config.calls.machine.Reach allowed pool) :
    ∀ thread ∈ pool.threads, Orderly (callPhase thread) := by
  have begins : Orderly CallPhase.begin :=
    ⟨fun impossible => absurd impossible Bool.false_ne_true,
      fun impossible => absurd impossible Bool.false_ne_true, .inl rfl⟩
  apply Concurrent.phase_everywhere (fun job => body_obeys job) reached (fun _ => begins)
  intro phase request answer permitted orderly
  cases request with
  | sent boot call => exact orderly.answered answer permitted
  | crash => exact orderly

theorem concluded_everywhere (reached : config.calls.machine.Reach allowed pool)
    {thread : TeeThread} (member : thread ∈ pool.threads) {result : TeeResult}
    (ended : thread.program = .done result) :
    Concluded (unopened config thread.job) (callPhase thread) := by
  have follows := Concurrent.follows_everywhere (fun job => body_obeys job) reached thread member
  unfold Concurrent.Follows at follows
  rw [ended] at follows
  exact follows

/-! ### Numbers -/

/-- The numbers of each provider are one, two, three and so on. -/
structure Series (store : SeqStore) : Prop where
  durable : store.data = store.file
  numbers : ∀ provider,
    (store.history.filter fun entry => entry.1 = provider).map Prod.snd =
      List.range' 1 (store.file provider)

theorem Series.next {store : SeqStore} (series : Series store) (provider : Text) :
    Series (store.next provider) := by
  refine ⟨rfl, ?_⟩
  intro other
  unfold SeqStore.next
  dsimp only
  rw [filter_append, map_append, series.numbers other]
  by_cases same : provider = other
  · subst same
    rw [Function.update_self, range'_concat, series.durable]
    simp [Nat.add_comm]
  · rw [Function.update_of_ne (Ne.symm same), series.durable]
    simp [same]

theorem Series.restart {store : SeqStore} (series : Series store) : Series store.restart :=
  ⟨rfl, series.numbers⟩

/-- An answered request advances one counter, restarts, or leaves the store alone. -/
theorem handle_cases {store later : SeqStore} {request : TeeRequest} {answer : tee.Answer request}
    (handled : store.handle request answer = some later) :
    (∃ provider, later = store.next provider ∧ ∀ phase : CallPhase,
        (phase.after request answer).number = some (provider, store.data provider + 1) ∧
          (phase.permitted request → phase.number = none)) ∨
      ((later = store ∨ later = store.restart) ∧
        ∀ phase : CallPhase, (phase.after request answer).number = phase.number) := by
  cases request with
  | crash => exact .inr ⟨.inr (Option.some.inj handled).symm, fun _ => rfl⟩
  | sent boot call =>
    change (if boot = store.boot then store.answer call answer else none) = some later at handled
    split at handled
    · cases call with
      | next provider =>
        cases answer with
        | error reason => exact .inr ⟨.inl (Option.some.inj handled).symm, fun _ => rfl⟩
        | ok seq =>
          change (if seq = store.data provider + 1 then some (store.next provider) else none) =
            some later at handled
          split at handled
          · next same =>
            subst same
            exact .inl ⟨provider, (Option.some.inj handled).symm, fun _ => ⟨rfl, id⟩⟩
          · cases handled
      | openSession _ | writeAck | signingStale | sign _ =>
        cases answer <;> exact .inr ⟨.inl (Option.some.inj handled).symm, fun _ => rfl⟩
      | _ => exact .inr ⟨.inl (Option.some.inj handled).symm, fun _ => rfl⟩
    · cases handled

theorem series_everywhere (reached : config.calls.machine.Reach allowed pool) :
    Series pool.shared := by
  apply reached.invariant
  · exact ⟨rfl, fun _ => rfl⟩
  intro before turn after series _permitted taken
  rcases Concurrent.step_cases taken with ⟨job, _, rfl⟩ | ⟨index, _, _, advance, _⟩
  · exact series
  have shared : after.shared = advance.shared := congrArg Pool.shared advance.result
  rw [shared]
  rcases handle_cases advance.handled with ⟨provider, same, _⟩ | ⟨same | same, _⟩
  · rw [same]
    exact series.next provider
  · rw [same]
    exact series
  · rw [same]
    exact series.restart

def numberOf (thread : TeeThread) : Option (Text × Nat) :=
  (callPhase thread).number

theorem callPhase_turned {index : Nat} (advance : config.calls.Advance before index after) :
    callPhase advance.turned = (callPhase advance.thread).after advance.request advance.answer := by
  unfold callPhase Concurrent.Advance.turned Program.Discipline.phaseAfter
  rw [foldl_append]
  rfl

theorem numbers_everywhere (reached : config.calls.machine.Reach allowed pool) :
    (pool.threads.filterMap numberOf).Perm pool.shared.history := by
  apply Machine.Reach.invariant_given (fun _ known => known) _ _ reached
  · exact List.Perm.refl _
  intro before turn after known held _permitted taken
  rcases Concurrent.step_cases taken with ⟨job, _, rfl⟩ | ⟨index, _, _, advance, _⟩
  · unfold Concurrent.spawned
    rw [filterMap_append]
    exact (append_nil _).symm ▸ held
  · have shared : after.shared = advance.shared := congrArg Pool.shared advance.result
    have follows := Concurrent.follows_everywhere (fun job => body_obeys job) known _
      (mem_of_getElem? advance.found)
    have permitted := (follows.advance advance.sends advance.answer).1
    rw [shared]
    rcases handle_cases advance.handled with ⟨provider, same, numbered⟩ | ⟨same, unnumbered⟩
    · obtain ⟨number, fresh⟩ := numbered (callPhase advance.thread)
      have turned : numberOf advance.turned = some (provider, before.shared.data provider + 1) := by
        unfold numberOf
        rw [callPhase_turned]
        exact number
      rw [same]
      refine (advance.carried numberOf (fresh permitted) turned).trans ?_
      exact (held.cons _).trans (perm_append_singleton _ _).symm
    · have kept : numberOf advance.turned = numberOf advance.thread := by
        unfold numberOf
        rw [callPhase_turned]
        exact unnumbered _
      rw [advance.carried_same numberOf kept]
      rcases same with same | same
      · rw [same]
        exact held
      · rw [same]
        exact held

theorem Series.nodup {store : SeqStore} (series : Series store) : store.history.Nodup := by
  rw [nodup_iff_count_le_one]
  intro entry
  calc
    store.history.count entry
        = (store.history.filter fun other => other.1 = entry.1).count entry := by
          simp
    _ ≤ ((store.history.filter fun other => other.1 = entry.1).map Prod.snd).count entry.2 :=
          count_le_count_map
    _ = (range' 1 (store.file entry.1)).count entry.2 := by rw [series.numbers entry.1]
    _ ≤ 1 := nodup_iff_count_le_one.mp nodup_range' entry.2

theorem receipts_sublist {threads : List TeeThread}
    (orderly : ∀ thread ∈ threads, Orderly (callPhase thread)) :
    (threads.flatMap fun thread => (callPhase thread).receipts).Sublist
      (threads.filterMap numberOf) := by
  induction threads with
  | nil => exact List.Sublist.refl _
  | cons thread rest ih =>
    have below := ih fun other member => orderly other (mem_cons_of_mem _ member)
    rw [flatMap_cons]
    rcases (orderly thread mem_cons_self).receipts with none | ⟨number, same, one⟩
    · rw [none]
      refine below.trans ?_
      exact (sublist_cons_self thread rest).filterMap _
    · have same : numberOf thread = some number := same
      rw [one, filterMap_cons_some same]
      exact below.cons_cons number

/-! ### Every number accounts for an execution -/

/-- The receipt a call with a number owes, unless there was no signature. -/
structure Accounted (phase : CallPhase) : Prop where
  contacted : ∀ number, phase.number = some number → phase.contacted = true
  receipt : ∀ number, phase.number = some number → phase.receipts = [number] ∨ phase.unsigned = true

/-- The tunnel of a session that has a number was opened, and the Hub told. -/
structure Opened (config : Config) (thread : TeeThread) : Prop where
  supported : (callPhase thread).number ≠ none → ¬ unopened config thread.job
  kept : (callPhase thread).dropped = false

theorem Concluded.accounted_iff {thread : TeeThread}
    (concluded : Concluded (unopened config thread.job) (callPhase thread))
    (orderly : Orderly (callPhase thread)) :
    Accounted (callPhase thread) ↔ Opened config thread := by
  constructor
  · intro accounted
    -- What was lost has neither a receipt nor a failed signature.
    have held : ∀ number, (callPhase thread).number = some number →
        ¬ ((callPhase thread).dropped = true ∨ unopened config thread.job) := by
      intro number same lost
      obtain ⟨none, signed⟩ := concluded.lost lost
      rcases accounted.receipt number same with receipt | unsigned
      · rw [none] at receipt
        cases receipt
      · rw [signed] at unsigned
        cases unsigned
    constructor
    · intro numbered closed
      obtain ⟨number, same⟩ := ne_none_iff_exists'.mp numbered
      exact held number same (.inr closed)
    · rw [Bool.eq_false_iff]
      intro dropped
      obtain ⟨number, same⟩ := ne_none_iff_exists'.mp (orderly.dropped dropped)
      exact held number same (.inl dropped)
  · intro opened
    constructor
    · intro number same
      have supported := opened.supported (by rw [same]; exact some_ne_none _)
      exact (concluded.contacted number same).resolve_right supported
    · intro number same
      have supported := opened.supported (by rw [same]; exact some_ne_none _)
      rcases concluded.receipt number same with receipt | unsigned | dropped | closed
      · exact .inl receipt
      · exact .inr unsigned
      · rw [opened.kept] at dropped
        cases dropped
      · exact absurd closed supported

def ended (thread : TeeThread) : Bool :=
  match thread.program with
  | .done _ => true
  | .call _ _ => false

theorem done_of_ended {thread : TeeThread} (gone : ended thread = true) :
    ∃ result, thread.program = .done result := by
  unfold ended at gone
  split at gone
  · next result same => exact ⟨result, same⟩
  · cases gone

/-- Everything is granted, with the given number and handshake. -/
def granted (seq : Nat) (handshake : Except Text Unit) : (request : TeeRequest) → request.Answer
  | .sent _ .signerStale => false
  | .sent _ .budgetSpent => false
  | .sent _ (.submitterVerify _) => none
  | .sent _ (.validateAt _) => none
  | .sent _ (.authorizeAt _) => .ok { maxResponseBytes := 1, maxBodyBytes := 0 }
  | .sent _ (.injectCredential _) => .ok []
  | .sent _ (.specHash _) => .ok []
  | .sent _ (.next _) => .ok seq
  | .sent _ (.exchange _) =>
    { starts := [], chunks := [], status := 0, failed := true }
  | .sent _ (.openSession _) => handshake
  | .sent _ .writeAck => true
  | .sent _ .relay =>
    { sent := 0, reads := [], broken := false }
  | .sent _ .pinnedStale => false
  | .sent _ .signingStale => false
  | .sent _ (.sign _) => .ok []
  | .crash => ()

/-- Numbers count up from one for each provider, over all runs of the process; no
call shares its number or its receipt; a call that has ended had no number or
reached the provider, and has its receipt unless the signature was refused. -/
structure Books (pool : TeePool) : Prop where
  series : ∀ provider,
    (pool.shared.history.filter fun entry => entry.1 = provider).map Prod.snd =
      List.range' 1 (pool.shared.file provider)
  issued : (pool.threads.filterMap numberOf).Perm pool.shared.history
  numbersOnce : (pool.threads.filterMap numberOf).Nodup
  receiptsOnce : (pool.threads.flatMap fun thread => (callPhase thread).receipts).Nodup
  orderly : ∀ thread ∈ pool.threads, Orderly (callPhase thread)
  accounted : ∀ thread ∈ pool.threads, ended thread = true → Accounted (callPhase thread)

end Runs

namespace Sample

theorem digest_length (_ : Text) : (List.replicate 32 0#8).length = 32 :=
  List.length_replicate

theorem lower_ascii (text : Text) (_ : ∀ byte ∈ text, byte.toNat < 0x80) :
    text.map lowerByte = text.map lowerByte :=
  rfl

def config : Config where
  digests :=
    { sha256 := fun _ => List.replicate 32 0#8
      sha256_length := digest_length
      encodeCanonical := fun _ => [] }
  lower :=
    { toLower := fun text => text.map lowerByte
      toLower_ascii := lower_ascii }
  submitterVerify := false
  opensSessions := true

def job (session : Bool) : Job where
  spec :=
    { version := 1
      jobID := ascii "job"
      provider := ascii "provider"
      method := ascii "GET"
      host := ascii "host"
      path := ascii "/"
      query := []
      headers := []
      bodyHash := List.replicate 32 0#8
      nonce := []
      expiresAt := 1
      maxResponseBytes := 1
      stream := false
      session := session
      credential := [] }
  body := []

/-- A request, a crash, and a session after the restart. -/
def turns (handshake : Except Text Unit) (steps : Nat) : List (Turn tee TeeJob) :=
  [.spawn (.execute 0 (job false)), .spawn .crash, .spawn (.session 1 (job true))] ++
    List.replicate 11 (.step 0 (granted 1 handshake)) ++ [.step 1 (granted 1 handshake)] ++
    List.replicate steps (.step 2 (granted 2 handshake))

def accepted : List (Turn tee TeeJob) :=
  turns (.ok ()) 12

def refused : List (Turn tee TeeJob) :=
  turns (.error []) 8

/-- A call as it went, and whether it has ended. -/
structure Call where
  ended : Bool
  phase : CallPhase
deriving DecidableEq

def shows (pool : TeePool) : List Call :=
  pool.threads.map fun thread =>
    { ended := ended thread, phase := callPhase thread }

/-- With a number and its receipt. -/
def signed (seq : Nat) : CallPhase where
  number := some (ascii "provider", seq)
  contacted := true
  receipts := [(ascii "provider", seq)]
  unsigned := false
  dropped := false

/-- With a number and nothing to show for it. -/
def lost (seq : Nat) : CallPhase where
  number := some (ascii "provider", seq)
  contacted := true
  receipts := []
  unsigned := false
  dropped := true

end Sample

open Sample

/-- The books are right exactly as long as every session that has ended with a
number was opened. -/
theorem books_iff {config : Config} {pool : TeePool}
    (reached : config.calls.machine.Reach Machine.Any pool) :
    Books pool ↔ ∀ thread ∈ pool.threads, ended thread = true → Opened config thread := by
  have orderly := orderly_everywhere reached
  have accounted_iff : ∀ thread ∈ pool.threads, ended thread = true →
      (Accounted (callPhase thread) ↔ Opened config thread) := by
    intro thread member ended
    obtain ⟨result, same⟩ := done_of_ended ended
    exact (concluded_everywhere reached member same).accounted_iff (orderly thread member)
  constructor
  · intro books thread member ended
    exact (accounted_iff thread member ended).mp (books.accounted thread member ended)
  · intro opened
    have series := series_everywhere reached
    have issued := numbers_everywhere reached
    have numbersOnce := issued.nodup_iff.mpr series.nodup
    exact
      { series := series.numbers
        issued := issued
        numbersOnce := numbersOnce
        receiptsOnce := (receipts_sublist orderly).nodup numbersOnce
        orderly := orderly
        accounted := fun thread member ended =>
          (accounted_iff thread member ended).mpr (opened thread member ended) }

theorem reached_of_shows (turns : List (Turn tee TeeJob)) (calls : List Call)
    (whole : (config.calls.machine.run config.calls.machine.start turns).map shows = some calls) :
    ∃ pool : TeePool, config.calls.machine.Reach Machine.Any pool ∧ shows pool = calls := by
  obtain ⟨pool, ran, shown⟩ := map_eq_some_iff.mp whole
  exact ⟨pool, Machine.Reach.start.run (fun _ _ _ => trivial) ran, shown⟩

theorem books_iff_sample :
    ∃ pool : TeePool, config.calls.machine.Reach Machine.Any pool ∧
      shows pool =
        [⟨true, signed 1⟩, ⟨true, CallPhase.begin⟩, ⟨true, signed 2⟩] ∧
      Books pool := by
  obtain ⟨pool, reached, shown⟩ := reached_of_shows accepted
    [⟨true, signed 1⟩, ⟨true, CallPhase.begin⟩, ⟨true, signed 2⟩] (by decide +kernel)
  have opened : ∀ thread ∈ pool.threads, ended thread = true → Opened config thread := by
    intro thread member _over
    have kept : ∀ call ∈ shows pool, call.phase.dropped = false := by
      rw [shown]
      decide
    constructor
    · intro _numbered closed
      exact absurd closed.2.symm Bool.false_ne_true
    · exact kept _ (mem_map_of_mem member)
  exact ⟨pool, reached, shown, (books_iff reached).mpr opened⟩

/-- The provider refuses a session's handshake: the session is over, the second
number is taken, and there is no receipt for it. -/
theorem refused_handshake_leaves_gap :
    ∃ pool : TeePool, config.calls.machine.Reach Machine.Any pool ∧
      shows pool =
        [⟨true, signed 1⟩, ⟨true, CallPhase.begin⟩, ⟨true, lost 2⟩] ∧
      ¬ Books pool := by
  obtain ⟨pool, reached, shown⟩ := reached_of_shows refused
    [⟨true, signed 1⟩, ⟨true, CallPhase.begin⟩, ⟨true, lost 2⟩] (by decide +kernel)
  refine ⟨pool, reached, shown, ?_⟩
  intro books
  have member : (⟨true, lost 2⟩ : Call) ∈ shows pool := by
    rw [shown]
    decide
  obtain ⟨thread, member, same⟩ := mem_map.mp member
  have gone : ended thread = true := congrArg Call.ended same
  have phase : callPhase thread = lost 2 := congrArg Call.phase same
  have accounted := books.accounted thread member gone
  rw [phase] at accounted
  rcases accounted.receipt _ rfl with receipt | unsigned
  · cases receipt
  · cases unsigned

end ReclaimTee.TokenHive.Tee
