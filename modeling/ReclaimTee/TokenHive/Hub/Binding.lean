/-
What a request that the Hub settled is bound to. The receipt is compared with the
chunks and the last response start, never with the dispatched specification, so
the TEE decides whether it is that job's receipt.
-/

import ReclaimTee.TokenHive.Hub.Settlement

namespace ReclaimTee.TokenHive.Hub

open List

/-! ### What a stream says -/

/-- The contents of the last receipt frame. -/
def lastReceipt (frames : List SSEEvent) : Text :=
  ((frames.filter fun frame => frame.type = ascii "receipt").getLast?.map SSEEvent.data).getD []

section Frames

variable {seam : Seam} {callbacks : Callbacks} {frames : List SSEEvent} {frame : SSEEvent}

theorem starts_append_other (other : frame.type ≠ ascii "start") :
    seam.starts (frames ++ [frame]) = seam.starts frames := by
  simp [Seam.starts, other]

theorem starts_append_start (isStart : frame.type = ascii "start") :
    seam.starts (frames ++ [frame]) = seam.starts frames ++ (seam.unmarshalStart frame.data).toList := by
  cases decoded : seam.unmarshalStart frame.data with
  | none | some => simp [Seam.starts, isStart, decoded]

theorem lastReceipt_append_other (other : frame.type ≠ ascii "receipt") :
    lastReceipt (frames ++ [frame]) = lastReceipt frames := by
  simp [lastReceipt, other]

theorem lastReceipt_append_receipt (isReceipt : frame.type = ascii "receipt") :
    lastReceipt (frames ++ [frame]) = frame.data := by
  simp [lastReceipt, isReceipt]

theorem handedChunks_append (handed more : List Callback) :
    handedChunks (handed ++ more) = handedChunks handed ++ handedChunks more :=
  filterMap_append

theorem handedStarts_append (handed more : List Callback) :
    handedStarts (handed ++ more) = handedStarts handed ++ handedStarts more :=
  filterMap_append

/-! ### What the reader keeps and hands on -/

variable (seam callbacks) in
structure Read (frames : List SSEEvent) (reading : Reading) : Prop where
  chunks : callbacks.onChunk = true → handedChunks reading.handed = reading.result.chunks
  starts : callbacks.onStart = true → handedStarts reading.handed = seam.starts frames
  silent : callbacks.onStart = false → handedStarts reading.handed = []
  last : (seam.starts frames).getLast?.getD .unseen =
    { status := reading.result.status, headers := reading.result.headers }
  receipt : reading.receipt = lastReceipt frames

variable {reading : Reading}

section Read

variable (read : Read seam callbacks frames reading)
include read

/-- A frame that brings neither a start nor a receipt, and hands nothing on. -/
theorem Read.other {later : Reading}
    (same : seam.starts (frames ++ [frame]) = seam.starts frames) (noReceipt : frame.type ≠ ascii "receipt")
    (handed : later.handed = reading.handed) (chunks : later.result.chunks = reading.result.chunks)
    (status : later.result.status = reading.result.status)
    (headers : later.result.headers = reading.result.headers)
    (receipt : later.receipt = reading.receipt) :
    Read seam callbacks (frames ++ [frame]) later where
  chunks wanted := by
    rw [handed, chunks]
    exact read.chunks wanted
  starts wanted := by
    rw [handed, same]
    exact read.starts wanted
  silent absent := by
    rw [handed]
    exact read.silent absent
  last := by
    rw [same, status, headers]
    exact read.last
  receipt := by
    rw [receipt, lastReceipt_append_other noReceipt]
    exact read.receipt

theorem Read.chunk
    (noStart : frame.type ≠ ascii "start") (noReceipt : frame.type ≠ ascii "receipt") :
    Read seam callbacks (frames ++ [frame]) (Seam.readChunk callbacks reading frame.data) := by
  have handed : handedStarts (Seam.readChunk callbacks reading frame.data).handed =
      handedStarts reading.handed := by
    unfold Seam.readChunk
    cases callbacks.onChunk with
    | false => rfl
    | true => exact (handedStarts_append _ _).trans (append_nil _)
  constructor
  · intro wanted
    have earlier := read.chunks wanted
    simp only [Seam.readChunk, wanted, if_true]
    rw [handedChunks_append, earlier]
    rfl
  · intro wanted
    rw [handed, starts_append_other noStart]
    exact read.starts wanted
  · intro absent
    rw [handed]
    exact read.silent absent
  · rw [starts_append_other noStart]
    exact read.last
  · rw [lastReceipt_append_other noReceipt]
    exact read.receipt

theorem Read.start (isStart : frame.type = ascii "start") :
    Read seam callbacks (frames ++ [frame]) (seam.readStart callbacks reading frame.data) := by
  have noReceipt : frame.type ≠ ascii "receipt" := by
    rw [isStart]
    decide
  cases decoded : seam.unmarshalStart frame.data with
  | none =>
    have same : seam.starts (frames ++ [frame]) = seam.starts frames := by
      rw [starts_append_start isStart, decoded]
      exact append_nil _
    simp only [Seam.readStart, decoded]
    exact read.other same noReceipt rfl rfl rfl rfl rfl
  | some start =>
    have more : seam.starts (frames ++ [frame]) = seam.starts frames ++ [start] := by
      rw [starts_append_start isStart, decoded]
      rfl
    simp only [Seam.readStart, decoded]
    constructor
    · intro wanted
      have earlier := read.chunks wanted
      cases callbacks.onStart with
      | false => exact earlier
      | true =>
        simp only [if_true]
        rw [handedChunks_append, earlier]
        exact append_nil _
    · intro wanted
      simp only [wanted, if_true]
      rw [handedStarts_append, read.starts wanted, more]
      rfl
    · intro absent
      simp only [absent]
      exact read.silent absent
    · rw [more, getLast?_concat]
      rfl
    · rw [lastReceipt_append_other noReceipt]
      exact read.receipt

theorem Read.step (frame : SSEEvent) :
    Read seam callbacks (frames ++ [frame]) (seam.readFrame callbacks reading frame) := by
  unfold Seam.readFrame
  split
  · next isChunk =>
    have noStart : frame.type ≠ ascii "start" := by
      rcases isChunk with same | same <;> rw [same] <;> decide
    have noReceipt : frame.type ≠ ascii "receipt" := by
      rcases isChunk with same | same <;> rw [same] <;> decide
    split
    · exact read.chunk noStart noReceipt
    · exact read.other (starts_append_other noStart) noReceipt rfl rfl rfl rfl rfl
  split
  · next isStart => exact read.start isStart
  next noStart =>
  split
  · next isFailure =>
    have noReceipt : frame.type ≠ ascii "receipt" := by
      rw [isFailure]
      decide
    unfold Seam.readFailure
    split <;> exact read.other (starts_append_other noStart) noReceipt rfl rfl rfl rfl rfl
  split
  · next isReceipt =>
    constructor
    · exact read.chunks
    · rw [starts_append_other noStart]
      exact read.starts
    · exact read.silent
    · rw [starts_append_other noStart]
      exact read.last
    · exact (lastReceipt_append_receipt isReceipt).symm
  next noReceipt =>
  split <;> exact read.other (starts_append_other noStart) noReceipt rfl rfl rfl rfl rfl

theorem read_onwards (more : List SSEEvent) :
    Read seam callbacks (frames ++ more) (more.foldl (seam.readFrame callbacks) reading) := by
  induction more generalizing frames reading with
  | nil =>
    rw [append_nil]
    exact read
  | cons frame rest ih =>
    have onwards := ih (read.step frame)
    rw [append_assoc] at onwards
    exact onwards

end Read

theorem read_frames (frames : List SSEEvent) :
    Read seam callbacks frames (seam.readFrames callbacks frames) := by
  have initially : Read seam callbacks [] Reading.begin :=
    ⟨fun _ => rfl, fun _ => rfl, fun _ => rfl, rfl, rfl⟩
  exact read_onwards initially frames

/-- A stream without an error ends with the receipt of its last receipt frame. -/
theorem verdict_none {result : Result} (accepted : seam.readSSE callbacks frames = (result, none)) :
    ∃ signed, seam.decodeReceiptFrame (lastReceipt frames) = some signed ∧
      result = { (seam.readFrames callbacks frames).result with receipt := signed } := by
  unfold Seam.readSSE Seam.verdict at accepted
  rw [(read_frames frames).receipt] at accepted
  split at accepted
  · cases accepted
  split at accepted
  · cases accepted
  split at accepted
  · cases accepted
  split at accepted <;> cases accepted
  rename_i signed decoded
  exact ⟨signed, decoded, rfl⟩

end Frames

/-! ### What was dispatched -/

def dispatch (event : hub.Event) : Option (Spec × SeamAnswer) :=
  match event with
  | ⟨.execute spec _, answer⟩ => some (spec, answer)
  | _ => none

/-- The specifications sent to the TEE, with its answers. -/
def dispatches (events : List hub.Event) : List (Spec × SeamAnswer) :=
  events.filterMap dispatch

theorem dispatches_append (events more : List hub.Event) :
    dispatches (events ++ more) = dispatches events ++ dispatches more :=
  filterMap_append

/-- A program that sends nothing to the TEE. -/
def Silent {Value : Type} (program : HubProgram Value) : Prop :=
  ∀ events result, program.Ends events result → dispatches events = []

section Silence

variable {First Second : Type}

theorem silent_return (result : First) : Silent (pure result : HubProgram First) := by
  intro events result run
  cases run
  rfl

theorem Silent.bind {program : HubProgram First} {rest : First → HubProgram Second}
    (silent : Silent program) (onwards : ∀ result, Silent (rest result)) :
    Silent (program >>= rest) := by
  intro events result run
  obtain ⟨before, middle, after, first, second, rfl⟩ := Program.Ends.of_bind run
  rw [dispatches_append, silent before middle first, onwards middle after result second]
  rfl

theorem silent_send {request : HubRequest}
    (other : ∀ answer, dispatch ⟨request, answer⟩ = none) : Silent (send request) := by
  intro events result run
  cases run with
  | call rest =>
    cases rest
    exact filterMap_cons_none (other result)

end Silence

/-! ### What settles -/

theorem beginJob_silent (tenant : Text) : Silent (beginJob tenant) := by
  refine (silent_send fun _ => rfl).bind fun free => ?_
  split
  · refine Silent.bind ?_ fun refused => ?_
    · refine (silent_send fun _ => rfl).bind fun affordable => ?_
      split
      · refine (silent_send fun _ => rfl).bind fun within => ?_
        split
        · exact silent_return _
        · exact silent_return _
      · exact silent_return _
    · split
      · exact silent_return _
      · exact (silent_send fun _ => rfl).bind fun _ => silent_return _
  · exact silent_return _

section Settling

variable {config : Config} {tenant model provider jobID body : Text} {bill : Bill}
  {signed : SignedReceipt} {spec : Spec} {card : RateCard} {result : Result}
  {callbacks : Callbacks} {events : List hub.Event}

theorem settle_silent : Silent (Config.settle tenant provider jobID bill) := by
  refine (silent_send fun _ => rfl).bind fun claimed => ?_
  split
  · refine (silent_send fun _ => rfl).bind fun _ => ?_
    refine (silent_send fun _ => rfl).bind fun _ => ?_
    exact (silent_send fun _ => rfl).bind fun _ => silent_return _
  · exact silent_return _

theorem storeAndSettle_silent : Silent (config.storeAndSettle tenant provider signed bill) := by
  unfold Config.storeAndSettle
  split
  · refine (silent_send fun _ => rfl).bind fun refused => ?_
    split
    · exact silent_return _
    · exact silent_return _
  · refine (silent_send fun _ => rfl).bind fun refused => ?_
    split
    · exact silent_return _
    · exact settle_silent.bind fun _ => silent_return _

theorem settleReceipt_silent : Silent (config.settleReceipt tenant provider signed bill) := by
  unfold Config.settleReceipt
  split
  · exact settle_silent.bind fun _ => silent_return _
  · exact storeAndSettle_silent

theorem account_none {outcome : Outcome}
    (run : (config.account tenant model spec card result).Ends events (outcome, none)) :
    outcome.receipt = result.receipt ∧ dispatches events = [] ∧
      config.verify result.receipt = none ∧
      result.receipt.receipt.matchesStream config.seam.digests result.chunks = true ∧
      config.seam.receiptMatchesStart result.receipt.receipt result.status result.headers =
        true := by
  unfold Config.account at run
  split at run
  · cases run
  next verified =>
  obtain ⟨_, noted, compared, rfl⟩ := ends_of_send run
  split at compared
  · cases compared
  next matched =>
  split at compared
  · cases compared
  next started =>
  dsimp only at compared
  split at compared
  · cases compared
  obtain ⟨before, ⟨stored, error⟩, after, settled, returned, rfl⟩ := Program.Ends.of_bind compared
  cases returned
  refine ⟨rfl, ?_, verified, Bool.eq_true_of_not_eq_false matched,
    Bool.eq_true_of_not_eq_false started⟩
  rw [append_nil]
  exact settleReceipt_silent before _ settled

/-- What a call dispatched and read when it returns without an error. -/
structure Dispatched (config : Config) (callbacks : Callbacks) (dispatched : Spec)
    (frames : List SSEEvent) (execution : Execution) : Prop where
  handed : execution.handed = (config.seam.readFrames callbacks frames).handed
  receipt : config.seam.decodeReceiptFrame (lastReceipt frames) = some execution.outcome.receipt
  verified : config.verify execution.outcome.receipt = none
  stream : execution.outcome.receipt.receipt.matchesStream config.seam.digests
    (config.seam.readFrames callbacks frames).result.chunks = true
  start : config.seam.receiptMatchesStart execution.outcome.receipt.receipt
    (config.seam.readFrames callbacks frames).result.status
    (config.seam.readFrames callbacks frames).result.headers = true

theorem attachCredential_ends {attached : Except HubError Spec}
    (run : (attachCredential spec).Ends events attached) :
    dispatches events = [] ∧ ∀ dispatched, attached = .ok dispatched →
      ∃ credential, dispatched = { spec with credential := credential } := by
  obtain ⟨envelope, after, answered, rfl⟩ := ends_of_send run
  split at answered
  · cases answered
    refine ⟨rfl, ?_⟩
    intro _ impossible
    cases impossible
  · cases answered
    refine ⟨rfl, ?_⟩
    intro dispatched same
    cases same
    exact ⟨spec.credential, rfl⟩
  · next encoded =>
    cases answered
    refine ⟨rfl, ?_⟩
    intro dispatched same
    cases same
    exact ⟨encoded, rfl⟩

theorem attempt_none {execution : Execution}
    (run : (config.attempt callbacks tenant model spec body).Ends events execution)
    (settled : execution.error = none) :
    ∃ credential frames,
      dispatches events = [({ spec with credential := credential }, .stream frames)] ∧
        Dispatched config callbacks { spec with credential := credential } frames execution := by
  obtain ⟨card, asked, carded, rfl⟩ := ends_of_send run
  split at carded
  · cases carded
    cases settled
  obtain ⟨before, attached, after, attach, prepared, rfl⟩ := Program.Ends.of_bind carded
  obtain ⟨quiet, changed⟩ := attachCredential_ends attach
  split at prepared
  · cases prepared
    cases settled
  next dispatched =>
  obtain ⟨credential, rfl⟩ := changed _ rfl
  obtain ⟨_, noted, announced, rfl⟩ := ends_of_send prepared
  obtain ⟨answer, rest, answered, rfl⟩ := ends_of_send announced
  split at answered
  · cases answered
    cases settled
  next frames =>
  split at answered
  · cases answered
    cases settled
  next result read =>
  obtain ⟨between, ⟨outcome, error⟩, final, accounted, returned, rfl⟩ :=
    Program.Ends.of_bind answered
  cases returned
  cases settled
  obtain ⟨signed, decoded, kept⟩ := verdict_none read
  obtain ⟨receipt, silent, verified, matched, started⟩ := account_none accounted
  refine ⟨credential, frames, ?_, ?_⟩
  · change dispatches (before ++ _) = _
    rw [dispatches_append, quiet]
    change (_, _) :: dispatches (between ++ []) = _
    rw [append_nil, silent]
  · subst kept
    rw [← receipt] at verified matched started
    exact
      { handed := rfl
        receipt := by
          rw [decoded, receipt]
        verified := verified
        stream := matched
        start := started }

theorem execute_none {execution : Execution}
    (run : (config.execute callbacks tenant model spec body).Ends events execution)
    (settled : execution.error = none) :
    ∃ credential frames,
      dispatches events = [({ spec with credential := credential }, .stream frames)] ∧
        Dispatched config callbacks { spec with credential := credential } frames execution := by
  obtain ⟨before, refused, after, began, admitted, rfl⟩ := Program.Ends.of_bind run
  have quiet := beginJob_silent tenant before refused began
  split at admitted
  · cases admitted
    cases settled
  obtain ⟨during, inner, final, attempted, released, rfl⟩ := Program.Ends.of_bind admitted
  obtain ⟨_, _, returned, rfl⟩ := ends_of_send released
  cases returned
  obtain ⟨credential, frames, sent, dispatched⟩ := attempt_none attempted settled
  refine ⟨credential, frames, ?_, dispatched⟩
  rw [dispatches_append, dispatches_append, quiet, sent]
  rfl

end Settling

/-! ### Receipts bound to what was dispatched and shown -/

/-- The receipt is that of the dispatched job, its stream hash that of the bytes
the caller was handed, and every start handed to the caller is the attested one. -/
structure Bound (config : Config) (callbacks : Callbacks) (dispatched : Spec)
    (execution : Execution) : Prop where
  jobID : execution.outcome.receipt.receipt.jobID = dispatched.jobID
  jobSpecHash :
    execution.outcome.receipt.receipt.jobSpecHash = dispatched.hash config.seam.digests
  provider : execution.outcome.receipt.receipt.provider = dispatched.provider
  shown : callbacks.onChunk = true →
    execution.outcome.receipt.receipt.streamHash =
      hashResponseStream config.seam.digests dispatched.jobID (handedChunks execution.handed)
  starts : ∀ start ∈ handedStarts execution.handed,
    execution.outcome.receipt.receipt.statusCode = start.status ∧
      execution.outcome.receipt.receipt.responseHeadersHash =
        config.seam.hashResponseHeaders start.headers

/-- What a request that settled is bound to in any case: the verified receipt of the
stream attests, under its own job ID, the bytes the caller was handed, and the
last start. -/
structure Attested (config : Config) (callbacks : Callbacks) (frames : List SSEEvent)
    (execution : Execution) : Prop where
  receipt : config.seam.decodeReceiptFrame (lastReceipt frames) = some execution.outcome.receipt
  verified : config.verify execution.outcome.receipt = none
  shown : callbacks.onChunk = true →
    execution.outcome.receipt.receipt.streamHash =
      hashResponseStream config.seam.digests execution.outcome.receipt.receipt.jobID
        (handedChunks execution.handed)
  started : ∀ last, (handedStarts execution.handed).getLast? = some last →
    config.seam.receiptMatchesStart execution.outcome.receipt.receipt last.status last.headers =
      true

/-- The stream's receipt is that of the job; if starts are handed on, the receipt
attests one and all starts of the stream agree with the last. -/
def Seam.Answers (seam : Seam) (callbacks : Callbacks) (dispatched : Spec)
    (frames : List SSEEvent) : Prop :=
  ∃ signed, seam.decodeReceiptFrame (lastReceipt frames) = some signed ∧
    signed.receipt.jobID = dispatched.jobID ∧
    signed.receipt.jobSpecHash = dispatched.hash seam.digests ∧
    signed.receipt.provider = dispatched.provider ∧
    (callbacks.onStart = true → ∀ last, (seam.starts frames).getLast? = some last →
      signed.receipt.responseHeadersHash ≠ [] ∧
        ∀ start ∈ seam.starts frames,
          start.status = last.status ∧
            seam.hashResponseHeaders start.headers = seam.hashResponseHeaders last.headers)

section Binding

variable {config : Config} {callbacks : Callbacks} {dispatched : Spec} {frames : List SSEEvent}
  {execution : Execution}

theorem attested_iff {seam : Seam} {receipt : Receipt} {last start : ResponseStart}
    (matched : seam.receiptMatchesStart receipt last.status last.headers = true)
    (attests : receipt.responseHeadersHash ≠ []) :
    (receipt.statusCode = start.status ∧
        receipt.responseHeadersHash = seam.hashResponseHeaders start.headers) ↔
      start.status = last.status ∧
        seam.hashResponseHeaders start.headers = seam.hashResponseHeaders last.headers := by
  unfold Seam.receiptMatchesStart at matched
  rw [if_neg attests] at matched
  split at matched
  · cases matched
  rename_i same
  have status : receipt.statusCode = last.status := not_not.mp same
  have headers := of_decide_eq_true matched
  rw [status, ← headers]
  constructor
  · intro ⟨first, second⟩
    exact ⟨first.symm, second.symm⟩
  · intro ⟨first, second⟩
    exact ⟨first.symm, second.symm⟩

section Facts

variable (facts : Dispatched config callbacks dispatched frames execution)
include facts

theorem Dispatched.last_matches {last : ResponseStart}
    (final : (config.seam.starts frames).getLast? = some last) :
    config.seam.receiptMatchesStart execution.outcome.receipt.receipt last.status last.headers =
      true := by
  have seen := (@read_frames config.seam callbacks frames).last
  rw [final] at seen
  change last = _ at seen
  rw [seen]
  exact facts.start

theorem Dispatched.attested : Attested config callbacks frames execution where
  receipt := facts.receipt
  verified := facts.verified
  shown wanted := by
    rw [facts.handed, (@read_frames config.seam callbacks frames).chunks wanted]
    exact matchesStream_iff.mp facts.stream
  started last final := by
    have read := @read_frames config.seam callbacks frames
    rw [facts.handed] at final
    cases wanted : callbacks.onStart with
    | false =>
      rw [read.silent wanted] at final
      cases final
    | true =>
      rw [read.starts wanted] at final
      exact facts.last_matches final

theorem Dispatched.starts_iff :
    (∀ start ∈ handedStarts execution.handed,
        execution.outcome.receipt.receipt.statusCode = start.status ∧
          execution.outcome.receipt.receipt.responseHeadersHash =
            config.seam.hashResponseHeaders start.headers) ↔
      (callbacks.onStart = true → ∀ last, (config.seam.starts frames).getLast? = some last →
        execution.outcome.receipt.receipt.responseHeadersHash ≠ [] ∧
          ∀ start ∈ config.seam.starts frames,
            start.status = last.status ∧
              config.seam.hashResponseHeaders start.headers =
                config.seam.hashResponseHeaders last.headers) := by
  have read := @read_frames config.seam callbacks frames
  rw [facts.handed]
  cases wanted : callbacks.onStart with
  | false =>
    rw [read.silent wanted]
    constructor
    · nofun
    · nofun
  | true =>
    rw [read.starts wanted]
    cases final : (config.seam.starts frames).getLast? with
    | none =>
      rw [getLast?_eq_none_iff.mp final]
      constructor
      · nofun
      · nofun
    | some last =>
      have matched := facts.last_matches final
      constructor
      · intro attested _ other same
        cases same
        have member := mem_of_getLast? final
        have attests : execution.outcome.receipt.receipt.responseHeadersHash ≠ [] := by
          rw [(attested last member).2]
          exact Seam.hashResponseHeaders_ne_nil last.headers
        refine ⟨attests, ?_⟩
        intro start here
        exact (attested_iff matched attests).mp (attested start here)
      · intro agrees start here
        obtain ⟨attests, same⟩ := agrees rfl last rfl
        exact (attested_iff matched attests).mpr (same start here)

theorem Dispatched.bound_iff_answers :
    Bound config callbacks dispatched execution ↔
      config.seam.Answers callbacks dispatched frames := by
  constructor
  · intro bound
    exact ⟨_, facts.receipt, bound.jobID, bound.jobSpecHash, bound.provider,
      facts.starts_iff.mp bound.starts⟩
  · intro ⟨signed, decoded, jobID, jobSpecHash, provider, starts⟩
    rw [facts.receipt] at decoded
    cases decoded
    refine ⟨jobID, jobSpecHash, provider, ?_, facts.starts_iff.mpr starts⟩
    intro wanted
    rw [← jobID]
    exact facts.attested.shown wanted

end Facts

end Binding

/-! ### A stream of another job -/

namespace BindingSample

def callbacks : Callbacks where
  onChunk := true
  onStart := true

/-- The TEE answers with the stream of the given job. -/
def oracle (answered : Text) : (request : HubRequest) → request.Answer
  | .execute _ _ => .stream (Sample.frames answered)
  | request => Sample.oracle request

def run (answered : Text) : List hub.Event × Execution :=
  (Sample.config.execute callbacks [] [] Sample.spec []).under (oracle answered)

theorem run_ends (answered : Text) :
    (Sample.config.execute callbacks [] [] Sample.spec []).Ends (run answered).1
      (run answered).2 :=
  Program.ends_under _ _

end BindingSample

open BindingSample

/-- A whole exchange of another job, with its start, chunks and receipt, settles. -/
theorem foreign_receipt_settles :
    (Sample.config.execute callbacks [] [] Sample.spec []).Ends
        (run (ascii "other")).1 (run (ascii "other")).2 ∧
      (run (ascii "other")).2.error = none ∧
      ¬ Bound Sample.config callbacks Sample.spec
        (run (ascii "other")).2 := by
  refine ⟨run_ends _, by decide +kernel, ?_⟩
  intro bound
  have other : (run (ascii "other")).2.outcome.receipt.receipt.jobID =
      ascii "other" := by
    decide +kernel
  have same := bound.jobID
  rw [other] at same
  exact absurd same (by decide)

/-- A request that settled made one dispatch, and the receipt attests what the caller
was handed. It is bound to the dispatched specification exactly if the TEE's
stream answers it, which the Hub never compares. -/
theorem bound_iff {config : Config} {callbacks : Callbacks} {tenant model body : Text} {spec : Spec}
    {events : List hub.Event} {execution : Execution}
    (run : (config.execute callbacks tenant model spec body).Ends events execution)
    (settled : execution.error = none) :
    ∃ credential frames,
      dispatches events = [({ spec with credential := credential }, .stream frames)] ∧
        Attested config callbacks frames execution ∧
        (Bound config callbacks { spec with credential := credential } execution ↔
          config.seam.Answers callbacks { spec with credential := credential } frames) := by
  obtain ⟨credential, frames, sent, facts⟩ := execute_none run settled
  exact ⟨credential, frames, sent, facts.attested, facts.bound_iff_answers⟩

/-- The stream of the job itself: a start, two chunks and a receipt. -/
theorem bound_iff_sample :
    (run (ascii "job")).2.error = none ∧
      handedChunks (run (ascii "job")).2.handed = [ascii "a", ascii "job"] ∧
      handedStarts (run (ascii "job")).2.handed = [Sample.start] ∧
      Bound Sample.config callbacks Sample.spec
        (run (ascii "job")).2 := by
  have settled : (run (ascii "job")).2.error = none := by
    decide +kernel
  have known : dispatches (run (ascii "job")).1 =
      [(Sample.spec, .stream (Sample.frames (ascii "job")))] := by
    decide +kernel
  obtain ⟨credential, frames, sent, _, bound⟩ := bound_iff (run_ends _) settled
  obtain ⟨spec, answer⟩ := Prod.mk.inj (List.cons.inj (known.symm.trans sent)).1
  rw [← spec, ← SeamAnswer.stream.inj answer] at bound
  refine ⟨settled, by decide +kernel, by decide +kernel, bound.mpr ?_⟩
  refine ⟨Sample.receiptOf (ascii "job"), by decide +kernel, rfl, rfl, rfl, ?_⟩
  intro _
  have starts : Sample.config.seam.starts (Sample.frames (ascii "job")) = [Sample.start] := by
    decide +kernel
  rw [starts]
  intro last final
  cases final
  exact ⟨by decide +kernel, by decide⟩

end ReclaimTee.TokenHive.Hub
