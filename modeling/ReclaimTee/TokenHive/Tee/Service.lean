/-
The TEE's service. A job passes a row of checks, takes the provider's next
sequence number and is performed, which ends with a signed receipt; a session
signs its receipt when the relay has ended. What the checks, the sequence store,
the transport and the signer answer comes from the environment.
-/

import ReclaimTee.Program
import ReclaimTee.TokenHive.Hub.ResponseHeaders

namespace ReclaimTee.TokenHive.Tee

open Hub (HeaderSet LowerCase forwardResponseHeaders hashResponseHeaders)

/-! ### Jobs -/

structure Job where
  spec : Spec
  body : Text
deriving DecidableEq, Repr

structure Decision where
  maxResponseBytes : Nat
  maxBodyBytes : Nat
deriving DecidableEq, Repr

abbrev RequestHeaders := List (Text × Text)

structure Request where
  method : Text
  provider : Text
  host : Text
  path : Text
  query : Text
  headers : RequestHeaders
  body : Text
  stream : Bool
  maxResponseBytes : Nat
  jobID : Text
deriving DecidableEq, Repr

inductive TeeError
  | attestationStale
  | submitterRejected (reason : Text)
  | invalidSpec (reason : Text)
  | bodyMismatch
  | unauthorized (reason : Text)
  | bodyTooLarge (length limit : Nat)
  | sessionBody
  | credential (reason : Text)
  | specHash (reason : Text)
  | allocate (reason : Text)
  | noSessionSupport
  | openSession (reason : Text)
  | sign (reason : Text)
deriving DecidableEq, Repr

structure Config where
  digests : Digests
  lower : LowerCase
  /-- Whether jobs have to be those of a known submitter. -/
  submitterVerify : Bool
  /-- Whether the transport can open sessions. -/
  opensSessions : Bool

/-! ### What the environment answers -/

structure Response where
  status : Nat
  headers : HeaderSet

/-- One exchange as the transport ran it: its calls of start, the chunks it gave
to relay, with whether the caller took each, and what it returned. -/
structure Exchange where
  starts : List Response
  chunks : List (Text × Bool)
  status : Nat
  failed : Bool

/-- A session as the relay ran it: what was sent up, what each read of the
tunnel gave, and whether it ended in something else than its end. -/
structure Relayed where
  sent : Nat
  reads : List Text
  broken : Bool
deriving DecidableEq, Repr

inductive TeeCall
  | signerStale
  | budgetSpent
  | submitterVerify (spec : Spec)
  | validateAt (spec : Spec)
  | authorizeAt (spec : Spec)
  | injectCredential (spec : Spec)
  | specHash (spec : Spec)
  | next (provider : Text)
  | exchange (request : Request)
  | openSession (request : Request)
  | writeAck
  | relay
  | pinnedStale
  | signingStale
  | sign (receipt : Receipt)
deriving DecidableEq, Repr

/-- A call by one run of the process, or the end of that run. -/
inductive TeeRequest
  | sent (boot : Nat) (call : TeeCall)
  | crash
deriving DecidableEq, Repr

@[reducible] def TeeCall.Answer : TeeCall → Type
  | signerStale => Bool
  | budgetSpent => Bool
  -- Why the check refuses the job.
  | submitterVerify _ => Option Text
  | validateAt _ => Option Text
  | authorizeAt _ => Except Text Decision
  | injectCredential _ => Except Text RequestHeaders
  | specHash _ => Except Text Text
  | next _ => Except Text Nat
  | exchange _ => Exchange
  | openSession _ => Except Text Unit
  | writeAck => Bool
  | relay => Relayed
  | pinnedStale => Bool
  | signingStale => Bool
  | sign _ => Except Text Text

@[reducible] def TeeRequest.Answer : TeeRequest → Type
  | sent _ call => call.Answer
  | crash => Unit

@[reducible] def tee : Interface where
  Request := TeeRequest
  Answer := TeeRequest.Answer

abbrev TeeProgram := Program tee

section Service

variable (config : Config) (boot : Nat)

def send (call : TeeCall) : TeeProgram call.Answer :=
  @Program.ask tee (.sent boot call)

/-! ### Admission -/

def bodyHashDomain : Text := ascii "TokenHive.RequestBody.v1"

def matchesBody (digests : Digests) (spec : Spec) (body : Text) : Bool :=
  spec.bodyHash.length = 32 ∧ digests.sha256 (bodyHashDomain ++ body) = spec.bodyHash

/-- What a job that passed the checks goes on with. -/
structure Admitted where
  decision : Decision
  headers : RequestHeaders
  specHash : Text
  seq : Nat

def admitSubmitter (spec : Spec) : TeeProgram (Option Text) :=
  if config.submitterVerify then send boot (.submitterVerify spec) else return none

/-- Freshness, submitter, structure and body, before the policy is asked. -/
def precheck (job : Job) : TeeProgram (Option TeeError) := do
  let stale ← send boot .signerStale
  if stale then
    return some .attestationStale
  let spent ← send boot .budgetSpent
  if spent then
    return some .attestationStale
  let rejected ← admitSubmitter config boot job.spec
  match rejected with
  | some reason => return some (.submitterRejected reason)
  | none =>
    let invalid ← send boot (.validateAt job.spec)
    match invalid with
    | some reason => return some (.invalidSpec reason)
    | none =>
      if matchesBody config.digests job.spec job.body = false then
        return some .bodyMismatch
      else
        return none

/-- Credential and hash, and then the number: the only thing that changes state. -/
def allocate (spec : Spec) (decision : Decision) : TeeProgram (Except TeeError Admitted) := do
  let injected ← send boot (.injectCredential spec)
  match injected with
  | .error reason => return .error (.credential reason)
  | .ok headers =>
    let hashed ← send boot (.specHash spec)
    match hashed with
    | .error reason => return .error (.specHash reason)
    | .ok specHash =>
      let allocated ← send boot (.next spec.provider)
      match allocated with
      | .error reason => return .error (.allocate reason)
      | .ok seq =>
        return .ok { decision := decision, headers := headers, specHash := specHash, seq := seq }

/-! ### Performing a request -/

/-- What relay has counted and taken into the digest. -/
structure RelayState where
  totalBytes : Nat
  totalChunks : Nat
  hashed : List Text
  truncated : Bool
deriving DecidableEq, Repr

def RelayState.begin : RelayState where
  totalBytes := 0
  totalChunks := 0
  hashed := []
  truncated := false

def RelayState.written (state : RelayState) : Nat :=
  (state.hashed.map List.length).sum

/-- A chunk over the limit is counted and not hashed; one the caller refuses is
hashed. -/
def RelayState.relay (maxResponseBytes : Nat) (state : RelayState) (chunk : Text × Bool) :
    RelayState :=
  let counted :=
    { state with
      totalBytes := state.totalBytes + chunk.1.length
      totalChunks := state.totalChunks + 1 }
  if maxResponseBytes < state.written + chunk.1.length then
    { counted with truncated := true }
  else if chunk.2 then
    { counted with hashed := state.hashed ++ [chunk.1] }
  else
    { counted with hashed := state.hashed ++ [chunk.1], truncated := true }

/-- The first start with a status. -/
def Exchange.started (exchange : Exchange) : Option Response :=
  exchange.starts.find? fun response => response.status ≠ 0

def Exchange.relayed (exchange : Exchange) (maxResponseBytes : Nat) : RelayState :=
  exchange.chunks.foldl (RelayState.relay maxResponseBytes) .begin

def Exchange.completion (exchange : Exchange) (maxResponseBytes : Nat) : CompletionState :=
  if exchange.failed ∧ exchange.started.isNone ∧ (exchange.relayed maxResponseBytes).written = 0 then
    .failed
  else if exchange.failed ∨ (exchange.relayed maxResponseBytes).truncated then
    .truncated
  else
    .complete

def Exchange.statusCode (exchange : Exchange) : Nat :=
  if exchange.failed ∧ exchange.started.isNone then 0 else exchange.status

def exchangeReceipt (job : Job) (admitted : Admitted) (exchange : Exchange) : Receipt :=
  let relayed := exchange.relayed admitted.decision.maxResponseBytes
  { jobID := job.spec.jobID
    jobSpecHash := admitted.specHash
    provider := job.spec.provider
    statusCode := exchange.statusCode
    streamHash := hashResponseStream config.digests job.spec.jobID relayed.hashed
    chunkCount := relayed.totalChunks
    responseBytes := relayed.totalBytes
    completion := exchange.completion admitted.decision.maxResponseBytes
    requestBytes := job.body.length
    providerSeq := admitted.seq
    responseHeadersHash :=
      match exchange.started with
      | none => []
      | some response =>
        hashResponseHeaders config.digests config.lower
          (forwardResponseHeaders config.lower response.headers) }

def signReceipt (receipt : Receipt) : TeeProgram (Except TeeError SignedReceipt) := do
  let signature ← send boot (.sign receipt)
  match signature with
  | .error reason => return .error (.sign reason)
  | .ok signature => return .ok { receipt := receipt, signature := signature }

/-- The pinned signer signs, or the one served now when it went stale. -/
def perform (job : Job) (admitted : Admitted) (request : Request) :
    TeeProgram (Except TeeError SignedReceipt) := do
  let exchange ← send boot (.exchange request)
  let _ ← send boot .pinnedStale
  let stale ← send boot .signingStale
  if stale then
    return .error .attestationStale
  else
    signReceipt boot (exchangeReceipt config job admitted exchange)

def execute (job : Job) : TeeProgram (Except TeeError SignedReceipt) := do
  let refused ← precheck config boot job
  match refused with
  | some error => return .error error
  | none =>
    let authorized ← send boot (.authorizeAt job.spec)
    match authorized with
    | .error reason => return .error (.unauthorized reason)
    | .ok decision =>
      if decision.maxBodyBytes < job.body.length then
        return .error (.bodyTooLarge job.body.length decision.maxBodyBytes)
      else
        let allocated ← allocate boot job.spec decision
        match allocated with
        | .error error => return .error error
        | .ok admitted =>
          perform config boot job admitted
            { method := job.spec.method
              provider := job.spec.provider
              host := job.spec.host
              path := job.spec.path
              query := job.spec.query
              headers := admitted.headers
              body := job.body
              stream := job.spec.stream
              maxResponseBytes := decision.maxResponseBytes
              jobID := job.spec.jobID }

/-! ### Sessions -/

structure Session where
  spec : Spec
  specHash : Text
  seq : Nat
  requestBytes : Nat
  responseBytes : Nat
  chunkCount : Nat
  hashed : List Text
  truncated : Bool
  /-- The result of the signature, once there was one. -/
  emitted : Option (Except TeeError SignedReceipt)

def Session.limit (session : Session) : Nat :=
  session.spec.maxResponseBytes

def Session.spent (session : Session) : Bool :=
  0 < session.limit ∧ session.limit ≤ session.responseBytes

def Session.delivered (session : Session) (chunk : Text) : Text :=
  if session.limit = 0 then chunk else chunk.take (session.limit - session.responseBytes)

/-- A read is cut at the session's limit; once that is reached nothing is read. -/
def Session.read (session : Session) (chunk : Text) : Session :=
  if session.spent then
    { session with truncated := true }
  else if chunk = [] then
    session
  else
    let taken := session.delivered chunk
    { session with
      hashed := session.hashed ++ [taken]
      responseBytes := session.responseBytes + taken.length
      chunkCount := session.chunkCount + 1
      truncated := session.truncated ||
        (0 < session.limit ∧ session.limit ≤ session.responseBytes + taken.length) }

def Session.relayed (session : Session) (relayed : Relayed) : Session :=
  let read := relayed.reads.foldl Session.read { session with requestBytes := relayed.sent }
  { read with truncated := read.truncated || relayed.broken }

def Session.receiptBody (session : Session) : Receipt where
  jobID := session.spec.jobID
  jobSpecHash := session.specHash
  provider := session.spec.provider
  statusCode := 101
  streamHash := hashResponseStream config.digests session.spec.jobID session.hashed
  chunkCount := session.chunkCount
  responseBytes := session.responseBytes
  completion := if session.truncated then .truncated else .complete
  requestBytes := session.requestBytes
  providerSeq := session.seq
  responseHeadersHash := []

/-- Signs once; a refusal for want of a fresh signer is not kept. -/
def Session.receipt (session : Session) : TeeProgram (Session × Except TeeError SignedReceipt) := do
  match session.emitted with
  | some result => return (session, result)
  | none =>
    let stale ← send boot .signingStale
    if stale then
      return (session, .error .attestationStale)
    else
      let result ← signReceipt boot (session.receiptBody config)
      return ({ session with emitted := some result }, result)

def openSession (job : Job) : TeeProgram (Except TeeError Session) := do
  let refused ← precheck config boot job
  match refused with
  | some error => return .error error
  | none =>
    if job.body ≠ [] ∨ job.spec.session = false then
      return .error .sessionBody
    else
      let authorized ← send boot (.authorizeAt job.spec)
      match authorized with
      | .error reason => return .error (.unauthorized reason)
      | .ok decision =>
        let allocated ← allocate boot job.spec decision
        match allocated with
        | .error error => return .error error
        | .ok admitted =>
          -- The number is taken by now.
          if config.opensSessions = false then
            return .error .noSessionSupport
          else
            let opened ← send boot (.openSession
              { method := job.spec.method
                provider := job.spec.provider
                host := job.spec.host
                path := job.spec.path
                query := job.spec.query
                headers := admitted.headers
                body := []
                stream := true
                maxResponseBytes := 0
                jobID := job.spec.jobID })
            match opened with
            | .error reason => return .error (.openSession reason)
            | .ok () =>
              return .ok
                { spec := job.spec
                  specHash := admitted.specHash
                  seq := admitted.seq
                  requestBytes := 0
                  responseBytes := 0
                  chunkCount := 0
                  hashed := []
                  truncated := false
                  emitted := none }

/-- The session's server. No receipt is asked for if the Hub could not be told that
the tunnel stands. -/
def serveSession (job : Job) : TeeProgram (Except TeeError SignedReceipt) := do
  let opened ← openSession config boot job
  match opened with
  | .error error => return .error error
  | .ok session =>
    let told ← send boot .writeAck
    if told then
      let relayed ← send boot .relay
      let (_, result) ← (session.relayed relayed).receipt config boot
      return result
    else
      return .error (.openSession (ascii "the Hub is gone"))

end Service

end ReclaimTee.TokenHive.Tee
