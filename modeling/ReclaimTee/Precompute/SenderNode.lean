/-
The sender node TEE_K: its retained pool, the batch in progress, the control
supervisor and the goroutines that refill the pool. A definition is one locked
section with the write that follows it; the completion of a batch stays three,
because other goroutines run in between.
-/

import ReclaimTee.Precompute.Protocol

namespace ReclaimTee.Precompute

open ReclaimTee.Mpc

inductive SenderPhase where
  | awaitBaseSetup
  | awaitCommitment
  | awaitProof
  | processingProof
deriving DecidableEq, Repr

/-- A batch in progress. Its session stands for the identity of the request. -/
structure SenderPrecompute where
  session : Session
  count : Nat
  startIndex : Nat
  isInitial : Bool
  phase : SenderPhase
  conn : Conn
  extendClaim : Option Nat
deriving DecidableEq, Repr

def SenderPrecompute.batch (pending : SenderPrecompute) : Batch :=
  { session := pending.session, startIndex := pending.startIndex, count := pending.count }

/-- Where the control reader stands in the completion of a batch. -/
inductive Completion where
  | idle
  | verified (pending : SenderPrecompute)
  | announced (pending : SenderPrecompute)
deriving DecidableEq, Repr

/-- Where the control supervisor stands. -/
inductive Stage where
  | offline
  | connected
  | resuming
  | resumed
  | refillClaimed (claim : Nat)
  | refilling (claim : Nat) (session : Session)
  | fallback
  | precomputing (session : Session)
  | serving
  | closing
deriving DecidableEq, Repr

/-- A refill goroutine: before its setup, then waiting for its session. -/
structure Refill where
  claim : Nat
  origin : Conn
  session : Option Session
deriving DecidableEq, Repr

/-- The state of TEE_K. `used` bounds the connections of the past, `committed`
holds the sessions that succeeded, and `batches` what filled the pool. -/
structure SenderNode where
  control : Option Conn
  used : Conn
  isOpen : Bool
  controlHealthy : Bool
  stage : Stage
  pool : SenderPool
  ready : Bool
  inconsistent : Bool
  epoch : Option Epoch
  resumeChan : Option (Conn × Bool)
  pending : Option SenderPrecompute
  completion : Completion
  refills : List Refill
  committed : List Session
  batches : List Batch

/-- A reservation on its way to TEE_T as an online payload. -/
structure Payload where
  conn : Conn
  startIndex : Nat
  entries : List SenderOT
  batches : List Batch

namespace SenderNode

def start : SenderNode :=
  { control := none
    used := 0
    isOpen := false
    controlHealthy := false
    stage := .offline
    pool := SenderPool.new
    ready := false
    inconsistent := false
    epoch := none
    resumeChan := none
    pending := none
    completion := .idle
    refills := []
    committed := []
    batches := [] }

def hasPending (k : SenderNode) (session : Session) : Prop :=
  k.pending.map SenderPrecompute.session = some session

instance (k : SenderNode) (session : Session) : Decidable (k.hasPending session) :=
  inferInstanceAs (Decidable (_ = _))

def otPoolUsable (k : SenderNode) : Bool :=
  k.ready && !k.inconsistent && decide (otsPerOPRF ≤ k.pool.available)

def close (k : SenderNode) : SenderNode :=
  { k with isOpen := false }

/-- The pool after `Clear`, and readiness withdrawn. -/
def emptied (k : SenderNode) (pool : SenderPool) : SenderNode :=
  { k with pool := pool, ready := false, pending := none, batches := [] }

def failPendingPrecompute (k : SenderNode) (expected : Session) : SenderNode :=
  if k.hasPending expected then { k with pending := none } else k

def failPendingPrecomputeAndClear (k : SenderNode) (expected : SenderPrecompute) : SenderNode :=
  if k.hasPending expected.session then
    if expected.isInitial then
      k.emptied k.pool.clear
    else
      match k.pool.clearForExtendFailure expected.extendClaim with
      | (false, _) => k
      | (true, cleared) => k.emptied cleared
  else
    k

def recoverFailedClaimedOTExtension (k : SenderNode) (claim : Nat) (origin : Conn) :
    SenderNode :=
  match k.pool.releaseExtendClaim (some claim) with
  | (false, _) => k
  | (true, released) =>
    let k := { k with pool := released }
    if k.control ≠ some origin then
      k
    else if k.otPoolUsable then
      k
    else
      { k with inconsistent := true, controlHealthy := false, isOpen := false }

def clearOTPool (k : SenderNode) : SenderNode :=
  { k.emptied k.pool.clear with inconsistent := false }

def suspendOTPoolForReconnect (k : SenderNode) : SenderNode :=
  if k.ready then
    { k with pending := none, pool := k.pool.invalidateExtendClaim }
  else
    k.clearOTPool

def tearDownControl (k : SenderNode) : SenderNode :=
  { k.suspendOTPoolForReconnect with control := none, controlHealthy := false, stage := .offline }

/-! ### Starting a batch -/

/-- The preflight and the setup of one batch under a fresh session; the caller
writes the returned message. -/
def performOTPrecomputation (k : SenderNode) (session : Session) (isInitial : Bool)
    (claim : Option Nat) (origin : Conn) : Option (SenderNode × PrecomputeBegin) :=
  let count := if isInitial then otPoolInitialSize else otPoolExtendSize
  let startIndex := if isInitial then 0 else k.pool.totalCount
  if k.control ≠ some origin ∨ k.pending ≠ none then
    none
  else if isInitial = false ∧ (k.ready = false ∨ k.pool.ownsExtendClaim claim = false) then
    none
  else
    match checkedIndexEnd startIndex count with
    | .error _ => none
    | .ok _ =>
      let k :=
        if isInitial then
          { k with
            epoch := some (.initial session)
            pool := k.pool.clear
            ready := false
            batches := [] }
        else
          k
      let pending :=
        { session := session
          count := count
          startIndex := startIndex
          isInitial := isInitial
          phase := .awaitBaseSetup
          conn := origin
          extendClaim := claim }
      some ({ k with pending := some pending },
        { session := session
          startIndex := startIndex
          count := count
          epoch := k.epoch
          isInitial := isInitial })

/-! ### Responses of the receiver -/

def advance (k : SenderNode) (pending : SenderPrecompute) (phase : SenderPhase) : SenderNode :=
  { k with pending := some { pending with phase := phase } }

def continuation (k : SenderNode) (pending : SenderPrecompute) : Continuation :=
  { session := pending.session
    count := pending.count
    epoch := k.epoch
    isInitial := pending.isInitial }

/-- The first section of `completeSenderPrecompute`. -/
def validateCompletion (E : Extension) (k : SenderNode) (pending : SenderPrecompute) :
    Outcome SenderNode Request :=
  let k := k.advance pending .processingProof
  match checkedIndexEnd pending.startIndex (E.sent pending.batch).length with
  | .error text => .error k text
  | .ok _ =>
    if (pending.isInitial = false ∧ k.pool.ownsExtendClaim pending.extendClaim = false) ∨
        k.pool.totalCount ≠ pending.startIndex then
      .error (k.failPendingPrecomputeAndClear pending) "OT sender state changed during extension"
    else
      match k.pool.validateAdd (E.sent pending.batch) with
      | .error text =>
        if pending.isInitial then
          .error (k.failPendingPrecomputeAndClear pending) text
        else
          .error ((k.failPendingPrecompute pending.session).recoverFailedClaimedOTExtension
            (pending.extendClaim.getD 0) pending.conn) text
      | .ok _ =>
        .ok { k with completion := .verified pending } []

/-- A response on the current connection, read by the phase of the batch. -/
def handleOTPrecomputeResponse (E : Extension) (k : SenderNode) (count : Nat)
    (data : ResponseData) (fails : Bool) : Outcome SenderNode Request :=
  match k.pending with
  | none => .error k "unexpected OT precompute response"
  | some pending =>
    if k.control ≠ some pending.conn then
      .error k "OT precompute response belongs to a superseded control connection"
    else if count ≠ pending.count then
      .error (k.failPendingPrecompute pending.session) "OT count mismatch"
    else
      match pending.phase with
      | .awaitBaseSetup =>
        if data = .baseSetup pending.session ∧ fails = false then
          .ok (k.advance pending .awaitCommitment) [.baseChoices (k.continuation pending)]
        else
          .error (k.failPendingPrecompute pending.session) "base OT failed"
      | .awaitCommitment =>
        if data = .commitment pending.batch k.epoch ∧ fails = false then
          .ok (k.advance pending .awaitProof) [.challenge (k.continuation pending)]
        else
          .error (k.failPendingPrecompute pending.session) "KOS2 commitment failed"
      | .awaitProof =>
        if data = .proof pending.session ∧ fails = false then
          validateCompletion E k pending
        else
          .error (k.failPendingPrecompute pending.session) "KOS2 proof failed"
      | .processingProof => .error k "unexpected OT precompute response phase"

/-- The write of `completeSenderPrecompute`. -/
def sendOTPrecomputeComplete (E : Extension) (k : SenderNode) (pending : SenderPrecompute)
    (fails : Bool) : Outcome SenderNode Request :=
  if k.isOpen = false ∨ fails then
    .error { k.failPendingPrecomputeAndClear pending with completion := .idle }
      "send OT precompute complete"
  else
    .ok { k with completion := .announced pending }
      [.complete (pending.startIndex + (E.sent pending.batch).length)]

/-- The last section of `completeSenderPrecompute`. -/
def commitSenderPrecompute (E : Extension) (k : SenderNode) (pending : SenderPrecompute) :
    Outcome SenderNode Request :=
  let k := { k with completion := .idle }
  if ¬ k.hasPending pending.session ∨ k.control ≠ some pending.conn ∨
      (pending.isInitial = false ∧ k.pool.ownsExtendClaim pending.extendClaim = false) ∨
      k.pool.totalCount ≠ pending.startIndex then
    .error (k.failPendingPrecomputeAndClear pending) "OT sender state changed before local commit"
  else
    match k.pool.add (E.sent pending.batch) with
    | .error text => .error (k.failPendingPrecomputeAndClear pending) text
    | .ok added =>
      .ok { k with
        pool := if pending.isInitial then added else (added.releaseExtendClaim pending.extendClaim).2
        epoch := some (.extension pending.session)
        pending := none
        ready := k.ready || pending.isInitial
        inconsistent := k.inconsistent && !pending.isInitial
        committed := pending.session :: k.committed
        batches := k.batches ++ [pending.batch] } []

/-! ### Resuming and serving -/

def establish (k : SenderNode) (conn : Conn) : SenderNode :=
  { k with control := some conn, used := conn + 1, isOpen := true, stage := .connected }

def hasResumablePool (k : SenderNode) : Bool :=
  k.ready && k.epoch.isSome && decide (0 < k.pool.available)

/-- The part of `tryResumeOTPool` up to its write. -/
def tryResumeOTPool (k : SenderNode) (fails : Bool) : SenderNode × List Request :=
  if k.hasResumablePool then
    if k.isOpen = false ∨ fails then
      ({ k with stage := .fallback, resumeChan := none }, [])
    else
      ({ k with stage := .resuming, resumeChan := none }, [.resume k.epoch k.pool.nextIndex])
  else
    ({ k with stage := .fallback }, [])

def handleOTResumeResponse (k : SenderNode) (conn : Conn) (accepted : Bool) :
    Outcome SenderNode Request :=
  if k.stage = .resuming then
    .ok { k with
      resumeChan :=
        match k.resumeChan with
        | none => some (conn, accepted)
        | some waiting => some waiting } []
  else
    .error k "unexpected OT resume response"

/-- The supervisor takes the answer to its resume request. -/
def takeResumeResult (k : SenderNode) (result : Conn × Bool) : SenderNode :=
  let k := { k with resumeChan := none }
  if k.control = some result.1 ∧ result.2 then
    { k with inconsistent := false, stage := .resumed }
  else
    { k with stage := .fallback }

def serve (k : SenderNode) : SenderNode :=
  { k with controlHealthy := true, stage := .serving }

def ensureResumedOTPoolUsable (k : SenderNode) (allocated : Nat) (origin : Conn) : SenderNode :=
  if otPoolWatermark ≤ k.pool.available then
    k.serve
  else
    match k.pool.claimExtendIfNeeded allocated with
    | (none, _) => { k with stage := .fallback }
    | (some claim, claimed) =>
      if k.pool.available < otsPerOPRF then
        { k with pool := claimed, stage := .refillClaimed claim }
      else
        { k.serve with
          pool := claimed
          refills := k.refills ++ [{ claim := claim, origin := origin, session := none }] }

def releaseClaim (k : SenderNode) (claim : Nat) : SenderNode :=
  { k with pool := (k.pool.releaseExtendClaim (some claim)).2 }

/-- Reserves the entries of one range and starts a refill when one is due. -/
def reserveOTEntriesForSession (k : SenderNode) (allocated : Nat) (origin : Conn) :
    SenderNode × Option Payload :=
  if k.ready = false ∨ k.inconsistent then
    (k, none)
  else
    let reserved := k.pool.reserve otsPerOPRF
    let pool :=
      match reserved with
      | .error _ => k.pool
      | .ok (_, next) => next
    let refills :=
      match (pool.claimExtendIfNeeded allocated).1 with
      | none => k.refills
      | some claim => k.refills ++ [{ claim := claim, origin := origin, session := none }]
    let payload :=
      match reserved with
      | .error _ => none
      | .ok ((startIndex, entries), _) =>
        some { conn := origin, startIndex := startIndex, entries := entries, batches := k.batches }
    ({ k with pool := (pool.claimExtendIfNeeded allocated).2, refills := refills }, payload)

def reconcileAbandonedOTReservation (k : SenderNode) (conn : Conn) : SenderNode :=
  if k.control = some conn then
    { k with inconsistent := true, controlHealthy := false, isOpen := false }
  else
    k

end SenderNode

end ReclaimTee.Precompute
