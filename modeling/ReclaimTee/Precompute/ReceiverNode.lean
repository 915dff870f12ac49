/-
The receiver node TEE_T: the control handlers and the single-use consumption of
receiver entries. Before the first batch the source has no receiver state; here
that is an empty pool that is not ready.
-/

import ReclaimTee.Precompute.SenderNode

namespace ReclaimTee.Precompute

open ReclaimTee.Mpc

inductive ReceiverPhase where
  | awaitBaseChoices
  | awaitChallenge
  | awaitComplete
deriving DecidableEq, Repr

structure ReceiverPrecompute where
  message : PrecomputeBegin
  conn : Conn
  entries : List ReceiverOT
  phase : ReceiverPhase

/-- The state of TEE_T. An initial batch replaces the receiver state and `stateID`;
`committed` holds the sessions whose batch was added. -/
structure ReceiverNode where
  control : Option Conn
  isOpen : Bool
  stateID : Nat
  pool : ReceiverPool
  ready : Bool
  epoch : Option Epoch
  pending : Option ReceiverPrecompute
  committed : List Session
  batches : List Batch

namespace ReceiverNode

def start : ReceiverNode :=
  { control := none
    isOpen := false
    stateID := 0
    pool := ReceiverPool.new
    ready := false
    epoch := none
    pending := none
    committed := []
    batches := [] }

def clearPendingReceiverPrecompute (t : ReceiverNode) : ReceiverNode :=
  { t with pending := none }

def clearOTReceiverPool (t : ReceiverNode) : ReceiverNode :=
  { t with pool := t.pool.clear, pending := none, ready := false, batches := [] }

def suspendOTReceiverPoolForReconnect (t : ReceiverNode) : ReceiverNode :=
  if t.ready then t.clearPendingReceiverPrecompute else t.clearOTReceiverPool

def activateControlConnection (t : ReceiverNode) (conn : Conn) : ReceiverNode :=
  let t := if t.control.isSome then t.suspendOTReceiverPoolForReconnect else t
  { t with control := some conn, isOpen := true }

def tearDownControlConnection (t : ReceiverNode) : ReceiverNode :=
  { t.suspendOTReceiverPoolForReconnect with control := none, isOpen := false }

/-! ### Control requests -/

/-- The receiver state that an initial batch installs. -/
def renewed (t : ReceiverNode) (epoch : Option Epoch) : ReceiverNode :=
  { t with
    stateID := t.stateID + 1
    pool := ReceiverPool.new
    ready := false
    epoch := epoch
    pending := none
    batches := [] }

def handleOTPrecomputeBegin (t : ReceiverNode) (conn : Conn) (message : PrecomputeBegin)
    (fails : Bool) : Outcome ReceiverNode Response :=
  match validatePrecomputeCount message.count with
  | .error text => .error t text
  | .ok _ =>
    match checkedIndexEnd message.startIndex message.count with
    | .error text => .error t text
    | .ok _ =>
      if message.isInitial = false ∧ t.ready = false then
        .error t "OT receiver pool is not ready for extension"
      else
        let t := if message.isInitial then t.renewed message.epoch else t
        if t.pending.isSome then
          .error t "OT precomputation already in progress"
        else if message.startIndex ≠ t.pool.totalCount then
          .error t "OT extension start index mismatch"
        else if message.isInitial = false ∧ message.epoch ≠ t.epoch then
          .error t "OT extension epoch mismatch"
        else if fails then
          .error t "base OT setup failed"
        else
          .ok { t with
            pending := some
              { message := message
                conn := conn
                entries := []
                phase := .awaitBaseChoices } }
            [.precompute message.count (.baseSetup message.session)]

/-- The metadata that a later request of the batch has to repeat. -/
def metadataMatches (t : ReceiverNode) (pending : ReceiverPrecompute) (conn : Conn)
    (message : Continuation) : Prop :=
  pending.conn = conn ∧ message.count = pending.message.count ∧
    message.isInitial = pending.message.isInitial ∧ message.epoch = t.epoch

instance (t : ReceiverNode) (pending : ReceiverPrecompute) (conn : Conn)
    (message : Continuation) : Decidable (t.metadataMatches pending conn message) :=
  inferInstanceAs (Decidable (_ ∧ _))

def handleOTPrecomputeChoices (E : Extension) (t : ReceiverNode) (conn : Conn)
    (message : Continuation) (fails : Bool) : Outcome ReceiverNode Response :=
  match t.pending with
  | none => .error t "unexpected base OT choice message"
  | some pending =>
    if ¬ t.metadataMatches pending conn message then
      .error t "base OT choice metadata mismatch"
    else if pending.phase ≠ .awaitBaseChoices then
      .error t "unexpected base OT choice phase"
    else if message.session ≠ pending.message.session ∨ fails then
      .error t.clearPendingReceiverPrecompute "base OT failed"
    else
      .ok { t with
        pending := some
          { pending with
            entries := E.received pending.message.batch
            phase := .awaitChallenge } }
        [.precompute message.count (.commitment pending.message.batch t.epoch)]

def handleOTPrecomputeChallenge (t : ReceiverNode) (conn : Conn) (message : Continuation)
    (fails : Bool) : Outcome ReceiverNode Response :=
  match t.pending with
  | none => .error t "unexpected OT extension challenge"
  | some pending =>
    if ¬ t.metadataMatches pending conn message then
      .error t "OT extension challenge metadata mismatch"
    else if pending.phase ≠ .awaitChallenge ∨ pending.entries = [] then
      .error t "unexpected OT extension challenge phase"
    else if message.session ≠ pending.message.session ∨ fails then
      .error t.clearPendingReceiverPrecompute "KOS2 proof failed"
    else
      .ok { t with pending := some { pending with phase := .awaitComplete } }
        [.precompute message.count (.proof pending.message.session)]

/-- The completion names only a pool size; it commits the batch in progress. -/
def handleOTPrecomputeComplete (t : ReceiverNode) (conn : Conn) (poolSize : Nat) :
    Outcome ReceiverNode Response :=
  match t.pending with
  | none => .error t "unexpected OT precompute completion"
  | some pending =>
    if pending.entries = [] then
      .error t "unexpected OT precompute completion"
    else if pending.conn ≠ conn then
      .error t "OT precompute completion control generation mismatch"
    else if pending.phase ≠ .awaitComplete then
      .error t "unexpected OT precompute completion phase"
    else
      match checkedIndexEnd t.pool.totalCount pending.entries.length with
      | .error text => .error t text
      | .ok expectedTotal =>
        if poolSize ≠ expectedTotal then
          .error t "OT pool total mismatch"
        else
          match t.pool.add pending.entries with
          | .error text => .error t text
          | .ok added =>
            .ok { t with
              pool := added
              epoch := some (.extension pending.message.session)
              pending := none
              ready := true
              committed := pending.message.session :: t.committed
              batches := t.batches ++ [pending.message.batch] } []

/-- Grants a resume of the retained pool under the epoch both sides name. -/
def resumeOTPool (t : ReceiverNode) (epoch : Option Epoch) (nextIndex : Nat) :
    Bool × ReceiverNode :=
  if epoch = none ∨ t.ready = false ∨ t.pending.isSome ∨ t.epoch ≠ epoch then
    (false, t)
  else
    match t.pool.advanceTo nextIndex with
    | .error _ => (false, t)
    | .ok pool => (true, { t with pool := pool })

def handleOTResumeRequest (t : ReceiverNode) (epoch : Option Epoch) (nextIndex : Nat)
    (fails : Bool) : Outcome ReceiverNode Response :=
  let resumed := t.resumeOTPool epoch nextIndex
  if fails then
    .error resumed.2 "send OT resume response"
  else
    .ok resumed.2 [.resume resumed.1]

def handleControlMessage (E : Extension) (t : ReceiverNode) (conn : Conn) (fails : Bool) :
    Request → Outcome ReceiverNode Response
  | .precomputeBegin message => t.handleOTPrecomputeBegin conn message fails
  | .baseChoices message => t.handleOTPrecomputeChoices E conn message fails
  | .challenge message => t.handleOTPrecomputeChallenge conn message fails
  | .complete poolSize => t.handleOTPrecomputeComplete conn poolSize
  | .resume epoch nextIndex => t.handleOTResumeRequest epoch nextIndex fails

/-! ### Consumption -/

def pendingReceiverCompletionForRange (t : ReceiverNode) (startIndex : Nat) (count : Int) :
    Except String (Option Session) :=
  match checkedIndexEnd startIndex count with
  | .error _ => .ok none
  | .ok finish =>
    if count ≤ 0 ∨ finish ≤ t.pool.totalCount then
      .ok none
    else
      match t.pending with
      | none => .ok none
      | some pending =>
        if pending.entries = [] ∨ pending.message.startIndex ≠ t.pool.totalCount then
          .ok none
        else
          match checkedIndexEnd pending.message.startIndex pending.entries.length with
          | .error _ => .ok none
          | .ok pendingEnd =>
            if pendingEnd < startIndex ∨ pendingEnd < finish then
              .ok none
            else if startIndex < t.pool.totalCount then
              match t.pool.validateConsumable startIndex
                  ((t.pool.totalCount - startIndex : Nat) : Int) with
              | .error text => .error text
              | .ok _ => .ok (some pending.message.session)
            else
              .ok (some pending.message.session)

def takeEntries (t : ReceiverNode) (startIndex : Nat) (count : Int) :
    Except String (List ReceiverOT × ReceiverNode) :=
  match t.pool.consume startIndex count with
  | .error text => .error text
  | .ok (entries, next) => .ok (entries, { t with pool := next })

/-- What the first section of a consumption does: refuse, wait for the named
session, or hand out the entries. -/
inductive ConsumeStep where
  | refused (text : String)
  | waits (session : Session)
  | took (entries : List ReceiverOT) (node : ReceiverNode)

def consumeOTReceiverEntries (t : ReceiverNode) (startIndex : Nat) (count : Int) :
    ConsumeStep :=
  match t.pendingReceiverCompletionForRange startIndex count with
  | .error text => .refused text
  | .ok (some session) => .waits session
  | .ok none =>
    if t.ready = false then
      .refused "OT receiver pool not ready"
    else
      match t.takeEntries startIndex count with
      | .error text => .refused text
      | .ok (entries, next) => .took entries next

end ReceiverNode

end ReclaimTee.Precompute
