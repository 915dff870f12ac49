/-
The two nodes, joined by a control connection that delivers in order, as one
transition system. Messages are kept for the connection a node serves; a write to
another is lost. The registry of lineages is part of neither node.
-/

import ReclaimTee.Precompute.ReceiverNode
import ReclaimTee.Registry
import ReclaimTee.Transition

namespace ReclaimTee.Precompute

open ReclaimTee.Mpc

/-- A consumption that waits for a batch of one receiver state. -/
structure Waiter where
  payload : Payload
  stateID : Nat
  session : Session

structure Consumption where
  payload : Payload
  entries : List ReceiverOT

structure System where
  sender : SenderNode
  receiver : ReceiverNode
  toReceiver : List Request
  toSender : List Response
  nextConn : Conn
  nextSession : Session
  nextClaim : Nat
  lineage : Registry Session (List Batch)
  online : List Payload
  waiting : List Waiter
  consumed : List Consumption

/-- How an attempt to start a batch ends: it may fail before its setup, or in the
write after it. -/
inductive Attempt where
  | refused
  | unsent
  | sent
deriving DecidableEq, Repr

inductive Action where
  | activate
  | closeReceiver
  | tearDownReceiver
  | receive (fails : Bool)
  | establish (conn : Conn)
  | closeSender
  | tearDownSender
  | tryResume (fails : Bool)
  | resumeResult
  | resumeTimeout
  | ensureUsable
  | startRefill (attempt : Attempt)
  | refillDone
  | refillFails
  | startInitial (attempt : Attempt)
  | initialDone
  | initialFails
  | launch (position : Nat) (attempt : Attempt)
  | launchedDone (position : Nat)
  | launchedFails (position : Nat)
  | respond (fails : Bool)
  | announce (fails : Bool)
  | commit
  | reserve
  | abandon (conn : Conn)
  | online (position : Nat)
  | wake (position : Nat)
deriving DecidableEq, Repr

namespace System

def start : System :=
  { sender := SenderNode.start
    receiver := ReceiverNode.start
    toReceiver := []
    toSender := []
    nextConn := 0
    nextSession := 0
    nextClaim := 0
    lineage := Registry.empty
    online := []
    waiting := []
    consumed := [] }

def sendToReceiver (s : System) (messages : List Request) : System :=
  if s.sender.control = s.receiver.control then
    { s with toReceiver := s.toReceiver ++ messages }
  else
    s

def sendToSender (s : System) (messages : List Response) : System :=
  if s.sender.control = s.receiver.control then
    { s with toSender := s.toSender ++ messages }
  else
    s

/-- A handler error closes the connection it was called on. -/
def afterSender (s : System) (outcome : Outcome SenderNode Request) : System :=
  let k := if outcome.failure.isSome then outcome.node.close else outcome.node
  { s with sender := k }.sendToReceiver outcome.messages

def afterReceiver (s : System) (outcome : Outcome ReceiverNode Response) : System :=
  let t := if outcome.failure.isSome then { outcome.node with isOpen := false } else outcome.node
  { s with receiver := t }.sendToSender outcome.messages

/-- The attempt to start a batch, and the session to wait for if it was sent. -/
def attemptBatch (s : System) (isInitial : Bool) (claim : Option Nat) (origin : Conn)
    (attempt : Attempt) : System × Option Session :=
  if attempt = .refused then
    (s, none)
  else
    match s.sender.performOTPrecomputation s.nextSession isInitial claim origin with
    | none => (s, none)
    | some (k, message) =>
      let begun :=
        { s with
          sender := k
          nextSession := s.nextSession + 1
          lineage := s.lineage.record s.nextSession (k.batches ++ [message.batch]) }
      if attempt = .unsent ∨ k.isOpen = false then
        ({ begun with sender := k.failPendingPrecompute s.nextSession }, none)
      else
        (begun.sendToReceiver [.precomputeBegin message], some s.nextSession)

def setStage (s : System) (stage : Stage) : System :=
  { s with sender := { s.sender with stage := stage } }

/-! ### The receiver's steps -/

def activate (s : System) : System :=
  { s with
    receiver := s.receiver.activateControlConnection s.nextConn
    toReceiver := []
    nextConn := s.nextConn + 1 }

def receive (E : Extension) (s : System) (fails : Bool) : Option System :=
  match s.receiver.control, s.toReceiver with
  | some conn, request :: rest =>
    if s.receiver.isOpen then
      some ({ s with toReceiver := rest }.afterReceiver
        (s.receiver.handleControlMessage E conn fails request))
    else
      none
  | _, _ => none

def recordConsumed (s : System) (payload : Payload) (entries : List ReceiverOT)
    (node : ReceiverNode) : System :=
  { s with receiver := node, consumed := { payload := payload, entries := entries } :: s.consumed }

/-- An online payload reaches the receiver while its connection is served. -/
def deliverOnline (s : System) (position : Nat) : Option System :=
  match s.online[position]? with
  | none => none
  | some payload =>
    if s.receiver.control = some payload.conn then
      let s := { s with online := s.online.eraseIdx position }
      match s.receiver.consumeOTReceiverEntries payload.startIndex otsPerOPRF with
      | .refused _ => some s
      | .waits session =>
        some { s with
          waiting :=
            { payload := payload
              stateID := s.receiver.stateID
              session := session } :: s.waiting }
      | .took entries node => some (s.recordConsumed payload entries node)
    else
      none

/-- The awaited batch was committed or dropped, and the waiter runs again. -/
def wake (s : System) (position : Nat) : Option System :=
  match s.waiting[position]? with
  | none => none
  | some waiter =>
    if s.receiver.pending.map (fun pending => pending.message.session) = some waiter.session then
      none
    else
      let s := { s with waiting := s.waiting.eraseIdx position }
      if s.receiver.control = some waiter.payload.conn ∧
          s.receiver.stateID = waiter.stateID ∧ waiter.session ∈ s.receiver.committed then
        match s.receiver.takeEntries waiter.payload.startIndex otsPerOPRF with
        | .error _ => some s
        | .ok (entries, node) => some (s.recordConsumed waiter.payload entries node)
      else
        some s

/-! ### The sender's supervisor -/

def establish (s : System) (conn : Conn) : Option System :=
  if s.sender.stage = .offline ∧ s.sender.used ≤ conn ∧ conn < s.nextConn then
    some { s with sender := s.sender.establish conn, toSender := [] }
  else
    none

def tearDownSender (s : System) : Option System :=
  if s.sender.isOpen = false ∧ s.sender.completion = .idle ∧
      (s.sender.stage = .serving ∨ s.sender.stage = .closing) then
    some { s with sender := s.sender.tearDownControl }
  else
    none

def tryResume (s : System) (fails : Bool) : Option System :=
  if s.sender.stage = .connected then
    let attempt := s.sender.tryResumeOTPool fails
    some ({ s with sender := attempt.1 }.sendToReceiver attempt.2)
  else
    none

def resumeResult (s : System) : Option System :=
  match s.sender.stage, s.sender.resumeChan with
  | .resuming, some result => some { s with sender := s.sender.takeResumeResult result }
  | _, _ => none

def resumeTimeout (s : System) : Option System :=
  if s.sender.stage = .resuming then some (s.setStage .fallback) else none

def ensureUsable (s : System) : Option System :=
  match s.sender.stage, s.sender.control with
  | .resumed, some conn =>
    some { s with
      sender := s.sender.ensureResumedOTPoolUsable s.nextClaim conn
      nextClaim := s.nextClaim + 1 }
  | _, _ => none

/-- A synchronous refill that fails gives its claim back before the fallback. -/
def dropRefill (s : System) (claim : Nat) : System :=
  { s with sender := s.sender.releaseClaim claim }.setStage .fallback

def startRefill (s : System) (attempt : Attempt) : Option System :=
  match s.sender.stage, s.sender.control with
  | .refillClaimed claim, some conn =>
    match s.attemptBatch false (some claim) conn attempt with
    | (s, none) => some (s.dropRefill claim)
    | (s, some session) => some (s.setStage (.refilling claim session))
  | _, _ => none

def refillDone (s : System) : Option System :=
  match s.sender.stage with
  | .refilling _ session =>
    if session ∈ s.sender.committed then some { s with sender := s.sender.serve } else none
  | _ => none

def refillFails (s : System) : Option System :=
  match s.sender.stage with
  | .refilling claim session =>
    some ({ s with sender := s.sender.failPendingPrecompute session }.dropRefill claim)
  | _ => none

/-- An initial batch that fails closes the connection. -/
def dropInitial (s : System) : System :=
  { s with sender := s.sender.close }.setStage .closing

def startInitial (s : System) (attempt : Attempt) : Option System :=
  match s.sender.stage, s.sender.control with
  | .fallback, some conn =>
    match s.attemptBatch true none conn attempt with
    | (s, none) => some s.dropInitial
    | (s, some session) => some (s.setStage (.precomputing session))
  | _, _ => none

def initialDone (s : System) : Option System :=
  match s.sender.stage with
  | .precomputing session =>
    if session ∈ s.sender.committed then some { s with sender := s.sender.serve } else none
  | _ => none

def initialFails (s : System) : Option System :=
  match s.sender.stage with
  | .precomputing session =>
    some { s with sender := s.sender.failPendingPrecompute session }.dropInitial
  | _ => none

/-! ### The sender's refill goroutines -/

def dropLaunched (s : System) (position : Nat) (refill : Refill) : System :=
  let k := s.sender.recoverFailedClaimedOTExtension refill.claim refill.origin
  { s with sender := { k with refills := k.refills.eraseIdx position } }

def launch (s : System) (position : Nat) (attempt : Attempt) : Option System :=
  match s.sender.refills[position]? with
  | none => none
  | some refill =>
    if refill.session.isSome then
      none
    else
      match s.attemptBatch false (some refill.claim) refill.origin attempt with
      | (s, none) => some (s.dropLaunched position refill)
      | (s, some session) =>
        some { s with
          sender :=
            { s.sender with
              refills := s.sender.refills.set position { refill with session := some session } } }

def launchedDone (s : System) (position : Nat) : Option System :=
  match s.sender.refills[position]? with
  | some { session := some session, .. } =>
    if session ∈ s.sender.committed then
      some { s with sender := { s.sender with refills := s.sender.refills.eraseIdx position } }
    else
      none
  | _ => none

def launchedFails (s : System) (position : Nat) : Option System :=
  match s.sender.refills[position]? with
  | some refill =>
    match refill.session with
    | some session =>
      some ({ s with sender := s.sender.failPendingPrecompute session }.dropLaunched
        position refill)
    | none => none
  | none => none

/-! ### The sender's control reader -/

def respond (E : Extension) (s : System) (fails : Bool) : Option System :=
  match s.sender.control, s.toSender with
  | some conn, response :: rest =>
    if s.sender.isOpen ∧ s.sender.completion = .idle then
      let s := { s with toSender := rest }
      match response with
      | .precompute count data =>
        some (s.afterSender (s.sender.handleOTPrecomputeResponse E count data fails))
      | .resume accepted => some (s.afterSender (s.sender.handleOTResumeResponse conn accepted))
    else
      none
  | _, _ => none

def announce (E : Extension) (s : System) (fails : Bool) : Option System :=
  match s.sender.completion with
  | .verified pending => some (s.afterSender (s.sender.sendOTPrecomputeComplete E pending fails))
  | _ => none

def commit (E : Extension) (s : System) : Option System :=
  match s.sender.completion with
  | .announced pending => some (s.afterSender (s.sender.commitSenderPrecompute E pending))
  | _ => none

/-! ### The sender's sessions -/

def reserve (s : System) : Option System :=
  match s.sender.control with
  | none => none
  | some conn =>
    let reserved := s.sender.reserveOTEntriesForSession s.nextClaim conn
    some { s with
      sender := reserved.1
      nextClaim := s.nextClaim + 1
      online := reserved.2.toList ++ s.online }

def step (E : Extension) (s : System) : Action → Option System
  | .activate => some s.activate
  | .closeReceiver => some { s with receiver := { s.receiver with isOpen := false } }
  | .tearDownReceiver =>
    some { s with receiver := s.receiver.tearDownControlConnection, toReceiver := [] }
  | .receive fails => s.receive E fails
  | .establish conn => s.establish conn
  | .closeSender => some { s with sender := s.sender.close }
  | .tearDownSender => s.tearDownSender
  | .tryResume fails => s.tryResume fails
  | .resumeResult => s.resumeResult
  | .resumeTimeout => s.resumeTimeout
  | .ensureUsable => s.ensureUsable
  | .startRefill attempt => s.startRefill attempt
  | .refillDone => s.refillDone
  | .refillFails => s.refillFails
  | .startInitial attempt => s.startInitial attempt
  | .initialDone => s.initialDone
  | .initialFails => s.initialFails
  | .launch position attempt => s.launch position attempt
  | .launchedDone position => s.launchedDone position
  | .launchedFails position => s.launchedFails position
  | .respond fails => s.respond E fails
  | .announce fails => s.announce E fails
  | .commit => s.commit E
  | .reserve => s.reserve
  | .abandon conn =>
    some { s with sender := s.sender.reconcileAbandonedOTReservation conn }
  | .online position => s.deliverOnline position
  | .wake position => s.wake position

def machine (E : Extension) : Machine System Action :=
  { start := start, step := step E }

end System

end ReclaimTee.Precompute
