/-
The connections to TEE_T at TEE_K. A request for a session registers a waiter on
the control connection, announces the session and waits; the acknowledged owner
is taken over by a session connection. Every locked section is one step, and so
is a choice between acknowledgement and timeout. The histories are not part of
the source; messages, sockets and attestation are not modelled.
-/

import ReclaimTee.Control.Session
import ReclaimTee.Transition

namespace ReclaimTee.TeeK

open ReclaimTee.Control

/-- The control connection a session was announced on, as `controlConnectionToken`. -/
structure ControlToken where
  identity : Nat
  conn : Nat
  generation : Nat
  session : Session
deriving DecidableEq, Repr

structure AckWaiter where
  controlConn : Nat
  controlGeneration : Nat
  owner : ControlToken
deriving DecidableEq, Repr

structure SessionConnection where
  identity : Nat
  sessionID : String
  session : Session
  controlConn : Nat
  controlGeneration : Nat
  admissionOwner : ControlToken
deriving DecidableEq, Repr

structure ConnectionManager where
  controlConn : Option Nat
  controlGeneration : Nat
  attestationVerified : Bool
  sessionConns : Table String SessionConnection
  pendingAcks : Table String AckWaiter
  acknowledgedSessions : Table String ControlToken

namespace ConnectionManager

def new : ConnectionManager where
  controlConn := none
  controlGeneration := 0
  attestationVerified := false
  sessionConns := Table.empty
  pendingAcks := Table.empty
  acknowledgedSessions := Table.empty

def isCurrentControlConnection (m : ConnectionManager) (conn generation : Nat) : Bool :=
  m.controlConn = some conn ∧ m.controlGeneration = generation

/-- The first section of `sendSessionCreatedAndWaitTokenForSession`. -/
def registerWaiter (m : ConnectionManager) (identity : Nat) (session : Session) :
    Except String (ConnectionManager × ControlToken) :=
  match m.controlConn with
  | none => .error "SessionCreated control connection unavailable before send: failed to send SessionCreated"
  | some conn => do
      let owner : ControlToken :=
        { identity := identity
          conn := conn
          generation := m.controlGeneration
          session := session }
      rejectIf ((m.pendingAcks.find session.id).isSome = true)
        "failed to send SessionCreated: SessionCreatedAck waiter already registered"
      rejectIf ((m.acknowledgedSessions.find session.id).isSome = true)
        "failed to send SessionCreated: acknowledged session owner already registered"
      let waiter : AckWaiter :=
        { controlConn := conn, controlGeneration := m.controlGeneration, owner := owner }
      return ({ m with pendingAcks := m.pendingAcks.put session.id waiter }, owner)

/-- The deferred removal, which leaves a newer waiter alone. -/
def removeWaiter (m : ConnectionManager) (owner : ControlToken) : ConnectionManager :=
  match m.pendingAcks.find owner.session.id with
  | none => m
  | some waiter =>
    if waiter.owner = owner then
      { m with pendingAcks := m.pendingAcks.remove owner.session.id }
    else
      m

/-- The acknowledgement of a session, read on a control connection. -/
def sessionCreatedAck (m : ConnectionManager) (conn generation : Nat) (sessionID : String) :
    ConnectionManager × Option AckWaiter :=
  match m.pendingAcks.find sessionID with
  | none => (m, none)
  | some waiter =>
    if waiter.controlConn = conn ∧ waiter.controlGeneration = generation then
      ({ m with
          acknowledgedSessions := m.acknowledgedSessions.put sessionID waiter.owner
          pendingAcks := m.pendingAcks.remove sessionID }, some waiter)
    else
      (m, none)

def failWaiters (m : ConnectionManager) (conn generation : Nat) : ConnectionManager :=
  { m with
    pendingAcks := m.pendingAcks.keep fun _ waiter =>
      ¬ (waiter.controlConn = conn ∧ waiter.controlGeneration = generation) }

/-- The owners a teardown of a control connection releases. -/
def orphanedOwners (m : ConnectionManager) (conn generation : Nat) : List ControlToken :=
  (m.acknowledgedSessions.entries.filter fun entry =>
    entry.2.conn = conn ∧ entry.2.generation = generation).map Prod.snd

def tearDownControl (m : ConnectionManager) (conn generation : Nat) :
    ConnectionManager × List ControlToken :=
  let failed := m.failWaiters conn generation
  if m.isCurrentControlConnection conn generation then
    ({ failed with
        controlConn := none
        attestationVerified := false
        sessionConns := m.sessionConns.keep fun _ sessionConn =>
          ¬ (sessionConn.controlConn = conn ∧ sessionConn.controlGeneration = generation)
        acknowledgedSessions := m.acknowledgedSessions.keep fun _ owner =>
          ¬ (owner.conn = conn ∧ owner.generation = generation) },
      m.orphanedOwners conn generation)
  else
    (failed, [])

/-- A new control connection, once its attestation is verified. -/
def connect (m : ConnectionManager) (conn : Nat) : ConnectionManager :=
  { m with
    controlGeneration := m.controlGeneration + 1
    controlConn := some conn
    attestationVerified := true }

def publishSessionConnection (m : ConnectionManager) (sessions : Sessions)
    (cleanedUp : List Session) (candidate : SessionConnection) :
    Except String ConnectionManager := do
  rejectIf (candidate.session ∈ cleanedUp) "session was cleaned up during session dial"
  rejectIf (m.isCurrentControlConnection candidate.controlConn candidate.controlGeneration = false)
    "control connection changed during session dial"
  rejectIf (m.attestationVerified = false) "control attestation changed during session dial"
  rejectIf ((m.sessionConns.find candidate.sessionID).isSome = true)
    s!"session {candidate.sessionID} already has a TEE_T connection"
  rejectIf (maxConcurrentSessions ≤ m.sessionConns.size)
    s!"max concurrent sessions ({maxConcurrentSessions}) reached (race)"
  rejectIf (sessions.find candidate.sessionID ≠ some candidate.session)
    "session identity changed during session dial"
  rejectIf (m.acknowledgedSessions.find candidate.sessionID ≠ some candidate.admissionOwner)
    "acknowledged session owner changed during session dial"
  return { m with
    acknowledgedSessions := m.acknowledgedSessions.remove candidate.sessionID
    sessionConns := m.sessionConns.put candidate.sessionID candidate }

/-- Whether the owner was still there to be released. -/
def releaseAcknowledgedSessionOwner (m : ConnectionManager) (owner : ControlToken) :
    ConnectionManager × Bool :=
  if m.acknowledgedSessions.find owner.session.id = some owner then
    ({ m with acknowledgedSessions := m.acknowledgedSessions.remove owner.session.id }, true)
  else
    (m, false)

/-- The owner that a close of a session releases. -/
def ownerOfSession (m : ConnectionManager) (session : Session) : Option ControlToken :=
  match m.acknowledgedSessions.find session.id with
  | none => none
  | some owner => if owner.session = session then some owner else none

def closeSessionConnection (m : ConnectionManager) (session : Session) : ConnectionManager :=
  { m with
    sessionConns :=
      match m.sessionConns.find session.id with
      | none => m.sessionConns
      | some sessionConn =>
        if sessionConn.session = session then m.sessionConns.remove session.id
        else m.sessionConns
    acknowledgedSessions :=
      if (m.ownerOfSession session).isSome then m.acknowledgedSessions.remove session.id
      else m.acknowledgedSessions }

def removeSessionConnection (m : ConnectionManager) (sessionConn : SessionConnection) :
    ConnectionManager :=
  if m.sessionConns.find sessionConn.sessionID = some sessionConn then
    { m with sessionConns := m.sessionConns.remove sessionConn.sessionID }
  else
    m

end ConnectionManager

/-! ### Interleavings -/

/-- How far a request for a session is. -/
inductive RequestStage where
  | waiting
  | leaving
  | establishing
  | aborting
  | releasing
deriving DecidableEq, Repr

/-- A request, and how its waiter was signalled: acknowledged, or failed. -/
structure Request where
  owner : ControlToken
  stage : RequestStage
  signal : Option Bool
deriving DecidableEq, Repr

/-- An acknowledgement that reached a waiter, with the control connection it was read
on. -/
structure Delivery where
  conn : Nat
  generation : Nat
  waiter : AckWaiter
deriving DecidableEq, Repr

structure Node where
  manager : ConnectionManager
  sessions : Sessions
  cleanedUp : List Session
  requests : List Request
  delivered : List Delivery
  published : List SessionConnection
  released : List ControlToken
  nextControl : Nat
  nextSession : Nat
  nextOwner : Nat
  nextConnection : Nat

inductive Action where
  | connect
  | tearDown (conn generation : Nat)
  | openSession (id : String)
  | closeSession (session : Session)
  | markCleanedUp (session : Session)
  | request (session : Session)
  | giveUp (request : Request)
  | leave (request : Request)
  | acknowledge (conn generation : Nat) (sessionID : String)
  | receive (request : Request)
  | abort (request : Request)
  | publish (request : Request)
  | lookForConnection (request : Request)
  | release (request : Request)
  | closeSessionConnection (session : Session)
  | finishHandler (sessionConn : SessionConnection)
deriving DecidableEq, Repr

namespace Node

def start : Node where
  manager := ConnectionManager.new
  sessions := Table.empty
  cleanedUp := []
  requests := []
  delivered := []
  published := []
  released := []
  nextControl := 0
  nextSession := 0
  nextOwner := 0
  nextConnection := 0

/-- The supervisor connects again only after it has torn down. -/
def connect (n : Node) : Option Node :=
  if n.manager.controlConn.isSome then
    none
  else
    some { n with manager := n.manager.connect n.nextControl, nextControl := n.nextControl + 1 }

/-- The waiters of a connection are signalled with its loss. -/
def tearDown (n : Node) (conn generation : Nat) : Node :=
  let (manager, orphans) := n.manager.tearDownControl conn generation
  { n with
    manager := manager
    requests := n.requests.map fun request =>
      match n.manager.pendingAcks.find request.owner.session.id with
      | none => request
      | some waiter =>
        if waiter.owner = request.owner ∧ waiter.controlConn = conn ∧
            waiter.controlGeneration = generation then
          { request with signal := some false }
        else
          request
    released := orphans ++ n.released }

def openSession (n : Node) (id : String) : Option Node :=
  match Sessions.registerSession n.sessions { identity := n.nextSession, id := id } with
  | .error _ => none
  | .ok sessions => some { n with sessions := sessions, nextSession := n.nextSession + 1 }

def request (n : Node) (session : Session) : Node :=
  match n.manager.registerWaiter n.nextOwner session with
  | .error _ => n
  | .ok (manager, owner) =>
    { n with
      manager := manager
      requests := { owner := owner, stage := .waiting, signal := none } :: n.requests
      nextOwner := n.nextOwner + 1 }

def advance (n : Node) (request : Request) (stage : RequestStage) : Node :=
  { n with requests := { request with stage := stage } :: n.requests.erase request }

/-- The write fails or the time is over. The choice is free when the waiter has been
signalled as well. -/
def giveUp (n : Node) (request : Request) : Option Node :=
  if request ∈ n.requests ∧ request.stage = .waiting then
    some (n.advance request .leaving)
  else
    none

def leave (n : Node) (request : Request) : Option Node :=
  if request ∈ n.requests ∧ request.stage = .leaving then
    some { n with
      manager := n.manager.removeWaiter request.owner
      requests := n.requests.erase request }
  else
    none

/-- The loop of a control connection, which ends before the teardown. -/
def acknowledge (n : Node) (conn generation : Nat) (sessionID : String) : Option Node :=
  if n.manager.isCurrentControlConnection conn generation then
    match n.manager.sessionCreatedAck conn generation sessionID with
    | (_, none) => some n
    | (manager, some waiter) =>
      some { n with
        manager := manager
        requests := n.requests.map fun request =>
          if request.owner = waiter.owner then { request with signal := some true } else request
        delivered := { conn := conn, generation := generation, waiter := waiter } :: n.delivered }
  else
    none

def receive (n : Node) (request : Request) : Option Node :=
  if request ∈ n.requests ∧ request.stage = .waiting then
    match request.signal with
    | none => none
    | some true => some (n.advance request .establishing)
    | some false => some (n.advance request .leaving)
  else
    none

/-- A check before the dial, or the dial, fails. -/
def abort (n : Node) (request : Request) : Option Node :=
  if request ∈ n.requests ∧ request.stage = .establishing then
    some (n.advance request .aborting)
  else
    none

def candidate (n : Node) (owner : ControlToken) : SessionConnection where
  identity := n.nextConnection
  sessionID := owner.session.id
  session := owner.session
  controlConn := owner.conn
  controlGeneration := owner.generation
  admissionOwner := owner

def publish (n : Node) (request : Request) : Option Node :=
  if request ∈ n.requests ∧ request.stage = .establishing then
    match n.manager.publishSessionConnection n.sessions n.cleanedUp (n.candidate request.owner) with
    | .error _ => some (n.advance request .aborting)
    | .ok manager =>
      some { n with
        manager := manager
        requests := n.requests.erase request
        published := n.candidate request.owner :: n.published
        nextConnection := n.nextConnection + 1 }
  else
    none

/-- The deferred part of a failed attempt looks for a connection of the session. -/
def lookForConnection (n : Node) (request : Request) : Option Node :=
  if request ∈ n.requests ∧ request.stage = .aborting then
    if (n.manager.sessionConns.find request.owner.session.id).isSome then
      some { n with requests := n.requests.erase request }
    else
      some (n.advance request .releasing)
  else
    none

def release (n : Node) (request : Request) : Option Node :=
  if request ∈ n.requests ∧ request.stage = .releasing then
    match n.manager.releaseAcknowledgedSessionOwner request.owner with
    | (manager, claimed) =>
      some { n with
        manager := manager
        requests := n.requests.erase request
        released := if claimed then request.owner :: n.released else n.released }
  else
    none

def closeSessionConnection (n : Node) (session : Session) : Node :=
  { n with
    manager := n.manager.closeSessionConnection session
    released := (n.manager.ownerOfSession session).toList ++ n.released }

def step (n : Node) : Action → Option Node
  | .connect => n.connect
  | .tearDown conn generation => some (n.tearDown conn generation)
  | .openSession id => n.openSession id
  | .closeSession session =>
    some { n with sessions := Sessions.closeSessionIfCurrent n.sessions session }
  | .markCleanedUp session => some { n with cleanedUp := session :: n.cleanedUp }
  | .request session => some (n.request session)
  | .giveUp request => n.giveUp request
  | .leave request => n.leave request
  | .acknowledge conn generation sessionID => n.acknowledge conn generation sessionID
  | .receive request => n.receive request
  | .abort request => n.abort request
  | .publish request => n.publish request
  | .lookForConnection request => n.lookForConnection request
  | .release request => n.release request
  | .closeSessionConnection session => some (n.closeSessionConnection session)
  | .finishHandler sessionConn =>
    some { n with manager := n.manager.removeSessionConnection sessionConn }

end Node

def machine : Machine Node Action where
  start := Node.start
  step := Node.step

end ReclaimTee.TeeK
