/-
The connections of TEE_K at TEE_T: one control connection, replaced at any time,
and one connection for each session, published for the owner its announcement
made. Every section of the source under one lock is one step; objects compared by
pointer have an identity. Attestation, sockets and messages are not modelled.
-/

import ReclaimTee.Control.Session
import ReclaimTee.Transition

namespace ReclaimTee.TeeT

open ReclaimTee.Control

structure SessionConnection where
  identity : Nat
  sessionID : String
  controlGeneration : Nat
  session : Session
deriving DecidableEq, Repr

structure SessionOwner where
  controlGeneration : Nat
  session : Session
deriving DecidableEq, Repr

structure SessionState where
  session : Session
  controlGeneration : Nat
deriving DecidableEq, Repr

/-! ### The connection manager -/

structure ConnectionManager where
  controlConn : Option Nat
  controlGeneration : Nat
  attestationVerified : Bool
  sessionConns : Table String SessionConnection
  sessionOwners : Table String SessionOwner

namespace ConnectionManager

def new : ConnectionManager where
  controlConn := none
  controlGeneration := 0
  attestationVerified := false
  sessionConns := Table.empty
  sessionOwners := Table.empty

def isCurrentControlConnection (m : ConnectionManager) (conn generation : Nat) : Bool :=
  m.controlConn = some conn ∧ m.controlGeneration = generation

/-- Without the connections and owners of one generation. -/
def purge (m : ConnectionManager) (generation : Nat) : ConnectionManager :=
  { m with
    sessionConns := m.sessionConns.keep fun _ conn => conn.controlGeneration ≠ generation
    sessionOwners := m.sessionOwners.keep fun _ owner => owner.controlGeneration ≠ generation }

def activateControlConnection (m : ConnectionManager) (conn : Nat) : ConnectionManager :=
  let purged :=
    if m.controlConn.isSome ∧ m.controlConn ≠ some conn then m.purge m.controlGeneration else m
  { purged with
    controlGeneration := m.controlGeneration + 1
    controlConn := some conn
    attestationVerified := false }

/-- A superseded attestation changes nothing. -/
def completeControlAttestation (m : ConnectionManager) (conn generation : Nat) :
    ConnectionManager :=
  if m.isCurrentControlConnection conn generation then
    { m with attestationVerified := true }
  else
    m

def tearDownControlConnection (m : ConnectionManager) (conn generation : Nat) :
    ConnectionManager :=
  if m.isCurrentControlConnection conn generation then
    { m.purge generation with controlConn := none, attestationVerified := false }
  else
    m

def closeOwnedSession (m : ConnectionManager) (conn generation : Nat) (sessionID : String) :
    ConnectionManager :=
  if m.isCurrentControlConnection conn generation then
    match m.sessionOwners.find sessionID with
    | none => m
    | some owner =>
      if owner.controlGeneration ≠ generation then
        m
      else
        { m with
          sessionOwners := m.sessionOwners.remove sessionID
          sessionConns :=
            match m.sessionConns.find sessionID with
            | none => m.sessionConns
            | some current =>
              if current.controlGeneration = generation ∧ current.session = owner.session then
                m.sessionConns.remove sessionID
              else
                m.sessionConns }
  else
    m

/-- The part of the publication under the lock: the connection is stored with the
session of the owner. -/
def publishSessionConnection (m : ConnectionManager) (identity : Nat) (sessionID : String)
    (generation : Nat) : Except String (ConnectionManager × SessionConnection) :=
  match m.sessionOwners.find sessionID with
  | none => .error s!"session {sessionID} is not owned by current control generation"
  | some owner => do
      rejectIf (m.controlConn = none ∨ m.controlGeneration ≠ generation ∨
          owner.controlGeneration ≠ generation)
        s!"session {sessionID} is not owned by current control generation"
      rejectIf ((m.sessionConns.find sessionID).isSome = true)
        s!"session {sessionID} already has a TEE_K connection"
      rejectIf (m.attestationVerified = false) s!"control generation {generation} is not attested"
      rejectIf (maxConcurrentSessions ≤ m.sessionConns.size)
        s!"max concurrent sessions ({maxConcurrentSessions}) reached during publication"
      let conn : SessionConnection :=
        { identity := identity
          sessionID := sessionID
          controlGeneration := generation
          session := owner.session }
      return ({ m with sessionConns := m.sessionConns.put sessionID conn }, conn)

def removeSessionConnection (m : ConnectionManager) (expected : SessionConnection) :
    ConnectionManager :=
  if m.sessionConns.find expected.sessionID = some expected then
    { m with sessionConns := m.sessionConns.remove expected.sessionID }
  else
    m

def closeSessionConnection (m : ConnectionManager) (expectedGeneration : Nat)
    (expectedSession : Session) : ConnectionManager :=
  { m with
    sessionOwners :=
      match m.sessionOwners.find expectedSession.id with
      | none => m.sessionOwners
      | some owner =>
        if owner.controlGeneration = expectedGeneration ∧ owner.session = expectedSession then
          m.sessionOwners.remove expectedSession.id
        else
          m.sessionOwners
    sessionConns :=
      match m.sessionConns.find expectedSession.id with
      | none => m.sessionConns
      | some conn =>
        if conn.controlGeneration = expectedGeneration ∧ conn.session = expectedSession then
          m.sessionConns.remove expectedSession.id
        else
          m.sessionConns }

end ConnectionManager

/-! ### The session manager -/

structure SessionManager where
  sessions : Sessions
  teetStates : Table String SessionState

namespace SessionManager

def new : SessionManager where
  sessions := Table.empty
  teetStates := Table.empty

def setTEETSessionState (m : SessionManager) (state : SessionState) : SessionManager :=
  { m with teetStates := m.teetStates.put state.session.id state }

def controlGenerationForSession (m : SessionManager) (session : Session) : Option Nat :=
  match m.teetStates.find session.id with
  | none => none
  | some state => if state.session = session then some state.controlGeneration else none

def isCurrentControlSession (m : SessionManager) (session : Session) (generation : Nat) : Bool :=
  m.controlGenerationForSession session = some generation ∧
    m.sessions.find session.id = some session

def removeState (m : SessionManager) (session : Session) : SessionManager :=
  if (m.controlGenerationForSession session).isSome then
    { m with teetStates := m.teetStates.remove session.id }
  else
    m

end SessionManager

/-! ### Interleavings -/

/-- How far `registerSessionOwner` is. -/
inductive RegistrationStage where
  | checked
  | registered (session : Session)
  | recorded (session : Session)
deriving DecidableEq, Repr

/-- A registration of the loop of the current control connection, which handles one
message at a time. -/
structure Registration where
  conn : Nat
  generation : Nat
  sessionID : String
  stage : RegistrationStage
deriving DecidableEq, Repr

/-- What `cleanupSessionWithSession` does next. -/
inductive CleanupStage where
  | lookUp
  | closeConnection (generation : Nat)
  | removeState
  | closeSession
deriving DecidableEq, Repr

/-- A cleanup, and the connection whose handler runs it, if one does. -/
structure Cleanup where
  session : Session
  cause : Option SessionConnection
  stage : CleanupStage
deriving DecidableEq, Repr

structure Node where
  manager : ConnectionManager
  sessionManager : SessionManager
  cleanedUp : List Session
  registering : Option Registration
  publishing : List SessionConnection
  handlers : List SessionConnection
  cleanups : List Cleanup
  nextControl : Nat
  nextSession : Nat
  nextConnection : Nat

inductive Action where
  | activate
  | completeAttestation (conn generation : Nat)
  | tearDown (conn generation : Nat)
  | startRegistration (conn generation : Nat) (sessionID : String)
  | continueRegistration
  | closeOwned (conn generation : Nat) (sessionID : String)
  | publish (sessionID : String) (expectedGeneration : Nat)
  | confirm (conn : SessionConnection)
  | startCleanup (session : Session) (cause : Option SessionConnection)
  | continueCleanup (cleanup : Cleanup)
  | finishHandler (conn : SessionConnection)
  | expire (sessionID : String)
deriving DecidableEq, Repr

namespace Node

def start : Node where
  manager := ConnectionManager.new
  sessionManager := SessionManager.new
  cleanedUp := []
  registering := none
  publishing := []
  handlers := []
  cleanups := []
  nextControl := 0
  nextSession := 0
  nextConnection := 0

/-- No registration and no publication holds the state lock. -/
def unlocked (n : Node) : Bool :=
  n.registering.isNone ∧ n.publishing = []

def activate (n : Node) : Option Node :=
  if n.unlocked then
    some { n with
      manager := n.manager.activateControlConnection n.nextControl
      nextControl := n.nextControl + 1 }
  else
    none

def tearDown (n : Node) (conn generation : Nat) : Option Node :=
  if n.unlocked then
    some { n with manager := n.manager.tearDownControlConnection conn generation }
  else
    none

/-- The check for an owner, under the lease of the current generation. -/
def startRegistration (n : Node) (conn generation : Nat) (sessionID : String) : Option Node :=
  if n.registering.isSome then
    none
  else if n.manager.isCurrentControlConnection conn generation = false ∨
      (n.manager.sessionOwners.find sessionID).isSome then
    some n
  else
    some { n with
      registering := some
        { conn := conn
          generation := generation
          sessionID := sessionID
          stage := .checked } }

/-- The session is created, then its state, then its owner. -/
def continueRegistration (n : Node) : Option Node :=
  match n.registering with
  | none => none
  | some registration =>
    match registration.stage with
    | .checked =>
      let session : Session := { identity := n.nextSession, id := registration.sessionID }
      match Sessions.registerSession n.sessionManager.sessions session with
      | .error _ => some { n with registering := none }
      | .ok sessions =>
        some { n with
          sessionManager := { n.sessionManager with sessions := sessions }
          registering := some { registration with stage := .registered session }
          nextSession := n.nextSession + 1 }
    | .registered session =>
      some { n with
        sessionManager := n.sessionManager.setTEETSessionState
          { session := session, controlGeneration := registration.generation }
        registering := some { registration with stage := .recorded session } }
    | .recorded session =>
      some { n with
        manager := { n.manager with
          sessionOwners := n.manager.sessionOwners.put registration.sessionID
            { controlGeneration := registration.generation, session := session } }
        registering := none }

def publish (n : Node) (sessionID : String) (expectedGeneration : Nat) : Option Node :=
  match n.manager.publishSessionConnection n.nextConnection sessionID expectedGeneration with
  | .error _ => some n
  | .ok (manager, conn) =>
    some { n with
      manager := manager
      publishing := conn :: n.publishing
      nextConnection := n.nextConnection + 1 }

/-- The end of the publication: the session is looked up outside the lock. -/
def confirm (n : Node) (conn : SessionConnection) : Option Node :=
  if conn ∈ n.publishing then
    if n.sessionManager.isCurrentControlSession conn.session conn.controlGeneration then
      some { n with publishing := n.publishing.erase conn, handlers := conn :: n.handlers }
    else
      some { n with
        manager := n.manager.removeSessionConnection conn
        publishing := n.publishing.erase conn }
  else
    none

/-- Any goroutine may clean up a session it knows; a handler only its own. -/
def startCleanup (n : Node) (session : Session) (cause : Option SessionConnection) :
    Option Node :=
  if session ∈ n.cleanedUp ∨
      cause.any (fun conn => conn ∉ n.handlers ∨ conn.session ≠ session) then
    none
  else
    some { n with
      cleanedUp := session :: n.cleanedUp
      cleanups := { session := session, cause := cause, stage := .lookUp } :: n.cleanups }

def advance (n : Node) (cleanup : Cleanup) (stage : CleanupStage) : Node :=
  { n with cleanups := { cleanup with stage := stage } :: n.cleanups.erase cleanup }

def continueCleanup (n : Node) (cleanup : Cleanup) : Option Node :=
  if cleanup ∈ n.cleanups then
    match cleanup.stage with
    | .lookUp =>
      match n.sessionManager.controlGenerationForSession cleanup.session with
      | none => some (n.advance cleanup .removeState)
      | some generation => some (n.advance cleanup (.closeConnection generation))
    | .closeConnection generation =>
      some ({ n with
        manager := n.manager.closeSessionConnection generation cleanup.session }.advance cleanup
          .removeState)
    | .removeState =>
      some ({ n with
        sessionManager := n.sessionManager.removeState cleanup.session }.advance cleanup
          .closeSession)
    | .closeSession =>
      some { n with
        sessionManager := { n.sessionManager with
          sessions := Sessions.closeSessionIfCurrent n.sessionManager.sessions cleanup.session }
        cleanups := n.cleanups.erase cleanup }
  else
    none

/-- The deferred end of a session handler, after any cleanup it runs itself. -/
def finishHandler (n : Node) (conn : SessionConnection) : Option Node :=
  if conn ∈ n.handlers ∧ ∀ cleanup ∈ n.cleanups, cleanup.cause ≠ some conn then
    some { n with
      manager := n.manager.removeSessionConnection conn
      handlers := n.handlers.erase conn }
  else
    none

def step (n : Node) : Action → Option Node
  | .activate => n.activate
  | .completeAttestation conn generation =>
    some { n with manager := n.manager.completeControlAttestation conn generation }
  | .tearDown conn generation => n.tearDown conn generation
  | .startRegistration conn generation sessionID => n.startRegistration conn generation sessionID
  | .continueRegistration => n.continueRegistration
  | .closeOwned conn generation sessionID =>
    some { n with manager := n.manager.closeOwnedSession conn generation sessionID }
  | .publish sessionID expectedGeneration => n.publish sessionID expectedGeneration
  | .confirm conn => n.confirm conn
  | .startCleanup session cause => n.startCleanup session cause
  | .continueCleanup cleanup => n.continueCleanup cleanup
  | .finishHandler conn => n.finishHandler conn
  | .expire sessionID =>
    some { n with
      sessionManager := { n.sessionManager with
        sessions := n.sessionManager.sessions.remove sessionID } }

end Node

def machine : Machine Node Action where
  start := Node.start
  step := Node.step

end ReclaimTee.TeeT
