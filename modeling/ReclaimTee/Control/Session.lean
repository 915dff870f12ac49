/-
Sessions as both nodes keep them: objects that are compared by identity, one at a
time under each id.
-/

import ReclaimTee.Checked
import ReclaimTee.Table

namespace ReclaimTee.Control

def maxConcurrentSessions : Nat := 100

def maxSessions : Nat := 1000

structure Session where
  identity : Nat
  id : String
deriving DecidableEq, Repr

abbrev Sessions := Table String Session

namespace Sessions

def registerSession (sessions : Sessions) (session : Session) : Except String Sessions := do
  rejectIf (maxSessions ≤ sessions.size) s!"maximum session limit reached ({maxSessions})"
  rejectIf ((sessions.find session.id).isSome = true) s!"session {session.id} already registered"
  return sessions.put session.id session

def closeSessionIfCurrent (sessions : Sessions) (session : Session) : Sessions :=
  if sessions.find session.id = some session then sessions.remove session.id else sessions

end Sessions

end ReclaimTee.Control
