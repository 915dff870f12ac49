/-
The precompute protocol between the two nodes: batches of correlated entries,
pool epochs, and the messages of one control connection. A batch is named by the
sender's session identifier, which does not repeat; a connection's number stands
for its generation too.
-/

import ReclaimTee.Mpc.ExtensionRun
import ReclaimTee.Mpc.Pool

namespace ReclaimTee.Precompute

open ReclaimTee.Mpc

abbrev Conn := Nat

abbrev Session := Nat

/-- The public pool epoch: a fresh nonce while the first batch is made, then
the session of the last committed batch. -/
inductive Epoch where
  | initial (nonce : Session)
  | extension (session : Session)
deriving DecidableEq, Repr

def otsPerOPRF : Nat := 640

structure Batch where
  session : Session
  startIndex : Nat
  count : Nat
deriving DecidableEq, Repr

/-- The entries that the extension run of a batch leaves on each side. -/
structure Extension where
  sent : Batch → List SenderOT
  received : Batch → List ReceiverOT
  sentIndices : ∀ batch, (sent batch).map SenderOT.index = List.range' batch.startIndex batch.count
  paired : ∀ batch, List.Forall₂ Correlated (sent batch) (received batch)

namespace Extension

variable (E : Extension)

def sentAll (batches : List Batch) : List SenderOT :=
  batches.flatMap E.sent

def receivedAll (batches : List Batch) : List ReceiverOT :=
  batches.flatMap E.received

theorem pairedAll (batches : List Batch) :
    List.Forall₂ Correlated (E.sentAll batches) (E.receivedAll batches) := by
  induction batches with
  | nil => exact List.Forall₂.nil
  | cons batch rest ih =>
    exact List.rel_append (E.paired batch) ih

theorem sentAll_append (first second : List Batch) :
    E.sentAll (first ++ second) = E.sentAll first ++ E.sentAll second :=
  List.flatMap_append

theorem receivedAll_append (first second : List Batch) :
    E.receivedAll (first ++ second) = E.receivedAll first ++ E.receivedAll second :=
  List.flatMap_append

theorem sentAll_singleton (batch : Batch) : E.sentAll [batch] = E.sent batch := by
  rw [sentAll, List.flatMap_cons, List.flatMap_nil, List.append_nil]

theorem receivedAll_singleton (batch : Batch) : E.receivedAll [batch] = E.received batch := by
  rw [receivedAll, List.flatMap_cons, List.flatMap_nil, List.append_nil]

theorem allLength (batches : List Batch) :
    (E.sentAll batches).length = (E.receivedAll batches).length :=
  (E.pairedAll batches).length_eq

theorem paddedRows_bytes (count : Nat) :
    paddedRows count / 8 = 16 * ((count + 255) / 128) := by
  rw [paddedRows]
  omega

theorem lt_paddedRows {count row : Nat} (inside : row < count) :
    row < 128 * ((count + 255) / 128) := by
  omega

/-- The extension made of honest runs with the randomness of each batch. -/
def ofRuns (p : Primitives) (sessionID : Session → SessionID)
    (base : Batch → Fin baseOTCount → BaseOTSeedPair) (delta : Batch → Label)
    (choices : (batch : Batch) → Vector Byte (paddedRows batch.count / 8)) : Extension where
  sent batch := senderEntries p
    (transposeColumns
      (senderMatrix p
        (fun col => if deltaBit (delta batch) col then (base batch col).one
          else (base batch col).zero)
        (delta batch) (sessionID batch.session)
        (maskMatrix p (base batch) (sessionID batch.session) (choices batch).toList
          (paddedRows batch.count / 8)) (paddedRows batch.count / 8))
      (paddedRows batch.count / 8) (paddedRows batch.count))
    (delta batch) batch.startIndex batch.count
  received batch := receiverEntries p
    (transposeColumns (receiverMatrix p (base batch) (sessionID batch.session)
        (paddedRows batch.count / 8)) (paddedRows batch.count / 8) (paddedRows batch.count))
    (choices batch).toList batch.startIndex batch.count
  sentIndices batch := by
    rw [senderEntries, List.map_map, List.range'_eq_map_range]
    rfl
  paired batch := by
    apply entries_correlated
    intro i inside
    apply rows_related (fun _ => rfl)
    · exact Vector.length_toList
    · exact paddedRows_bytes batch.count
    · exact lt_paddedRows inside

end Extension

structure PrecomputeBegin where
  session : Session
  startIndex : Nat
  count : Nat
  epoch : Option Epoch
  isInitial : Bool
deriving DecidableEq, Repr

def PrecomputeBegin.batch (message : PrecomputeBegin) : Batch :=
  { session := message.session, startIndex := message.startIndex, count := message.count }

/-- The metadata every later request of a session repeats. -/
structure Continuation where
  session : Session
  count : Nat
  epoch : Option Epoch
  isInitial : Bool
deriving DecidableEq, Repr

/-- Control messages of the sender, in the order of one connection. -/
inductive Request where
  | precomputeBegin (message : PrecomputeBegin)
  | baseChoices (message : Continuation)
  | challenge (message : Continuation)
  | complete (poolSize : Nat)
  | resume (epoch : Option Epoch) (nextIndex : Nat)
deriving DecidableEq, Repr

/-- The data of a precompute response, which the sender reads by its phase. -/
inductive ResponseData where
  | baseSetup (session : Session)
  | commitment (batch : Batch) (epoch : Option Epoch)
  | proof (session : Session)
deriving DecidableEq, Repr

inductive Response where
  | precompute (count : Nat) (data : ResponseData)
  | resume (accepted : Bool)
deriving DecidableEq, Repr

/-- What a handler leaves: the node, the messages it wrote, and its error, which
closes the connection. -/
structure Outcome (Node Message : Type) where
  node : Node
  messages : List Message
  failure : Option String

namespace Outcome

variable {Node Message : Type}

def error (node : Node) (text : String) : Outcome Node Message :=
  { node := node, messages := [], failure := some text }

def ok (node : Node) (messages : List Message) : Outcome Node Message :=
  { node := node, messages := messages, failure := none }

end Outcome

end ReclaimTee.Precompute
