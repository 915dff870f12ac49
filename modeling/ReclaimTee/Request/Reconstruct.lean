/-
The request on TEE_T. Fragments of TEE_K and streams of the client come on two
connections; whichever comes second starts the work. Each fragment gets the
streams applied by their position in its own range list, and a tag.
-/

import ReclaimTee.Request.Fragments
import ReclaimTee.SequenceMap

namespace ReclaimTee.Request

open ReclaimTee.Mpc ReclaimTee.Tls

def maxEncryptedFragments : Nat := 500

structure PendingFragment where
  request : EncryptedRequest
  cipherSuite : CipherSuite

structure EncryptedData where
  encryptedData : List Byte
  authTag : List Byte
deriving DecidableEq

structure BatchedEncryptedData where
  fragments : List EncryptedData
  baseSeqNum : Nat

structure RequestState where
  ranges : List RequestRedactionRange
  redactionStreams : List (List Byte)
  pendingEncryptedFragments : SequenceMap PendingFragment
  requestPartsArrived : Nat
  requestProofStreams : List (List Byte)

def RequestState.start : RequestState :=
  { ranges := []
    redactionStreams := []
    pendingEncryptedFragments := ∅
    requestPartsArrived := 0
    requestProofStreams := [] }

def invalidRangeText (index : Nat) (range : RequestRedactionRange) (dataLength : Nat) : String :=
  s!"invalid redaction range {index}: start={range.start} length={range.length} (data length {dataLength})"

/-- The loop of `reconstructFullRequestWithStreams`; a range without a stream is
skipped. -/
def reconstructFrom : Nat → List Byte → List (RequestRedactionRange × List Byte) →
    Except String (List Byte)
  | _, reconstructed, [] => .ok reconstructed
  | index, reconstructed, (range, stream) :: rest => do
      rejectIf (range.start < 0 ∨ range.length < 0 ∨ (reconstructed.length : Int) < range.start ∨
          (reconstructed.length : Int) < range.finish)
        (invalidRangeText index range reconstructed.length)
      reconstructFrom (index + 1)
        (Mask.xorInto reconstructed range.start.toNat (stream.take range.length.toNat)) rest

def reconstructFullRequestWithStreams (encryptedRedacted : List Byte)
    (ranges : List RequestRedactionRange) (redactionStreams : List (List Byte)) :
    Except String (List Byte) :=
  reconstructFrom 0 encryptedRedacted (ranges.zip redactionStreams)

variable (c : RecordCiphers)

/-- One fragment with the streams applied, and the tag over it. -/
def processFragment (redactionStreams : List (List Byte)) (seqNum : Nat)
    (fragment : PendingFragment) : Except String EncryptedData := do
  let reconstructed ← reconstructFullRequestWithStreams fragment.request.encryptedData
    fragment.request.redactionRanges redactionStreams
  let additionalData :=
    createAdditionalData fragment.cipherSuite seqNum reconstructed.length
  return { encryptedData := reconstructed
           authTag := c.tag fragment.cipherSuite fragment.request.tagSecrets additionalData
             reconstructed }

def processEncryptedRequestWithStreams (redactionStreams : List (List Byte))
    (fragment : PendingFragment) : Except String BatchedEncryptedData := do
  let processed ← processFragment c redactionStreams fragment.request.seqNum fragment
  return { fragments := [processed], baseSeqNum := fragment.request.seqNum }

def checkConsecutive (baseSeq : Nat) : Nat → List Nat → Except String Unit
  | _, [] => .ok ()
  | offset, seqNum :: rest => do
      rejectIf (seqNum ≠ (baseSeq + offset) % 2 ^ 64)
        s!"non-consecutive fragments: expected {baseSeq + offset}, got {seqNum}"
      checkConsecutive baseSeq (offset + 1) rest

def suiteMismatchText (seqNum expected got : Nat) : String :=
  s!"cipher suite mismatch in fragment {seqNum}: expected {expected}, got {got}"

def processPending (redactionStreams : List (List Byte)) (pending : SequenceMap PendingFragment)
    (cipherSuite : CipherSuite) (seqNum : Nat) : Except String EncryptedData :=
  match pending.find seqNum with
  | none => .error s!"missing fragment {seqNum}"
  | some fragment =>
    if fragment.cipherSuite ≠ cipherSuite then
      .error (suiteMismatchText seqNum cipherSuite.code fragment.cipherSuite.code)
    else
      processFragment c redactionStreams seqNum fragment

def processEncryptedFragmentsWithStreams (redactionStreams : List (List Byte))
    (pending : SequenceMap PendingFragment) : Except String (Option BatchedEncryptedData) :=
  match pending.entries with
  | [] => .ok none
  | [entry] => (processEncryptedRequestWithStreams c redactionStreams entry.2).map some
  | entry :: _ => do
      let seqNums := pending.ascending
      let baseSeq := seqNums.headD 0
      checkConsecutive baseSeq 0 seqNums
      let cipherSuite := ((pending.find baseSeq).getD entry.2).cipherSuite
      let fragments ← seqNums.mapM (processPending c redactionStreams pending cipherSuite)
      return some { fragments := fragments, baseSeqNum := baseSeq }

/-- The streams that are signed with the transcript. -/
def captureProofStreams (ranges : List RequestRedactionRange) (streams : List (List Byte)) :
    List (List Byte) :=
  ((ranges.zip streams).filter fun pair => pair.1.type = .sensitiveProof).map Prod.snd

/-- The second part to arrive starts the work. -/
def processIfBothPartsArrived (state : RequestState) :
    Except String (RequestState × Option BatchedEncryptedData) :=
  let state := { state with requestPartsArrived := state.requestPartsArrived + 1 }
  if state.requestPartsArrived ≠ 2 then
    .ok (state, none)
  else do
    let state :=
      { state with requestProofStreams := captureProofStreams state.ranges state.redactionStreams }
    rejectIf (state.pendingEncryptedFragments.entries = [])
      "both parts marked arrived but no encrypted request data present"
    let sent ← processEncryptedFragmentsWithStreams c state.redactionStreams
      state.pendingEncryptedFragments
    return ({ state with pendingEncryptedFragments := ∅ }, sent)

def handleRedactionStreams (state : RequestState) (streams : List (List Byte)) :
    Except String (RequestState × Option BatchedEncryptedData) :=
  processIfBothPartsArrived c { state with redactionStreams := streams }

/-- The fragments under the sequence numbers that the batch implies. -/
def numberedFragments (batch : BatchedEncryptedRequest) : List (Nat × PendingFragment) :=
  batch.fragments.zipIdx.map fun (fragment, index) =>
    let seqNum := (batch.baseSeqNum + index) % 2 ^ 64
    (seqNum,
      { request := { fragment with seqNum := seqNum }
        cipherSuite := batch.cipherSuite })

def handleBatchedEncryptedRequest (state : RequestState) (batch : BatchedEncryptedRequest) :
    Except String (RequestState × Option BatchedEncryptedData) := do
  rejectIf (maxEncryptedFragments < batch.fragments.length)
    s!"too many fragments: {batch.fragments.length} (max {maxEncryptedFragments})"
  let firstRanges := batch.fragments.head?.map EncryptedRequest.redactionRanges
  let rangeCount := (firstRanges.getD []).length
  rejectIf (maxRedactionRanges < rangeCount)
    s!"too many redaction ranges: {rangeCount} (max {maxRedactionRanges})"
  processIfBothPartsArrived c
    { state with
      ranges := firstRanges.getD state.ranges
      pendingEncryptedFragments :=
        SequenceMap.store (numberedFragments batch) state.pendingEncryptedFragments }

end ReclaimTee.Request
