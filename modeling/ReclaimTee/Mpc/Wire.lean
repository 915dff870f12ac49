/-
The wire formats of the OT extension and of the online round. A decoder reads the
fields of a message at fixed positions after it has checked the length. The
engine of the fixed circuit is a parameter.
-/

import ReclaimTee.Codec
import ReclaimTee.Mpc.Oprf
import ReclaimTee.Mpc.OtExtension
import ReclaimTee.Mpc.Pool

namespace ReclaimTee.Mpc

def compressedP256PointSize : Nat := 33

def baseSetupMessageSize : Nat := 4 + 32 + compressedP256PointSize

def baseChoiceMessageSize : Nat := 4 + 32 + baseOTCount * compressedP256PointSize

def extensionCommitmentHeaderSize : Nat := 4 + 32 + 8 + 4 + 4 + 32 + 32

def extensionChallengeHeaderSize : Nat := 4 + 32 + 32 + 32 + 4

def extensionProofSize : Nat := 4 + 32 + 32 + 16 + baseOTCount * 16

def payloadHeaderSize : Nat := 4 + 8 + 16 + 8 + 4

structure PrecomputeBegin where
  sessionID : SessionID
  startIndex : Nat
  count : Nat
  epoch : List Byte
deriving DecidableEq

def labelsFromBytes (data : List Byte) (count : Nat) : List Label :=
  (blocks 16 count data).map Label.fromBytes

/-! ### The extension -/

section Extension

variable (p : Primitives)

def marshalPrecomputeBegin (message : PrecomputeBegin) : Except String (List Byte) := do
  let _ ← extensionPaddedCount message.count
  let _ ← checkedIndexEnd message.startIndex message.count
  validateExtensionEpoch p message.epoch
  return [ascii "KOB2", message.sessionID.toList, bigEndian 8 message.startIndex,
    bigEndian 4 message.count, bigEndian 2 message.epoch.length, message.epoch].flatten

def unmarshalPrecomputeBegin (data : List Byte) : Except String PrecomputeBegin := do
  rejectIf (data.length < 50 ∨ slice data 0 4 ≠ ascii "KOB2")
    "mpc: invalid OT precompute begin message"
  let epochLen := ofBigEndian (slice data 48 50)
  rejectIf (epochLen = 0 ∨ data.length ≠ 50 + epochLen)
    "mpc: invalid OT precompute begin epoch framing"
  let message : PrecomputeBegin :=
    { sessionID := array 32 (slice data 4 36)
      startIndex := ofBigEndian (slice data 36 44)
      count := ofBigEndian (slice data 44 48)
      epoch := data.drop 50 }
  validateExtensionEpoch p message.epoch
  let _ ← extensionPaddedCount message.count
  let _ ← checkedIndexEnd message.startIndex message.count
  return message

/-- A base OT message behind its session, as the setup and the choices are framed. -/
def marshalBaseMessage (tag nested : String) (size : Nat) (invalid : String) (session : SessionID)
    (message : List Byte) : Except String (List Byte) := do
  rejectIf (message.length ≠ size ∨ slice message 0 4 ≠ ascii nested ∨
      slice message 4 36 ≠ session.toList)
    invalid
  return [ascii tag, session.toList, message].flatten

def unmarshalBaseMessage (tag nested : String) (size : Nat) (invalid invalidNested : String)
    (data : List Byte) (session : SessionID) : Except String (List Byte) := do
  rejectIf (data.length ≠ 4 + 32 + size ∨ slice data 0 4 ≠ ascii tag ∨
      slice data 4 36 ≠ session.toList)
    invalid
  let message := data.drop 36
  rejectIf (slice message 0 4 ≠ ascii nested ∨ slice message 4 36 ≠ session.toList)
    invalidNested
  return message

def marshalPrecomputeBaseSetup : SessionID → List Byte → Except String (List Byte) :=
  marshalBaseMessage "KBS2" "BOS1" baseSetupMessageSize
    "mpc: invalid base OT setup for KOS2 frame"

def unmarshalPrecomputeBaseSetup : List Byte → SessionID → Except String (List Byte) :=
  unmarshalBaseMessage "KBS2" "BOS1" baseSetupMessageSize
    "mpc: invalid KOS2 base OT setup frame" "mpc: invalid nested base OT setup"

def marshalPrecomputeBaseChoices : SessionID → List Byte → Except String (List Byte) :=
  marshalBaseMessage "KBC2" "BOC1" baseChoiceMessageSize
    "mpc: invalid base OT choices for KOS2 frame"

def unmarshalPrecomputeBaseChoices : List Byte → SessionID → Except String (List Byte) :=
  unmarshalBaseMessage "KBC2" "BOC1" baseChoiceMessageSize
    "mpc: invalid KOS2 base OT choice frame" "mpc: invalid nested base OT choices"

def marshalExtensionCommitment (commitment : ExtensionCommitment) :
    Except String (List Byte) := do
  let padded ← extensionPaddedCount commitment.count
  rejectIf (commitment.paddedCount ≠ padded)
    s!"mpc: padded OT count {commitment.paddedCount}, want {padded}"
  let _ ← checkedIndexEnd commitment.startIndex commitment.count
  let wantU := baseOTCount * padded / 8
  rejectIf (commitment.u.length ≠ wantU)
    s!"mpc: OT extension matrix length {commitment.u.length}, want {wantU}"
  return [ascii "KOC2", commitment.sessionID.toList, bigEndian 8 commitment.startIndex,
    bigEndian 4 commitment.count, bigEndian 4 commitment.paddedCount,
    commitment.epochHash.toList, commitment.transcript.toList, commitment.u].flatten

def unmarshalExtensionCommitment (data : List Byte) : Except String ExtensionCommitment := do
  rejectIf (data.length < extensionCommitmentHeaderSize)
    "mpc: OT extension commitment is too short"
  rejectIf (slice data 0 4 ≠ ascii "KOC2")
    "mpc: unsupported OT extension commitment version"
  let count := ofBigEndian (slice data 44 48)
  let padded ← extensionPaddedCount count
  let encodedPadded := ofBigEndian (slice data 48 52)
  rejectIf (encodedPadded ≠ padded)
    s!"mpc: padded OT count {encodedPadded}, want {padded}"
  let startIndex := ofBigEndian (slice data 36 44)
  let _ ← checkedIndexEnd startIndex count
  let wantLen := extensionCommitmentHeaderSize + baseOTCount * padded / 8
  rejectIf (data.length ≠ wantLen)
    s!"mpc: OT extension commitment length {data.length}, want {wantLen}"
  return { sessionID := array 32 (slice data 4 36)
           startIndex := startIndex
           count := count
           paddedCount := padded
           epochHash := array 32 (slice data 52 84)
           transcript := array 32 (slice data 84 116)
           u := data.drop 116 }

def marshalExtensionChallenge (challenge : ExtensionChallenge) : Except String (List Byte) := do
  rejectIf (challenge.chi.length = 0) "mpc: invalid OT extension challenge"
  rejectIf (challenge.transcript ≠ extensionChallengeTranscript p challenge)
    "mpc: OT extension challenge hash mismatch"
  return [ascii "KCH2", challenge.sessionID.toList, challenge.commitment.toList,
    challenge.transcript.toList, bigEndian 4 challenge.chi.length,
    challenge.chi.flatMap Label.put].flatten

def unmarshalExtensionChallenge (data : List Byte) : Except String ExtensionChallenge := do
  rejectIf (data.length < extensionChallengeHeaderSize ∨ slice data 0 4 ≠ ascii "KCH2")
    "mpc: invalid OT extension challenge"
  let count := ofBigEndian (slice data 100 104)
  let maxPadded ← extensionPaddedCount maxExtensionOTs
  rejectIf (count = 0 ∨ extensionChallengeCount maxPadded < count)
    s!"mpc: invalid OT extension challenge count {count}"
  let wantLen := extensionChallengeHeaderSize + count * 16
  rejectIf (data.length ≠ wantLen)
    s!"mpc: OT extension challenge length {data.length}, want {wantLen}"
  let challenge : ExtensionChallenge :=
    { sessionID := array 32 (slice data 4 36)
      commitment := array 32 (slice data 36 68)
      transcript := array 32 (slice data 68 100)
      chi := labelsFromBytes (data.drop 104) count }
  rejectIf (challenge.transcript ≠ extensionChallengeTranscript p challenge)
    "mpc: OT extension challenge hash mismatch"
  return challenge

def marshalExtensionProof (proof : ExtensionProof) : Except String (List Byte) :=
  .ok [ascii "KPR2", proof.sessionID.toList, proof.transcript.toList, proof.x.put,
    proof.t.flatMap Label.put].flatten

def unmarshalExtensionProof (data : List Byte) : Except String ExtensionProof := do
  rejectIf (data.length ≠ extensionProofSize ∨ slice data 0 4 ≠ ascii "KPR2")
    "mpc: invalid OT extension proof"
  return { sessionID := array 32 (slice data 4 36)
           transcript := array 32 (slice data 36 68)
           x := Label.fromBytes (slice data 68 84)
           t := labelsFromBytes (data.drop 84) baseOTCount }

def marshalPrecomputeCommitment (cipherMessage : List Byte) (commitment : ExtensionCommitment) :
    Except String (List Byte) := do
  validateBaseCipherForTranscript cipherMessage commitment.sessionID
  let extension ← marshalExtensionCommitment commitment
  return [ascii "KOF2", bigEndian 4 cipherMessage.length, cipherMessage, extension].flatten

def unmarshalPrecomputeCommitment (data : List Byte) :
    Except String (List Byte × ExtensionCommitment) := do
  rejectIf (data.length < 8 ∨ slice data 0 4 ≠ ascii "KOF2")
    "mpc: invalid OT precompute commitment message"
  let cipherLen := ofBigEndian (slice data 4 8)
  rejectIf (cipherLen ≠ baseCipherMessageSize ∨ data.length < 8 + cipherLen)
    "mpc: invalid base OT ciphertext framing"
  let commitment ← unmarshalExtensionCommitment (data.drop (8 + cipherLen))
  let cipher := slice data 8 (8 + cipherLen)
  validateBaseCipherForTranscript cipher commitment.sessionID
  return (cipher, commitment)

/-! ### Sizes, and decoders for an expected batch -/

def precomputeCommitmentWireSize (count : Int) : Except String Nat := do
  let padded ← extensionPaddedCount count
  return 8 + baseCipherMessageSize + extensionCommitmentHeaderSize + baseOTCount * padded / 8

def precomputeChallengeWireSize (count : Int) : Except String Nat := do
  let padded ← extensionPaddedCount count
  return extensionChallengeHeaderSize + extensionChallengeCount padded * 16

def precomputeProofWireSize : Nat := extensionProofSize

def commitmentOffset : Nat := 8 + baseCipherMessageSize

def unmarshalPrecomputeCommitmentFor (data : List Byte) (expected : PrecomputeBegin) :
    Except String (List Byte × ExtensionCommitment) := do
  validatePrecomputeCount expected.count
  let _ ← checkedIndexEnd expected.startIndex expected.count
  let wantLen ← precomputeCommitmentWireSize expected.count
  rejectIf (data.length ≠ wantLen)
    s!"mpc: OT precompute commitment length {data.length}, want {wantLen}"
  rejectIf (slice data 0 4 ≠ ascii "KOF2" ∨
      ofBigEndian (slice data 4 8) ≠ baseCipherMessageSize ∨
      slice data commitmentOffset (commitmentOffset + 4) ≠ ascii "KOC2")
    "mpc: invalid OT precompute commitment framing"
  rejectIf (slice data (commitmentOffset + 4) (commitmentOffset + 36) ≠ expected.sessionID.toList ∨
      ofBigEndian (slice data (commitmentOffset + 36) (commitmentOffset + 44)) ≠
        expected.startIndex ∨
      ofBigEndian (slice data (commitmentOffset + 44) (commitmentOffset + 48)) ≠ expected.count)
    "mpc: OT extension commitment metadata mismatch"
  let (cipher, commitment) ← unmarshalPrecomputeCommitment data
  rejectIf (commitment.sessionID ≠ expected.sessionID ∨
      commitment.startIndex ≠ expected.startIndex ∨ commitment.count ≠ expected.count)
    "mpc: OT extension commitment metadata mismatch"
  return (cipher, commitment)

def unmarshalExtensionChallengeFor (data : List Byte) (session : SessionID) (otCount : Int) :
    Except String ExtensionChallenge := do
  validatePrecomputeCount otCount
  let wantLen ← precomputeChallengeWireSize otCount
  rejectIf (data.length ≠ wantLen)
    s!"mpc: OT extension challenge length {data.length}, want {wantLen}"
  rejectIf (slice data 0 4 ≠ ascii "KCH2" ∨ slice data 4 36 ≠ session.toList)
    "mpc: OT extension challenge metadata mismatch"
  let padded ← extensionPaddedCount otCount
  rejectIf (ofBigEndian (slice data 100 104) ≠ extensionChallengeCount padded % 2 ^ 32)
    "mpc: OT extension challenge coefficient count mismatch"
  let challenge ← unmarshalExtensionChallenge p data
  rejectIf (challenge.sessionID ≠ session) "mpc: OT extension challenge metadata mismatch"
  return challenge

def unmarshalExtensionProofFor (data : List Byte) (session : SessionID) :
    Except String ExtensionProof := do
  rejectIf (data.length ≠ extensionProofSize ∨ slice data 0 4 ≠ ascii "KPR2" ∨
      slice data 4 36 ≠ session.toList)
    "mpc: invalid OT extension proof metadata"
  unmarshalExtensionProof data

end Extension

/-! ### The online round -/

section Online

variable (engine : Except String Engine)

def marshalOnlinePayload (payload : OnlinePayload) : Except String (List Byte) := do
  let e ← engine
  rejectIf (payload.tables.length ≠ e.tableCount)
    s!"mpc: table count {payload.tables.length}, want {e.tableCount}"
  rejectIf (payload.garblerInputs.length ≠ inputBits)
    s!"mpc: garbler input count {payload.garblerInputs.length}, want {inputBits}"
  return [ascii "MPC1", bigEndian 8 payload.sessionID.toNat, payload.key,
    bigEndian 8 payload.otStartIndex, bigEndian 4 payload.tables.length,
    payload.tables.flatMap Label.put, payload.garblerInputs.flatMap Label.put,
    payload.outputTranslations].flatten

def onlinePayloadSize : Except String Nat := do
  let e ← engine
  return payloadHeaderSize + e.tableCount * 16 + inputBits * 16 + outputBits / 8

def unmarshalOnlinePayload (data : List Byte) : Except String OnlinePayload := do
  let e ← engine
  rejectIf (data.length < payloadHeaderSize) "mpc: online payload is too short"
  rejectIf (slice data 0 4 ≠ ascii "MPC1") "mpc: unsupported online payload version"
  let tableCount := ofBigEndian (slice data 36 40)
  rejectIf (tableCount ≠ e.tableCount) s!"mpc: table count {tableCount}, want {e.tableCount}"
  let expected := payloadHeaderSize + tableCount * 16 + inputBits * 16 + outputBits / 8
  rejectIf (data.length ≠ expected)
    s!"mpc: online payload length {data.length}, want {expected}"
  let inputs := payloadHeaderSize + tableCount * 16
  let translations := inputs + inputBits * 16
  return { sessionID := BitVec.ofNat 64 (ofBigEndian (slice data 4 12))
           key := slice data 12 28
           tables := labelsFromBytes (slice data payloadHeaderSize inputs) tableCount
           garblerInputs := labelsFromBytes (slice data inputs translations) inputBits
           outputTranslations := data.drop translations
           otStartIndex := ofBigEndian (slice data 28 36) }

def marshalChoiceCorrections (corrections : List Bool) : Except String (List Byte) := do
  rejectIf (corrections.length ≠ inputBits)
    s!"mpc: need {inputBits} choice corrections, got {corrections.length}"
  return bitsToBytes corrections (inputBits / 8)

def unmarshalChoiceCorrections (data : List Byte) : Except String (List Bool) := do
  rejectIf (data.length ≠ inputBits / 8)
    s!"mpc: choice correction length {data.length}, want {inputBits / 8}"
  return bytesToBits data

def OTMask.put (mask : OTMask) : List Byte :=
  mask.m0.put ++ mask.m1.put

def otMaskFromBytes (bytes : List Byte) : OTMask where
  m0 := Label.fromBytes (slice bytes 0 16)
  m1 := Label.fromBytes (slice bytes 16 32)

def marshalOTMasks (masks : List OTMask) : Except String (List Byte) := do
  rejectIf (masks.length ≠ inputBits)
    s!"mpc: need {inputBits} OT masks, got {masks.length}"
  return [bigEndian 4 masks.length, masks.flatMap OTMask.put].flatten

def unmarshalOTMasks (data : List Byte) : Except String (List OTMask) := do
  rejectIf (data.length < 4) "mpc: OT mask encoding is too short"
  let count := ofBigEndian (slice data 0 4)
  rejectIf (count ≠ inputBits ∨ data.length ≠ 4 + count * 32)
    s!"mpc: invalid OT mask encoding length {data.length} for count {count}"
  return (blocks 32 count (data.drop 4)).map otMaskFromBytes

def marshalOutputLabels (labels : List Label) : Except String (List Byte) := do
  rejectIf (labels.length ≠ outputBits)
    s!"mpc: need {outputBits} output labels, got {labels.length}"
  return [bigEndian 4 labels.length, labels.flatMap Label.put].flatten

def unmarshalOutputLabels (data : List Byte) : Except String (List Label) := do
  rejectIf (data.length < 4) "mpc: output label encoding is too short"
  let count := ofBigEndian (slice data 0 4)
  rejectIf (count ≠ outputBits ∨ data.length ≠ 4 + count * 16)
    s!"mpc: invalid output label encoding length {data.length} for count {count}"
  return labelsFromBytes (data.drop 4) count

end Online

end ReclaimTee.Mpc
