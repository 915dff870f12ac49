/-
The KOS OT extension with the repetition-code consistency check, from the
commitment of the receiver to the entries of both parties. SHA-256, AES and the
UTF-8 check are parameters; a processor flag says which field multiplication a
party runs.
-/

import ReclaimTee.BigEndian
import ReclaimTee.Mpc.Gf128
import ReclaimTee.Mpc.Index
import ReclaimTee.Mpc.Random

namespace ReclaimTee.Mpc

def kosCheckOTs : Nat := 128

def maxExtensionOTs : Nat := 2 ^ 24

def baseCipherMessageSize : Nat := 4 + 32 + baseOTCount * 32

def maxEpochLength : Nat := 256

/-- The library functions both parties call. -/
structure Primitives where
  sha256 : List Byte → Vector Byte 32
  aes : List Byte → Label → Label
  validUtf8 : List Byte → Bool

abbrev SessionID := Vector Byte 32

def extensionEpochPrefix : List Byte := ascii "kos2:"

structure BaseOTSeedPair where
  zero : Label
  one : Label

structure ExtensionCommitment where
  sessionID : SessionID
  startIndex : Nat
  count : Nat
  paddedCount : Nat
  epochHash : Vector Byte 32
  transcript : Vector Byte 32
  u : List Byte
deriving DecidableEq

structure ExtensionChallenge where
  sessionID : SessionID
  commitment : Vector Byte 32
  transcript : Vector Byte 32
  chi : List Label
deriving DecidableEq

structure ExtensionProof where
  sessionID : SessionID
  transcript : Vector Byte 32
  x : Label
  t : List Label
deriving DecidableEq

structure ExtensionReceiverState where
  commitment : ExtensionCommitment
  choices : List Byte
  tMatrix : List Byte
  used : Bool
deriving DecidableEq

structure ExtensionSenderState where
  commitment : ExtensionCommitment
  challengeTranscript : Vector Byte 32
  delta : Label
  qChecks : List Label
  rows : List Label
  used : Bool
deriving DecidableEq

def ExtensionCommitment.cleared : ExtensionCommitment :=
  { sessionID := Vector.replicate 32 0
    startIndex := 0
    count := 0
    paddedCount := 0
    epochHash := Vector.replicate 32 0
    transcript := Vector.replicate 32 0
    u := [] }

/-- The commitment that the single-use states keep, without the matrix. -/
def extensionStateCommitment (commitment : ExtensionCommitment) : ExtensionCommitment :=
  { commitment with u := [] }

def clearExtensionReceiverState (_state : ExtensionReceiverState) : ExtensionReceiverState :=
  { commitment := ExtensionCommitment.cleared, choices := [], tMatrix := [], used := true }

def clearExtensionSenderState (state : ExtensionSenderState) : ExtensionSenderState :=
  { commitment := ExtensionCommitment.cleared
    challengeTranscript := Vector.replicate 32 0
    delta := Label.zero
    qChecks := state.qChecks.map fun _ => Label.zero
    rows := []
    used := true }

def extensionPaddedCount (count : Int) : Except String Nat := do
  rejectIf (count ≤ 0 ∨ (maxExtensionOTs : Int) < count)
    s!"mpc: invalid OT extension count {count}"
  let total := count.toNat + kosCheckOTs
  return Nat.ldiff (total + baseOTCount - 1) (baseOTCount - 1)

def extensionChallengeCount (padded : Nat) : Nat :=
  (padded - kosCheckOTs) / 128

def column (matrix : List Byte) (byteRows col : Nat) : List Byte :=
  (matrix.drop (col * byteRows)).take byteRows

def xorBytes (left right : List Byte) : List Byte :=
  List.zipWith (· ^^^ ·) left right

def labelAt (bytes : List Byte) (offset : Nat) : Label :=
  Label.fromBytes ((bytes.drop offset).take 16)

section Extension

variable (p : Primitives)

def validateExtensionEpoch (epoch : List Byte) : Except String Unit := do
  rejectIf (epoch.length ≤ extensionEpochPrefix.length ∨ maxEpochLength < epoch.length ∨
      p.validUtf8 epoch = false)
    "mpc: invalid OT extension epoch"
  rejectIf (epoch.take extensionEpochPrefix.length ≠ extensionEpochPrefix)
    "mpc: unsupported OT extension epoch version"

def validateBaseCipherForTranscript (cipherMessage : List Byte) (sessionID : SessionID) :
    Except String Unit := do
  rejectIf (cipherMessage.length ≠ baseCipherMessageSize ∨ cipherMessage.take 4 ≠ ascii "BOT1")
    "mpc: invalid base OT ciphertext message"
  rejectIf ((cipherMessage.drop 4).take 32 ≠ sessionID.toList)
    "mpc: base OT ciphertext session mismatch"

def extensionTranscript (cipherMessage : List Byte) (commitment : ExtensionCommitment) :
    Vector Byte 32 :=
  p.sha256 (ascii "reclaim-tee/mpc/kos/repetition/v2/transcript" ++ ascii "KOC2" ++
    commitment.sessionID.toList ++ bigEndian 8 commitment.startIndex ++
    bigEndian 4 commitment.count ++ bigEndian 4 commitment.paddedCount ++
    commitment.epochHash.toList ++ cipherMessage ++ commitment.u)

def extensionEpochHash (epoch : List Byte) : Vector Byte 32 :=
  p.sha256 (ascii "reclaim-tee/mpc/kos/repetition/v2/epoch" ++
    bigEndian 4 epoch.length ++ epoch)

def extensionChallengeTranscript (challenge : ExtensionChallenge) : Vector Byte 32 :=
  p.sha256 (ascii "reclaim-tee/mpc/kos/repetition/v2/challenge" ++
    challenge.sessionID.toList ++ challenge.commitment.toList ++
    bigEndian 4 challenge.chi.length ++ challenge.chi.flatMap Label.put)

/-- The counter-mode stream of the key derived from one base seed. -/
def expandSeed (seed : Label) (sessionID : SessionID) (col size : Nat) : List Byte :=
  let tag := ascii "reclaim-tee/mpc/iknp/prg/v1"
  let material := tag ++ List.replicate (32 - tag.length) 0 ++ sessionID.toList ++
    [BitVec.ofNat 8 col] ++ seed.put
  let key := (p.sha256 material).toList.take 16
  ((List.range ((size + 15) / 16)).flatMap fun value =>
    (p.aes key ⟨0, BitVec.ofNat 64 value⟩).put).take size

def tmmoKey : List Byte :=
  (p.sha256 (ascii "reclaim-tee/mpc/kos/tmmo/v1")).toList.take 16

def tmmoHash (value : Label) (tweak : Nat) : Label :=
  let encrypted := p.aes (tmmoKey p) value
  let input := Label.mk encrypted.d0 (encrypted.d1 ^^^ BitVec.ofNat 64 tweak)
  (p.aes (tmmoKey p) input).xor encrypted

/-! ### The receiver's commitment -/

def receiverColumn (base : Fin baseOTCount → BaseOTSeedPair) (sessionID : SessionID)
    (byteRows : Nat) (col : Fin baseOTCount) : List Byte :=
  expandSeed p (base col).zero sessionID col byteRows

def maskColumn (base : Fin baseOTCount → BaseOTSeedPair) (sessionID : SessionID)
    (choices : List Byte) (byteRows : Nat) (col : Fin baseOTCount) : List Byte :=
  xorBytes (xorBytes (receiverColumn p base sessionID byteRows col)
    (expandSeed p (base col).one sessionID col byteRows)) choices

def receiverMatrix (base : Fin baseOTCount → BaseOTSeedPair) (sessionID : SessionID)
    (byteRows : Nat) : List Byte :=
  (List.ofFn (receiverColumn p base sessionID byteRows)).flatten

def maskMatrix (base : Fin baseOTCount → BaseOTSeedPair) (sessionID : SessionID)
    (choices : List Byte) (byteRows : Nat) : List Byte :=
  (List.ofFn (maskColumn p base sessionID choices byteRows)).flatten

/-- The commitment with its transcript hash, which covers the other fields. -/
def newExtensionCommitment (epoch cipherMessage : List Byte) (sessionID : SessionID)
    (startIndex : Nat) (count : Int) (padded : Nat) (u : List Byte) : ExtensionCommitment :=
  let unsigned : ExtensionCommitment :=
    { sessionID := sessionID
      startIndex := startIndex
      count := count.toNat % 2 ^ 32
      paddedCount := padded % 2 ^ 32
      epochHash := extensionEpochHash p epoch
      transcript := Vector.replicate 32 0
      u := u }
  { unsigned with transcript := extensionTranscript p cipherMessage unsigned }

def hashReceiverOTs (raw : List Label) (choices : List Byte) (startIndex : Nat) (count : Int) :
    Except String (List ReceiverOT) := do
  let _ ← checkedIndexEnd startIndex count
  return (List.range count.toNat).map fun i =>
    { r := tmmoHash p (raw.getD i Label.zero) i
      choice := packedBit choices i
      index := startIndex + i }

def startExtensionReceiver (rng : RandomSource) (base : Fin baseOTCount → BaseOTSeedPair)
    (epoch cipherMessage : List Byte) (sessionID : SessionID) (startIndex : Nat) (count : Int) :
    Except String (ExtensionReceiverState × ExtensionCommitment × List ReceiverOT) := do
  validateExtensionEpoch p epoch
  validateBaseCipherForTranscript cipherMessage sessionID
  let padded ← extensionPaddedCount count
  let _ ← checkedIndexEnd startIndex count
  let byteRows := padded / 8
  let choices ← (readFull rng 0 byteRows).mapError ("mpc: read OT choices: " ++ ·)
  let tMatrix := receiverMatrix p base sessionID byteRows
  let commitment := newExtensionCommitment p epoch cipherMessage sessionID startIndex count padded
    (maskMatrix p base sessionID choices byteRows)
  let receiver ← hashReceiverOTs p (transposeColumns tMatrix byteRows padded) choices startIndex
    count
  return (
    { commitment := extensionStateCommitment commitment
      choices := choices
      tMatrix := tMatrix
      used := false },
    commitment, receiver)

/-! ### The sender's challenge -/

def validateExtensionCommitment (epoch cipherMessage : List Byte)
    (commitment : ExtensionCommitment) : Except String Unit := do
  validateExtensionEpoch p epoch
  validateBaseCipherForTranscript cipherMessage commitment.sessionID
  let padded ← extensionPaddedCount commitment.count
  rejectIf (commitment.paddedCount ≠ padded)
    s!"mpc: padded OT count {commitment.paddedCount}, want {padded}"
  let _ ← checkedIndexEnd commitment.startIndex commitment.count
  let wantU := baseOTCount * padded / 8
  rejectIf (commitment.u.length ≠ wantU)
    s!"mpc: OT extension matrix length {commitment.u.length}, want {wantU}"
  rejectIf (commitment.epochHash ≠ extensionEpochHash p epoch)
    "mpc: OT extension epoch mismatch"
  rejectIf (commitment.transcript ≠ extensionTranscript p cipherMessage commitment)
    "mpc: OT extension commitment transcript mismatch"

def senderColumn (selected : Fin baseOTCount → Label) (delta : Label) (sessionID : SessionID)
    (u : List Byte) (byteRows : Nat) (col : Fin baseOTCount) : List Byte :=
  let qcol := expandSeed p (selected col) sessionID col byteRows
  if deltaBit delta col then xorBytes qcol (column u byteRows col) else qcol

def senderMatrix (selected : Fin baseOTCount → Label) (delta : Label) (sessionID : SessionID)
    (u : List Byte) (byteRows : Nat) : List Byte :=
  (List.ofFn (senderColumn p selected delta sessionID u byteRows)).flatten

def columnCheck (hasPCLMULQDQ : Bool) (bytes : List Byte) (mainBytes : Nat) (chi : List Label) :
    Label :=
  chi.zipIdx.foldl
    (fun check entry => check.xor (gf128Mul hasPCLMULQDQ (labelAt bytes (entry.2 * 16)) entry.1))
    (labelAt bytes mainBytes)

def repetitionColumnChecks (hasPCLMULQDQ : Bool) (matrix : List Byte) (padded : Nat)
    (chi : List Label) : List Label :=
  (List.range baseOTCount).map fun col =>
    columnCheck hasPCLMULQDQ (column matrix (padded / 8) col) ((padded - kosCheckOTs) / 8) chi

def challengeLabels (random : List Byte) (chiCount : Nat) : List Label :=
  (List.range chiCount).map fun i => labelAt random (i * 16)

def newExtensionChallenge (commitment : ExtensionCommitment) (chi : List Label) :
    ExtensionChallenge :=
  let unsigned : ExtensionChallenge :=
    { sessionID := commitment.sessionID
      commitment := commitment.transcript
      transcript := Vector.replicate 32 0
      chi := chi }
  { unsigned with transcript := extensionChallengeTranscript p unsigned }

def startExtensionSender (hasPCLMULQDQ : Bool) (rng : RandomSource)
    (selected : Fin baseOTCount → Label) (delta : Label) (epoch cipherMessage : List Byte)
    (commitment : ExtensionCommitment) :
    Except String (ExtensionSenderState × ExtensionChallenge) := do
  rejectIf (delta = Label.zero) "mpc: zero OT correlation delta"
  validateExtensionCommitment p epoch cipherMessage commitment
  let byteRows := commitment.paddedCount / 8
  let qMatrix := senderMatrix p selected delta commitment.sessionID commitment.u byteRows
  let chiCount := extensionChallengeCount commitment.paddedCount
  let random ← (readFull rng 0 (chiCount * 16)).mapError
    ("mpc: read OT extension challenge: " ++ ·)
  let chi := challengeLabels random chiCount
  let challenge := newExtensionChallenge p commitment chi
  return (
    { commitment := extensionStateCommitment commitment
      challengeTranscript := challenge.transcript
      delta := delta
      qChecks := repetitionColumnChecks hasPCLMULQDQ qMatrix commitment.paddedCount chi
      rows := transposeColumns qMatrix byteRows commitment.paddedCount
      used := false },
    challenge)

/-! ### Proof and acceptance -/

def validateExtensionChallenge (commitment : ExtensionCommitment)
    (challenge : ExtensionChallenge) : Except String Unit := do
  rejectIf (challenge.sessionID ≠ commitment.sessionID ∨
      challenge.commitment ≠ commitment.transcript)
    "mpc: OT extension challenge transcript mismatch"
  let want := extensionChallengeCount commitment.paddedCount
  rejectIf (challenge.chi.length ≠ want)
    s!"mpc: OT extension challenge length {challenge.chi.length}, want {want}"
  rejectIf (challenge.transcript ≠ extensionChallengeTranscript p challenge)
    "mpc: OT extension challenge hash mismatch"

def repetitionReceiverProof (hasPCLMULQDQ : Bool) (choices matrix : List Byte) (padded : Nat)
    (chi : List Label) : Label × List Label :=
  (columnCheck hasPCLMULQDQ choices ((padded - kosCheckOTs) / 8) chi,
    repetitionColumnChecks hasPCLMULQDQ matrix padded chi)

def finishExtensionReceiver (hasPCLMULQDQ : Bool) (state : ExtensionReceiverState)
    (challenge : ExtensionChallenge) :
    ExtensionReceiverState × Except String ExtensionProof :=
  if state.used then
    (state, .error "mpc: OT extension receiver state already used")
  else
    (clearExtensionReceiverState state, do
      validateExtensionChallenge p state.commitment challenge
      let (x, t) := repetitionReceiverProof hasPCLMULQDQ state.choices state.tMatrix
        state.commitment.paddedCount challenge.chi
      return {
        sessionID := state.commitment.sessionID
        transcript := challenge.transcript
        x := x
        t := t })

def wantedCheck (delta x : Label) (t : List Label) (col : Nat) : Label :=
  let want := t.getD col Label.zero
  if deltaBit delta col then want.xor x else want

def hashSenderOTs (state : ExtensionSenderState) : Except String (List SenderOT) := do
  let _ ← checkedIndexEnd state.commitment.startIndex state.commitment.count
  return (List.range state.commitment.count).map fun i =>
    let q0 := state.rows.getD i Label.zero
    { r0 := tmmoHash p q0 i
      r1 := tmmoHash p (q0.xor state.delta) i
      index := state.commitment.startIndex + i }

def finishExtensionSender (state : ExtensionSenderState) (proof : ExtensionProof) :
    ExtensionSenderState × Except String (List SenderOT) :=
  if state.used then
    (state, .error "mpc: OT extension sender state already used")
  else
    (clearExtensionSenderState state, do
      rejectIf (proof.sessionID ≠ state.commitment.sessionID ∨
          proof.transcript ≠ state.challengeTranscript)
        "mpc: OT extension proof transcript mismatch"
      rejectIf (state.rows.length ≠ state.commitment.paddedCount)
        "mpc: OT extension sender proof state is incomplete"
      rejectIf (∃ col ∈ List.range baseOTCount,
          (state.qChecks.getD col Label.zero).put ≠
            (wantedCheck state.delta proof.x proof.t col).put)
        "mpc: KOS receiver consistency check failed"
      hashSenderOTs p state)

/-- The four steps in the order the two parties run them. -/
def extensionRun (senderFlag receiverFlag : Bool) (senderRng receiverRng : RandomSource)
    (base : Fin baseOTCount → BaseOTSeedPair) (selected : Fin baseOTCount → Label)
    (delta : Label) (epoch cipherMessage : List Byte) (sessionID : SessionID)
    (startIndex : Nat) (count : Int) : Except String (List SenderOT × List ReceiverOT) := do
  let (receiverState, commitment, received) ←
    startExtensionReceiver p receiverRng base epoch cipherMessage sessionID startIndex count
  let (senderState, challenge) ←
    startExtensionSender p senderFlag senderRng selected delta epoch cipherMessage commitment
  let proof ← (finishExtensionReceiver p receiverFlag receiverState challenge).2
  let sent ← (finishExtensionSender p senderState proof).2
  return (sent, received)

end Extension

end ReclaimTee.Mpc
