/-
The ServerKeyExchange message of TLS 1.2. The server's signature is checked over
the parameters as they are written again from the parsed fields. A read that
leaves the message is a fault of its own.
-/

import ReclaimTee.Codec
import ReclaimTee.Checked
import ReclaimTee.Mpc.Bits

namespace ReclaimTee.Tls

open ReclaimTee.Mpc List

/-! ### Reads -/

inductive Fault where
  | outOfRange
  | rejected (message : String)
deriving DecidableEq, Repr

def byteOf (data : List Byte) (index : Nat) : Except Fault Byte :=
  match data[index]? with
  | none => .error .outOfRange
  | some byte => .ok byte

def sliceOf (data : List Byte) (start stop : Nat) : Except Fault (List Byte) :=
  if start ≤ stop ∧ stop ≤ data.length then .ok (slice data start stop)
  else .error .outOfRange

def uint16Of (data : List Byte) (start : Nat) : Except Fault Nat := do
  return ofBigEndian (← sliceOf data start (start + 2))

theorem byteOf_eq_ok_iff {data : List Byte} {index : Nat} {byte : Byte} :
    byteOf data index = .ok byte ↔ slice data index (index + 1) = [byte] := by
  rw [byteOf, slice, Nat.add_sub_cancel_left, take_one, head?_drop]
  cases data[index]? <;> simp

theorem sliceOf_eq_ok_iff {data found : List Byte} {start stop : Nat} :
    sliceOf data start stop = .ok found ↔
      (start ≤ stop ∧ stop ≤ data.length) ∧ slice data start stop = found := by
  rw [sliceOf]
  split
  · next inside => simp [inside]
  · next outside => simp [outside]

/-- No read of the computation leaves its data. -/
def Safe {α : Type} (result : Except Fault α) : Prop :=
  result ≠ .error .outOfRange

theorem Safe.bind {α β : Type} {first : Except Fault α} {next : α → Except Fault β}
    (safe : Safe first) (rest : ∀ value, first = .ok value → Safe (next value)) :
    Safe (first >>= next) := by
  cases first with
  | error fault =>
    intro left
    cases left
    exact safe rfl
  | ok value => exact rest value rfl

theorem safe_rejectIf {bad : Prop} [Decidable bad] {message : String} :
    Safe (rejectIf bad (Fault.rejected message)) := by
  unfold rejectIf
  split
  · nofun
  · nofun

theorem safe_byteOf {data : List Byte} {index : Nat} (inside : index < data.length) :
    Safe (byteOf data index) := by
  rw [byteOf, getElem?_eq_getElem inside]
  nofun

theorem safe_sliceOf {data : List Byte} {start stop : Nat}
    (inside : start ≤ stop ∧ stop ≤ data.length) : Safe (sliceOf data start stop) := by
  rw [sliceOf, if_pos inside]
  nofun

/-! ### The message -/

structure ServerKeyExchangeMsg where
  curveType : Byte
  namedCurve : Nat
  publicKey : List Byte
  signAlg : Nat
  signature : List Byte
deriving DecidableEq, Repr

def typeServerKeyExchange : Byte := 12

def ecCurveTypeNamedCurve : Byte := 3

def parseServerKeyExchange (data : List Byte) : Except Fault ServerKeyExchangeMsg := do
  rejectIf (data.length < 4) (.rejected s!"ServerKeyExchange message too short: {data.length} bytes")
  let type ← byteOf data 0
  rejectIf (type ≠ typeServerKeyExchange)
    (.rejected s!"invalid message type: expected {typeServerKeyExchange.toNat}, got {type.toNat}")
  let msgLen := ofBigEndian (← sliceOf data 1 4)
  rejectIf (data.length < 4 + msgLen) (.rejected "ServerKeyExchange message length mismatch")
  let payload ← sliceOf data 4 (4 + msgLen)
  rejectIf (payload.length < 4) (.rejected "ServerKeyExchange payload too short")
  let curveType ← byteOf payload 0
  rejectIf (curveType ≠ ecCurveTypeNamedCurve)
    (.rejected s!"ServerKeyExchange: unsupported curve_type {curveType.toNat}")
  let namedCurve ← uint16Of payload 1
  let pubKeyLen := (← byteOf payload 3).toNat
  let keyEnd := 4 + pubKeyLen
  rejectIf (payload.length < keyEnd)
    (.rejected s!"ServerKeyExchange: public key length {pubKeyLen} exceeds remaining payload {payload.length - 4}")
  let publicKey ← sliceOf payload 4 keyEnd
  rejectIf (payload.length < keyEnd + 4)
    (.rejected s!"ServerKeyExchange: insufficient bytes for signature header, need 4, have {payload.length - keyEnd}")
  let signAlg ← uint16Of payload keyEnd
  let sigLen ← uint16Of payload (keyEnd + 2)
  rejectIf (payload.length < keyEnd + 4 + sigLen)
    (.rejected s!"ServerKeyExchange: signature length {sigLen} exceeds remaining payload {payload.length - (keyEnd + 4)}")
  let signature ← sliceOf payload (keyEnd + 4) (keyEnd + 4 + sigLen)
  return {
    curveType := curveType
    namedCurve := namedCurve
    publicKey := publicKey
    signAlg := signAlg
    signature := signature }

def ServerKeyExchangeMsg.getServerParams (msg : ServerKeyExchangeMsg) : List Byte :=
  [msg.curveType] ++ bigEndian 2 msg.namedCurve ++ [BitVec.ofNat 8 msg.publicKey.length] ++
    msg.publicKey

theorem safe_uint16Of {data : List Byte} {start : Nat} (inside : start + 2 ≤ data.length) :
    Safe (uint16Of data start) :=
  (safe_sliceOf ⟨Nat.le_add_right _ _, inside⟩).bind fun _ _ => nofun

theorem safe_parseServerKeyExchange (data : List Byte) : Safe (parseServerKeyExchange data) := by
  refine safe_rejectIf.bind fun _ long => (safe_byteOf ?_).bind fun _ _ =>
    safe_rejectIf.bind fun _ _ => (safe_sliceOf ?_).bind fun _ _ =>
    safe_rejectIf.bind fun _ fits => (safe_sliceOf ?_).bind fun payload _ =>
    safe_rejectIf.bind fun _ header => (safe_byteOf ?_).bind fun _ _ =>
    safe_rejectIf.bind fun _ _ => (safe_uint16Of ?_).bind fun _ _ =>
    (safe_byteOf ?_).bind fun _ _ => safe_rejectIf.bind fun _ key =>
    (safe_sliceOf ?_).bind fun _ _ => safe_rejectIf.bind fun _ algorithm =>
    (safe_uint16Of ?_).bind fun _ _ => (safe_uint16Of ?_).bind fun _ _ =>
    safe_rejectIf.bind fun _ signed => (safe_sliceOf ?_).bind fun _ _ => nofun
  all_goals
    rw [rejectIf_eq_ok_iff] at *
    omega

/-- The lengths of the key and of the signature account for the length of the body. -/
def LengthsAddUp (data : List Byte) : Prop :=
  let keyEnd := 8 + ofBigEndian (slice data 7 8)
  keyEnd + ofBigEndian (slice data (keyEnd + 2) (keyEnd + 4)) = ofBigEndian (slice data 1 4)

theorem uint16Of_eq_ok_iff {data : List Byte} {start value : Nat} :
    uint16Of data start = .ok value ↔
      start + 2 ≤ data.length ∧ slice data start (start + 2) = bigEndian 2 value ∧
        value < 256 ^ 2 := by
  simp only [uint16Of, eq_ok_iff, sliceOf_eq_ok_iff]
  constructor
  · rintro ⟨found, ⟨⟨_, inside⟩, rfl⟩, rfl⟩
    have length : (slice data start (start + 2)).length = 2 := by
      rw [slice_length]
      omega
    have bound := ofBigEndian_lt (slice data start (start + 2))
    have written := bigEndian_ofBigEndian (slice data start (start + 2))
    rw [length] at bound written
    exact ⟨inside, written.symm, bound⟩
  · rintro ⟨inside, same, bound⟩
    exact ⟨_, ⟨⟨Nat.le_add_right _ _, inside⟩, same⟩, ofBigEndian_bigEndian bound⟩

/-- No read leaves the message. A parsed message is written again as the front of the
body, and as the whole body exactly when the lengths add up. -/
theorem parseServerKeyExchange_exact (data : List Byte) :
    parseServerKeyExchange data ≠ .error .outOfRange ∧
      ∀ msg, parseServerKeyExchange data = .ok msg →
        let bodyLength := ofBigEndian (slice data 1 4)
        let body := slice data 4 (4 + bodyLength)
        let written := msg.getServerParams ++ bigEndian 2 msg.signAlg ++
          bigEndian 2 msg.signature.length ++ msg.signature
        4 + bodyLength ≤ data.length ∧ written <+: body ∧ (written = body ↔ LengthsAddUp data) := by
  refine ⟨safe_parseServerKeyExchange data, fun msg parsed => ?_⟩
  simp only [parseServerKeyExchange, eq_ok_iff, byteOf_eq_ok_iff, sliceOf_eq_ok_iff,
    uint16Of_eq_ok_iff, exists_const, Nat.not_lt] at parsed
  obtain ⟨_, _, _, _, _, ⟨_, rfl⟩, fits, payload, ⟨_, bodyEq⟩, _, curveType, curve, _, namedCurve,
    ⟨_, named, _⟩, keyLength, keyField, _, publicKey, ⟨_, key⟩, _, signAlg, ⟨_, algorithm, _⟩,
    sigLen, ⟨_, sigField, sigBound⟩, signed, signature, ⟨_, signatureEq⟩, rfl⟩ := parsed
  intro bodyLength body written
  have keySize : publicKey.length = keyLength.toNat := by
    rw [← key, slice_length]
    omega
  have signatureSize : signature.length = sigLen := by
    rw [← signatureEq, slice_length]
    omega
  have front : written = slice payload 0 (4 + keyLength.toNat + 4 + sigLen) := by
    simp only [written, ServerKeyExchangeMsg.getServerParams, keySize, signatureSize,
      BitVec.ofNat_toNat, BitVec.setWidth_eq]
    rw [← curve, ← named, ← keyField, ← key, ← algorithm, ← sigField, ← signatureEq]
    iterate 6 rw [slice_append_slice _ (by omega) (by omega)]
  have bodySize : payload.length = bodyLength := by
    rw [← bodyEq, slice_length]
    omega
  refine ⟨fits, ?_, ?_⟩
  · rw [front, ← bodyEq]
    exact take_prefix _ _
  · have keyAt : ofBigEndian (slice data 7 8) = keyLength.toNat := by
      have inBody := slice_slice data (show 4 + 4 ≤ 4 + bodyLength by omega) 3
      rw [bodyEq, keyField] at inBody
      rw [← inBody]
      exact Nat.zero_add _
    have sigAt := slice_slice data
      (show 4 + (4 + keyLength.toNat + 2 + 2) ≤ 4 + bodyLength by omega) (4 + keyLength.toNat + 2)
    rw [bodyEq, sigField] at sigAt
    have sized : ofBigEndian (slice data (8 + keyLength.toNat + 2) (8 + keyLength.toNat + 4)) =
        sigLen := by
      rw [← ofBigEndian_bigEndian sigBound, sigAt]
      congr 2 <;> omega
    simp only [LengthsAddUp, keyAt]
    rw [front]
    change payload.take _ = slice data 4 (4 + bodyLength) ↔ _
    rw [bodyEq, take_eq_self_iff]
    omega

/-- One byte behind an empty signature, inside the declared body. -/
theorem byte_behind_signature_accepted :
    let data : List Byte := [12, 0, 0, 9, 3, 0, 29, 0, 4, 3, 0, 0, 255]
    ∃ msg, parseServerKeyExchange data = .ok msg ∧
      msg.getServerParams ++ bigEndian 2 msg.signAlg ++ bigEndian 2 msg.signature.length ++
        msg.signature ≠ slice data 4 (4 + ofBigEndian (slice data 1 4)) :=
  ⟨{ curveType := 3
     namedCurve := 29
     publicKey := []
     signAlg := 0x0403
     signature := [] }, by decide +kernel, by decide +kernel⟩

end ReclaimTee.Tls
