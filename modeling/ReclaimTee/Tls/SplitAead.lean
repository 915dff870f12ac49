/-
The split AEAD of TEE_K and TEE_T. TEE_K encrypts with the key stream and hands
out tag secrets; TEE_T computes the tag from them. The block functions and
Poly1305 are parameters, and panics of the packages are errors.
-/

import ReclaimTee.Aead
import ReclaimTee.Tls.Record

namespace ReclaimTee.Tls

open ReclaimTee.Mpc ReclaimTee.Aead

structure CipherPrimitives where
  aes : List Byte → Gcm.Block → Gcm.Block
  chacha20 : List Byte → BitVec 32 → List Byte → Vector Byte 64
  poly1305 : List Byte → List Byte → List Byte

variable (p : CipherPrimitives)

/-! ### Packages -/

/-- A block cipher on 16 bytes, as `aes.NewCipher` returns it. -/
def newCipher (key : List Byte) : Except String (List Byte → List Byte) :=
  if key.length = 16 ∨ key.length = 24 ∨ key.length = 32 then
    .ok fun source => Gcm.bytes (p.aes key (Gcm.ofBytes source))
  else
    .error s!"crypto/aes: invalid key size {key.length}"

/-- The stream of `cipher.NewCTR`: the whole block is one big-endian counter. -/
def ctrStream (key counter : List Byte) (position : Nat) : Byte :=
  (Gcm.bytes (p.aes key (Gcm.ofBytes counter + BitVec.ofNat 128 (position / 16)))).getD
    (position % 16) 0

/-- `chacha20.NewUnauthenticatedCipher`. -/
def checkChaCha20 (key nonce : List Byte) : Except String Unit := do
  rejectIf (key.length ≠ 32) "chacha20: wrong key size"
  rejectIf (nonce.length ≠ 12 ∧ nonce.length ≠ 24) "chacha20: wrong nonce size"

def chacha20Stream (key nonce : List Byte) (counter position : Nat) : Byte :=
  (p.chacha20 key (BitVec.ofNat 32 (counter + position / 64)) nonce).toList.getD
    (position % 64) 0

/-- `XORKeyStream` of a cipher whose counter was set. -/
def chacha20XORKeyStream (key nonce : List Byte) (counter : Nat) (source : List Byte) :
    Except String (List Byte) := do
  rejectIf (2 ^ 32 < counter + chunkCount source.length 64) "chacha20: counter overflow"
  return xorStream (chacha20Stream p key nonce counter) source

/-! ### TEE_K -/

/-- `copy` into a fresh array of the given size. -/
def copyInto (size : Nat) (source : List Byte) : List Byte :=
  source.take size ++ List.replicate (size - source.length) 0

def generateGCMTagSecrets (block : List Byte → List Byte) (nonce : List Byte) : List Byte :=
  let zeros := List.replicate 16 0
  let counterBlock := (copyInto 16 (nonce.take 12)).set 15 1
  block zeros ++ block counterBlock

def generateChaChaTagSecrets (key nonce : List Byte) : List Byte :=
  match checkChaCha20 key nonce with
  | .error _ => []
  | .ok _ => xorStream (chacha20Stream p key nonce 0) (List.replicate 32 0)

/-- `EncryptWithoutTag` at a sequence number; the additional data does not enter. -/
def encryptWithoutTag (suite : CipherSuite) (key iv : List Byte) (seq : Nat)
    (plaintext : List Byte) : Except String (List Byte × List Byte) := do
  rejectIf (seq = maxUint64) "sequence number overflow: must renegotiate connection"
  let nonce := constructNonce suite iv seq
  if suite.isChaCha20 then
    match checkChaCha20 key nonce with
    | .error text => .error s!"failed to create ChaCha20 cipher: {text}"
    | .ok _ =>
      let ciphertext ← chacha20XORKeyStream p key nonce 1 plaintext
      return (ciphertext, generateChaChaTagSecrets p key nonce)
  else
    let block ← newCipher p key
    let ctrNonce := (copyInto 16 nonce).set 15 2
    return (xorStream (ctrStream p key ctrNonce) plaintext, generateGCMTagSecrets block nonce)

/-! ### GHASH -/

structure GcmFieldElement where
  low : BitVec 64
  high : BitVec 64
deriving DecidableEq, Repr

namespace GcmFieldElement

def zero : GcmFieldElement :=
  { low := 0, high := 0 }

def ofBytes (data : List Byte) : GcmFieldElement :=
  { low := BitVec.ofNat 64 (ofBigEndian (data.take 8))
    high := BitVec.ofNat 64 (ofBigEndian ((data.drop 8).take 8)) }

def bytes (element : GcmFieldElement) : List Byte :=
  putUint64 element.low.toNat ++ putUint64 element.high.toNat

end GcmFieldElement

def reverseBits (i : Nat) : Nat :=
  let i := ((i <<< 2) &&& 0xc) ||| ((i >>> 2) &&& 0x3)
  ((i <<< 1) &&& 0xa) ||| ((i >>> 1) &&& 0x5)

def ghashAdd (x y : GcmFieldElement) : GcmFieldElement :=
  { low := x.low ^^^ y.low, high := x.high ^^^ y.high }

def ghashDouble (x : GcmFieldElement) : GcmFieldElement :=
  let msbSet := x.high &&& 1 = 1
  { low := if msbSet then (x.low >>> 1) ^^^ 0xe100000000000000 else x.low >>> 1
    high := (x.high >>> 1) ||| (x.low <<< 63) }

def ghashReductionTable : List Nat :=
  [0x0000, 0x1c20, 0x3840, 0x2460, 0x7080, 0x6ca0, 0x48c0, 0x54e0,
    0xe100, 0xfd20, 0xd940, 0xc560, 0x9180, 0x8da0, 0xa9c0, 0xb5e0]

/-- The multiples of a key by the sixteen nibbles, in reversed bit order. -/
def productTable (x : GcmFieldElement) : List GcmFieldElement :=
  [2, 4, 6, 8, 10, 12, 14].foldl
    (fun table i =>
      let doubled := ghashDouble (table.getD (reverseBits (i / 2)) .zero)
      let table := table.set (reverseBits i) doubled
      table.set (reverseBits (i + 1)) (ghashAdd (table.getD (reverseBits i) .zero) x))
    ((List.replicate 16 .zero).set (reverseBits 1) x)

/-- Four bits of a word, the lowest first. -/
def ghashMulStep (table : List GcmFieldElement) (state : GcmFieldElement × BitVec 64) :
    GcmFieldElement × BitVec 64 :=
  let z := state.1
  let word := state.2
  let msw := z.high &&& 0xf
  let high := (z.high >>> 4) ||| (z.low <<< 60)
  let low := (z.low >>> 4) ^^^ (BitVec.ofNat 64 (ghashReductionTable.getD msw.toNat 0) <<< 48)
  let t := table.getD (word &&& 0xf).toNat .zero
  ({ low := low ^^^ t.low
     high := high ^^^ t.high },
    word >>> 4)

def ghashMulWord (table : List GcmFieldElement) (z : GcmFieldElement) (word : BitVec 64) :
    GcmFieldElement :=
  ((ghashMulStep table)^[16] (z, word)).1

def ghashMul (table : List GcmFieldElement) (y : GcmFieldElement) : GcmFieldElement :=
  ghashMulWord table (ghashMulWord table .zero y.high) y.low

def ghashUpdate (table : List GcmFieldElement) (y : GcmFieldElement) (data : List Byte) :
    GcmFieldElement :=
  if 16 ≤ data.length then
    ghashUpdate table (ghashMul table (ghashAdd y (.ofBytes (data.take 16)))) (data.drop 16)
  else if data = [] then
    y
  else
    ghashMul table (ghashAdd y (.ofBytes (copyInto 16 data)))
termination_by data.length
decreasing_by
  rw [List.length_drop]
  omega

def ghash (key : List Byte) (slices : List (List Byte)) : List Byte :=
  let table := productTable (.ofBytes key)
  (slices.foldl (ghashUpdate table) .zero).bytes

/-! ### TEE_T -/

def computePoly1305Tag (key additionalData ciphertext : List Byte) :
    Except String (List Byte) := do
  rejectIf (key.length ≠ 32) s!"Poly1305 key must be 32 bytes, got {key.length}"
  let aadPadding := (16 - additionalData.length % 16) % 16
  let ctPadding := (16 - ciphertext.length % 16) % 16
  let polyData := additionalData ++ List.replicate aadPadding 0 ++ ciphertext ++
    List.replicate ctPadding 0 ++ (putUint64 additionalData.length).reverse ++
    (putUint64 ciphertext.length).reverse
  return p.poly1305 key polyData

def computeTagFromSecrets (ciphertext tagSecrets : List Byte) (suite : CipherSuite)
    (additionalData : List Byte) : Except String (List Byte) :=
  if suite.isChaCha20 then do
    rejectIf (tagSecrets.length ≠ 32)
      s!"ChaCha20-Poly1305 tag secrets wrong size: got {tagSecrets.length}, need 32"
    match computePoly1305Tag p (tagSecrets.take 32) additionalData ciphertext with
    | .error text => .error s!"failed to compute Poly1305 tag: {text}"
    | .ok tag => return tag
  else do
    rejectIf (tagSecrets.length ≠ 32)
      s!"tag secrets wrong size: got {tagSecrets.length}, need 32"
    let ghashKey := tagSecrets.take 16
    let encryptedCounter := (tagSecrets.drop 16).take 16
    let aadBitLen := additionalData.length * 8 % 2 ^ 64
    let ciphertextBitLen := ciphertext.length * 8 % 2 ^ 64
    let lengthBlock := putUint64 aadBitLen ++ putUint64 ciphertextBitLen
    let ghashResult := ghash ghashKey [additionalData, ciphertext, lengthBlock]
    return List.zipWith (· ^^^ ·) ghashResult encryptedCounter

end ReclaimTee.Tls
