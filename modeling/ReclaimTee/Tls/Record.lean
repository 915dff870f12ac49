/-
Split AEAD records. The sender encrypts a record with the key stream and hands
out the tag secrets; the tag is computed elsewhere, over the ciphertext of the
end. The receiver is the standard one, which checks the tag.
-/

import ReclaimTee.Mpc.Bits
import ReclaimTee.Mpc.Index
import ReclaimTee.Overlay

namespace ReclaimTee.Tls

open ReclaimTee.Mpc

/-- The suites that have an authenticated stream cipher. -/
inductive CipherSuite where
  | aes128GcmSha256
  | aes256GcmSha384
  | chacha20Poly1305Sha256
  | rsaWithAes128GcmSha256
  | rsaWithAes256GcmSha384
  | ecdheRsaWithAes128GcmSha256
  | ecdheEcdsaWithAes128GcmSha256
  | ecdheRsaWithAes256GcmSha384
  | ecdheEcdsaWithAes256GcmSha384
  | ecdheRsaWithChacha20Poly1305Sha256
  | ecdheEcdsaWithChacha20Poly1305Sha256
deriving DecidableEq, Repr

namespace CipherSuite

def code : CipherSuite → Nat
  | aes128GcmSha256 => 0x1301
  | aes256GcmSha384 => 0x1302
  | chacha20Poly1305Sha256 => 0x1303
  | rsaWithAes128GcmSha256 => 0x009c
  | rsaWithAes256GcmSha384 => 0x009d
  | ecdheRsaWithAes128GcmSha256 => 0xc02f
  | ecdheEcdsaWithAes128GcmSha256 => 0xc02b
  | ecdheRsaWithAes256GcmSha384 => 0xc030
  | ecdheEcdsaWithAes256GcmSha384 => 0xc02c
  | ecdheRsaWithChacha20Poly1305Sha256 => 0xcca8
  | ecdheEcdsaWithChacha20Poly1305Sha256 => 0xcca9

def isTLS13 : CipherSuite → Bool
  | aes128GcmSha256 | aes256GcmSha384 | chacha20Poly1305Sha256 => true
  | _ => false

def isChaCha20 : CipherSuite → Bool
  | chacha20Poly1305Sha256 | ecdheRsaWithChacha20Poly1305Sha256
  | ecdheEcdsaWithChacha20Poly1305Sha256 => true
  | _ => false

def isTLS12AESGCM (suite : CipherSuite) : Bool :=
  !suite.isTLS13 && !suite.isChaCha20

end CipherSuite

def recordTypeApplicationData : Byte := 0x17

/-- Big-endian, as `binary.BigEndian.PutUint64`. -/
def putUint64 (value : Nat) : List Byte :=
  (List.range 8).map fun index => BitVec.ofNat 8 (value >>> (8 * (7 - index)))

def putUint16 (value : Nat) : List Byte :=
  [BitVec.ofNat 8 (value >>> 8), BitVec.ofNat 8 value]

/-- The last eight bytes of the IV take the sequence number, except where the
sequence number itself is the explicit half of the nonce. -/
def constructNonce (suite : CipherSuite) (iv : List Byte) (seqNum : Nat) : List Byte :=
  if suite.isTLS12AESGCM then
    iv.take 4 ++ putUint64 seqNum
  else
    Mask.xorInto iv (iv.length - 8) (putUint64 seqNum)

def createAdditionalDataTLS12 (seqNum plaintextLength : Nat) : List Byte :=
  putUint64 seqNum ++ [recordTypeApplicationData, 0x03, 0x03] ++ putUint16 plaintextLength

def createAdditionalDataTLS13 (ciphertextLength : Nat) : List Byte :=
  [recordTypeApplicationData, 0x03, 0x03] ++ putUint16 ciphertextLength

def tagSize : Nat := 16

def createAdditionalData (suite : CipherSuite) (seqNum plaintextLength : Nat) : List Byte :=
  if suite.isTLS13 then
    createAdditionalDataTLS13 (plaintextLength + tagSize)
  else
    createAdditionalDataTLS12 seqNum plaintextLength

/-- The inner content type, and one byte of padding. -/
def prepareDataForTLS13 (data : List Byte) : List Byte :=
  data ++ [recordTypeApplicationData, 0x00]

def prepareDataForEncryption (data : List Byte) (suite : CipherSuite) : List Byte :=
  if suite.isTLS13 then prepareDataForTLS13 data else data

/-- What the ciphers compute: a key stream for each nonce, the secrets from which
a tag is made, and the tag. -/
structure RecordCiphers where
  keystream : CipherSuite → List Byte → List Byte → Nat → Byte
  tagSecrets : CipherSuite → List Byte → List Byte → List Byte
  tag : CipherSuite → List Byte → List Byte → List Byte → List Byte

/-- Ciphers whose tag is the whole input of the tag, so that no two inputs share one. -/
def RecordCiphers.transcript : RecordCiphers where
  keystream _ key nonce position := (key ++ nonce).getD position 0
  tagSecrets _ _ nonce := nonce
  tag _ secrets additionalData data := secrets ++ additionalData ++ data

def xorStream (stream : Nat → Byte) (data : List Byte) : List Byte :=
  data.mapIdx fun position byte => byte ^^^ stream position

@[simp] theorem xorStream_length (stream : Nat → Byte) (data : List Byte) :
    (xorStream stream data).length = data.length :=
  List.length_mapIdx

theorem xorStream_getElem? (stream : Nat → Byte) (data : List Byte) (position : Nat) :
    (xorStream stream data)[position]? = data[position]?.map fun byte => byte ^^^ stream position :=
  List.getElem?_mapIdx

structure RecordKeys where
  suite : CipherSuite
  key : List Byte
  iv : List Byte

namespace RecordKeys

variable (c : RecordCiphers) (keys : RecordKeys)

def stream (seqNum : Nat) : Nat → Byte :=
  c.keystream keys.suite keys.key (constructNonce keys.suite keys.iv seqNum)

def secrets (seqNum : Nat) : List Byte :=
  c.tagSecrets keys.suite keys.key (constructNonce keys.suite keys.iv seqNum)

/-- Encryption under one sequence number; the additional data does not enter. -/
def encryptWithoutTag (seqNum : Nat) (plaintext : List Byte) :
    Except String (List Byte × List Byte) :=
  if seqNum = maxUint64 then
    .error "sequence number overflow: must renegotiate connection"
  else
    .ok (xorStream (keys.stream c seqNum) plaintext, keys.secrets c seqNum)

/-- The tag that the standard receiver computes for a ciphertext. -/
def expectedTag (seqNum : Nat) (ciphertext : List Byte) : List Byte :=
  c.tag keys.suite (keys.secrets c seqNum)
    (createAdditionalData keys.suite seqNum ciphertext.length) ciphertext

end RecordKeys

/-- TLS 1.3 drops the zero padding; the byte before it is the content type. -/
def innerContent (plaintext : List Byte) : Option (List Byte) :=
  match plaintext.reverse.dropWhile (· = 0) with
  | [] => none
  | contentType :: rest =>
    if contentType = recordTypeApplicationData then some rest.reverse else none

theorem innerContent_prepared (data : List Byte) :
    innerContent (prepareDataForTLS13 data) = some data := by
  simp [innerContent, prepareDataForTLS13, recordTypeApplicationData]

/-- The standard receiver: a record with a wrong tag is refused. -/
def RecordKeys.openRecord (c : RecordCiphers) (keys : RecordKeys) (seqNum : Nat)
    (ciphertext tag : List Byte) : Option (List Byte) :=
  if keys.expectedTag c seqNum ciphertext = tag then
    let plaintext := xorStream (keys.stream c seqNum) ciphertext
    if keys.suite.isTLS13 then innerContent plaintext else some plaintext
  else
    none

end ReclaimTee.Tls
