/-
The split AEAD refines the standard one: what TEE_K encrypts and the tag that
TEE_T computes from its secrets are the two parts of the standard seal, for every
suite. The last sequence number is never used for encryption.
-/

import ReclaimTee.Tls.Ghash

namespace ReclaimTee.Tls

open ReclaimTee.Mpc ReclaimTee.Aead List

/-! ### The standard -/

namespace CipherSuite

def keySize : CipherSuite → Nat
  | aes128GcmSha256 | rsaWithAes128GcmSha256 | ecdheRsaWithAes128GcmSha256
  | ecdheEcdsaWithAes128GcmSha256 => 16
  | _ => 32

def ivSize (suite : CipherSuite) : Nat :=
  if suite.isTLS12AESGCM then 4 else 12

end CipherSuite

/-- The nonce of a record: the explicit part is the sequence number, or the padded
sequence number is added to the IV. -/
def recordNonce (suite : CipherSuite) (iv : List Byte) (seq : Nat) : List Byte :=
  if suite.isTLS12AESGCM then
    iv ++ bigEndian 8 seq
  else
    List.zipWith (· ^^^ ·) iv (bigEndian 12 seq)

/-- Ciphertext and tag of a record under the AEAD that its suite names. -/
def standardSeal (p : CipherPrimitives) (suite : CipherSuite) (key iv : List Byte) (seq : Nat)
    (plaintext additionalData : List Byte) : Option (List Byte × List Byte) :=
  if key.length = suite.keySize ∧ iv.length = suite.ivSize then
    if suite.isChaCha20 then
      ChaChaPoly.authenticatedEncrypt p.chacha20 p.poly1305 key (recordNonce suite iv seq)
        plaintext additionalData
    else
      Gcm.authenticatedEncrypt (p.aes key) (recordNonce suite iv seq) plaintext additionalData
  else
    none

/-! ### Nonces and counters -/

variable {suite : CipherSuite} {iv nonce plaintext : List Byte}

theorem constructNonce_eq {seq : Nat} (size : iv.length = suite.ivSize) (fits : seq ≤ maxUint64) :
    constructNonce suite iv seq = recordNonce suite iv seq := by
  have limit : maxUint64 = 18446744073709551615 := rfl
  unfold constructNonce recordNonce
  unfold CipherSuite.ivSize at size
  by_cases explicit : suite.isTLS12AESGCM
  · rw [if_pos explicit] at size
    rw [if_pos explicit, if_pos explicit, take_of_length_le (by omega)]
    rfl
  · rw [if_neg explicit] at size
    have padded : bigEndian 12 seq = [0, 0, 0, 0] ++ putUint64 seq := by
      have split := bigEndian_append 4 8 0 seq (by omega)
      rw [Nat.zero_mul, Nat.zero_add] at split
      exact split
    rw [if_neg explicit, if_neg explicit, padded, size]
    apply ext_getElem?
    intro position
    rw [Mask.xorInto_getElem?, getElem?_zipWith]
    by_cases inside : position < iv.length
    · rw [getElem?_eq_getElem inside, getElem?_append]
      by_cases front : position < 4
      · interval_cases position <;> simp [Mask.wordAt]
      · have eight : (putUint64 seq).length = 8 := bigEndian_length 8 seq
        have present : position - 4 < (putUint64 seq).length := by omega
        simp [Mask.wordAt, front, Nat.le_of_not_lt front, present]
    · rw [getElem?_eq_none (by omega)]
      rfl

theorem recordNonce_length (seq : Nat)
    (size : iv.length = suite.ivSize) : (recordNonce suite iv seq).length = 12 := by
  unfold recordNonce
  unfold CipherSuite.ivSize at size
  split at size
  · rw [if_pos ‹_›, length_append, size, bigEndian_length]
  · rw [if_neg ‹_›, length_zipWith, size]
    rfl

theorem counterBlock_eq (size : nonce.length = 12) {counter : Nat} (small : counter < 2 ^ 32) :
    Gcm.ofBytes (nonce ++ bigEndian 4 counter) =
      BitVec.ofNat 96 (ofBigEndian nonce) ++ BitVec.ofNat 32 counter := by
  have bound := ofBigEndian_lt nonce
  have written := bigEndian_ofBigEndian nonce
  rw [size] at bound written
  have value := Gcm.ofBytes_halves (by rfl : 12 + 4 = 16) bound
    (by omega : counter < 256 ^ 4)
  rw [written] at value
  apply BitVec.eq_of_toNat_eq
  rw [value, toNat_append_eq, BitVec.toNat_ofNat, BitVec.toNat_ofNat, Nat.mod_eq_of_lt small,
    Nat.mod_eq_of_lt (show _ < 2 ^ 96 from bound)]
  rfl

theorem copyInto_nonce (size : nonce.length = 12) (last : Byte) :
    (copyInto 16 nonce).set 15 last = nonce ++ [0, 0, 0, last] := by
  rw [copyInto, take_of_length_le (by omega), set_append, size]
  rfl

/-! ### The GCM suites -/

/-- As long as 32 bits suffice, the wide counter of the package and the narrow one
of the standard agree. -/
theorem ctrStream_eq (p : CipherPrimitives) (key : List Byte)
    (size : nonce.length = 12) {position : Nat} (small : 2 + position / 16 < 2 ^ 32) :
    ctrStream p key (nonce ++ [0, 0, 0, 2]) position =
      Gcm.counterByte (p.aes key) (Gcm.inc32 (Gcm.initialCounter nonce)) position := by
  have first : Gcm.inc32 (Gcm.initialCounter nonce) =
      BitVec.ofNat 96 (ofBigEndian nonce) ++ BitVec.ofNat 32 2 := by
    have start := counterBlock_eq size (by decide : 1 < 2 ^ 32)
    change Gcm.initialCounter nonce = _ at start
    rw [start, Gcm.inc32_append]
    rfl
  have wide : Gcm.ofBytes (nonce ++ [0, 0, 0, 2]) + BitVec.ofNat 128 (position / 16) =
      Gcm.inc32^[position / 16] (Gcm.inc32 (Gcm.initialCounter nonce)) := by
    have start := counterBlock_eq size (by decide : 2 < 2 ^ 32)
    change Gcm.ofBytes (nonce ++ [0, 0, 0, 2]) = _ at start
    rw [first, start, Gcm.inc32_iterate]
    apply BitVec.eq_of_toNat_eq
    simp only [BitVec.toNat_add, toNat_append_eq, BitVec.toNat_ofNat]
    omega
  rw [ctrStream, Gcm.counterByte, wide]

theorem gcm_ciphertext_eq (p : CipherPrimitives) (key : List Byte)
    (size : nonce.length = 12) (short : plaintext.length ≤ 16 * (2 ^ 32 - 2)) :
    xorStream (ctrStream p key (nonce ++ [0, 0, 0, 2])) plaintext =
      Gcm.gctr (p.aes key) (Gcm.inc32 (Gcm.initialCounter nonce)) plaintext := by
  apply ext_getElem?
  intro position
  rw [xorStream_getElem?, Gcm.gctr, getElem?_mapIdx]
  by_cases inside : position < plaintext.length
  · have small : 2 + position / 16 < 2 ^ 32 := by omega
    rw [ctrStream_eq p key size small]
  · rw [getElem?_eq_none (by omega), Option.map_none, Option.map_none]

def blockCipher (p : CipherPrimitives) (key source : List Byte) : List Byte :=
  Gcm.bytes (p.aes key (Gcm.ofBytes source))

theorem gcmTagSecrets_eq (p : CipherPrimitives) (key : List Byte) (size : nonce.length = 12) :
    generateGCMTagSecrets (blockCipher p key) nonce =
      Gcm.bytes (p.aes key 0) ++ Gcm.bytes (p.aes key (Gcm.initialCounter nonce)) := by
  rw [generateGCMTagSecrets, take_of_length_le (by omega), copyInto_nonce size]
  rfl

theorem lengthBlock_eq (additional ciphertext : List Byte) :
    Gcm.padBlocks (putUint64 (additional.length * 8 % 2 ^ 64) ++
        putUint64 (ciphertext.length * 8 % 2 ^ 64)) =
      [Gcm.lengthBlock additional ciphertext] := by
  have first : additional.length * 8 % 2 ^ 64 < 256 ^ 8 := Nat.mod_lt _ (by decide)
  have second : ciphertext.length * 8 % 2 ^ 64 < 256 ^ 8 := Nat.mod_lt _ (by decide)
  have value := Gcm.ofBytes_halves (by rfl : 8 + 8 = 16) first second
  have size : (putUint64 (additional.length * 8 % 2 ^ 64) ++
      putUint64 (ciphertext.length * 8 % 2 ^ 64)).length = 16 := rfl
  rw [Gcm.padBlocks_short (ne_nil_of_length_pos (by omega)) (by omega)]
  congr 1
  apply BitVec.eq_of_toNat_eq
  refine value.trans ?_
  rw [Gcm.lengthBlock, toNat_append_eq, Nat.mul_comm 8, Nat.mul_comm 8]
  rfl

theorem gcm_tag_eq (p : CipherPrimitives) (key ciphertext additional counter : List Byte)
    (gcm : suite.isChaCha20 = false) :
    computeTagFromSecrets p ciphertext
        (Gcm.bytes (p.aes key 0) ++ Gcm.bytes (p.aes key (Gcm.initialCounter counter))) suite
        additional =
      .ok (Gcm.bytes (Gcm.ghash (p.aes key 0)
        (Gcm.padBlocks additional ++ Gcm.padBlocks ciphertext ++
          [Gcm.lengthBlock additional ciphertext]) ^^^
        p.aes key (Gcm.initialCounter counter))) := by
  have front : (Gcm.bytes (p.aes key 0) ++
      Gcm.bytes (p.aes key (Gcm.initialCounter counter))).take 16 = Gcm.bytes (p.aes key 0) :=
    take_left' (Gcm.bytes_length _)
  have sum := ghash_eq (Gcm.bytes_length (p.aes key 0))
    [additional, ciphertext, putUint64 (additional.length * 8 % 2 ^ 64) ++
      putUint64 (ciphertext.length * 8 % 2 ^ 64)]
  simp only [flatMap_cons, lengthBlock_eq, Gcm.ofBytes_bytes] at sum
  unfold computeTagFromSecrets
  rw [gcm]
  simp only [front, sum]
  rw [Gcm.bytes_xor, append_assoc]
  rfl

theorem encryptWithoutTag_gcm (p : CipherPrimitives) {key : List Byte}
    {seq : Nat} (gcm : suite.isChaCha20 = false)
    (keySize : key.length = suite.keySize) (ivSize : iv.length = suite.ivSize)
    (notLast : seq < maxUint64) (short : plaintext.length ≤ 16 * (2 ^ 32 - 2)) :
    encryptWithoutTag p suite key iv seq plaintext =
      .ok (Gcm.gctr (p.aes key) (Gcm.inc32 (Gcm.initialCounter (recordNonce suite iv seq)))
          plaintext,
        Gcm.bytes (p.aes key 0) ++
          Gcm.bytes (p.aes key (Gcm.initialCounter (recordNonce suite iv seq)))) := by
  have nonce := recordNonce_length seq ivSize
  have accepted : newCipher p key = .ok (blockCipher p key) := by
    have known : key.length = 16 ∨ key.length = 24 ∨ key.length = 32 := by
      rw [keySize]
      cases suite <;> decide
    rw [newCipher, if_pos known]
    rfl
  unfold encryptWithoutTag
  rw [rejectIf_of_not (Nat.ne_of_lt notLast), ok_bind,
    constructNonce_eq ivSize (Nat.le_of_lt notLast), gcm, if_neg Bool.false_ne_true, accepted,
    ok_bind, copyInto_nonce nonce]
  simp only [gcm_ciphertext_eq p key nonce short, gcmTagSecrets_eq p key nonce]
  rfl

/-! ### The ChaCha20 suites -/

theorem pad16_eq (data : List Byte) :
    List.replicate ((16 - data.length % 16) % 16) 0 = ChaChaPoly.pad16 data := by
  unfold ChaChaPoly.pad16
  by_cases whole : data.length % 16 = 0
  · rw [whole]
    rfl
  · rw [if_neg whole, Nat.mod_eq_of_lt (by omega : 16 - data.length % 16 < 16)]

theorem chachaTagSecrets_eq (p : CipherPrimitives) {key : List Byte}
    (keySize : key.length = 32) (nonceSize : nonce.length = 12) :
    generateChaChaTagSecrets p key nonce = (p.chacha20 key 0 nonce).toList.take 32 := by
  have accepted : checkChaCha20 key nonce = .ok () := by
    rw [checkChaCha20, rejectIf_of_not (by omega), ok_bind, rejectIf_of_not (by omega)]
  rw [generateChaChaTagSecrets, accepted]
  apply ext_getElem?
  intro position
  rw [xorStream_getElem?]
  by_cases inside : position < 32
  · have block : position / 64 = 0 := by omega
    have offset : position % 64 = position := by omega
    have present : position < (p.chacha20 key 0 nonce).toList.length := by
      rw [Vector.length_toList]
      omega
    rw [getElem?_replicate_of_lt inside, getElem?_take_of_lt inside, chacha20Stream, block, offset]
    change some (0#8 ^^^ (p.chacha20 key 0 nonce).toList[position]?.getD 0) = _
    rw [getElem?_eq_getElem present, BitVec.zero_xor]
    rfl
  · rw [getElem?_eq_none (by rw [length_replicate]; omega), Option.map_none, getElem?_eq_none]
    rw [length_take]
    omega

theorem chacha_tag_eq (p : CipherPrimitives) {secrets : List Byte} (size : secrets.length = 32)
    (ciphertext additional : List Byte) (chacha : suite.isChaCha20 = true) :
    computeTagFromSecrets p ciphertext secrets suite additional =
      .ok (p.poly1305 secrets (ChaChaPoly.macData additional ciphertext)) := by
  have complete : ¬ secrets.length ≠ 32 := by omega
  have tag : computePoly1305Tag p secrets additional ciphertext =
      .ok (p.poly1305 secrets (ChaChaPoly.macData additional ciphertext)) := by
    rw [computePoly1305Tag, rejectIf_of_not complete]
    simp only [pad16_eq]
    rfl
  unfold computeTagFromSecrets
  rw [chacha, rejectIf_of_not complete, take_of_length_le (by omega), tag]
  rfl

theorem encryptWithoutTag_chacha (p : CipherPrimitives) {key : List Byte}
    {seq : Nat} (chacha : suite.isChaCha20 = true)
    (keySize : key.length = 32) (ivSize : iv.length = suite.ivSize) (notLast : seq < maxUint64)
    (short : plaintext.length ≤ 64 * (2 ^ 32 - 1)) :
    encryptWithoutTag p suite key iv seq plaintext =
      .ok (ChaChaPoly.encrypt p.chacha20 key 1 (recordNonce suite iv seq) plaintext,
        (p.chacha20 key 0 (recordNonce suite iv seq)).toList.take 32) := by
  have nonce := recordNonce_length seq ivSize
  have accepted : checkChaCha20 key (recordNonce suite iv seq) = .ok () := by
    rw [checkChaCha20, rejectIf_of_not (by omega), ok_bind, rejectIf_of_not (by omega)]
  have counted : ¬ 2 ^ 32 < 1 + chunkCount plaintext.length 64 := by
    rw [chunkCount]
    omega
  unfold encryptWithoutTag
  rw [rejectIf_of_not (Nat.ne_of_lt notLast), constructNonce_eq ivSize (Nat.le_of_lt notLast), chacha]
  simp only [accepted, chacha20XORKeyStream, chachaTagSecrets_eq p keySize nonce]
  rw [rejectIf_of_not counted]
  rfl

/-! ### The refinement -/

/-- Wherever the standard seals a record, TEE_K returns its ciphertext, and from
the secrets and that ciphertext TEE_T computes its tag. Under the last sequence
number TEE_K encrypts nothing. -/
theorem split_seal_eq (p : CipherPrimitives) (suite : CipherSuite)
    (key iv plaintext additionalData : List Byte) :
    (∀ seq ciphertext tag, seq < maxUint64 →
      standardSeal p suite key iv seq plaintext additionalData = some (ciphertext, tag) →
      ∃ secrets, encryptWithoutTag p suite key iv seq plaintext = .ok (ciphertext, secrets) ∧
        computeTagFromSecrets p ciphertext secrets suite additionalData = .ok tag) ∧
    encryptWithoutTag p suite key iv maxUint64 plaintext =
      .error "sequence number overflow: must renegotiate connection" := by
  refine ⟨?_, rfl⟩
  intro seq ciphertext tag notLast sealed
  unfold standardSeal at sealed
  split at sealed
  · next sizes =>
    obtain ⟨keySize, ivSize⟩ := sizes
    cases family : suite.isChaCha20 with
    | true =>
      rw [family, if_pos rfl, ChaChaPoly.authenticatedEncrypt] at sealed
      split at sealed <;> cases sealed
      rename_i domain
      obtain ⟨keyLength, _, short, _⟩ := domain
      have secrets : ((p.chacha20 key 0 (recordNonce suite iv seq)).toList.take 32).length =
          32 := by
        rw [length_take, Vector.length_toList]
        rfl
      exact ⟨_, encryptWithoutTag_chacha p family keyLength ivSize notLast short,
        chacha_tag_eq p secrets _ _ family⟩
    | false =>
      rw [family, if_neg Bool.false_ne_true, Gcm.authenticatedEncrypt] at sealed
      split at sealed <;> cases sealed
      rename_i domain
      obtain ⟨_, short, _⟩ := domain
      exact ⟨_, encryptWithoutTag_gcm p family keySize ivSize notLast short,
        gcm_tag_eq p key _ _ _ family⟩
  · cases sealed

def samplePrimitives : CipherPrimitives where
  aes key block := block ^^^ Gcm.ofBytes key
  chacha20 _ counter _ := Vector.replicate 64 (counter.setWidth 8)
  poly1305 key _ := key.take 16

theorem split_seal_eq_sample :
    0 < maxUint64 ∧ ∃ ciphertext tag,
      standardSeal samplePrimitives .aes128GcmSha256 (List.replicate 16 7) (List.replicate 12 9) 0
        [0x61, 0x62] [0x17] = some (ciphertext, tag) ∧
      ∃ secrets,
        encryptWithoutTag samplePrimitives .aes128GcmSha256 (List.replicate 16 7)
          (List.replicate 12 9) 0 [0x61, 0x62] = .ok (ciphertext, secrets) ∧
        computeTagFromSecrets samplePrimitives ciphertext secrets .aes128GcmSha256 [0x17] =
          .ok tag :=
  ⟨by decide, _, _, rfl, (split_seal_eq samplePrimitives .aes128GcmSha256 (List.replicate 16 7)
    (List.replicate 12 9) [0x61, 0x62] [0x17]).1 0 _ _ (by decide) rfl⟩

/-- The standard seals a record under the last sequence number; TEE_K refuses it. -/
theorem last_sequence_not_encrypted :
    (standardSeal samplePrimitives .aes128GcmSha256 (List.replicate 16 7) (List.replicate 12 9)
      maxUint64 [0x61] []).isSome = true ∧
    encryptWithoutTag samplePrimitives .aes128GcmSha256 (List.replicate 16 7)
      (List.replicate 12 9) maxUint64 [0x61] =
        .error "sequence number overflow: must renegotiate connection" :=
  ⟨rfl, rfl⟩

/-! ### The split ciphers of a record -/

/-- The functions that the record layer takes as parameters. -/
def splitCiphers (p : CipherPrimitives) : RecordCiphers where
  keystream suite key nonce :=
    if suite.isChaCha20 then chacha20Stream p key nonce 1
    else ctrStream p key ((copyInto 16 nonce).set 15 2)
  tagSecrets suite key nonce :=
    if suite.isChaCha20 then generateChaChaTagSecrets p key nonce
    else generateGCMTagSecrets (blockCipher p key) nonce
  tag suite secrets additionalData ciphertext :=
    (computeTagFromSecrets p ciphertext secrets suite additionalData).toOption.getD []

theorem encryptWithoutTag_eq (p : CipherPrimitives) {keys : RecordKeys} {seq : Nat}
    (keySize : keys.key.length = keys.suite.keySize) (ivSize : keys.iv.length = keys.suite.ivSize)
    (fits : seq ≤ maxUint64) (short : plaintext.length ≤ 16 * (2 ^ 32 - 2)) :
    encryptWithoutTag p keys.suite keys.key keys.iv seq plaintext =
      keys.encryptWithoutTag (splitCiphers p) seq plaintext := by
  unfold RecordKeys.encryptWithoutTag
  by_cases last : seq = maxUint64
  · rw [if_pos last, encryptWithoutTag, rejectIf, if_pos last]
    rfl
  · have nonce := recordNonce_length seq ivSize
    have named := constructNonce_eq ivSize fits
    unfold RecordKeys.stream RecordKeys.secrets splitCiphers
    rw [if_neg last, named]
    dsimp only
    cases family : keys.suite.isChaCha20 with
    | true =>
      have size : keys.key.length = 32 := by
        rw [keySize]
        revert family
        cases keys.suite <;> decide
      rw [encryptWithoutTag_chacha p family size ivSize (by omega) (by omega), chachaTagSecrets_eq p size nonce]
      rfl
    | false =>
      rw [encryptWithoutTag_gcm p family keySize ivSize (by omega) short,
        if_neg Bool.false_ne_true, if_neg Bool.false_ne_true, copyInto_nonce nonce,
        gcm_ciphertext_eq p keys.key nonce short, gcmTagSecrets_eq p keys.key nonce]

def splitKeys : RecordKeys :=
  { suite := .aes128GcmSha256, key := List.replicate 16 7, iv := List.replicate 12 9 }

theorem encryptWithoutTag_eq_sample :
    encryptWithoutTag samplePrimitives splitKeys.suite splitKeys.key splitKeys.iv 0 [0x61] =
      splitKeys.encryptWithoutTag (splitCiphers samplePrimitives) 0 [0x61] :=
  encryptWithoutTag_eq samplePrimitives rfl rfl (by decide) (by decide)

end ReclaimTee.Tls
