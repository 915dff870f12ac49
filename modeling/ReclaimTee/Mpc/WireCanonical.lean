/-
Each codec of the wire is canonical: a value that is written is read back, and
a decoder accepts only the bytes its value is written as. A challenge is read
back if it has no more coefficients than the largest extension needs.
-/

import ReclaimTee.Mpc.ExtensionRun
import ReclaimTee.Mpc.Wire

namespace ReclaimTee.Mpc

open List

@[simp] theorem ascii_length (text : String) :
    (ascii text).length = text.toList.length := by
  simp [ascii]

/-! ### Labels -/

theorem bytesOfWord_eq (word : BitVec 64) : Label.bytesOfWord word = bigEndian 8 word.toNat := by
  apply map_congr_left
  intro index _
  apply BitVec.eq_of_toNat_eq
  simp

theorem bigEndianWord_eq (bytes : List Byte) :
    Label.bigEndianWord bytes = BitVec.ofNat 64 (ofBigEndian bytes) := by
  induction bytes using List.reverseRecOn with
  | nil => rfl
  | append_singleton rest byte ih =>
    have low : (Label.bigEndianWord rest <<< 8) &&& byte.setWidth 64 = 0#64 := by
      ext index inside
      by_cases small : index < 8
      · simp [small]
      · have high := BitVec.getLsbD_of_ge byte index (by omega)
        simp [high]
    have step : Label.bigEndianWord (rest ++ [byte]) =
        (Label.bigEndianWord rest <<< 8) ||| byte.setWidth 64 := by
      unfold Label.bigEndianWord
      rw [foldl_append]
      rfl
    rw [step, ← BitVec.add_eq_or_of_and_eq_zero _ _ low, ih, ofBigEndian_snoc]
    apply BitVec.eq_of_toNat_eq
    simp [Nat.shiftLeft_eq]

theorem fromBytes_put (label : Label) : Label.fromBytes label.put = label := by
  have first : label.put.take 8 = bigEndian 8 label.d0.toNat := by
    rw [Label.put, bytesOfWord_eq, take_left' (bigEndian_length _ _)]
  have second : (label.put.drop 8).take 8 = bigEndian 8 label.d1.toNat := by
    rw [Label.put, bytesOfWord_eq, bytesOfWord_eq, drop_left' (bigEndian_length _ _),
      take_of_length_le (Nat.le_of_eq (bigEndian_length _ _))]
  unfold Label.fromBytes
  rw [first, second, bigEndianWord_eq, bigEndianWord_eq, ofBigEndian_bigEndian label.d0.isLt,
    ofBigEndian_bigEndian label.d1.isLt, BitVec.ofNat_toNat, BitVec.ofNat_toNat,
    BitVec.setWidth_eq, BitVec.setWidth_eq]

theorem bytesOfWord_bigEndianWord {bytes : List Byte} (length : bytes.length = 8) :
    Label.bytesOfWord (Label.bigEndianWord bytes) = bytes := by
  have fits : ofBigEndian bytes < 2 ^ 64 := by
    have bound := ofBigEndian_lt bytes
    rw [length] at bound
    exact bound
  have back := bigEndian_ofBigEndian bytes
  rw [length] at back
  rw [bytesOfWord_eq, bigEndianWord_eq, BitVec.toNat_ofNat, Nat.mod_eq_of_lt fits, back]

theorem put_fromBytes {bytes : List Byte} (length : bytes.length = 16) :
    (Label.fromBytes bytes).put = bytes := by
  have first : (bytes.take 8).length = 8 := by
    rw [length_take]
    omega
  have second : (bytes.drop 8).length = 8 := by
    rw [length_drop]
    omega
  unfold Label.put Label.fromBytes
  rw [bytesOfWord_bigEndianWord first, take_of_length_le (Nat.le_of_eq second),
    bytesOfWord_bigEndianWord second, take_append_drop]

theorem labelsFromBytes_put (labels : List Label) :
    labelsFromBytes (labels.flatMap Label.put) labels.length = labels :=
  map_blocks_flatMap put_length fromBytes_put labels

theorem put_labelsFromBytes {data : List Byte} {count : Nat} (length : data.length = count * 16) :
    (labelsFromBytes data count).flatMap Label.put = data :=
  flatMap_map_blocks (fun _ => put_fromBytes) length

@[simp] theorem labelsFromBytes_length (data : List Byte) (count : Nat) :
    (labelsFromBytes data count).length = count := by
  simp [labelsFromBytes, blocks]

/-! ### Counts -/

theorem extensionPaddedCount_ok_iff {count padded : Nat} :
    extensionPaddedCount count = .ok padded ↔
      0 < count ∧ count ≤ maxExtensionOTs ∧ padded = paddedRows count := by
  constructor
  · intro accepted
    have counted : 0 < count ∧ count ≤ maxExtensionOTs := by
      unfold extensionPaddedCount at accepted
      rw [bind_eq_ok_iff] at accepted
      obtain ⟨_, inBounds, _⟩ := accepted
      have passed := rejectIf_eq_ok_iff.mp inBounds
      omega
    rw [extensionPaddedCount_eq counted.1 counted.2] at accepted
    cases accepted
    exact ⟨counted.1, counted.2, rfl⟩
  · rintro ⟨positive, bounded, rfl⟩
    exact extensionPaddedCount_eq positive bounded

theorem count_fits {count padded : Nat} (accepted : extensionPaddedCount count = .ok padded) :
    count < 256 ^ 4 := by
  obtain ⟨_, bounded, _⟩ := extensionPaddedCount_ok_iff.mp accepted
  rw [maxExtensionOTs] at bounded
  omega

theorem padded_fits {count padded : Nat} (accepted : extensionPaddedCount count = .ok padded) :
    padded < 256 ^ 4 := by
  obtain ⟨_, bounded, same⟩ := extensionPaddedCount_ok_iff.mp accepted
  have range := (paddedRows_bounds bounded).2
  omega

theorem start_fits {start count stop padded : Nat}
    (counted : extensionPaddedCount count = .ok padded)
    (ended : checkedIndexEnd start count = .ok stop) : start < 256 ^ 8 := by
  obtain ⟨positive, _, _⟩ := extensionPaddedCount_ok_iff.mp counted
  obtain ⟨_, room, _⟩ := checkedIndexEnd_ok_iff.mp ended
  rw [maxUint64] at room
  omega

/-! ### The begin message -/

theorem epoch_fits {p : Primitives} {epoch : List Byte} {value : Unit}
    (valid : validateExtensionEpoch p epoch = .ok value) :
    0 < epoch.length ∧ epoch.length < 256 ^ 2 := by
  unfold validateExtensionEpoch at valid
  rw [bind_eq_ok_iff] at valid
  obtain ⟨_, size, _⟩ := valid
  have passed := rejectIf_eq_ok_iff.mp size
  rw [maxEpochLength] at passed
  omega

-- A field of a frame is found by going past the fields before it.
attribute [local simp] slice_here slice_past drop_past

theorem precomputeBegin_canonical (p : Primitives) :
    Canonical (fun _ => True) (marshalPrecomputeBegin p) (unmarshalPrecomputeBegin p) where
  decodes := by
    intro message data _ written
    simp only [marshalPrecomputeBegin, eq_ok_iff] at written
    obtain ⟨padded, counted, stop, ended, _, epoch, rfl⟩ := written
    obtain ⟨present, short⟩ := epoch_fits epoch
    simp only [unmarshalPrecomputeBegin, eq_ok_iff]
    simp [epoch, counted, ended, ofBigEndian_bigEndian (count_fits counted),
      ofBigEndian_bigEndian (start_fits counted ended), ofBigEndian_bigEndian short]
    exact ⟨by omega, ne_nil_of_length_pos present, by omega⟩
  exact := by
    intro data message read
    simp only [unmarshalPrecomputeBegin, eq_ok_iff, passed_iff] at read
    obtain ⟨⟨long, tag⟩, ⟨_, whole⟩, _, epoch, padded, counted, stop, ended, rfl⟩ := read
    refine ⟨trivial, ?_⟩
    simp only [marshalPrecomputeBegin, eq_ok_iff]
    refine ⟨padded, counted, stop, ended, (), epoch, ?_⟩
    have size : (data.drop 50).length = ofBigEndian (slice data 48 50) := by
      rw [length_drop]
      omega
    rw [size, ← tag, toList_array_slice, bigEndian_slice, bigEndian_slice, bigEndian_slice]
    simp only [flatten_cons, flatten_nil, append_nil, slice_append_drop,
      drop_zero, Nat.reduceLeDiff]

/-! ### Base OT messages -/

theorem baseMessage_canonical {tag nested : String} {size : Nat}
    {invalid invalidFrame invalidNested : String} (tagged : (ascii tag).length = 4)
    (session : SessionID) :
    Canonical (fun _ => True) (marshalBaseMessage tag nested size invalid session)
      (unmarshalBaseMessage tag nested size invalidFrame invalidNested · session) where
  decodes := by
    intro message data _ written
    simp only [marshalBaseMessage, eq_ok_iff, passed_iff] at written
    obtain ⟨⟨sized, nestedTag, nestedSession⟩, rfl⟩ := written
    simp only [unmarshalBaseMessage, eq_ok_iff]
    simp [-ascii_length, tagged, sized, nestedTag, nestedSession]
    omega
  exact := by
    intro data message read
    simp only [unmarshalBaseMessage, eq_ok_iff, passed_iff] at read
    obtain ⟨⟨length, outerTag, outerSession⟩, inner, rfl⟩ := read
    have sized : (data.drop 36).length = size := by
      rw [length_drop]
      omega
    refine ⟨trivial, ?_⟩
    simp only [marshalBaseMessage, eq_ok_iff, passed_iff, sized]
    refine ⟨⟨trivial, inner⟩, ?_⟩
    rw [← outerTag, ← outerSession]
    simp only [flatten_cons, flatten_nil, append_nil, slice_append_drop,
      drop_zero, Nat.reduceLeDiff]

/-! ### The commitment -/

theorem extensionCommitment_canonical :
    Canonical (fun _ => True) marshalExtensionCommitment unmarshalExtensionCommitment where
  decodes := by
    intro commitment data _ written
    simp only [marshalExtensionCommitment, eq_ok_iff, passed_iff] at written
    obtain ⟨padded, counted, same, stop, ended, matrix, rfl⟩ := written
    simp only [unmarshalExtensionCommitment, eq_ok_iff]
    simp [extensionCommitmentHeaderSize, matrix, same, counted, ended,
      ofBigEndian_bigEndian (count_fits counted), ofBigEndian_bigEndian (padded_fits counted),
      ofBigEndian_bigEndian (start_fits counted ended)]
    exact ⟨by omega, by omega, by rw [← same]⟩
  exact := by
    intro data commitment read
    simp only [unmarshalExtensionCommitment, eq_ok_iff, passed_iff] at read
    obtain ⟨long, tag, padded, counted, same, stop, ended, length, rfl⟩ := read
    have header : 116 ≤ data.length := long
    refine ⟨trivial, ?_⟩
    have sized : (data.drop 116).length = baseOTCount * padded / 8 := by
      rw [length_drop, length, extensionCommitmentHeaderSize]
      omega
    simp only [marshalExtensionCommitment, eq_ok_iff, passed_iff, sized]
    refine ⟨padded, counted, rfl, stop, ended, rfl, ?_⟩
    rw [← same, ← tag, toList_array_slice, toList_array_slice, toList_array_slice,
      bigEndian_slice, bigEndian_slice, bigEndian_slice]
    simp only [flatten_cons, flatten_nil, append_nil, slice_append_drop,
      drop_zero, Nat.reduceLeDiff]

theorem validateBaseCipher_ok_iff {cipher : List Byte} {session : SessionID} {value : Unit} :
    validateBaseCipherForTranscript cipher session = .ok value ↔
      cipher.length = baseCipherMessageSize ∧ cipher.take 4 = ascii "BOT1" ∧
        (cipher.drop 4).take 32 = session.toList := by
  unfold validateBaseCipherForTranscript
  rw [bind_eq_ok_iff]
  simp only [rejectIf_eq_ok_iff, not_or, not_not, exists_const, and_assoc]

theorem precomputeCommitment_canonical :
    Canonical (fun _ => True)
      (fun message : List Byte × ExtensionCommitment =>
        marshalPrecomputeCommitment message.1 message.2)
      unmarshalPrecomputeCommitment where
  decodes := by
    rintro ⟨cipher, commitment⟩ data _ written
    simp only [marshalPrecomputeCommitment, eq_ok_iff] at written
    obtain ⟨_, valid, extension, marshalled, rfl⟩ := written
    have sized := (validateBaseCipher_ok_iff.mp valid).1
    have fits : baseCipherMessageSize < 256 ^ 4 := by decide
    have parsed := extensionCommitment_canonical.decodes _ _ trivial marshalled
    simp only [unmarshalPrecomputeCommitment, eq_ok_iff]
    simp [Nat.add_comm 8, sized, ofBigEndian_bigEndian fits, parsed, valid]
    omega
  exact := by
    rintro data ⟨cipher, commitment⟩ read
    simp only [unmarshalPrecomputeCommitment, eq_ok_iff, passed_iff] at read
    obtain ⟨⟨_, tag⟩, ⟨_, long⟩, commitment, parsed, _, valid, same⟩ := read
    cases same
    have marshalled := (extensionCommitment_canonical.exact _ _ parsed).2
    refine ⟨trivial, ?_⟩
    simp only [marshalPrecomputeCommitment, eq_ok_iff]
    refine ⟨(), valid, _, marshalled, ?_⟩
    have size : (slice data 8 (8 + ofBigEndian (slice data 4 8))).length =
        ofBigEndian (slice data 4 8) := by
      rw [slice_length]
      omega
    rw [size, ← tag, bigEndian_slice]
    simp only [flatten_cons, flatten_nil, append_nil]
    rw [slice_append_drop _ (by omega), slice_append_drop _ (by omega),
      slice_append_drop _ (by omega), drop_zero]

/-! ### The challenge and the proof -/

/-- The most coefficients that a challenge can have on the wire. -/
def maxChallengeCount : Nat :=
  extensionChallengeCount (paddedRows maxExtensionOTs)

theorem maxChallengeCount_fits : maxChallengeCount < 256 ^ 4 := by
  decide

theorem extensionChallenge_canonical (p : Primitives) :
    Canonical (fun challenge : ExtensionChallenge => challenge.chi.length ≤ maxChallengeCount)
      (marshalExtensionChallenge p) (unmarshalExtensionChallenge p) where
  decodes := by
    intro challenge data bounded written
    simp only [marshalExtensionChallenge, eq_ok_iff, passed_iff] at written
    obtain ⟨nonempty, hash, rfl⟩ := written
    have fits : challenge.chi.length < 256 ^ 4 :=
      Nat.lt_of_le_of_lt bounded maxChallengeCount_fits
    have limit := extensionPaddedCount_eq (by decide) (Nat.le_refl maxExtensionOTs)
    simp only [unmarshalExtensionChallenge, eq_ok_iff]
    simp [extensionChallengeHeaderSize, ofBigEndian_bigEndian fits, labelsFromBytes_put, limit]
    exact ⟨by omega, ⟨ne_nil_of_length_pos (Nat.pos_of_ne_zero nonempty), bounded⟩, by omega, hash⟩
  exact := by
    intro data challenge read
    simp only [unmarshalExtensionChallenge, eq_ok_iff, passed_iff] at read
    obtain ⟨⟨long, tag⟩, maxPadded, limit, ⟨nonempty, bounded⟩, length, hash, rfl⟩ := read
    have atLeast : 104 ≤ data.length := long
    rw [(extensionPaddedCount_ok_iff.mp limit).2.2] at bounded
    simp only [marshalExtensionChallenge, eq_ok_iff, passed_iff, labelsFromBytes_length]
    refine ⟨bounded, nonempty, hash, ?_⟩
    have labels : (data.drop 104).length = ofBigEndian (slice data 100 104) * 16 := by
      rw [length_drop, length, extensionChallengeHeaderSize]
      omega
    rw [put_labelsFromBytes labels, ← tag, toList_array_slice, toList_array_slice,
      toList_array_slice, bigEndian_slice]
    simp only [flatten_cons, flatten_nil, append_nil, slice_append_drop,
      drop_zero, Nat.reduceLeDiff]

/-- The column checks of a proof are a fixed-size array. -/
def ExtensionProof.Typed (proof : ExtensionProof) : Prop :=
  proof.t.length = baseOTCount

theorem extensionProof_canonical :
    Canonical ExtensionProof.Typed marshalExtensionProof unmarshalExtensionProof where
  decodes := by
    intro proof data typed written
    have checks : proof.t.length = baseOTCount := typed
    have labels := labelsFromBytes_put proof.t
    rw [checks] at labels
    cases written
    simp only [unmarshalExtensionProof, eq_ok_iff]
    simp [extensionProofSize, checks, labels, fromBytes_put]
    omega
  exact := by
    intro data proof read
    simp only [unmarshalExtensionProof, eq_ok_iff, passed_iff] at read
    obtain ⟨⟨whole, tag⟩, rfl⟩ := read
    have length : data.length = 84 + baseOTCount * 16 := whole
    have labels : (data.drop 84).length = baseOTCount * 16 := by
      rw [length_drop]
      omega
    refine ⟨labelsFromBytes_length _ _, ?_⟩
    unfold marshalExtensionProof
    rw [put_labelsFromBytes labels, ← tag, toList_array_slice, toList_array_slice,
      put_fromBytes slice_length]
    simp only [flatten_cons, flatten_nil, append_nil, slice_append_drop,
      drop_zero, Nat.reduceLeDiff]

/-! ### The online round -/

/-- The fixed sizes and the machine integer of a payload. -/
structure OnlinePayload.Typed (payload : OnlinePayload) : Prop where
  key : payload.key.length = 16
  outputTranslations : payload.outputTranslations.length = outputBits / 8
  otStartIndex : payload.otStartIndex < 2 ^ 64

theorem onlinePayload_canonical {engine : Except String Engine}
    (small : ∀ e, engine = .ok e → e.tableCount < 2 ^ 32) :
    Canonical OnlinePayload.Typed (marshalOnlinePayload engine)
      (unmarshalOnlinePayload engine) where
  decodes := by
    intro payload data typed written
    simp only [marshalOnlinePayload, eq_ok_iff, passed_iff] at written
    obtain ⟨e, compiled, tables, inputs, rfl⟩ := written
    have fits : e.tableCount < 256 ^ 4 := small e compiled
    have readTables := labelsFromBytes_put payload.tables
    have readInputs := labelsFromBytes_put payload.garblerInputs
    rw [tables] at readTables
    rw [inputs] at readInputs
    have readSession := @ofBigEndian_bigEndian 8 _ payload.sessionID.isLt
    have readStart := @ofBigEndian_bigEndian 8 _ typed.otStartIndex
    simp only [unmarshalOnlinePayload, eq_ok_iff]
    refine ⟨e, compiled, ?_⟩
    simp [payloadHeaderSize, Nat.add_comm 40, Nat.add_right_comm _ 40, typed.key,
      typed.outputTranslations, tables, inputs, ofBigEndian_bigEndian fits, readTables,
      readInputs, readSession, readStart]
    omega
  exact := by
    intro data payload read
    simp only [unmarshalOnlinePayload, eq_ok_iff, passed_iff] at read
    obtain ⟨e, compiled, long, tag, tables, length, rfl⟩ := read
    have atLeast : 40 ≤ data.length := long
    rw [tables] at length ⊢
    have rows : (slice data payloadHeaderSize (payloadHeaderSize + e.tableCount * 16)).length =
        e.tableCount * 16 := by
      rw [slice_length]
      omega
    have labels : (slice data (payloadHeaderSize + e.tableCount * 16)
        (payloadHeaderSize + e.tableCount * 16 + inputBits * 16)).length = inputBits * 16 := by
      rw [slice_length]
      omega
    have start : ofBigEndian (slice data 28 36) < 2 ^ 64 := by
      have bound := ofBigEndian_lt (slice data 28 36)
      rw [slice_length] at bound
      exact bound
    have session : (BitVec.ofNat 64 (ofBigEndian (slice data 4 12))).toNat =
        ofBigEndian (slice data 4 12) := by
      have bound := ofBigEndian_lt (slice data 4 12)
      rw [slice_length] at bound
      exact Nat.mod_eq_of_lt bound
    constructor
    · exact
        { key := slice_length
          outputTranslations := by
            rw [length_drop]
            omega
          otStartIndex := start }
    · simp only [marshalOnlinePayload, eq_ok_iff, passed_iff, labelsFromBytes_length]
      refine ⟨e, compiled, rfl, trivial, ?_⟩
      rw [put_labelsFromBytes rows, put_labelsFromBytes labels, session, ← tables, ← tag,
        bigEndian_slice, bigEndian_slice, bigEndian_slice]
      simp only [flatten_cons, flatten_nil, append_nil]
      rw [slice_append_drop _ (by omega), slice_append_drop _ (by omega)]
      change _ ++ (_ ++ (_ ++ (_ ++ (_ ++ data.drop 40)))) = data
      simp only [slice_append_drop, drop_zero, Nat.reduceLeDiff]

theorem getD_bytesToBits {data : List Byte} {position : Nat} (inside : position < 8 * data.length) :
    (bytesToBits data).getD position false = packedBit data position := by
  induction data generalizing position with
  | nil => cases inside
  | cons byte rest ih =>
    rw [length_cons] at inside
    have first : ((List.range 8).map fun bit => byteBit byte bit).length = 8 := by simp
    rw [bytesToBits, flatMap_cons, getD_eq_getElem?_getD]
    by_cases low : position < 8
    · rw [getElem?_append_left (by omega), getElem?_map,
        getElem?_range low, packedBit_cons_low byte rest low]
      rfl
    · have high : position = 8 + (position - 8) := by omega
      rw [getElem?_append_right (by omega), first, high, packedBit_cons_high,
        Nat.add_sub_cancel_left]
      exact ih (by omega)

theorem packByte_eq {bits : Nat → Bool} {byte : Byte}
    (same : ∀ bit < 8, bits bit = byteBit byte bit) : packByte bits = byte := by
  apply BitVec.eq_of_getLsbD_eq
  intro bit inside
  rw [← byteBit_eq_getLsbD _ _ inside, ← byteBit_eq_getLsbD _ _ inside, byteBit_packByte _ _ inside]
  exact same bit inside

theorem bitsToBytes_length (bits : List Bool) (size : Nat) : (bitsToBytes bits size).length = size := by
  rw [bitsToBytes, length_map, length_range]

theorem bitsToBytes_bytesToBits {data : List Byte} {size : Nat} (length : data.length = size) :
    bitsToBytes (bytesToBits data) size = data := by
  apply ext_getElem
  · rw [bitsToBytes_length, length]
  intro index _ inside
  simp only [bitsToBytes, getElem_map, getElem_range]
  apply packByte_eq
  intro bit inByte
  rw [getD_bytesToBits (by omega), packedBit, Nat.mul_add_div (by decide),
    Nat.div_eq_of_lt inByte, Nat.add_zero, Nat.mul_add_mod, Nat.mod_eq_of_lt inByte,
    getD_eq_getElem?_getD, getElem?_eq_getElem inside]
  rfl

theorem bytesToBits_bitsToBytes {bits : List Bool} {size : Nat} (length : bits.length = 8 * size) :
    bytesToBits (bitsToBytes bits size) = bits := by
  have sized : (bytesToBits (bitsToBytes bits size)).length = bits.length := by
    rw [bytesToBits_length, bitsToBytes_length, length]
  apply ext_getElem sized
  intro position written inside
  have read := @getD_bytesToBits (bitsToBytes bits size) position
    (by rw [bitsToBytes_length]; omega)
  rw [packedBit_bitsToBytes _ _ _ (by omega), getD_eq_getElem?_getD, getD_eq_getElem?_getD,
    getElem?_eq_getElem written, getElem?_eq_getElem inside] at read
  exact read

theorem choiceCorrections_canonical :
    Canonical (fun _ => True) marshalChoiceCorrections unmarshalChoiceCorrections where
  decodes := by
    intro corrections data _ written
    simp only [marshalChoiceCorrections, eq_ok_iff, passed_iff] at written
    obtain ⟨counted, rfl⟩ := written
    simp only [unmarshalChoiceCorrections, eq_ok_iff, passed_iff]
    exact ⟨bitsToBytes_length _ _, bytesToBits_bitsToBytes counted⟩
  exact := by
    intro data corrections read
    simp only [unmarshalChoiceCorrections, eq_ok_iff, passed_iff] at read
    obtain ⟨length, rfl⟩ := read
    refine ⟨trivial, ?_⟩
    simp only [marshalChoiceCorrections, eq_ok_iff, passed_iff]
    refine ⟨?_, bitsToBytes_bytesToBits length⟩
    rw [bytesToBits_length, length]
    rfl

theorem otMask_put_length (mask : OTMask) : mask.put.length = 32 := by
  rw [OTMask.put, length_append, put_length, put_length]

theorem otMaskFromBytes_put (mask : OTMask) : otMaskFromBytes mask.put = mask := by
  have second : slice (mask.m0.put ++ mask.m1.put) 16 32 = mask.m1.put := by
    simp [slice]
  simp [otMaskFromBytes, OTMask.put, second, fromBytes_put]

theorem put_otMaskFromBytes {bytes : List Byte} (length : bytes.length = 32) :
    (otMaskFromBytes bytes).put = bytes := by
  unfold OTMask.put otMaskFromBytes
  rw [put_fromBytes slice_length, put_fromBytes slice_length,
    slice_append_slice _ (by decide) (by decide), slice, drop_zero, take_of_length_le (by omega)]

/-- A list of a fixed number of items of one size, behind its count. -/
theorem counted_canonical {Item : Type} {write : Item → List Byte} {read : List Byte → Item}
    {count size : Nat} {encode : List Item → Except String (List Byte)}
    {decode : List Byte → Except String (List Item)} (fits : count < 256 ^ 4)
    (sized : ∀ item, (write item).length = size) (readBack : ∀ item, read (write item) = item)
    (writeBack : ∀ block, block.length = size → write (read block) = block)
    (encoded : ∀ items data, encode items = .ok data ↔
      items.length = count ∧ [bigEndian 4 items.length, items.flatMap write].flatten = data)
    (decoded : ∀ data items, decode data = .ok items ↔
      4 ≤ data.length ∧
        (ofBigEndian (slice data 0 4) = count ∧
          data.length = 4 + ofBigEndian (slice data 0 4) * size) ∧
        (blocks size (ofBigEndian (slice data 0 4)) (data.drop 4)).map read = items) :
    Canonical (fun _ => True) encode decode where
  decodes := by
    intro items data _ written
    obtain ⟨rfl, rfl⟩ := (encoded items data).mp written
    have blocks := map_blocks_flatMap sized readBack items
    simp [-length_flatMap, decoded, ofBigEndian_bigEndian fits, length_flatMap_uniform sized, blocks]
  exact := by
    intro data items readItems
    obtain ⟨long, ⟨number, length⟩, rfl⟩ := (decoded data items).mp readItems
    rw [number] at length ⊢
    refine ⟨trivial, (encoded _ _).mpr ?_⟩
    have items : ((blocks size count (data.drop 4)).map read).length = count := by
      simp [blocks]
    have rest : (data.drop 4).length = count * size := by
      rw [length_drop]
      omega
    refine ⟨items, ?_⟩
    rw [items, flatMap_map_blocks writeBack rest, ← number, bigEndian_slice]
    simp only [flatten_cons, flatten_nil, append_nil, slice_append_drop, drop_zero, Nat.zero_le]

theorem otMasks_canonical : Canonical (fun _ => True) marshalOTMasks unmarshalOTMasks := by
  refine @counted_canonical _ OTMask.put otMaskFromBytes inputBits 32 _ _ (by decide)
    otMask_put_length otMaskFromBytes_put (fun _ => put_otMaskFromBytes) ?_ ?_
  · intro masks data
    simp only [marshalOTMasks, eq_ok_iff, passed_iff]
  · intro data masks
    simp only [unmarshalOTMasks, eq_ok_iff, passed_iff]

theorem outputLabels_canonical :
    Canonical (fun _ => True) marshalOutputLabels unmarshalOutputLabels := by
  refine @counted_canonical _ Label.put Label.fromBytes outputBits 16 _ _ (by decide)
    put_length fromBytes_put (fun _ => put_fromBytes) ?_ ?_
  · intro labels data
    simp only [marshalOutputLabels, eq_ok_iff, passed_iff]
  · intro data labels
    simp only [unmarshalOutputLabels, labelsFromBytes, eq_ok_iff, passed_iff]

end ReclaimTee.Mpc
