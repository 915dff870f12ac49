/-
An honest run of the OT extension. The sender's columns are the receiver's with
the choice vector added where the correlation bit is set. The consistency check
is additive, so it accepts, and the transposed rows are correlated.
-/

import ReclaimTee.Mpc.OtExtension

namespace ReclaimTee.Mpc

open BitVec
open List hiding Vector

/-! ### Sizes -/

def paddedRows (count : Nat) : Nat :=
  128 * ((count + 255) / 128)

theorem ldiff_127 (value : Nat) : Nat.ldiff value 127 = 128 * (value / 128) := by
  have shifted : 128 * (value / 128) = value >>> 7 <<< 7 := by
    omega
  rw [shifted]
  apply Nat.eq_of_testBit_eq
  intro position
  have maskBit : (127 : Nat).testBit position = decide (position < 7) :=
    Nat.testBit_two_pow_sub_one 7 position
  rw [Nat.testBit_ldiff, maskBit]
  by_cases low : position < 7
  · simp [low]
  · have restored : 7 + (position - 7) = position := by omega
    simp [Nat.le_of_not_lt low]

theorem extensionPaddedCount_eq {count : Nat} (positive : 0 < count)
    (bounded : count ≤ maxExtensionOTs) : extensionPaddedCount count = .ok (paddedRows count) := by
  have accepted : ¬ ((count : Int) ≤ 0 ∨ (maxExtensionOTs : Int) < count) := by omega
  have rounded : Nat.ldiff ((count : Int).toNat + kosCheckOTs + baseOTCount - 1)
      (baseOTCount - 1) = paddedRows count := by
    exact ldiff_127 _
  rw [extensionPaddedCount, rejectIf_of_not accepted]
  exact congrArg Except.ok rounded

theorem paddedRows_bounds {count : Nat} (bounded : count ≤ maxExtensionOTs) :
    count + 128 ≤ paddedRows count ∧ paddedRows count < 2 ^ 32 := by
  rw [maxExtensionOTs] at bounded
  rw [paddedRows]
  omega

@[simp] theorem put_length (label : Label) : label.put.length = 16 := by
  simp [Label.put, Label.bytesOfWord]

theorem expandSeed_length (p : Primitives) (seed : Label) (sessionID : SessionID)
    (col size : Nat) : (expandSeed p seed sessionID col size).length = size := by
  rw [expandSeed, length_take, flatMap_def, length_flatten_blocks 16, length_map, length_range]
  · omega
  · intro block member
    obtain ⟨value, _, rfl⟩ := mem_map.mp member
    exact put_length _

/-! ### Columns -/

variable {left right : List Byte}

theorem xorBytes_length (same : left.length = right.length) :
    (xorBytes left right).length = left.length := by
  rw [xorBytes, length_zipWith, same, Nat.min_self]

theorem xorBytes_getD (same : left.length = right.length) (position : Nat) :
    (xorBytes left right).getD position 0 = left.getD position 0 ^^^ right.getD position 0 := by
  induction left generalizing right position with
  | nil =>
    cases right with
    | nil => simp [xorBytes]
    | cons byte rest => cases same
  | cons first rest ih =>
    cases right with
    | nil => cases same
    | cons second others =>
      cases position with
      | zero => rfl
      | succ position => exact ih (Nat.succ.inj same) position

theorem packedBit_xorBytes (same : left.length = right.length) (position : Nat) :
    packedBit (xorBytes left right) position =
      (packedBit left position ^^ packedBit right position) := by
  have inByte : position % 8 < 8 := Nat.mod_lt _ (by decide)
  rw [packedBit, packedBit, packedBit, xorBytes_getD same, byteBit_eq_getLsbD _ _ inByte,
    byteBit_eq_getLsbD _ _ inByte, byteBit_eq_getLsbD _ _ inByte, getLsbD_xor]

theorem xorBytes_unmask {own mask choices : List Byte} (ownLength : own.length = mask.length)
    (choicesLength : choices.length = mask.length) :
    xorBytes mask (xorBytes (xorBytes own mask) choices) = xorBytes own choices := by
  induction mask generalizing own choices with
  | nil =>
    have ownEmpty := eq_nil_of_length_eq_zero ownLength
    subst ownEmpty
    rfl
  | cons byte rest ih =>
    cases own with
    | nil => cases ownLength
    | cons first own =>
      cases choices with
      | nil => cases choicesLength
      | cons choice choices =>
        have head : byte ^^^ (first ^^^ byte ^^^ choice) = first ^^^ choice := by
          rw [BitVec.xor_comm first byte, BitVec.xor_assoc, ← BitVec.xor_assoc,
            BitVec.xor_self, BitVec.zero_xor]
        have tail := ih (Nat.succ.inj ownLength) (Nat.succ.inj choicesLength)
        exact cons_eq_cons.mpr ⟨head, tail⟩

theorem column_flatten {byteRows : Nat} (columns : Fin baseOTCount → List Byte)
    (uniform : ∀ col, (columns col).length = byteRows) (col : Fin baseOTCount) :
    column (List.ofFn columns).flatten byteRows col = columns col := by
  have allUniform : ∀ block ∈ List.ofFn columns, block.length = byteRows := by
    intro block member
    obtain ⟨other, rfl⟩ := mem_ofFn.mp member
    exact uniform other
  rw [column, flatten_block _ allUniform _ (by rw [length_ofFn]; exact col.isLt),
    List.getD_eq_getElem?_getD, List.getElem?_ofFn, dif_pos col.isLt]
  rfl

/-! ### The consistency check -/

theorem pushByte_xor (left right : BitVec 64) (first second : Byte) :
    ((left ^^^ right) <<< 8) ||| (first ^^^ second).setWidth 64 =
      ((left <<< 8) ||| first.setWidth 64) ^^^ ((right <<< 8) ||| second.setWidth 64) := by
  apply eq_of_getLsbD_eq
  intro position inWord
  by_cases inByte : position < 8
  · simp [inByte]
  · have firstZero : first.getLsbD position = false := getLsbD_of_ge _ _ (by omega)
    have secondZero : second.getLsbD position = false := getLsbD_of_ge _ _ (by omega)
    simp [inByte, inWord, firstZero, secondZero]

theorem bigEndianWord_xorBytes (same : left.length = right.length) :
    Label.bigEndianWord (xorBytes left right) =
      Label.bigEndianWord left ^^^ Label.bigEndianWord right := by
  have folded : ∀ start other : BitVec 64,
      (xorBytes left right).foldl (fun (word : BitVec 64) byte => (word <<< 8) ||| byte.setWidth 64)
          (start ^^^ other) =
        left.foldl (fun (word : BitVec 64) byte => (word <<< 8) ||| byte.setWidth 64) start ^^^
          right.foldl (fun (word : BitVec 64) byte => (word <<< 8) ||| byte.setWidth 64) other := by
    induction left generalizing right with
    | nil =>
      have rightEmpty := eq_nil_of_length_eq_zero same.symm
      subst rightEmpty
      intro start other
      rfl
    | cons first rest ih =>
      cases right with
      | nil => cases same
      | cons second others =>
        intro start other
        have next := ih (Nat.succ.inj same) ((start <<< 8) ||| first.setWidth 64)
          ((other <<< 8) ||| second.setWidth 64)
        rw [← pushByte_xor] at next
        exact next
  exact folded 0 0

theorem xorBytes_drop (left right : List Byte) (count : Nat) :
    (xorBytes left right).drop count = xorBytes (left.drop count) (right.drop count) := by
  rw [xorBytes, drop_zipWith]
  rfl

theorem xorBytes_take (left right : List Byte) (count : Nat) :
    (xorBytes left right).take count = xorBytes (left.take count) (right.take count) := by
  rw [xorBytes, take_zipWith]
  rfl

theorem fromBytes_xorBytes (same : left.length = right.length) :
    Label.fromBytes (xorBytes left right) = Label.fromBytes left + Label.fromBytes right := by
  rw [Label.fromBytes, xorBytes_drop, xorBytes_take, xorBytes_take,
    bigEndianWord_xorBytes (by simp [same]), bigEndianWord_xorBytes (by simp [same])]
  rfl

theorem labelAt_xorBytes (same : left.length = right.length) (offset : Nat) :
    labelAt (xorBytes left right) offset = labelAt left offset + labelAt right offset := by
  rw [labelAt, xorBytes_drop, xorBytes_take, fromBytes_xorBytes (by simp [same])]
  rfl

/-- The combination of a column: its last block, and each other block times its
coefficient in GF(2^128). -/
def combination (bytes : List Byte) (mainBytes : Nat) (chi : List Label) : Label :=
  labelAt bytes mainBytes + (chi.zipIdx.map fun entry =>
    fieldProduct (labelAt bytes (entry.2 * 16)) entry.1).sum

theorem columnCheck_eq (flag : Bool) (bytes : List Byte) (mainBytes : Nat) (chi : List Label) :
    columnCheck flag bytes mainBytes chi = combination bytes mainBytes chi := by
  unfold columnCheck combination
  generalize labelAt bytes mainBytes = start
  generalize chi.zipIdx = entries
  induction entries generalizing start with
  | nil => exact (add_zero start).symm
  | cons entry rest ih =>
    rw [foldl_cons, ih, map_cons, sum_cons, Label.xor_eq_add, gf128Mul_eq, add_assoc]

theorem combination_xorBytes (same : left.length = right.length) (mainBytes : Nat)
    (chi : List Label) :
    combination (xorBytes left right) mainBytes chi =
      combination left mainBytes chi + combination right mainBytes chi := by
  unfold combination
  rw [add_add_add_comm, labelAt_xorBytes same, ← sum_map_add]
  simp only [labelAt_xorBytes same, fieldProduct_add]

/-! ### The relation between the two matrices -/

section Honest

variable {p : Primitives} {base : Fin baseOTCount → BaseOTSeedPair}
  {selected : Fin baseOTCount → Label} {delta : Label}

/-- The sender holds the seed of each pair that its correlation bit selects. -/
def SelectedBy (base : Fin baseOTCount → BaseOTSeedPair) (delta : Label)
    (selected : Fin baseOTCount → Label) : Prop :=
  ∀ col, selected col = if deltaBit delta col then (base col).one else (base col).zero

theorem receiverColumn_length (p : Primitives) (base : Fin baseOTCount → BaseOTSeedPair)
    (sessionID : SessionID) (byteRows : Nat) (col : Fin baseOTCount) :
    (receiverColumn p base sessionID byteRows col).length = byteRows :=
  expandSeed_length ..

variable {byteRows : Nat} {choices : List Byte}

theorem maskColumn_length (sessionID : SessionID)
    (choicesLength : choices.length = byteRows) (col : Fin baseOTCount) :
    (maskColumn p base sessionID choices byteRows col).length = byteRows := by
  have own := receiverColumn_length p base sessionID byteRows col
  have other := expandSeed_length p (base col).one sessionID col byteRows
  have masked := xorBytes_length (own.trans other.symm)
  rw [maskColumn, xorBytes_length (masked.trans (own.trans choicesLength.symm)), masked, own]

theorem maskMatrix_length (sessionID : SessionID) (choicesLength : choices.length = byteRows) :
    (maskMatrix p base sessionID choices byteRows).length = baseOTCount * byteRows := by
  rw [maskMatrix, length_flatten_blocks byteRows, length_ofFn]
  intro block member
  obtain ⟨col, rfl⟩ := mem_ofFn.mp member
  exact maskColumn_length sessionID choicesLength col

/-- A receiver may mask each column with choices of its own. -/
def maskedMatrix (p : Primitives) (base : Fin baseOTCount → BaseOTSeedPair)
    (sessionID : SessionID) (choices : Fin baseOTCount → List Byte) (byteRows : Nat) : List Byte :=
  (List.ofFn fun col => maskColumn p base sessionID (choices col) byteRows col).flatten

theorem senderColumn_masked (chosen : SelectedBy base delta selected) (sessionID : SessionID)
    {choices : Fin baseOTCount → List Byte} (lengths : ∀ col, (choices col).length = byteRows)
    (col : Fin baseOTCount) :
    senderColumn p selected delta sessionID (maskedMatrix p base sessionID choices byteRows)
        byteRows col =
      if deltaBit delta col then
        xorBytes (receiverColumn p base sessionID byteRows col) (choices col)
      else
        receiverColumn p base sessionID byteRows col := by
  have masked : column (maskedMatrix p base sessionID choices byteRows) byteRows col =
      maskColumn p base sessionID (choices col) byteRows col :=
    column_flatten _ (fun col => maskColumn_length sessionID (lengths col) col) col
  rw [senderColumn, chosen col, masked]
  cases deltaBit delta col
  · rfl
  · have other := expandSeed_length p (base col).one sessionID col byteRows
    exact xorBytes_unmask ((receiverColumn_length ..).trans other.symm)
      ((lengths col).trans other.symm)

theorem deltaBit_zero {bit : Nat} (inLabel : bit < 128) : deltaBit 0 bit = false := by
  have doubled := deltaBit_add 0 0 inLabel
  rw [Bool.xor_self] at doubled
  exact doubled

theorem matrix_row_bit (columns : Fin baseOTCount → List Byte) {blocks : Nat}
    (uniform : ∀ col, (columns col).length = byteRows) (wide : byteRows = 16 * blocks)
    {row : Nat} (rowInRange : row < 128 * blocks) (col : Fin baseOTCount) :
    deltaBit ((transposeColumns (List.ofFn columns).flatten byteRows (128 * blocks)).getD row
        Label.zero) col =
      packedBit (columns col) row := by
  rw [transposeColumns_bit _ _ _ rowInRange col.isLt, ← packedBit_take _ byteRows row (by omega)]
  exact congrArg (packedBit · row) (column_flatten columns uniform col)

section Column

variable (chosen : SelectedBy base delta selected) (sessionID : SessionID)
  (choicesLength : choices.length = byteRows)
include chosen choicesLength

theorem senderColumn_eq (col : Fin baseOTCount) :
    senderColumn p selected delta sessionID (maskMatrix p base sessionID choices byteRows)
        byteRows col =
      if deltaBit delta col then
        xorBytes (receiverColumn p base sessionID byteRows col) choices
      else
        receiverColumn p base sessionID byteRows col :=
  senderColumn_masked chosen sessionID (fun _ => choicesLength) col

theorem senderColumn_length (col : Fin baseOTCount) :
    (senderColumn p selected delta sessionID (maskMatrix p base sessionID choices byteRows)
      byteRows col).length = byteRows := by
  have own := receiverColumn_length p base sessionID byteRows col
  rw [senderColumn_eq chosen sessionID choicesLength]
  split
  · rw [xorBytes_length (own.trans choicesLength.symm), own]
  · exact own

theorem senderColumn_bit (col : Fin baseOTCount) (row : Nat) :
    packedBit (senderColumn p selected delta sessionID
        (maskMatrix p base sessionID choices byteRows) byteRows col) row =
      (packedBit (receiverColumn p base sessionID byteRows col) row ^^
        (deltaBit delta col && packedBit choices row)) := by
  have own := receiverColumn_length p base sessionID byteRows col
  rw [senderColumn_eq chosen sessionID choicesLength]
  cases deltaBit delta col
  · simp
  · simp only [Bool.true_and]
    exact packedBit_xorBytes (own.trans choicesLength.symm) row

/-- Each sender row is the receiver row, with the correlation added where the
choice bit is set. -/
theorem rows_related {blocks row : Nat} (wide : byteRows = 16 * blocks)
    (rowInRange : row < 128 * blocks) :
    (transposeColumns (senderMatrix p selected delta sessionID
        (maskMatrix p base sessionID choices byteRows) byteRows) byteRows
        (128 * blocks)).getD row Label.zero =
      (transposeColumns (receiverMatrix p base sessionID byteRows) byteRows
        (128 * blocks)).getD row Label.zero +
        if packedBit choices row then delta else 0 := by
  apply Label.ext_deltaBit
  intro bit inLabel
  have sender := matrix_row_bit _ (senderColumn_length (p := p) chosen sessionID choicesLength)
    wide rowInRange ⟨bit, inLabel⟩
  have receiver := matrix_row_bit _ (receiverColumn_length p base sessionID byteRows)
    wide rowInRange ⟨bit, inLabel⟩
  have added : deltaBit (if packedBit choices row then delta else 0) bit =
      (deltaBit delta bit && packedBit choices row) := by
    cases packedBit choices row
    · simp [deltaBit_zero inLabel]
    · simp
  rw [senderColumn_bit chosen sessionID choicesLength] at sender
  rw [deltaBit_add _ _ inLabel, added, senderMatrix, sender, receiverMatrix, receiver]

end Column

theorem checks_related (chosen : SelectedBy base delta selected) (sessionID : SessionID)
    (senderFlag receiverFlag : Bool) {padded : Nat}
    (choicesLength : choices.length = padded / 8) (chi : List Label) (col : Fin baseOTCount) :
    (repetitionColumnChecks senderFlag (senderMatrix p selected delta sessionID
        (maskMatrix p base sessionID choices (padded / 8)) (padded / 8)) padded chi).getD col
        Label.zero =
      wantedCheck delta
        (repetitionReceiverProof receiverFlag choices
          (receiverMatrix p base sessionID (padded / 8)) padded chi).1
        (repetitionReceiverProof receiverFlag choices
          (receiverMatrix p base sessionID (padded / 8)) padded chi).2 col := by
  have sender : column (senderMatrix p selected delta sessionID
      (maskMatrix p base sessionID choices (padded / 8)) (padded / 8)) (padded / 8) col = _ :=
    column_flatten _ (senderColumn_length (p := p) chosen sessionID choicesLength) col
  have receiver : column (receiverMatrix p base sessionID (padded / 8)) (padded / 8) col = _ :=
    column_flatten _ (receiverColumn_length p base sessionID (padded / 8)) col
  have own := receiverColumn_length p base sessionID (padded / 8) col
  rw [wantedCheck, repetitionReceiverProof, repetitionColumnChecks, repetitionColumnChecks,
    getD_range_map, getD_range_map, if_pos col.isLt, if_pos col.isLt, sender, receiver,
    senderColumn_eq chosen sessionID choicesLength]
  simp only [columnCheck_eq]
  cases deltaBit delta col
  · rfl
  · simp only [if_true]
    rw [combination_xorBytes (own.trans choicesLength.symm), Label.xor_eq_add]

/-! ### The four steps succeed -/

theorem checkedIndexEnd_eq {startIndex count : Nat} (indexFits : startIndex + count ≤ maxUint64) :
    checkedIndexEnd startIndex count = .ok (startIndex + count) := by
  rw [checkedIndexEnd_ok_iff]
  omega

def receiverEntries (p : Primitives) (raw : List Label) (choices : List Byte)
    (startIndex count : Nat) : List ReceiverOT :=
  (List.range count).map fun i =>
    { r := tmmoHash p (raw.getD i Label.zero) i
      choice := packedBit choices i
      index := startIndex + i }

def senderEntries (p : Primitives) (rows : List Label) (delta : Label)
    (startIndex count : Nat) : List SenderOT :=
  (List.range count).map fun i =>
    { r0 := tmmoHash p (rows.getD i Label.zero) i
      r1 := tmmoHash p ((rows.getD i Label.zero).xor delta) i
      index := startIndex + i }

variable {epoch cipherMessage choices random : List Byte} {sessionID : SessionID}
  {startIndex count : Nat} {receiverRng senderRng : RandomSource}

/-- What an honest pair of parties agrees on before the batch. -/
structure BatchAccepted (p : Primitives) (epoch cipherMessage : List Byte)
    (sessionID : SessionID) (startIndex count : Nat) : Prop where
  epochValid : validateExtensionEpoch p epoch = .ok ()
  cipherValid : validateBaseCipherForTranscript cipherMessage sessionID = .ok ()
  positive : 0 < count
  bounded : count ≤ maxExtensionOTs
  indexFits : startIndex + count ≤ maxUint64

def honestCommitment (p : Primitives) (base : Fin baseOTCount → BaseOTSeedPair)
    (epoch cipherMessage : List Byte) (sessionID : SessionID) (startIndex count : Nat)
    (choices : List Byte) : ExtensionCommitment :=
  newExtensionCommitment p epoch cipherMessage sessionID startIndex count (paddedRows count)
    (maskMatrix p base sessionID choices (paddedRows count / 8))

section Accepted

variable (base) (accepted : BatchAccepted p epoch cipherMessage sessionID startIndex count)
include accepted

theorem startExtensionReceiver_eq
    (choicesRead : readFull receiverRng 0 (paddedRows count / 8) = .ok choices) :
    startExtensionReceiver p receiverRng base epoch cipherMessage sessionID startIndex count =
      .ok ({ commitment := extensionStateCommitment
               (honestCommitment p base epoch cipherMessage sessionID startIndex count choices)
             choices := choices
             tMatrix := receiverMatrix p base sessionID (paddedRows count / 8)
             used := false },
        honestCommitment p base epoch cipherMessage sessionID startIndex count choices,
        receiverEntries p (transposeColumns (receiverMatrix p base sessionID
          (paddedRows count / 8)) (paddedRows count / 8) (paddedRows count)) choices startIndex
          count) := by
  have hashed : ∀ raw, hashReceiverOTs p raw choices startIndex count =
      .ok (receiverEntries p raw choices startIndex count) := by
    intro raw
    rw [hashReceiverOTs, checkedIndexEnd_eq accepted.indexFits]
    rfl
  rw [startExtensionReceiver, accepted.epochValid, accepted.cipherValid, extensionPaddedCount_eq accepted.positive accepted.bounded, checkedIndexEnd_eq accepted.indexFits]
  simp only [choicesRead, Except.mapError, ok_bind, hashed]
  rfl

theorem honestCommitment_sizes (choices : List Byte) :
    (honestCommitment p base epoch cipherMessage sessionID startIndex count choices).count = count ∧
      (honestCommitment p base epoch cipherMessage sessionID startIndex count
        choices).paddedCount = paddedRows count := by
  have bounds := paddedRows_bounds accepted.bounded
  constructor
  · exact Nat.mod_eq_of_lt (by omega)
  · exact Nat.mod_eq_of_lt bounds.2

theorem validateExtensionCommitment_honest (choicesLength : choices.length = paddedRows count / 8) :
    validateExtensionCommitment p epoch cipherMessage
      (honestCommitment p base epoch cipherMessage sessionID startIndex count choices) = .ok () := by
  obtain ⟨countEq, paddedEq⟩ := honestCommitment_sizes base accepted choices
  have wholeBytes : baseOTCount * paddedRows count / 8 = baseOTCount * (paddedRows count / 8) := by
    rw [paddedRows, baseOTCount]
    omega
  have matrixLength : (maskMatrix p base sessionID choices _).length = _ :=
    maskMatrix_length sessionID choicesLength
  rw [← wholeBytes] at matrixLength
  simp only [validateExtensionCommitment, eq_ok_iff, countEq]
  exact ⟨(), accepted.epochValid, (), accepted.cipherValid, _,
    extensionPaddedCount_eq accepted.positive accepted.bounded, (), not_not_intro paddedEq, _,
    checkedIndexEnd_eq accepted.indexFits, (), not_not_intro matrixLength, (),
    not_not_intro rfl, not_not_intro rfl⟩

theorem startExtensionSender_eq (senderFlag : Bool) (selected : Fin baseOTCount → Label)
    (nonzero : delta ≠ Label.zero) (choicesLength : choices.length = paddedRows count / 8)
    (challengeRead : readFull senderRng 0
      (extensionChallengeCount (paddedRows count) * 16) = .ok random) :
    let commitment :=
      honestCommitment p base epoch cipherMessage sessionID startIndex count choices
    let chi := challengeLabels random (extensionChallengeCount (paddedRows count))
    let qMatrix := senderMatrix p selected delta sessionID
      (maskMatrix p base sessionID choices (paddedRows count / 8)) (paddedRows count / 8)
    startExtensionSender p senderFlag senderRng selected delta epoch cipherMessage commitment =
      .ok ({ commitment := extensionStateCommitment commitment
             challengeTranscript := (newExtensionChallenge p commitment chi).transcript
             delta := delta
             qChecks := repetitionColumnChecks senderFlag qMatrix (paddedRows count) chi
             rows := transposeColumns qMatrix (paddedRows count / 8) (paddedRows count)
             used := false },
        newExtensionChallenge p commitment chi) := by
  intro commitment chi qMatrix
  have valid := validateExtensionCommitment_honest base accepted choicesLength
  have paddedEq := (honestCommitment_sizes base accepted choices).2
  rw [startExtensionSender, rejectIf_of_not nonzero, valid]
  simp only [commitment, paddedEq, challengeRead]
  rfl

end Accepted

theorem validateExtensionChallenge_honest (commitment : ExtensionCommitment) (chi : List Label)
    (chiLength : chi.length = extensionChallengeCount commitment.paddedCount) :
    validateExtensionChallenge p (extensionStateCommitment commitment)
      (newExtensionChallenge p commitment chi) = .ok () := by
  simp only [validateExtensionChallenge, eq_ok_iff]
  refine ⟨(), ?_, (), not_not_intro chiLength, not_not_intro rfl⟩
  rintro (differs | differs) <;> exact differs rfl

theorem finishExtensionReceiver_eq (receiverFlag : Bool) {state : ExtensionReceiverState}
    {challenge : ExtensionChallenge} (unused : state.used = false)
    (valid : validateExtensionChallenge p state.commitment challenge = .ok ()) :
    (finishExtensionReceiver p receiverFlag state challenge).2 =
      .ok { sessionID := state.commitment.sessionID
            transcript := challenge.transcript
            x := (repetitionReceiverProof receiverFlag state.choices state.tMatrix
              state.commitment.paddedCount challenge.chi).1
            t := (repetitionReceiverProof receiverFlag state.choices state.tMatrix
              state.commitment.paddedCount challenge.chi).2 } := by
  rw [finishExtensionReceiver, unused]
  simp only [valid]
  rfl

theorem finishExtensionSender_eq {state : ExtensionSenderState} {proof : ExtensionProof}
    (unused : state.used = false) (sameSession : proof.sessionID = state.commitment.sessionID)
    (sameTranscript : proof.transcript = state.challengeTranscript)
    (complete : state.rows.length = state.commitment.paddedCount)
    (checked : ∀ col : Fin baseOTCount, state.qChecks.getD col Label.zero =
      wantedCheck state.delta proof.x proof.t col)
    (indexFits : state.commitment.startIndex + state.commitment.count ≤ maxUint64) :
    (finishExtensionSender p state proof).2 =
      .ok (senderEntries p state.rows state.delta state.commitment.startIndex
        state.commitment.count) := by
  have allChecked : ¬ ∃ col ∈ List.range baseOTCount,
      (state.qChecks.getD col Label.zero).put ≠
        (wantedCheck state.delta proof.x proof.t col).put := by
    rintro ⟨col, inRange, differs⟩
    exact differs (congrArg Label.put (checked ⟨col, mem_range.mp inRange⟩))
  have sameTranscripts : ¬ (proof.sessionID ≠ state.commitment.sessionID ∨
      proof.transcript ≠ state.challengeTranscript) := by
    rintro (differs | differs)
    · exact differs sameSession
    · exact differs sameTranscript
  rw [finishExtensionSender, unused]
  rw [rejectIf_of_not sameTranscripts, rejectIf_of_not (not_not_intro complete), rejectIf_of_not allChecked, hashSenderOTs, checkedIndexEnd_eq indexFits]
  rfl

theorem entries_correlated {rows raw : List Label}
    (related : ∀ i, i < count → rows.getD i Label.zero =
      raw.getD i Label.zero + if packedBit choices i then delta else 0) :
    List.Forall₂ Correlated (senderEntries p rows delta startIndex count)
      (receiverEntries p raw choices startIndex count) := by
  rw [senderEntries, receiverEntries, forall₂_map_left_iff, forall₂_map_right_iff, forall₂_same]
  intro i inRange
  have row := related i (mem_range.mp inRange)
  refine ⟨rfl, ?_⟩
  rw [row]
  cases packedBit choices i
  · simp
  · simp only [if_true]
    rw [Label.xor_eq_add, add_assoc, Label.add_self, add_zero]

/-! ### The run -/

/-- Both lists have the requested entries at consecutive indices, the
receiver's choices are the ones it drew, and entries at one position match. -/
structure EntriesAgree (startIndex count : Nat) (choices : List Byte) (sent : List SenderOT)
    (received : List ReceiverOT) : Prop where
  sentIndices : sent.map SenderOT.index = List.range' startIndex count
  receivedIndices : received.map ReceiverOT.index = List.range' startIndex count
  choiceBits : received.map ReceiverOT.choice = (List.range count).map (packedBit choices)
  paired : List.Forall₂ Correlated sent received

theorem readFull_length {rng : RandomSource} {position size : Nat} {bytes : List Byte}
    (read : readFull rng position size = .ok bytes) : bytes.length = size := by
  induction size generalizing position bytes with
  | zero =>
    cases read
    rfl
  | succ size ih =>
    rw [readFull, bind_eq_ok_iff] at read
    obtain ⟨byte, _, rest⟩ := read
    rw [bind_eq_ok_iff] at rest
    obtain ⟨tail, tailRead, whole⟩ := rest
    rw [pure_eq_ok_iff] at whole
    rw [← whole, length_cons, ih tailRead]

theorem extensionRun_eq (senderFlag receiverFlag : Bool) (base : Fin baseOTCount → BaseOTSeedPair)
    (nonzero : delta ≠ Label.zero) (chosen : SelectedBy base delta selected)
    (accepted : BatchAccepted p epoch cipherMessage sessionID startIndex count)
    (choicesRead : readFull receiverRng 0 (paddedRows count / 8) = .ok choices)
    (challengeRead : readFull senderRng 0
      (extensionChallengeCount (paddedRows count) * 16) = .ok random) :
    let byteRows := paddedRows count / 8
    let qMatrix := senderMatrix p selected delta sessionID
      (maskMatrix p base sessionID choices byteRows) byteRows
    let tMatrix := receiverMatrix p base sessionID byteRows
    extensionRun p senderFlag receiverFlag senderRng receiverRng base selected delta epoch
        cipherMessage sessionID startIndex count =
      .ok (senderEntries p (transposeColumns qMatrix byteRows (paddedRows count)) delta
          startIndex count,
        receiverEntries p (transposeColumns tMatrix byteRows (paddedRows count)) choices
          startIndex count) := by
  have choicesLength := readFull_length choicesRead
  obtain ⟨countEq, paddedEq⟩ := honestCommitment_sizes base accepted choices
  have sender := startExtensionSender_eq base accepted senderFlag selected nonzero choicesLength
    challengeRead
  rw [extensionRun, startExtensionReceiver_eq base accepted choicesRead, ok_bind]
  dsimp only
  rw [sender, ok_bind]
  generalize chiEq : challengeLabels random (extensionChallengeCount (paddedRows count)) = chi
  have chiLength : chi.length = extensionChallengeCount (paddedRows count) := by
    rw [← chiEq, challengeLabels, length_map, length_range]
  generalize commitmentEq : honestCommitment p base epoch cipherMessage sessionID startIndex
    count choices = commitment at countEq paddedEq ⊢
  rw [finishExtensionReceiver_eq receiverFlag rfl (validateExtensionChallenge_honest commitment chi
    (chiLength.trans (congrArg _ paddedEq.symm))), ok_bind, finishExtensionSender_eq]
  · subst commitmentEq
    dsimp only [extensionStateCommitment]
    rw [countEq]
    rfl
  · rfl
  · rfl
  · rfl
  · exact (transposeColumns_length ..).trans paddedEq.symm
  · dsimp only [extensionStateCommitment]
    rw [paddedEq]
    exact checks_related chosen sessionID senderFlag receiverFlag choicesLength chi
  · subst commitmentEq
    dsimp only [extensionStateCommitment]
    rw [countEq]
    exact accepted.indexFits

theorem entries_agree {rows raw : List Label} (related : ∀ i, i < count → rows.getD i Label.zero =
      raw.getD i Label.zero + if packedBit choices i then delta else 0) :
    EntriesAgree startIndex count choices (senderEntries p rows delta startIndex count)
      (receiverEntries p raw choices startIndex count) where
  sentIndices := by
    rw [senderEntries, map_map, range'_eq_map_range]
    rfl
  receivedIndices := by
    rw [receiverEntries, map_map, range'_eq_map_range]
    rfl
  choiceBits := by
    rw [receiverEntries, map_map]
    rfl
  paired := entries_correlated related

theorem extensionRun_correct (p : Primitives) (senderFlag receiverFlag : Bool)
    (base : Fin baseOTCount → BaseOTSeedPair) (nonzero : delta ≠ Label.zero)
    (chosen : SelectedBy base delta selected)
    (accepted : BatchAccepted p epoch cipherMessage sessionID startIndex count)
    (choicesRead : readFull receiverRng 0 (paddedRows count / 8) = .ok choices)
    (challengeRead : readFull senderRng 0
      (extensionChallengeCount (paddedRows count) * 16) = .ok random) :
    ∃ sent received,
      extensionRun p senderFlag receiverFlag senderRng receiverRng base selected delta epoch
        cipherMessage sessionID startIndex count = .ok (sent, received) ∧
      EntriesAgree startIndex count choices sent received := by
  obtain ⟨enough, _⟩ := paddedRows_bounds accepted.bounded
  refine ⟨_, _, extensionRun_eq senderFlag receiverFlag base nonzero chosen accepted choicesRead
    challengeRead, entries_agree ?_⟩
  intro i inside
  apply rows_related chosen sessionID (readFull_length choicesRead)
  · rw [paddedRows]
    omega
  · rw [← paddedRows]
    omega

/-- A run that returns had a count and an index range that both parties
accept. -/
theorem extensionRun_accepts {senderFlag receiverFlag : Bool} {requested : Int}
    {result : List SenderOT × List ReceiverOT}
    (returned : extensionRun p senderFlag receiverFlag senderRng receiverRng base selected delta
      epoch cipherMessage sessionID startIndex requested = .ok result) :
    0 < requested ∧ requested ≤ maxExtensionOTs ∧ startIndex + requested.toNat ≤ maxUint64 := by
  simp only [extensionRun, startExtensionReceiver, extensionPaddedCount, eq_ok_iff, checkedIndexEnd_ok_iff] at returned
  omega

end Honest

/-! ### A small batch -/

def samplePrimitives : Primitives :=
  { sha256 := fun _ => Vector.replicate 32 0
    aes := fun _ block => ⟨block.d1, block.d0 + 1⟩
    validUtf8 := fun _ => true }

def sampleBase (col : Fin baseOTCount) : BaseOTSeedPair :=
  { zero := ⟨BitVec.ofNat 64 col, 0⟩, one := ⟨BitVec.ofNat 64 col, 1⟩ }

def sampleDelta : Label := ⟨5, 9⟩

def sampleSelected (col : Fin baseOTCount) : Label :=
  if deltaBit sampleDelta col then (sampleBase col).one else (sampleBase col).zero

def sampleEpoch : List Byte := ascii "kos2:00"

def sampleCipherMessage : List Byte := ascii "BOT1" ++ List.replicate 4128 0

def sampleSession : SessionID := Vector.replicate 32 0

def countingSource : RandomSource := fun position => .ok (BitVec.ofNat 8 position)

theorem sample_accepted {startIndex count : Nat} (positive : 0 < count)
    (bounded : count ≤ maxExtensionOTs) (indexFits : startIndex + count ≤ maxUint64) :
    BatchAccepted samplePrimitives sampleEpoch sampleCipherMessage sampleSession startIndex
      count where
  epochValid := by decide
  cipherValid := by decide +kernel
  positive := positive
  bounded := bounded
  indexFits := indexFits

theorem extensionRun_correct_sample :
    ∃ sent received,
      extensionRun samplePrimitives true false countingSource countingSource sampleBase
        sampleSelected sampleDelta sampleEpoch sampleCipherMessage sampleSession 7 129 =
          .ok (sent, received) ∧
      EntriesAgree 7 129 ((List.range 48).map (BitVec.ofNat 8)) sent received :=
  extensionRun_correct samplePrimitives true false sampleBase (by decide) (fun _ => rfl)
    (sample_accepted (by decide) (by decide) (by decide)) (by decide +kernel)
    (show readFull countingSource 0 32 = .ok ((List.range 32).map (BitVec.ofNat 8)) by
      decide +kernel)

/-- No entries for an empty batch, for one above the limit, or for one at the
last index. -/
theorem extensionRun_not_always_accepted :
    (∀ result, extensionRun samplePrimitives true false countingSource countingSource sampleBase
      sampleSelected sampleDelta sampleEpoch sampleCipherMessage sampleSession 7 0 ≠
        .ok result) ∧
    (∀ result, extensionRun samplePrimitives true false countingSource countingSource sampleBase
      sampleSelected sampleDelta sampleEpoch sampleCipherMessage sampleSession 7
        (2 ^ 24 + 1) ≠ .ok result) ∧
    (∀ result, extensionRun samplePrimitives true false countingSource countingSource sampleBase
      sampleSelected sampleDelta sampleEpoch sampleCipherMessage sampleSession
        (2 ^ 64 - 1) 1 ≠ .ok result) := by
  refine ⟨?_, ?_, ?_⟩
  · intro result returned
    have bounds := extensionRun_accepts returned
    omega
  · intro result returned
    have bounds := extensionRun_accepts returned
    rw [maxExtensionOTs] at bounds
    omega
  · intro result returned
    have bounds := extensionRun_accepts returned
    rw [maxUint64] at bounds
    omega

end ReclaimTee.Mpc
