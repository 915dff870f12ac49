/-
The transposition of the column-major OT-extension matrix into one label per
row: the six-pass 64-by-64 block exchange, its assembly into 128-by-128 blocks,
and the sweep over any number of such blocks.
-/

import ReclaimTee.DeltaSwap
import ReclaimTee.Mpc.Bits
import ReclaimTee.Mpc.Label

namespace ReclaimTee.Mpc

open ReclaimTee.DeltaSwap List BitVec

def baseOTCount : Nat := 128

def swapRows (mask : BitVec 64) (width : Nat) (data : List (BitVec 64)) (k : Nat) :
    List (BitVec 64) :=
  let t := (data.getD k 0 ^^^ data.getD (k + width) 0 >>> width) &&& mask
  (data.set k (data.getD k 0 ^^^ t)).set (k + width) (data.getD (k + width) 0 ^^^ t <<< width)

/-- The values the inner loop gives to `k`, from `k` on. -/
def swapStarts (width k : Nat) : Nat → List Nat
  | 0 => []
  | fuel + 1 =>
    if k < 64 then
      k :: swapStarts width (Nat.ldiff (k + width + 1) width) fuel
    else
      []

def swapPass (mask : BitVec 64) (width : Nat) (data : List (BitVec 64)) :
    List (BitVec 64) :=
  (swapStarts width 0 64).foldl (swapRows mask width) data

def swapPasses : Nat → Nat → BitVec 64 → List (BitVec 64) → List (BitVec 64)
  | 0, _, _, data => data
  | fuel + 1, width, mask, data =>
    if width = 0 then
      data
    else
      let halved := width >>> 1
      swapPasses fuel halved (if halved = 0 then mask else mask ^^^ mask <<< halved)
        (swapPass mask width data)

def transpose64 (data : List (BitVec 64)) : List (BitVec 64) :=
  swapPasses 64 32 0x00000000ffffffff data

def transpose128 (data : List Label) : List Label :=
  let a := transpose64 ((data.take 64).map Label.d0)
  let b := transpose64 ((data.take 64).map Label.d1)
  let c := transpose64 ((data.drop 64).map Label.d0)
  let d := transpose64 ((data.drop 64).map Label.d1)
  let rowsOf (low high : List (BitVec 64)) :=
    (List.range 64).map fun i =>
      Label.mk (low.getD (63 - i) 0).reverse (high.getD (63 - i) 0).reverse
  rowsOf a c ++ rowsOf b d

def littleEndianWord (bytes : List Byte) : BitVec 64 :=
  bytes.foldr (fun byte word => (word <<< 8) ||| byte.setWidth 64) 0

def columnBlock (matrix : List Byte) (byteRows byteOffset col : Nat) : Label :=
  let src := matrix.drop (col * byteRows + byteOffset)
  { d0 := littleEndianWord (src.take 8), d1 := littleEndianWord ((src.drop 8).take 8) }

/-- `rows`, the length of the destination, is a multiple of 128. -/
def transposeColumns (matrix : List Byte) (byteRows rows : Nat) : List Label :=
  (List.range (rows / baseOTCount)).flatMap fun block =>
    transpose128 ((List.range baseOTCount).map
      (columnBlock matrix byteRows (block * baseOTCount / 8)))

def deltaBit (delta : Label) (bit : Nat) : Bool :=
  if bit < 64 then
    delta.d0 &&& (1#64 <<< bit) != 0
  else
    delta.d1 &&& (1#64 <<< (bit - 64)) != 0

/-! ### Sixty-four rows -/

def wordBits (data : List (BitVec 64)) : BitMatrix := fun row col =>
  (data.getD row 0).getLsbD col

/-- Bit positions whose bit `bit` is clear. -/
def MaskFor (bit : Nat) (mask : BitVec 64) : Prop :=
  ∀ position : Fin 64, mask.getLsbD position = !position.val.testBit bit

instance (bit : Nat) (mask : BitVec 64) : Decidable (MaskFor bit mask) :=
  inferInstanceAs (Decidable (∀ _ : Fin 64, _))

private theorem clear_bit_positions : ∀ bit : Fin 6, ∀ value : Fin 64,
    value.val.testBit bit = false →
      value.val + 2 ^ bit.val = value.val ^^^ 2 ^ bit.val ∧
        (2 ^ bit.val ≤ value.val → (value.val - 2 ^ bit.val).testBit bit = true) := by
  decide +kernel

private theorem set_bit_positions : ∀ bit : Fin 6, ∀ value : Fin 64,
    value.val.testBit bit = true →
      2 ^ bit.val ≤ value.val ∧ value.val - 2 ^ bit.val = value.val ^^^ 2 ^ bit.val ∧
        (value.val ^^^ 2 ^ bit.val).testBit bit = false := by
  decide +kernel

private theorem partner_lt (bit : Fin 6) (value : Fin 64) : value.val ^^^ 2 ^ bit.val < 64 :=
  Nat.xor_lt_two_pow value.isLt (Nat.pow_lt_pow_right (by omega) bit.isLt)

private theorem swapStarts_eq : ∀ bit : Fin 6,
    swapStarts (2 ^ bit.val) 0 64 = (List.range 64).filter fun k => !k.testBit bit.val := by
  decide +kernel

/-- The first row of the pair that a pass exchanges `row` in. -/
def pairStart (bit row : Nat) : Nat :=
  if row.testBit bit then row ^^^ 2 ^ bit else row

theorem pairStart_partner (bit row : Nat) :
    pairStart bit (row ^^^ 2 ^ bit) = pairStart bit row := by
  rw [pairStart, pairStart, Nat.testBit_xor]
  cases row.testBit bit <;> simp

def exchangedRow (mask : BitVec 64) (bit : Nat) (data : List (BitVec 64)) (row : Nat) :
    BitVec 64 :=
  let own := data.getD row 0
  let other := data.getD (row ^^^ 2 ^ bit) 0
  if row.testBit bit then
    own ^^^ ((other ^^^ own >>> 2 ^ bit) &&& mask) <<< 2 ^ bit
  else
    own ^^^ ((own ^^^ other >>> 2 ^ bit) &&& mask)

theorem swapRows_length (mask : BitVec 64) (width : Nat) (data : List (BitVec 64)) (k : Nat) :
    (swapRows mask width data k).length = data.length := by
  rw [swapRows, length_set, length_set]

theorem swapRows_row (mask : BitVec 64) (bit : Fin 6) (data : List (BitVec 64))
    (full : data.length = 64) (k row : Fin 64) (start : k.val.testBit bit = false) :
    (swapRows mask (2 ^ bit.val) data k).getD row 0 =
      if pairStart bit row = k then exchangedRow mask bit data row else data.getD row 0 := by
  obtain ⟨paired, _⟩ := clear_bit_positions bit k start
  have partnerInRange : k.val ^^^ 2 ^ bit.val < data.length := by
    rw [full]
    exact partner_lt bit k
  rw [swapRows, paired]
  by_cases atPartner : k.val ^^^ 2 ^ bit.val = row.val
  · have upper : row.val.testBit bit = true := by
      rw [← atPartner, Nat.testBit_xor, start]
      simp
    have undone : row.val ^^^ 2 ^ bit.val = k.val := by
      rw [← atPartner, Nat.xor_assoc, Nat.xor_self, Nat.xor_zero]
    rw [atPartner, getD_set_self (by rw [length_set, ← atPartner]; exact partnerInRange),
      pairStart, exchangedRow]
    simp only [upper, if_true, undone]
  · rw [getD_set_other atPartner]
    by_cases atStart : k = row
    · subst atStart
      rw [getD_set_self (by rw [full]; exact k.isLt), pairStart, exchangedRow]
      simp only [start, Bool.false_eq_true, if_false, if_true]
    · have apart : k.val ≠ row.val := fun same => atStart (Fin.ext same)
      have unpaired : pairStart bit row ≠ k.val := by
        rw [pairStart]
        split
        · intro same
          apply atPartner
          rw [← same, Nat.xor_assoc, Nat.xor_self, Nat.xor_zero]
        · exact fun same => apart same.symm
      rw [getD_set_other apart, if_neg unpaired]

theorem lowerRow_bit (mask own other : BitVec 64) (width position : Nat) :
    (own ^^^ ((own ^^^ other >>> width) &&& mask)).getLsbD position =
      if mask.getLsbD position then other.getLsbD (width + position)
      else own.getLsbD position := by
  rw [getLsbD_xor, getLsbD_and]
  cases mask.getLsbD position <;> simp

theorem upperRow_bit (mask own other : BitVec 64) (width position : Nat) (inWord : position < 64) :
    (own ^^^ ((other ^^^ own >>> width) &&& mask) <<< width).getLsbD position =
      if width ≤ position ∧ mask.getLsbD (position - width) then
        other.getLsbD (position - width)
      else
        own.getLsbD position := by
  rw [getLsbD_xor, getLsbD_shiftLeft, getLsbD_and, getLsbD_xor, getLsbD_ushiftRight]
  by_cases wide : width ≤ position
  · have restored : width + (position - width) = position := by omega
    rw [restored]
    cases mask.getLsbD (position - width) <;> cases own.getLsbD position <;>
      simp [wide, inWord]
  · simp [Nat.lt_of_not_le wide]

theorem exchangedRow_bits {mask : BitVec 64} {bit : Fin 6} (masked : MaskFor bit mask)
    (data : List (BitVec 64)) (row col : Fin 64) :
    (exchangedRow mask bit data row).getLsbD col = exchange bit (wordBits data) row col := by
  rw [exchangedRow, exchange]
  cases rowBit : row.val.testBit bit
  · simp only [Bool.false_eq_true, if_false, lowerRow_bit, masked col]
    cases colBit : col.val.testBit bit
    · obtain ⟨shifted, _⟩ := clear_bit_positions bit col colBit
      rw [Nat.add_comm, shifted]
      rfl
    · rfl
  · simp only [if_true, upperRow_bit _ _ _ _ _ col.isLt]
    cases colBit : col.val.testBit bit
    · obtain ⟨_, above⟩ := clear_bit_positions bit col colBit
      have blocked : ¬ (2 ^ bit.val ≤ col.val ∧ mask.getLsbD (col.val - 2 ^ bit.val) = true) := by
        rintro ⟨wide, opened⟩
        have maskBit := masked ⟨col.val - 2 ^ bit.val, Nat.sub_lt_of_lt col.isLt⟩
        rw [above wide, opened] at maskBit
        cases maskBit
      rw [if_neg blocked]
      rfl
    · obtain ⟨wide, shifted, cleared⟩ := set_bit_positions bit col colBit
      have maskBit := masked ⟨col.val - 2 ^ bit.val, Nat.sub_lt_of_lt col.isLt⟩
      dsimp only at maskBit
      rw [shifted, cleared] at maskBit
      rw [shifted, if_pos ⟨wide, maskBit⟩]
      rfl

theorem foldl_swapRows_row (mask : BitVec 64) (bit : Fin 6) (starts : List Nat)
    (distinct : starts.Nodup) (aligned : ∀ k ∈ starts, k < 64 ∧ k.testBit bit = false)
    (data : List (BitVec 64)) (full : data.length = 64) (row : Fin 64) :
    (starts.foldl (swapRows mask (2 ^ bit.val)) data).getD row 0 =
      if pairStart bit row ∈ starts then exchangedRow mask bit data row
      else data.getD row 0 := by
  induction starts generalizing data with
  | nil => simp
  | cons k rest ih =>
    obtain ⟨fresh, restDistinct⟩ := nodup_cons.mp distinct
    obtain ⟨kInRange, kStart⟩ := aligned k (mem_cons_self ..)
    have oneStep := swapRows_row mask bit data full ⟨k, kInRange⟩
    have stepFull : (swapRows mask (2 ^ bit.val) data k).length = 64 := by
      rw [swapRows_length, full]
    rw [foldl_cons, ih restDistinct
      (fun other member => aligned other (mem_cons_of_mem _ member)) _ stepFull]
    by_cases later : pairStart bit row ∈ rest
    · have notNow : pairStart bit row ≠ k := fun same => fresh (same ▸ later)
      have ownRow := oneStep row kStart
      have partnerRow := oneStep ⟨_, partner_lt bit row⟩ kStart
      rw [if_neg notNow] at ownRow
      rw [pairStart_partner, if_neg notNow] at partnerRow
      rw [if_pos later, if_pos (mem_cons_of_mem _ later), exchangedRow, exchangedRow,
        ownRow, partnerRow]
    · rw [oneStep row kStart]
      simp [later]

theorem pairStart_aligned (bit : Fin 6) (row : Fin 64) :
    pairStart bit row < 64 ∧ (pairStart bit row).testBit bit = false := by
  rw [pairStart]
  cases rowBit : row.val.testBit bit
  · exact ⟨row.isLt, rowBit⟩
  · obtain ⟨_, _, cleared⟩ := set_bit_positions bit row rowBit
    exact ⟨partner_lt bit row, cleared⟩

theorem swapPass_bits {mask : BitVec 64} (bit : Fin 6) (masked : MaskFor bit mask)
    (data : List (BitVec 64)) (full : data.length = 64) (row col : Fin 64) :
    wordBits (swapPass mask (2 ^ bit.val) data) row col = exchange bit (wordBits data) row col := by
  have listed : ∀ k, k ∈ swapStarts (2 ^ bit.val) 0 64 ↔ k < 64 ∧ k.testBit bit = false := by
    intro k
    simp [swapStarts_eq bit]
  have distinct : (swapStarts (2 ^ bit.val) 0 64).Nodup := by
    rw [swapStarts_eq bit]
    exact nodup_range.filter _
  have swapped := foldl_swapRows_row mask bit _ distinct (fun k => (listed k).mp) data full row
  rw [if_pos ((listed _).mpr (pairStart_aligned bit row))] at swapped
  rw [wordBits, swapPass, swapped, exchangedRow_bits masked]

theorem swapPass_length (mask : BitVec 64) (width : Nat) (data : List (BitVec 64)) :
    (swapPass mask width data).length = data.length := by
  rw [swapPass]
  generalize swapStarts width 0 64 = starts
  induction starts generalizing data with
  | nil => rfl
  | cons k rest ih =>
    rw [foldl_cons, ih, swapRows_length]

/-- The rows of `data` hold `matrix`. -/
structure Holds (data : List (BitVec 64)) (matrix : BitMatrix) : Prop where
  full : data.length = 64
  reads : ∀ row col : Fin 64, wordBits data row col = matrix row col

theorem Holds.pass {data : List (BitVec 64)} {matrix : BitMatrix} (holds : Holds data matrix)
    (bit : Fin 6) {mask : BitVec 64} (masked : MaskFor bit mask) :
    Holds (swapPass mask (2 ^ bit.val) data) (exchange bit matrix) := by
  refine ⟨by rw [swapPass_length, holds.full], ?_⟩
  intro row col
  have partner := holds.reads ⟨_, partner_lt bit row⟩ ⟨_, partner_lt bit col⟩
  rw [swapPass_bits bit masked data holds.full, exchange, exchange]
  split
  · exact partner
  · exact holds.reads row col

theorem transpose64_eq_passes (data : List (BitVec 64)) :
    transpose64 data =
      swapPass 0x5555555555555555 (2 ^ 0) (swapPass 0x3333333333333333 (2 ^ 1)
        (swapPass 0x0f0f0f0f0f0f0f0f (2 ^ 2) (swapPass 0x00ff00ff00ff00ff (2 ^ 3)
          (swapPass 0x0000ffff0000ffff (2 ^ 4) (swapPass 0x00000000ffffffff (2 ^ 5) data))))) := by
  simp [transpose64, swapPasses]

theorem transpose64_holds (data : List (BitVec 64)) (full : data.length = 64) :
    Holds (transpose64 data) (exchangeAll [5, 4, 3, 2, 1, 0] (wordBits data)) := by
  have start : Holds data (wordBits data) := ⟨full, fun _ _ => rfl⟩
  rw [transpose64_eq_passes]
  have after5 := start.pass 5 (show MaskFor 5 0x00000000ffffffff by decide +kernel)
  have after4 := after5.pass 4 (show MaskFor 4 0x0000ffff0000ffff by decide +kernel)
  have after3 := after4.pass 3 (show MaskFor 3 0x00ff00ff00ff00ff by decide +kernel)
  have after2 := after3.pass 2 (show MaskFor 2 0x0f0f0f0f0f0f0f0f by decide +kernel)
  have after1 := after2.pass 1 (show MaskFor 1 0x3333333333333333 by decide +kernel)
  exact after1.pass 0 (show MaskFor 0 0x5555555555555555 by decide +kernel)

theorem transpose64_bits (data : List (BitVec 64)) (full : data.length = 64) {row col : Nat}
    (rowInRange : row < 64) (colInRange : col < 64) :
    wordBits (transpose64 data) row col = wordBits data (63 - col) (63 - row) := by
  have held := (transpose64_holds data full).reads ⟨row, rowInRange⟩ ⟨col, colInRange⟩
  have covers : ∀ position, position ∈ [5, 4, 3, 2, 1, 0] ↔ position < 6 := by
    intro position
    simp only [mem_cons, not_mem_nil, or_false]
    omega
  rw [held]
  exact exchangeAll_reflects (by decide) covers (wordBits data) rowInRange colInRange

/-! ### Labels -/

theorem deltaBit_low (label : Label) {bit : Nat} (low : bit < 64) :
    deltaBit label bit = label.d0.getLsbD bit := by
  rw [deltaBit, if_pos low, testMask_eq_getLsbD _ _ low]

theorem deltaBit_high (label : Label) {bit : Nat} (inWord : bit < 64) :
    deltaBit label (64 + bit) = label.d1.getLsbD bit := by
  rw [deltaBit, if_neg (by omega), Nat.add_sub_cancel_left, testMask_eq_getLsbD _ _ inWord]

theorem Label.ext_deltaBit {left right : Label}
    (agree : ∀ bit, bit < 128 → deltaBit left bit = deltaBit right bit) : left = right := by
  ext position inWord
  · have low := agree position (by omega)
    rw [deltaBit_low _ inWord, deltaBit_low _ inWord] at low
    rwa [← getLsbD_eq_getElem, ← getLsbD_eq_getElem]
  · have high := agree (64 + position) (by omega)
    rw [deltaBit_high _ inWord, deltaBit_high _ inWord] at high
    rwa [← getLsbD_eq_getElem, ← getLsbD_eq_getElem]

theorem deltaBit_add (left right : Label) {bit : Nat} (inLabel : bit < 128) :
    deltaBit (left + right) bit = (deltaBit left bit ^^ deltaBit right bit) := by
  rw [← Label.xor_eq_add]
  by_cases low : bit < 64
  · rw [deltaBit_low _ low, deltaBit_low _ low, deltaBit_low _ low, Label.xor, getLsbD_xor]
  · obtain ⟨bit, rfl⟩ : ∃ above, bit = 64 + above := ⟨bit - 64, by omega⟩
    have inHalf : bit < 64 := by omega
    rw [deltaBit_high _ inHalf, deltaBit_high _ inHalf, deltaBit_high _ inHalf, Label.xor,
      getLsbD_xor]

theorem quadrant_bit (words : List (BitVec 64)) (full : words.length = 64) {row col : Nat}
    (rowInRange : row < 64) (colInRange : col < 64) :
    ((transpose64 words).getD (63 - row) 0).reverse.getLsbD col =
      (words.getD col 0).getLsbD row := by
  have reflected := transpose64_bits words full (show 63 - row < 64 by omega)
    (show 63 - col < 64 by omega)
  rw [show 63 - (63 - row) = row by omega, show 63 - (63 - col) = col by omega] at reflected
  rw [getLsbD_reverse, getMsbD_eq_getLsbD, decide_eq_true colInRange]
  exact reflected

theorem transpose128_length (data : List Label) : (transpose128 data).length = 128 := by
  simp [transpose128]

theorem getD_map_d0 (labels : List Label) (position : Nat) :
    (labels.map Label.d0).getD position 0 = (labels.getD position Label.zero).d0 :=
  getD_map labels Label.zero Label.d0

theorem getD_map_d1 (labels : List Label) (position : Nat) :
    (labels.map Label.d1).getD position 0 = (labels.getD position Label.zero).d1 :=
  getD_map labels Label.zero Label.d1

theorem transpose128_lower (data : List Label) {row : Nat} (lower : row < 64) :
    (transpose128 data).getD row Label.zero =
      ⟨((transpose64 ((data.take 64).map Label.d0)).getD (63 - row) 0).reverse,
        ((transpose64 ((data.drop 64).map Label.d0)).getD (63 - row) 0).reverse⟩ := by
  rw [transpose128, getD_append _ _ _ _ (by simpa using lower), getD_range_map, if_pos lower]

theorem transpose128_upper (data : List Label) {row : Nat} (inHalf : row < 64) :
    (transpose128 data).getD (64 + row) Label.zero =
      ⟨((transpose64 ((data.take 64).map Label.d1)).getD (63 - row) 0).reverse,
        ((transpose64 ((data.drop 64).map Label.d1)).getD (63 - row) 0).reverse⟩ := by
  rw [transpose128, getD_append_right _ _ _ _ (by simp), length_map,
    length_range, Nat.add_sub_cancel_left, getD_range_map, if_pos inHalf]

theorem transpose128_bits (data : List Label) (full : data.length = 128) {row col : Nat}
    (rowInRange : row < 128) (colInRange : col < 128) :
    deltaBit ((transpose128 data).getD row Label.zero) col =
      deltaBit (data.getD col Label.zero) row := by
  have lowFull : (data.take 64).length = 64 := by simp [full]
  have highFull : (data.drop 64).length = 64 := by simp [full]
  by_cases lower : row < 64
  · rw [transpose128_lower data lower, deltaBit_low _ lower]
    by_cases left : col < 64
    · rw [deltaBit_low _ left, quadrant_bit _ (by simpa using lowFull) lower left, getD_map_d0,
        getD_take _ _ _ _ left]
    · obtain ⟨col, rfl⟩ : ∃ inHalf, col = 64 + inHalf := ⟨col - 64, by omega⟩
      rw [deltaBit_high _ (by omega), quadrant_bit _ (by simpa using highFull) lower (by omega),
        getD_map_d0, getD_drop]
  · obtain ⟨row, rfl⟩ : ∃ inHalf, row = 64 + inHalf := ⟨row - 64, by omega⟩
    have inHalf : row < 64 := by omega
    rw [transpose128_upper data inHalf, deltaBit_high _ inHalf]
    by_cases left : col < 64
    · rw [deltaBit_low _ left, quadrant_bit _ (by simpa using lowFull) inHalf left, getD_map_d1,
        getD_take _ _ _ _ left]
    · obtain ⟨col, rfl⟩ : ∃ inHalf, col = 64 + inHalf := ⟨col - 64, by omega⟩
      rw [deltaBit_high _ (by omega),
        quadrant_bit _ (by simpa using highFull) inHalf (by omega), getD_map_d1, getD_drop]

/-! ### Packed columns -/

theorem littleEndianWord_bit (bytes : List Byte) {position : Nat} (inWord : position < 64) :
    (littleEndianWord bytes).getLsbD position = packedBit bytes position := by
  induction bytes generalizing position with
  | nil =>
    simp [littleEndianWord, packedBit, byteBit]
  | cons byte rest ih =>
    have unfolded : littleEndianWord (byte :: rest) =
        (littleEndianWord rest <<< 8) ||| byte.setWidth 64 := rfl
    rw [unfolded, getLsbD_or, getLsbD_shiftLeft]
    by_cases inByte : position < 8
    · rw [packedBit_cons_low byte rest inByte, byteBit_eq_getLsbD _ _ inByte]
      simp [inByte, inWord]
    · obtain ⟨position, rfl⟩ : ∃ inRest, position = 8 + inRest := ⟨position - 8, by omega⟩
      rw [packedBit_cons_high, ← ih (by omega)]
      simp [inWord]

theorem columnBlock_bit (matrix : List Byte) (byteRows byteOffset col : Nat) {bit : Nat}
    (inBlock : bit < 128) :
    deltaBit (columnBlock matrix byteRows byteOffset col) bit =
      packedBit (matrix.drop (col * byteRows)) (8 * byteOffset + bit) := by
  have fromColumn : matrix.drop (col * byteRows + byteOffset) =
      (matrix.drop (col * byteRows)).drop byteOffset := by rw [drop_drop]
  rw [columnBlock, fromColumn, ← packedBit_drop]
  by_cases low : bit < 64
  · rw [deltaBit_low _ low, littleEndianWord_bit _ low, packedBit_take _ _ _ low]
  · obtain ⟨bit, rfl⟩ : ∃ inHalf, bit = 64 + inHalf := ⟨bit - 64, by omega⟩
    have inHalf : bit < 64 := by omega
    rw [deltaBit_high _ inHalf, littleEndianWord_bit _ inHalf, packedBit_take _ _ _ inHalf,
      packedBit_drop]

theorem transposeColumns_eq_flatten (matrix : List Byte) (byteRows blocks : Nat) :
    transposeColumns matrix byteRows (128 * blocks) =
      ((List.range blocks).map fun block =>
        transpose128 ((List.range 128).map
          (columnBlock matrix byteRows (block * 128 / 8)))).flatten := by
  rw [transposeColumns, baseOTCount, Nat.mul_div_cancel_left _ (by decide), flatMap_def]

theorem transposed_blocks_uniform (matrix : List Byte) (byteRows blocks : Nat) :
    ∀ rows ∈ (List.range blocks).map fun block =>
      transpose128 ((List.range 128).map (columnBlock matrix byteRows (block * 128 / 8))),
      rows.length = 128 := by
  intro rows member
  obtain ⟨block, _, rfl⟩ := mem_map.mp member
  exact transpose128_length _

theorem transposeColumns_length (matrix : List Byte) (byteRows blocks : Nat) :
    (transposeColumns matrix byteRows (128 * blocks)).length = 128 * blocks := by
  rw [transposeColumns_eq_flatten,
    length_flatten_blocks 128 _ (transposed_blocks_uniform matrix byteRows blocks),
    length_map, length_range, Nat.mul_comm]

theorem transposeColumns_bit (matrix : List Byte) (byteRows blocks : Nat) {row col : Nat}
    (rowInRange : row < 128 * blocks) (colInRange : col < 128) :
    deltaBit ((transposeColumns matrix byteRows (128 * blocks)).getD row Label.zero) col =
      packedBit (matrix.drop (col * byteRows)) row := by
  have located : row = row / 128 * 128 + row % 128 := by omega
  have uniform := transposed_blocks_uniform matrix byteRows blocks
  rw [transposeColumns_eq_flatten]
  rw [located, getD_flatten_blocks _ uniform _ _ (by simp; omega) (Nat.mod_lt _ (by decide)),
    getD_range_map, if_pos (by omega),
    transpose128_bits _ (by simp) (Nat.mod_lt _ (by decide)) colInRange, getD_range_map,
    if_pos colInRange, columnBlock_bit _ _ _ _ (Nat.mod_lt _ (by decide))]
  congr 1
  omega

end ReclaimTee.Mpc
