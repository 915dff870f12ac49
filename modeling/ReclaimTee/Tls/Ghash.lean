/-
The GHASH of TEE_T computes the standard one. The nibble table holds the
multiples of the key by four bits, a shift by one nibble is four doublings, and
so each table step is four steps of Horner's rule.
-/

import ReclaimTee.Tls.SplitAead

namespace ReclaimTee.Tls

open ReclaimTee.Mpc ReclaimTee.Aead BitVec List

namespace GcmFieldElement

def block (element : GcmFieldElement) : Gcm.Block :=
  element.low ++ element.high

theorem block_bit (element : GcmFieldElement) (position : Nat) :
    element.block.getLsbD position =
      if position < 64 then element.high.getLsbD position
      else element.low.getLsbD (position - 64) := by
  rw [block, getLsbD_append]

@[simp] theorem block_zero : zero.block = 0 := rfl

theorem block_add (x y : GcmFieldElement) : (ghashAdd x y).block = x.block ^^^ y.block := by
  rw [block, block, block, xor_append]
  rfl

end GcmFieldElement

open GcmFieldElement

theorem low_bit_set (word : BitVec 64) : word &&& 1 = 1 ↔ word.getLsbD 0 = true := by
  constructor
  · intro same
    have bit := congrArg (fun value : BitVec 64 => value.getLsbD 0) same
    simpa using bit
  · intro bit
    apply eq_of_getLsbD_eq
    intro position inside
    rw [getLsbD_and]
    by_cases first : position = 0
    · rw [first, bit]
      rfl
    · have clear : (1 : BitVec 64).getLsbD position = false := by
        simp [first]
      rw [clear, Bool.and_false]

theorem reduction_bit (position : Nat) (inside : position < 128) :
    Gcm.reduction.getLsbD position =
      if position < 64 then false
      else (0xe100000000000000 : BitVec 64).getLsbD (position - 64) := by
  have all : ∀ index : Fin 128, Gcm.reduction.getLsbD index.val =
      if index.val < 64 then false
      else (0xe100000000000000 : BitVec 64).getLsbD (index.val - 64) := by
    decide +kernel
  exact all ⟨position, inside⟩

theorem block_double (x : GcmFieldElement) : (ghashDouble x).block = Gcm.double x.block := by
  have lowest : x.block.getLsbD 0 = x.high.getLsbD 0 := x.block_bit 0
  have shifted : ∀ position, position < 128 →
      (x.block >>> 1).getLsbD position =
        if position < 64 then
          ((x.high >>> 1) ||| (x.low <<< 63)).getLsbD position
        else (x.low >>> 1).getLsbD (position - 64) := by
    intro position inside
    rw [getLsbD_ushiftRight, x.block_bit]
    rcases Nat.lt_trichotomy position 63 with before | last | after
    · rw [if_pos (by omega), if_pos (by omega)]
      simp [before]
    · rw [last]
      simp
    · rw [if_neg (by omega), if_neg (by omega), getLsbD_ushiftRight]
      congr 1
      omega
  apply eq_of_getLsbD_eq
  intro position inside
  rw [block_bit, Gcm.double, lowest]
  unfold ghashDouble
  dsimp only
  by_cases set : x.high.getLsbD 0
  · rw [if_pos set, if_pos ((low_bit_set _).mpr set), getLsbD_xor, getLsbD_xor,
      shifted position inside, reduction_bit position inside]
    split
    · rw [Bool.xor_false]
    · rfl
  · rw [if_neg set, if_neg fun odd => set ((low_bit_set _).mp odd), shifted position inside]

/-! ### One nibble -/

theorem double_iterate_xor (left right : Gcm.Block) (count : Nat) :
    Gcm.double^[count] (left ^^^ right) = Gcm.double^[count] left ^^^ Gcm.double^[count] right := by
  induction count generalizing left right with
  | zero => rfl
  | succ count ih =>
    rw [Function.iterate_succ_apply, Function.iterate_succ_apply, Function.iterate_succ_apply,
      Gcm.double_xor, ih]

theorem double_shiftLeft (value : Gcm.Block) (clear : value.getLsbD 127 = false) :
    Gcm.double (value <<< 1) = value := by
  have even : (value <<< 1).getLsbD 0 = false := by
    rw [getLsbD_shiftLeft]
    rfl
  rw [Gcm.double, even, if_neg Bool.false_ne_true]
  apply eq_of_getLsbD_eq
  intro position inside
  rw [getLsbD_ushiftRight, getLsbD_shiftLeft]
  by_cases last : position = 127
  · rw [last, clear]
    rfl
  · have within : 1 + position < 128 := by omega
    simp [within]

theorem double_four_shiftLeft (value : Gcm.Block)
    (clear : ∀ position, 124 ≤ position → value.getLsbD position = false) :
    Gcm.double^[4] (value <<< 4) = value := by
  have shifts : value <<< 4 = (((value <<< 1) <<< 1) <<< 1) <<< 1 := by
    rw [← shiftLeft_add, ← shiftLeft_add, ← shiftLeft_add]
  have clears : ∀ shift, shift ≤ 3 → (value <<< shift).getLsbD 127 = false := by
    intro shift few
    rw [getLsbD_shiftLeft, clear (127 - shift) (by omega), Bool.and_false]
  have two : (value <<< 1) <<< 1 = value <<< 2 := (shiftLeft_add _ _ _).symm
  have three : (value <<< 2) <<< 1 = value <<< 3 := (shiftLeft_add _ _ _).symm
  rw [shifts, two, three]
  change Gcm.double (Gcm.double (Gcm.double (Gcm.double _))) = _
  rw [double_shiftLeft _ (clears 3 (by omega)), ← three, double_shiftLeft _ (clears 2 (by omega)),
    ← two, double_shiftLeft _ (clears 1 (by omega)), double_shiftLeft _ (clear 127 (by omega))]

theorem reductionTable_eq (nibble : Nat) (small : nibble < 16) :
    Gcm.double^[4] (BitVec.ofNat 128 nibble) =
      BitVec.ofNat 128 (ghashReductionTable.getD nibble 0) <<< 112 := by
  have all : ∀ index : Fin 16, Gcm.double^[4] (BitVec.ofNat 128 index.val) =
      BitVec.ofNat 128 (ghashReductionTable.getD index.val 0) <<< 112 := by
    decide +kernel
  exact all ⟨nibble, small⟩

theorem nibble_lt {width : Nat} (value : BitVec width) : (value &&& 0xf).toNat < 16 := by
  rw [toNat_and]
  exact Nat.lt_of_le_of_lt (Nat.le_trans Nat.and_le_right (Nat.mod_le _ _)) (by decide)

theorem double_four_eq (value : Gcm.Block) :
    Gcm.double^[4] value =
      (value >>> 4) ^^^
        BitVec.ofNat 128 (ghashReductionTable.getD (value &&& 0xf).toNat 0) <<< 112 := by
  have split : value = ((value >>> 4) <<< 4) ^^^ (value &&& 0xf) := by
    have mask : ∀ index : Fin 128, (0xf : Gcm.Block).getLsbD index.val = decide (index.val < 4) := by
      decide +kernel
    apply eq_of_getLsbD_eq
    intro position inside
    rw [getLsbD_xor, getLsbD_shiftLeft, getLsbD_ushiftRight, getLsbD_and, mask ⟨position, inside⟩]
    by_cases low : position < 4
    · simp [low]
    · simp [low, inside, Nat.add_sub_cancel' (Nat.le_of_not_lt low)]
  have high : ∀ position, 124 ≤ position → (value >>> 4).getLsbD position = false := by
    intro position far
    rw [getLsbD_ushiftRight]
    exact getLsbD_of_ge _ _ (by omega)
  have nibble : BitVec.ofNat 128 (value &&& 0xf).toNat = value &&& 0xf := by
    rw [ofNat_toNat, setWidth_eq]
  calc
    Gcm.double^[4] value = Gcm.double^[4] (((value >>> 4) <<< 4) ^^^ (value &&& 0xf)) := by
      rw [← split]
    _ = (value >>> 4) ^^^ Gcm.double^[4] (value &&& 0xf) := by
      rw [double_iterate_xor, double_four_shiftLeft _ high]
    _ = _ := by
      rw [← reductionTable_eq _ (nibble_lt value), nibble]

/-! ### The table -/

/-- Four bits of Horner's rule, the lowest first. -/
def nibbleMultiple (bits : Nat → Bool) (key : Gcm.Block) : Gcm.Block :=
  Gcm.double (Gcm.double (Gcm.double (Gcm.scale (bits 0) key) ^^^ Gcm.scale (bits 1) key) ^^^
    Gcm.scale (bits 2) key) ^^^ Gcm.scale (bits 3) key

theorem productTable_entries (x : GcmFieldElement) :
    productTable x =
      [.zero, ghashDouble (ghashDouble (ghashDouble x)), ghashDouble (ghashDouble x),
        ghashDouble (ghashDouble (ghashAdd (ghashDouble x) x)),
        ghashDouble x,
        ghashDouble (ghashAdd (ghashDouble (ghashDouble x)) x),
        ghashDouble (ghashAdd (ghashDouble x) x),
        ghashDouble (ghashAdd (ghashDouble (ghashAdd (ghashDouble x) x)) x),
        x,
        ghashAdd (ghashDouble (ghashDouble (ghashDouble x))) x,
        ghashAdd (ghashDouble (ghashDouble x)) x,
        ghashAdd (ghashDouble (ghashDouble (ghashAdd (ghashDouble x) x))) x,
        ghashAdd (ghashDouble x) x,
        ghashAdd (ghashDouble (ghashAdd (ghashDouble (ghashDouble x)) x)) x,
        ghashAdd (ghashDouble (ghashAdd (ghashDouble x) x)) x,
        ghashAdd (ghashDouble (ghashAdd (ghashDouble (ghashAdd (ghashDouble x) x)) x)) x] := by
  simp [productTable, reverseBits]

theorem productTable_eq (x : GcmFieldElement) (nibble : Nat) (small : nibble < 16) :
    ((productTable x).getD nibble .zero).block = nibbleMultiple nibble.testBit x.block := by
  rw [productTable_entries]
  interval_cases nibble <;>
    simp [nibbleMultiple, Gcm.scale, block_add, block_double, Nat.testBit]

theorem horner_four (bits : Nat → Bool) (key : Gcm.Block) (count : Nat) :
    Gcm.horner bits key (count + 4) =
      Gcm.double^[4] (Gcm.horner bits key count) ^^^
        nibbleMultiple (fun index => bits (count + index)) key := by
  change Gcm.double (Gcm.double (Gcm.double (Gcm.double (Gcm.horner bits key count) ^^^
    Gcm.scale (bits count) key) ^^^ Gcm.scale (bits (count + 1)) key) ^^^
      Gcm.scale (bits (count + 2)) key) ^^^ Gcm.scale (bits (count + 3)) key =
    Gcm.double (Gcm.double (Gcm.double (Gcm.double (Gcm.horner bits key count)))) ^^^ _
  simp only [nibbleMultiple, Gcm.double_xor]
  ac_rfl

theorem nibble_bits (word : BitVec 64) (index : Nat) (small : index < 4) :
    (word &&& 0xf).toNat.testBit index = word.getLsbD index := by
  have one : (0xf : BitVec 64).getLsbD index = true := by
    have all : ∀ index : Fin 4, (0xf : BitVec 64).getLsbD index.val = true := by decide
    exact all ⟨index, small⟩
  rw [testBit_toNat, getLsbD_and, one, Bool.and_true]

theorem block_shift (z : GcmFieldElement) :
    (mk
      ((z.low >>> 4) ^^^ (BitVec.ofNat 64 (ghashReductionTable.getD (z.high &&& 0xf).toNat 0) <<< 48))
      ((z.high >>> 4) ||| (z.low <<< 60))).block = Gcm.double^[4] z.block := by
  have nibble : (z.block &&& 0xf).toNat = (z.high &&& 0xf).toNat := by
    have whole : z.block &&& 0xf = (z.low &&& 0#64) ++ (z.high &&& 0xf) := by
      rw [← and_append]
      rfl
    rw [whole, toNat_append]
    simp
  have table : ∀ index : Nat, index < 16 → ∀ position : Nat, position < 128 →
      (BitVec.ofNat 128 (ghashReductionTable.getD index 0) <<< 112).getLsbD position =
        if position < 64 then false
        else (BitVec.ofNat 64 (ghashReductionTable.getD index 0) <<< 48).getLsbD (position - 64) := by
    have all : ∀ index : Fin 16, ∀ position : Fin 128,
        (BitVec.ofNat 128 (ghashReductionTable.getD index.val 0) <<< 112).getLsbD position.val =
        if position.val < 64 then false
        else (BitVec.ofNat 64 (ghashReductionTable.getD index.val 0) <<< 48).getLsbD
          (position.val - 64) := by
      decide +kernel
    exact fun index small position inside => all ⟨index, small⟩ ⟨position, inside⟩
  rw [double_four_eq, nibble]
  apply eq_of_getLsbD_eq
  intro position inside
  have right : (z.block >>> 4 ^^^ BitVec.ofNat 128
      (ghashReductionTable.getD (z.high &&& 0xf).toNat 0) <<< 112).getLsbD position =
        (z.block.getLsbD (4 + position) ^^ if position < 64 then false
          else (BitVec.ofNat 64 (ghashReductionTable.getD (z.high &&& 0xf).toNat 0) <<< 48).getLsbD
            (position - 64)) := by
    rw [getLsbD_xor, table _ (nibble_lt _) _ inside, getLsbD_ushiftRight]
  rw [right, block_bit, z.block_bit]
  by_cases low : position < 64
  · rw [if_pos low, if_pos low, getLsbD_or, getLsbD_ushiftRight, getLsbD_shiftLeft]
    by_cases within : position < 60
    · rw [if_pos (by omega)]
      simp [within]
    · have beyond : z.high.getLsbD (4 + position) = false :=
        getLsbD_of_ge _ _ (by omega)
      have offset : position - 60 = 4 + position - 64 := by omega
      rw [if_neg (by omega), beyond, offset]
      simp [low, within]
  · rw [if_neg low, if_neg low, if_neg (by omega), getLsbD_xor, getLsbD_ushiftRight]
    congr 2
    omega

/-- One table step is four steps of Horner's rule. -/
theorem ghashMulStep_horner {x z : GcmFieldElement} (word : BitVec 64) {bits : Nat → Bool}
    {count : Nat} (reached : z.block = Gcm.horner bits x.block count)
    (next : ∀ index, index < 4 → bits (count + index) = word.getLsbD index) :
    (ghashMulStep (productTable x) (z, word)).1.block = Gcm.horner bits x.block (count + 4) := by
  have entry : ((productTable x).getD (word &&& 0xf).toNat .zero).block =
      nibbleMultiple (fun index => bits (count + index)) x.block := by
    rw [productTable_eq x _ (nibble_lt word)]
    simp only [nibbleMultiple]
    rw [nibble_bits word 0 (by omega), nibble_bits word 1 (by omega), nibble_bits word 2 (by omega),
      nibble_bits word 3 (by omega), next 0 (by omega), next 1 (by omega), next 2 (by omega),
      next 3 (by omega)]
  rw [horner_four, ← reached, ← block_shift, ← entry, ← block_add]
  rfl

theorem ghashMulWord_horner {x z : GcmFieldElement} (word : BitVec 64) {bits : Nat → Bool}
    {count : Nat} (reached : z.block = Gcm.horner bits x.block count)
    (next : ∀ index, index < 64 → bits (count + index) = word.getLsbD index) :
    (ghashMulWord (productTable x) z word).block = Gcm.horner bits x.block (count + 64) := by
  -- After some steps, four bits of the word are used up for each.
  have steps : ∀ taken, taken ≤ 16 →
      ((ghashMulStep (productTable x))^[taken] (z, word)).1.block =
          Gcm.horner bits x.block (count + 4 * taken) ∧
        ((ghashMulStep (productTable x))^[taken] (z, word)).2 = word >>> (4 * taken) := by
    intro taken
    induction taken with
    | zero =>
      intro _
      exact ⟨reached, (ushiftRight_zero word).symm⟩
    | succ taken ih =>
      intro inside
      obtain ⟨value, rest⟩ := ih (by omega)
      rw [Function.iterate_succ_apply']
      constructor
      · refine ghashMulStep_horner _ value ?_
        intro index small
        have bit := next (4 * taken + index) (by omega)
        rw [rest, getLsbD_ushiftRight, ← bit]
        exact congrArg bits (Nat.add_assoc _ _ _)
      · change ((ghashMulStep (productTable x))^[taken] (z, word)).2 >>> 4 = _
        rw [rest]
        rfl
  exact (steps 16 (Nat.le_refl _)).1

theorem ghashMul_eq (x y : GcmFieldElement) :
    (ghashMul (productTable x) y).block = Gcm.mul y.block x.block := by
  have first : (ghashMulWord (productTable x) .zero y.high).block =
      Gcm.horner y.block.getLsbD x.block (0 + 64) := by
    apply ghashMulWord_horner y.high rfl
    intro index small
    rw [Nat.zero_add, y.block_bit, if_pos small]
  rw [Gcm.mul_eq_horner]
  apply ghashMulWord_horner y.low first
  intro index small
  rw [y.block_bit, if_neg (by omega), Nat.add_sub_cancel_left]

/-! ### Whole slices -/

theorem toNat_append_eq {wide narrow : Nat} (high : BitVec wide) (low : BitVec narrow) :
    (high ++ low).toNat = high.toNat * 2 ^ narrow + low.toNat := by
  rw [toNat_append, ← Nat.shiftLeft_add_eq_or_of_lt low.isLt, Nat.shiftLeft_eq]

theorem block_toNat (element : GcmFieldElement) :
    element.block.toNat = element.low.toNat * 256 ^ 8 + element.high.toNat := by
  rw [block, toNat_append_eq, show 2 ^ 64 = 256 ^ 8 from rfl]

theorem bytes_eq (element : GcmFieldElement) : element.bytes = Gcm.bytes element.block := by
  have small : element.high.toNat < 256 ^ 8 := element.high.isLt
  rw [Gcm.bytes, block_toNat]
  exact (bigEndian_append 8 8 _ _ small).symm

theorem ofBytes_block {data : List Byte} (size : data.length = 16) :
    (ofBytes data).block = Gcm.ofBytes data := by
  have front : (data.take 8).length = 8 := by rw [length_take]; omega
  have back : ((data.drop 8).take 8).length = 8 := by
    rw [length_take, length_drop]
    omega
  have whole : data.take 8 ++ (data.drop 8).take 8 = data := by
    rw [← take_add]
    exact take_of_length_le (by omega)
  have first := ofBigEndian_lt (data.take 8)
  have second := ofBigEndian_lt ((data.drop 8).take 8)
  have value : ofBigEndian data = ofBigEndian (data.take 8) * 256 ^ 8 +
      ofBigEndian ((data.drop 8).take 8) := by
    nth_rewrite 1 [← whole]
    rw [ofBigEndian_append, back]
  rw [front] at first
  rw [back] at second
  apply eq_of_toNat_eq
  rw [block_toNat, Gcm.ofBytes, size, List.replicate_zero, List.append_nil, toNat_ofNat]
  change ofBigEndian (data.take 8) % 2 ^ 64 * 256 ^ 8 +
    ofBigEndian ((data.drop 8).take 8) % 2 ^ 64 = _
  omega

theorem copyInto_length (data : List Byte) (short : data.length < 16) :
    (copyInto 16 data).length = 16 := by
  rw [copyInto, length_append, length_take, length_replicate]
  omega

theorem ofBytes_copyInto {data : List Byte} (short : data.length < 16) :
    Gcm.ofBytes (copyInto 16 data) = Gcm.ofBytes data := by
  rw [Gcm.ofBytes, copyInto_length data short, List.replicate_zero, List.append_nil,
    copyInto, take_of_length_le (by omega), Gcm.ofBytes]

theorem ghashUpdate_eq (x y : GcmFieldElement) (data : List Byte) :
    (ghashUpdate (productTable x) y data).block =
      (Gcm.padBlocks data).foldl (fun sum block => Gcm.mul (sum ^^^ block) x.block) y.block := by
  induction y, data using ghashUpdate.induct (productTable x) with
  | case1 y data full ih =>
    have size : (data.take 16).length = 16 := by rw [length_take]; omega
    rw [ghashUpdate, if_pos full, ih, Gcm.padBlocks_full full, foldl_cons, ghashMul_eq,
      block_add, ofBytes_block size]
  | case2 y notFull =>
    rw [ghashUpdate]
    rfl
  | case3 y data notFull some =>
    have short : data.length < 16 := by omega
    rw [ghashUpdate, if_neg notFull, if_neg some, ghashMul_eq, block_add,
      ofBytes_block (copyInto_length data short), ofBytes_copyInto short,
      Gcm.padBlocks_short some (by omega)]
    rfl

theorem ghash_eq {key : List Byte} (size : key.length = 16) (slices : List (List Byte)) :
    ghash key slices = Gcm.bytes (Gcm.ghash (Gcm.ofBytes key) (slices.flatMap Gcm.padBlocks)) := by
  have updates : ∀ y : GcmFieldElement,
      (slices.foldl (ghashUpdate (productTable (.ofBytes key))) y).block =
        (slices.flatMap Gcm.padBlocks).foldl
          (fun sum block => Gcm.mul (sum ^^^ block) (Gcm.ofBytes key)) y.block := by
    induction slices with
    | nil => intro y; rfl
    | cons slice rest ih =>
      intro y
      rw [foldl_cons, ih, ghashUpdate_eq, ofBytes_block size, flatMap_cons, foldl_append]
  rw [ghash, bytes_eq, updates]
  rfl

end ReclaimTee.Tls
