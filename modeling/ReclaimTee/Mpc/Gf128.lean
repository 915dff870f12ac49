/-
Multiplication in GF(2^128) for the OT-extension consistency check: the portable
bit-by-bit loop, and the carry-less multiply with a final reduction that amd64
builds use. Both compute the same product, additive in each operand. The
polynomial is x^128 + x^7 + x^2 + x + 1.
-/

import ReclaimTee.Carryless
import ReclaimTee.Mpc.Transpose

namespace ReclaimTee.Mpc

open ReclaimTee.Carryless BitVec

/-- The loop's next multiple of the operand. -/
def gf128Double (v : Label) : Label :=
  let carry := v.d1 >>> 63
  { d0 := v.d0 <<< 1 ^^^ (0x87#64 &&& (0#64 - carry)), d1 := v.d1 <<< 1 ||| v.d0 >>> 63 }

def gf128Step (b : Label) (state : Label × Label) (i : Nat) : Label × Label :=
  let z := state.1
  let v := state.2
  let bit := if 64 ≤ i then b.d1 >>> (i - 64) &&& 1#64 else b.d0 >>> (i &&& 63) &&& 1#64
  let mask := 0#64 - bit
  (⟨z.d0 ^^^ (v.d0 &&& mask), z.d1 ^^^ (v.d1 &&& mask)⟩, gf128Double v)

def gf128MulGeneric (a b : Label) : Label :=
  ((List.range 128).foldl (gf128Step b) (Label.zero, a)).1

def reduceGF128 (lo hi : Label) : Label :=
  let overflow := hi.d1 >>> 63 ^^^ hi.d1 >>> 62 ^^^ hi.d1 >>> 57
  let d0 := lo.d0 ^^^ (hi.d0 ^^^ hi.d0 <<< 1 ^^^ hi.d0 <<< 2 ^^^ hi.d0 <<< 7)
  let d1 := lo.d1 ^^^ (hi.d1 ^^^ hi.d1 <<< 1 ^^^ hi.d0 >>> 63 ^^^ hi.d1 <<< 2 ^^^
    hi.d0 >>> 62 ^^^ hi.d1 <<< 7 ^^^ hi.d0 >>> 57)
  { d0 := d0 ^^^ (overflow ^^^ overflow <<< 1 ^^^ overflow <<< 2 ^^^ overflow <<< 7), d1 := d1 }

/-- The processor's carry-less product of two quadwords. -/
def pclmulqdq (a b : BitVec 64) : BitVec 128 :=
  product (a.setWidth 128) b.getLsbD 64

def labelOfRegister (register : BitVec 128) : Label :=
  { d0 := register.setWidth 64, d1 := (register >>> 64).setWidth 64 }

def clmul128 (a b : Label) : Label × Label :=
  let x2 := pclmulqdq a.d0 b.d0
  let x3 := pclmulqdq a.d1 b.d0 ^^^ pclmulqdq a.d0 b.d1
  let x5 := pclmulqdq a.d1 b.d1
  (labelOfRegister (x2 ^^^ x3 <<< 64), labelOfRegister (x5 ^^^ x3 >>> 64))

def gf128Mul (hasPCLMULQDQ : Bool) (a b : Label) : Label :=
  if hasPCLMULQDQ then
    let (lo, hi) := clmul128 a b
    reduceGF128 lo hi
  else
    gf128MulGeneric a b

/-! ### Reduction of a 256-bit product -/

def wideOf (label : Label) : BitVec 256 :=
  label.d0.setWidth 256 ^^^ label.d1.setWidth 256 <<< 64

def reduceWide (wide : BitVec 256) : Label :=
  reduceGF128 (labelOfRegister (wide.setWidth 128)) (labelOfRegister ((wide >>> 128).setWidth 128))

theorem labelOfRegister_add (left right : BitVec 128) :
    labelOfRegister (left ^^^ right) = labelOfRegister left + labelOfRegister right := by
  rw [← Label.xor_eq_add]
  simp [labelOfRegister, Label.xor, ushiftRight_xor_distrib]

theorem reduceGF128_add (lo hi lo' hi' : Label) :
    reduceGF128 (lo + lo') (hi + hi') = reduceGF128 lo hi + reduceGF128 lo' hi' := by
  simp only [← Label.xor_eq_add, reduceGF128, Label.xor, ushiftRight_xor_distrib,
    shiftLeft_xor_distrib, Label.mk.injEq]
  constructor <;> ac_rfl

theorem reduceWide_add (left right : BitVec 256) :
    reduceWide (left ^^^ right) = reduceWide left + reduceWide right := by
  rw [reduceWide, setWidth_xor, ushiftRight_xor_distrib, setWidth_xor,
    labelOfRegister_add, labelOfRegister_add, reduceGF128_add]
  rfl

/-! ### The doubling step -/

theorem low_bit (word : BitVec 64) (position : Nat) :
    word >>> position &&& 1#64 = if word.getLsbD position then 1#64 else 0#64 := by
  ext index inWord
  by_cases atZero : index = 0
  · subst atZero
    cases read : word.getLsbD position <;> simp [read]
  · cases word.getLsbD position <;> simp [atZero]

theorem top_bit (word : BitVec 64) : word >>> 63 = if word.getLsbD 63 then 1#64 else 0#64 := by
  rw [← low_bit]
  ext index inWord
  by_cases atZero : index = 0
  · simp [atZero]
  · have outside : word.getLsbD (63 + index) = false := getLsbD_of_ge _ _ (by omega)
    simp [outside]

theorem negated_bit (bit : Bool) :
    (0#64 - if bit then 1#64 else 0#64) = if bit then BitVec.allOnes 64 else 0#64 := by
  cases bit <;> rfl

theorem gf128Double_eq (v : Label) :
    gf128Double v =
      ⟨v.d0 <<< 1 ^^^ (if v.d1.getLsbD 63 then 0x87#64 else 0#64),
        v.d1 <<< 1 ^^^ v.d0 >>> 63⟩ := by
  rw [gf128Double, top_bit v.d1]
  have disjoint : v.d1 <<< 1 ||| v.d0 >>> 63 = v.d1 <<< 1 ^^^ v.d0 >>> 63 := by
    rw [top_bit v.d0]
    ext index inWord
    by_cases atZero : index = 0
    · simp [atZero]
    · cases v.d0.getLsbD 63 <;> simp [atZero]
  rw [disjoint]
  cases v.d1.getLsbD 63 <;> simp

theorem gf128Double_add (left right : Label) :
    gf128Double (left + right) = gf128Double left + gf128Double right := by
  simp only [gf128Double_eq, ← Label.xor_eq_add, Label.xor, shiftLeft_xor_distrib,
    ushiftRight_xor_distrib, getLsbD_xor, Label.mk.injEq]
  constructor
  · cases left.d1.getLsbD 63 <;> cases right.d1.getLsbD 63
    · simp
    · simp only
      ac_rfl
    · simp only
      ac_rfl
    · have cancelled : ∀ first second constant : BitVec 64,
          first ^^^ second = first ^^^ constant ^^^ (second ^^^ constant) := by
        intro first second constant
        rw [BitVec.xor_comm second constant, BitVec.xor_assoc, ← BitVec.xor_assoc constant,
          BitVec.xor_self, BitVec.zero_xor]
      simpa using cancelled _ _ _
  · ac_rfl

theorem reduceWide_shift (value : BitVec 255) :
    reduceWide (value.setWidth 256 <<< 1) = gf128Double (reduceWide (value.setWidth 256)) := by
  have agree : ∀ position : Fin 255,
      reduceWide ((1#255 <<< position.val).setWidth 256 <<< 1) =
        gf128Double (reduceWide ((1#255 <<< position.val).setWidth 256)) := by
    decide +kernel
  apply additive_ext _ _ agree value
  · intro left right
    rw [setWidth_xor, shiftLeft_xor_distrib, reduceWide_add]
  · intro left right
    rw [setWidth_xor, reduceWide_add, gf128Double_add]

theorem wideOf_bit (label : Label) (position : Nat) :
    (wideOf label).getLsbD position = (decide (position < 128) && deltaBit label position) := by
  rw [wideOf]
  by_cases low : position < 64
  · rw [deltaBit_low _ low]
    simp [low, show position < 256 by omega, show position < 128 by omega]
  · obtain ⟨position, rfl⟩ : ∃ above, position = 64 + above := ⟨position - 64, by omega⟩
    have beyond : label.d0.getLsbD (64 + position) = false :=
      getLsbD_of_ge _ _ (by omega)
    by_cases inLabel : position < 64
    · rw [deltaBit_high _ inLabel]
      simp [show 64 + position < 256 by omega, show 64 + position < 128 by omega]
    · have outside : label.d1.getLsbD position = false :=
        getLsbD_of_ge _ _ (by omega)
      simp [outside, show ¬ 64 + position < 128 by omega]

theorem labelOfRegister_bit (register : BitVec 128) {bit : Nat} (inside : bit < 128) :
    deltaBit (labelOfRegister register) bit = register.getLsbD bit := by
  by_cases low : bit < 64
  · rw [deltaBit_low _ low, labelOfRegister, getLsbD_setWidth, decide_eq_true low, Bool.true_and]
  · obtain ⟨bit, rfl⟩ : ∃ above, bit = 64 + above := ⟨bit - 64, by omega⟩
    have inHalf : bit < 64 := by omega
    rw [deltaBit_high _ inHalf, labelOfRegister, getLsbD_setWidth,
      getLsbD_ushiftRight, decide_eq_true inHalf, Bool.true_and]

theorem reduceWide_wideOf (label : Label) : reduceWide (wideOf label) = label := by
  have low : labelOfRegister ((wideOf label).setWidth 128) = label := by
    apply Label.ext_deltaBit
    intro bit inLabel
    rw [labelOfRegister_bit _ inLabel, getLsbD_setWidth, wideOf_bit]
    simp [inLabel]
  have high : (wideOf label >>> 128).setWidth 128 = 0#128 := by
    ext position inRegister
    rw [getElem_setWidth, getLsbD_ushiftRight, wideOf_bit]
    simp
  rw [reduceWide, low, high]
  have zeroHigh : labelOfRegister 0#128 = ⟨0, 0⟩ := rfl
  rw [zeroHigh]
  simp [reduceGF128]

theorem wideOf_shift_fits (label : Label) {shift : Nat} (inside : shift < 128) :
    ((wideOf label <<< shift).setWidth 255).setWidth 256 = wideOf label <<< shift := by
  apply eq_of_getLsbD_eq
  intro position inWide
  rw [getLsbD_setWidth, getLsbD_setWidth, getLsbD_shiftLeft, wideOf_bit]
  by_cases below : position < 255
  · simp [below, inWide]
  · have outside : ¬ position - shift < 128 := by omega
    simp [outside]

theorem reduceWide_reduces (label : Label) : Reduces reduceWide gf128Double (wideOf label) 128 where
  additive := reduceWide_add
  doubles := by
    intro shift inside
    have stepped := reduceWide_shift ((wideOf label <<< shift).setWidth 255)
    rw [wideOf_shift_fits label inside] at stepped
    rw [shiftLeft_add, stepped]

/-! ### Both multipliers -/

theorem gf128Step_eq (b z v : Label) {i : Nat} (inside : i < 128) :
    gf128Step b (z, v) i = (z + if deltaBit b i then v else 0, gf128Double v) := by
  have selected : (if 64 ≤ i then b.d1 >>> (i - 64) &&& 1#64 else b.d0 >>> (i &&& 63) &&& 1#64) =
      if deltaBit b i then 1#64 else 0#64 := by
    by_cases low : i < 64
    · have masked : i &&& 63 = i := by
        rw [show 63 = 2 ^ 6 - 1 from rfl, Nat.and_two_pow_sub_one_eq_mod, Nat.mod_eq_of_lt low]
      rw [if_neg (Nat.not_le_of_lt low), masked, low_bit, deltaBit_low _ low]
    · obtain ⟨i, rfl⟩ : ∃ above, i = 64 + above := ⟨i - 64, by omega⟩
      rw [if_pos (Nat.le_add_right _ _), Nat.add_sub_cancel_left, low_bit,
        deltaBit_high _ (by omega)]
  rw [gf128Step]
  simp only [selected, negated_bit]
  cases deltaBit b i
  · simp only [Bool.false_eq_true, if_false, and_zero, xor_zero]
    rw [add_zero]
  · simp only [if_true, and_allOnes]
    rfl

theorem gf128MulGeneric_eq (a b : Label) :
    gf128MulGeneric a b = reduceWide (product (wideOf a) (deltaBit b) 128) := by
  have loop : ∀ count, count ≤ 128 →
      (List.range count).foldl (gf128Step b) (Label.zero, a) =
        accumulate gf128Double a (deltaBit b) count := by
    intro count
    induction count with
    | zero => intro _; rfl
    | succ count ih =>
      intro inside
      rw [List.range_succ, List.foldl_concat, ih (Nat.le_of_succ_le inside), accumulate,
        gf128Step_eq b _ _ inside]
  have reduced := (reduceWide_reduces a).product_eq (deltaBit b)
  rw [reduceWide_wideOf] at reduced
  rw [gf128MulGeneric, loop 128 (Nat.le_refl _), reduced]

theorem pclmulqdq_wide (a b : BitVec 64) :
    (pclmulqdq a b).setWidth 256 = product (a.setWidth 256) b.getLsbD 64 :=
  product_setWidth a b.getLsbD 64 (Nat.le_refl _)

theorem product_quadwords (a b : Label) :
    product (wideOf a) (deltaBit b) 128 =
      (pclmulqdq a.d0 b.d0).setWidth 256 ^^^
        (pclmulqdq a.d1 b.d0 ^^^ pclmulqdq a.d0 b.d1).setWidth 256 <<< 64 ^^^
          (pclmulqdq a.d1 b.d1).setWidth 256 <<< 128 := by
  have low : ∀ value : BitVec 256,
      product value (deltaBit b) 64 = product value b.d0.getLsbD 64 := by
    intro value
    exact product_congr value fun position inside => deltaBit_low b inside
  have high : ∀ value : BitVec 256,
      product value (fun position => deltaBit b (64 + position)) 64 =
        product value b.d1.getLsbD 64 := by
    intro value
    exact product_congr value fun position inside => deltaBit_high b inside
  have halves : product (wideOf a) (deltaBit b) 128 = _ :=
    product_add (wideOf a) (deltaBit b) 64 64
  rw [halves, low, high, wideOf, product_xor, product_xor, product_shiftLeft, product_shiftLeft,
    setWidth_xor, pclmulqdq_wide, pclmulqdq_wide, pclmulqdq_wide, pclmulqdq_wide,
    shiftLeft_xor_distrib, shiftLeft_xor_distrib, ← shiftLeft_add]
  exact xor_regroup _ _ _ _

theorem wide_low (low middle high : BitVec 128) :
    (low.setWidth 256 ^^^ middle.setWidth 256 <<< 64 ^^^ high.setWidth 256 <<< 128).setWidth 128 =
      low ^^^ middle <<< 64 := by
  apply eq_of_getLsbD_eq
  intro position inside
  simp [inside]

theorem wide_high (low middle high : BitVec 128) :
    ((low.setWidth 256 ^^^ middle.setWidth 256 <<< 64 ^^^
        high.setWidth 256 <<< 128) >>> 128).setWidth 128 =
      high ^^^ middle >>> 64 := by
  apply eq_of_getLsbD_eq
  intro position inside
  have beyond : low.getLsbD (128 + position) = false := getLsbD_of_ge _ _ (by omega)
  have moved : 128 + position - 64 = 64 + position := by omega
  simp only [getLsbD_setWidth, getLsbD_xor, getLsbD_shiftLeft,
    getLsbD_ushiftRight, moved]
  simp [inside, show 128 + position < 256 by omega, show position < 256 by omega,
    show 64 + position < 256 by omega, show ¬ 128 + position < 64 by omega, Bool.xor_comm]

/-- The product in GF(2^128): the carry-less product of 256 bits, reduced. -/
def fieldProduct (a b : Label) : Label :=
  reduceWide (product (wideOf a) (deltaBit b) 128)

theorem gf128Mul_eq (hasPCLMULQDQ : Bool) (a b : Label) :
    gf128Mul hasPCLMULQDQ a b = fieldProduct a b := by
  unfold fieldProduct
  cases hasPCLMULQDQ
  · exact gf128MulGeneric_eq a b
  · rw [product_quadwords, reduceWide, wide_low, wide_high]
    rfl

theorem wideOf_add (left right : Label) : wideOf (left + right) = wideOf left ^^^ wideOf right := by
  rw [← Label.xor_eq_add, wideOf, Label.xor, setWidth_xor,
    setWidth_xor, shiftLeft_xor_distrib]
  exact xor_interchange _ _ _ _

theorem fieldProduct_add (left right b : Label) :
    fieldProduct (left + right) b = fieldProduct left b + fieldProduct right b := by
  unfold fieldProduct
  rw [wideOf_add, product_xor, reduceWide_add]

/-- Reducing the carry-less product of 256 bits is the portable multiplication, which is additive
in both factors; so both build variants agree. -/
theorem gf128_variants_agree (a b : Label) :
    reduceWide (product (wideOf a) (wideOf b).getLsbD 128) = gf128MulGeneric a b ∧
      gf128Mul true a b = gf128Mul false a b ∧
      (∀ other, gf128MulGeneric (a + other) b = gf128MulGeneric a b + gf128MulGeneric other b) ∧
      ∀ other, gf128MulGeneric a (b + other) = gf128MulGeneric a b + gf128MulGeneric a other := by
  refine ⟨?_, ?_, fun other => ?_, fun other => ?_⟩
  · have bits : ∀ position, position < 128 →
        (wideOf b).getLsbD position = deltaBit b position := by
      intro position inside
      rw [wideOf_bit, decide_eq_true inside, Bool.true_and]
    rw [gf128MulGeneric_eq, product_congr _ bits]
  · rw [gf128Mul_eq, gf128Mul_eq]
  · rw [gf128MulGeneric_eq, gf128MulGeneric_eq, gf128MulGeneric_eq]
    exact fieldProduct_add a other b
  · have bits := product_congr (wideOf a) fun position (inside : position < 128) =>
      deltaBit_add b other inside
    rw [gf128MulGeneric_eq, gf128MulGeneric_eq, gf128MulGeneric_eq, bits, product_bits_xor,
      reduceWide_add]

end ReclaimTee.Mpc
