/-
Carry-less multiplication of bit vectors, and reduction maps. A reduction map
turns a shift by one into a fixed doubling step, so reducing the whole product
at the end gives the same value as doubling and accumulating bit by bit.
-/

import Mathlib.Data.BitVec

namespace ReclaimTee.Carryless

open BitVec

variable {width : Nat}

/-- The product of `value` with the polynomial of the first `count` bits. -/
def product (value : BitVec width) (bits : Nat → Bool) : Nat → BitVec width
  | 0 => 0
  | count + 1 => product value bits count ^^^ if bits count then value <<< count else 0

theorem xor_interchange (a b c d : BitVec width) :
    a ^^^ b ^^^ (c ^^^ d) = a ^^^ c ^^^ (b ^^^ d) := by
  ac_rfl

theorem xor_regroup (a b c d : BitVec width) : a ^^^ b ^^^ (c ^^^ d) = a ^^^ (b ^^^ c) ^^^ d := by
  ac_rfl

theorem product_congr {bits others : Nat → Bool} (value : BitVec width) {count : Nat}
    (same : ∀ position, position < count → bits position = others position) :
    product value bits count = product value others count := by
  induction count with
  | zero => rfl
  | succ count ih =>
    rw [product, product, ih fun position inside => same position (Nat.lt_succ_of_lt inside),
      same count (Nat.lt_succ_self _)]

theorem product_xor (left right : BitVec width) (bits : Nat → Bool) (count : Nat) :
    product (left ^^^ right) bits count = product left bits count ^^^ product right bits count := by
  induction count with
  | zero => simp [product]
  | succ count ih =>
    rw [product, product, product, ih, shiftLeft_xor_distrib]
    cases bits count
    · simp
    · exact xor_interchange _ _ _ _

theorem product_bits_xor (value : BitVec width) (bits others : Nat → Bool) (count : Nat) :
    product value (fun position => bits position ^^ others position) count =
      product value bits count ^^^ product value others count := by
  induction count with
  | zero => simp [product]
  | succ count ih =>
    rw [product, product, product, ih, xor_interchange]
    cases bits count <;> cases others count <;> simp

theorem product_shiftLeft (value : BitVec width) (bits : Nat → Bool) (shift count : Nat) :
    product (value <<< shift) bits count = product value bits count <<< shift := by
  induction count with
  | zero => simp [product]
  | succ count ih =>
    rw [product, product, ih, shiftLeft_xor_distrib]
    cases bits count
    · simp
    · simp only [if_true]
      rw [← shiftLeft_add, ← shiftLeft_add, Nat.add_comm]

theorem product_add (value : BitVec width) (bits : Nat → Bool) (first second : Nat) :
    product value bits (first + second) =
      product value bits first ^^^
        product value (fun position => bits (first + position)) second <<< first := by
  induction second with
  | zero => simp [product]
  | succ second ih =>
    rw [← Nat.add_assoc, product, product, ih, shiftLeft_xor_distrib, xor_assoc]
    cases bits (first + second)
    · simp
    · simp only [if_true]
      rw [← shiftLeft_add, Nat.add_comm second first]

theorem product_setWidth {narrow wide size : Nat} (value : BitVec size) (bits : Nat → Bool)
    (count : Nat) (fits : size + count ≤ narrow) :
    (product (value.setWidth narrow) bits count).setWidth wide =
      product (value.setWidth wide) bits count := by
  induction count with
  | zero => simp [product]
  | succ count ih =>
    rw [product, product, setWidth_xor, ih (by omega)]
    cases bits count
    · simp
    have widened : ((value.setWidth narrow) <<< count).setWidth wide =
        (value.setWidth wide) <<< count := by
      ext position inWide
      by_cases inside : position < narrow
      · by_cases low : position < count
        · simp [low]
        · simp [inside]
      · have beyond : value.getLsbD (position - count) = false :=
          getLsbD_of_ge _ _ (by omega)
        simp [beyond]
    simp only [if_true]
    rw [widened]

/-! ### Reduction maps -/

variable {V : Type} [AddCommGroup V]

/-- Accumulator and doubled operand after `count` bits. -/
def accumulate (double : V → V) (value : V) (bits : Nat → Bool) : Nat → V × V
  | 0 => (0, value)
  | count + 1 =>
    let state := accumulate double value bits count
    (state.1 + if bits count then state.2 else 0, double state.2)

/-- An additive map that turns the first `count` shifts of `value` into
doublings. -/
structure Reduces (reduce : BitVec width → V) (double : V → V) (value : BitVec width)
    (count : Nat) : Prop where
  additive : ∀ left right, reduce (left ^^^ right) = reduce left + reduce right
  doubles : ∀ shift, shift < count →
    reduce (value <<< (shift + 1)) = double (reduce (value <<< shift))

theorem additive_zero {reduce : BitVec width → V}
    (additive : ∀ left right, reduce (left ^^^ right) = reduce left + reduce right) :
    reduce 0 = 0 := by
  have doubled := additive 0 0
  rw [BitVec.xor_self] at doubled
  exact left_eq_add.mp doubled

theorem Reduces.product_eq {reduce : BitVec width → V} {double : V → V} {value : BitVec width}
    {count : Nat} (reduces : Reduces reduce double value count) (bits : Nat → Bool) :
    accumulate double (reduce value) bits count =
      (reduce (product value bits count), reduce (value <<< count)) := by
  induction count with
  | zero =>
    have atZero := additive_zero reduces.additive
    simp only [shiftLeft_zero]
    exact Prod.ext atZero.symm rfl
  | succ count ih =>
    have previous := ih ⟨reduces.additive, fun shift inside =>
      reduces.doubles shift (Nat.lt_succ_of_lt inside)⟩
    rw [accumulate, previous, product, reduces.additive, reduces.doubles count (Nat.lt_succ_self _)]
    cases bits count
    · simp only [Bool.false_eq_true, if_false]
      rw [additive_zero reduces.additive]
    · rfl

theorem product_one (bits : Nat → Bool) (count position : Nat) (inWidth : position < width) :
    (product (BitVec.ofNat width 1) bits count).getLsbD position =
      (decide (position < count) && bits position) := by
  induction count with
  | zero => simp [product]
  | succ count ih =>
    rw [product, getLsbD_xor, ih]
    by_cases atCount : position = count
    · subst atCount
      cases bits position <;> simp [inWidth]
    · have later : decide (position < count + 1) = decide (position < count) := by
        apply decide_eq_decide.mpr
        omega
      have elsewhere : (BitVec.ofNat width 1 <<< count).getLsbD position = false := by
        rw [← twoPow_eq]
        simp [Ne.symm atCount]
      rw [later]
      cases bits count <;> simp [elsewhere]

theorem additive_ext {first second : BitVec width → V}
    (firstAdditive : ∀ left right, first (left ^^^ right) = first left + first right)
    (secondAdditive : ∀ left right, second (left ^^^ right) = second left + second right)
    (agree : ∀ position : Fin width,
      first (BitVec.ofNat width 1 <<< position.val) = second (BitVec.ofNat width 1 <<< position.val))
    (value : BitVec width) : first value = second value := by
  have partialAgree : ∀ count, count ≤ width →
      first (product (BitVec.ofNat width 1) value.getLsbD count) =
        second (product (BitVec.ofNat width 1) value.getLsbD count) := by
    intro count
    induction count with
    | zero =>
      intro _
      simp only [product]
      rw [additive_zero firstAdditive, additive_zero secondAdditive]
    | succ count ih =>
      intro inside
      rw [product, firstAdditive, secondAdditive, ih (Nat.le_of_succ_le inside)]
      cases value.getLsbD count
      · simp only [Bool.false_eq_true, if_false]
        rw [additive_zero firstAdditive, additive_zero secondAdditive]
      · simp only [if_true]
        rw [agree ⟨count, inside⟩]
  have whole : product (BitVec.ofNat width 1) value.getLsbD width = value := by
    apply eq_of_getLsbD_eq
    intro position inWidth
    rw [product_one _ _ _ inWidth, decide_eq_true inWidth, Bool.true_and]
  have agreed := partialAgree width (Nat.le_refl _)
  rwa [whole] at agreed

end ReclaimTee.Carryless
