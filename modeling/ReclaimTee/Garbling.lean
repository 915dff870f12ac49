/-
Garbled gates over any vector space on the two-element field. A wire carries
one of two labels a fixed offset apart, and the select bit of a label tells an
evaluator which row to use. The hashes are arbitrary functions.
-/

import Mathlib.Algebra.Field.ZMod
import Mathlib.Algebra.Module.ZMod

namespace ReclaimTee.Garbling

variable {V : Type} [AddCommGroup V]

/-- The label that stands for `bit` on the wire with this zero label. -/
def encode (offset zero : V) (bit : Bool) : V :=
  if bit then zero + offset else zero

@[simp] theorem encode_false (offset zero : V) : encode offset zero false = zero := rfl

@[simp] theorem encode_true (offset zero : V) : encode offset zero true = zero + offset := rfl

def andGeneratorRow (select : V → Bool) (offset : V) (hash : V → V) (left right : V) : V :=
  hash left + hash (left + offset) + if select right then offset else 0

def andEvaluatorRow (offset : V) (hash : V → V) (left right : V) : V :=
  hash right + hash (right + offset) + left

def evaluateAnd (select : V → Bool) (leftHash rightHash : V → V)
    (generatorRow evaluatorRow left right : V) : V :=
  (leftHash left + if select left then generatorRow else 0) +
    (rightHash right + if select right then evaluatorRow + left else 0)

def invZero (select : V → Bool) (offset : V) (hash : V → V) (input : V) : V :=
  if select input then hash (input + offset) else hash input + offset

def invRow (offset : V) (hash : V → V) (input : V) : V :=
  hash input + hash (input + offset) + offset

def evaluateInv (select : V → Bool) (hash : V → V) (row input : V) : V :=
  hash input + if select input then row else 0

variable {select : V → Bool} {offset : V}

theorem select_encode
    (additive : ∀ left right, select (left + right) = (select left ^^ select right))
    (selected : select offset = true) (zero : V) (bit : Bool) :
    select (encode offset zero bit) = (select zero ^^ bit) := by
  cases bit
  · simp
  · simp [additive, selected]

section Correctness

variable [Module (ZMod 2) V]

theorem cancel_left (first second : V) : first + (first + second) = second := by
  rw [← add_assoc, ZModModule.add_self, zero_add]

theorem encode_xor (offset left right : V) (a b : Bool) :
    encode offset left a + encode offset right b = encode offset (left + right) (a ^^ b) := by
  cases a <;> cases b
  · rfl
  · simp [add_assoc]
  · simp [add_comm, add_left_comm]
  · simp only [encode_true, Bool.xor_self, encode_false]
    rw [add_add_add_comm, ZModModule.add_self, add_zero]

theorem encode_not (offset zero : V) (bit : Bool) :
    encode offset (zero + offset) bit = encode offset zero (!bit) := by
  cases bit
  · rfl
  · simp [add_assoc, ZModModule.add_self]

/-- Half gates: the evaluator's combination of its two rows is the label of
the conjunction. -/
theorem evaluateAnd_encode
    (additive : ∀ left right, select (left + right) = (select left ^^ select right))
    (selected : select offset = true) (leftHash rightHash : V → V) (left right : V) (a b : Bool) :
    evaluateAnd select leftHash rightHash
        (andGeneratorRow select offset leftHash left right)
        (andEvaluatorRow offset rightHash left right)
        (encode offset left a) (encode offset right b) =
      encode offset
        (evaluateAnd select leftHash rightHash
          (andGeneratorRow select offset leftHash left right)
          (andEvaluatorRow offset rightHash left right) left right) (a && b) := by
  have leftSelect := select_encode additive selected left a
  have rightSelect := select_encode additive selected right b
  unfold evaluateAnd andGeneratorRow andEvaluatorRow
  rw [leftSelect, rightSelect]
  cases a <;> cases b <;> cases select left <;> cases select right <;>
    simp [add_assoc, add_comm, add_left_comm, cancel_left, ZModModule.add_self]

theorem evaluateInv_encode
    (additive : ∀ left right, select (left + right) = (select left ^^ select right))
    (selected : select offset = true) (hash : V → V) (input : V) (bit : Bool) :
    evaluateInv select hash (invRow offset hash input) (encode offset input bit) =
      encode offset (invZero select offset hash input) (!bit) := by
  have inputSelect := select_encode additive selected input bit
  unfold evaluateInv invRow invZero
  rw [inputSelect]
  cases bit <;> cases select input <;>
    simp [add_comm, add_left_comm, cancel_left, ZModModule.add_self]

end Correctness

end ReclaimTee.Garbling
