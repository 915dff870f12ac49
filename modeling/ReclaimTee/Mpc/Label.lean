/-
The 128-bit wire label of the garbled circuit, with the permutation bit in the
most significant bit of its first word. Labels form a vector space over the
two-element field under exclusive or.
-/

import Mathlib.Algebra.Field.ZMod
import Mathlib.Algebra.Module.ZMod
import ReclaimTee.Bytes

namespace ReclaimTee.Mpc

@[ext] structure Label where
  d0 : BitVec 64
  d1 : BitVec 64
deriving DecidableEq, Repr, Inhabited

namespace Label

def zero : Label :=
  { d0 := 0, d1 := 0 }

def xor (left right : Label) : Label :=
  { d0 := left.d0 ^^^ right.d0, d1 := left.d1 ^^^ right.d1 }

def permutationBit (label : Label) : Bool :=
  label.d0 >>> 63 != 0

def permutationMask : BitVec 64 :=
  1#64 <<< 63

def withPermutationBit (label : Label) (set : Bool) : Label :=
  if set then
    { label with d0 := label.d0 ||| permutationMask }
  else
    { label with d0 := label.d0 &&& ~~~permutationMask }

def bytesOfWord (word : BitVec 64) : List Byte :=
  (List.range 8).map fun index => (word >>> (8 * (7 - index))).setWidth 8

def bigEndianWord (bytes : List Byte) : BitVec 64 :=
  bytes.foldl (fun word byte => (word <<< 8) ||| byte.setWidth 64) 0

/-- Both words are written big-endian. -/
def put (label : Label) : List Byte :=
  bytesOfWord label.d0 ++ bytesOfWord label.d1

def fromBytes (bytes : List Byte) : Label :=
  { d0 := bigEndianWord (bytes.take 8), d1 := bigEndianWord ((bytes.drop 8).take 8) }

theorem permutationBit_eq_msb (label : Label) : label.permutationBit = label.d0.getLsbD 63 := by
  have shifted : label.d0 >>> 63 = (BitVec.ofBool (label.d0.getLsbD 63)).setWidth 64 := by
    ext index inRange
    simp [BitVec.getLsbD_ofBool]
    by_cases atZero : index = 0
    · subst index
      simp
    · have outside : 64 ≤ 63 + index := by omega
      simp [atZero]
      exact BitVec.getLsbD_of_ge _ _ outside
  rw [permutationBit, shifted]
  cases label.d0.getLsbD 63 <;> decide

@[simp] theorem withPermutationBit_permutationBit (label : Label) (set : Bool) :
    (label.withPermutationBit set).permutationBit = set := by
  cases set <;> simp [permutationBit_eq_msb, withPermutationBit, permutationMask]

@[simp] theorem permutationBit_xor (left right : Label) :
    (left.xor right).permutationBit = (left.permutationBit ^^ right.permutationBit) := by
  simp [permutationBit_eq_msb, xor]

instance : Add Label := ⟨xor⟩

instance : Zero Label := ⟨zero⟩

instance : Neg Label := ⟨id⟩

instance : AddCommGroup Label where
  add_assoc left middle right := by
    ext : 1 <;> exact BitVec.xor_assoc _ _ _
  zero_add label := by
    ext : 1 <;> exact BitVec.zero_xor
  add_zero label := by
    ext : 1 <;> exact BitVec.xor_zero
  add_comm left right := by
    ext : 1 <;> exact BitVec.xor_comm _ _
  neg_add_cancel label := by
    ext : 1 <;> exact BitVec.xor_self
  nsmul := nsmulRec
  zsmul := zsmulRec

theorem xor_eq_add (left right : Label) : left.xor right = left + right := rfl

theorem add_self (label : Label) : label + label = 0 :=
  neg_add_cancel label

instance : Module (ZMod 2) Label :=
  AddCommGroup.zmodModule (by
    intro label
    rw [two_nsmul]
    exact add_self label)

@[simp] theorem permutationBit_add (left right : Label) :
    (left + right).permutationBit = (left.permutationBit ^^ right.permutationBit) :=
  permutationBit_xor left right

@[simp] theorem permutationBit_zero : (0 : Label).permutationBit = false := by
  decide

end Label

end ReclaimTee.Mpc
