/-
Bit and byte vectors in the least-significant-bit-first order of the circuit
inputs and outputs.
-/

import ReclaimTee.Bytes
import ReclaimTee.Lists

namespace ReclaimTee.Mpc

def byteBit (byte : Byte) (bit : Nat) : Bool :=
  byte &&& (1#8 <<< bit) != 0

def bytesToBits (data : List Byte) : List Bool :=
  data.flatMap fun byte => (List.range 8).map fun bit => byteBit byte bit

def packByte (bits : Nat → Bool) : Byte :=
  (List.range 8).foldl
    (fun byte bit => if bits bit then byte ||| (1#8 <<< bit) else byte) 0

/-- Packs `size` bytes; missing bits are zero. -/
def bitsToBytes (bits : List Bool) (size : Nat) : List Byte :=
  (List.range size).map fun byte => packByte fun bit => bits.getD (8 * byte + bit) false

def packedBit (bytes : List Byte) (position : Nat) : Bool :=
  byteBit (bytes.getD (position / 8) 0) (position % 8)

theorem testMask_eq_getLsbD {width : Nat} (value : BitVec width) (bit : Nat)
    (inWord : bit < width) :
    (value &&& (BitVec.ofNat width 1 <<< bit) != 0) = value.getLsbD bit := by
  have isolated := BitVec.and_twoPow value bit
  rw [BitVec.twoPow] at isolated
  rw [isolated]
  cases value.getLsbD bit
  · simp
  have nonzero : (BitVec.ofNat width 1 <<< bit) ≠ BitVec.ofNat width 0 := by
    intro vanishes
    have read := congrArg (fun word => word.getLsbD bit) vanishes
    simp [inWord] at read
  simp [nonzero]

theorem byteBit_eq_getLsbD (byte : Byte) (bit : Nat) (inByte : bit < 8) :
    byteBit byte bit = byte.getLsbD bit :=
  testMask_eq_getLsbD byte bit inByte

theorem byteBit_packByte (bits : Nat → Bool) (bit : Nat) (inByte : bit < 8) :
    byteBit (packByte bits) bit = bits bit := by
  have cases8 : bit = 0 ∨ bit = 1 ∨ bit = 2 ∨ bit = 3 ∨ bit = 4 ∨ bit = 5 ∨ bit = 6 ∨
      bit = 7 := by omega
  have allBits : ∀ b0 b1 b2 b3 b4 b5 b6 b7 : Bool,
      ∀ k : Fin 8,
        byteBit (packByte fun i => [b0, b1, b2, b3, b4, b5, b6, b7].getD i false) k.val =
          [b0, b1, b2, b3, b4, b5, b6, b7].getD k.val false := by
    decide +kernel
  have packed : packByte bits =
      packByte fun i =>
        [bits 0, bits 1, bits 2, bits 3, bits 4, bits 5, bits 6, bits 7].getD i false := by
    simp [packByte, List.range_succ]
  rw [packed]
  have read := allBits (bits 0) (bits 1) (bits 2) (bits 3) (bits 4) (bits 5) (bits 6) (bits 7)
    ⟨bit, inByte⟩
  rw [read]
  rcases cases8 with rfl | rfl | rfl | rfl | rfl | rfl | rfl | rfl <;> rfl

theorem packedBit_bitsToBytes (bits : List Bool) (size position : Nat)
    (inRange : position < 8 * size) :
    packedBit (bitsToBytes bits size) position = bits.getD position false := by
  have byteInRange : position / 8 < size := by omega
  have rejoined : 8 * (position / 8) + position % 8 = position := Nat.div_add_mod position 8
  have located : (bitsToBytes bits size).getD (position / 8) 0 =
      packByte fun bit => bits.getD (8 * (position / 8) + bit) false := by
    rw [List.getD_eq_getElem?_getD, bitsToBytes, List.getElem?_map, List.getElem?_range byteInRange]
    rfl
  rw [packedBit, located, byteBit_packByte _ _ (Nat.mod_lt _ (by decide)), rejoined]

theorem packedBit_cons_low (byte : Byte) (rest : List Byte) {position : Nat}
    (inByte : position < 8) : packedBit (byte :: rest) position = byteBit byte position := by
  rw [packedBit, Nat.div_eq_of_lt inByte, Nat.mod_eq_of_lt inByte]
  rfl

theorem packedBit_drop (bytes : List Byte) (offset position : Nat) :
    packedBit (bytes.drop offset) position = packedBit bytes (8 * offset + position) := by
  rw [packedBit, packedBit, getD_drop, Nat.mul_add_div (by decide), Nat.mul_add_mod]

theorem packedBit_cons_high (byte : Byte) (rest : List Byte) (position : Nat) :
    packedBit (byte :: rest) (8 + position) = packedBit rest position :=
  (packedBit_drop (byte :: rest) 1 position).symm

theorem packedBit_take (bytes : List Byte) (count position : Nat) (inside : position < 8 * count) :
    packedBit (bytes.take count) position = packedBit bytes position := by
  rw [packedBit, packedBit, getD_take _ _ _ _ (by omega)]

theorem bytesToBits_length (data : List Byte) : (bytesToBits data).length = 8 * data.length := by
  induction data with
  | nil => rfl
  | cons byte rest ih =>
    rw [bytesToBits, List.flatMap_cons, List.length_append, List.length_map,
      List.length_range, List.length_cons]
    have restLength : (rest.flatMap fun byte =>
        (List.range 8).map fun bit => byteBit byte bit).length = 8 * rest.length := ih
    rw [restLength]
    omega

end ReclaimTee.Mpc
