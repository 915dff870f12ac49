/-
Numbers as bytes, the most significant byte first. Writing with a fixed size
and reading are inverse to each other on the numbers that fit.
-/

import ReclaimTee.Bytes

namespace ReclaimTee

open List

/-- The low `size` bytes of a number. -/
def bigEndian (size value : Nat) : List Byte :=
  (List.range size).map fun index => BitVec.ofNat 8 (value >>> (8 * (size - 1 - index)))

def ofBigEndian (bytes : List Byte) : Nat :=
  bytes.foldl (fun value byte => value * 256 + byte.toNat) 0

@[simp] theorem bigEndian_length (size value : Nat) : (bigEndian size value).length = size := by
  rw [bigEndian, length_map, length_range]

theorem bigEndian_succ (size value : Nat) :
    bigEndian (size + 1) value = bigEndian size (value / 256) ++ [BitVec.ofNat 8 value] := by
  unfold bigEndian
  rw [range_succ, map_append]
  congr 1
  · apply map_congr_left
    intro index inside
    have bound := mem_range.mp inside
    have split : 8 * (size + 1 - 1 - index) = 8 + 8 * (size - 1 - index) := by omega
    rw [split, Nat.shiftRight_add, Nat.shiftRight_eq_div_pow value 8]
  · simp

theorem ofBigEndian_snoc (bytes : List Byte) (byte : Byte) :
    ofBigEndian (bytes ++ [byte]) = ofBigEndian bytes * 256 + byte.toNat := by
  unfold ofBigEndian
  rw [foldl_append]
  rfl

theorem ofBigEndian_append (front back : List Byte) :
    ofBigEndian (front ++ back) = ofBigEndian front * 256 ^ back.length + ofBigEndian back := by
  induction back using List.reverseRecOn with
  | nil => simp [ofBigEndian]
  | append_singleton rest byte ih =>
    rw [← append_assoc, ofBigEndian_snoc, ofBigEndian_snoc, ih, length_append,
      length_singleton, Nat.pow_succ, Nat.add_mul, Nat.mul_assoc, Nat.add_assoc]

theorem ofBigEndian_lt (bytes : List Byte) : ofBigEndian bytes < 256 ^ bytes.length := by
  induction bytes using List.reverseRecOn with
  | nil => exact Nat.one_pos
  | append_singleton rest byte ih =>
    rw [ofBigEndian_snoc, length_append, length_singleton]
    omega

theorem bigEndian_ofBigEndian (bytes : List Byte) :
    bigEndian bytes.length (ofBigEndian bytes) = bytes := by
  induction bytes using List.reverseRecOn with
  | nil => rfl
  | append_singleton rest byte ih =>
    have front : (ofBigEndian rest * 256 + byte.toNat) / 256 = ofBigEndian rest := by omega
    have last : BitVec.ofNat 8 (ofBigEndian rest * 256 + byte.toNat) = byte := by
      apply BitVec.eq_of_toNat_eq
      rw [BitVec.toNat_ofNat]
      omega
    rw [length_append, length_singleton, bigEndian_succ, ofBigEndian_snoc, front, ih, last]

theorem ofBigEndian_bigEndian {size value : Nat} (fits : value < 256 ^ size) :
    ofBigEndian (bigEndian size value) = value := by
  induction size generalizing value with
  | zero =>
    rw [Nat.pow_zero] at fits
    have zero : value = 0 := by omega
    rw [zero]
    rfl
  | succ size ih =>
    rw [Nat.pow_succ] at fits
    rw [bigEndian_succ, ofBigEndian_snoc, ih (by omega), BitVec.toNat_ofNat]
    omega

theorem bigEndian_append (front back high low : Nat) (fits : low < 256 ^ back) :
    bigEndian (front + back) (high * 256 ^ back + low) =
      bigEndian front high ++ bigEndian back low := by
  induction back generalizing low with
  | zero =>
    rw [Nat.pow_zero] at fits
    have zero : low = 0 := by omega
    rw [zero, Nat.pow_zero, Nat.mul_one]
    exact (append_nil _).symm
  | succ back ih =>
    rw [Nat.pow_succ] at fits
    have quotient : (high * 256 ^ (back + 1) + low) / 256 = high * 256 ^ back + low / 256 := by
      rw [Nat.pow_succ, ← Nat.mul_assoc]
      omega
    have last : BitVec.ofNat 8 (high * 256 ^ (back + 1) + low) = BitVec.ofNat 8 low := by
      apply BitVec.eq_of_toNat_eq
      rw [BitVec.toNat_ofNat, BitVec.toNat_ofNat, Nat.pow_succ, ← Nat.mul_assoc]
      omega
    rw [← Nat.add_assoc, bigEndian_succ, quotient, ih (low / 256) (by omega), last,
      bigEndian_succ back low, append_assoc]

end ReclaimTee
