/-
Two authenticated ciphers as their standards define them, over arbitrary
primitives: Galois/Counter Mode of a block cipher with a 96-bit IV, and
ChaCha20-Poly1305. Sealing is defined for the sizes that the standards allow.
-/

import Mathlib.Data.Vector.Defs
import ReclaimTee.BigEndian
import ReclaimTee.Overlay

namespace ReclaimTee.Aead

open List hiding Vector

/-! ### The field of Galois/Counter Mode -/

namespace Gcm

/-- A block of 16 bytes; its leftmost bit is the coefficient of the lowest power. -/
abbrev Block := BitVec 128

def reduction : Block := 0xe1000000000000000000000000000000

/-- Multiplication by the generator. -/
def double (value : Block) : Block :=
  if value.getLsbD 0 then (value >>> 1) ^^^ reduction else value >>> 1

/-- Sum and doubled operand after some bits of the left factor. -/
def mulSteps (left right : Block) : Nat → Block × Block
  | 0 => (0, right)
  | count + 1 =>
    let state := mulSteps left right count
    (if left.getMsbD count then state.1 ^^^ state.2 else state.1, double state.2)

def mul (left right : Block) : Block :=
  (mulSteps left right 128).1

@[simp] theorem double_zero : double 0#128 = 0#128 := rfl

theorem double_xor (left right : Block) : double (left ^^^ right) = double left ^^^ double right := by
  have bit : (left ^^^ right).getLsbD 0 = (left.getLsbD 0 ^^ right.getLsbD 0) :=
    BitVec.getLsbD_xor
  unfold double
  rw [bit, BitVec.ushiftRight_xor_distrib]
  cases left.getLsbD 0 <;> cases right.getLsbD 0
  · rfl
  · exact (BitVec.xor_assoc _ _ _).trans rfl
  · simp only [if_true, Bool.false_eq_true, if_false]
    ac_rfl
  · simp only [Bool.xor_self, Bool.false_eq_true, if_false, if_true]
    have cancels : left >>> 1 ^^^ reduction ^^^ (right >>> 1 ^^^ reduction) =
        left >>> 1 ^^^ right >>> 1 ^^^ (reduction ^^^ reduction) := by ac_rfl
    rw [cancels, BitVec.xor_self, BitVec.xor_zero]

def scale (bit : Bool) (value : Block) : Block :=
  if bit then value else 0

theorem double_scale (bit : Bool) (value : Block) :
    double (scale bit value) = scale bit (double value) := by
  cases bit
  · exact double_zero
  · rfl

/-- Horner's rule: the bits are added from the last one on, and every earlier step
doubles what is there. -/
def horner (bits : Nat → Bool) (value : Block) : Nat → Block
  | 0 => 0
  | count + 1 => double (horner bits value count) ^^^ scale (bits count) value

def weighted (bits : Nat → Bool) (value : Block) : Nat → Block
  | 0 => 0
  | count + 1 => weighted bits value count ^^^ scale (bits count) (double^[count] value)

theorem weighted_succ (bits : Nat → Bool) (value : Block) (count : Nat) :
    weighted bits value (count + 1) =
      scale (bits 0) value ^^^ double (weighted (fun index => bits (index + 1)) value count) := by
  induction count with
  | zero =>
    simp [weighted]
  | succ count ih =>
    have power : double^[count + 1] value = double (double^[count] value) :=
      Function.iterate_succ_apply' double count value
    calc
      weighted bits value (count + 1 + 1) =
          scale (bits 0) value ^^^ double (weighted (fun index => bits (index + 1)) value count) ^^^
            scale (bits (count + 1)) (double^[count + 1] value) := by
        rw [weighted, ih]
      _ = scale (bits 0) value ^^^
          double (weighted (fun index => bits (index + 1)) value (count + 1)) := by
        rw [weighted, double_xor, double_scale, power, BitVec.xor_assoc]

theorem mulSteps_eq (left right : Block) (count : Nat) :
    mulSteps left right count = (weighted left.getMsbD right count, double^[count] right) := by
  induction count with
  | zero => rfl
  | succ count ih =>
    rw [mulSteps, ih, Function.iterate_succ_apply', weighted]
    cases left.getMsbD count
    · simp [scale]
    · rfl

/-- Horner's rule over the bits from the right gives the weighted sum over the
bits from the left. -/
theorem horner_eq_weighted (bits : Nat → Bool) (value : Block) (count : Nat) :
    horner bits value count = weighted (fun index => bits (count - 1 - index)) value count := by
  induction count with
  | zero => rfl
  | succ count ih =>
    have shifted : (fun index => bits (count + 1 - 1 - (index + 1))) =
        fun index => bits (count - 1 - index) := by
      funext index
      congr 1
      omega
    rw [weighted_succ, shifted, horner, ih, BitVec.xor_comm]
    rfl

theorem mul_eq_horner (left right : Block) : mul left right = horner left.getLsbD right 128 := by
  have bits : ∀ count, count ≤ 128 →
      weighted left.getMsbD right count =
        weighted (fun index => left.getLsbD (128 - 1 - index)) right count := by
    intro count
    induction count with
    | zero => intro _; rfl
    | succ count ih =>
      intro inside
      have bit : left.getMsbD count = left.getLsbD (128 - 1 - count) := by
        rw [BitVec.getMsbD_eq_getLsbD, decide_eq_true (by omega : count < 128), Bool.true_and]
      rw [weighted, weighted, ih (by omega), bit]
  rw [mul, mulSteps_eq, horner_eq_weighted, bits 128 (Nat.le_refl _)]

/-! ### Galois/Counter Mode -/

def bytes (block : Block) : List Byte :=
  bigEndian 16 block.toNat

/-- A block from at most 16 bytes, filled up with zeros. -/
def ofBytes (data : List Byte) : Block :=
  BitVec.ofNat 128 (ofBigEndian (data ++ List.replicate (16 - data.length) 0))

def padBlocks (data : List Byte) : List Block :=
  (List.range (chunkCount data.length 16)).map fun index => ofBytes (chunk data 16 index)

def ghash (key : Block) (blocks : List Block) : Block :=
  blocks.foldl (fun sum block => mul (sum ^^^ block) key) 0

def lengthBlock (additional ciphertext : List Byte) : Block :=
  BitVec.ofNat 64 (8 * additional.length) ++ BitVec.ofNat 64 (8 * ciphertext.length)

/-- Only the last 32 bits count. -/
def inc32 (block : Block) : Block :=
  block.extractLsb' 32 96 ++ (block.extractLsb' 0 32 + 1)

def initialCounter (iv : List Byte) : Block :=
  ofBytes (iv ++ [0, 0, 0, 1])

def counterByte (cipher : Block → Block) (counter : Block) (position : Nat) : Byte :=
  (bytes (cipher (inc32^[position / 16] counter))).getD (position % 16) 0

def gctr (cipher : Block → Block) (counter : Block) (data : List Byte) :
    List Byte :=
  data.mapIdx fun position byte => byte ^^^ counterByte cipher counter position

def authenticatedEncrypt (cipher : Block → Block) (iv plaintext additional : List Byte) :
    Option (List Byte × List Byte) :=
  if iv.length = 12 ∧ plaintext.length ≤ 16 * (2 ^ 32 - 2) ∧ 8 * additional.length < 2 ^ 64 then
    let counter := initialCounter iv
    let ciphertext := gctr cipher (inc32 counter) plaintext
    let sum := ghash (cipher 0)
      (padBlocks additional ++ padBlocks ciphertext ++ [lengthBlock additional ciphertext])
    some (ciphertext, bytes (sum ^^^ cipher counter))
  else
    none

@[simp] theorem bytes_length (block : Block) : (bytes block).length = 16 :=
  bigEndian_length _ _

theorem ofBytes_eq {data : List Byte} (size : data.length = 16) :
    ofBytes data = BitVec.ofNat 128 (ofBigEndian data) := by
  rw [ofBytes, size, replicate_zero, append_nil]

theorem ofBytes_bytes (block : Block) : ofBytes (bytes block) = block := by
  have small : block.toNat < 256 ^ 16 := block.isLt
  rw [ofBytes_eq (bytes_length block), bytes, ofBigEndian_bigEndian small, BitVec.ofNat_toNat,
    BitVec.setWidth_eq]

theorem bytes_xor (left right : Block) :
    bytes (left ^^^ right) = List.zipWith (· ^^^ ·) (bytes left) (bytes right) := by
  apply ext_getElem?
  intro position
  simp only [bytes, bigEndian, getElem?_map, getElem?_zipWith]
  by_cases inside : position < 16
  · rw [getElem?_range inside]
    have byte : BitVec.ofNat 8 ((left ^^^ right).toNat >>> (8 * (16 - 1 - position))) =
        BitVec.ofNat 8 (left.toNat >>> (8 * (16 - 1 - position))) ^^^
          BitVec.ofNat 8 (right.toNat >>> (8 * (16 - 1 - position))) := by
      rw [BitVec.toNat_xor, Nat.shiftRight_xor_distrib, BitVec.ofNat_xor]
    exact congrArg some byte
  · rw [getElem?_eq_none (by rw [length_range]; omega)]
    rfl

theorem ofBytes_halves {front back high low : Nat} (whole : front + back = 16)
    (highFits : high < 256 ^ front) (lowFits : low < 256 ^ back) :
    (ofBytes (bigEndian front high ++ bigEndian back low)).toNat = high * 256 ^ back + low := by
  have size : (bigEndian front high ++ bigEndian back low).length = 16 := by
    rw [length_append, bigEndian_length, bigEndian_length, whole]
  have bound := ofBigEndian_lt (bigEndian front high ++ bigEndian back low)
  rw [size] at bound
  have value : ofBigEndian (bigEndian front high ++ bigEndian back low) =
      high * 256 ^ back + low := by
    rw [ofBigEndian_append, ofBigEndian_bigEndian highFits, ofBigEndian_bigEndian lowFits,
      bigEndian_length]
  rw [ofBytes_eq size, BitVec.toNat_ofNat, show 2 ^ 128 = 256 ^ 16 from rfl,
    Nat.mod_eq_of_lt bound, value]

theorem padBlocks_full {data : List Byte} (full : 16 ≤ data.length) :
    padBlocks data = ofBytes (data.take 16) :: padBlocks (data.drop 16) := by
  have count : chunkCount data.length 16 = chunkCount (data.drop 16).length 16 + 1 := by
    rw [length_drop, chunkCount, chunkCount]
    omega
  unfold padBlocks
  rw [count, range_succ_eq_map, map_cons, map_map]
  congr 1
  apply map_congr_left
  intro index _
  change ofBytes ((data.drop ((index + 1) * 16)).take 16) =
    ofBytes (((data.drop 16).drop (index * 16)).take 16)
  rw [drop_drop, Nat.succ_mul, Nat.add_comm]

theorem padBlocks_short {data : List Byte} (nonempty : data ≠ [])
    (short : data.length ≤ 16) : padBlocks data = [ofBytes data] := by
  have positive := length_pos_iff.mpr nonempty
  have count : chunkCount data.length 16 = 1 := by
    rw [chunkCount]
    omega
  unfold padBlocks
  rw [count]
  change [ofBytes ((data.drop (0 * 16)).take 16)] = [ofBytes data]
  rw [drop_zero, take_of_length_le short]

theorem inc32_append (high : BitVec 96) (low : BitVec 32) :
    inc32 (high ++ low) = high ++ (low + 1) := by
  have front : (high ++ low).extractLsb' 32 96 = high := by
    apply BitVec.eq_of_getLsbD_eq
    intro position inside
    rw [BitVec.getLsbD_extractLsb', BitVec.getLsbD_append, if_neg (by omega),
      Nat.add_sub_cancel_left, decide_eq_true inside, Bool.true_and]
  have back : (high ++ low).extractLsb' 0 32 = low := by
    apply BitVec.eq_of_getLsbD_eq
    intro position inside
    rw [BitVec.getLsbD_extractLsb', BitVec.getLsbD_append, Nat.zero_add, if_pos inside,
      decide_eq_true inside, Bool.true_and]
  rw [inc32, front, back]

theorem inc32_iterate (high : BitVec 96) (low : BitVec 32) (count : Nat) :
    inc32^[count] (high ++ low) = high ++ (low + BitVec.ofNat 32 count) := by
  induction count with
  | zero => simp
  | succ count ih =>
    have step : BitVec.ofNat 32 (count + 1) = BitVec.ofNat 32 count + 1 := by
      rw [BitVec.ofNat_add]
      rfl
    rw [Function.iterate_succ_apply', ih, inc32_append, step, BitVec.add_assoc]

end Gcm

/-! ### ChaCha20-Poly1305 -/

namespace ChaChaPoly

def littleEndian (size value : Nat) : List Byte :=
  (bigEndian size value).reverse

def pad16 (data : List Byte) : List Byte :=
  if data.length % 16 = 0 then [] else List.replicate (16 - data.length % 16) 0

variable (block : List Byte → BitVec 32 → List Byte → Vector Byte 64)

def encrypt (key : List Byte) (counter : Nat) (nonce data : List Byte) :
    List Byte :=
  data.mapIdx fun position byte => byte ^^^
    (block key (BitVec.ofNat 32 (counter + position / 64)) nonce).toList.getD (position % 64) 0

def macData (additional ciphertext : List Byte) : List Byte :=
  additional ++ pad16 additional ++ ciphertext ++ pad16 ciphertext ++
    littleEndian 8 additional.length ++ littleEndian 8 ciphertext.length

def authenticatedEncrypt (poly1305 : List Byte → List Byte → List Byte)
    (key nonce plaintext additional : List Byte) :
    Option (List Byte × List Byte) :=
  if key.length = 32 ∧ nonce.length = 12 ∧ plaintext.length ≤ 64 * (2 ^ 32 - 1) ∧
      additional.length < 2 ^ 64 then
    let oneTimeKey := (block key 0 nonce).toList.take 32
    let ciphertext := encrypt block key 1 nonce plaintext
    some (ciphertext, poly1305 oneTimeKey (macData additional ciphertext))
  else
    none

end ChaChaPoly

end ReclaimTee.Aead
