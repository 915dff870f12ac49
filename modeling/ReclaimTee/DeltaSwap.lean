/-
Bit-matrix transposition by block exchange, for matrices of any order that is
a power of two. Exchanging once for every bit of the row and column numbers, in
any order, reflects the matrix in its anti-diagonal.
-/

import Mathlib.Data.Nat.Bitwise

namespace ReclaimTee.DeltaSwap

abbrev BitMatrix := Nat → Nat → Bool

def exchange (bit : Nat) (matrix : BitMatrix) : BitMatrix := fun row col =>
  if row.testBit bit = col.testBit bit then
    matrix (row ^^^ 2 ^ bit) (col ^^^ 2 ^ bit)
  else
    matrix row col

def exchangeAll (bits : List Nat) (matrix : BitMatrix) : BitMatrix :=
  bits.foldl (fun current bit => exchange bit current) matrix

/-- `origin` has the bits of `kept`, except that the listed ones are the
complements of the bits of `crossed`. -/
def CrossedAt (bits : List Nat) (kept crossed origin : Nat) : Prop :=
  ∀ position, origin.testBit position =
    if position ∈ bits then !crossed.testBit position else kept.testBit position

theorem CrossedAt.flip {bits : List Nat} {kept crossed origin bit : Nat}
    (origins : CrossedAt bits kept crossed origin) (fresh : bit ∉ bits)
    (equalBits : kept.testBit bit = crossed.testBit bit) :
    CrossedAt (bit :: bits) kept crossed (origin ^^^ 2 ^ bit) := by
  intro position
  rw [Nat.testBit_xor, origins position]
  by_cases atBit : bit = position
  · subst atBit
    simp [fresh, equalBits]
  · have apart : position ≠ bit := fun same => atBit same.symm
    simp [atBit, apart]

theorem CrossedAt.keep {bits : List Nat} {kept crossed origin bit : Nat}
    (origins : CrossedAt bits kept crossed origin) (fresh : bit ∉ bits)
    (differentBits : kept.testBit bit ≠ crossed.testBit bit) :
    CrossedAt (bit :: bits) kept crossed origin := by
  intro position
  rw [origins position]
  by_cases atBit : position = bit
  · subst atBit
    have complement : kept.testBit position = !crossed.testBit position := by
      cases keptBit : kept.testBit position <;>
        cases crossedBit : crossed.testBit position <;> simp_all
    simp [complement]
  · simp [atBit]

theorem exchangeAll_origin (bits : List Nat) (distinct : bits.Nodup) (matrix : BitMatrix)
    (row col : Nat) :
    ∃ rowOrigin colOrigin, CrossedAt bits row col rowOrigin ∧
      CrossedAt bits col row colOrigin ∧
      exchangeAll bits matrix row col = matrix rowOrigin colOrigin := by
  induction bits generalizing matrix with
  | nil =>
    exact ⟨row, col, fun _ => by simp, fun _ => by simp, rfl⟩
  | cons bit rest ih =>
    obtain ⟨fresh, restDistinct⟩ := List.nodup_cons.mp distinct
    obtain ⟨rowOrigin, colOrigin, rowCrossed, colCrossed, moved⟩ :=
      ih restDistinct (exchange bit matrix)
    have rowBit : rowOrigin.testBit bit = row.testBit bit := by
      rw [rowCrossed bit, if_neg fresh]
    have colBit : colOrigin.testBit bit = col.testBit bit := by
      rw [colCrossed bit, if_neg fresh]
    have unfolded : exchangeAll (bit :: rest) matrix row col =
        exchange bit matrix rowOrigin colOrigin := moved
    rw [unfolded, exchange, rowBit, colBit]
    by_cases equalBits : row.testBit bit = col.testBit bit
    · rw [if_pos equalBits]
      exact ⟨_, _, rowCrossed.flip fresh equalBits, colCrossed.flip fresh equalBits.symm, rfl⟩
    · rw [if_neg equalBits]
      exact ⟨_, _, rowCrossed.keep fresh equalBits, colCrossed.keep fresh (Ne.symm equalBits), rfl⟩

theorem CrossedAt.eq_complement {bits : List Nat} {order kept crossed origin : Nat}
    (origins : CrossedAt bits kept crossed origin)
    (covers : ∀ position, position ∈ bits ↔ position < order) (keptInRange : kept < 2 ^ order)
    (crossedInRange : crossed < 2 ^ order) : origin = 2 ^ order - 1 - crossed := by
  have rearranged : 2 ^ order - 1 - crossed = 2 ^ order - (crossed + 1) := by omega
  rw [rearranged]
  apply Nat.eq_of_testBit_eq
  intro position
  rw [origins position, Nat.testBit_two_pow_sub_succ crossedInRange]
  by_cases inOrder : position < order
  · simp [(covers position).mpr inOrder, inOrder]
  have outside : kept.testBit position = false := by
    apply Nat.testBit_lt_two_pow
    exact lt_of_lt_of_le keptInRange (Nat.pow_le_pow_right (by omega) (by omega))
  have unlisted : position ∉ bits := fun listed => inOrder ((covers position).mp listed)
  simp [unlisted, inOrder, outside]

theorem exchangeAll_reflects {bits : List Nat} {order : Nat} (distinct : bits.Nodup)
    (covers : ∀ position, position ∈ bits ↔ position < order) (matrix : BitMatrix)
    {row col : Nat} (rowInRange : row < 2 ^ order) (colInRange : col < 2 ^ order) :
    exchangeAll bits matrix row col = matrix (2 ^ order - 1 - col) (2 ^ order - 1 - row) := by
  obtain ⟨rowOrigin, colOrigin, rowCrossed, colCrossed, moved⟩ :=
    exchangeAll_origin bits distinct matrix row col
  rw [moved, rowCrossed.eq_complement covers rowInRange colInRange,
    colCrossed.eq_complement covers colInRange rowInRange]

end ReclaimTee.DeltaSwap
