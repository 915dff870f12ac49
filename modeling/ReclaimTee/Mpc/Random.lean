/-
Random sources and the full reads that the protocol steps make from them.
-/

import ReclaimTee.Checked
import ReclaimTee.Mpc.Bits

namespace ReclaimTee.Mpc

/-- A random source yields a byte or a read error at each stream position. -/
abbrev RandomSource := Nat → Except String Byte

def readFull (rng : RandomSource) (position : Nat) : Nat → Except String (List Byte)
  | 0 => .ok []
  | count + 1 => do
      let byte ← rng position
      let rest ← readFull rng (position + 1) count
      return byte :: rest

def RandomSource.Supplies (rng : RandomSource) (count : Nat) : Prop :=
  ∀ position, position < count → ∃ byte, rng position = .ok byte

theorem RandomSource.Supplies.readFull_eq_ok {rng : RandomSource} {size : Nat}
    (supplies : rng.Supplies size) {position count : Nat} (fits : position + count ≤ size) :
    ∃ bytes, readFull rng position count = .ok bytes := by
  induction count generalizing position with
  | zero => exact ⟨[], rfl⟩
  | succ count ih =>
    obtain ⟨byte, first⟩ := supplies position (by omega)
    obtain ⟨rest, later⟩ := ih (by omega : position + 1 + count ≤ size)
    rw [readFull, first, later]
    exact ⟨_, rfl⟩

end ReclaimTee.Mpc
