/-
Random-OT entries and the bounded index arithmetic of the OT pools. Indices
and lengths are natural numbers; an index stays a uint64 value because every
range end passes the checked addition below.
-/

import ReclaimTee.Checked
import ReclaimTee.Mpc.Label

namespace ReclaimTee.Mpc

structure SenderOT where
  r0 : Label
  r1 : Label
  index : Nat
deriving DecidableEq, Repr, Inhabited

structure ReceiverOT where
  r : Label
  index : Nat
  choice : Bool
deriving DecidableEq, Repr, Inhabited

/-- The receiver's entry of one random OT: same index, and the sender label
that its choice selects. -/
structure Correlated (sent : SenderOT) (received : ReceiverOT) : Prop where
  sameIndex : received.index = sent.index
  chosen : received.r = if received.choice then sent.r1 else sent.r0

/-- The zero value that a cleared entry holds. -/
def SenderOT.cleared : SenderOT :=
  { r0 := Label.zero, r1 := Label.zero, index := 0 }

def ReceiverOT.cleared : ReceiverOT :=
  { r := Label.zero, index := 0, choice := false }

def maxUint64 : Nat :=
  2 ^ 64 - 1

def checkedIndexEnd (start : Nat) (count : Int) : Except String Nat :=
  if count < 0 then
    .error s!"mpc: negative OT count {count}"
  else if maxUint64 - start < count.toNat then
    .error s!"mpc: OT index range overflows uint64: start={start} count={count}"
  else
    .ok (start + count.toNat)

/-- The first position whose index is not `start` plus its offset. -/
def firstIndexMismatch : List Nat → Nat → Option (Nat × Nat)
  | [], _ => none
  | found :: rest, expected =>
    if found = expected then
      firstIndexMismatch rest (expected + 1)
    else
      some (found, expected)

def validateOTIndices (role : String) (indices : List Nat) (start : Nat) :
    Except String Unit := do
  let _ ← checkedIndexEnd start indices.length
  rejectSome (firstIndexMismatch indices start) fun (found, expected) =>
    s!"mpc: {role} OT index {expected - start}: got {found} want {expected}"

def validateSenderOTIndices (ots : List SenderOT) (start : Nat) :
    Except String Unit :=
  validateOTIndices "sender" (ots.map SenderOT.index) start

def validateReceiverOTIndices (ots : List ReceiverOT) (start : Nat) :
    Except String Unit :=
  validateOTIndices "receiver" (ots.map ReceiverOT.index) start

theorem checkedIndexEnd_ok_iff {start finish : Nat} {count : Int} :
    checkedIndexEnd start count = .ok finish ↔
      0 ≤ count ∧ count.toNat ≤ maxUint64 - start ∧ finish = start + count.toNat := by
  unfold checkedIndexEnd
  split
  · constructor
    · nofun
    · intro bounds
      omega
  · split
    · constructor
      · nofun
      · intro bounds
        omega
    · constructor
      · intro same
        cases same
        exact ⟨by omega, by omega, rfl⟩
      · rintro ⟨_, _, rfl⟩
        rfl

theorem firstIndexMismatch_eq_none_iff (indices : List Nat) (start : Nat) :
    firstIndexMismatch indices start = none ↔ indices = List.range' start indices.length := by
  induction indices generalizing start with
  | nil => simp [firstIndexMismatch]
  | cons found rest ih =>
    simp only [firstIndexMismatch, List.length_cons, List.range'_succ, List.cons.injEq]
    by_cases same : found = start
    · simp only [same, true_and]
      exact ih (start + 1)
    · simp [same]

theorem validateOTIndices_ok_iff {role : String} {indices : List Nat} {start : Nat} {value : Unit} :
    validateOTIndices role indices start = .ok value ↔
      indices.length ≤ maxUint64 - start ∧ indices = List.range' start indices.length := by
  unfold validateOTIndices
  simp only [bind_eq_ok_iff, rejectSome_eq_ok_iff, firstIndexMismatch_eq_none_iff,
    checkedIndexEnd_ok_iff]
  constructor
  · intro accepted
    obtain ⟨_, ⟨_, fits, _⟩, consecutive⟩ := accepted
    exact ⟨by omega, consecutive⟩
  · intro valid
    exact ⟨_, ⟨by omega, by omega, rfl⟩, valid.2⟩

end ReclaimTee.Mpc
