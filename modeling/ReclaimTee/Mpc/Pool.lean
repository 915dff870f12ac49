/-
The two random-OT pools of the paired nodes. The sender pool hands out the next
entries, the receiver pool any unused range; both wipe what they hand out and
drop a consumed front part. A failed call leaves the pool as it was.
-/

import ReclaimTee.Ledger
import ReclaimTee.Mpc.Index

namespace ReclaimTee.Mpc

def otPoolInitialSize : Nat := 100000

def otPoolExtendSize : Nat := 50000

def otPoolWatermark : Nat := 50000

def maxPrecomputeOTs : Nat := otPoolInitialSize

def validatePrecomputeCount (count : Int) : Except String Unit :=
  if count ≤ 0 ∨ (maxPrecomputeOTs : Int) < count then
    .error s!"mpc: unsupported OT precompute count {count} (maximum {maxPrecomputeOTs})"
  else
    .ok ()

/-- Overwrites the positions `offset ≤ i < offset + count` by `value`. -/
def fillRange {α : Type} (items : List α) (offset count : Nat) (value : α) : List α :=
  items.mapIdx fun position item =>
    if offset ≤ position ∧ position < offset + count then value else item

/-- The extension claim is a pointer, compared by identity only. -/
structure SenderPool where
  entries : List SenderOT
  baseIndex : Nat
  nextIndex : Nat
  extendClaim : Option Nat
deriving DecidableEq, Repr

namespace SenderPool

def new : SenderPool :=
  { entries := [], baseIndex := 0, nextIndex := 0, extendClaim := none }

def total (pool : SenderPool) : Except String Nat :=
  match checkedIndexEnd pool.baseIndex pool.entries.length with
  | .error _ => .error "mpc: invalid sender pool frontier"
  | .ok total =>
    if pool.nextIndex < pool.baseIndex ∨ total < pool.nextIndex then
      .error "mpc: invalid sender pool frontier"
    else
      .ok total

def validateAdd (pool : SenderPool) (entries : List SenderOT) : Except String Unit := do
  let start ← pool.total
  let _ ← checkedIndexEnd start entries.length
  validateSenderOTIndices entries start

def add (pool : SenderPool) (entries : List SenderOT) : Except String SenderPool := do
  pool.validateAdd entries
  return { pool with entries := pool.entries ++ entries }

def compactConsumed (pool : SenderPool) : SenderPool :=
  let consumed := pool.nextIndex - pool.baseIndex
  if consumed < otPoolWatermark ∧ consumed < pool.entries.length / 2 then
    pool
  else
    { pool with entries := pool.entries.drop consumed, baseIndex := pool.nextIndex }

def reserve (pool : SenderPool) (count : Int) :
    Except String ((Nat × List SenderOT) × SenderPool) := do
  rejectIf (count ≤ 0)
    s!"mpc: invalid OT reservation count {count}"
  rejectIf (pool.nextIndex < pool.baseIndex)
    "mpc: invalid sender pool index state"
  let total ← pool.total
  let finish ← checkedIndexEnd pool.nextIndex count
  rejectIf (total < finish)
    s!"mpc: insufficient sender OTs: need {count}, available {total - pool.nextIndex}"
  let start := pool.nextIndex
  let offset := start - pool.baseIndex
  let result := (pool.entries.drop offset).take count.toNat
  let wiped :=
    { pool with
      entries := fillRange pool.entries offset count.toNat SenderOT.cleared
      nextIndex := finish }
  return ((start, result), wiped.compactConsumed)

def clearEntries (pool : SenderPool) : SenderPool :=
  { pool with entries := [], baseIndex := 0, nextIndex := 0 }

def clear (pool : SenderPool) : SenderPool :=
  { pool.clearEntries with extendClaim := none }

def clearForExtendFailure (pool : SenderPool) (claim : Option Nat) : Bool × SenderPool :=
  if claim = none ∨ pool.extendClaim ≠ claim then
    (false, pool)
  else
    (true, pool.clearEntries)

def available (pool : SenderPool) : Nat :=
  match pool.total with
  | .error _ => 0
  | .ok total => total - pool.nextIndex

def totalCount (pool : SenderPool) : Nat :=
  match pool.total with
  | .error _ => 0
  | .ok total => total

/-- The allocation supplies the identity of a new claim. -/
def claimExtendIfNeeded (pool : SenderPool) (allocated : Nat) :
    Option Nat × SenderPool :=
  match pool.total with
  | .error _ => (none, pool)
  | .ok total =>
    if otPoolWatermark ≤ total - pool.nextIndex ∨ pool.extendClaim ≠ none then
      (none, pool)
    else
      (some allocated, { pool with extendClaim := some allocated })

def isExtendPending (pool : SenderPool) : Bool :=
  pool.extendClaim.isSome

def ownsExtendClaim (pool : SenderPool) (claim : Option Nat) : Bool :=
  claim.isSome && pool.extendClaim == claim

def releaseExtendClaim (pool : SenderPool) (claim : Option Nat) : Bool × SenderPool :=
  if claim = none ∨ pool.extendClaim ≠ claim then
    (false, pool)
  else
    (true, { pool with extendClaim := none })

def invalidateExtendClaim (pool : SenderPool) : SenderPool :=
  { pool with extendClaim := none }

end SenderPool

structure ReceiverPool where
  entries : List ReceiverOT
  used : List Bool
  baseIndex : Nat
  highWater : Nat
  availableCount : Int
deriving DecidableEq, Repr

namespace ReceiverPool

def new : ReceiverPool :=
  { entries := [], used := [], baseIndex := 0, highWater := 0, availableCount := 0 }

def total (pool : ReceiverPool) : Except String Nat :=
  match checkedIndexEnd pool.baseIndex pool.entries.length with
  | .error _ => .error "mpc: invalid receiver pool frontier"
  | .ok total =>
    if pool.used.length ≠ pool.entries.length ∨ pool.availableCount < 0 ∨
        pool.entries.length < pool.availableCount ∨
        pool.highWater < pool.baseIndex ∨ total < pool.highWater then
      .error "mpc: invalid receiver pool frontier"
    else
      .ok total

def add (pool : ReceiverPool) (entries : List ReceiverOT) :
    Except String ReceiverPool := do
  let start ← pool.total
  let _ ← checkedIndexEnd start entries.length
  validateReceiverOTIndices entries start
  return { pool with
    entries := pool.entries ++ entries
    used := pool.used ++ List.replicate entries.length false
    availableCount := pool.availableCount + entries.length }

def compactConsumed (pool : ReceiverPool) : ReceiverPool :=
  let consumed := (pool.used.takeWhile fun flag => flag).length
  if consumed < otPoolWatermark ∧ consumed < pool.entries.length / 2 then
    pool
  else
    { pool with
      entries := pool.entries.drop consumed
      used := pool.used.drop consumed
      baseIndex := pool.baseIndex + consumed }

/-- The first used flag in the window `offset ≤ i < offset + count`. -/
def firstUsed (used : List Bool) (offset count : Nat) : Option Nat :=
  ((used.drop offset).take count).findIdx? fun flag => flag

def validateConsumable (pool : ReceiverPool) (start : Nat) (count : Int) :
    Except String Unit := do
  rejectIf (count ≤ 0)
    s!"mpc: invalid OT consume count {count}"
  rejectIf (start < pool.baseIndex)
    s!"mpc: receiver OT range starts before retained index {pool.baseIndex}"
  let total ← pool.total
  let finish ← checkedIndexEnd start count
  rejectIf (total < finish)
    s!"mpc: insufficient receiver OTs: need through {finish}, total {total}"
  rejectSome (firstUsed pool.used (start - pool.baseIndex) count.toNat) fun position =>
    s!"mpc: receiver OT index {start + position} already used"

def consume (pool : ReceiverPool) (start : Nat) (count : Int) :
    Except String (List ReceiverOT × ReceiverPool) := do
  pool.validateConsumable start count
  let finish := start + count.toNat
  let offset := start - pool.baseIndex
  let result := (pool.entries.drop offset).take count.toNat
  let wiped :=
    { pool with
      entries := fillRange pool.entries offset count.toNat ReceiverOT.cleared
      used := fillRange pool.used offset count.toNat true
      availableCount := pool.availableCount - count
      highWater := if pool.highWater < finish then finish else pool.highWater }
  return (result, wiped.compactConsumed)

/-- Discards every entry below the sender's reservation frontier. -/
def advanceTo (pool : ReceiverPool) (next : Nat) : Except String ReceiverPool := do
  let total ← pool.total
  rejectIf (next < pool.highWater ∨ total < next)
    s!"mpc: receiver OT resume index {next} outside [{pool.highWater},{total}]"
  let finish := next - pool.baseIndex
  let discarded := (pool.used.take finish).count false
  let wiped :=
    { pool with
      entries := fillRange pool.entries 0 finish ReceiverOT.cleared
      used := fillRange pool.used 0 finish true
      availableCount := pool.availableCount - discarded
      highWater := next }
  return wiped.compactConsumed

def clear (_pool : ReceiverPool) : ReceiverPool := new

def available (pool : ReceiverPool) : Int :=
  match pool.total with
  | .error _ => 0
  | .ok _ => pool.availableCount

def totalCount (pool : ReceiverPool) : Nat :=
  match pool.total with
  | .error _ => 0
  | .ok total => total

def nextIndex (pool : ReceiverPool) : Nat :=
  pool.highWater

end ReceiverPool

def validatePoolAgreement (sender : SenderPool) (receiver : ReceiverPool) :
    Except String Unit :=
  if sender.totalCount ≠ receiver.totalCount ∨ sender.nextIndex ≠ receiver.nextIndex then
    .error "mpc: sender and receiver OT pools disagree"
  else
    .ok ()

end ReclaimTee.Mpc
