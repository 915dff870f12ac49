/-
Client authentication at a TEE: the token is verified, the clock is read again,
and the token's id is recorded under the lock of the replay tracker. Until the
token expires its id is accepted once; from then on the tracker has no entry.
-/

import Mathlib.Algebra.Group.Nat.Defs
import ReclaimTee.Table
import ReclaimTee.Transition

namespace ReclaimTee.Control

inductive JTIError
  | missing
  | replayed
  | capacityExceeded
  deriving DecidableEq

def JTIError.text : JTIError → String
  | missing => "jwt: missing jti claim"
  | replayed => "allocation JWT replayed (jti already used)"
  | capacityExceeded => "jti tracker at capacity; refusing new auth"

/-- Instants are nanoseconds; the zero time is 0. -/
structure JTITracker (maxSize : Nat) where
  entries : Table String Nat
  lastGCAt : Nat
  bounded : entries.size ≤ maxSize

def sizeCap (maxSize : Int) : Nat :=
  if maxSize ≤ 0 then 2 ^ 20 else maxSize.toNat

def newJTITracker (maxSize : Int) : JTITracker (sizeCap maxSize) where
  entries := .empty
  lastGCAt := 0
  bounded := Nat.zero_le _

namespace JTITracker

variable {maxSize : Nat} {tracker : JTITracker maxSize} {jti asked : String} {exp now known : Nat}

/-- Expired entries go, at most once in a second. -/
def sweep (tracker : JTITracker maxSize) (now : Nat) : JTITracker maxSize :=
  if now - tracker.lastGCAt > 1000000000 then
    { entries := tracker.entries.keep fun _ expAt => now < expAt
      lastGCAt := now
      bounded := Nat.le_trans (tracker.entries.size_keep_le _) tracker.bounded }
  else
    tracker

def use (tracker : JTITracker maxSize) (jti : String) (exp now : Nat) :
    JTITracker maxSize × Option JTIError :=
  if jti = "" then
    (tracker, some .missing)
  else
    let swept := tracker.sweep now
    if (swept.entries.find jti).any (now < ·) then
      (swept, some .replayed)
    else if room : swept.entries.size < maxSize then
      ({ swept with
        entries := swept.entries.put jti exp
        bounded := Nat.le_trans (swept.entries.size_put_le jti exp) room }, none)
    else
      (swept, some .capacityExceeded)

theorem sweep_find (live : now < exp) (found : tracker.entries.find jti = some exp) :
    (tracker.sweep now).entries.find jti = some exp := by
  unfold sweep
  split
  · exact Table.find_keep_eq_some_iff.mpr ⟨found, decide_eq_true live⟩
  · exact found

/-- A success was not recorded, as far as unexpired entries tell, and is afterwards. -/
theorem use_success (succeeded : (tracker.use jti exp now).2 = none) :
    (∀ prevExp, tracker.entries.find jti = some prevExp → prevExp ≤ now) ∧
      (tracker.use jti exp now).1.entries.find jti = some exp := by
  unfold use at succeeded ⊢
  grind [sweep_find, Table.find_put_self]

theorem use_find (live : now < known) (agreed : asked = jti → exp = known)
    (found : tracker.entries.find asked = some known) :
    (tracker.use jti exp now).1.entries.find asked = some known := by
  have kept := sweep_find live found
  unfold use
  grind [Table.find_put_self, Table.find_put_other]

end JTITracker

/-- `valid` stands for the signature, the issuer and the audience. -/
structure Token where
  valid : Bool
  id : String
  expiresAt : Nat
  deriving DecidableEq

/-- One call of ReadAndVerifyClientAuth. -/
inductive Call
  | waiting
  | verified (token : Token)
  | stamped (token : Token) (now : Nat)
  | accepted (token : Token)
  | refused
  deriving DecidableEq

def Call.token : Call → Option Token
  | verified token => some token
  | stamped token _ => some token
  | accepted token => some token
  | _ => none

structure Gate (maxSize : Nat) where
  clock : Nat
  tracker : JTITracker maxSize
  calls : Nat → Call

namespace Gate

variable {maxSize : Nat} {gate : Gate maxSize} {expiry : String → Nat} {index now : Nat}

def set (gate : Gate maxSize) (index : Nat) (call : Call) : Gate maxSize :=
  { gate with calls := fun asked => if asked = index then call else gate.calls asked }

inductive Action
  | tick (later : Nat)
  | verify (index : Nat) (token : Token)
  | readClock (index : Nat)
  | use (index : Nat)

-- The second reading is an argument of Use, so it is taken before the lock is.
def step (gate : Gate maxSize) : Action → Option (Gate maxSize)
  | .tick later => if gate.clock ≤ later then some { gate with clock := later } else none
  | .verify index token =>
    match gate.calls index with
    | .waiting => some (gate.set index
        (if token.valid ∧ gate.clock < token.expiresAt then .verified token else .refused))
    | _ => none
  | .readClock index =>
    match gate.calls index with
    | .verified token => some (gate.set index (.stamped token gate.clock))
    | _ => none
  | .use index =>
    match gate.calls index with
    | .stamped token now =>
      let used := gate.tracker.use token.id token.expiresAt now
      some ({ gate with tracker := used.1 }.set index
        (if used.2 = none then .accepted token else .refused))
    | _ => none

def machine (maxSize : Int) (boot : Nat) : Machine (Gate (sizeCap maxSize)) Action where
  start :=
    { clock := boot, tracker := newJTITracker maxSize, calls := fun _ => .waiting }
  step := step

/-- The issuer gives each id one expiry. -/
def issued (expiry : String → Nat) : Action → Bool
  | .verify _ token => !token.valid || token.expiresAt == expiry token.id
  | _ => true

/-- Ids are recorded while their token has not expired. -/
def inTime (gate : Gate maxSize) : Action → Bool
  | .use index => (gate.calls index).token.all (gate.clock < ·.expiresAt)
  | _ => true

def SingleUse (gate : Gate maxSize) : Prop :=
  ∀ first second one other, gate.calls first = .accepted one → gate.calls second = .accepted other →
    one.id = other.id → first = second

structure Guarded (expiry : String → Nat) (gate : Gate maxSize) : Prop where
  single : gate.SingleUse
  agreed : ∀ index token, (gate.calls index).token = some token → token.expiresAt = expiry token.id
  past : ∀ index token now, gate.calls index = .stamped token now → now ≤ gate.clock
  recorded : ∀ index token, gate.calls index = .accepted token → gate.clock < token.expiresAt →
    gate.tracker.entries.find token.id = some token.expiresAt

/-- A call may move if its token is the issuer's, its reading is past, and an accepted id is new
and in the table. -/
theorem Guarded.set {call : Call} (guarded : Guarded expiry gate)
    (agreed : ∀ token, call.token = some token → token.expiresAt = expiry token.id)
    (past : ∀ token now, call = .stamped token now → now ≤ gate.clock)
    (fresh : ∀ token, call = .accepted token →
      (∀ asked other, gate.calls asked = .accepted other → other.id ≠ token.id) ∧
        gate.tracker.entries.find token.id = some token.expiresAt) :
    Guarded expiry (gate.set index call) := by
  obtain ⟨single, agreedBefore, pastBefore, recorded⟩ := guarded
  constructor
  · intro first second one other here there same
    have both := single first second one other
    simp only [Gate.set] at here there
    grind
  all_goals grind [Gate.set]

theorem Guarded.use {token : Token} (guarded : Guarded expiry gate)
    (holds : gate.calls index = .stamped token now) (live : gate.clock < token.expiresAt) :
    let used := gate.tracker.use token.id token.expiresAt now
    Guarded expiry ({ gate with tracker := used.1 }.set index
      (if used.2 = none then .accepted token else .refused)) := by
  intro used
  have past := guarded.past index token now holds
  have own := guarded.agreed index token (by rw [holds]; rfl)
  have expires : ∀ {asked other}, gate.calls asked = .accepted other → other.id = token.id →
      token.expiresAt = other.expiresAt := by
    intro asked other accepted same
    rw [own, guarded.agreed asked other (by rw [accepted]; rfl), same]
  have tracked : Guarded expiry { gate with tracker := used.1 } := by
    refine ⟨guarded.single, guarded.agreed, guarded.past, ?_⟩
    intro asked other accepted unexpired
    exact JTITracker.use_find (Nat.lt_of_le_of_lt past unexpired) (expires accepted)
      (guarded.recorded asked other accepted unexpired)
  refine tracked.set ?_ ?_ ?_
  · grind [Call.token]
  · grind
  · intro held same
    obtain ⟨succeeded, rfl⟩ : used.2 = none ∧ token = held := by grind
    obtain ⟨unseen, entered⟩ := JTITracker.use_success succeeded
    refine ⟨?_, entered⟩
    -- An earlier call with this id has left an entry that no sweep has removed.
    intro asked other accepted same
    have expiry := expires accepted same
    have entry := guarded.recorded asked other accepted (by omega)
    rw [same] at entry
    have gone := unseen _ entry
    omega

theorem Guarded.step {action : Action} {after : Gate maxSize} (guarded : Guarded expiry gate)
    (permitted : (issued expiry action && gate.inTime action) = true)
    (taken : gate.step action = some after) : Guarded expiry after := by
  obtain ⟨given, live⟩ := Bool.and_eq_true_iff.mp permitted
  cases action with
  | tick later =>
    simp only [Gate.step, Option.ite_none_right_eq_some, Option.some.injEq] at taken
    obtain ⟨forward, rfl⟩ := taken
    refine ⟨guarded.single, guarded.agreed, ?_, ?_⟩
    · intro index token now holds
      exact Nat.le_trans (guarded.past index token now holds) forward
    · intro index token holds live
      exact guarded.recorded index token holds (Nat.lt_of_le_of_lt forward live)
  | verify index token =>
    cases holds : gate.calls index with
    | waiting =>
      simp only [Gate.step, holds, Option.some.injEq] at taken
      subst taken
      refine guarded.set ?_ ?_ ?_
      all_goals grind [Call.token, issued]
    | _ => simp [Gate.step, holds] at taken
  | readClock index =>
    cases holds : gate.calls index with
    | verified token =>
      simp only [Gate.step, holds, Option.some.injEq] at taken
      subst taken
      have own := guarded.agreed index token
      refine guarded.set ?_ ?_ ?_
      all_goals grind [Call.token]
    | _ => simp [Gate.step, holds] at taken
  | use index =>
    cases holds : gate.calls index with
    | stamped token now =>
      simp only [Gate.step, holds, Option.some.injEq] at taken
      subst taken
      simp only [inTime, holds, Call.token, Option.all_some, decide_eq_true_eq] at live
      exact guarded.use holds live
    | _ => simp [Gate.step, holds] at taken

/-- The table never exceeds its cap, and an id that is always recorded before its token expires is
accepted once. -/
theorem accepted_once_when_recorded_in_time (maxSize : Int) (boot : Nat) (expiry : String → Nat)
    (gate : Gate (sizeCap maxSize)) :
    gate.tracker.entries.size ≤ sizeCap maxSize ∧
    ((machine maxSize boot).Reach
        (fun before action => (issued expiry action && before.inTime action) = true) gate →
      gate.SingleUse) := by
  refine ⟨gate.tracker.bounded, ?_⟩
  intro reached
  have guarded : Guarded expiry gate := by
    refine reached.invariant ⟨nofun, nofun, nofun, nofun⟩ ?_
    intro before action after known permitted taken
    exact known.step permitted taken
  exact guarded.single

/-- Two calls verify one token a moment before it expires. -/
def bothVerified (recorded : Nat) : List Action :=
  let token : Token := { valid := true, id := "jti", expiresAt := 10 }
  [.verify 0 token, .verify 1 token, .tick recorded, .readClock 0, .use 0, .readClock 1, .use 1]

theorem accepted_once_before_expiry :
    ∃ gate, ((machine 0 0).runWhere (fun before action => issued (fun _ => 10) action &&
        before.inTime action) (machine 0 0).start (bothVerified 9)) = some gate ∧
      gate.calls 1 = .refused ∧ gate.SingleUse := by
  refine ⟨_, rfl, rfl, ?_⟩
  exact (accepted_once_when_recorded_in_time 0 0 (fun _ => 10) _).2
    (.runWhere .start (rfl : Machine.runWhere _ _ _ (bothVerified 9) = _))

/-- Recorded at the expiry, both are accepted. -/
theorem accepted_twice_at_expiry :
    ∃ gate, (machine 0 0).runWhere (fun _ action => issued (fun _ => 10) action)
      (machine 0 0).start (bothVerified 10) = some gate ∧ ¬ gate.SingleUse := by
  refine ⟨_, rfl, ?_⟩
  intro single
  exact absurd (single 0 1 _ _ rfl rfl rfl) (by decide)

end Gate

end ReclaimTee.Control
