/-
The attestation refresh loop of the TEE. An attempt publishes a newer epoch if
there is one; the wait before the next is a clamp on the time left until a lead
before the leaf's expiry. Wherever the first attempt in the reissue window falls,
there is time for a second.
-/

import Mathlib.Data.Int.Order.Basic

namespace ReclaimTee.TokenHive.Tee

/-- Instants and durations are nanoseconds. -/
def second : Int := 1000000000

def minute : Int := 60 * second

def minRefreshFloor : Int := 2 * minute

def ratlsRefreshIntervalSNP : Int := 120 * minute

def snpRotationLead : Int := 9 * minute

def snpSigningMargin : Int := 5 * minute

/-- How long before a leaf's expiry the platform gives out a newer one. -/
def snpReissueWindow : Int := 9 * minute + 48 * second

/-- Where the loop asks for the next delay: the expiry of the adapter's leaf, that of the leaf
the service signs with, and whether the last publication succeeded. -/
structure Refresher where
  now : Int
  current : Int
  adopted : Int
  published : Bool

/-- `leaf` is the expiry of the evidence that Refresh comes back with. -/
structure Attempt where
  refresh : Int
  publish : Int
  leaf : Int
  refreshFails : Bool
  publishFails : Bool

def Attempt.fails (attempt : Attempt) : Bool :=
  attempt.refreshFails || attempt.publishFails

namespace Refresher

def nextRefreshDelay (loop : Refresher) : Int :=
  if !loop.published then
    minRefreshFloor
  else if loop.now < loop.current then
    max (min (loop.current - snpRotationLead - loop.now) ratlsRefreshIntervalSNP) minRefreshFloor
  else
    minRefreshFloor

def fires (loop : Refresher) : Int :=
  loop.now + loop.nextRefreshDelay

def publishEpoch (loop : Refresher) (snapshotAt : Int) (fails : Bool) : Refresher :=
  if loop.current ≤ snapshotAt then
    { loop with published := false }
  else if loop.adopted = loop.current then
    { loop with published := true }
  else if fails then
    { loop with published := false }
  else
    { loop with adopted := loop.current, published := true }

def attempt (loop : Refresher) (tried : Attempt) : Refresher :=
  let ended := { loop with now := loop.fires + tried.refresh + tried.publish }
  if tried.refreshFails then
    ended
  else
    { ended with current := if loop.current < tried.leaf then tried.leaf else loop.current }
      |>.publishEpoch (loop.fires + tried.refresh) tried.publishFails

def run (boot : Refresher) (attempts : Nat → Attempt) : Nat → Refresher
  | 0 => boot
  | count + 1 => (run boot attempts count).attempt (attempts count)

/-- The service has just begun to sign with the epoch of the adapter. -/
structure Fresh (loop : Refresher) : Prop where
  published : loop.published = true
  adopted : loop.adopted = loop.current
  early : loop.now + 12 * minute ≤ loop.current

/-- What the platform does for an attempt. -/
structure Served (loop : Refresher) (tried : Attempt) : Prop where
  refresh : 0 ≤ tried.refresh
  publish : 0 ≤ tried.publish
  short : tried.refresh + tried.publish ≤ 15 * second
  reissued : loop.current < tried.leaf ↔ loop.current - snpReissueWindow ≤ loop.fires
  adopted : (loop.attempt tried).adopted ≠ loop.adopted →
    (loop.attempt tried).now + 12 * minute ≤ (loop.attempt tried).adopted

variable {loop : Refresher} {tried : Attempt} {expiry : Int}

theorem minRefreshFloor_le (loop : Refresher) : minRefreshFloor ≤ loop.nextRefreshDelay := by
  unfold nextRefreshDelay
  split
  · exact Int.le_refl _
  · split
    · exact Int.le_max_right _ _
    · exact Int.le_refl _

@[simp] theorem attempt_now (loop : Refresher) (tried : Attempt) :
    (loop.attempt tried).now = loop.fires + tried.refresh + tried.publish := by
  unfold attempt publishEpoch
  grind

theorem fires_apart (served : Served loop tried) :
    loop.fires + minRefreshFloor ≤ (loop.attempt tried).fires := by
  have floor := (loop.attempt tried).minRefreshFloor_le
  have later := attempt_now loop tried
  have ⟨refresh, publish, _, _, _⟩ := served
  unfold fires at *
  omega

/-- Before the window the loop serves one epoch; `now` is early enough for what follows. -/
structure Waiting (expiry : Int) (loop : Refresher) : Prop where
  published : loop.published = true
  current : loop.current = expiry
  adopted : loop.adopted = expiry
  now : loop.now < expiry - (9 * minute + 33 * second)

/-- After a failed attempt in the window. -/
structure Retrying (expiry : Int) (loop : Refresher) : Prop where
  adopted : loop.adopted = expiry
  current : loop.current = expiry ∨ expiry < loop.current ∧ loop.published = false
  opened : expiry - snpReissueWindow ≤ loop.now
  now : loop.now < expiry - (7 * minute + 18 * second)

theorem Waiting.fires_lt (waiting : Waiting expiry loop) :
    loop.fires < expiry - (7 * minute + 33 * second) := by
  obtain ⟨published, current, _, now⟩ := waiting
  simp only [fires, nextRefreshDelay, minute, minRefreshFloor,
    snpRotationLead, ratlsRefreshIntervalSNP] at *
  grind

theorem Waiting.step (waiting : Waiting expiry loop) (served : Served loop tried)
    (before : loop.fires < expiry - snpReissueWindow) : Waiting expiry (loop.attempt tried) := by
  obtain ⟨published, current, adopted, now⟩ := waiting
  obtain ⟨refresh, publish, short, reissued, _⟩ := served
  simp only [snpReissueWindow] at *
  constructor
  all_goals grind [attempt, publishEpoch, second, minute]

theorem Retrying.delay (retrying : Retrying expiry loop) :
    loop.fires = loop.now + minRefreshFloor := by
  obtain ⟨_, current, opened, now⟩ := retrying
  simp only [fires, nextRefreshDelay, minute, minRefreshFloor, snpRotationLead,
    snpReissueWindow] at *
  grind

theorem Waiting.failed (waiting : Waiting expiry loop) (served : Served loop tried)
    (inside : expiry - snpReissueWindow ≤ loop.fires) (fails : tried.fails = true) :
    Retrying expiry (loop.attempt tried) := by
  have bound := waiting.fires_lt
  obtain ⟨published, current, adopted, now⟩ := waiting
  obtain ⟨refresh, publish, short, reissued, _⟩ := served
  constructor
  all_goals grind [attempt, publishEpoch, second, minute, Attempt.fails, snpReissueWindow]

theorem attempt_adopts (adopted : loop.adopted = expiry)
    (early : loop.fires + tried.refresh < expiry)
    (newer : loop.current < tried.leaf ∧ expiry ≤ loop.current ∨ expiry < loop.current)
    (succeeds : tried.fails = false) : expiry < (loop.attempt tried).adopted := by
  simp only [Attempt.fails] at succeeds
  grind [attempt, publishEpoch]

variable {boot : Refresher} {attempts : Nat → Attempt}

theorem reaches_window (served : ∀ index, Served (run boot attempts index) (attempts index))
    {index : Nat} (waiting : Waiting expiry (run boot attempts index)) :
    ∃ first ≥ index, Waiting expiry (run boot attempts first) ∧
      expiry - snpReissueWindow ≤ (run boot attempts first).fires := by
  -- The loop comes nearer to the expiry with every attempt.
  induction left : (expiry - (run boot attempts index).now).toNat using Nat.strongRecOn
    generalizing index with
  | _ left ih =>
    by_cases inside : expiry - snpReissueWindow ≤ (run boot attempts index).fires
    · exact ⟨index, Nat.le_refl _, waiting, inside⟩
    · have next : Waiting expiry (run boot attempts (index + 1)) :=
        waiting.step (served index) (Int.not_le.mp inside)
      have floor := (run boot attempts index).minRefreshFloor_le
      have later : (run boot attempts (index + 1)).now = _ := attempt_now _ _
      have ⟨refresh, publish, _, _, _⟩ := served index
      have now := waiting.now
      simp only [fires, minRefreshFloor, minute, second] at *
      obtain ⟨first, after, found⟩ := ih _ (by omega) next rfl
      exact ⟨first, by omega, found⟩

/-- The epoch that signs is the one of the boot or the last attempt has put it into service. -/
def JustAdopted (boot : Refresher) (attempts : Nat → Attempt) : Nat → Prop
  | 0 => True
  | count + 1 => (run boot attempts (count + 1)).adopted ≠ (run boot attempts count).adopted

theorem JustAdopted.waiting (fresh : Fresh boot)
    (served : ∀ index, Served (run boot attempts index) (attempts index)) {index : Nat}
    (adopted : JustAdopted boot attempts index) :
    Waiting (run boot attempts index).adopted (run boot attempts index) := by
  cases index with
  | zero =>
    obtain ⟨published, same, early⟩ := fresh
    refine ⟨published, same.symm, rfl, ?_⟩
    simp only [run, minute, second] at *
    omega
  | succ count =>
    have early := (served count).adopted adopted
    simp only [JustAdopted, run] at *
    refine ⟨?_, ?_, rfl, by simp only [minute, second] at *; omega⟩
    all_goals grind [attempt, publishEpoch]

/-- The first attempt in the reissue window ends before the signing deadline, and if it fails
so does a second one; either replaces the epoch if it does not fail. -/
def RenewedInTime (boot : Refresher) (attempts : Nat → Attempt) (index : Nat) : Prop :=
  let loop := run boot attempts
  let expiry := (loop index).adopted
  ∃ first ≥ index, expiry - snpReissueWindow ≤ (loop first).fires ∧
    (loop (first + 1)).now < expiry - snpSigningMargin ∧
    if (attempts first).fails then
      expiry - snpReissueWindow ≤ (loop (first + 1)).fires ∧
        (loop (first + 2)).now < expiry - snpSigningMargin ∧
        ((attempts (first + 1)).fails = false → expiry < (loop (first + 2)).adopted)
    else
      expiry < (loop (first + 1)).adopted

theorem renewed_before_signing_deadline (boot : Refresher) (attempts : Nat → Attempt)
    (fresh : Fresh boot) (served : ∀ index, Served (run boot attempts index) (attempts index)) :
    (∀ index, (run boot attempts index).fires + minRefreshFloor ≤
      (run boot attempts (index + 1)).fires) ∧
    ∀ index, JustAdopted boot attempts index → RenewedInTime boot attempts index := by
  refine ⟨fun index => fires_apart (served index), ?_⟩
  intro index adopted
  obtain ⟨first, after, waiting, inside⟩ := reaches_window served (adopted.waiting fresh served)
  have early := waiting.fires_lt
  have ended : (run boot attempts (first + 1)).now = _ := attempt_now _ _
  have ⟨refresh, publish, short, reissued, _⟩ := served first
  have current := waiting.current
  refine ⟨first, after, inside, ?_, ?_⟩
  · simp only [snpSigningMargin, minute] at *
    omega
  split
  · next fails =>
    have retrying : Retrying _ (run boot attempts (first + 1)) :=
      waiting.failed (served first) inside fails
    have again := retrying.delay
    have later : (run boot attempts (first + 2)).now = _ := attempt_now _ _
    have ⟨_, publishAgain, shortAgain, reissuedAgain, _⟩ := served (first + 1)
    obtain ⟨signs, serving, opened, now⟩ := retrying
    simp only [snpSigningMargin, minRefreshFloor, minute] at *
    refine ⟨by omega, by omega, attempt_adopts signs (by omega) ?_⟩
    rcases serving with same | ⟨newer, _⟩
    · exact .inl ⟨reissuedAgain.mpr (by omega), by omega⟩
    · exact .inr newer
  · next succeeds =>
    have newer := reissued.mpr (by omega)
    simp only [minute] at *
    exact attempt_adopts waiting.adopted (by omega) (.inl ⟨newer, by omega⟩)
      ((Bool.not_eq_true _).mp succeeds)

/-- Leaves of an hour, and attempts that succeed at once. -/
def hourly (count : Nat) : Attempt where
  refresh := 0
  publish := 0
  leaf := 60 * minute * (count + 2)
  refreshFails := false
  publishFails := false

def hourlyLoop (count : Nat) : Refresher where
  now := 60 * minute * count - snpRotationLead
  current := 60 * minute * (count + 1)
  adopted := 60 * minute * (count + 1)
  published := true

theorem hourly_fires (count : Nat) :
    (hourlyLoop count).fires = 60 * minute * (count + 1) - snpRotationLead := by
  simp only [fires, nextRefreshDelay, hourlyLoop, minute, second, snpRotationLead,
    ratlsRefreshIntervalSNP, minRefreshFloor]
  grind

theorem hourly_attempt (count : Nat) :
    (hourlyLoop count).attempt (hourly count) = hourlyLoop (count + 1) := by
  simp only [attempt, publishEpoch, hourly_fires]
  simp only [hourly, hourlyLoop, minute, second, snpRotationLead]
  grind

theorem hourly_run (count : Nat) : run (hourlyLoop 0) hourly count = hourlyLoop count := by
  induction count with
  | zero => rfl
  | succ count ih => rw [run, ih, hourly_attempt]

theorem hourly_served (count : Nat) : Served (hourlyLoop count) (hourly count) := by
  refine ⟨Int.le_refl _, Int.le_refl _, by simp [hourly, second], ?_, ?_⟩
  all_goals
    simp only [hourly_attempt, hourly_fires]
    simp only [hourly, hourlyLoop, minute, second, snpRotationLead, snpReissueWindow]
    grind

theorem hourly_fresh : Fresh (hourlyLoop 0) := by
  constructor
  all_goals decide

/-- The first attempt fails, and the one behind it succeeds. -/
def stumbling : Nat → Attempt
  | 0 => { hourly 0 with refreshFails := true }
  | count + 1 => hourly count

theorem stumbling_run (count : Nat) :
    run (hourlyLoop 0) stumbling (count + 3) = hourlyLoop (count + 2) := by
  induction count with
  | zero => rfl
  | succ count ih =>
    rw [run, ih]
    exact hourly_attempt (count + 2)

theorem stumbling_served : ∀ index, Served (run (hourlyLoop 0) stumbling index) (stumbling index)
  | 0 | 1 | 2 => by constructor <;> decide
  | index + 3 => by
    rw [stumbling_run]
    exact hourly_served (index + 2)

theorem stumbling_renewed :
    (stumbling 0).fails = true ∧ RenewedInTime (hourlyLoop 0) stumbling 0 :=
  ⟨rfl, (renewed_before_signing_deadline _ _ hourly_fresh stumbling_served).2 0 trivial⟩

/-- After a first attempt that succeeds there is no second one before the deadline. -/
theorem hourly_tries_once :
    Fresh (hourlyLoop 0) ∧ (∀ index, Served (run (hourlyLoop 0) hourly index) (hourly index)) ∧
    ∀ index, (run (hourlyLoop 0) hourly (index + 1)).now ≤
      (hourlyLoop 0).adopted - snpSigningMargin → index = 0 := by
  refine ⟨hourly_fresh, fun index => hourly_run index ▸ hourly_served index, ?_⟩
  intro index early
  rw [hourly_run] at early
  simp only [hourlyLoop, minute, second, snpRotationLead, snpSigningMargin] at early
  omega

end Refresher

end ReclaimTee.TokenHive.Tee
