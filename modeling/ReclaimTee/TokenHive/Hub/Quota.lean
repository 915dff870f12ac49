/-
The Hub's quota: a limited number of requests of a tenant in a window of fixed
length. What is left of a live window depends on no other tenant; a newcomer can
be refused for a window that has run out.
-/

import ReclaimTee.Table
import ReclaimTee.TokenHive.Receipt

namespace ReclaimTee.TokenHive.Hub

structure QuotaWindow where
  start : Nat
  used : Nat

/-- Instants are nanoseconds; the zero time is 0. -/
structure QuotaTable where
  windows : Table Text QuotaWindow
  nextSweep : Nat

structure Quota where
  limit : Nat
  window : Nat
  maxTenants : Nat

namespace Quota

variable (q : Quota) (table : QuotaTable) (tenant : Text) (now : Nat) (w : QuotaWindow)

def Live : Prop :=
  now < w.start + q.window

instance : Decidable (q.Live now w) :=
  Nat.decLt _ _

/-- Expired windows go, at most once in a window. -/
def sweep : QuotaTable :=
  if now < table.nextSweep then
    table
  else
    { windows := table.windows.keep fun _ w => q.Live now w
      nextSweep := now + q.window }

def admitTenant : Bool × QuotaTable :=
  if table.windows.size < q.maxTenants then
    (true, table)
  else
    let swept := q.sweep table now
    (swept.windows.size < q.maxTenants, swept)

def allow : Bool × QuotaTable :=
  match table.windows.find tenant with
  | some w =>
    if q.Live now w then
      if q.limit ≤ w.used then
        (false, table)
      else
        (true, { table with windows := table.windows.put tenant { w with used := w.used + 1 } })
    else
      (true, { table with windows := table.windows.put tenant { start := now, used := 1 } })
  | none =>
    let (room, admitted) := q.admitTenant table now
    if room then
      (true, { admitted with windows := admitted.windows.put tenant { start := now, used := 1 } })
    else
      (false, admitted)

def remaining : Nat :=
  match table.windows.find tenant with
  | none => q.limit
  | some w => if q.Live now w then q.limit - w.used else q.limit

/-- How often a tenant is admitted in a row of calls. -/
def admissions : QuotaTable → List (Text × Nat) → Nat
  | _, [] => 0
  | table, (caller, now) :: rest =>
    let answer := q.allow table caller now
    (answer.1 && caller = tenant).toNat + admissions answer.2 rest

def after : List (Text × Nat) → QuotaTable :=
  List.foldl (fun table call => (q.allow table call.1 call.2).2) table

/-- The tenant's live window is used up, or the table is full of live windows. -/
def Exhausted : Prop :=
  (∃ w, table.windows.find tenant = some w ∧ q.Live now w ∧ q.limit ≤ w.used) ∨
    q.maxTenants ≤ table.windows.size ∧
      ∀ other w, table.windows.find other = some w → q.Live now w

/-- A newcomer meets a full table before its next sweep, and a window has run out. -/
def Unswept : Prop :=
  table.windows.find tenant = none ∧ q.maxTenants ≤ table.windows.size ∧ now < table.nextSweep ∧
    ∃ other w, table.windows.find other = some w ∧ ¬ q.Live now w

structure Bounded : Prop where
  tenants : table.windows.size ≤ q.maxTenants
  used : ∀ tenant w, table.windows.find tenant = some w → w.used ≤ q.limit

/-- What a tenant meets at a table. -/
structure Enforced : Prop extends q.Bounded table where
  /-- A live window stays, and it counts what is admitted in it. -/
  kept : ∀ w calls, table.windows.find tenant = some w → (∀ call ∈ calls, q.Live call.2 w) →
    (q.after table calls).windows.find tenant =
        some { w with used := w.used + q.admissions tenant table calls } ∧
      w.used + q.admissions tenant table calls ≤ q.limit
  /-- An admitted call and those that follow in its window get what was left. -/
  admitted : ∀ w calls, (q.allow table tenant now).1 = true →
    (q.allow table tenant now).2.windows.find tenant = some w →
    (∀ call ∈ calls, q.Live call.2 w) →
      q.admissions tenant table ((tenant, now) :: calls) =
        min (calls.countP (·.1 = tenant) + 1) (q.remaining table tenant now)
  /-- A refused tenant has nothing left, unless the table has no window of it. -/
  spent : (q.allow table tenant now).1 = false →
    (q.remaining table tenant now = 0 ↔ table.windows.find tenant ≠ none)
  refused : (q.allow table tenant now).1 = false →
    (q.Exhausted table tenant now ↔ ¬ q.Unswept table tenant now)

variable {q table tenant now w}

theorem admitTenant_find (live : q.Live now w) (found : table.windows.find tenant = some w) :
    (q.admitTenant table now).2.windows.find tenant = some w := by
  unfold admitTenant sweep
  dsimp only
  split
  · exact found
  split
  · exact found
  · exact Table.find_keep_eq_some_iff.mpr ⟨found, decide_eq_true live⟩

theorem allow_self (found : table.windows.find tenant = some w) (live : q.Live now w) :
    q.allow table tenant now = if q.limit ≤ w.used then (false, table) else
      (true, { table with windows := table.windows.put tenant { w with used := w.used + 1 } }) := by
  rw [allow, found]
  exact if_pos live

theorem allow_other {caller : Text} (different : tenant ≠ caller) (live : q.Live now w)
    (found : table.windows.find tenant = some w) :
    (q.allow table caller now).2.windows.find tenant = some w := by
  have admitted := admitTenant_find live found
  unfold allow
  grind [Table.find_put_other]

theorem window_after {calls : List (Text × Nat)} (found : table.windows.find tenant = some w)
    (live : ∀ call ∈ calls, q.Live call.2 w) :
    q.admissions tenant table calls = min (calls.countP (·.1 = tenant)) (q.limit - w.used) ∧
      (q.after table calls).windows.find tenant =
        some { w with used := w.used + q.admissions tenant table calls } := by
  induction calls generalizing table w with
  | nil => simpa [admissions, after] using found
  | cons call rest ih =>
    obtain ⟨caller, now⟩ := call
    have here : q.Live now w := live _ List.mem_cons_self
    have later := fun call member => live call (List.mem_cons_of_mem _ member)
    rw [admissions, List.countP_cons, after, List.foldl_cons]
    by_cases own : caller = tenant
    · subst own
      have answer := allow_self found here
      split at answer
      · next spent =>
        obtain ⟨count, stays⟩ := ih found later
        have nothing : q.limit - w.used = 0 := Nat.sub_eq_zero_of_le spent
        rw [answer]
        exact ⟨by simp [count, nothing], by simpa [after] using stays⟩
      · have more : (q.allow table caller now).2.windows.find caller =
            some { w with used := w.used + 1 } := by
          rw [answer]
          exact Table.find_put_self ..
        obtain ⟨count, stays⟩ := ih more later
        rw [answer] at count stays ⊢
        refine ⟨?_, by simpa [after, Nat.add_assoc] using stays⟩
        simp [count]
        omega
    · simpa [own, after] using ih (allow_other (Ne.symm own) here found) later

/-- Whatever other tenants do while a window is live. -/
theorem admissions_eq_remaining {calls : List (Text × Nat)}
    (found : table.windows.find tenant = some w) (early : q.Live now w)
    (live : ∀ call ∈ calls, q.Live call.2 w) :
    q.admissions tenant table calls =
      min (calls.countP (·.1 = tenant)) (q.remaining table tenant now) := by
  rw [(window_after found live).1, remaining, found]
  exact congrArg (min _) (if_pos early).symm

def sample : Quota :=
  { limit := 2, window := 10, maxTenants := 1 }

theorem admissions_eq_remaining_sample :
    sample.admissions [1] ⟨.put [1] ⟨0, 1⟩ .empty, 0⟩ [([2], 3), ([1], 4), ([1], 5)] = min 2 1 :=
  admissions_eq_remaining rfl (by decide : sample.Live 3 ⟨0, 1⟩) (by decide)

/-! ### Tables of every row of calls -/

theorem Bounded.put (bounded : q.Bounded table) (fits : w.used ≤ q.limit)
    (room : (table.windows.put tenant w).size ≤ q.maxTenants) :
    q.Bounded { table with windows := table.windows.put tenant w } := by
  refine ⟨room, fun other known found => ?_⟩
  rcases Table.find_put_cases found with ⟨_, rfl⟩ | ⟨_, found⟩
  · exact fits
  · exact bounded.used other known found

theorem Bounded.admitTenant (bounded : q.Bounded table) (now : Nat) :
    q.Bounded (q.admitTenant table now).2 ∧ ((q.admitTenant table now).1 = true →
      (q.admitTenant table now).2.windows.size < q.maxTenants) := by
  unfold Quota.admitTenant sweep
  dsimp only
  split
  · next room => exact ⟨bounded, fun _ => room⟩
  split
  · exact ⟨bounded, of_decide_eq_true⟩
  · refine ⟨⟨Nat.le_trans (Table.size_keep_le _ _) bounded.tenants, ?_⟩, of_decide_eq_true⟩
    exact fun other w kept => bounded.used other w (Table.find_keep_eq_some_iff.mp kept).1

theorem Bounded.allow (positive : 0 < q.limit) (bounded : q.Bounded table) :
    q.Bounded (q.allow table tenant now).2 := by
  unfold Quota.allow
  split
  · next w found =>
    have tracked : ∀ w, (table.windows.put tenant w).size ≤ q.maxTenants := by
      intro w
      rw [Table.size_put_of_find w found]
      exact bounded.tenants
    split
    · split
      · exact bounded
      · next unspent => exact bounded.put (Nat.lt_of_not_le unspent) (tracked _)
    · exact bounded.put positive (tracked _)
  · obtain ⟨admitted, room⟩ := bounded.admitTenant now
    dsimp only
    split
    · next accepted =>
      exact admitted.put positive (Nat.le_trans (Table.size_put_le ..) (room accepted))
    · exact admitted

theorem bounded_after (positive : 0 < q.limit) (calls : List (Text × Nat)) :
    q.Bounded (q.after ⟨.empty, 0⟩ calls) :=
  List.foldlRecOn (motive := q.Bounded) _ _ ⟨Nat.zero_le _, nofun⟩
    fun _ bounded _ _ => bounded.allow positive

theorem refused_found (found : table.windows.find tenant = some w)
    (refused : (q.allow table tenant now).1 = false) : q.Live now w ∧ q.limit ≤ w.used := by
  rw [Quota.allow, found] at refused
  dsimp only at refused
  split at refused
  · next live =>
    split at refused
    · next spent => exact ⟨live, spent⟩
    · cases refused
  · cases refused

theorem remaining_admitted (positive : 0 < q.limit) (accepted : (q.allow table tenant now).1 = true)
    (found : (q.allow table tenant now).2.windows.find tenant = some w) :
    q.remaining table tenant now = q.limit - w.used + 1 := by
  unfold Quota.allow at accepted found
  unfold remaining
  grind [Table.find_put_self]

theorem Bounded.refused (bounded : q.Bounded table)
    (refused : (q.allow table tenant now).1 = false) :
    q.Exhausted table tenant now ↔ ¬ q.Unswept table tenant now := by
  cases found : table.windows.find tenant with
  | some w =>
    refine iff_of_true (.inl ⟨w, found, refused_found found refused⟩) fun unswept => ?_
    cases found.symm.trans unswept.1
  | none =>
    have full : (q.admitTenant table now).1 = false := by
      rw [Quota.allow, found] at refused
      dsimp only at refused
      split at refused
      · cases refused
      · next full => exact Bool.eq_false_iff.mpr full
    unfold Quota.admitTenant sweep at full
    by_cases room : table.windows.size < q.maxTenants
    · simp [room] at full
    by_cases early : now < table.nextSweep
    · simp [Exhausted, Unswept, found, Nat.le_of_not_lt room, early]
    · simp only [if_neg room, if_neg early, decide_eq_false_iff_not, Nat.not_lt] at full
      refine iff_of_true (.inr ⟨Nat.le_of_not_lt room, fun other w found => ?_⟩)
        fun unswept => early unswept.2.2.1
      have live := Table.passes_of_size_keep (Nat.le_trans bounded.tenants full) found
      exact of_decide_eq_true live

end Quota

end ReclaimTee.TokenHive.Hub
