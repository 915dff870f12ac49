/-
Transition systems with a partial step function. A run may be restricted to
steps that meet a condition in the state they are taken in; invariants are proved
by one induction over such runs.
-/

namespace ReclaimTee

structure Machine (State Action : Type) where
  start : State
  step : State → Action → Option State

namespace Machine

variable {State Action : Type} {m : Machine State Action}
  {allowed : State → Action → Prop}

inductive Reach (m : Machine State Action) (allowed : State → Action → Prop) : State → Prop
  | start : Reach m allowed m.start
  | step {before after : State} {action : Action} (reached : Reach m allowed before)
      (permitted : allowed before action) (taken : m.step before action = some after) :
      Reach m allowed after

def Any (_ : State) (_ : Action) : Prop := True

theorem Reach.invariant {holds : State → Prop} (initially : holds m.start)
    (kept : ∀ before action after, holds before → allowed before action →
      m.step before action = some after → holds after)
    {state : State} (reached : m.Reach allowed state) : holds state := by
  induction reached with
  | start => exact initially
  | step _ permitted taken ih => exact kept _ _ _ ih permitted taken

/-- A known invariant may be used in the step of another one. -/
theorem Reach.invariant_given {known holds : State → Prop}
    (everywhere : ∀ state, m.Reach allowed state → known state) (initially : holds m.start)
    (kept : ∀ before action after, known before → holds before → allowed before action →
      m.step before action = some after → holds after)
    {state : State} (reached : m.Reach allowed state) : holds state := by
  induction reached with
  | start => exact initially
  | step reached permitted taken ih =>
    exact kept _ _ _ (everywhere _ reached) ih permitted taken

def run (m : Machine State Action) (state : State) : List Action → Option State
  | [] => some state
  | action :: rest =>
    match m.step state action with
    | none => none
    | some next => m.run next rest

theorem run_cons {state next : State} {action : Action} (rest : List Action)
    (taken : m.step state action = some next) : m.run state (action :: rest) = m.run next rest := by
  rw [run, taken]

theorem run_append {state middle : State} {actions : List Action} (rest : List Action)
    (ran : m.run state actions = some middle) :
    m.run state (actions ++ rest) = m.run middle rest := by
  induction actions generalizing state with
  | nil =>
    cases ran
    rfl
  | cons action later ih =>
    cases taken : m.step state action with
    | none =>
      rw [run, taken] at ran
      cases ran
    | some next =>
      rw [run_cons later taken] at ran
      rw [List.cons_append, run_cons _ taken, ih ran]

theorem Reach.run {state last : State} (reached : m.Reach allowed state) {actions : List Action}
    (permitted : ∀ action ∈ actions, ∀ before, allowed before action)
    (ran : m.run state actions = some last) : m.Reach allowed last := by
  induction actions generalizing state with
  | nil =>
    cases ran
    exact reached
  | cons action rest ih =>
    cases taken : m.step state action with
    | none =>
      rw [Machine.run, taken] at ran
      cases ran
    | some next =>
      rw [run_cons rest taken] at ran
      have here := permitted action List.mem_cons_self state
      exact ih (Reach.step reached here taken)
        (fun later member => permitted later (List.mem_cons_of_mem _ member)) ran

/-- A run that stops at the first step that fails a test. -/
def runWhere (m : Machine State Action) (test : State → Action → Bool) (state : State) :
    List Action → Option State
  | [] => some state
  | action :: rest =>
    if test state action then
      match m.step state action with
      | none => none
      | some next => m.runWhere test next rest
    else
      none

theorem Reach.runWhere {test : State → Action → Bool} {state last : State}
    (reached : m.Reach (fun before action => test before action = true) state)
    {actions : List Action} (ran : m.runWhere test state actions = some last) :
    m.Reach (fun before action => test before action = true) last := by
  induction actions generalizing state with
  | nil =>
    cases ran
    exact reached
  | cons action rest ih =>
    unfold Machine.runWhere at ran
    split at ran
    · next passed =>
      split at ran
      · cases ran
      · next taken => exact ih (Reach.step reached passed taken) ran
    · cases ran

end Machine

end ReclaimTee
