/-
Programs that act on a shared state through requests: trees that send a request
at each node and go on with the answer. Programs that run at once take turns on
one state, and each stays within the discipline it obeys.
-/

import Mathlib.Algebra.GroupWithZero.Nat
import Mathlib.Algebra.Order.BigOperators.Group.List
import Mathlib.Algebra.Order.Group.Nat
import ReclaimTee.Lists
import ReclaimTee.Transition

namespace ReclaimTee

open List

structure Interface where
  Request : Type
  Answer : Request → Type

/-- A request with the answer it was given. -/
structure Interface.Event (calls : Interface) where
  request : calls.Request
  answer : calls.Answer request

inductive Program (calls : Interface) (Result : Type) : Type
  | done (result : Result)
  | call (request : calls.Request) (next : calls.Answer request → Program calls Result)

namespace Program

variable {calls : Interface} {First Second Result Phase : Type}

def bind : Program calls First → (First → Program calls Second) → Program calls Second
  | done result, rest => rest result
  | call request next, rest => call request fun answer => (next answer).bind rest

instance : Monad (Program calls) where
  pure := done
  bind := bind

def ask (request : calls.Request) : Program calls (calls.Answer request) :=
  call request done

/-! ### Disciplines -/

structure Discipline (calls : Interface) (Phase : Type) where
  permitted : Phase → calls.Request → Prop
  after : Phase → (request : calls.Request) → calls.Answer request → Phase

/-- Whatever is answered, only permitted requests are sent, and the result
meets the postcondition of the phase it is reached in. -/
def Obeys (discipline : Discipline calls Phase) (ends : Phase → Result → Prop) :
    Program calls Result → Phase → Prop
  | done result, phase => ends phase result
  | call request next, phase =>
    discipline.permitted phase request ∧
      ∀ answer, (next answer).Obeys discipline ends (discipline.after phase request answer)

variable {discipline : Discipline calls Phase}

theorem Obeys.mono {ends weaker : Phase → Result → Prop}
    (implied : ∀ phase result, ends phase result → weaker phase result)
    {program : Program calls Result} {phase : Phase} (obeys : program.Obeys discipline ends phase) :
    program.Obeys discipline weaker phase := by
  induction program generalizing phase with
  | done result => exact implied phase result obeys
  | call request next ih => exact ⟨obeys.1, fun answer => ih answer (obeys.2 answer)⟩

theorem Obeys.bind {between : Phase → First → Prop} {ends : Phase → Second → Prop}
    {program : Program calls First} {rest : First → Program calls Second} {phase : Phase}
    (obeys : program.Obeys discipline between phase)
    (onwards : ∀ later result, between later result → (rest result).Obeys discipline ends later) :
    (program >>= rest).Obeys discipline ends phase := by
  induction program generalizing phase with
  | done result => exact onwards phase result obeys
  | call request next ih => exact ⟨obeys.1, fun answer => ih answer (obeys.2 answer)⟩

/-! ### Complete runs of one program -/

/-- The program ends with the result after the requests and answers listed. -/
inductive Ends : Program calls Result → List calls.Event → Result → Prop
  | done (result : Result) : Ends (.done result) [] result
  | call {request : calls.Request} {next : calls.Answer request → Program calls Result}
      {answer : calls.Answer request} {events : List calls.Event} {result : Result}
      (rest : Ends (next answer) events result) :
      Ends (.call request next) (⟨request, answer⟩ :: events) result

/-- The run in which all answers are those of an oracle. -/
def under (oracle : (request : calls.Request) → calls.Answer request) :
    Program calls Result → List calls.Event × Result
  | done result => ([], result)
  | call request next =>
    let rest := (next (oracle request)).under oracle
    (⟨request, oracle request⟩ :: rest.1, rest.2)

theorem ends_under (oracle : (request : calls.Request) → calls.Answer request)
    (program : Program calls Result) :
    program.Ends (program.under oracle).1 (program.under oracle).2 := by
  induction program with
  | done result => exact Ends.done result
  | call request next ih => exact Ends.call (ih (oracle request))

theorem Ends.of_bind {program : Program calls First} {rest : First → Program calls Second}
    {events : List calls.Event} {result : Second} (run : (program >>= rest).Ends events result) :
    ∃ before middle after, program.Ends before middle ∧ (rest middle).Ends after result ∧
      events = before ++ after := by
  induction program generalizing events with
  | done first => exact ⟨[], first, events, .done first, run, rfl⟩
  | call request next ih =>
    cases run with
    | call run =>
      obtain ⟨before, middle, after, first, second, rfl⟩ := ih _ run
      exact ⟨_ :: before, middle, after, .call first, second, rfl⟩

/-- The answers decide a run: two runs of a program with the same events before them
are the same. -/
theorem Ends.append_inj {program : Program calls Result} {one other tail rest : List calls.Event}
    {result value : Result} (first : program.Ends one result) (second : program.Ends other value)
    (same : one ++ tail = other ++ rest) : one = other ∧ tail = rest ∧ result = value := by
  induction first generalizing other with
  | done result =>
    cases second
    exact ⟨rfl, same, rfl⟩
  | call run ih =>
    cases second with
    | call again =>
      obtain ⟨event, later⟩ := List.cons.inj same
      cases event
      obtain ⟨events, tails, results⟩ := ih again later
      exact ⟨congrArg _ events, tails, results⟩

def Discipline.phaseAfter (discipline : Discipline calls Phase) (phase : Phase)
    (events : List calls.Event) : Phase :=
  events.foldl (fun reached event => discipline.after reached event.request event.answer) phase

theorem Ends.of_obeys {ends : Phase → Result → Prop} {program : Program calls Result}
    {events : List calls.Event} {result : Result} (run : program.Ends events result)
    {phase : Phase} (obeys : program.Obeys discipline ends phase) :
    ends (discipline.phaseAfter phase events) result := by
  induction run generalizing phase with
  | done result => exact obeys
  | call rest ih => exact ih (obeys.2 _)

end Program

/-! ### Programs that take turns -/

structure Thread (calls : Interface) (Job Result : Type) where
  job : Job
  program : Program calls Result
  /-- The requests sent so far, oldest first. -/
  events : List calls.Event

structure Pool (calls : Interface) (State Job Result : Type) where
  shared : State
  threads : List (Thread calls Job Result)

/-- A new program starts, or one sends its next request. The answers are those
of an oracle, as far as the shared state admits them. -/
inductive Turn (calls : Interface) (Job : Type)
  | spawn (job : Job)
  | step (index : Nat) (oracle : (request : calls.Request) → calls.Answer request)

structure Concurrent (calls : Interface) (State Job Result : Type) where
  initial : State
  body : Job → Program calls Result
  handle : State → (request : calls.Request) → calls.Answer request → Option State

namespace Concurrent

variable {calls : Interface} {State Job Result Phase : Type}

def spawned (system : Concurrent calls State Job Result) (pool : Pool calls State Job Result)
    (job : Job) : Pool calls State Job Result :=
  { pool with
    threads := pool.threads ++ [{ job := job, program := system.body job, events := [] }] }

def advanced (pool : Pool calls State Job Result) (index : Nat)
    (thread : Thread calls Job Result) (request : calls.Request)
    (next : calls.Answer request → Program calls Result) (answer : calls.Answer request)
    (shared : State) : Pool calls State Job Result :=
  { shared := shared
    threads := pool.threads.set index
      { job := thread.job
        program := next answer
        events := thread.events ++ [⟨request, answer⟩] } }

def step (system : Concurrent calls State Job Result) (pool : Pool calls State Job Result) :
    Turn calls Job → Option (Pool calls State Job Result)
  | .spawn job => some (system.spawned pool job)
  | .step index oracle =>
    match pool.threads[index]? with
    | none => none
    | some thread =>
      match thread.program with
      | .done _ => none
      | .call request next =>
        (system.handle pool.shared request (oracle request)).map
          (advanced pool index thread request next (oracle request))

def machine (system : Concurrent calls State Job Result) :
    Machine (Pool calls State Job Result) (Turn calls Job) where
  start := { shared := system.initial, threads := [] }
  step := system.step

/-- What one turn of a thread that sends a request can be. -/
structure Advance (system : Concurrent calls State Job Result)
    (before : Pool calls State Job Result) (index : Nat) (after : Pool calls State Job Result) where
  thread : Thread calls Job Result
  found : before.threads[index]? = some thread
  request : calls.Request
  next : calls.Answer request → Program calls Result
  sends : thread.program = .call request next
  answer : calls.Answer request
  shared : State
  handled : system.handle before.shared request answer = some shared
  result : after = advanced before index thread request next answer shared

variable {before after pool : Pool calls State Job Result}

theorem step_cases {system : Concurrent calls State Job Result} {turn : Turn calls Job}
    (taken : system.machine.step before turn = some after) :
    (∃ job, turn = .spawn job ∧ after = system.spawned before job) ∨
      ∃ index oracle, turn = .step index oracle ∧
        ∃ advance : system.Advance before index after,
          advance.answer = oracle advance.request := by
  change system.step before turn = some after at taken
  cases turn with
  | spawn job =>
    left
    exact ⟨job, rfl, (Option.some.inj taken).symm⟩
  | step index oracle =>
    right
    cases found : before.threads[index]? with
    | none =>
      simp only [step, found] at taken
      cases taken
    | some thread =>
      simp only [step, found] at taken
      cases sends : thread.program with
      | done result =>
        simp only [sends] at taken
        cases taken
      | call request next =>
        simp only [sends] at taken
        obtain ⟨shared, handled, result⟩ := Option.map_eq_some_iff.mp taken
        exact ⟨index, oracle, rfl, ⟨{
          thread := thread
          found := found
          request := request
          next := next
          sends := sends
          answer := oracle request
          shared := shared
          handled := handled
          result := result.symm }, rfl⟩⟩

/-! ### Every thread stays within its discipline -/

def Follows (discipline : Program.Discipline calls Phase) (begins : Job → Phase)
    (ends : Job → Phase → Result → Prop) (thread : Thread calls Job Result) : Prop :=
  thread.program.Obeys discipline (ends thread.job)
    (discipline.phaseAfter (begins thread.job) thread.events)

variable {system : Concurrent calls State Job Result}
  {discipline : Program.Discipline calls Phase} {begins : Job → Phase}
  {ends : Job → Phase → Result → Prop}

theorem Follows.advance {thread : Thread calls Job Result}
    (follows : Follows discipline begins ends thread) {request : calls.Request}
    {next : calls.Answer request → Program calls Result}
    (sends : thread.program = .call request next) (answer : calls.Answer request) :
    discipline.permitted (discipline.phaseAfter (begins thread.job) thread.events) request ∧
      Follows discipline begins ends
        { job := thread.job
          program := next answer
          events := thread.events ++ [⟨request, answer⟩] } := by
  unfold Follows at follows
  rw [sends] at follows
  constructor
  · exact follows.1
  · have onwards := follows.2 answer
    unfold Follows Program.Discipline.phaseAfter
    rw [foldl_append]
    exact onwards

section Everywhere

variable {allowed : Pool calls State Job Result → Turn calls Job → Prop}
  (obeys : ∀ job, (system.body job).Obeys discipline (ends job) (begins job))
  (reached : system.machine.Reach allowed pool)
include obeys reached

theorem follows_everywhere : ∀ thread ∈ pool.threads, Follows discipline begins ends thread := by
  apply reached.invariant
  · nofun
  intro before turn after held _permitted taken thread member
  rcases step_cases taken with ⟨job, _, rfl⟩ | ⟨index, _, _, advance, _⟩
  · rcases mem_append.mp member with old | new
    · exact held thread old
    · rw [mem_singleton.mp new]
      exact obeys job
  · rw [advance.result] at member
    rcases mem_or_eq_of_mem_set member with old | same
    · exact held thread old
    · rw [same]
      have known := held _ (mem_of_getElem? advance.found)
      exact (known.advance advance.sends advance.answer).2

theorem phase_everywhere {holds : Phase → Prop} (initially : ∀ job, holds (begins job))
    (kept : ∀ (phase : Phase) (request : calls.Request) (answer : calls.Answer request),
      discipline.permitted phase request → holds phase →
        holds (discipline.after phase request answer)) :
    ∀ thread ∈ pool.threads,
      holds (discipline.phaseAfter (begins thread.job) thread.events) := by
  apply reached.invariant_given (fun _ known => follows_everywhere obeys known)
  · nofun
  intro before turn after known held _permitted taken thread member
  rcases step_cases taken with ⟨job, _, rfl⟩ | ⟨index, _, _, advance, _⟩
  · rcases mem_append.mp member with old | new
    · exact held thread old
    · rw [mem_singleton.mp new]
      exact initially job
  · rw [advance.result] at member
    rcases mem_or_eq_of_mem_set member with old | same
    · exact held thread old
    rw [same]
    have inside := mem_of_getElem? advance.found
    have permitted := ((known _ inside).advance advance.sends advance.answer).1
    unfold Program.Discipline.phaseAfter
    rw [foldl_append]
    exact kept _ _ _ permitted (held _ inside)

end Everywhere

/-! ### What the threads amount to -/

def total (weight : Thread calls Job Result → Nat) (pool : Pool calls State Job Result) : Nat :=
  (pool.threads.map weight).sum

theorem total_eq_add {weight first second : Thread calls Job Result → Nat}
    (splits : ∀ thread ∈ pool.threads, weight thread = first thread + second thread) :
    total weight pool = total first pool + total second pool := by
  unfold total
  rw [map_congr_left splits, sum_map_add]

theorem le_total (weight : Thread calls Job Result → Nat) {thread : Thread calls Job Result}
    (member : thread ∈ pool.threads) : weight thread ≤ total weight pool :=
  single_le_sum (fun _ _ => Nat.zero_le _) _ (mem_map_of_mem member)

theorem total_le_add {weight first second : Thread calls Job Result → Nat}
    (below : ∀ thread ∈ pool.threads, weight thread ≤ first thread + second thread) :
    total weight pool ≤ total first pool + total second pool := by
  unfold total
  rw [← sum_map_add]
  exact sum_le_sum below

def Advance.turned {before after : Pool calls State Job Result} {index : Nat}
    (advance : system.Advance before index after) : Thread calls Job Result where
  job := advance.thread.job
  program := advance.next advance.answer
  events := advance.thread.events ++ [⟨advance.request, advance.answer⟩]

theorem total_spawned (weight : Thread calls Job Result → Nat)
    (pool : Pool calls State Job Result) (job : Job) :
    total weight (system.spawned pool job) =
      total weight pool + weight { job := job, program := system.body job, events := [] } := by
  simp [total, spawned]

section Advance

variable {index : Nat} (advance : system.Advance before index after)
include advance

theorem Advance.split :
    ∃ left right, before.threads = left ++ advance.thread :: right ∧
      after.threads = left ++ advance.turned :: right := by
  obtain ⟨left, right, whole, changed⟩ := set_split advance.found
  have result := congrArg Pool.threads advance.result
  exact ⟨left, right, whole, result.trans (changed advance.turned)⟩

theorem Advance.total (weight : Thread calls Job Result → Nat) :
    Concurrent.total weight after + weight advance.thread =
      Concurrent.total weight before + weight advance.turned := by
  obtain ⟨left, right, old, new⟩ := advance.split
  unfold Concurrent.total
  rw [old, new]
  simp only [map_append, map_cons, sum_append, sum_cons]
  omega

theorem Advance.carried {Value : Type}
    (carries : Thread calls Job Result → Option Value) {value : Value}
    (none : carries advance.thread = none) (some : carries advance.turned = some value) :
    (after.threads.filterMap carries).Perm (value :: before.threads.filterMap carries) := by
  obtain ⟨left, right, old, new⟩ := advance.split
  rw [old, new, filterMap_append, filterMap_append, filterMap_cons_some some,
    filterMap_cons_none none]
  exact perm_middle

theorem Advance.carried_same {Value : Type} (carries : Thread calls Job Result → Option Value)
    (same : carries advance.turned = carries advance.thread) :
    after.threads.filterMap carries = before.threads.filterMap carries := by
  obtain ⟨left, right, old, new⟩ := advance.split
  rw [old, new, filterMap_append, filterMap_append, filterMap_cons, filterMap_cons, same]

end Advance

end Concurrent

end ReclaimTee
