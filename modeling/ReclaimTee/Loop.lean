/-
Loops that end by a break or an error. A run is finite by definition; a loop for so
many turns is a run if every turn that goes on makes something smaller and there
are more turns than that.
-/

namespace ReclaimTee.Loop

variable {State Result ε : Type}

inductive Turn (State Result : Type) where
  | continue (state : State)
  | break (result : Result)

/-- The unbounded loop ends with a result. -/
inductive Run (turn : State → Except ε (Turn State Result)) : State → Except ε Result → Prop
  | error {state : State} {error : ε} (turned : turn state = .error error) :
      Run turn state (.error error)
  | break {state : State} {result : Result} (turned : turn state = .ok (.break result)) :
      Run turn state (.ok result)
  | continue {state next : State} {result : Except ε Result}
      (turned : turn state = .ok (.continue next)) (rest : Run turn next result) :
      Run turn state result

/-- One property of a state to go on with, another of a result. -/
def Turn.Meets (Holds : State → Prop) (Ends : Result → Prop) : Turn State Result → Prop
  | .continue state => Holds state
  | .break result => Ends result

/-- The loop for so many turns. -/
def iterate [Inhabited ε] (turn : State → Except ε (Turn State Result)) :
    Nat → State → Except ε Result
  | 0, _ => .error default
  | turns + 1, state =>
    match turn state with
    | .error error => .error error
    | .ok (.break result) => .ok result
    | .ok (.continue next) => iterate turn turns next

variable {turn : State → Except ε (Turn State Result)}

theorem Run.unique {state : State} {one other : Except ε Result} (first : Run turn state one)
    (second : Run turn state other) : one = other := by
  induction first with
  | error turned =>
    cases second with
    | error again =>
      cases turned.symm.trans again
      rfl
    | «break» again | «continue» again _ => cases turned.symm.trans again
  | «break» turned =>
    cases second with
    | «break» again =>
      cases turned.symm.trans again
      rfl
    | error again | «continue» again _ => cases turned.symm.trans again
  | «continue» turned _ ih =>
    cases second with
    | error again | «break» again => cases turned.symm.trans again
    | «continue» again rest =>
      cases turned.symm.trans again
      exact ih rest

variable [Inhabited ε] {turns : Nat} {state : State}

theorem run_of_iterate {size : State → Nat}
    (shrinks : ∀ state next, turn state = .ok (.continue next) → size next < size state)
    (enough : size state < turns) : Run turn state (iterate turn turns state) := by
  induction turns generalizing state with
  | zero => omega
  | succ turns ih =>
    rw [iterate]
    cases turned : turn state with
    | error error => exact .error turned
    | ok result =>
      cases result with
      | «break» result => exact .break turned
      | «continue» next =>
        have smaller := shrinks state next turned
        exact .continue turned (ih (by omega))

theorem iterate_rule {Holds : State → Prop} {Ends : Result → Prop}
    (step : ∀ state next, Holds state → turn state = .ok next → next.Meets Holds Ends)
    {result : Result} (holds : Holds state) (done : iterate turn turns state = .ok result) :
    Ends result := by
  induction turns generalizing state with
  | zero => cases done
  | succ turns ih =>
    rw [iterate] at done
    cases turned : turn state with
    | error error =>
      rw [turned] at done
      cases done
    | ok next =>
      have held := step state next holds turned
      rw [turned] at done
      cases next with
      | «break» last =>
        cases done
        exact held
      | «continue» next => exact ih held done

end ReclaimTee.Loop
