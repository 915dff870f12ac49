/-
Transducers: a state that is fed one symbol at a time and puts out a list of
symbols each time. What is put out for a text does not depend on how the text
is cut into pieces.
-/

namespace ReclaimTee

namespace Transducer

variable {State Symbol Output : Type} (feed : State → Symbol → State × List Output)

/-- The state after a text, and all that was put out for it. -/
def feedAll : State → List Symbol → State × List Output
  | state, [] => (state, [])
  | state, symbol :: rest =>
    let fed := feed state symbol
    let last := feedAll fed.1 rest
    (last.1, fed.2 ++ last.2)

theorem feedAll_append (state : State) (front back : List Symbol) :
    feedAll feed state (front ++ back) =
      ((feedAll feed (feedAll feed state front).1 back).1,
        (feedAll feed state front).2 ++ (feedAll feed (feedAll feed state front).1 back).2) := by
  induction front generalizing state with
  | nil => rfl
  | cons symbol rest ih =>
    rw [List.cons_append]
    simp only [feedAll, ih, List.append_assoc]

theorem feedAll_of_stuck {state : State} (stuck : ∀ symbol, feed state symbol = (state, []))
    (text : List Symbol) : feedAll feed state text = (state, []) := by
  induction text with
  | nil => rfl
  | cons symbol rest ih =>
    simp only [feedAll, stuck, ih, List.append_nil]

section Simulation

variable {Other : Type} (follow : Other → Symbol → Other × List Output)
  (related : List Output → State → Other → Prop)

/-- Two states put out the same for a symbol and stay related. The relation may speak of
all that was put out before. -/
def Alike (past : List Output) (state : State) (other : Other) (symbol : Symbol) : Prop :=
  (feed state symbol).2 = (follow other symbol).2 ∧
    related (past ++ (feed state symbol).2) (feed state symbol).1 (follow other symbol).1

variable {feed follow related}

theorem feedAll_simulates
    (step : ∀ past state other symbol, related past state other →
      Alike feed follow related past state other symbol) {past : List Output} {state : State}
    {other : Other} (initially : related past state other) (text : List Symbol) :
    (feedAll feed state text).2 = (feedAll follow other text).2 ∧
      related (past ++ (feedAll feed state text).2) (feedAll feed state text).1
        (feedAll follow other text).1 := by
  induction text generalizing past state other with
  | nil =>
    rw [feedAll, List.append_nil]
    exact ⟨rfl, initially⟩
  | cons symbol rest ih =>
    obtain ⟨same, kept⟩ := step past state other symbol initially
    obtain ⟨later, last⟩ := ih kept
    rw [List.append_assoc] at last
    refine ⟨?_, last⟩
    simp only [feedAll]
    rw [same, later]

end Simulation

end Transducer

end ReclaimTee
