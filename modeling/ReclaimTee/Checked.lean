/-
Straight-line fallible code. A computation is a chain of guards and fallible
calls, and it succeeds exactly when every guard passes and every call does.
-/

namespace ReclaimTee

variable {ε α β : Type}

def rejectIf (bad : Prop) [Decidable bad] (error : ε) : Except ε Unit :=
  if bad then .error error else .ok ()

theorem rejectIf_eq_ok_iff {bad : Prop} [Decidable bad] {error : ε} {value : Unit} :
    rejectIf bad error = .ok value ↔ ¬ bad := by
  unfold rejectIf
  by_cases rejected : bad
  · simp [rejected]
  · simp [rejected]

def rejectSome (found : Option α) (error : α → ε) : Except ε Unit :=
  match found with
  | none => .ok ()
  | some value => .error (error value)

theorem rejectSome_eq_ok_iff {found : Option α} {error : α → ε} {value : Unit} :
    rejectSome found error = .ok value ↔ found = none := by
  cases found with
  | none | some => simp [rejectSome]

theorem bind_eq_ok_iff {first : Except ε α} {next : α → Except ε β} {result : β} :
    (first >>= next) = .ok result ↔ ∃ value, first = .ok value ∧ next value = .ok result := by
  cases first with
  | error error =>
    constructor
    · nofun
    · intro witness
      obtain ⟨value, impossible, _⟩ := witness
      cases impossible
  | ok value =>
    constructor
    · intro accepted
      exact ⟨value, rfl, accepted⟩
    · intro witness
      obtain ⟨other, same, accepted⟩ := witness
      cases same
      exact accepted

theorem pure_eq_ok_iff {value result : α} :
    (pure value : Except ε α) = .ok result ↔ value = result := by
  constructor
  · intro same
    cases same
    rfl
  · intro same
    rw [same]
    rfl

/-- The rules that take a chain of guards and calls apart. -/
theorem eq_ok_iff :
    (∀ {ε α β : Type} {first : Except ε α} {next : α → Except ε β} {result : β},
      (first >>= next) = .ok result ↔ ∃ value, first = .ok value ∧ next value = .ok result) ∧
    (∀ {ε : Type} {bad : Prop} [Decidable bad] {error : ε} {value : Unit},
      rejectIf bad error = .ok value ↔ ¬ bad) ∧
    ∀ {ε α : Type} {value result : α}, (pure value : Except ε α) = .ok result ↔ value = result :=
  ⟨bind_eq_ok_iff, rejectIf_eq_ok_iff, pure_eq_ok_iff⟩

/-- The rules that state a passed guard as what holds behind it. -/
theorem passed_iff :
    (∀ {first second : Prop}, ¬ (first ∨ second) ↔ ¬ first ∧ ¬ second) ∧
    (∀ {α : Type} {left right : α}, ¬ left ≠ right ↔ left = right) ∧
    (∀ {left right : Nat}, ¬ left < right ↔ right ≤ left) ∧
    ∀ {known : Prop}, (∃ _ : Unit, known) ↔ known :=
  ⟨not_or, Classical.not_not, Nat.not_lt, exists_const _⟩

theorem ok_bind (value : α) (next : α → Except ε β) :
    ((.ok value : Except ε α) >>= next) = next value := rfl

theorem rejectIf_of_not {bad : Prop} [Decidable bad] {error : ε} (passed : ¬ bad) :
    rejectIf bad error = .ok () :=
  if_neg passed

theorem rejectIf_of_eq {left right : α} [Decidable (left ≠ right)] {error : ε}
    (same : left = right) : rejectIf (left ≠ right) error = .ok () :=
  rejectIf_of_not fun different => different same

theorem mapM_eq_pure {m : Type → Type} [Monad m] [LawfulMonad m] {turn : α → m β}
    {result : α → β} {items : List α} (all : ∀ item ∈ items, turn item = pure (result item)) :
    items.mapM turn = pure (items.map result) := by
  induction items with
  | nil => exact List.mapM_nil
  | cons item rest ih =>
    rw [List.mapM_cons, all item List.mem_cons_self, pure_bind,
      ih fun other member => all other (List.mem_cons_of_mem _ member), pure_bind]
    rfl

theorem mapM_eq_ok {turn : α → Except ε β} {result : α → β} {items : List α}
    (all : ∀ item ∈ items, turn item = .ok (result item)) :
    items.mapM turn = .ok (items.map result) :=
  mapM_eq_pure all

theorem mapM_mem {turn : α → Except ε β} {items : List α} {results : List β}
    (done : items.mapM turn = .ok results) {result : β} (member : result ∈ results) :
    ∃ item ∈ items, turn item = .ok result := by
  induction items generalizing results with
  | nil =>
    rw [List.mapM_nil] at done
    cases done
    cases member
  | cons item rest ih =>
    rw [List.mapM_cons, bind_eq_ok_iff] at done
    obtain ⟨first, turned, done⟩ := done
    rw [bind_eq_ok_iff] at done
    obtain ⟨others, run, same⟩ := done
    cases same
    rcases List.mem_cons.mp member with rfl | later
    · exact ⟨item, List.mem_cons_self, turned⟩
    · obtain ⟨found, inRest, turned⟩ := ih run later
      exact ⟨found, List.mem_cons_of_mem _ inRest, turned⟩

end ReclaimTee
