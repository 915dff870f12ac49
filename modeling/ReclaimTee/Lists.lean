/-
Reading lists with a fallback value: after an update, after a shift, in a
tabulated list, and in a list cut into blocks of one length.
-/

import Mathlib.Data.List.Forall2

namespace ReclaimTee

open List

theorem getD_set_self {α : Type} {items : List α} {position : Nat} {value fallback : α}
    (inRange : position < items.length) :
    (items.set position value).getD position fallback = value := by
  rw [getD_eq_getElem?_getD, getElem?_set_self inRange]
  rfl

theorem getD_set_other {α : Type} {items : List α} {written read : Nat} {value fallback : α}
    (different : written ≠ read) :
    (items.set written value).getD read fallback = items.getD read fallback := by
  rw [getD_eq_getElem?_getD, getElem?_set_ne different, ← getD_eq_getElem?_getD]

section Writes

variable {σ γ α : Type} {step : σ → γ → σ} {items : σ → List α} {place : γ → Nat}
  (writes : ∀ state command, ∃ value,
    items (step state command) = (items state).set (place command) value)
include writes

/-- A run of commands that each write one item keeps the number of items. -/
theorem foldl_writes_length (commands : List γ) (state : σ) :
    (items (commands.foldl step state)).length = (items state).length := by
  induction commands generalizing state with
  | nil => rfl
  | cons command rest ih =>
    obtain ⟨value, written⟩ := writes state command
    rw [foldl_cons, ih, written, length_set]

/-- The items that no command writes stay as they are. -/
theorem foldl_writes_other {commands : List γ} {state : σ} {position : Nat} {fallback : α}
    (elsewhere : ∀ command ∈ commands, place command ≠ position) :
    (items (commands.foldl step state)).getD position fallback =
      (items state).getD position fallback := by
  induction commands generalizing state with
  | nil => rfl
  | cons command rest ih =>
    obtain ⟨value, written⟩ := writes state command
    rw [foldl_cons, ih fun other member => elsewhere other (mem_cons_of_mem _ member), written,
      getD_set_other (elsewhere command mem_cons_self)]

end Writes

theorem getElem?_eq_some_getD {α : Type} (items : List α) (position : Nat) (fallback : α)
    (inRange : position < items.length) :
    items[position]? = some (items.getD position fallback) := by
  rw [getD_eq_getElem?_getD, getElem?_eq_getElem inRange]
  rfl

theorem getD_range_map {α : Type} (count position : Nat) (item : Nat → α) (fallback : α) :
    ((List.range count).map item).getD position fallback =
      if position < count then item position else fallback := by
  rw [getD_eq_getElem?_getD, getElem?_map]
  by_cases inside : position < count
  · rw [getElem?_range inside, if_pos inside]
    rfl
  · rw [getElem?_eq_none (by rw [length_range]; omega), if_neg inside]
    rfl

theorem getD_drop {α : Type} (items : List α) (offset position : Nat) (fallback : α) :
    (items.drop offset).getD position fallback = items.getD (offset + position) fallback := by
  rw [getD_eq_getElem?_getD, getElem?_drop, ← getD_eq_getElem?_getD]

theorem getD_take {α : Type} (items : List α) (count position : Nat) (fallback : α)
    (inside : position < count) :
    (items.take count).getD position fallback = items.getD position fallback := by
  rw [getD_eq_getElem?_getD, getElem?_take_of_lt inside, ← getD_eq_getElem?_getD]

theorem length_flatten_blocks {α : Type} (size : Nat) (blocks : List (List α))
    (uniform : ∀ block ∈ blocks, block.length = size) :
    blocks.flatten.length = blocks.length * size := by
  induction blocks with
  | nil => simp
  | cons block rest ih =>
    rw [flatten_cons, length_append, uniform block (mem_cons_self ..),
      ih fun other member => uniform other (mem_cons_of_mem _ member), length_cons,
      Nat.succ_mul, Nat.add_comm]

theorem flatten_block {α : Type} {size : Nat} (blocks : List (List α))
    (uniform : ∀ block ∈ blocks, block.length = size) (position : Nat)
    (inRange : position < blocks.length) :
    (blocks.flatten.drop (position * size)).take size = blocks.getD position [] := by
  induction blocks generalizing position with
  | nil => cases inRange
  | cons block rest ih =>
    have blockLength := uniform block (mem_cons_self ..)
    have restUniform : ∀ other ∈ rest, other.length = size := fun other member =>
      uniform other (mem_cons_of_mem _ member)
    cases position with
    | zero =>
      rw [Nat.zero_mul, drop_zero, flatten_cons, take_left' blockLength]
      rfl
    | succ position =>
      have shifted : (position + 1) * size = block.length + position * size := by
        rw [blockLength, Nat.succ_mul, Nat.add_comm]
      rw [flatten_cons, shifted, drop_append]
      have dropped : block.drop (block.length + position * size) = [] :=
        drop_eq_nil_of_le (Nat.le_add_right _ _)
      rw [dropped, nil_append, Nat.add_sub_cancel_left,
        ih restUniform position (by simpa using inRange)]
      rfl

theorem getD_flatten_blocks {α : Type} {size : Nat} (blocks : List (List α))
    (uniform : ∀ block ∈ blocks, block.length = size) (block offset : Nat)
    (blockInRange : block < blocks.length) (offsetInRange : offset < size) (fallback : α) :
    blocks.flatten.getD (block * size + offset) fallback =
      (blocks.getD block []).getD offset fallback := by
  rw [← flatten_block blocks uniform block blockInRange, getD_take _ _ _ _ offsetInRange, getD_drop]

theorem pairwise_compare {α : Type} {order : α → α → Prop} {items : List α}
    (ordered : items.Pairwise order) {one other : α} (first : one ∈ items)
    (second : other ∈ items) : one = other ∨ order one other ∨ order other one := by
  induction items with
  | nil => cases first
  | cons item rest ih =>
    obtain ⟨head, tail⟩ := pairwise_cons.mp ordered
    rcases mem_cons.mp first with rfl | inRest
    · rcases mem_cons.mp second with rfl | other_inRest
      · exact Or.inl rfl
      · exact Or.inr (Or.inl (head other other_inRest))
    · rcases mem_cons.mp second with rfl | other_inRest
      · exact Or.inr (Or.inr (head one inRest))
      · exact ih tail inRest other_inRest

theorem getElem?_lt_iff {items : List Int} (increasing : items.Pairwise (· < ·)) {one other : Nat}
    {first second : Int} (found : items[one]? = some first) (foundOther : items[other]? = some second) :
    one < other ↔ first < second := by
  obtain ⟨inside, rfl⟩ := List.getElem?_eq_some_iff.mp found
  obtain ⟨insideOther, rfl⟩ := List.getElem?_eq_some_iff.mp foundOther
  have ordered := List.pairwise_iff_getElem.mp increasing
  constructor
  · exact ordered one other inside insideOther
  intro smaller
  by_contra late
  rcases Nat.lt_or_eq_of_le (Nat.le_of_not_lt late) with behind | same
  · have larger := ordered other one insideOther inside behind
    omega
  · subst same
    omega

theorem forall₂_mem_right {α β : Type} {related : α → β → Prop} {items : List α} {others : List β}
    (all : List.Forall₂ related items others) {other : β} (member : other ∈ others) :
    ∃ item ∈ items, related item other := by
  induction all with
  | nil => cases member
  | cons first rest ih =>
    rcases mem_cons.mp member with rfl | later
    · exact ⟨_, mem_cons_self, first⟩
    · obtain ⟨item, inRest, holds⟩ := ih later
      exact ⟨item, mem_cons_of_mem _ inRest, holds⟩

theorem forall₂_mem_left {α β : Type} {related : α → β → Prop} {items : List α} {others : List β}
    (all : List.Forall₂ related items others) {item : α} (member : item ∈ items) :
    ∃ other ∈ others, related item other :=
  forall₂_mem_right all.flip member

theorem set_split {α : Type} {items : List α} {position : Nat} {item : α}
    (found : items[position]? = some item) :
    ∃ before after, items = before ++ item :: after ∧
      ∀ other, items.set position other = before ++ other :: after := by
  induction items generalizing position with
  | nil => cases found
  | cons first rest ih =>
    cases position with
    | zero =>
      cases found
      exact ⟨[], rest, rfl, fun _ => rfl⟩
    | succ position =>
      obtain ⟨before, after, whole, changed⟩ := ih found
      refine ⟨first :: before, after, by rw [whole]; rfl, ?_⟩
      intro other
      rw [set_cons_succ, changed]
      rfl

theorem filterMap_sublist {α β : Type} {less more : α → Option β} {items : List α}
    (implied : ∀ item ∈ items, ∀ value, less item = some value → more item = some value) :
    (items.filterMap less).Sublist (items.filterMap more) := by
  induction items with
  | nil => exact List.Sublist.refl _
  | cons item rest ih =>
    have tail := ih fun other member => implied other (mem_cons_of_mem _ member)
    cases found : less item with
    | none =>
      rw [filterMap_cons_none found, filterMap_cons]
      split
      · exact tail
      · exact tail.cons _
    | some value =>
      have same := implied item mem_cons_self value found
      rw [filterMap_cons_some found, filterMap_cons_some same]
      exact tail.cons_cons value

end ReclaimTee
