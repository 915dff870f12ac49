/-
Exclusive-or masks laid over a sequence of words, and sequences cut into chunks
of one size. A mask changes the words from its start on, one word each; several
masks add up word by word, and where they do not overlap at most one counts.
-/

import Mathlib.Data.BitVec
import Mathlib.Data.List.Range

namespace ReclaimTee

open List

structure Mask (w : Nat) where
  start : Nat
  words : List (BitVec w)

namespace Mask

variable {w : Nat}

/-- The word that a mask adds at a position. -/
def wordAt (mask : Mask w) (position : Nat) : BitVec w :=
  if mask.start ≤ position then mask.words.getD (position - mask.start) 0 else 0

def Covers (mask : Mask w) (position : Nat) : Prop :=
  mask.start ≤ position ∧ position < mask.start + mask.words.length

theorem wordAt_of_not_covers {mask : Mask w} {position : Nat} (outside : ¬ mask.Covers position) :
    mask.wordAt position = 0 := by
  unfold wordAt
  by_cases after : mask.start ≤ position
  · rw [if_pos after, getD_eq_getElem?_getD, getElem?_eq_none]
    · rfl
    · by_contra inside
      exact outside ⟨after, by omega⟩
  · rw [if_neg after]

/-- Adds the words of a mask one position after the other. -/
def xorInto (data : List (BitVec w)) (start : Nat) : List (BitVec w) → List (BitVec w)
  | [] => data
  | word :: rest => xorInto (data.set start (data.getD start 0 ^^^ word)) (start + 1) rest

@[simp] theorem xorInto_length (data : List (BitVec w)) (start : Nat) (words : List (BitVec w)) :
    (xorInto data start words).length = data.length := by
  induction words generalizing data start with
  | nil => rfl
  | cons word rest ih => rw [xorInto, ih, length_set]

theorem wordAt_cons (start : Nat) (word : BitVec w) (rest : List (BitVec w)) (position : Nat) :
    wordAt { start := start, words := word :: rest } position =
      if position = start then word
      else wordAt { start := start + 1, words := rest } position := by
  unfold wordAt
  dsimp only
  rcases Nat.lt_trichotomy position start with before | same | after
  · rw [if_neg (by omega), if_neg (by omega), if_neg (by omega)]
  · rw [if_pos (by omega), if_pos same, same, Nat.sub_self]
    rfl
  · have step : position - start = position - (start + 1) + 1 := by omega
    rw [if_pos (by omega), if_neg (by omega), if_pos (by omega), step]
    rfl

theorem xorInto_getElem? (data : List (BitVec w)) (start : Nat) (words : List (BitVec w))
    (position : Nat) :
    (xorInto data start words)[position]? =
      data[position]?.map fun word =>
        word ^^^ wordAt { start := start, words := words } position := by
  induction words generalizing data start with
  | nil =>
    have nothing : wordAt { start := start, words := ([] : List (BitVec w)) } position = 0 := by
      rw [wordAt]
      split <;> rfl
    simp [xorInto, nothing]
  | cons word rest ih =>
    rw [xorInto, ih, wordAt_cons, getElem?_set]
    by_cases same : start = position
    · have later : wordAt { start := start + 1, words := rest } position = 0 := by
        apply if_neg
        change ¬ start + 1 ≤ position
        omega
      rw [if_pos same, later, same]
      by_cases inside : position < data.length
      · rw [if_pos inside, getD_eq_getElem?_getD,
          getElem?_eq_getElem inside]
        simp
      · rw [if_neg inside, getElem?_eq_none (by omega)]
        rfl
    · rw [if_neg same, if_neg (Ne.symm same)]

/-- Lays several masks over the data, one after the other. -/
def applyAll (data : List (BitVec w)) (masks : List (Mask w)) : List (BitVec w) :=
  masks.foldl (fun data mask => xorInto data mask.start mask.words) data

/-- What several masks add up to at a position. -/
def total (masks : List (Mask w)) (position : Nat) : BitVec w :=
  masks.foldr (fun mask sum => mask.wordAt position ^^^ sum) 0

@[simp] theorem applyAll_length (data : List (BitVec w)) (masks : List (Mask w)) :
    (applyAll data masks).length = data.length := by
  induction masks generalizing data with
  | nil => rfl
  | cons mask rest ih => rw [applyAll, foldl_cons, ← applyAll, ih, xorInto_length]

theorem applyAll_getElem? (data : List (BitVec w)) (masks : List (Mask w)) (position : Nat) :
    (applyAll data masks)[position]? =
      data[position]?.map fun word => word ^^^ total masks position := by
  induction masks generalizing data with
  | nil => simp [applyAll, total]
  | cons mask rest ih =>
    rw [applyAll, foldl_cons, ← applyAll, ih, xorInto_getElem?, Option.map_map]
    congr 1
    funext word
    exact BitVec.xor_assoc ..

theorem total_eq_zero {masks : List (Mask w)} {position : Nat}
    (outside : ∀ mask ∈ masks, ¬ mask.Covers position) : total masks position = 0 := by
  induction masks with
  | nil => rfl
  | cons mask rest ih =>
    have first := wordAt_of_not_covers (outside mask mem_cons_self)
    have others := ih fun other member => outside other (mem_cons_of_mem _ member)
    change mask.wordAt position ^^^ total rest position = 0
    rw [first, others]
    exact BitVec.xor_zero

theorem total_eq_of_only {masks : List (Mask w)} {position index : Nat} {mask : Mask w}
    (found : masks[index]? = some mask)
    (only : ∀ other found, masks[other]? = some found → other ≠ index →
      ¬ found.Covers position) : total masks position = mask.wordAt position := by
  induction masks generalizing index with
  | nil => cases found
  | cons first rest ih =>
    change first.wordAt position ^^^ total rest position = _
    cases index with
    | zero =>
      cases found
      have others : total rest position = 0 := by
        apply total_eq_zero
        intro other member
        obtain ⟨place, located⟩ := mem_iff_getElem?.mp member
        exact only (place + 1) other located (Nat.succ_ne_zero _)
      rw [others]
      exact BitVec.xor_zero
    | succ index =>
      have outside := only 0 first rfl (Nat.succ_ne_zero _).symm
      rw [wordAt_of_not_covers outside, ih found fun other found located different =>
        only (other + 1) found located fun same => different (Nat.succ.inj same)]
      exact BitVec.zero_xor

theorem applyAll_append {data : List (BitVec w)} {masks : List (Mask w)} (tail : List (BitVec w))
    (inside : ∀ mask ∈ masks, mask.start + mask.words.length ≤ data.length) :
    applyAll (data ++ tail) masks = applyAll data masks ++ tail := by
  apply ext_getElem?
  intro position
  rw [applyAll_getElem?]
  by_cases front : position < data.length
  · have masked : position < (applyAll data masks).length := by
      rw [applyAll_length]
      exact front
    rw [getElem?_append_left front, getElem?_append_left masked, applyAll_getElem?]
  · have nothing : total masks position = 0 := by
      apply total_eq_zero
      intro mask member covers
      exact front (Nat.lt_of_lt_of_le covers.2 (inside mask member))
    rw [getElem?_append_right (Nat.le_of_not_lt front),
      getElem?_append_right (by rw [applyAll_length]; exact Nat.le_of_not_lt front),
      nothing]
    simp

end Mask

/-! ### Chunks -/

section Chunks

variable {α : Type}

def chunk (data : List α) (size index : Nat) : List α :=
  (data.drop (index * size)).take size

def chunkCount (length size : Nat) : Nat :=
  (length + size - 1) / size

theorem chunk_getElem? (data : List α) (size index : Nat) {position : Nat}
    (inside : position < size) :
    (chunk data size index)[position]? = data[index * size + position]? := by
  rw [chunk, getElem?_take_of_lt inside, getElem?_drop]

/-- A chunk of masked data, masked once more, is the plain chunk exactly when both
masks agree all over it. -/
theorem unmasked_chunk_iff {w : Nat} (data : List (BitVec w)) (outer inner : List (Mask w))
    (size index : Nat) :
    Mask.applyAll (chunk (Mask.applyAll data outer) size index) inner = chunk data size index ↔
      ∀ position, position < (chunk data size index).length →
        Mask.total outer (index * size + position) = Mask.total inner position := by
  have sameLength : (chunk (Mask.applyAll data outer) size index).length =
      (chunk data size index).length := by
    simp only [chunk, length_take, length_drop, Mask.applyAll_length]
  have bytes : ∀ position, position < (chunk data size index).length → ∃ word,
      (chunk data size index)[position]? = some word ∧
      (Mask.applyAll (chunk (Mask.applyAll data outer) size index) inner)[position]? =
        some (word ^^^ Mask.total outer (index * size + position) ^^^
          Mask.total inner position) := by
    intro position inside
    have small : position < size := by
      have bound : (chunk data size index).length ≤ size := length_take_le _ _
      omega
    refine ⟨(chunk data size index)[position], getElem?_eq_getElem inside, ?_⟩
    have word := getElem?_eq_getElem inside
    rw [chunk_getElem? data size index small] at word
    rw [Mask.applyAll_getElem?, chunk_getElem? _ size index small, Mask.applyAll_getElem?, word]
    rfl
  constructor
  · intro same position inside
    obtain ⟨word, plain, masked⟩ := bytes position inside
    rw [same, plain, Option.some_inj, BitVec.xor_assoc] at masked
    have cancelled := (BitVec.xor_right_inj word).mp (masked.symm.trans BitVec.xor_zero.symm)
    exact BitVec.xor_eq_zero_iff.mp cancelled
  · intro agree
    apply ext_getElem?
    intro position
    by_cases inside : position < (chunk data size index).length
    · obtain ⟨word, plain, masked⟩ := bytes position inside
      rw [masked, plain, agree position inside, BitVec.xor_assoc, BitVec.xor_self, BitVec.xor_zero]
    · have outside := Nat.le_of_not_lt inside
      rw [getElem?_eq_none outside, getElem?_eq_none]
      rw [Mask.applyAll_length, sameLength]
      exact outside

theorem flatten_chunks_take (data : List α) (size count : Nat) :
    ((List.range count).map (chunk data size)).flatten = data.take (count * size) := by
  induction count with
  | zero => rw [Nat.zero_mul]; rfl
  | succ count ih =>
    rw [range_succ, map_append, flatten_append, ih, Nat.succ_mul, take_add]
    simp [chunk]

theorem flatten_chunks (data : List α) {size : Nat} (positive : 0 < size) :
    ((List.range (chunkCount data.length size)).map (chunk data size)).flatten = data := by
  have enough : data.length ≤ chunkCount data.length size * size := by
    have rounded := Nat.div_add_mod (data.length + size - 1) size
    have small := Nat.mod_lt (data.length + size - 1) positive
    rw [chunkCount, Nat.mul_comm]
    omega
  rw [flatten_chunks_take, take_of_length_le enough]

theorem flatten_map_eq_iff {count : Nat} {left right : Nat → List α}
    (sameLength : ∀ index, index < count → (left index).length = (right index).length) :
    ((List.range count).map left).flatten = ((List.range count).map right).flatten ↔
      ∀ index, index < count → left index = right index := by
  induction count with
  | zero => simp
  | succ count ih =>
    have shorter : ∀ index, index < count → (left index).length = (right index).length :=
      fun index inside => sameLength index (Nat.lt_succ_of_lt inside)
    have lengths : ((List.range count).map left).flatten.length =
        ((List.range count).map right).flatten.length := by
      rw [length_flatten, length_flatten, map_map, map_map]
      congr 1
      apply map_congr_left
      intro index member
      exact shorter index (mem_range.mp member)
    simp only [range_succ, map_append, flatten_append, map_cons,
      map_nil, flatten_cons, flatten_nil, append_nil]
    constructor
    · intro joined index inside
      obtain ⟨front, back⟩ := append_inj joined lengths
      rcases Nat.lt_succ_iff_lt_or_eq.mp inside with earlier | last
      · exact (ih shorter).mp front index earlier
      · rw [last]
        exact back
    · intro pieces
      rw [(ih shorter).mpr fun index inside => pieces index (Nat.lt_succ_of_lt inside),
        pieces count (Nat.lt_succ_self _)]

end Chunks

end ReclaimTee
