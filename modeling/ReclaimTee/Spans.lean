/-
Spans of positions in a byte stream. A span may start before the stream or end
behind it, and may be empty. A list of parts is exact for a predicate on positions
when it covers just the positions at which the predicate holds.
-/

import Mathlib.Data.List.Basic

namespace ReclaimTee

open List

structure Span where
  start : Int
  length : Int
deriving DecidableEq, Repr

namespace Span

def stop (span : Span) : Int :=
  span.start + span.length

def Covers (span : Span) (position : Int) : Prop :=
  span.start ≤ position ∧ position < span.stop

instance (span : Span) (position : Int) : Decidable (span.Covers position) :=
  inferInstanceAs (Decidable (_ ∧ _))

def shift (span : Span) (distance : Int) : Span where
  start := span.start + distance
  length := span.length

theorem covers_shift {span : Span} {distance position : Int} :
    (span.shift distance).Covers position ↔ span.Covers (position - distance) := by
  unfold Covers stop shift
  dsimp only
  omega

def Disjoint (first second : Span) : Prop :=
  ∀ position, first.Covers position → ¬ second.Covers position

theorem Disjoint.symm {first second : Span} (apart : first.Disjoint second) :
    second.Disjoint first := fun _ inSecond inFirst => apart _ inFirst inSecond

theorem Disjoint.shift {first second : Span} (apart : first.Disjoint second) (distance : Int) :
    (first.shift distance).Disjoint (second.shift distance) := fun _ inFirst inSecond =>
  apart _ (covers_shift.mp inFirst) (covers_shift.mp inSecond)

end Span

def Covered (spans : List Span) (position : Int) : Prop :=
  ∃ span ∈ spans, span.Covers position

instance (spans : List Span) (position : Int) : Decidable (Covered spans position) :=
  inferInstanceAs (Decidable (∃ span ∈ spans, _))

variable {spans others : List Span} {position : Int}

@[simp] theorem not_covered_nil : ¬ Covered [] position := nofun

theorem covered_cons {span : Span} :
    Covered (span :: spans) position ↔ span.Covers position ∨ Covered spans position := by
  unfold Covered
  rw [exists_mem_cons_iff]

theorem covered_append :
    Covered (spans ++ others) position ↔ Covered spans position ∨ Covered others position := by
  simp only [Covered, mem_append, or_and_right, exists_or]

theorem covered_perm (same : spans.Perm others) :
    Covered spans position ↔ Covered others position := by
  simp only [Covered, same.mem_iff]

theorem covered_shift {distance : Int} :
    Covered (spans.map (Span.shift · distance)) position ↔ Covered spans (position - distance) := by
  simp [Covered, Span.covers_shift]

theorem covered_filter_nonempty :
    Covered (spans.filter fun span => 0 < span.length) position ↔ Covered spans position := by
  constructor
  · rintro ⟨span, member, inside⟩
    exact ⟨span, (mem_filter.mp member).1, inside⟩
  · rintro ⟨span, member, inside⟩
    have nonempty : 0 < span.length := by
      unfold Span.Covers Span.stop at inside
      omega
    exact ⟨span, mem_filter.mpr ⟨member, decide_eq_true nonempty⟩, inside⟩

theorem pairwise_disjoint_append (first : spans.Pairwise Span.Disjoint)
    (second : others.Pairwise Span.Disjoint)
    (apart : ∀ position, Covered spans position → ¬ Covered others position) :
    (spans ++ others).Pairwise Span.Disjoint := by
  refine pairwise_append.mpr ⟨first, second, ?_⟩
  intro one inFirst other inSecond position covers covered
  exact apart position ⟨one, inFirst, covers⟩ ⟨other, inSecond, covered⟩

theorem apart_of_pairwise (apart : (spans ++ others).Pairwise Span.Disjoint)
    (first : Covered spans position) : ¬ Covered others position := by
  rintro ⟨other, inSecond, covers⟩
  obtain ⟨one, inFirst, covered⟩ := first
  exact (pairwise_append.mp apart).2.2 one inFirst other inSecond position covered covers

theorem bounded_of_covered {total : Int} (nonempty : ∀ span ∈ spans, 0 < span.length)
    (inside : ∀ position, Covered spans position → 0 ≤ position ∧ position < total) :
    ∀ span ∈ spans, 0 ≤ span.start ∧ span.stop ≤ total := by
  intro span member
  have positive := nonempty span member
  have first := inside span.start ⟨span, member, Int.le_refl _, by unfold Span.stop; omega⟩
  have last := inside (span.stop - 1) ⟨span, member, by unfold Span.stop; omega, by omega⟩
  exact ⟨first.1, by omega⟩

theorem covered_of_bounded {total : Int}
    (bounded : ∀ span ∈ spans, 0 ≤ span.start ∧ span.stop ≤ total)
    (covered : Covered spans position) : 0 ≤ position ∧ position < total := by
  obtain ⟨span, member, start, stop⟩ := covered
  have limits := bounded span member
  omega

/-! ### Complements -/

/-- What spans leave between a cursor and an end, when they come in the order of their
starts. -/
def gaps (total : Int) : Int → List Span → List Span
  | cursor, [] => if cursor < total then [{ start := cursor, length := total - cursor }] else []
  | cursor, span :: rest =>
    (if cursor < span.start then [{ start := cursor, length := span.start - cursor }] else []) ++
      gaps total (max cursor span.stop) rest

def Ordered (spans : List Span) : Prop :=
  spans.Pairwise fun one other => one.start ≤ other.start

theorem covered_until {cursor stop : Int} :
    Covered (if cursor < stop then [{ start := cursor, length := stop - cursor }] else [])
      position ↔ cursor ≤ position ∧ position < stop := by
  by_cases some : cursor < stop
  · rw [if_pos some, covered_cons]
    simp only [Span.Covers, Span.stop, not_covered_nil, or_false]
    omega
  · rw [if_neg some]
    simp only [not_covered_nil, false_iff]
    omega

theorem mem_until {cursor stop : Int} {span : Span}
    (member : span ∈ if cursor < stop then [{ start := cursor, length := stop - cursor }] else []) :
    span.start = cursor ∧ span.stop = stop ∧ 0 < span.length := by
  split at member
  · rw [mem_singleton.mp member]
    unfold Span.stop
    dsimp only
    omega
  · cases member

theorem not_covered_of_before (behind : ∀ span ∈ spans, position < span.start) :
    ¬ Covered spans position := by
  rintro ⟨span, member, start, _⟩
  have later := behind span member
  omega

theorem complement_cons {span : Span} {total cursor next : Int} (ordered : Ordered (span :: spans))
    (start : span.start ≤ total) (stop : next = max cursor span.stop) :
    cursor ≤ position ∧ position < span.start ∨
        next ≤ position ∧ position < total ∧ ¬ Covered spans position ↔
      cursor ≤ position ∧ position < total ∧ ¬ Covered (span :: spans) position := by
  have behind : position < span.start → ¬ Covered spans position := fun early =>
    not_covered_of_before fun other member => by
      have later := (pairwise_cons.mp ordered).1 other member
      omega
  rw [covered_cons, not_or]
  unfold Span.Covers
  constructor
  · rintro (⟨from_, until_⟩ | ⟨from_, until_, free⟩)
    · exact ⟨from_, by omega, by omega, behind until_⟩
    · exact ⟨by omega, until_, by omega, free⟩
  · rintro ⟨from_, until_, outside, free⟩
    by_cases early : position < span.start
    · exact .inl ⟨from_, early⟩
    · exact .inr ⟨by omega, until_, free⟩

theorem complement_skip {span : Span} {total cursor : Int}
    (missed : span.stop ≤ cursor ∨ total ≤ max cursor span.start) :
    cursor ≤ position ∧ position < total ∧ ¬ Covered spans position ↔
      cursor ≤ position ∧ position < total ∧ ¬ Covered (span :: spans) position := by
  rw [covered_cons, not_or]
  unfold Span.Covers
  constructor
  · rintro ⟨from_, until_, free⟩
    exact ⟨from_, until_, by omega, free⟩
  · rintro ⟨from_, until_, _, free⟩
    exact ⟨from_, until_, free⟩

theorem covered_gaps {total cursor : Int} (ordered : Ordered spans)
    (inside : ∀ span ∈ spans, span.start ≤ total) :
    Covered (gaps total cursor spans) position ↔
      cursor ≤ position ∧ position < total ∧ ¬ Covered spans position := by
  induction spans generalizing cursor with
  | nil =>
    rw [gaps, covered_until]
    simp only [not_covered_nil, not_false_eq_true, and_true]
  | cons span rest ih =>
    rw [gaps, covered_append, covered_until, ih (pairwise_cons.mp ordered).2
      fun other member => inside other (mem_cons_of_mem _ member)]
    exact complement_cons ordered (inside span mem_cons_self) rfl

theorem gaps_bounded {total cursor : Int} (inside : ∀ span ∈ spans, span.start ≤ total) :
    ∀ gap ∈ gaps total cursor spans, cursor ≤ gap.start ∧ 0 < gap.length ∧ gap.stop ≤ total := by
  induction spans generalizing cursor with
  | nil =>
    intro gap member
    have bounds := mem_until member
    omega
  | cons span rest ih =>
    intro gap member
    have start := inside span mem_cons_self
    rcases mem_append.mp member with first | later
    · have bounds := mem_until first
      omega
    · obtain ⟨from_, positive, until_⟩ :=
        ih (fun other member => inside other (mem_cons_of_mem _ member)) gap later
      exact ⟨by omega, positive, until_⟩

/-- What is left between a cursor and a stop when spans are cut out, in the order of
their starts. -/
def cutOut (stop : Int) : Int → List Span → List Span
  | cursor, [] => if cursor < stop then [{ start := cursor, length := stop - cursor }] else []
  | cursor, span :: rest =>
    if span.stop ≤ cursor then cutOut stop cursor rest
    else if stop ≤ span.start then
      if cursor < stop then [{ start := cursor, length := stop - cursor }] else []
    else
      (if cursor < span.start then [{ start := cursor, length := span.start - cursor }] else []) ++
        if stop ≤ span.stop then [] else cutOut stop span.stop rest

theorem covered_cutOut {stop cursor : Int} (ordered : Ordered spans) :
    Covered (cutOut stop cursor spans) position ↔
      cursor ≤ position ∧ position < stop ∧ ¬ Covered spans position := by
  induction spans generalizing cursor with
  | nil =>
    rw [cutOut, covered_until]
    simp only [not_covered_nil, not_false_eq_true, and_true]
  | cons span rest ih =>
    obtain ⟨first, others⟩ := pairwise_cons.mp ordered
    rw [cutOut]
    by_cases passed : span.stop ≤ cursor
    · rw [if_pos passed, ih others]
      exact complement_skip (.inl passed)
    · rw [if_neg passed]
      by_cases ahead : stop ≤ span.start
      · rw [if_pos ahead, covered_until]
        refine ⟨fun ⟨from_, until_⟩ => ⟨from_, until_, ?_⟩, fun inside => ⟨inside.1, inside.2.1⟩⟩
        refine not_covered_of_before (forall_mem_cons.mpr ⟨by omega, ?_⟩)
        intro other member
        have later := first other member
        omega
      · have rest_covered : Covered (if stop ≤ span.stop then [] else cutOut stop span.stop rest)
            position ↔ span.stop ≤ position ∧ position < stop ∧ ¬ Covered rest position := by
          by_cases done : stop ≤ span.stop
          · rw [if_pos done]
            simp only [not_covered_nil, false_iff]
            omega
          · rw [if_neg done, ih others]
        rw [if_neg ahead, covered_append, covered_until, rest_covered]
        exact complement_cons ordered (by omega) (by omega)

theorem cutOut_positive {stop cursor : Int} : ∀ span ∈ cutOut stop cursor spans, 0 < span.length := by
  induction spans generalizing cursor with
  | nil => exact fun span member => (mem_until member).2.2
  | cons item rest ih =>
    intro span member
    rw [cutOut] at member
    split at member
    · exact ih span member
    split at member
    · exact (mem_until member).2.2
    rcases mem_append.mp member with gap | later
    · exact (mem_until gap).2.2
    · split at later
      · cases later
      · exact ih span later

theorem cutOut_nil {stop cursor : Int} (empty : stop ≤ cursor) (spans : List Span) :
    cutOut stop cursor spans = [] := by
  induction spans with
  | nil => exact if_neg (by omega)
  | cons span rest ih =>
    rw [cutOut]
    by_cases passed : span.stop ≤ cursor
    · rw [if_pos passed, ih]
    · rw [if_neg passed]
      by_cases ahead : stop ≤ span.start
      · rw [if_pos ahead, if_neg (by omega)]
      · rw [if_neg ahead, if_neg (by omega), if_pos (by omega), append_nil]

theorem cutOut_of_missed {stop cursor : Int} (nonempty : cursor < stop)
    (missed : ∀ span ∈ spans, span.stop ≤ cursor ∨ stop ≤ span.start) :
    cutOut stop cursor spans = [{ start := cursor, length := stop - cursor }] := by
  induction spans with
  | nil => exact if_pos nonempty
  | cons span rest ih =>
    rw [cutOut]
    by_cases passed : span.stop ≤ cursor
    · rw [if_pos passed]
      exact ih fun other member => missed other (mem_cons_of_mem _ member)
    · have ahead := (missed span mem_cons_self).resolve_left passed
      rw [if_neg passed, if_pos ahead, if_pos nonempty]

/-! ### Places -/

def Span.places (span : Span) : List Int :=
  List.map (fun (index : Nat) => span.start + index) (List.range span.length.toNat)

theorem Span.mem_places {span : Span} : position ∈ span.places ↔ span.Covers position := by
  unfold Span.places Span.Covers Span.stop
  rw [mem_map]
  constructor
  · rintro ⟨index, member, rfl⟩
    have bound := mem_range.mp member
    omega
  · rintro ⟨from_, until_⟩
    refine ⟨(position - span.start).toNat, mem_range.mpr (by omega), by omega⟩

@[simp] theorem Span.places_length (span : Span) : span.places.length = span.length.toNat := by
  simp [Span.places]

theorem Span.places_getElem? {span : Span} {index : Nat} (inside : index < span.length.toNat) :
    span.places[index]? = some (span.start + index) := by
  simp [Span.places, inside]

theorem mem_flatMap_places : position ∈ spans.flatMap Span.places ↔ Covered spans position := by
  rw [mem_flatMap]
  unfold Covered
  simp only [Span.mem_places]

def Sequential (spans : List Span) : Prop :=
  spans.Pairwise fun one other => one.stop ≤ other.start

/-- Spans with something between them. -/
def Gapped (spans : List Span) : Prop :=
  spans.Pairwise fun one other => one.stop < other.start

theorem Gapped.sequential (gapped : Gapped spans) : Sequential spans :=
  gapped.imp Int.le_of_lt

theorem places_pairwise (span : Span) : span.places.Pairwise (· < ·) := by
  refine pairwise_map.mpr (pairwise_lt_range.imp ?_)
  intro one other before
  omega

theorem flatMap_places_pairwise (sequential : Sequential spans) :
    (spans.flatMap Span.places).Pairwise (· < ·) := by
  induction spans with
  | nil => exact List.Pairwise.nil
  | cons span rest ih =>
    obtain ⟨first, others⟩ := pairwise_cons.mp sequential
    rw [flatMap_cons]
    refine pairwise_append.mpr ⟨places_pairwise span, ih others, ?_⟩
    intro place inFirst other inRest
    obtain ⟨behind, member, start, _⟩ := mem_flatMap_places.mp inRest
    have stop := (Span.mem_places.mp inFirst).2
    have later := first behind member
    omega

end ReclaimTee
