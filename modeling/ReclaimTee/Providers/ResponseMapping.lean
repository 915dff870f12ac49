/-
The decoded text and its raw bytes. The runes of a decoded body lie one behind
the other in the text and in the raw body, so a part of the text that starts and
ends with runes has a raw range from its first rune to its last.
-/

import ReclaimTee.Lists
import ReclaimTee.Providers.ResponseCharset

namespace ReclaimTee.Providers

open List

/-- Runes one behind the other, up to an end in the text and an end in the raw body. -/
inductive Tiles : List Rune → Nat → Nat → Prop where
  | nil : Tiles [] 0 0
  | snoc {runes : List Rune} {decodedEnd rawEnd : Nat} (rune : Rune)
      (tiles : Tiles runes decodedEnd rawEnd) (start : rune.decodedStart = decodedEnd)
      (decoded : rune.decodedStart < rune.decodedEnd) (gap : rawEnd ≤ rune.rawStart)
      (raw : rune.rawStart < rune.rawEnd) :
      Tiles (runes ++ [rune]) rune.decodedEnd rune.rawEnd

namespace Tiles

variable {runes : List Rune} {decodedEnd rawEnd : Nat}

theorem bounded (tiles : Tiles runes decodedEnd rawEnd) :
    ∀ rune ∈ runes, rune.decodedStart < rune.decodedEnd ∧ rune.decodedEnd ≤ decodedEnd ∧
      rune.rawStart < rune.rawEnd ∧ rune.rawEnd ≤ rawEnd := by
  induction tiles with
  | nil =>
    intro rune member
    cases member
  | snoc rune tiles start decoded gap raw ih =>
    refine forall_mem_append.mpr ⟨fun earlier member => ?_, fun last member => ?_⟩
    · obtain ⟨nonempty, text, bytes, body⟩ := ih earlier member
      exact ⟨nonempty, by omega, bytes, by omega⟩
    · rw [mem_singleton.mp member]
      exact ⟨decoded, Nat.le_refl _, raw, Nat.le_refl _⟩

theorem pairwise (tiles : Tiles runes decodedEnd rawEnd) :
    runes.Pairwise fun one other =>
      one.decodedEnd ≤ other.decodedStart ∧ one.rawEnd ≤ other.rawStart := by
  induction tiles with
  | nil => exact List.Pairwise.nil
  | snoc rune tiles start decoded gap raw ih =>
    refine pairwise_append.mpr ⟨ih, pairwise_singleton _ _, ?_⟩
    intro earlier member last added
    rw [mem_singleton.mp added]
    obtain ⟨_, text, _, body⟩ := tiles.bounded earlier member
    exact ⟨by omega, by omega⟩

theorem raw_order (tiles : Tiles runes decodedEnd rawEnd) {one other : Rune} (first : one ∈ runes)
    (second : other ∈ runes) :
    (one.decodedStart < other.decodedEnd → one.rawStart < other.rawEnd) ∧
      (one.decodedStart ≤ other.decodedStart → one.rawStart ≤ other.rawStart) ∧
      (one.decodedEnd ≤ other.decodedEnd → one.rawEnd ≤ other.rawEnd) := by
  have one_bounds := tiles.bounded one first
  have other_bounds := tiles.bounded other second
  rcases pairwise_compare tiles.pairwise first second with rfl | ahead | behind
  all_goals omega

theorem starts (tiles : Tiles runes decodedEnd rawEnd) {position : Nat}
    (ends : position = 0 ∨ ∃ rune ∈ runes, rune.decodedEnd = position) :
    position = decodedEnd ∨ ∃ rune ∈ runes, rune.decodedStart = position := by
  induction tiles with
  | nil =>
    rcases ends with zero | ⟨rune, member, _⟩
    · exact .inl zero
    · cases member
  | @snoc runes decodedEnd rawEnd rune tiles start decoded gap raw ih =>
    have earlier (ends : position = 0 ∨ ∃ rune ∈ runes, rune.decodedEnd = position) :
        ∃ other ∈ runes ++ [rune], other.decodedStart = position := by
      rcases ih ends with last | ⟨found, member, same⟩
      · exact ⟨rune, mem_append_right _ (mem_singleton.mpr rfl), start.trans last.symm⟩
      · exact ⟨found, mem_append_left _ member, same⟩
    rcases ends with zero | ⟨found, member, same⟩
    · exact .inr (earlier (.inl zero))
    · rcases mem_append.mp member with inFront | last
      · exact .inr (earlier (.inr ⟨found, inFront, same⟩))
      · rw [mem_singleton.mp last] at same
        exact .inl same.symm

end Tiles

/-! ### Segments -/

namespace DecodedSourceSegment

def rune (segment : DecodedSourceSegment) (index : Nat) : Rune where
  decodedStart := segment.decodedStart + index * segment.decodedUnit
  decodedEnd := segment.decodedStart + (index + 1) * segment.decodedUnit
  rawStart := segment.rawStart + index * segment.rawUnit
  rawEnd := segment.rawStart + (index + 1) * segment.rawUnit

structure Holds (segment : DecodedSourceSegment) (count : Nat) : Prop where
  unit : 0 < segment.decodedUnit
  decodedEnd : segment.decodedEnd = segment.decodedStart + count * segment.decodedUnit
  rawEnd : segment.rawEnd = segment.rawStart + count * segment.rawUnit

end DecodedSourceSegment

open DecodedSourceSegment

/-- The segments, the last first, hold the runes. -/
structure Packed (segments : List DecodedSourceSegment) (runes : List Rune) (decodedEnd : Nat) :
    Prop where
  ordered : segments.Pairwise fun later earlier => earlier.decodedEnd ≤ later.decodedStart
  bounded : ∀ segment ∈ segments, segment.decodedEnd ≤ decodedEnd
  whole : ∀ segment ∈ segments, ∃ count, segment.Holds count
  held : ∀ rune ∈ runes, ∃ segment ∈ segments, ∃ count index, segment.Holds count ∧
    index < count ∧ rune = segment.rune index

variable {segments : List DecodedSourceSegment} {runes : List Rune} {decodedEnd rawEnd : Nat}

variable {rune : Rune} {body : DecodedResponseBody} {raw : List Byte}

theorem Packed.begin (packed : Packed segments runes decodedEnd)
    (start : rune.decodedStart = decodedEnd) (decoded : rune.decodedStart < rune.decodedEnd)
    (raw : rune.rawStart < rune.rawEnd) :
    Packed ({ decodedStart := rune.decodedStart
              decodedEnd := rune.decodedEnd
              rawStart := rune.rawStart
              rawEnd := rune.rawEnd
              decodedUnit := rune.decodedEnd - rune.decodedStart
              rawUnit := rune.rawEnd - rune.rawStart } :: segments) (runes ++ [rune])
      rune.decodedEnd := by
  have holds : Holds { decodedStart := rune.decodedStart
                       decodedEnd := rune.decodedEnd
                       rawStart := rune.rawStart
                       rawEnd := rune.rawEnd
                       decodedUnit := rune.decodedEnd - rune.decodedStart
                       rawUnit := rune.rawEnd - rune.rawStart } 1 := by
    refine ⟨?_, ?_, ?_⟩
    all_goals
      dsimp only
      omega
  refine ⟨pairwise_cons.mpr ⟨fun earlier member => ?_, packed.ordered⟩,
    forall_mem_cons.mpr ⟨Nat.le_refl _, fun segment member => ?_⟩,
    forall_mem_cons.mpr ⟨⟨1, holds⟩, packed.whole⟩,
    forall_mem_append.mpr ⟨fun earlier member => ?_, fun last member => ?_⟩⟩
  · have bound := packed.bounded earlier member
    dsimp only
    omega
  · have bound := packed.bounded segment member
    omega
  · obtain ⟨segment, inSegments, held⟩ := packed.held earlier member
    exact ⟨segment, mem_cons_of_mem _ inSegments, held⟩
  · rw [mem_singleton.mp member]
    refine ⟨_, mem_cons_self, 1, 0, holds, Nat.zero_lt_one, ?_⟩
    unfold DecodedSourceSegment.rune
    rw [Nat.zero_mul, Nat.zero_mul, Nat.one_mul, Nat.one_mul,
      Nat.add_sub_of_le (Nat.le_of_lt decoded), Nat.add_sub_of_le (Nat.le_of_lt raw)]
    rfl

theorem Packed.extend {previous : DecodedSourceSegment}
    (packed : Packed (previous :: segments) runes decodedEnd)
    (start : rune.decodedStart = decodedEnd) (decoded : rune.decodedStart < rune.decodedEnd)
    (raw : rune.rawStart < rune.rawEnd) (text : previous.decodedEnd = rune.decodedStart)
    (body : previous.rawEnd = rune.rawStart)
    (decodedUnit : previous.decodedUnit = rune.decodedEnd - rune.decodedStart)
    (rawUnit : previous.rawUnit = rune.rawEnd - rune.rawStart) :
    Packed ({ previous with decodedEnd := rune.decodedEnd, rawEnd := rune.rawEnd } :: segments)
      (runes ++ [rune]) rune.decodedEnd := by
  have extended {count : Nat} (holds : previous.Holds count) :
      Holds { previous with decodedEnd := rune.decodedEnd, rawEnd := rune.rawEnd } (count + 1) := by
    have decodedEnd := holds.decodedEnd
    have rawEnd := holds.rawEnd
    refine ⟨holds.unit, ?_, ?_⟩
    · dsimp only
      rw [Nat.add_mul]
      omega
    · dsimp only
      rw [Nat.add_mul]
      omega
  obtain ⟨earlier, ordered⟩ := pairwise_cons.mp packed.ordered
  obtain ⟨count, holds⟩ := packed.whole previous mem_cons_self
  refine ⟨pairwise_cons.mpr ⟨earlier, ordered⟩,
    forall_mem_cons.mpr ⟨Nat.le_refl _, fun segment member => ?_⟩,
    forall_mem_cons.mpr ⟨⟨_, extended holds⟩, fun segment member =>
      packed.whole segment (mem_cons_of_mem _ member)⟩,
    forall_mem_append.mpr ⟨fun found member => ?_, fun last member => ?_⟩⟩
  · have bound := packed.bounded segment (mem_cons_of_mem _ member)
    omega
  · obtain ⟨segment, inSegments, size, index, held, inside, same⟩ := packed.held found member
    rcases mem_cons.mp inSegments with rfl | inRest
    · exact ⟨_, mem_cons_self, size + 1, index, extended held, by omega, same⟩
    · exact ⟨segment, mem_cons_of_mem _ inRest, size, index, held, inside, same⟩
  · rw [mem_singleton.mp member]
    refine ⟨_, mem_cons_self, count + 1, count, extended holds, Nat.lt_succ_self _, ?_⟩
    have decodedEnd := holds.decodedEnd
    have rawEnd := holds.rawEnd
    obtain ⟨decodedStart, decodedStop, rawStart, rawStop⟩ := rune
    unfold DecodedSourceSegment.rune
    dsimp only at *
    rw [Nat.add_mul, Nat.add_mul]
    congr 1
    all_goals omega

theorem appendDecodedSourceSegment_packed (packed : Packed segments runes decodedEnd)
    (start : rune.decodedStart = decodedEnd) (decoded : rune.decodedStart < rune.decodedEnd)
    (raw : rune.rawStart < rune.rawEnd) :
    Packed (appendDecodedSourceSegment segments rune) (runes ++ [rune]) rune.decodedEnd := by
  unfold appendDecodedSourceSegment
  rw [if_neg (by omega)]
  cases segments with
  | nil => exact packed.begin start decoded raw
  | cons previous rest =>
    dsimp only
    split
    · next same =>
      obtain ⟨text, body, decodedUnit, rawUnit⟩ := same
      exact packed.extend start decoded raw text body decodedUnit rawUnit
    · exact packed.begin start decoded raw

theorem Tiles.packed (tiles : Tiles runes decodedEnd rawEnd) :
    Packed (runes.foldl appendDecodedSourceSegment []) runes decodedEnd := by
  induction tiles with
  | nil => exact ⟨List.Pairwise.nil, nofun, nofun, nofun⟩
  | snoc rune tiles start decoded gap raw ih =>
    rw [foldl_append]
    exact appendDecodedSourceSegment_packed ih start decoded raw

/-! ### Raw offsets -/

theorem search_append (test : DecodedSourceSegment → Bool) (segment : DecodedSourceSegment)
    (front back : List DecodedSourceSegment) (passes : test segment = true)
    (fails : ∀ earlier ∈ front, test earlier = false) (previous : Option DecodedSourceSegment) :
    ∃ before, DecodedResponseBody.search test previous (front ++ segment :: back) =
      some (before, segment) := by
  induction front generalizing previous with
  | nil =>
    rw [nil_append, DecodedResponseBody.search, if_pos passes]
    exact ⟨previous, rfl⟩
  | cons earlier rest ih =>
    rw [cons_append, DecodedResponseBody.search,
      if_neg (by rw [fails earlier mem_cons_self]; exact Bool.false_ne_true)]
    exact ih (fun other member => fails other (mem_cons_of_mem _ member)) _

theorem search_rune (tiles : Tiles body.runes decodedEnd rawEnd) (member : rune ∈ body.runes) :
    ∃ segment count index, body.segments ≠ [] ∧ segment.Holds count ∧ index < count ∧
      rune = segment.rune index ∧
      ∀ test : DecodedSourceSegment → Bool, test segment = true →
        (∀ earlier, earlier.decodedEnd ≤ segment.decodedStart → test earlier = false) →
        ∃ before, DecodedResponseBody.search test none body.segments = some (before, segment) := by
  obtain ⟨segment, inSegments, count, index, holds, inside, same⟩ := tiles.packed.held rune member
  have reversed : segment ∈ body.segments := mem_reverse.mpr inSegments
  obtain ⟨front, back, cut⟩ := append_of_mem reversed
  refine ⟨segment, count, index, ne_nil_of_mem reversed, holds, inside, same, ?_⟩
  have ordered : body.segments.Pairwise fun earlier later =>
      earlier.decodedEnd ≤ later.decodedStart := pairwise_reverse.mpr tiles.packed.ordered
  rw [cut] at ordered ⊢
  intro test passes fails
  refine search_append test segment front back passes (fun earlier inFront => ?_) none
  exact fails earlier
    ((pairwise_append.mp ordered).2.2 earlier inFront segment mem_cons_self)

theorem rawOffsetRight_rune (tiles : Tiles body.runes body.text.length rawEnd)
    (member : rune ∈ body.runes) : body.rawOffsetRight rune.decodedStart = rune.rawStart := by
  have bounds := tiles.bounded rune member
  obtain ⟨segment, count, index, nonempty, holds, inside, same, search⟩ := search_rune tiles member
  have unit := holds.unit
  have stop := holds.decodedEnd
  have start : rune.decodedStart = segment.decodedStart + index * segment.decodedUnit := by
    rw [same]
    rfl
  have first : rune.rawStart = segment.rawStart + index * segment.rawUnit := by
    rw [same]
    rfl
  have within : index * segment.decodedUnit < count * segment.decodedUnit :=
    Nat.mul_lt_mul_of_pos_right inside unit
  unfold DecodedResponseBody.rawOffsetRight DecodedResponseBody.decodedLength
  rw [if_neg (by omega), if_neg nonempty]
  obtain ⟨previous, found⟩ := search (fun segment =>
      decide (rune.decodedStart < segment.decodedEnd)) (decide_eq_true (by omega))
    fun earlier early => decide_eq_false (by omega)
  rw [found]
  dsimp only
  split
  · next low =>
    have zero : index * segment.decodedUnit = 0 := by
      omega
    have index_zero : index = 0 := by
      rcases Nat.mul_eq_zero.mp zero with none | impossible
      · exact none
      · omega
    rw [first, index_zero, Nat.zero_mul, Nat.add_zero]
  · rw [start, Nat.add_sub_cancel_left, Nat.mul_div_cancel _ unit, first]

theorem rawOffsetLeft_rune (tiles : Tiles body.runes body.text.length rawEnd)
    (member : rune ∈ body.runes) : body.rawOffsetLeft rune.decodedEnd = rune.rawEnd := by
  have bounds := tiles.bounded rune member
  obtain ⟨segment, count, index, nonempty, holds, inside, same, search⟩ := search_rune tiles member
  have unit := holds.unit
  have stop := holds.decodedEnd
  have end_ : rune.decodedEnd = segment.decodedStart + (index + 1) * segment.decodedUnit := by
    rw [same]
    rfl
  have last : rune.rawEnd = segment.rawStart + (index + 1) * segment.rawUnit := by
    rw [same]
    rfl
  have within : (index + 1) * segment.decodedUnit ≤ count * segment.decodedUnit :=
    Nat.mul_le_mul_right _ inside
  have positive : 0 < (index + 1) * segment.decodedUnit :=
    Nat.mul_pos (Nat.succ_pos _) unit
  unfold DecodedResponseBody.rawOffsetLeft DecodedResponseBody.decodedLength
  rw [if_neg (by omega), if_neg nonempty, if_neg (by omega)]
  obtain ⟨previous, found⟩ := search (fun segment =>
      decide (rune.decodedEnd ≤ segment.decodedEnd)) (decide_eq_true (by omega))
    fun earlier early => decide_eq_false (by omega)
  rw [found]
  dsimp only
  rw [if_neg (by omega), end_, Nat.add_sub_cancel_left, Nat.mul_div_cancel _ unit, last]

/-! ### Raw ranges -/

namespace DecodedResponseBody

variable {body : DecodedResponseBody}

/-- The runes make up the text and lie in the raw body. -/
def Tiled (body : DecodedResponseBody) : Prop :=
  ∃ rawEnd, rawEnd ≤ body.rawLength ∧ Tiles body.runes body.text.length rawEnd

/-- A position of the text between runes. -/
def AtRune (body : DecodedResponseBody) (position : Int) : Prop :=
  position = 0 ∨ ∃ rune ∈ body.runes, (rune.decodedEnd : Int) = position

instance (body : DecodedResponseBody) (position : Int) : Decidable (body.AtRune position) :=
  inferInstanceAs (Decidable (_ ∨ ∃ rune ∈ body.runes, _))

/-- The raw offset lies between the raw start of a rune of the part and the raw end of a
rune of the part. -/
def InRaw (body : DecodedResponseBody) (decodedStart decodedEnd : Int) (offset : Nat) : Prop :=
  ∃ first ∈ body.runes, ∃ last ∈ body.runes,
    decodedStart ≤ first.decodedStart ∧ first.decodedEnd ≤ decodedEnd ∧
    decodedStart ≤ last.decodedStart ∧ last.decodedEnd ≤ decodedEnd ∧
    first.rawStart ≤ offset ∧ offset < last.rawEnd

theorem AtRune.starts (tiled : body.Tiled) {position : Int} (atRune : body.AtRune position) :
    position = body.text.length ∨ ∃ rune ∈ body.runes, (rune.decodedStart : Int) = position := by
  obtain ⟨rawEnd, _, tiles⟩ := tiled
  have found : ∃ natural : Nat, position = natural ∧
      (natural = 0 ∨ ∃ rune ∈ body.runes, rune.decodedEnd = natural) := by
    rcases atRune with zero | ⟨rune, member, same⟩
    · exact ⟨0, zero, .inl rfl⟩
    · exact ⟨rune.decodedEnd, same.symm, .inr ⟨rune, member, rfl⟩⟩
  obtain ⟨natural, rfl, ends⟩ := found
  rcases tiles.starts ends with last | ⟨rune, member, same⟩
  · exact .inl (by omega)
  · exact .inr ⟨rune, member, by omega⟩

theorem AtRune.bounds (tiled : body.Tiled) {position : Int} (atRune : body.AtRune position) :
    0 ≤ position ∧ position ≤ body.text.length := by
  obtain ⟨rawEnd, _, tiles⟩ := tiled
  rcases atRune with zero | ⟨rune, member, same⟩
  · omega
  · have bounds := tiles.bounded rune member
    omega

/-- A part of the text that starts and ends between runes is found from its first rune to its
last. -/
theorem rawRange_runes (tiled : body.Tiled) {decodedStart decodedEnd : Int}
    (start : body.AtRune decodedStart) (stop : body.AtRune decodedEnd)
    (nonempty : decodedStart < decodedEnd) :
    ∃ first ∈ body.runes, ∃ last ∈ body.runes, (first.decodedStart : Int) = decodedStart ∧
      (last.decodedEnd : Int) = decodedEnd ∧
      body.rawRange decodedStart decodedEnd = .ok (first.rawStart, last.rawEnd) := by
  have stop_bounds := stop.bounds tiled
  obtain ⟨first, inFirst, firstStart⟩ := (start.starts tiled).resolve_left (by omega)
  obtain ⟨last, inLast, lastEnd⟩ := stop.resolve_left (by omega)
  obtain ⟨total, bound, tiles⟩ := tiled
  have last_bounds := tiles.bounded last inLast
  have lower : body.rawOffsetRight decodedStart.toNat = first.rawStart := by
    rw [← firstStart]
    exact rawOffsetRight_rune tiles inFirst
  have upper : body.rawOffsetLeft decodedEnd.toNat = last.rawEnd := by
    rw [← lastEnd]
    exact rawOffsetLeft_rune tiles inLast
  have ordered : first.rawStart < last.rawEnd := (tiles.raw_order inFirst inLast).1 (by omega)
  refine ⟨first, inFirst, last, inLast, firstStart, lastEnd, ?_⟩
  unfold rawRange
  rw [rejectIf_of_not (by omega)]
  dsimp only
  rw [lower, upper, rejectIf_of_not (by omega)]
  rfl

theorem rawRange_nonempty (tiled : body.Tiled) {decodedStart decodedEnd : Int}
    (start : body.AtRune decodedStart) (stop : body.AtRune decodedEnd)
    (nonempty : decodedStart < decodedEnd) :
    ∃ rawStart rawEnd, body.rawRange decodedStart decodedEnd = .ok (rawStart, rawEnd) ∧
      rawStart < rawEnd ∧ rawEnd ≤ body.rawLength ∧
      ∀ offset, body.InRaw decodedStart decodedEnd offset ↔ rawStart ≤ offset ∧ offset < rawEnd := by
  obtain ⟨first, inFirst, last, inLast, firstStart, lastEnd, mapped⟩ :=
    rawRange_runes tiled start stop nonempty
  obtain ⟨total, bound, tiles⟩ := tiled
  have first_bounds := tiles.bounded first inFirst
  have last_bounds := tiles.bounded last inLast
  refine ⟨first.rawStart, last.rawEnd, mapped, (tiles.raw_order inFirst inLast).1 (by omega),
    by omega, ?_⟩
  intro offset
  constructor
  · rintro ⟨one, inOne, other, inOther, oneStart, _, _, otherEnd, low, high⟩
    have below := (tiles.raw_order inFirst inOne).2.1 (by omega)
    have above := (tiles.raw_order inOther inLast).2.2 (by omega)
    omega
  · rintro ⟨low, high⟩
    have compared := pairwise_compare tiles.pairwise inFirst inLast
    have firstEnd : (first.decodedEnd : Int) ≤ decodedEnd := by
      rcases compared with rfl | ahead | behind
      all_goals omega
    have lastStart : decodedStart ≤ last.decodedStart := by
      rcases compared with rfl | ahead | behind
      all_goals omega
    exact ⟨first, inFirst, last, inLast, by omega, firstEnd, lastStart, by omega, low, high⟩

theorem not_inRaw_of_empty (tiled : body.Tiled) {decodedStart decodedEnd : Int} {offset : Nat}
    (empty : decodedEnd ≤ decodedStart) : ¬ body.InRaw decodedStart decodedEnd offset := by
  rintro ⟨first, member, _, _, start, stop, _⟩
  obtain ⟨rawEnd, _, tiles⟩ := tiled
  have bounds := tiles.bounded first member
  omega

theorem rawRange_empty (tiled : body.Tiled) {position : Int} {rawStart rawEnd : Nat}
    (atRune : body.AtRune position)
    (mapped : body.rawRange position position = .ok (rawStart, rawEnd)) :
    rawStart = rawEnd ∧ rawEnd ≤ body.rawLength ∧ rawStart = body.rawOffsetRight position.toNat := by
  unfold rawRange at mapped
  simp only [eq_ok_iff] at mapped
  obtain ⟨_, _, _, valid, rfl, rfl⟩ := mapped
  have below : body.rawOffsetLeft position.toNat ≤ body.rawOffsetRight position.toNat := by
    have begins := atRune.starts tiled
    obtain ⟨total, bound, tiles⟩ := tiled
    rcases atRune with rfl | ⟨before, inBefore, ends⟩
    · exact Nat.zero_le _
    have before_bounds := tiles.bounded before inBefore
    have left : body.rawOffsetLeft position.toNat = before.rawEnd := by
      rw [← ends]
      exact rawOffsetLeft_rune tiles inBefore
    rw [left]
    rcases begins with last | ⟨after, inAfter, start⟩
    · have right : body.rawOffsetRight position.toNat = body.rawLength := by
        unfold rawOffsetRight decodedLength
        exact if_pos (by omega)
      omega
    · have right : body.rawOffsetRight position.toNat = after.rawStart := by
        rw [← start]
        exact rawOffsetRight_rune tiles inAfter
      have after_bounds := tiles.bounded after inAfter
      rw [right]
      rcases pairwise_compare tiles.pairwise inBefore inAfter with rfl | ahead | behind
      · omega
      · exact ahead.2
      · omega
  exact ⟨by omega, by omega, rfl⟩

end DecodedResponseBody

/-! ### Partitions of the text -/

def Rune.Spans (rune : Rune) (offset : Nat) : Prop :=
  rune.rawStart ≤ offset ∧ offset < rune.rawEnd

/-- Parts between runes are mapped to the raw bytes of their runes, neighbours to neighbours,
and the parts of the whole text to all bytes of its runes. -/
structure DecodedResponseBody.RangesExact (body : DecodedResponseBody) : Prop where
  ranges : ∀ start stop, body.AtRune start → body.AtRune stop → start < stop →
    ∃ first ∈ body.runes, ∃ last ∈ body.runes, (first.decodedStart : Int) = start ∧
      (last.decodedEnd : Int) = stop ∧
      body.rawRange start stop = .ok (first.rawStart, last.rawEnd)
  disjoint : ∀ start mid stop, body.AtRune start → body.AtRune mid → body.AtRune stop →
    start < mid → mid < stop → ∀ left right,
    body.rawRange start mid = .ok left → body.rawRange mid stop = .ok right → left.2 ≤ right.1
  covered : ∀ cuts : List Int, (0 :: cuts).Pairwise (· < ·) → (∀ cut ∈ cuts, body.AtRune cut) →
    (0 :: cuts).getLast? = some (body.text.length : Int) →
    ∀ rune ∈ body.runes, ∀ offset, rune.Spans offset →
      ∃ part ∈ (0 :: cuts).zip cuts, ∃ range, body.rawRange part.1 part.2 = .ok range ∧
        range.1 ≤ offset ∧ offset < range.2

theorem exists_part {position total : Int} (start : Int) (cuts : List Int) (low : start ≤ position)
    (high : position < total) (last : (start :: cuts).getLast? = some total) :
    ∃ part ∈ (start :: cuts).zip cuts, part.1 ≤ position ∧ position < part.2 := by
  induction cuts generalizing start with
  | nil =>
    have ends : start = total := Option.some.inj last
    omega
  | cons cut cuts ih =>
    by_cases inside : position < cut
    · exact ⟨(start, cut), mem_cons_self, low, inside⟩
    · rw [getLast?_cons_cons] at last
      obtain ⟨part, member, holds⟩ := ih cut (Int.not_lt.mp inside) last
      exact ⟨part, mem_cons_of_mem _ member, holds⟩

theorem DecodedResponseBody.Tiled.rangesExact (tiled : body.Tiled) : body.RangesExact where
  ranges _ _ start stop nonempty := rawRange_runes tiled start stop nonempty
  disjoint start mid stop one two three before after left right := by
    intro leftMapped rightMapped
    obtain ⟨_, _, last, inLast, _, ends, leftRange⟩ := rawRange_runes tiled one two before
    obtain ⟨first, inFirst, _, _, starts, _, rightRange⟩ := rawRange_runes tiled two three after
    rw [leftRange] at leftMapped
    rw [rightRange] at rightMapped
    cases leftMapped
    cases rightMapped
    obtain ⟨_, _, tiles⟩ := tiled
    have first_bounds := tiles.bounded first inFirst
    have last_bounds := tiles.bounded last inLast
    rcases pairwise_compare tiles.pairwise inLast inFirst with rfl | ahead | behind
    all_goals omega
  covered cuts ordered boundaries last rune member offset spans := by
    have ⟨_, _, tiles⟩ := tiled
    have bounds := tiles.bounded rune member
    obtain ⟨⟨start, stop⟩, inside, low, high⟩ :=
      exists_part 0 cuts (Int.natCast_nonneg rune.decodedStart) (by omega) last
    obtain ⟨inStarts, inCuts⟩ := of_mem_zip inside
    have stops := boundaries stop inCuts
    have starts : body.AtRune start := by
      rcases mem_cons.mp inStarts with rfl | later
      · exact .inl rfl
      · exact boundaries start later
    -- A boundary behind the start of a rune is not in front of its end.
    have whole : (rune.decodedEnd : Int) ≤ stop := by
      rcases stops with zero | ⟨other, inOther, same⟩
      · omega
      · have other_bounds := tiles.bounded other inOther
        rcases pairwise_compare tiles.pairwise member inOther with rfl | ahead | behind
        all_goals omega
    obtain ⟨rawStart, rawEnd, mapped, _, _, inRaw⟩ :=
      rawRange_nonempty tiled starts stops (by omega)
    exact ⟨_, inside, _, mapped, (inRaw offset).mp
      ⟨rune, member, rune, member, low, whole, low, whole, spans⟩⟩

end ReclaimTee.Providers
