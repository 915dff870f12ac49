/-
Reveals in the coordinates of the response. The reveal of a part of the text is
from the place of its first byte to that of its last, so that it covers the
part's bytes and, when it spans chunks, the framing between them.
-/

import ReclaimTee.Providers.Response
import ReclaimTee.Providers.ResponseFraming
import ReclaimTee.Providers.ResponseDecoding

namespace ReclaimTee.Providers

open List

/-! ### Positions in chunks -/

theorem convertStartFrom_cons (pos base : Int) (chunk : Span) (rest : List Span) :
    convertStartFrom pos base (chunk :: rest) =
      if base ≤ pos ∧ pos < base + chunk.length then pos - base + chunk.start
      else if pos = base + chunk.length then (rest.head?.map Span.start).getD chunk.stop
      else convertStartFrom pos (base + chunk.length) rest := by
  cases rest with
  | nil | cons => rfl

variable {chunks : List Span}

theorem convertFrom_places {base : Int} {index : Nat}
    (positive : ∀ chunk ∈ chunks, 0 < chunk.length)
    (inside : index < (chunks.flatMap Span.places).length) :
    (chunks.flatMap Span.places)[index]? = some (convertStartFrom (base + index) base chunks) ∧
      convertEndFrom (base + index + 1) base chunks =
        convertStartFrom (base + index) base chunks + 1 := by
  induction chunks generalizing base index with
  | nil => cases inside
  | cons chunk rest ih =>
    have first := positive chunk mem_cons_self
    rw [flatMap_cons] at inside ⊢
    rw [convertStartFrom_cons, convertEndFrom]
    by_cases here : index < chunk.length.toNat
    · rw [getElem?_append_left (by rw [Span.places_length]; exact here),
        Span.places_getElem? here, Option.some.injEq]
      omega
    · rw [length_append, Span.places_length] at inside
      obtain ⟨found, next⟩ := @ih (base + chunk.length) (index - chunk.length.toNat)
        (fun other member => positive other (mem_cons_of_mem _ member)) (by omega)
      have same : base + chunk.length + ((index - chunk.length.toNat : Nat) : Int) =
          base + index := by
        omega
      rw [same] at found next
      rw [getElem?_append_right (by rw [Span.places_length]; omega), Span.places_length,
        if_neg (by omega), found, next]
      by_cases boundary : base + index = base + chunk.length
      · rw [if_pos boundary]
        cases rest with
        | nil =>
          rw [flatMap_nil, length_nil] at inside
          omega
        | cons following others =>
          have later := positive following (mem_cons_of_mem _ mem_cons_self)
          rw [convertStartFrom_cons, Option.some.injEq]
          change _ = following.start ∧ _ = following.start + 1
          omega
      · rw [if_neg boundary, if_neg (by omega)]
        exact ⟨rfl, rfl⟩

/-- An offset of the body at which one chunk ends and another begins. -/
def BetweenChunks : Int → List Span → Prop
  | _, [] => False
  | offset, chunk :: rest =>
    (offset = chunk.length ∧ rest ≠ []) ∨ BetweenChunks (offset - chunk.length) rest

theorem not_betweenChunks {offset : Int} (positive : ∀ chunk ∈ chunks, 0 < chunk.length)
    (start : offset ≤ 0) : ¬ BetweenChunks offset chunks := by
  induction chunks generalizing offset with
  | nil => exact id
  | cons chunk rest ih =>
    have first := positive chunk mem_cons_self
    rintro (⟨same, _⟩ | later)
    · omega
    · exact ih (fun other member => positive other (mem_cons_of_mem _ member)) (by omega) later

theorem betweenChunks_lt {offset : Int}
    (positive : ∀ chunk ∈ chunks, 0 < chunk.length) (between : BetweenChunks offset chunks) :
    offset < ((chunks.flatMap Span.places).length : Int) := by
  induction chunks generalizing offset with
  | nil => exact between.elim
  | cons chunk rest ih =>
    have others : ∀ other ∈ rest, 0 < other.length := fun other member =>
      positive other (mem_cons_of_mem _ member)
    rw [flatMap_cons, length_append, Span.places_length]
    rcases between with ⟨same, present⟩ | later
    · cases rest with
      | nil => exact absurd rfl present
      | cons next tail =>
        have second := others next mem_cons_self
        rw [flatMap_cons, length_append, Span.places_length]
        omega
    · have bound := ih others later
      omega

theorem convert_empty {base offset : Int} (positive : ∀ chunk ∈ chunks, 0 < chunk.length)
    (gapped : Gapped chunks) (present : chunks ≠ []) (start : 0 ≤ offset)
    (stop : offset ≤ ((chunks.flatMap Span.places).length : Int)) :
    (¬ BetweenChunks offset chunks ∧
      convertEndFrom (base + offset) base chunks = convertStartFrom (base + offset) base chunks) ∨
    (BetweenChunks offset chunks ∧
      convertEndFrom (base + offset) base chunks < convertStartFrom (base + offset) base chunks) := by
  induction chunks generalizing base offset with
  | nil => exact absurd rfl present
  | cons chunk rest ih =>
    have first := positive chunk mem_cons_self
    have others : ∀ other ∈ rest, 0 < other.length := fun other member =>
      positive other (mem_cons_of_mem _ member)
    obtain ⟨behind, tail⟩ := pairwise_cons.mp gapped
    rw [convertStartFrom_cons, convertEndFrom]
    rcases Int.lt_trichotomy offset chunk.length with within | boundary | later
    · rw [if_pos (by omega)]
      refine .inl ⟨?_, by omega⟩
      rintro (⟨same, _⟩ | inRest)
      · omega
      · exact not_betweenChunks others (by omega) inRest
    · rw [if_pos (by omega), if_neg (by omega), if_pos (by omega)]
      cases rest with
      | nil =>
        refine .inl ⟨?_, ?_⟩
        · rintro (⟨_, impossible⟩ | impossible)
          · exact impossible rfl
          · exact impossible
        · change chunk.start + (base + offset - base) = chunk.stop
          unfold Span.stop
          omega
      | cons next others =>
        refine .inr ⟨.inl ⟨boundary, cons_ne_nil _ _⟩, ?_⟩
        have gap := behind next mem_cons_self
        change chunk.start + (base + offset - base) < next.start
        unfold Span.stop at gap
        omega
    · rw [if_neg (by omega), if_neg (by omega), if_neg (by omega)]
      rw [flatMap_cons, length_append, Span.places_length] at stop
      have rest_present : rest ≠ [] := by
        rintro rfl
        rw [flatMap_nil, length_nil] at stop
        omega
      have found := @ih (base + chunk.length) (offset - chunk.length) others tail rest_present
        (by omega) (by omega)
      have same : base + chunk.length + (offset - chunk.length) = base + offset := by
        omega
      rw [same] at found
      rcases found with ⟨outside, equal⟩ | ⟨inside, smaller⟩
      · refine .inl ⟨?_, equal⟩
        rintro (⟨impossible, _⟩ | inRest)
        · omega
        · exact outside inRest
      · exact .inr ⟨.inr inside, smaller⟩

theorem mem_zip_tail {chunk : Span} (member : chunk ∈ chunks.tail) :
    ∃ previous, (previous, chunk) ∈ chunks.zip chunks.tail := by
  obtain ⟨index, found⟩ := List.mem_iff_getElem?.mp member
  have inside := (List.getElem?_eq_some_iff.mp found).1
  have length : chunks.tail.length ≤ chunks.length := by
    rw [List.length_tail]
    omega
  have inChunks : index < chunks.length := by omega
  refine ⟨chunks[index], ?_⟩
  refine mem_of_getElem? (i := index) ?_
  rw [getElem?_zip_eq_some]
  exact ⟨getElem?_eq_getElem inChunks, found⟩

/-! ### The body in the response -/

/-- A decoded body and its place in a response. -/
structure Located (data : List Byte) (response : HTTPParsedResponse) (place : BodyPlace) : Prop where
  placed : Placed data response
  start : 0 ≤ response.bodyStartIndex ∧ response.bodyStartIndex ≤ data.length
  chunks : place.chunks = response.chunks
  bodyStart : place.bodyStartIdx = response.bodyStartIndex
  tiled : place.body.Tiled
  rawLength : place.body.rawLength = response.body.length

/-- Bytes of the body section that are no chunk data. -/
def BodyFraming (data : List Byte) (response : HTTPParsedResponse) (position : Int) : Prop :=
  response.chunks ≠ [] ∧ response.bodyStartIndex ≤ position ∧ position < data.length ∧
    position ∉ response.bodyPlaces

/-- The reveal of a range of raw offsets. -/
structure Spans (data : List Byte) (response : HTTPParsedResponse) (rawStart rawEnd : Nat)
    (span : Span) : Prop where
  bounds : 0 ≤ span.start ∧ 0 < span.length ∧ span.stop ≤ data.length
  first : response.bodyPlaces[rawStart]? = some span.start
  last : response.bodyPlaces[rawEnd - 1]? = some (span.stop - 1)
  covers : ∀ (offset : Nat) (position : Int), rawStart ≤ offset → offset < rawEnd →
    response.bodyPlaces[offset]? = some position → span.Covers position
  within : ∀ position, span.Covers position →
    (∃ offset, rawStart ≤ offset ∧ offset < rawEnd ∧ response.bodyPlaces[offset]? = some position) ∨
    BodyFraming data response position

namespace Located

variable {data : List Byte} {response : HTTPParsedResponse} {place : BodyPlace}
  (located : Located data response place)

include located

theorem positive : ∀ chunk ∈ response.chunks, 0 < chunk.length := fun chunk member =>
  (located.placed.positive chunk member).1

theorem increasing : response.bodyPlaces.Pairwise (· < ·) := by
  unfold HTTPParsedResponse.bodyPlaces
  split
  · exact places_pairwise _
  · exact flatMap_places_pairwise located.placed.gapped.sequential

theorem place_bounds {position : Int} (member : position ∈ response.bodyPlaces) :
    response.bodyStartIndex ≤ position ∧ position < data.length := by
  obtain ⟨index, found⟩ := List.mem_iff_getElem?.mp member
  have inside : index < response.body.length := by
    rw [← located.placed.length]
    exact (List.getElem?_eq_some_iff.mp found).1
  obtain ⟨stored, same, read⟩ :=
    located.placed.stored index _ (List.getElem?_eq_getElem inside)
  rw [found, Option.some.injEq] at same
  have bound := (List.getElem?_eq_some_iff.mp read).1
  refine ⟨?_, by omega⟩
  unfold HTTPParsedResponse.bodyPlaces at member
  split at member
  · exact (Span.mem_places.mp member).1
  · obtain ⟨chunk, inChunks, starts, _⟩ := mem_flatMap_places.mp member
    have begins := (located.placed.positive chunk inChunks).2.1
    omega

theorem convertPlace {offset : Nat} (inside : offset < response.bodyPlaces.length) :
    response.bodyPlaces[offset]? =
        some (convertResponseStartPosToAbsolute offset place.bodyStartIdx place.chunks) ∧
      response.bodyPlaces[offset]? =
        some (convertResponseEndPosToAbsolute ((offset + 1 : Nat) : Int) place.bodyStartIdx
          place.chunks - 1) := by
  rw [located.chunks, located.bodyStart]
  unfold HTTPParsedResponse.bodyPlaces at inside ⊢
  unfold convertResponseStartPosToAbsolute convertResponseEndPosToAbsolute
  by_cases none : response.chunks = []
  · rw [if_pos none] at inside ⊢
    rw [Span.places_length] at inside
    rw [if_pos none, if_pos none, Span.places_getElem? inside, Option.some.injEq, Option.some.injEq]
    dsimp only
    omega
  · rw [if_neg none] at inside ⊢
    rw [if_neg none, if_neg none]
    obtain ⟨found, next⟩ := @convertFrom_places _ 0 _ located.positive inside
    rw [Int.zero_add] at found next
    rw [Int.natCast_add, Int.natCast_one, next, Int.add_sub_cancel]
    exact ⟨found, found⟩

theorem getReveal_spans {rawStart rawEnd : Nat}
    (nonempty : rawStart < rawEnd) (inside : rawEnd ≤ place.body.rawLength) (hash : List Byte) :
    Spans data response rawStart rawEnd
      (getReveal rawStart rawEnd place.bodyStartIdx place.chunks hash).span := by
  rw [located.rawLength, ← located.placed.length] at inside
  have first := (located.convertPlace (by omega : rawStart < response.bodyPlaces.length)).1
  have last := (located.convertPlace (by omega : rawEnd - 1 < response.bodyPlaces.length)).2
  rw [Nat.sub_add_cancel (by omega : 1 ≤ rawEnd)] at last
  generalize reveal : getReveal rawStart rawEnd place.bodyStartIdx place.chunks hash = range
  have start : range.span.start =
      convertResponseStartPosToAbsolute rawStart place.bodyStartIdx place.chunks := by
    rw [← reveal]
    rfl
  have stop : range.span.stop =
      convertResponseEndPosToAbsolute rawEnd place.bodyStartIdx place.chunks := by
    rw [← reveal]
    unfold getReveal Span.stop
    dsimp only
    omega
  rw [← start] at first
  rw [← stop] at last
  have firstBounds := located.place_bounds (mem_of_getElem? first)
  have lastBounds := located.place_bounds (mem_of_getElem? last)
  have begins := located.start
  have ordered : ¬ range.span.stop - 1 < range.span.start := fun smaller => by
    have behind := (getElem?_lt_iff located.increasing last first).mpr smaller
    omega
  have length : range.span.stop = range.span.start + range.span.length := rfl
  refine ⟨⟨by omega, by omega, by omega⟩, first, last, ?_, ?_⟩
  · intro offset position low high found
    have below : ¬ position < range.span.start := fun smaller => by
      have behind := (getElem?_lt_iff located.increasing found first).mpr smaller
      omega
    have above : ¬ range.span.stop - 1 < position := fun larger => by
      have ahead := (getElem?_lt_iff located.increasing last found).mpr larger
      omega
    exact ⟨by omega, by omega⟩
  · intro position covers
    have low := covers.1
    have high := covers.2
    by_cases member : position ∈ response.bodyPlaces
    · obtain ⟨offset, found⟩ := mem_iff_getElem?.mp member
      refine .inl ⟨offset, ?_, ?_, found⟩
      · by_contra early
        have smaller := (getElem?_lt_iff located.increasing found first).mp (by omega)
        omega
      · by_contra late
        have larger := (getElem?_lt_iff located.increasing last found).mp (by omega)
        omega
    · refine .inr ⟨?_, by omega, by omega, member⟩
      intro none
      refine member ?_
      have inFirst := mem_of_getElem? first
      have inLast := mem_of_getElem? last
      unfold HTTPParsedResponse.bodyPlaces at inFirst inLast ⊢
      rw [if_pos none] at inFirst inLast ⊢
      have lower := (Span.mem_places.mp inFirst).1
      have upper := (Span.mem_places.mp inLast).2
      exact Span.mem_places.mpr ⟨by omega, by omega⟩

theorem within_of_unsplit {rawStart rawEnd : Nat}
    {span : Span} (spans : Spans data response rawStart rawEnd span)
    (unsplit : getRedactionsForChunkHeaders span.start span.stop place.chunks = [])
    {position : Int} (covers : span.Covers position) : position ∈ response.bodyPlaces := by
  rcases spans.within position covers with ⟨offset, _, _, found⟩ | ⟨present, _, _, outside⟩
  · exact mem_of_getElem? found
  exfalso
  have inFirst := mem_of_getElem? spans.first
  have inLast := mem_of_getElem? spans.last
  unfold HTTPParsedResponse.bodyPlaces at inFirst inLast outside
  rw [if_neg present] at inFirst inLast outside
  rw [mem_flatMap_places] at inFirst inLast outside
  obtain ⟨early, inEarly, earlyStart, earlyStop⟩ := inFirst
  obtain ⟨late, inLate, lateStart, lateStop⟩ := inLast
  have low := covers.1
  have high := covers.2
  rcases pairwise_compare located.placed.gapped inEarly inLate with rfl | ahead | behind
  · exact outside ⟨early, inEarly, by omega, by omega⟩
  · have inTail : late ∈ response.chunks.tail := by
      have gapped := located.placed.gapped
      generalize response.chunks = chunks at inEarly inLate gapped
      cases chunks with
      | nil => cases inLate
      | cons head tail =>
        rcases mem_cons.mp inLate with rfl | inRest
        · rcases mem_cons.mp inEarly with rfl | earlyInRest
          · omega
          · have order := (pairwise_cons.mp gapped).1 early earlyInRest
            omega
        · exact inRest
    obtain ⟨previous, paired⟩ := mem_zip_tail inTail
    unfold getRedactionsForChunkHeaders at unsplit
    rw [located.chunks, filterMap_eq_nil_iff] at unsplit
    have impossible := unsplit (previous, late) paired
    dsimp only at impossible
    rw [if_pos (by omega)] at impossible
    cases impossible
  · omega

end Located

/-! ### Parts of a match -/

/-- The bytes of the response that a part of the text was made of. -/
def PartByte (response : HTTPParsedResponse) (body : DecodedResponseBody) (part : IndexRange)
    (position : Int) : Prop :=
  ∃ offset, body.InRaw part.start part.stop offset ∧ response.bodyPlaces[offset]? = some position

/-- A part that starts and ends with runes. -/
structure Bounded (body : DecodedResponseBody) (part : IndexRange) : Prop where
  start : body.AtRune part.start
  stop : body.AtRune part.stop
  ordered : part.start ≤ part.stop

/-- A hashed part: a range of its own that covers its bytes. -/
structure Hashes (data : List Byte) (response : HTTPParsedResponse) (body : DecodedResponseBody)
    (part : IndexRange) (hash : List Byte) (item : RedactionItem) : Prop where
  hash : item.reveal.hash = hash
  redactions : item.redactions = []
  start : 0 ≤ item.reveal.span.start ∧ item.reveal.span.start ≤ data.length
  nonempty : part.start < part.stop → 0 < item.reveal.span.length ∧
    item.reveal.span.stop ≤ data.length
  covers : ∀ position, item.reveal.span.Covers position ↔ PartByte response body part position
  empty : part.start = part.stop → ¬ 0 < item.reveal.span.length ∧
    (0 ≤ item.reveal.span.length ↔
      ¬ BetweenChunks (body.rawOffsetRight part.start.toNat) response.chunks)

/-- The reveals of parts, of which some are hashed: the bytes of the parts are covered, and
nothing else but framing is. -/
structure Reveals (data : List Byte) (response : HTTPParsedResponse) (body : DecodedResponseBody)
    (parts : List IndexRange) (groups : List (IndexRange × List Byte))
    (items : List RedactionItem) : Prop where
  covers : ∀ part ∈ parts, ∀ position, PartByte response body part position →
    Covered (items.map fun item => item.reveal.span) position
  plain : ∀ item ∈ items, item.redactions = [] ∧ 0 ≤ item.reveal.span.start ∧
    item.reveal.span.start ≤ data.length
  within : ∀ item ∈ items, ∀ position, item.reveal.span.Covers position →
    (∃ part ∈ parts, PartByte response body part position) ∨ BodyFraming data response position
  hashed : List.Forall₂ (fun (item : RedactionItem) (group : IndexRange × List Byte) =>
      Hashes data response body group.1 group.2 item)
    (items.filter fun item => item.reveal.hash ≠ []) groups

section Reveals

variable {data : List Byte} {response : HTTPParsedResponse} {body : DecodedResponseBody}
  {parts others : List IndexRange} {groups more : List (IndexRange × List Byte)}
  {items rest : List RedactionItem}

theorem Reveals.append (first : Reveals data response body parts groups items)
    (second : Reveals data response body others more rest) :
    Reveals data response body (parts ++ others) (groups ++ more) (items ++ rest) where
  covers := by
    rw [map_append]
    exact forall_mem_append.mpr
      ⟨fun part member position byte =>
          covered_append.mpr (.inl (first.covers part member position byte)),
        fun part member position byte =>
          covered_append.mpr (.inr (second.covers part member position byte))⟩
  plain := forall_mem_append.mpr ⟨first.plain, second.plain⟩
  within := forall_mem_append.mpr
    ⟨fun item member position covers => (first.within item member position covers).imp_left
        fun ⟨part, inside, byte⟩ => ⟨part, mem_append_left _ inside, byte⟩,
      fun item member position covers => (second.within item member position covers).imp_left
        fun ⟨part, inside, byte⟩ => ⟨part, mem_append_right _ inside, byte⟩⟩
  hashed := by
    rw [filter_append]
    exact rel_append first.hashed second.hashed

theorem Hashes.reveals {part : IndexRange} {hash : List Byte} {item : RedactionItem}
    (hashes : Hashes data response body part hash item) (named : hash ≠ []) :
    Reveals data response body [part] [(part, hash)] [item] where
  covers := forall_mem_singleton.mpr fun position byte =>
    ⟨_, mem_cons_self, (hashes.covers position).mpr byte⟩
  plain := forall_mem_singleton.mpr ⟨hashes.redactions, hashes.start⟩
  within := forall_mem_singleton.mpr fun position covers =>
    .inl ⟨part, mem_cons_self, (hashes.covers position).mp covers⟩
  hashed := by
    rw [filter_cons_of_pos (by rw [hashes.hash]; exact decide_eq_true named)]
    exact .cons hashes .nil

end Reveals

namespace Located

variable {data : List Byte} {response : HTTPParsedResponse} {place : BodyPlace}
  (located : Located data response place)

include located

theorem not_partByte_of_empty {part : IndexRange} {position : Int}
    (empty : part.stop ≤ part.start) : ¬ PartByte response place.body part position := by
  rintro ⟨offset, inRaw, _⟩
  exact DecodedResponseBody.not_inRaw_of_empty located.tiled empty inRaw

theorem reveals_nil {part : IndexRange} (empty : part.stop ≤ part.start) :
    Reveals data response place.body [part] [] [] :=
  ⟨forall_mem_singleton.mpr fun _ byte => absurd byte (located.not_partByte_of_empty empty), nofun,
    nofun, .nil⟩

theorem addRange_reveals (framing : place.revealFraming = true) {part : IndexRange}
    {items : List RedactionItem} (bounded : Bounded place.body part)
    (added : place.addRange part.start part.stop = .ok items) :
    Reveals data response place.body [part] [] items := by
  have first := (bounded.start.bounds located.tiled).1
  unfold BodyPlace.addRange at added
  split at added
  · next skipped =>
    cases added
    exact located.reveals_nil (by omega)
  · next kept =>
    obtain ⟨rawStart, rawEnd, mapped, nonempty, inside, inRaw⟩ :=
      DecodedResponseBody.rawRange_nonempty located.tiled bounded.start bounded.stop (by omega)
    rw [mapped] at added
    cases added
    have spans := located.getReveal_spans nonempty inside []
    have bounds := spans.bounds
    unfold Span.stop at bounds
    refine ⟨forall_mem_singleton.mpr ?_, forall_mem_singleton.mpr ⟨rfl, bounds.1, ?_⟩,
      forall_mem_singleton.mpr fun position covers => ?_, .nil⟩
    · rintro position ⟨offset, raw, found⟩
      obtain ⟨low, high⟩ := (inRaw offset).mp raw
      exact ⟨_, mem_cons_self, spans.covers offset position low high found⟩
    · dsimp only
      omega
    · rcases spans.within position covers with ⟨offset, low, high, found⟩ | outside
      · exact .inl ⟨part, mem_cons_self, offset, (inRaw offset).mpr ⟨low, high⟩, found⟩
      · exact .inr outside

theorem getReveal_empty {offset : Nat} (inside : offset ≤ place.body.rawLength) (hash : List Byte) :
    (0 ≤ (getReveal offset offset place.bodyStartIdx place.chunks hash).span.start ∧
      (getReveal offset offset place.bodyStartIdx place.chunks hash).span.start ≤ data.length) ∧
    ¬ 0 < (getReveal offset offset place.bodyStartIdx place.chunks hash).span.length ∧
    (0 ≤ (getReveal offset offset place.bodyStartIdx place.chunks hash).span.length ↔
      ¬ BetweenChunks offset response.chunks) := by
  rw [located.rawLength, ← located.placed.length] at inside
  have begins := located.start
  unfold getReveal
  dsimp only
  by_cases none : response.chunks = []
  · have stop : (offset : Int) ≤ data.length - response.bodyStartIndex := by
      rcases Nat.eq_zero_or_pos offset with zero | some
      · omega
      have last := (located.convertPlace (by omega : offset - 1 < response.bodyPlaces.length)).2
      have bounds := located.place_bounds (mem_of_getElem? last)
      unfold convertResponseEndPosToAbsolute at bounds
      rw [located.chunks, if_pos none, located.bodyStart] at bounds
      omega
    unfold convertResponseStartPosToAbsolute convertResponseEndPosToAbsolute
    rw [located.chunks, if_pos none, if_pos none, located.bodyStart, none]
    refine ⟨⟨by omega, by omega⟩, by omega, ?_⟩
    exact ⟨fun _ => id, fun _ => by omega⟩
  · have total : response.bodyPlaces = response.chunks.flatMap Span.places := by
      unfold HTTPParsedResponse.bodyPlaces
      rw [if_neg none]
    have converted := @convert_empty response.chunks 0 offset located.positive
      located.placed.gapped none (by omega) (by rw [← total]; omega)
    rw [Int.zero_add] at converted
    have starts : 0 ≤ convertResponseStartPosToAbsolute offset place.bodyStartIdx place.chunks ∧
        convertResponseStartPosToAbsolute offset place.bodyStartIdx place.chunks ≤ data.length := by
      rcases Nat.lt_or_eq_of_le inside with before | atEnd
      · have bounds := located.place_bounds (mem_of_getElem? (located.convertPlace before).1)
        omega
      · rcases converted with ⟨_, equal⟩ | ⟨between, _⟩
        · have some : 0 < offset := by
            rcases exists_cons_of_ne_nil none with ⟨chunk, rest, same⟩
            have first := located.positive chunk (by rw [same]; exact mem_cons_self)
            rw [atEnd, total, same, flatMap_cons, length_append, Span.places_length]
            omega
          have last := (located.convertPlace (by omega : offset - 1 < response.bodyPlaces.length)).2
          rw [Nat.sub_add_cancel some] at last
          have bounds := located.place_bounds (mem_of_getElem? last)
          unfold convertResponseStartPosToAbsolute
          unfold convertResponseEndPosToAbsolute at bounds
          rw [located.chunks, if_neg none] at bounds ⊢
          omega
        · have early := betweenChunks_lt located.positive between
          rw [← total] at early
          omega
    refine ⟨starts, ?_⟩
    unfold convertResponseStartPosToAbsolute convertResponseEndPosToAbsolute
    rw [located.chunks, if_neg none, if_neg none]
    rcases converted with ⟨outside, equal⟩ | ⟨between, smaller⟩
    · exact ⟨by omega, fun _ => outside, fun _ => by omega⟩
    · refine ⟨by omega, fun impossible => ?_, fun impossible => absurd between impossible⟩
      omega

theorem addGroup_hashes {part : IndexRange} {hash : List Byte} {item : RedactionItem}
    (bounded : Bounded place.body part) (added : place.addGroup part hash = .ok item) :
    Hashes data response place.body part hash item := by
  unfold BodyPlace.addGroup at added
  rw [bind_eq_ok_iff] at added
  obtain ⟨⟨rawStart, rawEnd⟩, mapped, added⟩ := added
  simp only [eq_ok_iff] at added
  obtain ⟨_, unsplit, rfl⟩ := added
  have unsplit := not_not.mp unsplit
  by_cases nonempty : part.start < part.stop
  · obtain ⟨first, last, computed, ordered, inside, inRaw⟩ :=
      DecodedResponseBody.rawRange_nonempty located.tiled bounded.start bounded.stop nonempty
    rw [computed] at mapped
    cases mapped
    have spans := located.getReveal_spans ordered inside hash
    have bounds := spans.bounds
    refine ⟨rfl, unsplit, ⟨bounds.1, ?_⟩, fun _ => bounds.2, fun position => ⟨fun covers => ?_, ?_⟩,
      fun same => by omega⟩
    · unfold Span.stop at bounds
      dsimp only
      omega
    · have member := located.within_of_unsplit spans unsplit covers
      rcases spans.within position covers with ⟨offset, low, high, found⟩ | outside
      · exact ⟨offset, (inRaw offset).mpr ⟨low, high⟩, found⟩
      · exact absurd member outside.2.2.2
    · rintro ⟨offset, raw, found⟩
      obtain ⟨low, high⟩ := (inRaw offset).mp raw
      exact spans.covers offset position low high found
  · have ordered := bounded.ordered
    have same : part.stop = part.start := by omega
    rw [same] at mapped
    obtain ⟨rfl, inside, offset⟩ :=
      DecodedResponseBody.rawRange_empty located.tiled bounded.start mapped
    obtain ⟨starts, short, length⟩ := located.getReveal_empty inside hash
    refine ⟨rfl, unsplit, starts, fun impossible => by omega,
      fun position => ⟨fun covers => ?_, fun byte => ?_⟩, fun _ => ⟨short, ?_⟩⟩
    · exfalso
      unfold Span.Covers Span.stop at covers
      dsimp only at covers
      omega
    · exact absurd byte (located.not_partByte_of_empty (by omega))
    · rw [← offset]
      exact length

end Located

/-! ### Matches -/

/-- The parts of a match: the hashed group and what is before and behind it. -/
def Match.parts (found : Match) : List IndexRange :=
  match found.group with
  | none => [found.full]
  | some (group, _) =>
    [{ start := found.full.start, stop := group.start }, group,
      { start := group.stop, stop := found.full.stop }]

/-- The bytes of the response that a match was made of. -/
def MatchByte (response : HTTPParsedResponse) (body : DecodedResponseBody) (found : Match)
    (position : Int) : Prop :=
  ∃ part ∈ found.parts, PartByte response body part position

namespace Located

variable {data : List Byte} {response : HTTPParsedResponse} {place : BodyPlace}
  (located : Located data response place) (framing : place.revealFraming = true)

include located framing

theorem addRest_reveals {part : IndexRange} {items : List RedactionItem}
    (bounded : Bounded place.body part) (added : place.addRest part.start part.stop = .ok items) :
    Reveals data response place.body [part] [] items := by
  unfold BodyPlace.addRest at added
  split at added
  · exact located.addRange_reveals framing bounded added
  cases added
  exact located.reveals_nil (by omega)

theorem addMatch_reveals {found : Match} {items : List RedactionItem}
    (bounded : ∀ part ∈ found.parts, Bounded place.body part)
    (nonempty : ∀ group ∈ found.group.toList, group.2 ≠ [])
    (added : place.addMatch found = .ok items) :
    Reveals data response place.body found.parts found.group.toList items := by
  obtain ⟨full, group⟩ := found
  cases group with
  | none => exact located.addRange_reveals framing (bounded full mem_cons_self) added
  | some named =>
    obtain ⟨group, hash⟩ := named
    unfold BodyPlace.addMatch at added
    simp only [eq_ok_iff] at added
    obtain ⟨before, addedBefore, hashed, addedGroup, after, addedAfter, rfl⟩ := added
    have showsBefore := located.addRest_reveals framing
      (bounded { start := full.start, stop := group.start } mem_cons_self) addedBefore
    have hashes := located.addGroup_hashes (bounded group (mem_cons_of_mem _ mem_cons_self))
      addedGroup
    have showsAfter := located.addRest_reveals framing
      (bounded { start := group.stop, stop := full.stop }
        (mem_cons_of_mem _ (mem_cons_of_mem _ mem_cons_self))) addedAfter
    exact (showsBefore.append (hashes.reveals (nonempty (group, hash) mem_cons_self))).append
      showsAfter

end Located

end ReclaimTee.Providers
