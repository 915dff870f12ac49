/-
The reveals of a response: the status line, some header lines, what the rules
select, and framing. In a strict response in chunks, what is neither chunk data
nor safe framing is cut out of them.
-/

import ReclaimTee.Providers.ResponseRules

namespace ReclaimTee.Providers

open HTTPResponseParser List

/-! ### What a mode shows -/

/-- The headers that are shown to the verifier. -/
def shownHeaders (ctx : ProviderCtx) : List String :=
  ["date", "content-type", "transfer-encoding"] ++ if ctx.tls12CBC then ["content-length"] else []

/-- Bytes that a mode shows whatever the rules select. -/
inductive Allowed (ctx : ProviderCtx) (data : List Byte) (response : HTTPParsedResponse)
    (position : Int) : Prop where
  | status (start : 0 ≤ position) (stop : position < response.statusLineEndIndex)
  | separator (start : response.headerEndIdx ≤ position) (stop : position < response.headerEndIdx + 4)
  | header (name : String) (shown : name ∈ shownHeaders ctx) (range : Span)
      (line : HeaderLine ctx.tls12CBC data (ascii name) range) (covers : range.Covers position)
  | statusEnd (strict : ctx.tls12CBC = true) (start : response.statusLineEndIndex ≤ position)
      (stop : position < response.statusLineEndIndex + 2)
  | headerSyntax (strict : ctx.tls12CBC = true) (range : Span) (isSyntax : HeaderSyntax data range)
      (covers : range.Covers position)
  | framing (chunked : response.chunked = true) (start : response.bodyStartIndex ≤ position)
      (outside : position ∉ response.bodyPlaces)
      (safe : ctx.tls12CBC = true → ∃ span, SafeFraming true data span ∧ span.Covers position)

/-- A strict chunked response with bytes that are neither chunk data nor safe framing. -/
def HasMetadata (ctx : ProviderCtx) (data : List Byte) (response : HTTPParsedResponse) : Prop :=
  ctx.tls12CBC = true ∧ response.chunked = true ∧
    chunkMetadataRedactions response.bodyStartIndex data.length response.chunks
      response.chunkFraming ≠ []

/-- The bytes of a body that are neither chunk data nor safe framing. -/
abbrev metadata (data : List Byte) (response : HTTPParsedResponse) : List Span :=
  chunkMetadataRedactions response.bodyStartIndex data.length response.chunks response.chunkFraming

/-! ### Framing -/

theorem byStart_perm (spans : List Span) : (byStart spans).Perm spans :=
  perm_insertionSort _ _

theorem byStart_ordered (spans : List Span) : Ordered (byStart spans) := by
  exact pairwise_insertionSort _ spans

theorem covered_byStart {spans : List Span} {position : Int} :
    Covered (byStart spans) position ↔ Covered spans position :=
  covered_perm (byStart_perm spans)

theorem framingFrom_eq_gaps {total start : Int} {chunks : List Span}
    (positive : ∀ chunk ∈ chunks, 0 < chunk.length) (sequential : Sequential chunks)
    (before : ∀ chunk ∈ chunks, start ≤ chunk.start) :
    framingFrom total start chunks = gaps total start chunks := by
  induction chunks generalizing start with
  | nil => rfl
  | cons chunk rest ih =>
    obtain ⟨first, others⟩ := pairwise_cons.mp sequential
    have begins := before chunk mem_cons_self
    have length := positive chunk mem_cons_self
    have stop : max start chunk.stop = chunk.stop := by
      unfold Span.stop
      omega
    rw [framingFrom, gaps, stop,
      ih (fun other member => positive other (mem_cons_of_mem _ member)) others first]

theorem covered_metadataFrom {bodyStart total cursor position : Int} {items : List Span}
    (ordered : Ordered items) (starts : bodyStart ≤ cursor) :
    Covered (metadataFrom bodyStart total cursor items) position ↔
      cursor ≤ position ∧ position < total ∧ ¬ Covered items position := by
  induction items generalizing cursor with
  | nil =>
    rw [metadataFrom, covered_until]
    simp only [not_covered_nil, not_false_eq_true, and_true]
  | cons item rest ih =>
    have others := (pairwise_cons.mp ordered).2
    rw [metadataFrom]
    split
    · next skipped =>
      rw [ih others starts]
      exact complement_skip (by omega)
    · next kept =>
      rw [covered_append, covered_until, ih others (by omega),
        ← complement_cons ordered (by omega) rfl]
      -- The body's start is behind the cursor, and nothing is past the end.
      exact or_congr (by omega) (and_congr_left fun inside => by omega)

theorem metadataFrom_positive {bodyStart total cursor : Int} {items : List Span} :
    ∀ span ∈ metadataFrom bodyStart total cursor items, 0 < span.length := by
  induction items generalizing cursor with
  | nil => exact fun span member => (mem_until member).2.2
  | cons item rest ih =>
    intro span member
    rw [metadataFrom] at member
    split at member
    · exact ih span member
    rcases mem_append.mp member with gap | later
    · exact (mem_until gap).2.2
    · exact ih span later

/-! ### Cutting ranges out of reveals -/

variable {reveals : List ResponseRedactionRange} {exclusions : List Span}

theorem covered_subtractRevealRanges {position : Int} :
    Covered ((subtractRevealRanges reveals exclusions).map ResponseRedactionRange.span) position ↔
      Covered (reveals.map ResponseRedactionRange.span) position ∧ ¬ Covered exclusions position := by
  unfold subtractRevealRanges
  by_cases none : exclusions = []
  · rw [none]
    simp
  · rw [if_neg none]
    induction reveals with
    | nil => simp
    | cons reveal rest ih =>
      rw [flatMap_cons, map_append, covered_append, map_cons, covered_cons, map_map]
      change Covered (List.map id _) position ∨ _ ↔ _
      rw [map_id, covered_cutOut (byStart_ordered _), covered_byStart]
      unfold Span.Covers
      tauto

theorem mem_subtractRevealRanges
    {range : ResponseRedactionRange} (member : range ∈ subtractRevealRanges reveals exclusions) :
    range ∈ reveals ∨ 0 < range.span.length ∧ ∃ reveal ∈ reveals,
      ∀ position, range.span.Covers position → reveal.span.Covers position := by
  unfold subtractRevealRanges at member
  split at member
  · exact .inl member
  obtain ⟨reveal, original, inCut⟩ := mem_flatMap.mp member
  obtain ⟨span, cut, rfl⟩ := mem_map.mp inCut
  refine .inr ⟨cutOut_positive span cut, reveal, original, ?_⟩
  intro position covers
  have inside := (covered_cutOut (byStart_ordered _)).mp ⟨span, cut, covers⟩
  exact ⟨inside.1, inside.2.1⟩

theorem filter_subtractRevealRanges (reveals : List ResponseRedactionRange)
    (exclusions : List Span) :
    ((subtractRevealRanges reveals exclusions).filter fun reveal => reveal.hash ≠ []) =
      subtractRevealRanges (reveals.filter fun reveal => reveal.hash ≠ []) exclusions := by
  unfold subtractRevealRanges
  split
  · rfl
  induction reveals with
  | nil => rfl
  | cons reveal rest ih =>
    rw [flatMap_cons, filter_append, ih]
    by_cases hashed : reveal.hash = []
    · simp [hashed]
    · simp [hashed]

/-- Reveals that the exclusions do not touch remain, except those without bytes. -/
theorem subtractRevealRanges_apart
    (some : exclusions ≠ []) (positive : ∀ span ∈ exclusions, 0 < span.length)
    (apart : ∀ reveal ∈ reveals, ∀ position, reveal.span.Covers position →
      ¬ Covered exclusions position) :
    subtractRevealRanges reveals exclusions =
      reveals.filter fun reveal => 0 < reveal.span.length := by
  unfold subtractRevealRanges
  rw [if_neg some]
  induction reveals with
  | nil => rfl
  | cons reveal rest ih =>
    rw [flatMap_cons, filter_cons, ih fun other member => apart other (mem_cons_of_mem _ member)]
    by_cases nonempty : 0 < reveal.span.length
    · have begins : reveal.span.start < reveal.span.stop := by
        unfold Span.stop
        omega
      have kept := @cutOut_of_missed (byStart exclusions) _ _ begins (by
        intro span member
        have inside := (byStart_perm exclusions).mem_iff.mp member
        have length := positive span inside
        by_contra touched
        -- The larger of the two starts would be in both.
        have low : reveal.span.Covers (max reveal.span.start span.start) :=
          ⟨by omega, by omega⟩
        refine apart reveal mem_cons_self _ low ⟨span, inside, by omega, ?_⟩
        unfold Span.stop at touched ⊢
        omega)
      have same : reveal.span.stop - reveal.span.start = reveal.span.length := by
        unfold Span.stop
        omega
      rw [kept, same, if_pos (by simpa using nonempty)]
      rfl
    · rw [cutOut_nil (by unfold Span.stop; omega), if_neg (by simpa using nonempty)]
      rfl

/-! ### What the reveals show -/

section

variable {ctx : ProviderCtx} {data : List Byte} {response : HTTPParsedResponse}
  {body : DecodedResponseBody} {found : List Match}

/-- What a mode or the rules show. -/
def Visible (ctx : ProviderCtx) (data : List Byte) (response : HTTPParsedResponse)
    (body : DecodedResponseBody) (found : List Match) (position : Int) : Prop :=
  Allowed ctx data response position ∨ ∃ one ∈ found, MatchByte response body one position

/-- A reveal that starts in the response and shows what may be seen, or framing. -/
structure Shown (ctx : ProviderCtx) (data : List Byte) (response : HTTPParsedResponse)
    (body : DecodedResponseBody) (found : List Match) (span : Span) : Prop where
  start : 0 ≤ span.start ∧ span.start ≤ data.length
  within : ∀ position, span.Covers position → position < data.length ∧
    (Visible ctx data response body found position ∨ BodyFraming data response position)

theorem chunked_of_chunks {strictFraming : Bool} (parsed : Parsed strictFraming data response)
    (present : response.chunks ≠ []) : response.chunked = true := by
  cases chunked : response.chunked with
  | false => exact absurd (parsed.unchunked chunked).1 present
  | true => rfl

theorem mem_bodyPlaces_chunked (placed : Placed data response) (chunked : response.chunked = true)
    {position : Int} : position ∈ response.bodyPlaces ↔ Covered response.chunks position := by
  unfold HTTPParsedResponse.bodyPlaces
  split
  · next none =>
    rw [placed.bare chunked none, none, Span.mem_places]
    unfold Span.Covers Span.stop
    simp
  · exact mem_flatMap_places

theorem covered_chunkMetadataRedactions {bodyStart total position : Int}
    {chunks framing : List Span} :
    Covered (chunkMetadataRedactions bodyStart total chunks framing) position ↔
      bodyStart ≤ position ∧ position < total ∧ ¬ Covered chunks position ∧
        ¬ Covered framing position := by
  unfold chunkMetadataRedactions
  rw [covered_metadataFrom (byStart_ordered _) (Int.le_refl _), covered_byStart, covered_append,
    not_or]

theorem allowed_of_framing (parsed : Parsed ctx.tls12CBC data response)
    (placed : Placed data response) {position : Int} (framing : BodyFraming data response position)
    (kept : ctx.tls12CBC = true → ¬ Covered (metadata data response) position) :
    Allowed ctx data response position := by
  obtain ⟨present, start, stop, outside⟩ := framing
  have chunked := chunked_of_chunks parsed present
  refine .framing chunked start outside fun strict => ?_
  have safe := kept strict
  rw [covered_chunkMetadataRedactions] at safe
  rw [mem_bodyPlaces_chunked placed chunked] at outside
  have framed : Covered response.chunkFraming position := by
    by_contra missing
    exact safe ⟨start, stop, outside, missing⟩
  obtain ⟨span, member, covers⟩ := framed
  have isSafe := (parsed.chunkFraming span member).1
  rw [strict] at isSafe
  exact ⟨span, isSafe, covers⟩

theorem shown_of_allowed {span : Span}
    (bounds : 0 ≤ span.start ∧ 0 ≤ span.length ∧ span.stop ≤ data.length)
    (allowed : ∀ position, span.Covers position → Allowed ctx data response position) :
    Shown ctx data response body found span := by
  refine ⟨⟨bounds.1, ?_⟩, fun position covers => ⟨?_, .inl (.inl (allowed position covers))⟩⟩
  · unfold Span.stop at bounds
    omega
  · have below := covers.2
    omega

theorem headerLine_shown (parsed : Parsed ctx.tls12CBC data response) {name : String}
    (shown : name ∈ shownHeaders ctx) :
    ∀ span ∈ (match response.headerLowerToRanges.lookup (ascii name) with
      | some range => if 0 < range.length then [range] else []
      | none => []), Shown ctx data response body found span := by
  intro span member
  have headerEnd := parsed.headerEnd
  split at member
  · next range found_ =>
    obtain ⟨before, behind, split_, _⟩ := lookup_eq_some_iff.mp found_
    have entry := parsed.lines (ascii name, range) (by
      rw [split_]
      exact mem_append_right _ mem_cons_self)
    split at member
    · rw [mem_singleton.mp member]
      have limits := entry.1.bound
      exact shown_of_allowed (by dsimp only at limits; omega) fun position covers =>
        .header name shown range entry.1 covers
    · cases member
  · cases member

theorem headerReveals_shown (parsed : Parsed ctx.tls12CBC data response)
    (separated : 4 ≤ response.bodyStartIndex) :
    ∀ span ∈ headerReveals ctx response, Shown ctx data response body found span := by
  have status := parsed.status
  have bound := parsed.bodyStart
  have headerEnd := parsed.headerEnd
  refine forall_mem_append.mpr ⟨forall_mem_append.mpr ⟨forall_mem_append.mpr
    ⟨forall_mem_append.mpr ⟨forall_mem_append.mpr ⟨?_, ?_⟩, ?_⟩, ?_⟩, ?_⟩, ?_⟩
  · refine forall_mem_singleton.mpr (shown_of_allowed (by dsimp only [Span.stop]; omega) ?_)
    rintro position ⟨low, high⟩
    unfold Span.stop at high
    dsimp only at low high
    exact .status low (by omega)
  · split
    · next strict =>
      refine forall_mem_cons.mpr ⟨shown_of_allowed (by dsimp only [Span.stop]; omega)
        fun position covers => .statusEnd strict covers.1 covers.2, fun span member => ?_⟩
      have isSyntax := (parsed.framing span member).1
      exact shown_of_allowed isSyntax.bound fun position covers =>
        .headerSyntax strict span isSyntax covers
    · exact forall_mem_nil _
  · exact forall_mem_singleton.mpr (shown_of_allowed (by dsimp only [Span.stop]; omega)
      fun position covers => .separator covers.1 covers.2)
  · exact headerLine_shown parsed (by simp [shownHeaders])
  · exact headerLine_shown parsed (by simp [shownHeaders])
  · split
    · refine forall_mem_append.mpr ⟨headerLine_shown parsed (by simp [shownHeaders]), ?_⟩
      split
      · next strict => exact headerLine_shown parsed (by simp [shownHeaders, strict])
      · exact forall_mem_nil _
    · exact forall_mem_nil _

theorem ruleReveals_shown {place : BodyPlace} {items : List RedactionItem}
    (located : Located data response place) (rules : RuleReveals data response body found items) :
    ∀ item ∈ items, Shown ctx data response body found item.reveal.span := by
  intro item member
  refine ⟨(rules.plain item member).2, fun position covers => ?_⟩
  rcases rules.within item member position covers with
    ⟨part, inFound, offset, inRaw, stored⟩ | framing
  · obtain ⟨one, selected, isPart⟩ := mem_flatMap.mp inFound
    have bounds := located.place_bounds (mem_of_getElem? stored)
    exact ⟨bounds.2, .inl (.inr ⟨one, selected, part, isPart, offset, inRaw, stored⟩)⟩
  · exact ⟨framing.2.2.1, .inr framing⟩

end

/-! ### All reveals -/

theorem map_span_unhashed (spans : List Span) :
    (spans.map unhashed).map ResponseRedactionRange.span = spans := by
  rw [map_map]
  exact map_id spans

theorem filter_unhashed (spans : List Span) :
    ((spans.map unhashed).filter fun reveal => reveal.hash ≠ []) = [] := by
  rw [filter_eq_nil_iff]
  intro reveal member
  obtain ⟨span, _, rfl⟩ := mem_map.mp member
  simp [unhashed]

def hashedReveals (items : List RedactionItem) : List ResponseRedactionRange :=
  (items.filter fun item => item.reveal.hash ≠ []).map RedactionItem.reveal

def baseReveals (ctx : ProviderCtx) (response : HTTPParsedResponse) (items : List RedactionItem) :
    List ResponseRedactionRange :=
  (headerReveals ctx response).map unhashed ++ items.map RedactionItem.reveal

theorem filter_baseReveals (ctx : ProviderCtx) (response : HTTPParsedResponse)
    (items : List RedactionItem) :
    ((baseReveals ctx response items).filter fun reveal => reveal.hash ≠ []) =
      hashedReveals items := by
  unfold baseReveals hashedReveals
  rw [filter_append, filter_unhashed, filter_map]
  rfl

theorem subtractRevealRanges_append (first second : List ResponseRedactionRange)
    (exclusions : List Span) :
    subtractRevealRanges (first ++ second) exclusions =
      subtractRevealRanges first exclusions ++ subtractRevealRanges second exclusions := by
  unfold subtractRevealRanges
  split
  · rfl
  · exact flatMap_append

theorem headerReveals_split (ctx : ProviderCtx) (response : HTTPParsedResponse) :
    ∃ middle rest, headerReveals ctx response =
      [{ start := 0, length := response.statusLineEndIndex }] ++ middle ++
        [{ start := response.headerEndIdx, length := 4 }] ++ rest := by
  unfold headerReveals
  rw [append_assoc, append_assoc]
  exact ⟨_, _, rfl⟩

structure RevealSet (ctx : ProviderCtx) (data : List Byte) (response : HTTPParsedResponse)
    (body : DecodedResponseBody) (found : List Match) (items : List RedactionItem)
    (reveals : List ResponseRedactionRange) : Prop where
  two : ¬ reveals.length ≤ 1
  starts : ∀ reveal ∈ reveals, reveal.span.start ≤ data.length
  covers : ∀ one ∈ found, ∀ position, MatchByte response body one position →
    Covered (reveals.map ResponseRedactionRange.span) position
  within : ∀ position, Covered (reveals.map ResponseRedactionRange.span) position →
    Visible ctx data response body found position
  whole : ¬ HasMetadata ctx data response →
    (reveals.filter fun reveal => reveal.hash ≠ []) = hashedReveals items
  cut : HasMetadata ctx data response → (reveals.filter fun reveal => reveal.hash ≠ []) =
    (hashedReveals items).filter fun reveal => 0 < reveal.span.length

section

variable {ctx : ProviderCtx} {data : List Byte} {response : HTTPParsedResponse}
  {place : BodyPlace} {found : List Match} {items : List RedactionItem}

theorem baseReveals_shown (parsed : Parsed ctx.tls12CBC data response)
    (located : Located data response place) (separated : 4 ≤ response.bodyStartIndex)
    (rules : RuleReveals data response place.body found items) :
    ∀ reveal ∈ baseReveals ctx response items,
      Shown ctx data response place.body found reveal.span := by
  refine forall_mem_append.mpr ⟨?_, ?_⟩
  · intro reveal member
    obtain ⟨span, inHeader, rfl⟩ := mem_map.mp member
    exact headerReveals_shown parsed separated span inHeader
  · intro reveal member
    obtain ⟨item, original, rfl⟩ := mem_map.mp member
    exact ruleReveals_shown located rules item original

theorem baseReveals_covers (rules : RuleReveals data response place.body found items) :
    ∀ one ∈ found, ∀ position, MatchByte response place.body one position →
      Covered ((baseReveals ctx response items).map ResponseRedactionRange.span) position := by
  intro one member position byte
  unfold baseReveals
  obtain ⟨part, isPart, byte⟩ := byte
  have covered := rules.covers part (mem_flatMap.mpr ⟨one, member, isPart⟩) position byte
  rw [map_append, covered_append]
  refine .inr ?_
  rw [map_map]
  exact covered

theorem baseReveals_two : ¬ (baseReveals ctx response items).length ≤ 1 := by
  obtain ⟨middle, rest, same⟩ := headerReveals_split ctx response
  unfold baseReveals
  rw [same]
  simp only [length_append, length_map, length_singleton]
  omega

theorem not_metadata_of_partByte (placed : Placed data response)
    (chunked : response.chunked = true) {body : DecodedResponseBody} {part : IndexRange}
    {position : Int} (byte : PartByte response body part position) :
    ¬ Covered (metadata data response) position := by
  obtain ⟨offset, _, stored⟩ := byte
  have inChunks := (mem_bodyPlaces_chunked placed chunked).mp (mem_of_getElem? stored)
  rw [covered_chunkMetadataRedactions]
  rintro ⟨_, _, outside, _⟩
  exact outside inChunks

theorem chunkFraming_shown (parsed : Parsed ctx.tls12CBC data response)
    (located : Located data response place) (chunked : response.chunked = true)
    (strict : ctx.tls12CBC = true) :
    ∀ span ∈ response.chunkFraming, Shown ctx data response place.body found span := by
  intro span member
  obtain ⟨safe, start, positive, stop⟩ := parsed.chunkFraming span member
  have begins := located.start
  rw [strict] at safe
  refine shown_of_allowed (by omega) fun position covers => ?_
  have low := covers.1
  refine .framing chunked (by omega) ?_ fun _ => ⟨span, safe, covers⟩
  rw [mem_bodyPlaces_chunked located.placed chunked]
  rintro ⟨chunk, inChunks, starts, stops⟩
  have high := covers.2
  rcases located.placed.apart span member chunk inChunks with before | behind
  · omega
  · omega

variable (parsed : Parsed ctx.tls12CBC data response) (located : Located data response place)
  (separated : 4 ≤ response.bodyStartIndex)
  (rules : RuleReveals data response place.body found items)

include parsed located separated rules

/-- Strict responses in chunks: safe framing is added and the rest of it is cut out. -/
theorem strict_revealSet (strict : ctx.tls12CBC = true) (chunked : response.chunked = true) :
    RevealSet ctx data response place.body found items
      (subtractRevealRanges (baseReveals ctx response items ++ response.chunkFraming.map unhashed)
        (metadata data response)) := by
  have positive : ∀ span ∈ metadata data response, 0 < span.length := metadataFrom_positive
  have shown : ∀ reveal ∈ baseReveals ctx response items ++ response.chunkFraming.map unhashed,
      Shown ctx data response place.body found reveal.span := by
    refine forall_mem_append.mpr ⟨baseReveals_shown parsed located separated rules, ?_⟩
    intro reveal member
    obtain ⟨span, framing, rfl⟩ := mem_map.mp member
    exact chunkFraming_shown parsed located chunked strict span framing
  have hashes : ((baseReveals ctx response items ++ response.chunkFraming.map unhashed).filter
      fun reveal => reveal.hash ≠ []) = hashedReveals items := by
    rw [filter_append, filter_baseReveals, filter_unhashed, append_nil]
  refine ⟨?_, ?_, ?_, ?_, ?_, ?_⟩
  · by_cases none : metadata data response = []
    · unfold subtractRevealRanges
      rw [if_pos none, length_append]
      have two := @baseReveals_two ctx response items
      omega
    · -- The status line and the separator are before the body, so both remain.
      have kept : ∀ span : Span, 0 < span.length → span.stop ≤ response.bodyStartIndex →
          (subtractRevealRanges [unhashed span] (metadata data response)).length = 1 := by
        intro span nonempty stop
        rw [subtractRevealRanges_apart none positive]
        · simp [unhashed, nonempty]
        intro reveal member position covers
        rw [mem_singleton.mp member] at covers
        rw [covered_chunkMetadataRedactions]
        have below : position < span.stop := covers.2
        omega
      obtain ⟨middle, rest, same⟩ := headerReveals_split ctx response
      have status := parsed.status
      have headerEnd := parsed.headerEnd
      unfold baseReveals
      rw [same]
      simp only [map_append, map_cons, map_nil, subtractRevealRanges_append, length_append]
      rw [kept _ status.1 (by unfold Span.stop; dsimp only; omega),
        kept _ (Int.natCast_pos.mpr (Nat.succ_pos 3)) (by unfold Span.stop; dsimp only; omega)]
      omega
  · intro reveal member
    rcases mem_subtractRevealRanges member with original | ⟨nonempty, origin, isReveal, inside⟩
    · exact (shown reveal original).start.2
    · have covers : reveal.span.Covers reveal.span.start :=
        ⟨Int.le_refl _, by unfold Span.stop; omega⟩
      have below := ((shown origin isReveal).within _ (inside _ covers)).1
      omega
  · intro one member position byte
    rw [covered_subtractRevealRanges, map_append, covered_append]
    refine ⟨.inl (baseReveals_covers rules one member position byte), ?_⟩
    obtain ⟨part, _, inPart⟩ := byte
    exact not_metadata_of_partByte located.placed chunked inPart
  · intro position covered
    rw [covered_subtractRevealRanges] at covered
    obtain ⟨⟨span, isSpan, covers⟩, kept⟩ := covered
    obtain ⟨reveal, member, rfl⟩ := mem_map.mp isSpan
    rcases ((shown reveal member).within position covers).2 with visible | framing
    · exact visible
    · exact .inl (allowed_of_framing parsed located.placed framing fun _ => kept)
  · intro clean
    have none := not_not.mp fun some => clean ⟨strict, chunked, some⟩
    rw [filter_subtractRevealRanges, hashes]
    unfold subtractRevealRanges
    rw [if_pos none]
  · intro metadata
    rw [filter_subtractRevealRanges, hashes, subtractRevealRanges_apart metadata.2.2 positive]
    intro reveal member position covers
    obtain ⟨item, isHashed, rfl⟩ := mem_map.mp member
    obtain ⟨group, _, hashed⟩ := forall₂_mem_left rules.hashed isHashed
    exact not_metadata_of_partByte located.placed chunked ((hashed.covers position).mp covers)

/-- Other responses: all that is no chunk data is shown. -/
theorem loose_revealSet {framing : List Span} (loose : response.chunks = [] ∨ ctx.tls12CBC = false)
    (outside : ∀ span ∈ framing, span.start ≤ data.length ∧
      ∀ position, span.Covers position → BodyFraming data response position)
    (clean : ¬ HasMetadata ctx data response) :
    RevealSet ctx data response place.body found items
      (baseReveals ctx response items ++ framing.map unhashed) := by
  have shown := baseReveals_shown parsed located separated rules
  have allowed : ∀ position, BodyFraming data response position →
      Allowed ctx data response position := by
    intro position isFraming
    refine allowed_of_framing parsed located.placed isFraming fun strict => ?_
    rcases loose with none | relaxed
    · exact absurd none isFraming.1
    · rw [relaxed] at strict
      cases strict
  refine ⟨?_, ?_, ?_, ?_, ?_, fun metadata => absurd metadata clean⟩
  · have two := @baseReveals_two ctx response items
    rw [length_append]
    omega
  · refine forall_mem_append.mpr ⟨fun reveal member => (shown reveal member).start.2, ?_⟩
    intro reveal member
    obtain ⟨span, isFraming, rfl⟩ := mem_map.mp member
    exact (outside span isFraming).1
  · intro one member position byte
    rw [map_append, covered_append]
    exact .inl (baseReveals_covers rules one member position byte)
  · intro position covered
    rw [map_append, covered_append, map_span_unhashed] at covered
    rcases covered with ⟨span, isSpan, covers⟩ | ⟨span, isFraming, covers⟩
    · obtain ⟨reveal, member, rfl⟩ := mem_map.mp isSpan
      rcases ((shown reveal member).within position covers).2 with visible | framed
      · exact visible
      · exact .inl (allowed position framed)
    · exact .inl (allowed position ((outside span isFraming).2 position covers))
  · intro _
    rw [filter_append, filter_baseReveals, filter_unhashed, append_nil]

theorem withFraming_revealSet (current : shouldRevealChunkFraming ctx = true) :
    RevealSet ctx data response place.body found items
      (withFraming ctx response data.length (baseReveals ctx response items)) := by
  unfold withFraming
  by_cases strict : ctx.tls12CBC = true ∧ response.chunked = true
  · rw [if_pos ⟨current, strict⟩]
    exact strict_revealSet parsed located separated rules strict.1 strict.2
  · rw [if_neg fun all => strict all.2]
    have clean : ¬ HasMetadata ctx data response := fun metadata =>
      strict ⟨metadata.1, metadata.2.1⟩
    by_cases none : response.chunks = []
    · rw [if_neg fun both => both.2 none]
      have revealed := loose_revealSet parsed located separated rules (.inl none)
        (fun span member => nomatch (not_mem_nil : ¬ span ∈ ([] : List Span)) member) clean
      rw [map_nil, append_nil] at revealed
      exact revealed
    · rw [if_pos ⟨current, none⟩]
      have relaxed : ctx.tls12CBC = false := by
        cases mode : ctx.tls12CBC with
        | false => rfl
        | true => exact absurd ⟨mode, chunked_of_chunks parsed none⟩ strict
      have headerEnd : response.headerEndIdx + 4 = response.bodyStartIndex := by
        have same := parsed.headerEnd
        omega
      have starts : ∀ chunk ∈ response.chunks, chunk.start ≤ data.length := by
        intro chunk member
        obtain ⟨positive, _, stop⟩ := located.placed.positive chunk member
        unfold Span.stop at stop
        omega
      have ordered : Ordered response.chunks := located.placed.gapped.imp_of_mem
        fun {one other} inOne _ behind => by
          have positive := located.positive one inOne
          unfold Span.stop at behind
          omega
      rw [headerEnd, framingFrom_eq_gaps located.positive located.placed.gapped.sequential
        fun chunk member => (located.placed.positive chunk member).2.1]
      refine loose_revealSet parsed located separated rules (.inr relaxed) ?_ clean
      intro gap member
      have bounds := gaps_bounded starts gap member
      refine ⟨by unfold Span.stop at bounds; omega, fun position covers => ?_⟩
      obtain ⟨low, high, free⟩ := (covered_gaps ordered starts).mp ⟨gap, member, covers⟩
      refine ⟨none, low, high, ?_⟩
      rw [mem_bodyPlaces_chunked located.placed (chunked_of_chunks parsed none)]
      exact free

end

end ReclaimTee.Providers
