/-
What the redactions of a response leave visible: the status line, some header
lines, framing and what the rules select. Only hashed groups without bytes differ:
between two chunks they become ranges of negative length, and cutting out chunk
metadata loses them.
-/

import ReclaimTee.Providers.ResponseRevealSet

namespace ReclaimTee.Providers

open HTTPResponseParser List ResponseRedactionRange

/-! ### What the redactions are for -/

structure RevealsExactly (ctx : ProviderCtx) (data : List Byte) (response : HTTPParsedResponse)
    (body : DecodedResponseBody) (found : List Match) (result : List ResponseRedactionRange) :
    Prop where
  bounded : ∀ range ∈ result, 0 ≤ range.span.start ∧ 0 ≤ range.span.length ∧
    range.span.stop ≤ data.length
  revealed : ∀ position : Int, 0 ≤ position → position < data.length →
    ¬ Covered (result.map span) position →
    Allowed ctx data response position ∨ ∃ one ∈ found, MatchByte response body one position
  selected : ∀ one ∈ found, ∀ position, MatchByte response body one position →
    ¬ Covered ((result.filter fun range => range.hash = []).map span) position
  hashed : ∃ ranges, (result.filter fun range => range.hash ≠ []).Perm ranges ∧
    List.Forall₂ (fun (range : ResponseRedactionRange) (group : IndexRange × List Byte) =>
      range.hash = group.2 ∧
        ∀ position, range.span.Covers position ↔ PartByte response body group.1 position)
      ranges (hashedGroups found)

/-- A hashed group with bytes, or one without bytes that is neither lost nor between two
chunks. -/
def GroupKept (ctx : ProviderCtx) (data : List Byte) (response : HTTPParsedResponse)
    (body : DecodedResponseBody) (part : IndexRange) : Prop :=
  part.start < part.stop ∨
    ¬ HasMetadata ctx data response ∧
      ¬ BetweenChunks (body.rawOffsetRight part.start.toNat) response.chunks

/-! ### The redactions -/

section

variable {ctx : ProviderCtx} {data : List Byte} {response : HTTPParsedResponse}
  {body : DecodedResponseBody} {found : List Match} {items : List RedactionItem}
  {reveals result other : List ResponseRedactionRange}

theorem RevealsExactly.perm (same : result.Perm other)
    (exact_ : RevealsExactly ctx data response body found result) :
    RevealsExactly ctx data response body found other where
  bounded range member := exact_.bounded range (same.mem_iff.mpr member)
  revealed position low high uncovered := by
    refine exact_.revealed position low high ?_
    rw [covered_perm (same.map _)]
    exact uncovered
  selected one member position byte := by
    rw [← covered_perm ((same.filter _).map _)]
    exact exact_.selected one member position byte
  hashed := by
    obtain ⟨ranges, perm, all⟩ := exact_.hashed
    exact ⟨ranges, (same.filter _).symm.trans perm, all⟩

/-- The complement of the reveals together with the hashed reveals. -/
def complement (data : List Byte) (reveals : List ResponseRedactionRange) :
    List ResponseRedactionRange :=
  (gaps data.length 0 (byStart (reveals.map span))).map unhashed ++
    reveals.filter fun reveal => reveal.hash ≠ []

theorem covered_complement_gaps
    (starts : ∀ reveal ∈ reveals, reveal.span.start ≤ data.length) {position : Int} :
    Covered (gaps data.length 0 (byStart (reveals.map span))) position ↔
      0 ≤ position ∧ position < data.length ∧
        ¬ Covered (reveals.map span) position := by
  rw [covered_gaps (byStart_ordered _), covered_byStart]
  intro span member
  obtain ⟨reveal, isReveal, rfl⟩ := mem_map.mp ((byStart_perm _).mem_iff.mp member)
  exact starts reveal isReveal

theorem filter_hashed_complement :
    ((complement data reveals).filter fun range => range.hash ≠ []) =
      reveals.filter fun reveal => reveal.hash ≠ [] := by
  unfold complement
  rw [filter_append, filter_unhashed]
  simp

theorem filter_plain_complement :
    ((complement data reveals).filter fun range => range.hash = []) =
      (gaps data.length 0 (byStart (reveals.map span))).map unhashed := by
  unfold complement
  rw [filter_append, filter_filter]
  have all : ((gaps data.length 0
      (byStart (reveals.map span))).map unhashed).filter
        (fun range => decide (range.hash = [])) = (gaps data.length 0
      (byStart (reveals.map span))).map unhashed := by
    rw [filter_eq_self]
    intro range member
    obtain ⟨span, _, rfl⟩ := mem_map.mp member
    simp [unhashed]
  have none : (reveals.filter fun range => decide (range.hash = []) && decide (range.hash ≠ [])) =
      [] := by
    rw [filter_eq_nil_iff]
    intro range _
    simp
  rw [all, none, append_nil]

theorem RevealSet.revealed (set : RevealSet ctx data response body found items reveals)
    {position : Int} (low : 0 ≤ position) (high : position < data.length)
    (uncovered : ¬ Covered ((complement data reveals).map span) position) :
    Visible ctx data response body found position := by
  refine set.within position ?_
  by_contra hidden_
  refine uncovered ?_
  unfold complement
  rw [map_append, covered_append, map_span_unhashed]
  exact .inl ((covered_complement_gaps set.starts).mpr ⟨low, high, hidden_⟩)

theorem RevealSet.selected (set : RevealSet ctx data response body found items reveals)
    {one : Match} (member : one ∈ found) {position : Int}
    (byte : MatchByte response body one position) :
    ¬ Covered (((complement data reveals).filter fun range => range.hash = []).map
      span) position := by
  rw [filter_plain_complement, map_span_unhashed, covered_complement_gaps set.starts]
  rintro ⟨_, _, hidden_⟩
  exact hidden_ (set.covers one member position byte)

theorem gaps_inside (starts : ∀ reveal ∈ reveals, reveal.span.start ≤ data.length) :
    ∀ range ∈ (gaps data.length 0 (byStart (reveals.map span))).map unhashed,
      0 ≤ range.span.start ∧ 0 ≤ range.span.length ∧ range.span.stop ≤ data.length := by
  intro range member
  obtain ⟨gap, isGap, rfl⟩ := mem_map.mp member
  have bounds := @gaps_bounded (byStart (reveals.map span)) data.length 0
    (by
      intro span inSpans
      obtain ⟨reveal, isReveal, rfl⟩ := mem_map.mp ((byStart_perm _).mem_iff.mp inSpans)
      exact starts reveal isReveal) gap isGap
  exact ⟨bounds.1, Int.le_of_lt bounds.2.1, bounds.2.2⟩

theorem group_mem_parts {group : IndexRange × List Byte} (member : group ∈ hashedGroups found) :
    ∃ one ∈ found, group.1 ∈ one.parts := by
  obtain ⟨one, inFound, isGroup⟩ := mem_flatMap.mp member
  refine ⟨one, inFound, ?_⟩
  unfold Match.parts
  rw [Option.mem_toList.mp isGroup]
  exact mem_cons_of_mem _ mem_cons_self

theorem hashed_bounded {group : IndexRange × List Byte} {item : RedactionItem}
    (hashed : Hashes data response body group.1 group.2 item)
    (bounded : Bounded body group.1) (kept : GroupKept ctx data response body group.1) :
    0 ≤ item.reveal.span.start ∧ 0 ≤ item.reveal.span.length ∧
      item.reveal.span.stop ≤ data.length := by
  have start := hashed.start
  rcases kept with nonempty | ⟨_, inChunk⟩
  · have length := hashed.nonempty nonempty
    exact ⟨start.1, by omega, length.2⟩
  · by_cases nonempty : group.1.start < group.1.stop
    · have length := hashed.nonempty nonempty
      exact ⟨start.1, by omega, length.2⟩
    · have ordered := bounded.ordered
      obtain ⟨short, length⟩ := hashed.empty (by omega)
      have zero := length.mpr inChunk
      refine ⟨start.1, zero, ?_⟩
      unfold Span.stop
      omega

theorem complement_revealsExactly_iff (set : RevealSet ctx data response body found items reveals)
    (rules : RuleReveals data response body found items)
    (bounded : ∀ one ∈ found, ∀ part ∈ one.parts, Bounded body part) :
    RevealsExactly ctx data response body found (complement data reveals) ↔
      ∀ group ∈ hashedGroups found, GroupKept ctx data response body group.1 := by
  have groupBounded : ∀ group ∈ hashedGroups found, Bounded body group.1 := by
    intro group member
    obtain ⟨one, inFound, isPart⟩ := group_mem_parts member
    exact bounded one inFound group.1 isPart
  constructor
  · intro exact_ group member
    obtain ⟨item, isHashed, hashed⟩ := forall₂_mem_right rules.hashed member
    by_cases nonempty : group.1.start < group.1.stop
    · exact .inl nonempty
    have ordered := (groupBounded group member).ordered
    obtain ⟨short, length⟩ := hashed.empty (by omega)
    have inReveals : item.reveal ∈ hashedReveals items := mem_map.mpr ⟨item, isHashed, rfl⟩
    have clean : ¬ HasMetadata ctx data response := by
      intro metadata
      -- The reveal of the group is cut out, and no other takes its place.
      obtain ⟨ranges, same, all⟩ := exact_.hashed
      rw [filter_hashed_complement, set.cut metadata] at same
      have count : (hashedReveals items).length = (hashedGroups found).length := by
        unfold hashedReveals
        rw [length_map]
        exact rules.hashed.length_eq
      have kept := length_filter_eq_length_iff.mp
        (same.length_eq.trans (all.length_eq.trans count.symm)) item.reveal inReveals
      exact short (of_decide_eq_true kept)
    refine .inr ⟨clean, length.mp ?_⟩
    refine (exact_.bounded item.reveal ?_).2.1
    unfold complement
    rw [set.whole clean]
    exact mem_append_right _ inReveals
  · intro kept
    have whole : (reveals.filter fun reveal => reveal.hash ≠ []) = hashedReveals items := by
      by_cases metadata : HasMetadata ctx data response
      · rw [set.cut metadata, filter_eq_self]
        intro reveal member
        obtain ⟨item, isHashed, rfl⟩ := mem_map.mp member
        obtain ⟨group, isGroup, hashed⟩ := forall₂_mem_left rules.hashed isHashed
        rcases kept group isGroup with nonempty | ⟨clean, _⟩
        · exact decide_eq_true (hashed.nonempty nonempty).1
        · exact absurd metadata clean
      · exact set.whole metadata
    refine ⟨?_, fun position low high uncovered => set.revealed low high uncovered,
      fun one member position byte => set.selected member byte, hashedReveals items, ?_, ?_⟩
    · unfold complement
      rw [whole]
      refine forall_mem_append.mpr ⟨gaps_inside set.starts, ?_⟩
      intro reveal member
      obtain ⟨item, isHashed, rfl⟩ := mem_map.mp member
      obtain ⟨group, isGroup, hashed⟩ := forall₂_mem_left rules.hashed isHashed
      exact hashed_bounded hashed (groupBounded group isGroup) (kept group isGroup)
    · rw [filter_hashed_complement, whole]
    · unfold hashedReveals
      rw [forall₂_map_left_iff]
      exact rules.hashed.imp fun item group hashed => ⟨hashed.hash, hashed.covers⟩

end

/-! ### A response in two chunks -/

def sampleResponse : List Byte :=
  ascii "HTTP/1.1 200 OK\r\nTransfer-Encoding: chunked\r\n\r\n2\r\nab\r\n2\r\ncd\r\n0\r\n\r\n"

def sampleParsed : HTTPParsedResponse where
  statusCode := 200
  statusMessage := ascii "OK"
  statusLineEndIndex := 15
  headerEndIdx := 43
  bodyStartIndex := 47
  body := ascii "abcd"
  headerLowerToRanges := [(ascii "transfer-encoding", { start := 17, length := 26 })]
  headerFraming := []
  headers := [(ascii "transfer-encoding", ascii "chunked")]
  chunked := true
  chunks := [{ start := 50, length := 2 }, { start := 57, length := 2 }]
  chunkFraming :=
    [{ start := 47, length := 1 }, { start := 48, length := 2 }, { start := 52, length := 2 },
      { start := 54, length := 1 }, { start := 55, length := 2 }, { start := 59, length := 2 },
      { start := 61, length := 1 }, { start := 62, length := 2 }, { start := 64, length := 2 }]

def sampleBody : DecodedResponseBody :=
  decodeUTF8ResponseBody (ascii "abcd")

def sampleCtx : ProviderCtx where
  version := attestorVersion320
  tls12CBC := false

/-- An expression that matches the whole text, with one named group. -/
def sampleSelectors (group : IndexRange) : Selectors where
  extractHTMLElementsIndexes _ _ _ := .ok []
  extractJSONValueIndexes _ _ := .ok []
  makeRegex _ := .ok
    { subexpNames := [[], ascii "x"]
      findStringSubmatchIndex := fun text =>
        if text = ascii "abcd" then
          some ({ start := 0, stop := 4 }, [{ start := 0, stop := 4 }, group])
        else none }

def sampleRule (regex : String) : ResponseRedaction where
  regex := ascii regex
  xPath := []
  jsonPath := []
  hash := some (ascii "oprf")

def sampleRedactionParams (regex : String) : HTTPProviderParams where
  url := ascii "https://h.example/"
  method := ascii "GET"
  geoLocation := []
  headers := []
  body := .absent
  paramValues := []
  responseMatches := []
  responseRedactions := [sampleRule regex]

def sampleMatch (group : IndexRange) : Match where
  full := { start := 0, stop := 4 }
  group := some (group, ascii "oprf")

theorem sampleMatch_bounded {group : IndexRange} (start : sampleBody.AtRune group.start)
    (stop : sampleBody.AtRune group.stop)
    (ordered : 0 ≤ group.start ∧ group.start ≤ group.stop ∧ group.stop ≤ 4) :
    ∀ one ∈ [sampleMatch group], ∀ part ∈ one.parts, Bounded sampleBody part := by
  have first : sampleBody.AtRune 0 := .inl rfl
  have last : sampleBody.AtRune 4 := by decide +kernel
  refine forall_mem_singleton.mpr (forall_mem_cons.mpr ⟨⟨first, start, ordered.1⟩,
    forall_mem_cons.mpr ⟨⟨start, stop, ordered.2.1⟩, forall_mem_singleton.mpr
      ⟨stop, last, ordered.2.2⟩⟩⟩)

section Accepted

variable {charsets : Charsets} {selectors : Selectors}
  {data : List Byte} {rawParams : HTTPProviderParams} {ctx : ProviderCtx}
  {response : HTTPParsedResponse} {substituted : SubstituteResult} {body : DecodedResponseBody}
  {found : List Match} {result : List ResponseRedactionRange} (lawful : charsets.Lawful)
  (current : attestorVersion320 ≤ ctx.version) (rules : rawParams.responseRedactions ≠ [])
  (parsed : parseHTTPResponseBytesWithFraming data ctx.tls12CBC = .ok response)
  (nonnegative : ctx.tls12CBC = false → NoNegativeChunk response)
  (substitution : substituteParamValues rawParams [] true = .ok substituted)
  (decoded : decodeResponseBody charsets response.body
    (charsets.responseBodyCharset (header response "content-type")) = .ok body)
  (selected : selectedMatches selectors body.text substituted.responseRedactions = .ok found)
  (bounded : ∀ one ∈ found, ∀ part ∈ one.parts, Bounded body part)
  (accepted : getResponseRedactions charsets selectors data rawParams ctx = .ok result)

include lawful current rules parsed nonnegative substitution decoded selected bounded accepted

theorem getResponseRedactions_complement :
    ∃ items reveals, RuleReveals data response body found items ∧
      RevealSet ctx data response body found items reveals ∧
      (complement data reveals).Perm result := by
  have framing : shouldRevealChunkFraming ctx = true := decide_eq_true current
  have facts := parseHTTPResponseBytes_parsed parsed
  have sizes : NoNegativeChunk response := by
    cases mode : ctx.tls12CBC with
    | false => exact nonnegative mode
    | true => exact facts.sizes mode
  unfold getResponseRedactions at accepted
  rw [parsed, ok_bind, if_neg rules, substitution] at accepted
  simp only [decoded, ok_bind, eq_ok_iff] at accepted
  obtain ⟨_, _, _, separated, _, _, lists, processed, rfl⟩ := accepted
  obtain ⟨tiled, length, _⟩ := decodeResponseBody_reads lawful decoded
  have located : Located data response
      { body := body
        bodyStartIdx := response.bodyStartIndex
        chunks := response.chunks
        revealFraming := shouldRevealChunkFraming ctx } :=
    { placed := facts.placed sizes
      start := ⟨by omega, facts.bodyStart⟩
      chunks := rfl
      bodyStart := rfl
      tiled := tiled
      rawLength := length }
  have wellFormed : WellFormed body found := by
    refine ⟨bounded, fun group member empty => ?_⟩
    obtain ⟨rule, isRule, hash⟩ := selectedMatches_hash selected group member
    rw [empty] at hash
    exact substituteParamValues_hash substitution rule isRule hash
  have ruleReveals := processRules_reveals located framing wellFormed selected processed
  have set := withFraming_revealSet facts located (by omega) ruleReveals framing
  refine ⟨lists.flatten, _, ruleReveals, set, ?_⟩
  have none : lists.flatten.flatMap RedactionItem.redactions = [] := by
    rw [flatMap_eq_nil_iff]
    intro item member
    exact (ruleReveals.plain item member).1
  have gaps_ : outside ctx response data.length
      ((withFraming ctx response data.length (baseReveals ctx response lists.flatten)).map
        span) = gaps data.length 0
      (byStart ((withFraming ctx response data.length
        (baseReveals ctx response lists.flatten)).map span)) := by
    unfold outside
    rw [length_map, if_neg set.two, if_pos framing]
  unfold complement
  rw [← gaps_, none]
  exact (perm_insertionSort _ _).symm

end Accepted

end ReclaimTee.Providers
