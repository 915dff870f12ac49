/-
What the response parser records of a body. Chunk framing is size texts and line
ends outside of chunk data, and the body is the bytes of the chunks, unless a
chunk has a negative size, which only the strict parser refuses.
-/

import ReclaimTee.Providers.ResponseHeaders

namespace ReclaimTee.Providers

open List

namespace HTTPResponseParser

variable {data line : List Byte} {parser next : HTTPResponseParser} {strictFraming : Bool}

/-! ### Chunks -/

/-- A line end, or the size text of a chunk line up to its extension. -/
def SafeFraming (strictFraming : Bool) (data : List Byte) (span : Span) : Prop :=
  ∃ start : Nat, span.start = start ∧
    (span.length = 2 ∧ (data.drop start).take 2 = lineEnd ∨
      ∃ line, IsLine data start line ∧ span.length = (chunkSizeText line).2 ∧
        (strictFraming = true → validChunkSize (chunkSizeText line).1 = true))

def dataPlaces (parser : HTTPResponseParser) : List Int :=
  parser.response.chunks.flatMap Span.places

/-- Chunks one behind the other, with framing between them, and the body read from them.
The last chunk may be ahead of the parser by the bytes that remain to be read. -/
structure Layout (data : List Byte) (bodyStart : Int) (parser : HTTPResponseParser) : Prop where
  positive : ∀ chunk ∈ parser.response.chunks, 0 < chunk.length ∧ bodyStart ≤ chunk.start
  gapped : Gapped parser.response.chunks
  stops : ∀ chunk ∈ parser.response.chunks,
    chunk.stop ≤ parser.currentByteIdx + parser.remainingBodyBytes
  remaining : 0 ≤ parser.remainingBodyBytes
  apart : ∀ span ∈ parser.response.chunkFraming, ∀ chunk ∈ parser.response.chunks,
    span.stop ≤ chunk.start ∨ chunk.stop ≤ span.start
  filled : (parser.dataPlaces.length : Int) =
    parser.response.body.length + parser.remainingBodyBytes
  stored : ∀ (index : Nat) (byte : Byte), parser.response.body[index]? = some byte →
    ∃ place : Nat, parser.dataPlaces[index]? = some (place : Int) ∧ data[place]? = some byte
  ahead : ∀ distance : Nat, (distance : Int) < parser.remainingBodyBytes →
    parser.dataPlaces[parser.response.body.length + distance]? =
      some ((parser.currentByteIdx + distance : Nat) : Int)
  between : parser.finalChunkSeen = true ∨ parser.chunkNeedsCRLF = true →
    parser.remainingBodyBytes = 0

/-- Framing behind the last chunk keeps the layout, wherever the parser goes. -/
theorem Layout.record {bodyStart : Int} (layout : Layout data bodyStart parser)
    (rest : parser.remainingBodyBytes = 0) {extra : List Span}
    (behind : ∀ span ∈ extra, (parser.currentByteIdx : Int) ≤ span.start) {index : Nat}
    (later : parser.currentByteIdx ≤ index) (remaining : List Byte) (needs final complete : Bool) :
    Layout data bodyStart { parser with
      response := { parser.response with
        chunkFraming := parser.response.chunkFraming ++ extra }
      chunkNeedsCRLF := needs
      finalChunkSeen := final
      complete := complete
      remaining := remaining
      currentByteIdx := index } :=
  { layout with
    stops := fun chunk member => by
      have stop := layout.stops chunk member
      dsimp only
      omega
    apart := forall_mem_append.mpr ⟨layout.apart, fun span added chunk member => by
      have stop := layout.stops chunk member
      have later := behind span added
      dsimp only at member
      omega⟩
    ahead := fun distance short => by
      dsimp only at short
      omega
    between := fun _ => rest }

theorem Layout.begin {bodyStart size : Int} (layout : Layout data bodyStart parser)
    (rest : parser.remainingBodyBytes = 0) (positive : 0 < size)
    (start : bodyStart ≤ parser.currentByteIdx)
    (behind : ∀ chunk ∈ parser.response.chunks, chunk.stop < parser.currentByteIdx)
    (framing : ∀ span ∈ parser.response.chunkFraming, span.stop ≤ parser.currentByteIdx)
    (flags : parser.finalChunkSeen = false ∧ parser.chunkNeedsCRLF = false) :
    Layout data bodyStart { parser with
      response := { parser.response with
        chunks := parser.response.chunks ++ [{ start := parser.currentByteIdx, length := size }] }
      remainingBodyBytes := size } := by
  have filled := layout.filled
  have places : dataPlaces { parser with
      response := { parser.response with
        chunks := parser.response.chunks ++ [{ start := parser.currentByteIdx, length := size }] }
      remainingBodyBytes := size } =
      parser.dataPlaces ++ Span.places { start := parser.currentByteIdx, length := size } := by
    unfold dataPlaces
    rw [flatMap_append, flatMap_singleton]
  exact
    { positive := forall_mem_append.mpr
        ⟨layout.positive, forall_mem_singleton.mpr ⟨positive, start⟩⟩
      gapped := pairwise_append.mpr ⟨layout.gapped, pairwise_singleton _ _,
        fun chunk member => forall_mem_singleton.mpr (behind chunk member)⟩
      stops := forall_mem_append.mpr ⟨fun chunk member => by
        have stop := behind chunk member
        dsimp only
        omega, forall_mem_singleton.mpr (Int.le_refl _)⟩
      remaining := Int.le_of_lt positive
      apart := fun span recorded => forall_mem_append.mpr
        ⟨layout.apart span recorded, forall_mem_singleton.mpr (.inl (framing span recorded))⟩
      filled := by
        rw [places, length_append, Span.places_length]
        dsimp only
        omega
      stored := by
        rw [places]
        intro index byte found
        obtain ⟨place, listed, stored⟩ := layout.stored index byte found
        refine ⟨place, ?_, stored⟩
        rw [List.getElem?_append_left (List.getElem?_eq_some_iff.mp listed).1]
        exact listed
      ahead := by
        rw [places]
        intro distance short
        dsimp only at short ⊢
        rw [getElem?_append_right (by omega), Span.places_getElem? (by dsimp only; omega)]
        dsimp only
        congr 1
        omega
      between := by
        dsimp only
        rw [flags.1, flags.2]
        simp }

theorem Layout.read {bodyStart : Int} {count : Nat} {needs : Bool}
    (layout : Layout data bodyStart parser) (reads : Reads data parser)
    (short : (count : Int) ≤ parser.remainingBodyBytes)
    (available : count ≤ parser.remaining.length) (flags : parser.finalChunkSeen = false)
    (whole : needs = true → parser.remainingBodyBytes - count = 0) :
    Layout data bodyStart { parser.readBody count with
      remainingBodyBytes := parser.remainingBodyBytes - count
      chunkNeedsCRLF := needs } := by
  have bodyLength : (parser.response.body ++ parser.remaining.take count).length =
      parser.response.body.length + count := by
    rw [length_append, length_take, Nat.min_eq_left available]
  exact
    { layout with
      stops := fun chunk member => by
        have stop := layout.stops chunk member
        dsimp only [readBody]
        omega
      remaining := by
        dsimp only
        omega
      filled := by
        have filled := layout.filled
        change (parser.dataPlaces.length : Int) =
          ((parser.response.body ++ parser.remaining.take count).length : Nat) +
            (parser.remainingBodyBytes - count)
        omega
      stored := by
        change ∀ (index : Nat) (byte : Byte),
          (parser.response.body ++ parser.remaining.take count)[index]? = some byte →
            ∃ place : Nat, parser.dataPlaces[index]? = some (place : Int) ∧ data[place]? = some byte
        intro index byte found
        by_cases early : index < parser.response.body.length
        · rw [getElem?_append_left early] at found
          exact layout.stored index byte found
        · have late : parser.response.body.length ≤ index := Nat.le_of_not_lt early
          obtain ⟨distance, rfl⟩ := Nat.exists_eq_add_of_le late
          rw [getElem?_append_right late, Nat.add_sub_cancel_left] at found
          have inside : distance < count := by
            have bound := (List.getElem?_eq_some_iff.mp found).1
            rw [List.length_take] at bound
            omega
          rw [getElem?_take_of_lt inside, ← reads.place, getElem?_drop] at found
          exact ⟨parser.currentByteIdx + distance, layout.ahead distance (by omega), found⟩
      ahead := by
        intro distance rest
        dsimp only at rest
        change parser.dataPlaces[(parser.response.body ++ parser.remaining.take count).length +
          distance]? = some ((parser.currentByteIdx + count + distance : Nat) : Int)
        rw [bodyLength, Nat.add_assoc, Nat.add_assoc]
        exact layout.ahead (count + distance) (by omega)
      between := by
        dsimp only [readBody]
        rw [flags]
        simpa using whole }

def NoNegativeChunk (response : HTTPParsedResponse) : Prop :=
  ∀ chunk ∈ response.chunks, 0 ≤ chunk.length

/-- The state of the chunk loop. Only body, chunks and framing change in it. -/
structure Framed (strictFraming : Bool) (data : List Byte) (origin : HTTPParsedResponse)
    (parser : HTTPResponseParser) : Prop where
  reads : Reads data parser
  start : origin.bodyStartIndex ≤ parser.currentByteIdx
  kept : parser.response = { origin with
    body := parser.response.body
    chunks := parser.response.chunks
    chunkFraming := parser.response.chunkFraming }
  framing : ∀ span ∈ parser.response.chunkFraming, SafeFraming strictFraming data span ∧
    origin.bodyStartIndex ≤ span.start ∧ 0 < span.length ∧ span.stop ≤ parser.currentByteIdx
  layout : NoNegativeChunk parser.response → Layout data origin.bodyStartIndex parser
  sizes : strictFraming = true → NoNegativeChunk parser.response

variable {origin : HTTPParsedResponse}

theorem recordChunkFraming_eq {start length : Int} (positive : 0 < length) :
    parser.recordChunkFraming start length =
      { parser with
        response := { parser.response with
          chunkFraming := parser.response.chunkFraming ++
            [{ start := start, length := length }] } } :=
  if_neg (by omega)

theorem SafeFraming.lineEnd {start : Nat} (isLine : IsLine data start line) :
    SafeFraming strictFraming data { start := (start + line.length : Nat), length := 2 } :=
  ⟨start + line.length, rfl, .inl ⟨rfl, isLine.lineEnd_at⟩⟩

theorem chunkSizeText_positive (present : line ≠ []) :
    0 < (chunkSizeText line).2 ∧ (chunkSizeText line).2 ≤ line.length := by
  unfold chunkSizeText
  split
  · next before after cut =>
    have semicolon : (ascii ";").length = 1 := by
      decide
    have length := congrArg List.length (cutText_eq cut)
    rw [length_append, length_append] at length
    omega
  · exact ⟨length_pos_iff.mpr present, Nat.le_refl _⟩

/-- The framing of a size line: its size text and its line end. -/
def sizeLineFraming (start : Nat) (line : List Byte) : List Span :=
  [{ start := start, length := (chunkSizeText line).2 },
    { start := (start + line.length : Nat), length := 2 }]

theorem sizeLineFraming_safe {start : Nat} (isLine : IsLine data start line) (present : line ≠ [])
    (valid : strictFraming = true → validChunkSize (chunkSizeText line).1 = true) :
    ∀ span ∈ sizeLineFraming start line, SafeFraming strictFraming data span ∧
      (start : Int) ≤ span.start ∧ 0 < span.length ∧
      span.stop ≤ ((start + line.length + 2 : Nat) : Int) := by
  obtain ⟨positive, bound⟩ := chunkSizeText_positive present
  refine forall_mem_cons.mpr ⟨⟨⟨start, rfl, .inr ⟨line, isLine, rfl, valid⟩⟩, ?_⟩,
    forall_mem_singleton.mpr ⟨SafeFraming.lineEnd isLine, ?_⟩⟩
  · dsimp only [Span.stop]
    omega
  · dsimp only [Span.stop]
    omega

theorem parseInt_nonnegative {size : Int} (valid : validChunkSize line = true)
    (parsed : parseInt 16 line = some size) : 0 ≤ size := by
  unfold parseInt at parsed
  split at parsed
  · cases parsed
  rename_i first rest
  have digits := (of_decide_eq_true valid).2
  have digit := all_eq_true.mp digits first mem_cons_self
  have unsigned : first ≠ char '-' := by
    rintro rfl
    exact absurd digit (by decide)
  rw [if_neg unsigned] at parsed
  obtain ⟨magnitude, _, fits⟩ := Option.bind_eq_some_iff.mp parsed
  split at fits <;> cases fits
  exact Int.natCast_nonneg _

section Framed

variable (framed : Framed strictFraming data origin parser)
include framed

/-- The parser records framing behind the chunks read so far and goes on. -/
theorem Framed.record (idle : NoNegativeChunk parser.response → parser.remainingBodyBytes = 0)
    {index : Nat} {remaining : List Byte} (place : data.drop index = remaining)
    (bound : index ≤ data.length) (later : parser.currentByteIdx ≤ index) {extra : List Span}
    (added : ∀ span ∈ extra, SafeFraming strictFraming data span ∧
      (parser.currentByteIdx : Int) ≤ span.start ∧ 0 < span.length ∧ span.stop ≤ index)
    (needs final complete : Bool) :
    Framed strictFraming data origin { parser with
      response := { parser.response with
        chunkFraming := parser.response.chunkFraming ++ extra }
      chunkNeedsCRLF := needs
      finalChunkSeen := final
      complete := complete
      remaining := remaining
      currentByteIdx := index } where
  reads := ⟨place, bound⟩
  start := Int.le_trans framed.start (Int.ofNat_le.mpr later)
  kept := by
    rw [framed.kept]
  framing := by
    have start := framed.start
    refine forall_mem_append.mpr ⟨fun span member => ?_, fun span member => ?_⟩
    · obtain ⟨safe, start, positive, stop⟩ := framed.framing span member
      exact ⟨safe, start, positive, by dsimp only; omega⟩
    · obtain ⟨safe, begins, positive, stop⟩ := added span member
      exact ⟨safe, by omega, positive, stop⟩
  layout nonnegative := (framed.layout nonnegative).record (idle nonnegative)
    (fun span member => (added span member).2.1) later _ _ _ _
  sizes := framed.sizes

def Turn.state : Turn → HTTPResponseParser
  | .continue parser => parser
  | .break parser => parser

theorem trailerTurn_framed (final : parser.finalChunkSeen = true) :
    Framed strictFraming data origin parser.trailerTurn.state := by
  have idle : NoNegativeChunk parser.response → parser.remainingBodyBytes = 0 :=
    fun nonnegative => (framed.layout nonnegative).between (.inl final)
  unfold trailerTurn
  cases found : parser.getLine with
  | none => exact framed
  | some read =>
    obtain ⟨line, behind⟩ := read
    obtain ⟨rest, rfl, reads, isLine⟩ := framed.reads.getLine found
    have place : ((parser.currentByteIdx + line.length + 2 : Nat) : Int) - 2 =
        ((parser.currentByteIdx + line.length : Nat) : Int) := by
      omega
    dsimp only
    rw [recordChunkFraming_eq (by decide), place]
    split
    all_goals
      exact framed.record idle reads.place reads.bound (by dsimp only; omega)
        (forall_mem_singleton.mpr ⟨SafeFraming.lineEnd isLine, by dsimp only [Span.stop]; omega⟩)
        _ _ _

theorem chunkEndTurn_framed {turn : Turn} (needs : parser.chunkNeedsCRLF = true)
    (turned : parser.chunkEndTurn = .ok turn) : Framed strictFraming data origin turn.state := by
  have idle : NoNegativeChunk parser.response → parser.remainingBodyBytes = 0 :=
    fun nonnegative => (framed.layout nonnegative).between (.inr needs)
  unfold chunkEndTurn at turned
  split at turned
  · cases turned
    exact framed
  · next enough =>
    split at turned <;> cases turned
    rename_i ends
    have length := congrArg List.length framed.reads.place
    rw [length_drop] at length
    refine framed.record idle ?_ (by omega) (Nat.le_add_right _ _) (forall_mem_singleton.mpr
      ⟨⟨parser.currentByteIdx, rfl, .inl ⟨rfl, ?_⟩⟩, Int.le_refl _, ?_, Int.le_refl _⟩) _ _ _
    · change data.drop (parser.currentByteIdx + 2) = parser.remaining.drop 2
      rw [← drop_drop, framed.reads.place]
    · rw [framed.reads.place]
      exact not_not.mp ends
    · simp

theorem chunkDataTurn_framed
    (final : parser.finalChunkSeen = false) (needs : parser.chunkNeedsCRLF = false) :
    Framed strictFraming data origin parser.chunkDataTurn.state := by
  unfold chunkDataTurn
  dsimp only
  split
  · exact framed
  have length := congrArg List.length framed.reads.place
  rw [length_drop] at length
  have read : ∀ needs : Bool, (needs = true → parser.remainingBodyBytes -
      (min parser.remainingBodyBytes.toNat parser.remaining.length : Nat) = 0) →
      Framed strictFraming data origin
        { parser.readBody (min parser.remainingBodyBytes.toNat parser.remaining.length) with
          remainingBodyBytes := parser.remainingBodyBytes -
            (min parser.remainingBodyBytes.toNat parser.remaining.length : Nat)
          chunkNeedsCRLF := needs } := by
    intro needs whole
    exact
      { reads := by
          refine ⟨?_, ?_⟩
          · dsimp only [readBody]
            rw [← drop_drop, framed.reads.place]
          · dsimp only [readBody]
            omega
        start := by
          have start := framed.start
          dsimp only [readBody]
          omega
        kept := by
          dsimp only [readBody]
          rw [framed.kept]
        framing := by
          intro span member
          obtain ⟨safe, start, positive, stop⟩ := framed.framing span member
          exact ⟨safe, start, positive, by dsimp only [readBody]; omega⟩
        layout := fun nonnegative =>
          (framed.layout nonnegative).read framed.reads (by omega) (Nat.min_le_right _ _) final
            whole
        sizes := framed.sizes }
  split
  · have idle := read parser.chunkNeedsCRLF (by
      intro impossible
      rw [needs] at impossible
      cases impossible)
    exact idle
  · exact read true fun _ => by omega

theorem Framed.begin {size : Int}
    (idle : NoNegativeChunk parser.response → parser.remainingBodyBytes = 0)
    (behind : NoNegativeChunk parser.response →
      ∀ chunk ∈ parser.response.chunks, chunk.stop < parser.currentByteIdx)
    (final : parser.finalChunkSeen = false) (needs : parser.chunkNeedsCRLF = false)
    (nonzero : size ≠ 0) (allowed : strictFraming = true → 0 ≤ size) :
    Framed strictFraming data origin { parser with
      response := { parser.response with
        chunks := parser.response.chunks ++ [{ start := parser.currentByteIdx, length := size }] }
      remainingBodyBytes := size } where
  reads := ⟨framed.reads.place, framed.reads.bound⟩
  start := framed.start
  kept := by
    rw [framed.kept]
  framing := framed.framing
  layout nonnegative := by
    have earlier : NoNegativeChunk parser.response := fun chunk member =>
      nonnegative chunk (mem_append_left _ member)
    have size_nonnegative : 0 ≤ size :=
      nonnegative { start := parser.currentByteIdx, length := size }
        (mem_append_right _ (mem_singleton.mpr rfl))
    exact (framed.layout earlier).begin (idle earlier) (by omega) framed.start (behind earlier)
      (fun span member => (framed.framing span member).2.2.2) ⟨final, needs⟩
  sizes strict := forall_mem_append.mpr
    ⟨framed.sizes strict, forall_mem_singleton.mpr (allowed strict)⟩

theorem chunkSizeTurn_framed {turn : Turn} (final : parser.finalChunkSeen = false)
    (needs : parser.chunkNeedsCRLF = false) (read : ¬ 0 < parser.remainingBodyBytes)
    (turned : chunkSizeTurn strictFraming parser = .ok turn) :
    Framed strictFraming data origin turn.state := by
  have idle : NoNegativeChunk parser.response → parser.remainingBodyBytes = 0 := by
    intro nonnegative
    have remaining := (framed.layout nonnegative).remaining
    omega
  unfold chunkSizeTurn at turned
  cases found : parser.getLine with
  | none =>
    rw [found] at turned
    cases turned
    exact framed
  | some got =>
    obtain ⟨line, behind⟩ := got
    rw [found] at turned
    obtain ⟨rest, rfl, reads, isLine⟩ := framed.reads.getLine found
    have later : parser.currentByteIdx ≤ parser.currentByteIdx + line.length + 2 := by
      omega
    dsimp only at turned
    split at turned
    · split at turned <;> cases turned
      have moved := framed.record idle reads.place reads.bound later (forall_mem_nil _)
        parser.chunkNeedsCRLF parser.finalChunkSeen parser.complete
      rw [append_nil] at moved
      exact moved
    · next present =>
      split at turned
      · cases turned
      rename_i valid
      split at turned
      · cases turned
      rename_i size parsed
      split at turned
      · cases turned
      have valid : strictFraming = true → validChunkSize (chunkSizeText line).1 = true := by
        intro strict
        by_contra invalid
        exact valid ⟨strict, eq_false_of_ne_true invalid⟩
      have lineStart : ((parser.currentByteIdx + line.length + 2 : Nat) : Int) - line.length - 2 =
          parser.currentByteIdx := by
        omega
      have lineStop : ((parser.currentByteIdx + line.length + 2 : Nat) : Int) - 2 =
          ((parser.currentByteIdx + line.length : Nat) : Int) := by
        omega
      have shown := (chunkSizeText_positive present).1
      rw [lineStart, recordChunkFraming_eq (by decide), recordChunkFraming_eq (by omega)]
        at turned
      dsimp only at turned
      rw [lineStop, append_assoc] at turned
      have recorded := framed.record idle reads.place reads.bound later
        (sizeLineFraming_safe isLine present valid) parser.chunkNeedsCRLF
      split at turned
      · cases turned
        exact recorded true _
      · next nonzero =>
        cases turned
        refine (recorded parser.finalChunkSeen _).begin idle (fun nonnegative chunk member => ?_)
          final needs nonzero fun strict => parseInt_nonnegative (valid strict) parsed
        have stop := (framed.layout nonnegative).stops chunk member
        have none := idle nonnegative
        dsimp only
        omega

theorem chunkTurn_framed {turn : Turn} (turned : chunkTurn strictFraming parser = .ok turn) :
    Framed strictFraming data origin turn.state := by
  unfold chunkTurn at turned
  split at turned
  · next final =>
    cases turned
    exact trailerTurn_framed framed final
  · next final =>
    have notFinal := eq_false_of_ne_true final
    split at turned
    · next needs => exact chunkEndTurn_framed framed needs turned
    rename_i needs
    have noEnd := eq_false_of_ne_true needs
    split at turned
    · cases turned
      exact chunkDataTurn_framed framed notFinal noEnd
    · next read => exact chunkSizeTurn_framed framed notFinal noEnd read turned

theorem processChunkedBody_framed
    (processed : processChunkedBody strictFraming parser = .ok next) :
    Framed strictFraming data origin next := by
  refine Loop.iterate_rule (fun state turn (framed : Framed strictFraming data origin state)
    turned => ?_) framed processed
  have after := chunkTurn_framed framed turned
  cases turn with
  | «continue» parser | «break» parser => exact after

end Framed

/-! ### Bodies without chunks -/

/-- The body so far and the remaining bytes follow the header section. -/
structure Plain (data : List Byte) (origin : HTTPParsedResponse) (parser : HTTPResponseParser) :
    Prop where
  kept : parser.response = { origin with body := parser.response.body }
  split : data.drop origin.bodyStartIndex.toNat = parser.response.body ++ parser.remaining

theorem readBody_plain (plain : Plain data origin parser) (count : Nat) :
    Plain data origin (parser.readBody count) where
  kept := by
    dsimp only [readBody]
    rw [plain.kept]
  split := by
    dsimp only [readBody]
    rw [append_assoc, take_append_drop]
    exact plain.split

theorem processFixedBody_plain (plain : Plain data origin parser) :
    Plain data origin parser.processFixedBody := by
  unfold processFixedBody
  split
  · exact ⟨plain.kept, plain.split⟩
  split
  · exact plain
  split
  · exact readBody_plain plain _
  · have read := readBody_plain plain
      (min parser.remainingBodyBytes.toNat parser.remaining.length)
    exact ⟨read.kept, read.split⟩

end HTTPResponseParser

open HTTPResponseParser

/-! ### Parsed responses -/

def HTTPParsedResponse.bodyPlaces (response : HTTPParsedResponse) : List Int :=
  if response.chunks = [] then
    Span.places { start := response.bodyStartIndex, length := response.body.length }
  else
    response.chunks.flatMap Span.places

/-- The body lies at its places, and framing lies outside of chunk data. -/
structure Placed (data : List Byte) (response : HTTPParsedResponse) : Prop where
  positive : ∀ chunk ∈ response.chunks, 0 < chunk.length ∧ response.bodyStartIndex ≤ chunk.start ∧
    chunk.stop ≤ data.length
  gapped : Gapped response.chunks
  apart : ∀ span ∈ response.chunkFraming, ∀ chunk ∈ response.chunks,
    span.stop ≤ chunk.start ∨ chunk.stop ≤ span.start
  length : response.bodyPlaces.length = response.body.length
  bare : response.chunked = true → response.chunks = [] → response.body = []
  stored : ∀ (index : Nat) (byte : Byte), response.body[index]? = some byte →
    ∃ place : Nat, response.bodyPlaces[index]? = some (place : Int) ∧ data[place]? = some byte

structure Parsed (strictFraming : Bool) (data : List Byte) (response : HTTPParsedResponse) :
    Prop where
  status : 0 < response.statusLineEndIndex ∧
    response.statusLineEndIndex + 2 ≤ response.bodyStartIndex
  headerEnd : response.headerEndIdx = response.bodyStartIndex - 4
  bodyStart : response.bodyStartIndex ≤ data.length
  lines : ∀ entry ∈ response.headerLowerToRanges,
    HeaderLine strictFraming data entry.1 entry.2 ∧ entry.2.stop ≤ response.bodyStartIndex
  framing : ∀ span ∈ response.headerFraming, HeaderSyntax data span ∧
    span.stop ≤ response.bodyStartIndex ∧ strictFraming = true
  chunkFraming : ∀ span ∈ response.chunkFraming, SafeFraming strictFraming data span ∧
    response.bodyStartIndex ≤ span.start ∧ 0 < span.length ∧ span.stop ≤ data.length
  unchunked : response.chunked = false → response.chunks = [] ∧ response.chunkFraming = []
  placed : NoNegativeChunk response → Placed data response
  sizes : strictFraming = true → NoNegativeChunk response

variable {strictFraming : Bool} {data : List Byte} {parser next : HTTPResponseParser}
  {response : HTTPParsedResponse}

theorem HTTPResponseParser.Opened.framed (opened : Opened strictFraming data parser)
    (chunked : parser.response.chunked = true) :
    Framed strictFraming data parser.response parser where
  reads := opened.reads
  start := Int.le_of_eq opened.bodyStart
  kept := rfl
  framing := by simp [opened.chunkFraming]
  layout _ := by
    have rest := opened.remaining chunked
    have places : parser.dataPlaces = [] := by simp [dataPlaces, opened.chunks]
    exact
      { positive := by simp [opened.chunks]
        gapped := by simp [opened.chunks, Gapped]
        stops := by simp [opened.chunks]
        remaining := by omega
        apart := by simp [opened.chunks]
        filled := by simp [places, opened.body, rest]
        stored := by simp [opened.body]
        ahead := fun distance short => by omega
        between := fun _ => rest }
  sizes _ := by simp [NoNegativeChunk, opened.chunks]

/-- The body does not change what is known of the header section. -/
theorem Parsed.of_opened (opened : Opened strictFraming data parser) {body : List Byte}
    {chunks chunkFraming : List Span}
    (same : response = { parser.response with
      body := body
      chunks := chunks
      chunkFraming := chunkFraming })
    (recorded : ∀ span ∈ chunkFraming, SafeFraming strictFraming data span ∧
      parser.response.bodyStartIndex ≤ span.start ∧ 0 < span.length ∧ span.stop ≤ data.length)
    (unchunked : parser.response.chunked = false → chunks = [] ∧ chunkFraming = [])
    (placed : NoNegativeChunk response → Placed data response)
    (sizes : strictFraming = true → NoNegativeChunk response) :
    Parsed strictFraming data response := by
  obtain ⟨status, lines, framing⟩ := opened.heading
  rw [← opened.bodyStart] at status lines framing
  subst same
  exact
    { status := status opened.status
      headerEnd := opened.headerEnd
      bodyStart := by
        have start := opened.bodyStart
        have bound := opened.reads.bound
        dsimp only
        omega
      lines := lines
      framing := framing
      chunkFraming := recorded
      unchunked := unchunked
      placed := placed
      sizes := sizes }

theorem Parsed.of_framed (opened : Opened strictFraming data parser)
    (framed : Framed strictFraming data parser.response next) (read : ¬ 0 < next.remainingBodyBytes)
    (same : response = { next.response with body := response.body })
    (ended : NoNegativeChunk response → response.body = next.response.body)
    (chunked : parser.response.chunked = true) : Parsed strictFraming data response := by
  have bound := framed.reads.bound
  have chunks : response.chunks = next.response.chunks := by
    rw [same]
  have start : response.bodyStartIndex = parser.response.bodyStartIndex := by
    rw [same, framed.kept]
  refine Parsed.of_opened opened (by rw [same, framed.kept]) (fun span member => ?_)
    (by simp [chunked]) (fun nonnegative => ?_) (fun strict => ?_)
  · obtain ⟨safe, start, positive, stop⟩ := framed.framing span member
    exact ⟨safe, start, positive, by omega⟩
  · have body := ended nonnegative
    rw [NoNegativeChunk, chunks] at nonnegative
    have layout := framed.layout nonnegative
    have filled := layout.filled
    have remaining := layout.remaining
    have bare : response.chunks = [] → response.body = [] := by
      intro none
      rw [dataPlaces, ← chunks, none, flatMap_nil, length_nil] at filled
      rw [body]
      exact length_eq_zero_iff.mp (by omega)
    have places : response.bodyPlaces = next.dataPlaces := by
      unfold HTTPParsedResponse.bodyPlaces dataPlaces
      rw [← chunks]
      split
      · next none =>
        rw [none, bare none]
        rfl
      · rfl
    exact
      { positive := by
          rw [chunks, start]
          intro chunk member
          obtain ⟨positive, start⟩ := layout.positive chunk member
          have stop := layout.stops chunk member
          exact ⟨positive, start, by omega⟩
        gapped := by
          rw [chunks]
          exact layout.gapped
        apart := by
          rw [same]
          exact layout.apart
        length := by
          rw [places, body]
          omega
        bare := fun _ => bare
        stored := by
          rw [places, body]
          exact layout.stored }
  · rw [NoNegativeChunk, chunks]
    exact framed.sizes strict

theorem Parsed.of_plain (opened : Opened strictFraming data parser)
    (unchunked : parser.response.chunked = false) (plain : Plain data parser.response next) :
    Parsed strictFraming data next.response := by
  have fields := plain.kept
  have chunks : next.response.chunks = [] := by
    rw [fields]
    exact opened.chunks
  have chunkFraming : next.response.chunkFraming = [] := by
    rw [fields]
    exact opened.chunkFraming
  have start : next.response.bodyStartIndex = parser.currentByteIdx := by
    rw [fields]
    exact opened.bodyStart
  have places : next.response.bodyPlaces = Span.places
      { start := parser.currentByteIdx, length := next.response.body.length } := by
    unfold HTTPParsedResponse.bodyPlaces
    rw [if_pos chunks, start]
  refine Parsed.of_opened opened fields (by simp [opened.chunkFraming])
    (fun _ => ⟨opened.chunks, opened.chunkFraming⟩) (fun _ => ?_)
    (fun _ => by simp [NoNegativeChunk, chunks])
  exact
    { positive := by simp [chunks]
      gapped := by simp [chunks, Gapped]
      apart := by simp [chunks]
      length := by simp [places]
      bare := by
        rw [fields, unchunked]
        nofun
      stored := by
        intro index byte found
        have inside := (List.getElem?_eq_some_iff.mp found).1
        refine ⟨parser.currentByteIdx + index, ?_, ?_⟩
        · rw [places, Span.places_getElem? (by dsimp only; omega)]
          congr 1
        · have split := plain.split
          rw [opened.bodyStart, Int.toNat_natCast] at split
          rw [← getElem?_drop, split, getElem?_append_left inside]
          exact found }

theorem parseHTTPResponseBytes_parsed
    (parsed : parseHTTPResponseBytesWithFraming data strictFraming = .ok response) :
    Parsed strictFraming data response := by
  unfold parseHTTPResponseBytesWithFraming at parsed
  rw [bind_eq_ok_iff] at parsed
  obtain ⟨found, processed, parsed⟩ := parsed
  cases found with
  | none => cases parsed
  | some parser =>
    rw [bind_eq_ok_iff] at parsed
    obtain ⟨next, body, ended⟩ := parsed
    have opened := newHTTPResponseParser_opened processed
    unfold streamEnded at ended
    simp only [eq_ok_iff] at ended
    obtain ⟨_, read, _, _, _, _, _, _, ended⟩ := ended
    cases chunked : parser.response.chunked with
    | true =>
      have framed : Framed strictFraming data parser.response next := by
        unfold processBody at body
        split at body
        · cases body
          exact opened.framed chunked
        · exact processChunkedBody_framed (opened.framed chunked) body
      split at ended
      · next rest =>
        cases ended
        refine Parsed.of_framed opened framed read rfl ?_ chunked
        intro nonnegative
        have remaining := (framed.layout nonnegative).remaining
        omega
      · simp only [eq_ok_iff] at ended
        obtain ⟨_, _, rfl⟩ := ended
        exact Parsed.of_framed opened framed read rfl (fun _ => rfl) chunked
    | false =>
      have start : Plain data parser.response parser := by
        refine ⟨rfl, ?_⟩
        rw [opened.body, opened.bodyStart, Int.toNat_natCast, opened.reads.place]
        rfl
      have plain : Plain data parser.response next := by
        unfold processBody at body
        split at body
        · cases body
          exact start
        · rw [if_neg (by simp [chunked])] at body
          cases body
          exact processFixedBody_plain start
      split at ended
      · cases ended
        exact Parsed.of_plain opened chunked (readBody_plain plain _)
      · simp only [eq_ok_iff] at ended
        obtain ⟨_, _, rfl⟩ := ended
        exact Parsed.of_plain opened chunked plain

end ReclaimTee.Providers
