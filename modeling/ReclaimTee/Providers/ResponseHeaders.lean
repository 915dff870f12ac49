/-
What the response parser records of a header section. The parser stands at its
index in the response; header ranges are header lines of the response, and
header framing is their names, delimiters and line ends.
-/

import ReclaimTee.Providers.ResponseParser

namespace ReclaimTee.Providers

open List

def lineEnd : List Byte :=
  ascii "\r\n"

@[simp] theorem lineEnd_length : lineEnd.length = 2 := by
  decide

theorem cutText_eq {separator text before after : List Byte}
    (found : cutText separator text = some (before, after)) :
    text = before ++ separator ++ after := by
  induction text generalizing before with
  | nil => cases found
  | cons first rest ih =>
    rw [cutText] at found
    split at found
    · next starts =>
      cases found
      obtain ⟨tail, same⟩ := isPrefixOf_iff_prefix.mp starts
      rw [← same, drop_left, nil_append]
    · obtain ⟨⟨front, back⟩, cut, same⟩ := Option.map_eq_some_iff.mp found
      cases same
      rw [ih cut]
      rfl

/-- A line of the response, from a position on. -/
def IsLine (data : List Byte) (start : Nat) (line : List Byte) : Prop :=
  ∃ rest, data.drop start = line ++ lineEnd ++ rest

theorem IsLine.bound {data line : List Byte} {start : Nat} (isLine : IsLine data start line) :
    start + line.length + 2 ≤ data.length := by
  obtain ⟨rest, same⟩ := isLine
  have length := congrArg List.length same
  rw [length_drop, length_append, length_append, lineEnd_length] at length
  omega

theorem IsLine.lineEnd_at {data line : List Byte} {start : Nat} (isLine : IsLine data start line) :
    (data.drop (start + line.length)).take 2 = lineEnd := by
  obtain ⟨rest, same⟩ := isLine
  rw [← drop_drop, same, append_assoc, drop_left]
  exact take_left' lineEnd_length

namespace HTTPResponseParser

/-- The parser stands at its index in the response. -/
structure Reads (data : List Byte) (parser : HTTPResponseParser) : Prop where
  place : data.drop parser.currentByteIdx = parser.remaining
  bound : parser.currentByteIdx ≤ data.length

variable {data line : List Byte} {parser next : HTTPResponseParser} {strictFraming : Bool}

theorem getLine_eq (found : parser.getLine = some (line, next)) :
    ∃ rest, parser.remaining = line ++ lineEnd ++ rest ∧
      next = { parser with
        remaining := rest
        currentByteIdx := parser.currentByteIdx + line.length + 2 } := by
  obtain ⟨⟨front, rest⟩, cut, same⟩ := Option.map_eq_some_iff.mp found
  cases same
  exact ⟨rest, cutText_eq cut, rfl⟩

theorem Reads.getLine (reads : Reads data parser) (found : parser.getLine = some (line, next)) :
    ∃ rest,
      next = { parser with
        remaining := rest
        currentByteIdx := parser.currentByteIdx + line.length + 2 } ∧
      Reads data next ∧ IsLine data parser.currentByteIdx line := by
  obtain ⟨rest, split, rfl⟩ := getLine_eq found
  have isLine : IsLine data parser.currentByteIdx line := ⟨rest, reads.place.trans split⟩
  refine ⟨rest, rfl, ⟨?_, isLine.bound⟩, isLine⟩
  rw [Nat.add_assoc, ← drop_drop, reads.place, split]
  exact drop_left' (by rw [length_append, lineEnd_length])

/-! ### Header section -/

def HeaderLine (strictFraming : Bool) (data : List Byte) (key : List Byte) (range : Span) : Prop :=
  ∃ (start : Nat) (line before : List Byte) (valueStart : Nat), IsLine data start line ∧
    splitHeaderLine strictFraming line = .ok (some (before, valueStart)) ∧ toLower before = key ∧
    range = { start := start, length := line.length }

/-- The name and the delimiter of a header line, or its line end. -/
def HeaderSyntax (data : List Byte) (range : Span) : Prop :=
  ∃ (start : Nat) (line before : List Byte) (valueStart : Nat), IsLine data start line ∧
    splitHeaderLine true line = .ok (some (before, valueStart)) ∧
    (range = { start := start, length := valueStart } ∨
      range = { start := start + line.length, length := 2 })

theorem splitHeaderLine_bound {before : List Byte} {valueStart : Nat}
    (split_ : splitHeaderLine strictFraming line = .ok (some (before, valueStart))) :
    valueStart ≤ line.length := by
  unfold splitHeaderLine at split_
  split at split_
  · split at split_
    · cases split_
    rename_i name rest cut
    simp only [eq_ok_iff] at split_
    obtain ⟨_, _, _, _, same⟩ := split_
    cases same
    have blanks : (rest.takeWhile fun byte => byte = char ' ' || byte = char '\t').length ≤
        rest.length := ( takeWhile_prefix _).length_le
    have colon : (ascii ":").length = 1 := by
      decide
    rw [cutText_eq cut, length_append, length_append]
    omega
  · rw [pure_eq_ok_iff] at split_
    obtain ⟨⟨name, rest⟩, cut, same⟩ := Option.map_eq_some_iff.mp split_
    cases same
    have colon : (ascii ": ").length = 2 := by
      decide
    rw [cutText_eq cut, length_append, length_append]
    dsimp only
    omega

theorem HeaderLine.bound {key : List Byte} {range : Span}
    (isHeader : HeaderLine strictFraming data key range) :
    0 ≤ range.start ∧ 0 ≤ range.length ∧ range.stop + 2 ≤ data.length := by
  obtain ⟨start, line, _, _, isLine, _, _, rfl⟩ := isHeader
  have bound := isLine.bound
  unfold Span.stop
  dsimp only
  omega

theorem HeaderSyntax.bound {range : Span} (isSyntax : HeaderSyntax data range) :
    0 ≤ range.start ∧ 0 ≤ range.length ∧ range.stop ≤ data.length := by
  obtain ⟨start, line, before, valueStart, isLine, split_, rfl | rfl⟩ := isSyntax
  · have bound := isLine.bound
    have value := splitHeaderLine_bound split_
    unfold Span.stop
    dsimp only
    omega
  · have bound := isLine.bound
    unfold Span.stop
    dsimp only
    omega

/-- The header section as far as it is read. -/
structure Heading (strictFraming : Bool) (data : List Byte) (response : HTTPParsedResponse)
    (index : Nat) : Prop where
  status : response.statusCode ≠ 0 →
    0 < response.statusLineEndIndex ∧ response.statusLineEndIndex + 2 ≤ index
  lines : ∀ entry ∈ response.headerLowerToRanges,
    HeaderLine strictFraming data entry.1 entry.2 ∧ entry.2.stop ≤ index
  framing : ∀ span ∈ response.headerFraming,
    HeaderSyntax data span ∧ span.stop ≤ index ∧ strictFraming = true

/-- No part of the body is read yet. -/
structure Bodiless (response : HTTPParsedResponse) : Prop where
  body : response.body = []
  chunks : response.chunks = []
  chunkFraming : response.chunkFraming = []
  chunked : response.chunked = false

theorem Heading.later {response : HTTPParsedResponse} {index later : Nat}
    (heading : Heading strictFraming data response index) (behind : index ≤ later) :
    Heading strictFraming data response later where
  status known := by
    obtain ⟨positive, bound⟩ := heading.status known
    exact ⟨positive, by omega⟩
  lines entry member := by
    obtain ⟨isHeader, bound⟩ := heading.lines entry member
    exact ⟨isHeader, by omega⟩
  framing span member := by
    obtain ⟨isSyntax, bound, strict⟩ := heading.framing span member
    exact ⟨isSyntax, by omega, strict⟩

section Heading

variable (reads : Reads data parser)
  (heading : Heading strictFraming data parser.response parser.currentByteIdx)
include reads heading

theorem parseStatusLine_heading {start : Nat}
    (index : parser.currentByteIdx = start + line.length + 2)
    (parsed : parser.parseStatusLine line = .ok next) :
    Heading strictFraming data next.response next.currentByteIdx ∧ Reads data next ∧
      (Bodiless parser.response → Bodiless next.response) := by
  unfold parseStatusLine at parsed
  split at parsed
  · cases parsed
  rename_i front rest cut
  have blank : (ascii " ").length = 1 := by
    decide
  have length := congrArg List.length (cutText_eq cut)
  rw [length_append, length_append] at length
  dsimp only at parsed
  split at parsed
  · cases parsed
  cases parsed
  refine ⟨⟨fun _ => ?_, heading.lines, heading.framing⟩, ⟨reads.place, reads.bound⟩,
    fun bodiless => ⟨bodiless.body, bodiless.chunks, bodiless.chunkFraming, bodiless.chunked⟩⟩
  dsimp only
  omega

theorem parseHeaderLine_heading {start : Nat}
    (isLine : IsLine data start line) (index : parser.currentByteIdx = start + line.length + 2)
    (parsed : parseHeaderLine strictFraming parser line = .ok next) :
    Heading strictFraming data next.response next.currentByteIdx ∧ Reads data next ∧
      next.response.statusCode = parser.response.statusCode ∧
      (Bodiless parser.response → Bodiless next.response) := by
  unfold parseHeaderLine at parsed
  rw [bind_eq_ok_iff] at parsed
  obtain ⟨found, split_, parsed⟩ := parsed
  cases found with
  | none =>
    cases parsed
    exact ⟨heading, reads, rfl, id⟩
  | some entry =>
    obtain ⟨before, valueStart⟩ := entry
    simp only [eq_ok_iff] at parsed
    obtain ⟨_, _, rfl⟩ := parsed
    have value := splitHeaderLine_bound split_
    have lineStart : (parser.currentByteIdx : Int) - line.length - 2 = start := by
      omega
    refine ⟨⟨heading.status, ?_, ?_⟩, ⟨reads.place, reads.bound⟩, rfl,
      fun bodiless => ⟨bodiless.body, bodiless.chunks, bodiless.chunkFraming, bodiless.chunked⟩⟩
    · refine forall_mem_cons.mpr ⟨⟨?_, ?_⟩, heading.lines⟩
      · exact ⟨start, line, before, valueStart, isLine, split_, rfl, by rw [lineStart]⟩
      · unfold Span.stop
        dsimp only
        omega
    · refine forall_mem_append.mpr ⟨heading.framing, ?_⟩
      rw [lineStart]
      intro span member
      split at member
      · next strict =>
        rw [strict] at split_
        rcases mem_cons.mp member with rfl | member
        · refine ⟨⟨start, line, before, valueStart, isLine, split_, Or.inl rfl⟩, ?_, strict⟩
          unfold Span.stop
          dsimp only
          omega
        · rw [mem_singleton.mp member]
          refine ⟨⟨start, line, before, valueStart, isLine, split_, Or.inr rfl⟩, ?_, strict⟩
          unfold Span.stop
          dsimp only
          omega
      · cases member

/-- The header section is complete, and what follows it is known. -/
structure Opened (strictFraming : Bool) (data : List Byte) (parser : HTTPResponseParser) : Prop where
  heading : Heading strictFraming data parser.response parser.currentByteIdx
  status : parser.response.statusCode ≠ 0
  headerEnd : parser.response.headerEndIdx = parser.response.bodyStartIndex - 4
  bodyStart : parser.response.bodyStartIndex = parser.currentByteIdx
  reads : Reads data parser
  body : parser.response.body = []
  chunks : parser.response.chunks = []
  chunkFraming : parser.response.chunkFraming = []
  remaining : parser.response.chunked = true → parser.remainingBodyBytes = 0

theorem finishHeaders_opened
    (status : parser.response.statusCode ≠ 0) (bodiless : Bodiless parser.response)
    (finished : finishHeaders strictFraming parser = .ok next) :
    Opened strictFraming data next := by
  unfold finishHeaders at finished
  simp only [eq_ok_iff] at finished
  obtain ⟨_, _, isChunked, _, finished⟩ := finished
  have heading' : Heading strictFraming data { parser.response with
      headerEndIdx := parser.currentByteIdx - 4
      bodyStartIndex := parser.currentByteIdx } parser.currentByteIdx :=
    ⟨heading.status, heading.lines, heading.framing⟩
  split at finished
  · cases finished
    exact ⟨⟨heading.status, heading.lines, heading.framing⟩, status, rfl, rfl,
      ⟨reads.place, reads.bound⟩, bodiless.body, bodiless.chunks, bodiless.chunkFraming,
      fun _ => rfl⟩
  · rw [bind_eq_ok_iff] at finished
    obtain ⟨length, _, finished⟩ := finished
    have unchunked : parser.response.chunked = true → False := by
      rw [bodiless.chunked]
      exact Bool.false_ne_true
    cases length with
    | none | some =>
      cases finished
      exact ⟨heading', status, rfl, rfl, ⟨reads.place, reads.bound⟩, bodiless.body,
        bodiless.chunks, bodiless.chunkFraming, fun chunked => (unchunked chunked).elim⟩

end Heading

/-- What holds between the lines of the header section. -/
structure Begun (strictFraming : Bool) (data : List Byte) (parser : HTTPResponseParser) : Prop where
  reads : Reads data parser
  heading : Heading strictFraming data parser.response parser.currentByteIdx
  bodiless : Bodiless parser.response

theorem Begun.turn (begun : Begun strictFraming data parser)
    {turn : Loop.Turn HTTPResponseParser (Option HTTPResponseParser)}
    (turned : headersTurn strictFraming parser = .ok turn) :
    turn.Meets (Begun strictFraming data)
      fun result => ∀ next, result = some next → Opened strictFraming data next := by
  unfold headersTurn at turned
  cases found : parser.getLine with
  | none =>
    rw [found] at turned
    cases turned
    nofun
  | some read =>
    obtain ⟨line, behind⟩ := read
    rw [found] at turned
    dsimp only at turned
    obtain ⟨rest, rfl, reads, isLine⟩ := begun.reads.getLine found
    have heading := begun.heading.later (Nat.le_add_right _ (line.length + 2))
    split at turned
    · simp only [eq_ok_iff] at turned
      obtain ⟨status, parsed, rfl⟩ := turned
      obtain ⟨headed, read, kept⟩ := parseStatusLine_heading reads heading rfl parsed
      exact ⟨read, headed, kept begun.bodiless⟩
    · next known =>
      split at turned
      · simp only [eq_ok_iff] at turned
        obtain ⟨finished, done, rfl⟩ := turned
        rintro _ ⟨⟩
        exact finishHeaders_opened reads heading known begun.bodiless done
      · simp only [eq_ok_iff] at turned
        obtain ⟨header, parsed, rfl⟩ := turned
        obtain ⟨headed, read, _, kept⟩ := parseHeaderLine_heading reads heading isLine rfl parsed
        exact ⟨read, headed, kept begun.bodiless⟩

theorem newHTTPResponseParser_opened
    (processed : processHeaders strictFraming (newHTTPResponseParser data) = .ok (some next)) :
    Opened strictFraming data next := by
  have begun : Begun strictFraming data (newHTTPResponseParser data) :=
    ⟨⟨rfl, Nat.zero_le _⟩, ⟨fun known => absurd rfl known, nofun, nofun⟩, ⟨rfl, rfl, rfl, rfl⟩⟩
  exact Loop.iterate_rule (fun _ _ begun => begun.turn) begun processed next rfl

end HTTPResponseParser

end ReclaimTee.Providers
