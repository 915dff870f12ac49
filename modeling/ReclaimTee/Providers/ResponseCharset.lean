/-
The decoded view of a response body. Every rune keeps the raw bytes it was made
of; the mapper packs neighbouring runes of one shape into segments and finds raw
offsets in them. Charsets other than UTF-8 are a parameter.
-/

import ReclaimTee.Providers.ResponseParser

namespace ReclaimTee.Providers

/-- A rune of the decoded text with its place there and in the raw body. -/
structure Rune where
  decodedStart : Nat
  decodedEnd : Nat
  rawStart : Nat
  rawEnd : Nat
deriving DecidableEq, Repr

structure DecodedSourceSegment where
  decodedStart : Nat
  decodedEnd : Nat
  rawStart : Nat
  rawEnd : Nat
  decodedUnit : Nat
  rawUnit : Nat
deriving DecidableEq, Repr

/-- Adds a rune to the segments, of which the last comes first. -/
def appendDecodedSourceSegment (segments : List DecodedSourceSegment) (rune : Rune) :
    List DecodedSourceSegment :=
  let decodedUnit := rune.decodedEnd - rune.decodedStart
  let rawUnit := rune.rawEnd - rune.rawStart
  if decodedUnit = 0 ∨ rawUnit = 0 then
    segments
  else
    let fresh : DecodedSourceSegment :=
      { decodedStart := rune.decodedStart
        decodedEnd := rune.decodedEnd
        rawStart := rune.rawStart
        rawEnd := rune.rawEnd
        decodedUnit := decodedUnit
        rawUnit := rawUnit }
    match segments with
    | [] => [fresh]
    | previous :: rest =>
      if previous.decodedEnd = rune.decodedStart ∧ previous.rawEnd = rune.rawStart ∧
          previous.decodedUnit = decodedUnit ∧ previous.rawUnit = rawUnit then
        { previous with decodedEnd := rune.decodedEnd, rawEnd := rune.rawEnd } :: rest
      else
        fresh :: previous :: rest

structure DecodedResponseBody where
  text : List Byte
  runes : List Rune
  rawLength : Nat
deriving DecidableEq, Repr

namespace DecodedResponseBody

def segments (body : DecodedResponseBody) : List DecodedSourceSegment :=
  (body.runes.foldl appendDecodedSourceSegment []).reverse

def decodedLength (body : DecodedResponseBody) : Nat :=
  body.text.length

/-- The first segment with a property, and the segment in front of it. -/
def search (test : DecodedSourceSegment → Bool) :
    Option DecodedSourceSegment → List DecodedSourceSegment →
      Option (Option DecodedSourceSegment × DecodedSourceSegment)
  | _, [] => none
  | previous, segment :: rest =>
    if test segment then some (previous, segment) else search test (some segment) rest

def rawOffsetLeft (body : DecodedResponseBody) (decodedOffset : Nat) : Nat :=
  if decodedOffset = 0 then 0
  else if body.segments = [] then 0
  else if body.decodedLength < decodedOffset then body.rawLength
  else
    match search (fun segment => decodedOffset ≤ segment.decodedEnd) none body.segments with
    | none => (body.segments.getLast?.map DecodedSourceSegment.rawEnd).getD 0
    | some (previous, segment) =>
      if decodedOffset ≤ segment.decodedStart then
        match previous with
        | none => segment.rawStart
        | some previous =>
          if previous.decodedEnd = decodedOffset then previous.rawEnd else segment.rawStart
      else
        segment.rawStart +
          (decodedOffset - segment.decodedStart) / segment.decodedUnit * segment.rawUnit

def rawOffsetRight (body : DecodedResponseBody) (decodedOffset : Nat) : Nat :=
  if body.decodedLength ≤ decodedOffset then body.rawLength
  else if body.segments = [] then body.rawLength
  else
    match search (fun segment => decodedOffset < segment.decodedEnd) none body.segments with
    | none => body.rawLength
    | some (_, segment) =>
      if decodedOffset ≤ segment.decodedStart then
        segment.rawStart
      else
        segment.rawStart +
          (decodedOffset - segment.decodedStart) / segment.decodedUnit * segment.rawUnit

def rawRange (body : DecodedResponseBody) (decodedStart decodedEnd : Int) :
    Except String (Nat × Nat) := do
  rejectIf (decodedStart < 0 ∨ decodedEnd < decodedStart ∨ (body.text.length : Int) < decodedEnd)
    s!"decoded response range [{decodedStart}:{decodedEnd}] exceeds body length {body.text.length}"
  let rawStart := body.rawOffsetRight decodedStart.toNat
  let rawEnd := body.rawOffsetLeft decodedEnd.toNat
  rejectIf (rawEnd < rawStart ∨ body.rawLength < rawEnd)
    (s!"decoded response range [{decodedStart}:{decodedEnd}] maps to " ++
      s!"invalid raw range [{rawStart}:{rawEnd}]")
  return (rawStart, rawEnd)

def write (body : DecodedResponseBody) (bytes : List Byte) (rawStart rawEnd : Nat) :
    DecodedResponseBody :=
  { body with
    text := body.text ++ bytes
    runes := body.runes ++
      [{ decodedStart := body.text.length
         decodedEnd := body.text.length + bytes.length
         rawStart := rawStart
         rawEnd := rawEnd }] }

end DecodedResponseBody

/-! ### UTF-8 -/

/-- The first rune of a text: the bytes written for it, and how many are read. -/
def decodeRune (raw : List Byte) : List Byte × Nat :=
  match Utf8.runeLength raw with
  | some size => (raw.take size, size)
  | none => (replacementCharacter, 1)

/-- The runes of a text from a raw position on; the fuel is its length. -/
def decodeUTF8From : Nat → List Byte → Nat → DecodedResponseBody → DecodedResponseBody
  | 0, _, _, body => body
  | _ + 1, [], _, body => body
  | fuel + 1, first :: rest, rawStart, body =>
    let (bytes, size) := decodeRune (first :: rest)
    decodeUTF8From fuel ((first :: rest).drop size) (rawStart + size)
      (body.write bytes rawStart (rawStart + size))

def decodeUTF8ResponseBody (raw : List Byte) : DecodedResponseBody :=
  let rawStart := if raw.take 3 = [0xef#8, 0xbb#8, 0xbf#8] then 3 else 0
  decodeUTF8From raw.length (raw.drop rawStart) rawStart
    { text := [], runes := [], rawLength := raw.length }

/-! ### Other charsets -/

inductive TransformError where
  | nil
  | shortDst
  | shortSrc
  | other (text : String)
deriving DecidableEq, Repr

/-- What a call of a transformer returns, with the state it is left in. -/
structure Transformed (State : Type) where
  written : List Byte
  nSrc : Nat
  error : TransformError
  state : State

/-- The decoder of a charset: a transformer with its initial state. The arguments are the
room for output, the source and whether it is the end. -/
structure Decoder where
  State : Type
  initial : State
  transform : State → Nat → List Byte → Bool → Transformed State

namespace Decoder

/-- What a call may return for a source of a length: only source is read, no rune is written
before any is read, source that is too short is not read to its end, and other source without
an error is. -/
structure Read (length : Nat) {State : Type} (result : Transformed State) : Prop where
  source : result.nSrc ≤ length
  reads : result.written ≠ [] → 0 < result.nSrc
  short : result.error = .shortSrc → result.nSrc < length
  whole : result.error = .nil → result.nSrc = length

/-- The laws of a decoder hold for a source that is not empty. It may write without a source:
the replacement decoder does at the end. -/
def Lawful (decoder : Decoder) : Prop :=
  ∀ state width source atEOF, source ≠ [] →
    Read source.length (decoder.transform state width source atEOF)

/-- Gives a rune no more room than it needs. -/
def transformResponseRune (decoder : Decoder) (state : decoder.State) (source : List Byte)
    (atEOF : Bool) : Transformed decoder.State :=
  let first := decoder.transform state 1 source atEOF
  if first.error ≠ .shortDst ∨ first.written ≠ [] then first else
  let second := decoder.transform first.state 2 source atEOF
  if second.error ≠ .shortDst ∨ second.written ≠ [] then second else
  let third := decoder.transform second.state 3 source atEOF
  if third.error ≠ .shortDst ∨ third.written ≠ [] then third else
  decoder.transform third.state 4 source atEOF

/-- The variables of the loop over the raw bytes. -/
structure Progress (decoder : Decoder) where
  state : decoder.State
  unconsumedStart : Nat
  spanStart : Nat
  spanActive : Bool
  body : DecodedResponseBody

/-- What a call wrote, and the span it belongs to. -/
def take (decoder : Decoder) (progress : decoder.Progress)
    (result : Transformed decoder.State) : decoder.Progress :=
  let unconsumedStart := progress.unconsumedStart + result.nSrc
  if result.written = [] then
    { progress with state := result.state, unconsumedStart := unconsumedStart }
  else
    { state := result.state
      unconsumedStart := unconsumedStart
      spanStart := unconsumedStart
      spanActive := false
      body := progress.body.write result.written progress.spanStart unconsumedStart }

/-- The calls for one more raw byte; the fuel bounds those that only ran out of room. -/
def consume (decoder : Decoder) (raw : List Byte) (availableEnd : Nat) :
    Nat → decoder.Progress → Except String decoder.Progress
  | 0, _ => .error "charset decoder does not read"
  | fuel + 1, progress =>
    let source := (raw.take availableEnd).drop progress.unconsumedStart
    let atEOF := decide (availableEnd = raw.length)
    let result := decoder.transformResponseRune progress.state source atEOF
    let next := decoder.take progress result
    match result.error with
    | .nil =>
      .ok (if result.written = [] then
        { next with spanStart := next.unconsumedStart, spanActive := false }
      else
        next)
    | .shortSrc =>
      .ok (if atEOF then
        { next with
          body := if next.spanActive then
            next.body.write replacementCharacter next.spanStart raw.length
          else
            next.body
          unconsumedStart := raw.length
          spanActive := false }
      else
        next)
    | .shortDst =>
      if result.written = [] then
        .error "charset decoder output buffer exhausted"
      else if next.unconsumedStart < availableEnd then
        consume decoder raw availableEnd fuel
          { next with spanStart := next.unconsumedStart, spanActive := true }
      else
        .ok { next with spanActive := false }
    | .other text => .error s!"charset decoding failed: {text}"

/-- One more raw byte becomes available. -/
def advance (decoder : Decoder) (raw : List Byte) (progress : decoder.Progress)
    (consumed : Nat) : Except String decoder.Progress :=
  decoder.consume raw (consumed + 1) (raw.length + 1)
    (if progress.spanActive then progress
    else { progress with spanStart := progress.unconsumedStart, spanActive := true })

end Decoder

def decodeEncodedResponseBody (raw : List Byte) (decoder : Decoder) :
    Except String DecodedResponseBody := do
  let progress ← (List.range raw.length).foldlM (decoder.advance raw)
    { state := decoder.initial
      unconsumedStart := 0
      spanStart := 0
      spanActive := false
      body := { text := [], runes := [], rawLength := raw.length } }
  return progress.body

/-- The tables of the charset package: a label's decoder and its canonical name, and the
charset that a content type names. -/
structure Charsets where
  responseBodyCharset : List Byte → List Byte
  get : List Byte → Except String (Decoder × List Byte)

def shiftRaw (rawPrefix : Nat) (body : DecodedResponseBody) : DecodedResponseBody :=
  { body with
    runes := body.runes.map fun rune =>
      { rune with rawStart := rune.rawStart + rawPrefix, rawEnd := rune.rawEnd + rawPrefix }
    rawLength := body.rawLength + rawPrefix }

def byteOrderMark (canonical : List Byte) : Option (List Byte) :=
  if canonical = ascii "utf-16le" then some [0xff#8, 0xfe#8]
  else if canonical = ascii "utf-16be" then some [0xfe#8, 0xff#8]
  else none

def decodeResponseBody (charsets : Charsets) (raw charset : List Byte) :
    Except String DecodedResponseBody :=
  let label := trimSpace charset
  if label = [] then
    .ok (decodeUTF8ResponseBody raw)
  else
    match charsets.get label with
    | .error text => .error s!"unsupported charset \"{display charset}\": {text}"
    | .ok (decoder, canonical) =>
      if canonical = ascii "utf-8" then
        .ok (decodeUTF8ResponseBody raw)
      else if byteOrderMark canonical = some (raw.take 2) then do
        let body ← decodeEncodedResponseBody (raw.drop 2) decoder
        return shiftRaw 2 body
      else
        decodeEncodedResponseBody raw decoder

end ReclaimTee.Providers
