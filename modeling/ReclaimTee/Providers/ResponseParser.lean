/-
The parser of HTTP responses, fed with the whole response and then told that the
stream has ended. Strict framing, for CBC sessions, refuses malformed or ambiguous
framing. Header maps are lists with the latest entry first, and loops have more
turns than there are bytes left.
-/

import ReclaimTee.Loop
import ReclaimTee.Providers.Request

namespace ReclaimTee.Providers

/-! ### Texts -/

def digitValue (base : Nat) (byte : Byte) : Option Nat :=
  if isHex byte ∧ unhex byte < base then some (unhex byte) else none

def parseUint (base : Nat) (digits : List Byte) : Option Nat :=
  if digits = [] then
    none
  else
    digits.foldlM (fun value digit => (digitValue base digit).map (value * base + ·)) 0

/-- A signed number that fits into 64 bits. -/
def parseInt (base : Nat) (text : List Byte) : Option Int :=
  match text with
  | [] => none
  | first :: rest =>
    if first = char '-' then do
      let magnitude ← parseUint base rest
      if magnitude ≤ 2 ^ 63 then some (-magnitude) else none
    else do
      let magnitude ← parseUint base (if first = char '+' then rest else text)
      if magnitude < 2 ^ 63 then some magnitude else none

/-- The error of strconv: a text is read up to a byte that is no digit, or until its
number has more than 64 bits. -/
def numError (function : String) (base : Nat) (text : List Byte) : String :=
  let signed := text.head? = some (char '-') ∨ text.head? = some (char '+')
  let digits := if signed then text.tail else text
  let known := digits.takeWhile fun digit => (digitValue base digit).isSome
  let reason :=
    if known = digits ∧ digits ≠ [] ∨ 2 ^ 64 ≤ (parseUint base known).getD 0 then
      "value out of range"
    else
      "invalid syntax"
  s!"strconv.{function}: parsing \"{display text}\": {reason}"

/-! ### Parser state -/

structure HTTPParsedResponse where
  statusCode : Int
  statusMessage : List Byte
  statusLineEndIndex : Int
  headerEndIdx : Int
  bodyStartIndex : Int
  body : List Byte
  headerLowerToRanges : List (List Byte × Span)
  headerFraming : List Span
  headers : Values
  chunked : Bool
  chunks : List Span
  chunkFraming : List Span
deriving DecidableEq, Repr

structure HTTPResponseParser where
  response : HTTPParsedResponse
  remainingBodyBytes : Int
  chunkNeedsCRLF : Bool
  finalChunkSeen : Bool
  complete : Bool
  remaining : List Byte
  currentByteIdx : Nat
deriving DecidableEq, Repr

namespace HTTPResponseParser

def newHTTPResponseParser (data : List Byte) : HTTPResponseParser where
  response :=
    { statusCode := 0
      statusMessage := []
      statusLineEndIndex := -1
      headerEndIdx := -1
      bodyStartIndex := -1
      body := []
      headerLowerToRanges := []
      headerFraming := []
      headers := []
      chunked := false
      chunks := []
      chunkFraming := [] }
  remainingBodyBytes := 0
  chunkNeedsCRLF := false
  finalChunkSeen := false
  complete := false
  remaining := data
  currentByteIdx := 0

def getLine (parser : HTTPResponseParser) : Option (List Byte × HTTPResponseParser) :=
  (cutText (ascii "\r\n") parser.remaining).map fun (line, rest) =>
    (line, { parser with
      remaining := rest
      currentByteIdx := parser.currentByteIdx + line.length + 2 })

/-! ### Header section -/

def parseStatusLine (parser : HTTPResponseParser) (line : List Byte) :
    Except String HTTPResponseParser :=
  match cutText (ascii " ") line with
  | none => .error s!"invalid HTTP status line: {display line}"
  | some (_, rest) =>
    let (code, message) := (cutText (ascii " ") rest).getD (rest, [])
    match parseInt 10 code with
    | none => .error (s!"invalid status code {display code}: " ++ numError "Atoi" 10 code)
    | some statusCode =>
      .ok { parser with
        response := { parser.response with
          statusCode := statusCode
          statusMessage := message
          statusLineEndIndex := parser.currentByteIdx - 2 } }

def validHTTPResponseHeaderName (name : List Byte) : Bool :=
  validHTTPHeaderName name

/-- The length of the name and the start of the value in a header line. The lenient
parser leaves out lines without a separator. -/
def splitHeaderLine (strictFraming : Bool) (line : List Byte) :
    Except String (Option (List Byte × Nat)) :=
  if strictFraming then
    match cutText (ascii ":") line with
    | none => .error "invalid HTTP response header line"
    | some (before, rest) => do
        rejectIf (before = []) "invalid HTTP response header line"
        rejectIf (validHTTPResponseHeaderName before = false) "invalid HTTP response header name"
        let blanks := rest.takeWhile fun byte => byte = char ' ' || byte = char '\t'
        return some (before, before.length + 1 + blanks.length)
  else
    return (cutText (ascii ": ") line).map fun parts => (parts.1, parts.1.length + 2)

def parseHeaderLine (strictFraming : Bool) (parser : HTTPResponseParser) (line : List Byte) :
    Except String HTTPResponseParser := do
  match ← splitHeaderLine strictFraming line with
  | none => return parser
  | some (before, valueStart) =>
    let key := toLower before
    rejectIf (strictFraming = true ∧
        (key = ascii "content-length" ∨ key = ascii "transfer-encoding") ∧
        (parser.response.headers.lookup key).isSome = true)
      s!"duplicate HTTP response framing header \"{display key}\""
    let lineStart : Int := parser.currentByteIdx - line.length - 2
    return { parser with
      response := { parser.response with
        headers := (key, line.drop valueStart) :: parser.response.headers
        headerLowerToRanges :=
          (key, { start := lineStart, length := line.length }) ::
            parser.response.headerLowerToRanges
        headerFraming := parser.response.headerFraming ++
          if strictFraming then
            [{ start := lineStart, length := valueStart },
              { start := lineStart + line.length, length := 2 }]
          else [] } }

def header (response : HTTPParsedResponse) (name : String) : List Byte :=
  (response.headers.lookup (ascii name)).getD []

/-- Whether chunked is the last transfer coding, by the strict parser. -/
def strictChunked : List (List Byte) → Except String Bool
  | [] => .ok false
  | coding :: rest =>
    if trimSpace coding = [] then
      .error "HTTP response contains an invalid Transfer-Encoding"
    else if trimSpace coding = ascii "chunked" then
      if rest ≠ [] then
        .error "HTTP response contains invalid Transfer-Encoding order"
      else
        .ok true
    else
      strictChunked rest

def transferChunked (strictFraming : Bool) (transferEncoding : List Byte) : Except String Bool :=
  if strictFraming = true ∧ transferEncoding ≠ [] then
    strictChunked ((toLower transferEncoding).splitOn (char ','))
  else
    .ok (contains (toLower transferEncoding) (ascii "chunked"))

/-- The length of the body: none means that it ends with the stream. -/
def bodyLength (strictFraming : Bool) (contentLength : List Byte) : Except String (Option Int) := do
  if contentLength = [] then
    return none
  else
    let invalid := s!"invalid Content-Length {display contentLength}"
    rejectIf (strictFraming = true ∧ contentLength.all isDigit = false) invalid
    match parseInt 10 contentLength with
    | none => .error (s!"{invalid}: " ++ numError "ParseInt" 10 contentLength)
    | some length =>
      rejectIf (length < 0) s!"{invalid}: negative values not allowed"
      return some length

def finishHeaders (strictFraming : Bool) (parser : HTTPResponseParser) :
    Except String HTTPResponseParser := do
  let response := { parser.response with
    headerEndIdx := parser.currentByteIdx - 4
    bodyStartIndex := parser.currentByteIdx }
  let transferEncoding := header response "transfer-encoding"
  let contentLength := header response "content-length"
  rejectIf (strictFraming = true ∧ transferEncoding ≠ [] ∧ contentLength ≠ [])
    "HTTP response contains both Transfer-Encoding and Content-Length"
  let isChunked ← transferChunked strictFraming transferEncoding
  if isChunked then
    return { parser with response := { response with chunked := true }, remainingBodyBytes := 0 }
  else
    match ← bodyLength strictFraming contentLength with
    | none => return { parser with response := response, remainingBodyBytes := -1 }
    | some length =>
      return { parser with
        response := response
        remainingBodyBytes := length
        complete := decide (length = 0) }

def headersTurn (strictFraming : Bool) (parser : HTTPResponseParser) :
    Except String (Loop.Turn HTTPResponseParser (Option HTTPResponseParser)) :=
  match parser.getLine with
  | none => .ok (.break none)
  | some (line, parser) =>
    if parser.response.statusCode = 0 then do
      let parser ← parser.parseStatusLine line
      return .continue parser
    else if line = [] then do
      let parser ← finishHeaders strictFraming parser
      return .break (some parser)
    else do
      let parser ← parseHeaderLine strictFraming parser line
      return .continue parser

/-- None when the data ends within the header section. -/
def processHeaders (strictFraming : Bool) (parser : HTTPResponseParser) :
    Except String (Option HTTPResponseParser) :=
  Loop.iterate (headersTurn strictFraming) (parser.remaining.length + 1) parser

/-! ### Body -/

def readBody (parser : HTTPResponseParser) (count : Nat) : HTTPResponseParser :=
  { parser with
    response := { parser.response with body := parser.response.body ++ parser.remaining.take count }
    remaining := parser.remaining.drop count
    currentByteIdx := parser.currentByteIdx + count }

def processFixedBody (parser : HTTPResponseParser) : HTTPResponseParser :=
  if parser.remainingBodyBytes = 0 then
    { parser with complete := true }
  else if parser.remaining = [] then
    parser
  else if parser.remainingBodyBytes = -1 then
    parser.readBody parser.remaining.length
  else
    let bytesToCopy := min parser.remainingBodyBytes.toNat parser.remaining.length
    let remainingBodyBytes := parser.remainingBodyBytes - bytesToCopy
    { parser.readBody bytesToCopy with
      remainingBodyBytes := remainingBodyBytes
      complete := decide (remainingBodyBytes = 0) }

def recordChunkFraming (parser : HTTPResponseParser) (start length : Int) : HTTPResponseParser :=
  if length ≤ 0 then
    parser
  else
    { parser with
      response := { parser.response with
        chunkFraming := parser.response.chunkFraming ++ [{ start := start, length := length }] } }

def validChunkSize (size : List Byte) : Bool :=
  size ≠ [] ∧ size.all isHex

abbrev Turn := Loop.Turn HTTPResponseParser HTTPResponseParser

def trailerTurn (parser : HTTPResponseParser) : Turn :=
  match parser.getLine with
  | none => .break parser
  | some (line, parser) =>
    let parser := parser.recordChunkFraming (parser.currentByteIdx - 2) 2
    if line = [] then .break { parser with complete := true } else .continue parser

def chunkEndTurn (parser : HTTPResponseParser) : Except String Turn :=
  if parser.remaining.length < 2 then
    .ok (.break parser)
  else if parser.remaining.take 2 ≠ ascii "\r\n" then
    .error "invalid chunk: missing CRLF after data"
  else
    let parser := parser.recordChunkFraming parser.currentByteIdx 2
    .ok (.continue { parser with
      remaining := parser.remaining.drop 2
      currentByteIdx := parser.currentByteIdx + 2
      chunkNeedsCRLF := false })

def chunkDataTurn (parser : HTTPResponseParser) : Turn :=
  let bytesToRead := min parser.remainingBodyBytes.toNat parser.remaining.length
  if bytesToRead = 0 then
    .break parser
  else
    let remainingBodyBytes := parser.remainingBodyBytes - bytesToRead
    let parser := { parser.readBody bytesToRead with remainingBodyBytes := remainingBodyBytes }
    if 0 < remainingBodyBytes then .break parser else .continue { parser with chunkNeedsCRLF := true }

/-- The size text of a chunk line, and how much of the line may be shown: all of it, or
up to the start of an extension. -/
def chunkSizeText (line : List Byte) : List Byte × Nat :=
  match cutText (ascii ";") line with
  | some (before, _) => (trimSpace before, before.length + 1)
  | none => (trimSpace line, line.length)

def chunkSizeTurn (strictFraming : Bool) (parser : HTTPResponseParser) : Except String Turn :=
  match parser.getLine with
  | none => .ok (.break parser)
  | some (line, parser) =>
    if line = [] then
      if strictFraming then .error "invalid chunk: empty size line" else .ok (.continue parser)
    else
      let (sizeStr, shown) := chunkSizeText line
      if strictFraming = true ∧ validChunkSize sizeStr = false then
        .error "invalid chunk size"
      else
        match parseInt 16 sizeStr with
        | none =>
          .error (s!"invalid chunk size {display sizeStr}: " ++ numError "ParseInt" 16 sizeStr)
        | some chunkSize =>
          if contains line sizeStr = false then
            .error "invalid chunk size position"
          else
            let lineStart : Int := parser.currentByteIdx - line.length - 2
            let parser := parser.recordChunkFraming lineStart shown
            let parser := parser.recordChunkFraming (parser.currentByteIdx - 2) 2
            if chunkSize = 0 then
              .ok (.continue { parser with finalChunkSeen := true })
            else
              .ok (.continue { parser with
                response := { parser.response with
                  chunks := parser.response.chunks ++
                    [{ start := parser.currentByteIdx, length := chunkSize }] }
                remainingBodyBytes := chunkSize })

def chunkTurn (strictFraming : Bool) (parser : HTTPResponseParser) : Except String Turn :=
  if parser.finalChunkSeen then .ok parser.trailerTurn
  else if parser.chunkNeedsCRLF then parser.chunkEndTurn
  else if 0 < parser.remainingBodyBytes then .ok parser.chunkDataTurn
  else chunkSizeTurn strictFraming parser

def processChunkedBody (strictFraming : Bool) (parser : HTTPResponseParser) :
    Except String HTTPResponseParser :=
  Loop.iterate (chunkTurn strictFraming) (parser.remaining.length + 1) parser

def processBody (strictFraming : Bool) (parser : HTTPResponseParser) :
    Except String HTTPResponseParser :=
  if parser.complete then .ok parser
  else if parser.response.chunked then processChunkedBody strictFraming parser
  else .ok parser.processFixedBody

def streamEnded (strictFraming : Bool) (parser : HTTPResponseParser) :
    Except String HTTPParsedResponse := do
  rejectIf (0 < parser.remainingBodyBytes) "stream ended before all body bytes were received"
  let strictChunks := strictFraming = true ∧ parser.response.chunked = true
  rejectIf (strictChunks ∧ parser.chunkNeedsCRLF = true) "stream ended before chunk data CRLF"
  rejectIf (strictChunks ∧ parser.finalChunkSeen = false)
    "stream ended before terminal zero chunk"
  rejectIf (strictChunks ∧ parser.complete = false)
    "stream ended before final chunk trailer terminator"
  if parser.remaining ≠ [] ∧ parser.remainingBodyBytes = -1 then
    return (parser.readBody parser.remaining.length).response
  else
    let body := if parser.response.chunked then "chunked response" else "Content-Length body"
    rejectIf (strictFraming = true ∧ parser.remaining ≠ [])
      s!"received trailing bytes after {body}"
    return parser.response

end HTTPResponseParser

def parseHTTPResponseBytesWithFraming (data : List Byte) (strictFraming : Bool) :
    Except String HTTPParsedResponse := do
  let parser := HTTPResponseParser.newHTTPResponseParser data
  match ← HTTPResponseParser.processHeaders strictFraming parser with
  | none => .error "stream ended before headers were complete"
  | some parser => do
      let parser ← parser.processBody strictFraming
      parser.streamEnded strictFraming

end ReclaimTee.Providers
