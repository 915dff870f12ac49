/-
Which parts of a response are redacted. What the rules select in the decoded body
becomes reveals of the response, and the rest is redacted; a reveal with a hash is
also a redaction of its own. The selectors are parameters.
-/

import ReclaimTee.Providers.ResponseCharset

namespace ReclaimTee.Providers

structure ResponseRedactionRange where
  span : Span
  hash : List Byte
deriving DecidableEq, Repr

structure ProviderCtx where
  version : Nat
  tls12CBC : Bool
deriving DecidableEq, Repr

def attestorVersion201 : Nat := 4

def attestorVersion320 : Nat := 7

def shouldRevealCrlf (ctx : ProviderCtx) : Bool :=
  attestorVersion201 ≤ ctx.version

def shouldRevealChunkFraming (ctx : ProviderCtx) : Bool :=
  attestorVersion320 ≤ ctx.version

/-! ### Selectors -/

structure IndexRange where
  start : Int
  stop : Int
deriving DecidableEq, Repr

/-- The names of the groups, and the places of the match and of its groups in a text.
A group that takes no part is at minus one. -/
structure Regex where
  subexpNames : List (List Byte)
  findStringSubmatchIndex : List Byte → Option (IndexRange × List IndexRange)

structure Selectors where
  extractHTMLElementsIndexes : List Byte → List Byte → Bool → Except String (List IndexRange)
  extractJSONValueIndexes : List Byte → List Byte → Except String (List IndexRange)
  makeRegex : List Byte → Except String Regex

/-- What a rule selects in one element: the match, and the group that is to be hashed. -/
structure Match where
  full : IndexRange
  group : Option (IndexRange × List Byte)
deriving DecidableEq, Repr

def window (text : List Byte) (range : IndexRange) : List Byte :=
  (text.drop range.start.toNat).take (range.stop - range.start).toNat

def IndexRange.shift (range : IndexRange) (distance : Int) : IndexRange where
  start := distance + range.start
  stop := distance + range.stop

def namedGroups (regex : Regex) (groups : List IndexRange) : List IndexRange :=
  ((regex.subexpNames.zip groups).filter fun group =>
    group.1 ≠ [] ∧ 0 ≤ group.2.start ∧ 0 ≤ group.2.stop).map Prod.snd

def windowMatch (selectors : Selectors) (text : List Byte) (rule : ResponseRedaction)
    (range : IndexRange) : Except String Match :=
  if rule.regex = [] then
    .ok { full := range, group := none }
  else do
    let regex ← selectors.makeRegex rule.regex
    match regex.findStringSubmatchIndex (window text range) with
    | none => .error "regexp does not match found element"
    | some (full, groups) =>
      match rule.hash with
      | none => return { full := full.shift range.start, group := none }
      | some hash =>
        match namedGroups regex groups with
        | [group] =>
          return { full := full.shift range.start, group := some (group.shift range.start, hash) }
        | _ => .error "exactly one named capture group is needed per hashed redaction"

/-! ### Positions in the response -/

def convertStartFrom (pos : Int) : Int → List Span → Int
  | _, [] => -1
  | chunkBodyStart, chunk :: rest =>
    if chunkBodyStart ≤ pos ∧ pos < chunkBodyStart + chunk.length then
      pos - chunkBodyStart + chunk.start
    else if pos = chunkBodyStart + chunk.length then
      match rest with
      | next :: _ => next.start
      | [] => chunk.stop
    else
      convertStartFrom pos (chunkBodyStart + chunk.length) rest

def convertResponseStartPosToAbsolute (pos bodyStartIdx : Int) (chunks : List Span) : Int :=
  if chunks = [] then bodyStartIdx + pos else convertStartFrom pos 0 chunks

def convertEndFrom (pos : Int) : Int → List Span → Int
  | _, [] => -1
  | chunkBodyStart, chunk :: rest =>
    if chunkBodyStart ≤ pos ∧ pos ≤ chunkBodyStart + chunk.length then
      chunk.start + (pos - chunkBodyStart)
    else
      convertEndFrom pos (chunkBodyStart + chunk.length) rest

def convertResponseEndPosToAbsolute (pos bodyStartIdx : Int) (chunks : List Span) : Int :=
  if chunks = [] then bodyStartIdx + pos else convertEndFrom pos 0 chunks

/-- The framing between chunks that a reveal spans. -/
def getRedactionsForChunkHeaders (start stop : Int) (chunks : List Span) : List Span :=
  (chunks.zip chunks.tail).filterMap fun (previous, chunk) =>
    if start < chunk.start ∧ chunk.start < stop then
      some { start := previous.stop, length := chunk.start - previous.stop }
    else
      none

def getReveal (startIdx stopIdx bodyStartIdx : Int) (chunks : List Span) (hash : List Byte) :
    ResponseRedactionRange :=
  let start := convertResponseStartPosToAbsolute startIdx bodyStartIdx chunks
  let stop := convertResponseEndPosToAbsolute stopIdx bodyStartIdx chunks
  { span := { start := start, length := stop - start }
    hash := hash }

/-! ### Reveals of a rule -/

structure RedactionItem where
  reveal : ResponseRedactionRange
  redactions : List Span
deriving DecidableEq, Repr

structure BodyPlace where
  body : DecodedResponseBody
  bodyStartIdx : Int
  chunks : List Span
  revealFraming : Bool

namespace BodyPlace

/-- A part that is shown; an empty part is left out. -/
def addRange (place : BodyPlace) (decodedStart decodedEnd : Int) :
    Except String (List RedactionItem) :=
  if decodedStart < 0 ∨ decodedEnd ≤ decodedStart then
    .ok []
  else do
    let (rawStart, rawEnd) ← place.body.rawRange decodedStart decodedEnd
    let reveal := getReveal rawStart rawEnd place.bodyStartIdx place.chunks []
    return [{ reveal := reveal
              redactions :=
                if place.revealFraming then []
                else getRedactionsForChunkHeaders reveal.span.start reveal.span.stop place.chunks }]

/-- A part that is hashed; it must not span chunks. -/
def addGroup (place : BodyPlace) (group : IndexRange) (hash : List Byte) :
    Except String RedactionItem := do
  let (rawStart, rawEnd) ← place.body.rawRange group.start group.stop
  let reveal := getReveal rawStart rawEnd place.bodyStartIdx place.chunks hash
  let chunkReds := getRedactionsForChunkHeaders reveal.span.start reveal.span.stop place.chunks
  rejectIf (chunkReds ≠ [])
    "hash redactions cannot be performed if the redacted string is split between 2 or more HTTP chunks"
  return { reveal := reveal, redactions := chunkReds }

/-- What is before or behind a hashed part. -/
def addRest (place : BodyPlace) (decodedStart decodedEnd : Int) :
    Except String (List RedactionItem) :=
  if decodedStart < decodedEnd then place.addRange decodedStart decodedEnd else .ok []

def addMatch (place : BodyPlace) (found : Match) : Except String (List RedactionItem) :=
  match found.group with
  | none => place.addRange found.full.start found.full.stop
  | some (group, hash) => do
      let before ← place.addRest found.full.start group.start
      let hashed ← place.addGroup group hash
      let after ← place.addRest group.stop found.full.stop
      return before ++ [hashed] ++ after

def applyRegexWindow (place : BodyPlace) (selectors : Selectors) (rule : ResponseRedaction)
    (range : IndexRange) : Except String (List RedactionItem) := do
  let found ← windowMatch selectors place.body.text rule range
  place.addMatch found

end BodyPlace

/-- Runs a rule's turn on an HTML element, or on the JSON values in it. -/
def forElement {α : Type} (selectors : Selectors) (text : List Byte) (rule : ResponseRedaction)
    (turn : IndexRange → Except String (List α)) (loc : IndexRange) : Except String (List α) :=
  if rule.jsonPath ≠ [] then do
    let jlocs ← selectors.extractJSONValueIndexes (window text loc) rule.jsonPath
    let found ← jlocs.mapM fun jsonLoc => turn (jsonLoc.shift loc.start)
    return found.flatten
  else
    turn loc

def forElements {α : Type} (selectors : Selectors) (text : List Byte) (rule : ResponseRedaction)
    (turn : IndexRange → Except String (List α)) : Except String (List α) :=
  if rule.xPath ≠ [] then do
    let locs ← selectors.extractHTMLElementsIndexes text rule.xPath (decide (rule.jsonPath ≠ []))
    let found ← locs.mapM (forElement selectors text rule turn)
    return found.flatten
  else if rule.jsonPath ≠ [] then do
    let locs ← selectors.extractJSONValueIndexes text rule.jsonPath
    let found ← locs.mapM turn
    return found.flatten
  else if rule.regex ≠ [] then
    turn { start := 0, stop := text.length }
  else
    .error "Expected either xPath, jsonPath or regex for redaction"

def processRedactionRequest (selectors : Selectors) (place : BodyPlace) (rule : ResponseRedaction) :
    Except String (List RedactionItem) :=
  forElements selectors place.body.text rule (place.applyRegexWindow selectors rule)

/-! ### Redactions of a response -/

/-- What neither chunk data nor safe framing covers. -/
def metadataFrom (bodyStart responseEnd : Int) : Int → List Span → List Span
  | cursor, [] =>
    if cursor < responseEnd then [{ start := cursor, length := responseEnd - cursor }] else []
  | cursor, item :: rest =>
    let start := max item.start bodyStart
    let stop := min item.stop responseEnd
    if stop ≤ cursor ∨ responseEnd ≤ start then
      metadataFrom bodyStart responseEnd cursor rest
    else
      (if cursor < start then [{ start := cursor, length := start - cursor }] else []) ++
        metadataFrom bodyStart responseEnd (max cursor stop) rest

def byStart (spans : List Span) : List Span :=
  spans.insertionSort fun one other => one.start ≤ other.start

def chunkMetadataRedactions (bodyStart responseEnd : Int) (chunks framing : List Span) :
    List Span :=
  metadataFrom bodyStart responseEnd bodyStart (byStart (chunks ++ framing))

def subtractRevealRanges (reveals : List ResponseRedactionRange) (exclusions : List Span) :
    List ResponseRedactionRange :=
  if exclusions = [] then
    reveals
  else
    reveals.flatMap fun reveal =>
      (cutOut reveal.span.stop reveal.span.start (byStart exclusions)).map fun span =>
        { span := span, hash := reveal.hash }

/-- The gaps between chunks, from a position on. -/
def framingFrom (responseEnd : Int) : Int → List Span → List Span
  | prev, [] => if prev < responseEnd then [{ start := prev, length := responseEnd - prev }] else []
  | prev, chunk :: rest =>
    (if prev < chunk.start then [{ start := prev, length := chunk.start - prev }] else []) ++
      framingFrom responseEnd chunk.stop rest

/-- The redactions of older clients, from reveals in the order of their ends. -/
def legacyGaps (responseEnd : Int) (chunks : List Span) : Int → List Span → List Span
  | currentIndex, [] =>
    if currentIndex < responseEnd then
      [{ start := currentIndex, length := responseEnd - currentIndex }]
    else []
  | currentIndex, reveal :: rest =>
    let gap := if currentIndex < reveal.start then
      [{ start := currentIndex, length := reveal.start - currentIndex }] else []
    let next := if rest = [] ∧ (chunks.getLast?.map Span.stop) = some reveal.stop ∧
        reveal.stop < responseEnd then responseEnd else reveal.stop
    gap ++ legacyGaps responseEnd chunks next rest

def headerReveals (ctx : ProviderCtx) (parsed : HTTPParsedResponse) : List Span :=
  let line (name : String) : List Span :=
    match parsed.headerLowerToRanges.lookup (ascii name) with
    | some range => if 0 < range.length then [range] else []
    | none => []
  [{ start := 0, length := parsed.statusLineEndIndex }] ++
    (if ctx.tls12CBC then
      { start := parsed.statusLineEndIndex, length := 2 } :: parsed.headerFraming
    else []) ++
    [{ start := parsed.headerEndIdx, length := 4 }] ++ line "date" ++ line "content-type" ++
    if shouldRevealChunkFraming ctx then
      line "transfer-encoding" ++ if ctx.tls12CBC then line "content-length" else []
    else []

def unhashed (span : Span) : ResponseRedactionRange where
  span := span
  hash := []

def withFraming (ctx : ProviderCtx) (parsed : HTTPParsedResponse) (responseEnd : Int)
    (reveals : List ResponseRedactionRange) : List ResponseRedactionRange :=
  if shouldRevealChunkFraming ctx = true ∧ ctx.tls12CBC = true ∧ parsed.chunked = true then
    subtractRevealRanges (reveals ++ parsed.chunkFraming.map unhashed)
      (chunkMetadataRedactions parsed.bodyStartIndex responseEnd parsed.chunks parsed.chunkFraming)
  else if shouldRevealChunkFraming ctx = true ∧ parsed.chunks ≠ [] then
    reveals ++ (framingFrom responseEnd (parsed.headerEndIdx + 4) parsed.chunks).map unhashed
  else
    reveals

def outside (ctx : ProviderCtx) (parsed : HTTPParsedResponse) (responseEnd : Int)
    (reveals : List Span) : List Span :=
  if reveals.length ≤ 1 then
    []
  else if shouldRevealChunkFraming ctx then
    gaps responseEnd 0 (byStart reveals)
  else
    legacyGaps responseEnd parsed.chunks 0
      (reveals.insertionSort fun one other => one.stop ≤ other.stop)

def getResponseRedactions (charsets : Charsets) (selectors : Selectors) (response : List Byte)
    (rawParams : HTTPProviderParams) (ctx : ProviderCtx) :
    Except String (List ResponseRedactionRange) := do
  let res ← parseHTTPResponseBytesWithFraming response ctx.tls12CBC
  if rawParams.responseRedactions = [] then
    return []
  else
    rejectIf (res.statusCode.tdiv 100 ≠ 2) "expected status 2xx"
    let params ← substituteParamValues rawParams [] true
    rejectIf (res.bodyStartIndex < 4) "Failed to find response body"
    rejectIf (shouldRevealCrlf ctx = true ∧
        (res.headerEndIdx < 0 ∨ (response.length : Int) < res.headerEndIdx + 4 ∨
          (response.drop res.headerEndIdx.toNat).take 4 ≠ ascii "\r\n\r\n"))
      "Failed to find header/body separator"
    let body ← decodeResponseBody charsets res.body
      (charsets.responseBodyCharset (HTTPResponseParser.header res "content-type"))
    let place : BodyPlace :=
      { body := body
        bodyStartIdx := res.bodyStartIndex
        chunks := res.chunks
        revealFraming := shouldRevealChunkFraming ctx }
    let items ← params.responseRedactions.mapM (processRedactionRequest selectors place)
    let reveals := withFraming ctx res response.length
      ((headerReveals ctx res).map unhashed ++ items.flatten.map RedactionItem.reveal)
    let redactions := (items.flatten.flatMap RedactionItem.redactions ++
        outside ctx res response.length (reveals.map ResponseRedactionRange.span)).map unhashed ++
      reveals.filter fun reveal => reveal.hash ≠ []
    return redactions.insertionSort fun one other => one.span.stop ≤ other.span.stop

end ReclaimTee.Providers
