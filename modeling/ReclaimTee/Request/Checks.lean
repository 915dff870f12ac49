/-
What TEE_K checks of a redacted request before it encrypts anything: its size, the
form of its head and the places of its ranges. The head is read with stars over
the ranges, so the streams of the client do not matter there.
-/

import ReclaimTee.Bytes
import ReclaimTee.Request.Fragments

namespace ReclaimTee.Request

open ReclaimTee.Mpc List

/-! ### The authority -/

/-- What TEE_K knows of the connection, as far as the checks read it. -/
structure RequestConnectionData where
  hostname : List Byte
  port : Int

def defaultHTTPSPort : Int := 443

def minTCPPort : Int := 1

def maxTCPPort : Int := 65535

def validateHTTPSPort (port : Int) : Except String Unit :=
  rejectIf (port < minTCPPort ∨ maxTCPPort < port)
    s!"HTTPS port must be between {minTCPPort} and {maxTCPPort}, got port {port}"

def joinHostPort (host port : List Byte) : List Byte :=
  if contains host (ascii ":") then ascii "[" ++ host ++ ascii "]:" ++ port
  else host ++ ascii ":" ++ port

def expectedHTTPRequestAuthority (connData : RequestConnectionData) :
    Except String (List Byte) := do
  validateHTTPSPort connData.port
  if connData.port = defaultHTTPSPort then
    return connData.hostname
  return joinHostPort connData.hostname (ascii (toString connData.port))

/-! ### The head -/

/-- The request with stars over its ranges; a range that leaves the request is not
drawn. -/
def prettyRequest (redacted : List Byte) (ranges : List RequestRedactionRange) : List Byte :=
  redacted.mapIdx fun position byte =>
    if ranges.any fun range =>
        0 ≤ range.start ∧ range.finish ≤ redacted.length ∧ range.Covers position then
      char '*'
    else
      byte

def extractHeader (lines : List (List Byte)) (headerName : List Byte) : List Byte :=
  let headerPrefix := toLower headerName ++ ascii ":"
  ((lines.drop 1).findSome? fun line =>
    if headerPrefix.isPrefixOf (toLower line) then
      (cutText (ascii ":") line).map fun parts => trimSpace parts.2
    else
      none).getD []

def validateHostHeader (lines : List (List Byte)) (connData : RequestConnectionData) :
    Except String Unit := do
  let expectedAuthority ← expectedHTTPRequestAuthority connData
  let hostHeader := extractHeader lines (ascii "Host")
  rejectIf (hostHeader = []) "host header is missing"
  rejectIf (contains hostHeader (ascii "*")) "host header must not be redacted"
  -- Clients from before CBC send an IPv6 host without its brackets.
  let bracketed := connData.port = defaultHTTPSPort ∧ contains connData.hostname (ascii ":") ∧
    hostHeader = ascii "[" ++ connData.hostname ++ ascii "]"
  rejectIf (hostHeader ≠ expectedAuthority ∧ ¬ bracketed)
    s!"host header '{display hostHeader}' does not match connection authority '{display expectedAuthority}'"

def validateConnectionHeader (lines : List (List Byte)) : Except String Unit := do
  let connectionHeader := extractHeader lines (ascii "Connection")
  rejectIf (connectionHeader = []) "connection header is missing"
  rejectIf (contains connectionHeader (ascii "*")) "connection header must not be redacted"
  rejectIf (foldCase (trimSpace connectionHeader) ≠ ascii "close")
    s!"connection header must be 'close', got '{display connectionHeader}'"

/-- The checks on the request once the stars are drawn. -/
def validatePretty (reqStr : List Byte) (connData : Option RequestConnectionData) :
    Except String Unit := do
  rejectIf (¬ (ascii "GET ").isPrefixOf reqStr ∧ ¬ (ascii "POST ").isPrefixOf reqStr)
    "request does not start with valid HTTP method"
  rejectIf (¬ contains reqStr (ascii " HTTP/1.1")) "request does not contain HTTP/1.1 version"
  rejectIf (¬ contains reqStr (ascii "\r\n"))
    "request does not contain proper CRLF line endings"
  rejectIf (¬ contains reqStr (ascii "\r\n\r\n"))
    "request does not end with proper double CRLF"
  let lines := splitText reqStr (ascii "\r\n")
  rejectIf (lines.length < 2) "request has insufficient lines"
  rejectIf ((splitText (lines.headD []) (ascii " ")).length < 3)
    "invalid HTTP request line format"
  connData.elim (.ok ()) (validateHostHeader lines)
  validateConnectionHeader lines

def validateHTTPRequestFormat (redacted : List Byte) (ranges : List RequestRedactionRange)
    (connData : Option RequestConnectionData) : Except String Unit :=
  validatePretty (prettyRequest redacted ranges) connData

theorem cutText_eq_none {first : Byte} {rest text : List Byte} (absent : first ∉ text) :
    cutText (first :: rest) text = none := by
  induction text with
  | nil => rfl
  | cons head tail ih =>
    have other : first ≠ head := fun same => absent (same ▸ mem_cons_self)
    have later := ih fun member => absent (mem_cons_of_mem head member)
    simp [cutText, other, later]

/-- A byte of the starred request is a star where a range covers it. -/
theorem prettyRequest_getElem? {redacted : List Byte} {ranges : List RequestRedactionRange}
    (inBounds : ∀ range ∈ ranges, range.InBounds redacted.length) (position : Nat) :
    (prettyRequest redacted ranges)[position]? = redacted[position]?.map fun byte =>
      if ∃ range ∈ ranges, range.Covers position then char '*' else byte := by
  have drawn : (ranges.any fun range => decide (0 ≤ range.start ∧
      range.finish ≤ redacted.length ∧ range.Covers position)) = true ↔
        ∃ range ∈ ranges, range.Covers position := by
    simp only [any_eq_true, decide_eq_true_eq]
    constructor
    · intro ⟨range, member, _, _, covers⟩
      exact ⟨range, member, covers⟩
    · intro ⟨range, member, covers⟩
      obtain ⟨first, _, last⟩ := inBounds range member
      exact ⟨range, member, first, last, covers⟩
  unfold prettyRequest
  rw [getElem?_mapIdx]
  simp only [drawn]

/-- Ranges behind the head leave it as it is. -/
theorem prettyRequest_append {head body : List Byte} {ranges : List RequestRedactionRange}
    (behind : ∀ range ∈ ranges, (head.length : Int) ≤ range.start) :
    ∃ starred, prettyRequest (head ++ body) ranges = head ++ starred ∧
      ∀ byte ∈ starred, byte = char '*' ∨ byte ∈ body := by
  unfold prettyRequest
  rw [mapIdx_append]
  refine ⟨_, congrArg (· ++ _) ?_, ?_⟩
  · apply ext_getElem (length_mapIdx ..)
    intro position _ inside
    have free : ∀ range ∈ ranges, ¬ range.Covers position := by
      intro range member covers
      have first := behind range member
      have second := covers.1
      omega
    rw [getElem_mapIdx, if_neg]
    intro drawn
    obtain ⟨range, member, covered⟩ := any_eq_true.mp drawn
    exact free range member (of_decide_eq_true covered).2.2
  · intro byte member
    obtain ⟨position, inside, same⟩ := mem_mapIdx.mp member
    rw [← same]
    split
    · exact Or.inl rfl
    · exact Or.inr (getElem_mem inside)

/-! ### The ranges -/

def maxHTTPRequestSize : Nat := 1024 * 1024

def overlapText (first second : Nat) (range other : RequestRedactionRange) : String :=
  s!"ranges {first} and {second} overlap: [{range.start}:{range.finish}] and [{other.start}:{other.finish}]"

/-- The loop of `validateRedactionPositions` from range `index` on. -/
def validateFrom (requestLen : Nat) : Nat → List RequestRedactionRange → Except String Unit
  | _, [] => .ok ()
  | index, range :: rest => do
      rejectIf (range.start < 0 ∨ range.length ≤ 0 ∨ (requestLen : Int) < range.finish)
        s!"range {index} out of bounds: [{range.start}:{range.finish}] for request length {requestLen}"
      rejectIf (¬ range.type.Known)
        s!"range {index} has invalid type: {range.type.text}"
      rejectSome (rest.zipIdx.find? fun other => ¬ range.Disjoint other.1) fun other =>
        overlapText index (index + 1 + other.2) range other.1
      validateFrom requestLen (index + 1) rest

def validateRedactionPositions (ranges : List RequestRedactionRange) (requestLen : Nat) :
    Except String Unit :=
  validateFrom requestLen 0 ranges

def handleRedactedRequest (connData : Option RequestConnectionData) (redacted : List Byte)
    (ranges : List RequestRedactionRange) : Except String Unit := do
  rejectIf (maxHTTPRequestSize < redacted.length)
    s!"HTTP request too large: {redacted.length} bytes (max {maxHTTPRequestSize})"
  rejectIf (maxRedactionRanges < ranges.length)
    s!"too many redaction ranges: {ranges.length} (max {maxRedactionRanges})"
  rejectIf (connData.isNone) "invalid connection data type"
  validateHTTPRequestFormat redacted ranges connData
  validateRedactionPositions ranges redacted.length

/-- What the checks leave: bounded, disjoint ranges of known types. -/
structure Accepted (ranges : List RequestRedactionRange) (requestLen : Nat) : Prop where
  size : requestLen ≤ maxHTTPRequestSize
  count : ranges.length ≤ maxRedactionRanges
  inBounds : ∀ range ∈ ranges, range.InBounds requestLen
  known : ∀ range ∈ ranges, range.type.Known
  disjoint : ranges.Pairwise RequestRedactionRange.Disjoint

theorem validateFrom_eq_ok_iff {requestLen index : Nat} {ranges : List RequestRedactionRange}
    {value : Unit} :
    validateFrom requestLen index ranges = .ok value ↔
      (∀ range ∈ ranges, range.InBounds requestLen) ∧
      (∀ range ∈ ranges, range.type.Known) ∧
      ranges.Pairwise RequestRedactionRange.Disjoint := by
  induction ranges generalizing index with
  | nil => simp [validateFrom]
  | cons range rest ih =>
    have bounds : ¬ (range.start < 0 ∨ range.length ≤ 0 ∨ (requestLen : Int) < range.finish) ↔
        range.InBounds requestLen := by
      unfold RequestRedactionRange.InBounds
      omega
    have apart : rest.zipIdx.find? (fun other => decide (¬ range.Disjoint other.1)) = none ↔
        ∀ other ∈ rest, range.Disjoint other := by
      rw [List.find?_eq_none]
      constructor
      · intro none other member
        obtain ⟨place, located⟩ := List.mem_iff_getElem?.mp member
        have found := none (other, place)
          (List.mk_mem_zipIdx_iff_getElem?.mpr located)
        simpa using found
      · intro all other member
        have inRest : other.1 ∈ rest :=
          List.mem_iff_getElem?.mpr ⟨other.2, List.mk_mem_zipIdx_iff_getElem?.mp member⟩
        simpa using all other.1 inRest
    simp only [validateFrom, eq_ok_iff, rejectSome_eq_ok_iff, ih, bounds, not_not, List.forall_mem_cons, List.pairwise_cons]
    tauto

theorem handleRedactedRequest_eq_ok_iff {connection : RequestConnectionData}
    {redacted : List Byte} {ranges : List RequestRedactionRange} :
    handleRedactedRequest (some connection) redacted ranges = .ok () ↔
      Accepted ranges redacted.length ∧
        validateHTTPRequestFormat redacted ranges (some connection) = .ok () := by
  simp only [handleRedactedRequest, validateRedactionPositions, eq_ok_iff, exists_const,
    validateFrom_eq_ok_iff]
  constructor
  · rintro ⟨size, count, _, _, format, inBounds, known, disjoint⟩
    exact
      ⟨{ size := Nat.le_of_not_lt size
         count := Nat.le_of_not_lt count
         inBounds := inBounds
         known := known
         disjoint := disjoint }, format⟩
  · intro ⟨accepted, format⟩
    exact ⟨Nat.not_lt_of_le accepted.size, Nat.not_lt_of_le accepted.count, Bool.false_ne_true,
      (), format, accepted.inBounds, accepted.known, accepted.disjoint⟩

end ReclaimTee.Request
