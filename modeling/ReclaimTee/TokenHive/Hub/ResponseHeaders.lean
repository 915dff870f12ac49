/-
The response start as it crosses the seam. The TEE signs a digest of the JSON of
the headers it kept, with lower-case names; the Hub takes the digest of what it
read, which differs where a value was not UTF-8.
-/

import ReclaimTee.Json
import ReclaimTee.Providers.Request
import ReclaimTee.TokenHive.Hub.Seam

namespace ReclaimTee.TokenHive.Hub

open Providers (lexicographic)
open List
open Json (coerce decimal decimalValue encode strings)

/-- Lower case. Only what it does to ASCII texts is known. -/
structure LowerCase where
  toLower : Text → Text
  toLower_ascii : ∀ text, (∀ byte ∈ text, byte.toNat < 0x80) → toLower text = text.map lowerByte

/-! ### Header sets -/

def allowedResponseHeaders : List Text :=
  [ascii "content-type", ascii "cache-control", ascii "retry-after", ascii "www-authenticate",
    ascii "x-request-id", ascii "request-id", ascii "openai-organization",
    ascii "openai-processing-ms", ascii "openai-version", ascii "x-ratelimit-limit-requests",
    ascii "x-ratelimit-remaining-requests", ascii "x-ratelimit-reset-requests",
    ascii "x-ratelimit-limit-tokens", ascii "x-ratelimit-remaining-tokens",
    ascii "x-ratelimit-reset-tokens", ascii "anthropic-ratelimit-requests-limit",
    ascii "anthropic-ratelimit-requests-remaining", ascii "anthropic-ratelimit-requests-reset",
    ascii "anthropic-ratelimit-input-tokens-limit",
    ascii "anthropic-ratelimit-input-tokens-remaining",
    ascii "anthropic-ratelimit-input-tokens-reset",
    ascii "anthropic-ratelimit-output-tokens-limit",
    ascii "anthropic-ratelimit-output-tokens-remaining",
    ascii "anthropic-ratelimit-output-tokens-reset", ascii "x-oai-request-id", ascii "cf-ray",
    ascii "x-codex-turn-state", ascii "x-models-etag", ascii "x-reasoning-included",
    ascii "openai-model", ascii "x-codex-safety-buffering-enabled",
    ascii "x-codex-safety-buffering-faster-model"]

def upperByte (byte : Byte) : Byte :=
  if 0x61 ≤ byte.toNat ∧ byte.toNat ≤ 0x7a then BitVec.ofNat 8 (byte.toNat - 0x20) else byte

/-- A letter is upper case at the start and behind a hyphen. -/
def canonicalFrom : Bool → Text → Text
  | _, [] => []
  | upper, byte :: rest =>
    (if upper then upperByte byte else lowerByte byte) :: canonicalFrom (byte = 0x2d#8) rest

def canonicalMIMEHeaderKey (name : Text) : Text :=
  canonicalFrom true name

/-- The headers of a response as they are parsed: each name once, of ASCII
characters, and canonical unless there is a space in it. -/
structure HeaderSet where
  entries : Headers
  nodup : (entries.map Prod.fst).Nodup
  ascii : ∀ entry ∈ entries, ∀ byte ∈ entry.1, byte.toNat < 0x80
  canonical : ∀ entry ∈ entries, 0x20#8 ∈ entry.1 ∨ canonicalMIMEHeaderKey entry.1 = entry.1

def forwardResponseHeaders (lower : LowerCase) (src : HeaderSet) : Headers :=
  src.entries.filter fun entry => lower.toLower entry.1 ∈ allowedResponseHeaders

/-! ### The digest of a header set -/

/-- A later entry of a name takes the place of an earlier one. -/
def setHeader (headers : Headers) (name : Text) (values : List Text) : Headers :=
  headers.filter (fun entry => entry.1 ≠ name) ++ [(name, values)]

def lowerNames (lower : LowerCase) (headers : Headers) : Headers :=
  headers.foldl (fun norm entry => setHeader norm (lower.toLower entry.1) entry.2) []

def byName (one other : Text × List Text) : Bool :=
  lexicographic one.1 other.1

def sortByName (headers : Headers) : Headers :=
  headers.insertionSort fun one other => byName one other

/-- A map is written in the order of its keys. -/
def headersJson (headers : Headers) : Json :=
  .object ((sortByName headers).map fun entry => (entry.1, strings entry.2))

def hashResponseHeaders (digests : Digests) (lower : LowerCase) (headers : Headers) : Text :=
  digests.sha256 (encode (headersJson (lowerNames lower headers)))

/-! ### The start frame -/

def startJson (start : ResponseStart) : Json :=
  .object ((ascii "status", .number (decimal start.status)) ::
    if start.headers = [] then [] else [(ascii "headers", headersJson start.headers)])

def uint32Limit : Nat := 2 ^ 32

def readStatus (current : Nat) : Json → Option Nat
  | .null => some current
  | .number literal =>
    if literal.all Json.isDigit ∧ decimalValue literal < uint32Limit then
      some (decimalValue literal)
    else
      none
  | _ => none

/-- A text, or the one there was. -/
def readText (current : Text) : Json → Option Text
  | .null => some current
  | .string value => some value
  | _ => none

def readFlag (current : Bool) : Json → Option Bool
  | .null => some current
  | .bool value => some value
  | _ => none

def readTexts : Json → Option (List Text)
  | .null => some []
  | .array items => items.mapM (readText [])
  | _ => none

def readHeaders (current : Headers) : Json → Option Headers
  | .null => some []
  | .object members =>
    members.foldlM (fun headers member => do
      let values ← readTexts member.2
      return setHeader headers member.1 values) current
  | _ => none

/-- Field names are compared without regard to case; other members are ignored. -/
def readStartMember (start : ResponseStart) (member : Text × Json) : Option ResponseStart :=
  if foldCase member.1 = ascii "status" then do
    let status ← readStatus start.status member.2
    return { start with status := status }
  else if foldCase member.1 = ascii "headers" then do
    let headers ← readHeaders start.headers member.2
    return { start with headers := headers }
  else
    some start

def readStartFrame : Json → Option ResponseStart
  | .null => some .unseen
  | .object members => members.foldlM readStartMember .unseen
  | _ => none

def unmarshalStart (data : Text) : Option ResponseStart := do
  let value ← Json.parse data
  readStartFrame value

/-! ### The failure frame -/

def failureJson (failure : Failure) : Json :=
  .object ((ascii "class", .string failure.failureClass) ::
    ((if failure.stage = [] then [] else [(ascii "stage", .string failure.stage)]) ++
      if failure.cold then [(ascii "cold", .bool true)] else []))

def Failure.zero : Failure where
  failureClass := []
  stage := []
  cold := false

def readFailureMember (failure : Failure) (member : Text × Json) : Option Failure :=
  if foldCase member.1 = ascii "class" then do
    let failureClass ← readText failure.failureClass member.2
    return { failure with failureClass := failureClass }
  else if foldCase member.1 = ascii "stage" then do
    let stage ← readText failure.stage member.2
    return { failure with stage := stage }
  else if foldCase member.1 = ascii "cold" then do
    let cold ← readFlag failure.cold member.2
    return { failure with cold := cold }
  else
    some failure

def readFailureFrame : Json → Option Failure
  | .null => some .zero
  | .object members => members.foldlM readFailureMember .zero
  | _ => none

def unmarshalFailure (data : Text) : Option Failure := do
  let value ← Json.parse data
  readFailureFrame value

/-- The seam as it is: JSON frames, and SHA-256 over the JSON of the headers. The
receipt's encoding is a package of its own. -/
def jsonSeam (digests : Digests) (lower : LowerCase)
    (decodeReceiptFrame : Text → Option SignedReceipt) : Seam where
  digests := digests
  hashResponseHeaders := hashResponseHeaders digests lower
  hashResponseHeaders_length _ := digests.sha256_length _
  unmarshalStart := unmarshalStart
  unmarshalFailure := unmarshalFailure
  decodeReceiptFrame := decodeReceiptFrame

/-! ### The order of names -/

theorem lexicographic_total (one other : Text) :
    lexicographic one other = true ∨ lexicographic other one = true := by
  induction one generalizing other with
  | nil => exact Or.inl rfl
  | cons first rest ih =>
    cases other with
    | nil => exact Or.inr rfl
    | cons second others =>
      unfold lexicographic
      rcases Nat.lt_trichotomy first.toNat second.toNat with less | same | more
      · simp [less]
      · simpa [same] using ih others
      · simp [more]

theorem lexicographic_trans {one middle other : Text} (first : lexicographic one middle = true)
    (second : lexicographic middle other = true) : lexicographic one other = true := by
  induction one generalizing middle other with
  | nil => rfl
  | cons a as ih =>
    cases middle with
    | nil => cases first
    | cons b bs =>
      cases other with
      | nil => cases second
      | cons c cs =>
        unfold lexicographic at first second ⊢
        rcases Nat.lt_trichotomy a.toNat b.toNat with ab | ab | ab <;>
        rcases Nat.lt_trichotomy b.toNat c.toNat with bc | bc | bc
        · simp [ab.trans bc]
        · simp [← bc, ab]
        · simp [bc, Nat.lt_asymm bc] at second
        · simp [ab, bc]
        · simp only [ab, bc, Nat.lt_irrefl] at first second ⊢
          exact ih first second
        · simp [bc, Nat.lt_asymm bc] at second
        · simp [ab, Nat.lt_asymm ab] at first
        · simp [ab, Nat.lt_asymm ab] at first
        · simp [ab, Nat.lt_asymm ab] at first

theorem lexicographic_antisymm {one other : Text} (first : lexicographic one other = true)
    (second : lexicographic other one = true) : one = other := by
  induction one generalizing other with
  | nil =>
    cases other with
    | nil => rfl
    | cons b bs => cases second
  | cons a as ih =>
    cases other with
    | nil => cases first
    | cons b bs =>
      unfold lexicographic at first second
      rcases Nat.lt_trichotomy a.toNat b.toNat with less | same | more
      · simp [less, Nat.lt_asymm less] at second
      · simp only [same, Nat.lt_irrefl] at first second
        rw [BitVec.eq_of_toNat_eq same, ih first second]
      · simp [more, Nat.lt_asymm more] at first

instance : Std.Total fun one other : Text × List Text => byName one other = true :=
  ⟨fun one other => lexicographic_total one.1 other.1⟩

instance : IsTrans (Text × List Text) fun one other => byName one other = true :=
  ⟨fun _ _ _ => lexicographic_trans⟩

theorem sortByName_perm (headers : Headers) : (sortByName headers).Perm headers :=
  perm_insertionSort _ _

variable {headers : Headers}

theorem sortByName_eq_of_perm {other : Headers} (perm : headers.Perm other)
    (nodup : (headers.map Prod.fst).Nodup) : sortByName headers = sortByName other := by
  have sorted := pairwise_insertionSort (fun one other => byName one other = true) headers
  have sortedOther := pairwise_insertionSort (fun one other => byName one other = true) other
  apply List.Perm.eq_of_pairwise _ sorted sortedOther
    ((sortByName_perm headers).trans (perm.trans (sortByName_perm other).symm))
  intro entry rival inside outside first second
  have name := lexicographic_antisymm first second
  have here := (sortByName_perm headers).subset inside
  have there := perm.symm.subset ((sortByName_perm other).subset outside)
  exact inj_on_of_nodup_map nodup here there name

theorem sortByName_map (headers : Headers) (change : List Text → List Text) :
    sortByName (headers.map fun entry => (entry.1, change entry.2)) =
      (sortByName headers).map fun entry => (entry.1, change entry.2) := by
  symm
  apply map_insertionSort
  intro _ _ _ _
  exact Iff.rfl

/-! ### Maps of headers -/

theorem setHeader_fresh {name : Text} {values : List Text} (fresh : name ∉ headers.map Prod.fst) :
    setHeader headers name values = headers ++ [(name, values)] := by
  have kept : headers.filter (fun entry => entry.1 ≠ name) = headers := by
    rw [filter_eq_self]
    intro entry member
    rw [decide_eq_true_iff]
    intro same
    exact fresh (same ▸ mem_map_of_mem member)
  unfold setHeader
  rw [kept]

theorem foldl_setHeader {entries : Headers} (nodup : ((headers ++ entries).map Prod.fst).Nodup) :
    entries.foldl (fun norm entry => setHeader norm entry.1 entry.2) headers =
      headers ++ entries := by
  induction entries generalizing headers with
  | nil => rw [append_nil, foldl_nil]
  | cons entry rest ih =>
    have fresh : entry.1 ∉ headers.map Prod.fst := by
      rw [map_append, nodup_append] at nodup
      intro member
      exact nodup.2.2 _ member _ mem_cons_self rfl
    rw [foldl_cons, setHeader_fresh fresh, ih]
    · rw [append_assoc]
      rfl
    · rw [append_assoc]
      exact nodup

/-- The names as the digest has them. -/
def lowered (lower : LowerCase) (headers : Headers) : Headers :=
  headers.map fun entry => (lower.toLower entry.1, entry.2)

theorem lowerNames_eq {lower : LowerCase} (nodup : ((lowered lower headers).map Prod.fst).Nodup) :
    lowerNames lower headers = lowered lower headers := by
  have folded := @foldl_setHeader [] (lowered lower headers) nodup
  rw [lowered, foldl_map] at folded
  exact folded

/-! ### Forwarded headers -/

theorem canonicalFrom_lower (upper : Bool) (name : Text) :
    canonicalFrom upper (name.map lowerByte) = canonicalFrom upper name := by
  have bytes : ∀ byte : Byte, upperByte (lowerByte byte) = upperByte byte ∧
      lowerByte (lowerByte byte) = lowerByte byte ∧
      (decide (lowerByte byte = 0x2d#8) = decide (byte = 0x2d#8)) := by
    decide +kernel
  induction name generalizing upper with
  | nil => rfl
  | cons byte rest ih =>
    obtain ⟨up, low, hyphen⟩ := bytes byte
    rw [map_cons, canonicalFrom, canonicalFrom, ih, up, low, hyphen]

/-- What the names of a forwarded set are like. -/
structure Forwarded (lower : LowerCase) (headers : Headers) : Prop where
  nodup : ((lowered lower headers).map Prod.fst).Nodup
  ascii : ∀ entry ∈ headers, ∀ byte ∈ entry.1, byte.toNat < 0x80

theorem forwarded_forwardResponseHeaders (lower : LowerCase) (src : HeaderSet) :
    Forwarded lower (forwardResponseHeaders lower src) := by
  have noSpace : ∀ name ∈ allowedResponseHeaders, 0x20#8 ∉ name := by
    decide +kernel
  have inside : ∀ entry ∈ forwardResponseHeaders lower src, entry ∈ src.entries :=
    fun entry member => (mem_filter.mp member).1
  have lowercase : ∀ entry ∈ forwardResponseHeaders lower src,
      lower.toLower entry.1 = entry.1.map lowerByte :=
    fun entry member => lower.toLower_ascii entry.1 (src.ascii entry (inside entry member))
  have canonical : ∀ entry ∈ forwardResponseHeaders lower src,
      canonicalMIMEHeaderKey entry.1 = entry.1 := by
    intro entry member
    rcases src.canonical entry (inside entry member) with spaced | canonical
    · have listed := of_decide_eq_true (mem_filter.mp member).2
      rw [lowercase entry member] at listed
      have space : 0x20#8 ∈ entry.1.map lowerByte := mem_map.mpr ⟨_, spaced, rfl⟩
      exact absurd space (noSpace _ listed)
    · exact canonical
  constructor
  · unfold lowered
    rw [map_map]
    have names : ((forwardResponseHeaders lower src).map Prod.fst).Nodup :=
      src.nodup.sublist (filter_sublist.map Prod.fst)
    apply List.Nodup.map_on _ (List.Nodup.of_map _ names)
    intro entry member rival also same
    have name : entry.1 = rival.1 := by
      change lower.toLower entry.1 = lower.toLower rival.1 at same
      rw [lowercase entry member, lowercase rival also] at same
      calc entry.1 = canonicalMIMEHeaderKey (entry.1.map lowerByte) :=
            (canonical entry member).symm.trans (canonicalFrom_lower true entry.1).symm
        _ = canonicalMIMEHeaderKey (rival.1.map lowerByte) := by rw [same]
        _ = rival.1 := (canonicalFrom_lower true rival.1).trans (canonical rival also)
    exact inj_on_of_nodup_map names member also name
  · intro entry member
    exact src.ascii entry (inside entry member)

/-! ### The start the Hub reads -/

/-- The headers as the Hub has them, with every byte outside UTF-8 replaced. -/
def receivedHeaders (headers : Headers) : Headers :=
  (sortByName headers).map fun entry => (entry.1, entry.2.map coerce)

theorem valid_of_ascii {text : Text} (ascii : ∀ byte ∈ text, byte.toNat < 0x80) :
    Utf8.valid text = true := by
  rw [Utf8.valid_iff]
  induction text with
  | nil =>
    intro _ member
    cases member
  | cons first rest ih =>
    have single : Utf8.runeLength (first :: rest) = some 1 := by
      simp [Utf8.runeLength, ascii first mem_cons_self]
    intro byte member
    rw [Utf8.pieces_rune single] at member
    rcases mem_cons.mp member with impossible | later
    · cases impossible
    · exact ih (fun other inside => ascii other (mem_cons_of_mem _ inside)) byte later

theorem reads_headersJson (depth : Nat)
    (ascii : ∀ entry ∈ headers, ∀ byte ∈ entry.1, byte.toNat < 0x80) :
    Json.Reads (depth + 2) (headersJson headers)
      (.object ((receivedHeaders headers).map fun entry => (entry.1, strings entry.2))) := by
  unfold headersJson receivedHeaders
  rw [map_map]
  apply Json.Reads.object
  have sorted : ∀ entry ∈ sortByName headers, ∀ byte ∈ entry.1, byte.toNat < 0x80 :=
    fun entry member => ascii entry ((sortByName_perm headers).subset member)
  revert sorted
  generalize sortByName headers = entries
  intro sorted
  induction entries with
  | nil => exact .nil _
  | cons entry rest ih =>
    have read := Json.ReadsMembers.cons entry.1 (Json.reads_strings depth entry.2)
      (ih fun other member => sorted other (mem_cons_of_mem _ member))
    rw [Json.coerce_of_valid (valid_of_ascii (sorted entry mem_cons_self))] at read
    exact read

/-- The members of a start frame that the Hub reads. -/
def receivedMembers (start : ResponseStart) : List (Text × Json) :=
  (ascii "status", .number (decimal start.status)) ::
    if start.headers = [] then []
    else [(ascii "headers",
      .object ((receivedHeaders start.headers).map fun entry => (entry.1, strings entry.2)))]

theorem parse_startJson {start : ResponseStart}
    (names : ∀ entry ∈ start.headers, ∀ byte ∈ entry.1, byte.toNat < 0x80) :
    Json.parse (encode (startJson start)) = some (.object (receivedMembers start)) := by
  have status : coerce (ascii "status") = ascii "status" :=
    Json.coerce_of_valid (by decide)
  have headers : coerce (ascii "headers") = ascii "headers" :=
    Json.coerce_of_valid (by decide)
  apply Json.parse_encode
  have known : Json.maxNestingDepth = 9997 + 2 + 1 := rfl
  rw [known]
  apply Json.Reads.object
  unfold receivedMembers
  have first := Json.Reads.number (9997 + 2) start.status
  split
  · have read := Json.ReadsMembers.cons (ascii "status") first (.nil _)
    rw [status] at read
    exact read
  · have second := Json.ReadsMembers.cons (ascii "headers") (reads_headersJson 9997 names)
      (.nil _)
    have read := Json.ReadsMembers.cons (ascii "status") first second
    rw [headers] at read
    exact read

theorem readTexts_strings (values : List Text) : readTexts (strings values) = some values := by
  change (values.map Json.string).mapM (readText []) = some values
  induction values with
  | nil => rfl
  | cons value rest ih =>
    rw [map_cons, mapM_cons, ih]
    rfl

theorem readHeaders_object {current entries : Headers}
    (nodup : ((current ++ entries).map Prod.fst).Nodup) :
    readHeaders current (.object (entries.map fun entry => (entry.1, strings entry.2))) =
      some (current ++ entries) := by
  rw [← foldl_setHeader nodup]
  clear nodup
  change List.foldlM _ current (entries.map fun entry => (entry.1, strings entry.2)) = _
  induction entries generalizing current with
  | nil => rfl
  | cons entry rest ih =>
    rw [map_cons, foldlM_cons, readTexts_strings]
    exact ih

theorem receivedHeaders_names (headers : Headers) :
    (receivedHeaders headers).map Prod.fst = (sortByName headers).map Prod.fst := by
  unfold receivedHeaders
  rw [map_map]
  rfl

/-- The Hub reads the status and, but for bytes outside UTF-8, the headers. -/
theorem unmarshalStart_startJson {start : ResponseStart} (small : start.status < uint32Limit)
    (names : ∀ entry ∈ start.headers, ∀ byte ∈ entry.1, byte.toNat < 0x80)
    (nodup : (start.headers.map Prod.fst).Nodup) :
    unmarshalStart (encode (startJson start)) =
      some { status := start.status, headers := receivedHeaders start.headers } := by
  have status : readStatus 0 (.number (decimal start.status)) = some start.status := by
    have digits : (decimal start.status).all Json.isDigit = true :=
      all_eq_true.mpr (Json.decimal_digits start.status)
    simp [readStatus, digits, Json.decimalValue_decimal, small]
  have received : ((receivedHeaders start.headers).map Prod.fst).Nodup := by
    rw [receivedHeaders_names]
    exact ((sortByName_perm start.headers).map Prod.fst).nodup_iff.mpr nodup
  unfold unmarshalStart
  rw [parse_startJson names]
  change (receivedMembers start).foldlM readStartMember .unseen = _
  unfold receivedMembers
  have first : readStartMember .unseen (ascii "status", .number (decimal start.status)) =
      some { ResponseStart.unseen with status := start.status } := by
    change (readStatus 0 (.number (decimal start.status))).bind _ = _
    rw [status]
    rfl
  rw [foldlM_cons, first]
  split
  · next empty =>
    rw [empty]
    rfl
  · have second := @readHeaders_object [] (receivedHeaders start.headers) received
    change (readHeaders [] (.object ((receivedHeaders start.headers).map
      fun entry => (entry.1, strings entry.2)))).bind _ >>= _ = _
    rw [second]
    rfl

/-! ### Digests on both sides -/

theorem lowered_received_perm (lower : LowerCase) (headers : Headers) :
    (lowered lower (receivedHeaders headers)).Perm
      ((lowered lower headers).map fun entry => (entry.1, entry.2.map coerce)) := by
  unfold lowered receivedHeaders
  rw [map_map, map_map]
  exact (sortByName_perm headers).map _

theorem names_map_values (headers : Headers) (change : List Text → List Text) :
    (headers.map fun entry => (entry.1, change entry.2)).map Prod.fst = headers.map Prod.fst := by
  rw [map_map]
  rfl

theorem headersJson_received {lower : LowerCase} (forwarded : Forwarded lower headers) :
    headersJson (lowerNames lower (receivedHeaders headers)) =
      .object ((sortByName (lowered lower headers)).map fun entry =>
        (entry.1, strings (entry.2.map coerce))) := by
  have perm := lowered_received_perm lower headers
  have nodup : ((lowered lower (receivedHeaders headers)).map Prod.fst).Nodup := by
    have names := perm.map Prod.fst
    rw [names_map_values] at names
    exact names.nodup_iff.mpr forwarded.nodup
  rw [lowerNames_eq nodup]
  unfold headersJson
  rw [sortByName_eq_of_perm perm nodup, sortByName_map, map_map]
  rfl

/-- Both sides take the digest of the same text. -/
theorem digested_alike {lower : LowerCase} (forwarded : Forwarded lower headers) :
    encode (headersJson (lowerNames lower (receivedHeaders headers))) =
      encode (headersJson (lowerNames lower headers)) := by
  rw [headersJson_received forwarded, lowerNames_eq forwarded.nodup]
  exact Json.encode_object_coerce _

end ReclaimTee.TokenHive.Hub
