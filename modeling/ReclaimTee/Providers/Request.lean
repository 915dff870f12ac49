/-
The request builder. Each secret header line is redacted as a whole, and hidden
parts of the URL and of the body at the places the substitution reported. The
parts that must stay visible are marked.
-/

import ReclaimTee.Providers.Template

namespace ReclaimTee.Providers

def maxRedactionRanges : Nat := 1000

def defaultUserAgent : List Byte := ascii "reclaim-attestor"

def clientReservedHeaders : List (List Byte) :=
  [ascii "host", ascii "connection", ascii "content-length", ascii "accept-encoding"]

def validHTTPHeaderName (name : List Byte) : Bool :=
  name ≠ [] ∧ name.all fun byte =>
    isLetter byte || isDigit byte || oneOf "!#$%&'*+-.^_\x60|~" byte

def validSecretHeaderValue (value : List Byte) : Bool :=
  value.all fun byte => !oneOf "\r\n\x00" byte

/-! ### Header names -/

def equalsFoldUserAgent (name : List Byte) : Bool :=
  foldCase name = ascii "user-agent"

/-! ### Lines -/

def crlf : List Octet :=
  visible (plain (ascii "\r\n"))

def joinCRLF (lines : List (List Octet)) : List Octet :=
  crlf.intercalate lines

def lexicographic : List Byte → List Byte → Bool
  | [], _ => true
  | _ :: _, [] => false
  | first :: rest, other :: others =>
    if first.toNat < other.toNat then true
    else if other.toNat < first.toNat then false
    else lexicographic rest others

def buildHeadersList (headers : Values) : List (List Octet) :=
  (headers.insertionSort fun one other => lexicographic one.1 other.1).map fun header =>
    plain (header.1 ++ ascii ": " ++ header.2)

def getHostHeaderString (url : Url) : List Octet :=
  if url.port ≠ [] ∧ text url.port ≠ ascii "443" then url.host else url.hostname

/-- Cookie, Authorization, then the other secret headers. -/
def secretHeaders (secret : HTTPProviderSecretParams) : Except String (List (List Octet)) := do
  rejectIf (secret.cookieStr ≠ [] ∧ validSecretHeaderValue secret.cookieStr = false)
    "invalid secret header value"
  let cookie := if secret.cookieStr = [] then [] else
    [plain (ascii "Cookie: ") ++ hidden secret.cookieStr]
  rejectIf (secret.authorisationHeader ≠ [] ∧
      validSecretHeaderValue secret.authorisationHeader = false)
    "invalid secret header value"
  let authorization := if secret.authorisationHeader = [] then [] else
    [plain (ascii "Authorization: ") ++ hidden secret.authorisationHeader]
  let others ← secret.headers.mapM fun header => do
    rejectIf (validHTTPHeaderName header.1 = false) "invalid secret header name"
    rejectIf (validSecretHeaderValue header.2 = false) "invalid secret header value"
    return hidden header.1 ++ plain (ascii ": ") ++ hidden header.2
  return cookie ++ authorization ++ others

/-- The public headers, with a user agent if none was given. A secret line is compared
with its colon. -/
def publicHeaders (headers : Values) (secretLines : List (List Octet)) : Values :=
  let given := headers.any fun header => equalsFoldUserAgent header.1
  let secretly := secretLines.any fun line =>
    11 ≤ line.length ∧ equalsFoldUserAgent (text (line.take 11))
  if given || secretly then headers else (ascii "User-Agent", defaultUserAgent) :: headers

def reserved (name : List Byte) : Bool :=
  toLower (trimSpace name) ∈ clientReservedHeaders

structure RequestRedactionRange where
  span : Span
  type : String
deriving DecidableEq, Repr

def sensitive (span : Span) : RequestRedactionRange where
  span := span
  type := "sensitive"

def lineSpans : Int → List (List Octet) → List Span
  | _, [] => []
  | cursor, line :: rest =>
    { start := cursor, length := line.length } :: lineSpans (cursor + line.length + 2) rest

structure RequestParts where
  method : List Byte
  target : List Octet
  host : List Octet
  publicLines : List (List Octet)
  secretLines : List (List Octet)
  body : List Octet

namespace RequestParts

def requestLine (parts : RequestParts) : List Octet :=
  visible (plain parts.method) ++ plain (ascii " ") ++ parts.target ++ plain (ascii " HTTP/1.1")

def frontLines (parts : RequestParts) : List (List Octet) :=
  [parts.requestLine, visible (plain (ascii "Host: ") ++ parts.host),
    visible (plain (ascii "Connection: close")),
    plain (ascii "Content-Length: " ++ ascii (toString parts.body.length)),
    plain (ascii "Accept-Encoding: identity")] ++ parts.publicLines

def secretHeadersStart (parts : RequestParts) : Nat :=
  (joinCRLF parts.frontLines).length + 2

def headerBytes (parts : RequestParts) : List Octet :=
  joinCRLF (parts.frontLines ++ parts.secretLines ++ [crlf])

def data (parts : RequestParts) : List Octet :=
  parts.headerBytes ++ parts.body

end RequestParts

def requestTarget (url : Url) : List Octet :=
  let path := if url.escapedPath = [] then plain (ascii "/") else url.escapedPath
  if url.rawQuery = [] then path else path ++ plain (ascii "?") ++ url.rawQuery

/-- The ranges of the secret headers and of the hidden parts, empty ones left out. -/
def redactionSpans (parts : RequestParts) (substituted : SubstituteResult) : List Span :=
  lineSpans parts.secretHeadersStart parts.secretLines ++
    (substituted.hiddenBodyParts.map
      (Span.shift · parts.headerBytes.length)).filter (fun span => 0 < span.length) ++
    substituted.hiddenURLParts.filter fun span => 0 < span.length

def requestParts (params : HTTPProviderParams) (secretLines : List (List Octet))
    (substituted : SubstituteResult) (url : Url) : RequestParts where
  method := substituted.method
  target := requestTarget url
  host := getHostHeaderString url
  publicLines := buildHeadersList (publicHeaders params.headers secretLines)
  secretLines := secretLines
  body := substituted.body

structure CreateRequestResult where
  data : List Octet
  redactions : List RequestRedactionRange

def createRequest (secret : HTTPProviderSecretParams) (params : HTTPProviderParams) :
    Except String CreateRequestResult := do
  rejectIf (secret.cookieStr = [] ∧ secret.authorisationHeader = [] ∧ secret.headers = [])
    "auth parameters are not set"
  let secretLines ← secretHeaders secret
  rejectIf ((publicHeaders params.headers secretLines).any (fun header => reserved header.1) = true)
    "provider header overrides a client-managed header (Host/Connection/Content-Length/Accept-Encoding); remove it from the provider config"
  rejectIf (secret.headers.any (fun header => reserved header.1) = true)
    "a secret header overrides a client-managed header (Host/Connection/Content-Length/Accept-Encoding); remove it from the provider config"
  let substituted ← substituteParamValues params secret.paramValues false
  match parse substituted.url with
  | none => .error "invalid url"
  | some url =>
    let parts := requestParts params secretLines substituted url
    let redactions := redactionSpans parts substituted
    rejectIf (maxRedactionRanges < redactions.length)
      s!"too many redaction ranges: {redactions.length} (max {maxRedactionRanges})"
    return { data := parts.data
             redactions :=
               (redactions.insertionSort fun one other => one.stop ≤ other.stop).map sensitive }

end ReclaimTee.Providers
