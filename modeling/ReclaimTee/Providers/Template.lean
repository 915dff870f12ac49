/-
Substitution of template parameters, public values first, then secret ones; the
place of a secret value in the result is a hidden part. Maps are lists of pairs.
The parameters are copied through JSON before.
-/

import ReclaimTee.Checked
import ReclaimTee.Providers.Url
import ReclaimTee.Spans
import ReclaimTee.Utf8

namespace ReclaimTee.Providers

abbrev Values := List (List Byte × List Byte)

/-- A character of a template, or a parameter in double braces. -/
inductive Piece where
  | literal (byte : Byte)
  | parameter (name : List Byte)
deriving DecidableEq, Repr

/-- A parameter at the front of a template: a name without braces. -/
def placeholder : List Byte → Option (List Byte × List Byte)
  | first :: second :: rest =>
    if first = char '{' ∧ second = char '{' then
      let name := rest.takeWhile fun byte => !oneOf "\x7b\x7d" byte
      match rest.drop name.length with
      | third :: fourth :: rest =>
        if name ≠ [] ∧ third = char '}' ∧ fourth = char '}' then some (name, rest) else none
      | _ => none
    else
      none
  | _ => none

/-- The matches of the parameter pattern, and the characters between them. The fuel is
the length of the template. -/
def piecesFrom : Nat → List Byte → List Piece
  | _, [] => []
  | 0, _ :: _ => []
  | fuel + 1, byte :: rest =>
    match placeholder (byte :: rest) with
    | some (name, rest) => .parameter name :: piecesFrom fuel rest
    | none => .literal byte :: piecesFrom fuel rest

def pieces (template : List Byte) : List Piece :=
  piecesFrom template.length template

structure ReplacedParams where
  newParam : List Octet
  extractedValues : Values
  hiddenParts : List Span
deriving DecidableEq, Repr

/-- The state of the loop over the matches: the place in the template, how much longer
the result is, and the result so far. -/
structure Replacing where
  start : Int
  totalOffset : Int
  written : List Octet
  extracted : Values
  hiddenParts : List Span

namespace Replacing

def begin : Replacing where
  start := 0
  totalOffset := 0
  written := []
  extracted := []
  hiddenParts := []

def literal (state : Replacing) (byte : Byte) : Replacing :=
  { state with start := state.start + 1, written := state.written ++ plain [byte] }

def parameter (state : Replacing) (publicValues secretValues : Values) (ignoreMissing : Bool)
    (name : List Byte) : Except String Replacing :=
  let size : Int := name.length + 4
  match publicValues.lookup name with
  | some value =>
    .ok { start := state.start + size
          totalOffset := state.totalOffset + (value.length - size)
          written := state.written ++ plain value
          extracted := (name, value) :: state.extracted
          hiddenParts := state.hiddenParts }
  | none =>
    match secretValues.lookup name with
    | some value =>
      .ok { start := state.start + size
            totalOffset := state.totalOffset + (value.length - size)
            written := state.written ++ hidden value
            extracted := state.extracted
            hiddenParts := state.hiddenParts ++
              [{ start := state.start + state.totalOffset, length := value.length }] }
    | none =>
      if ignoreMissing then
        .ok { state with
          start := state.start + size
          written := state.written ++ plain (ascii "\x7b\x7b" ++ name ++ ascii "\x7d\x7d") }
      else
        .error
          s!"parameter \"{display name}\" not found in paramValues or secretParams.paramValues"

def step (publicValues secretValues : Values) (ignoreMissing : Bool) (state : Replacing) :
    Piece → Except String Replacing
  | .literal byte => .ok (state.literal byte)
  | .parameter name => state.parameter publicValues secretValues ignoreMissing name

end Replacing

def extractAndReplaceTemplateValues (param : List Byte) (publicValues secretValues : Values)
    (ignoreMissing : Bool) : Except String ReplacedParams := do
  let state ← (pieces param).foldlM (Replacing.step publicValues secretValues ignoreMissing)
    Replacing.begin
  return { newParam := state.written
           extractedValues := state.extracted
           hiddenParts := state.hiddenParts }

/-! ### Provider parameters -/

inductive Body where
  | absent
  | text (bytes : List Byte)
  | bytes (bytes : List Byte)
  | other
deriving DecidableEq, Repr

structure ResponseRedaction where
  regex : List Byte
  xPath : List Byte
  jsonPath : List Byte
  hash : Option (List Byte)
deriving DecidableEq, Repr

structure HTTPProviderParams where
  url : List Byte
  method : List Byte
  geoLocation : List Byte
  headers : Values
  body : Body
  paramValues : Values
  responseMatches : List (List Byte)
  responseRedactions : List ResponseRedaction

structure HTTPProviderSecretParams where
  cookieStr : List Byte
  authorisationHeader : List Byte
  headers : Values
  paramValues : Values

def base64Digit (digit : Nat) : Byte :=
  (ascii "ABCDEFGHIJKLMNOPQRSTUVWXYZabcdefghijklmnopqrstuvwxyz0123456789+/").getD digit 0

def base64 : List Byte → List Byte
  | [] => []
  | [first] =>
    [base64Digit (first.toNat / 4), base64Digit (first.toNat % 4 * 16), char '=', char '=']
  | [first, second] =>
    [base64Digit (first.toNat / 4), base64Digit (first.toNat % 4 * 16 + second.toNat / 16),
      base64Digit (second.toNat % 16 * 4), char '=']
  | first :: second :: third :: rest =>
    base64Digit (first.toNat / 4) :: base64Digit (first.toNat % 4 * 16 + second.toNat / 16) ::
      base64Digit (second.toNat % 16 * 4 + third.toNat / 64) ::
      base64Digit (third.toNat % 64) :: base64 rest

namespace HTTPProviderParams

def texts (params : HTTPProviderParams) : List (List Byte) :=
  params.url :: params.method :: params.geoLocation ::
    (params.headers.flatMap (fun header => [header.1, header.2]) ++
      params.paramValues.flatMap (fun value => [value.1, value.2]) ++ params.responseMatches ++
      params.responseRedactions.flatMap (fun rule =>
        [rule.regex, rule.xPath, rule.jsonPath] ++ rule.hash.toList) ++
      match params.body with
      | .text bytes => [bytes]
      | _ => [])

/-- The copy through JSON. An empty hash is left out as an empty value. -/
def copy (params : HTTPProviderParams) : Except String HTTPProviderParams := do
  rejectIf (params.texts.all Utf8.valid = false) "failed to copy provider params"
  return { params with
    body :=
      match params.body with
      | .bytes bytes => .text (base64 bytes)
      | body => body
    responseRedactions := params.responseRedactions.map fun rule =>
      { rule with hash := if rule.hash = some [] then none else rule.hash } }

end HTTPProviderParams

structure SubstituteResult where
  url : List Octet
  method : List Byte
  body : List Octet
  hiddenBodyParts : List Span
  hiddenURLParts : List Span
  responseRedactions : List ResponseRedaction
deriving DecidableEq, Repr

/-- The distance between the place of a part in the URL and its place in the request. -/
def authorityOffset (method : List Byte) (url : Url) : Int :=
  let authorityPrefixLength : Int := url.scheme.length + 3 + url.host.length
  authorityPrefixLength - method.length - 1

/-- The substituted URL with its hidden parts moved to the request line. A URL that
does not parse is dereferenced all the same. -/
def substituteUrl (template method : List Byte) (urlParams : ReplacedParams) :
    Except String (List Octet × List Span) :=
  if urlParams.newParam ≠ [] ∨ urlParams.extractedValues ≠ [] then
    if urlParams.hiddenParts ≠ [] then
      match parse urlParams.newParam with
      | none => .error "runtime error: invalid memory address or nil pointer dereference"
      | some url =>
        .ok (urlParams.newParam,
          urlParams.hiddenParts.map (Span.shift · (-authorityOffset method url)))
    else
      .ok (urlParams.newParam, [])
  else
    .ok (plain template, [])

/-- The bytes that are sent for a body, with their hidden parts. -/
def substituteBody (publicValues secretValues : Values) (ignoreMissing : Bool) (body : Body) :
    Except String (List Octet × List Span) :=
  match body with
  | .text template =>
    match extractAndReplaceTemplateValues template publicValues secretValues ignoreMissing with
    | .error error => .error s!"body: {error}"
    | .ok replaced =>
      if replaced.newParam ≠ [] ∨ replaced.extractedValues ≠ [] then
        .ok (replaced.newParam, replaced.hiddenParts)
      else
        .ok (plain template, [])
  | _ => .ok ([], [])

def substituteParamValues (current : HTTPProviderParams) (secretValues : Values)
    (ignoreMissing : Bool) : Except String SubstituteResult := do
  let params ← current.copy
  let replace (template : List Byte) :=
    extractAndReplaceTemplateValues template params.paramValues secretValues ignoreMissing
  let urlParams ← replace params.url
  let (url, hiddenURLParts) ← substituteUrl params.url current.method urlParams
  let (body, hiddenBodyParts) ←
    substituteBody params.paramValues secretValues ignoreMissing params.body
  let _ ← replace params.geoLocation
  let responseRedactions ← params.responseRedactions.mapM fun rule => do
    let regexParams ← replace rule.regex
    let xpathParams ← replace rule.xPath
    let jsonPathParams ← replace rule.jsonPath
    return { rule with
      regex := text regexParams.newParam
      xPath := text xpathParams.newParam
      jsonPath := text jsonPathParams.newParam }
  params.responseMatches.forM fun value => do
    let _ ← replace value
  return { url := url
           method := params.method
           body := body
           hiddenBodyParts := hiddenBodyParts
           hiddenURLParts := hiddenURLParts
           responseRedactions := responseRedactions }

end ReclaimTee.Providers
