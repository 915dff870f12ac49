/-
Bytes of a request with their origin, which the source does not have, and the
URL library the request builder calls. What the library makes of a byte comes
from a secret if the byte does.
-/

import ReclaimTee.Bytes

namespace ReclaimTee.Providers

structure Octet where
  byte : Byte
  secret : Bool
  guarded : Bool
deriving DecidableEq, Repr

/-- Bytes of the provider parameters and of the builder itself. -/
def plain (bytes : List Byte) : List Octet :=
  bytes.map fun byte => ⟨byte, false, false⟩

/-- Bytes of the secret parameters. -/
def hidden (bytes : List Byte) : List Octet :=
  bytes.map fun byte => ⟨byte, true, false⟩

/-- Bytes that no redaction may cover. -/
def visible (octets : List Octet) : List Octet :=
  octets.map fun octet => { octet with guarded := true }

def text (octets : List Octet) : List Byte :=
  octets.map Octet.byte

/-! ### Characters -/

def isLetter (byte : Byte) : Bool :=
  inRange 'a' 'z' byte || inRange 'A' 'Z' byte

def isDigit (byte : Byte) : Bool :=
  inRange '0' '9' byte

def isHex (byte : Byte) : Bool :=
  isDigit byte || inRange 'a' 'f' byte || inRange 'A' 'F' byte

def unhex (byte : Byte) : Nat :=
  if isDigit byte then byte.toNat - '0'.toNat
  else if inRange 'a' 'f' byte then byte.toNat - 'a'.toNat + 10
  else byte.toNat - 'A'.toNat + 10

def upperHex (digit : Nat) : Byte :=
  (ascii "0123456789ABCDEF").getD digit 0

def oneOf (characters : String) (byte : Byte) : Bool :=
  byte ∈ ascii characters

/-! ### Escaping -/

inductive Encoding where
  | path
  | host
  | zone
deriving DecidableEq, Repr

def shouldEscape (mode : Encoding) (byte : Byte) : Bool :=
  if isLetter byte || isDigit byte then
    false
  else if (mode = .host ∨ mode = .zone) ∧ oneOf "!$&'()*+,;=:[]<>\"" byte then
    false
  else if oneOf "-_.~" byte then
    false
  else if oneOf "$&+,/:;=?@" byte ∧ mode = .path then
    byte = char '?'
  else
    true

/-- A decoded byte, with the origins of the characters it was written as. -/
structure Decoded where
  byte : Byte
  sign : Bool
  high : Bool
  low : Bool
deriving DecidableEq, Repr

def Decoded.ofOctet (octet : Octet) : Decoded where
  byte := octet.byte
  sign := octet.secret
  high := octet.secret
  low := octet.secret

def Decoded.octet (decoded : Decoded) : Octet where
  byte := decoded.byte
  secret := decoded.sign || decoded.high || decoded.low
  guarded := false

/-- Percent decoding. `admits` says which decoded bytes and which plain bytes the part
of the URL may have. -/
def unescape (admitsEncoded : Byte → Byte → Bool) (admitsPlain : Byte → Bool) :
    List Octet → Option (List Decoded)
  | [] => some []
  | octet :: rest =>
    if octet.byte = char '%' then
      match rest with
      | high :: low :: rest =>
        if isHex high.byte && isHex low.byte && admitsEncoded high.byte low.byte then
          (unescape admitsEncoded admitsPlain rest).map fun decoded =>
            { byte := BitVec.ofNat 8 (unhex high.byte * 16 + unhex low.byte)
              sign := octet.secret
              high := high.secret
              low := low.secret } :: decoded
        else
          none
      | _ => none
    else if admitsPlain octet.byte then
      (unescape admitsEncoded admitsPlain rest).map fun decoded =>
        Decoded.ofOctet octet :: decoded
    else
      none

/-- The mode of paths, user information and fragments. -/
def unescapePath : List Octet → Option (List Decoded) :=
  unescape (fun _ _ => true) fun _ => true

/-- In a host only bytes that are not ASCII are encoded, and `%25`. -/
def unescapeHost (octets : List Octet) : Option (List Octet) :=
  (unescape (fun high low => ¬ (unhex high < 8) ∨ (high = char '2' ∧ low = char '5'))
    (fun byte => 0x80 ≤ byte.toNat ∨ shouldEscape .host byte = false) octets).map
      (List.map Decoded.octet)

def unescapeZone (octets : List Octet) : Option (List Octet) :=
  (unescape
    (fun high low =>
      let byte := BitVec.ofNat 8 (unhex high * 16 + unhex low)
      (high = char '2' ∧ low = char '5') ∨ byte = char ' ' ∨ shouldEscape .host byte = false)
    (fun byte => 0x80 ≤ byte.toNat ∨ shouldEscape .zone byte = false) octets).map
      (List.map Decoded.octet)

def escapeByte (decoded : Decoded) : List Octet :=
  if shouldEscape .path decoded.byte then
    [⟨char '%', decoded.sign, false⟩, ⟨upperHex (decoded.byte.toNat / 16), decoded.high, false⟩,
      ⟨upperHex (decoded.byte.toNat % 16), decoded.low, false⟩]
  else
    [decoded.octet]

def escapePath (decoded : List Decoded) : List Octet :=
  decoded.flatMap escapeByte

def validEncoded (octets : List Octet) : Bool :=
  octets.all fun octet =>
    oneOf "!$&'()*+,;=:@[]%" octet.byte || !shouldEscape .path octet.byte

/-! ### Parsing -/

structure Url where
  scheme : List Octet
  host : List Octet
  path : List Decoded
  rawPath : List Octet
  rawQuery : List Octet
deriving DecidableEq, Repr

def cut (character : Char) (octets : List Octet) : List Octet × Option (List Octet) :=
  match octets.dropWhile fun octet => octet.byte ≠ char character with
  | [] => (octets, none)
  | _ :: rest => (octets.takeWhile fun octet => octet.byte ≠ char character, some rest)

def cutLast (character : Char) (octets : List Octet) : Option (List Octet × List Octet) :=
  match cut character octets.reverse with
  | (_, none) => none
  | (behind, some before) => some (before.reverse, behind.reverse)

/-- The scheme in front of a colon; no scheme when another character stands before it,
and an error when nothing does. -/
def getScheme (octets : List Octet) : Option (List Octet × List Octet) :=
  let named := octets.takeWhile fun octet =>
    isLetter octet.byte || isDigit octet.byte || oneOf "+-." octet.byte
  let rest := octets.drop named.length
  match named, rest with
  | [], colon :: _ => if colon.byte = char ':' then none else some ([], octets)
  | first :: _, colon :: rest =>
    if colon.byte = char ':' ∧ isLetter first.byte then some (named, rest) else some ([], octets)
  | _, [] => some ([], octets)

def validOptionalPort (port : List Octet) : Bool :=
  match port with
  | [] => true
  | colon :: digits => colon.byte = char ':' ∧ digits.all fun octet => isDigit octet.byte

def validUserinfo (octets : List Octet) : Bool :=
  octets.all fun octet =>
    isLetter octet.byte || isDigit octet.byte || oneOf "-._:~!$&'()*+,;=%@" octet.byte

def startsWith (front : String) (octets : List Octet) : Bool :=
  (ascii front).isPrefixOf (text octets)

/-- The octets before the first place where the characters stand, and from there on. -/
def splitAt (characters : String) (octets : List Octet) : Option (List Octet × List Octet) :=
  match (List.range (octets.length + 1)).find? fun position =>
      startsWith characters (octets.drop position) with
  | none => none
  | some position => some (octets.take position, octets.drop position)

/-- A host with several colons is accepted here, which net/url refuses since Go 1.26. -/
def parseHost (octets : List Octet) : Option (List Octet) :=
  if startsWith "[" octets then
    match cutLast ']' octets with
    | none => none
    | some (inner, port) =>
      if validOptionalPort port then
        match splitAt "%25" inner with
        | none => unescapeHost octets
        | some (address, zone) =>
          match unescapeHost address, unescapeZone zone,
            unescapeHost (octets.drop inner.length) with
          | some address, some zone, some rest => some (address ++ zone ++ rest)
          | _, _, _ => none
      else
        none
  else
    match cutLast ':' octets with
    | none => unescapeHost octets
    | some (host, _) =>
      if validOptionalPort (octets.drop host.length) then unescapeHost octets else none

/-- The host of an authority; the user information is checked. -/
def parseAuthority (octets : List Octet) : Option (List Octet) :=
  match cutLast '@' octets with
  | none => parseHost octets
  | some (userinfo, host) =>
    match parseHost host with
    | none => none
    | some host =>
      if validUserinfo userinfo ∧ (unescapePath userinfo).isSome then some host else none

def Url.setPath (url : Url) (octets : List Octet) : Option Url :=
  match unescapePath octets with
  | none => none
  | some path =>
    some { url with
      path := path
      rawPath := if text octets = text (escapePath path) then [] else octets }

def countOf (character : Char) (octets : List Octet) : Nat :=
  octets.countP fun octet => octet.byte = char character

def parseRest (octets : List Octet) : Option Url :=
  if octets.any fun octet => octet.byte.toNat < 0x20 ∨ octet.byte = 0x7f#8 then
    none
  else if text octets = ascii "*" then
    some { scheme := [], host := [], path := octets.map Decoded.ofOctet, rawPath := [], rawQuery := [] }
  else
    match getScheme octets with
    | none => none
    | some (scheme, rest) =>
      -- A question mark at the end is not part of the target.
      let (rest, rawQuery) :=
        match cut '?' rest with
        | (front, none) => (front, [])
        | (front, some query) => (front, query)
      let url : Url :=
        { scheme := scheme.map fun octet => { octet with byte := lowerByte octet.byte }
          host := []
          path := []
          rawPath := []
          rawQuery := rawQuery }
      if startsWith "/" rest = false ∧ scheme ≠ [] then
        some url
      else if startsWith "/" rest = false ∧ countOf ':' (cut '/' rest).1 ≠ 0 then
        none
      else if startsWith "//" rest ∧ (scheme ≠ [] ∨ startsWith "///" rest = false) then
        let authority := (rest.drop 2).takeWhile fun octet => octet.byte ≠ char '/'
        match parseAuthority authority with
        | none => none
        | some host =>
          { url with host := host }.setPath (rest.drop (2 + authority.length))
      else
        url.setPath rest

def parse (octets : List Octet) : Option Url :=
  match cut '#' octets with
  | (octets, none) => parseRest octets
  | (octets, some fragment) =>
    match parseRest octets with
    | none => none
    | some url => if (unescapePath fragment).isSome then some url else none

namespace Url

def escapedPath (url : Url) : List Octet :=
  if url.rawPath ≠ [] ∧ validEncoded url.rawPath ∧
      (unescapePath url.rawPath).map (List.map Decoded.byte) = some (url.path.map Decoded.byte) then
    url.rawPath
  else if url.path.map Decoded.byte = ascii "*" then
    url.path.map Decoded.octet
  else
    escapePath url.path

/-- The host without its port and the port, without brackets. -/
def splitHostPort (host : List Octet) : List Octet × List Octet :=
  let (name, port) :=
    match cutLast ':' host with
    | none => (host, [])
    | some (name, port) =>
      if validOptionalPort (host.drop name.length) then (name, port) else (host, [])
  if startsWith "[" name ∧ (name.getLast?.map Octet.byte) = some (char ']') then
    ((name.drop 1).dropLast, port)
  else
    (name, port)

def hostname (url : Url) : List Octet :=
  (splitHostPort url.host).1

def port (url : Url) : List Octet :=
  (splitHostPort url.host).2

end Url

end ReclaimTee.Providers
