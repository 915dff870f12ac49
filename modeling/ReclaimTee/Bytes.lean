/-
Bytes, and what the string functions of the source's library do to them.
-/

import Mathlib.Data.BitVec

namespace ReclaimTee

abbrev Byte := BitVec 8

instance : LawfulBEq Byte := inferInstance

instance : LawfulBEq (List Byte) := inferInstance

def char (character : Char) : Byte :=
  BitVec.ofNat 8 character.toNat

def ascii (text : String) : List Byte :=
  text.toList.map char

/-- A text inside a message, one character for each byte. -/
def display (text : List Byte) : String :=
  String.ofList (text.map fun byte => Char.ofNat byte.toNat)

/-- What stands for a byte that belongs to no rune. -/
def replacementCharacter : List Byte :=
  [0xef#8, 0xbf#8, 0xbd#8]

def inRange (low high : Char) (byte : Byte) : Bool :=
  low.toNat ≤ byte.toNat ∧ byte.toNat ≤ high.toNat

def lowerByte (byte : Byte) : Byte :=
  if inRange 'A' 'Z' byte then byte + 32 else byte

/-- Lower case, as far as it can lead to an ASCII name: the capital dotted i becomes
a plain one, and the Kelvin sign a k. -/
def toLower : List Byte → List Byte
  | [] => []
  | first :: rest =>
    match first, rest with
    | 0xc4#8, 0xb0#8 :: rest => char 'i' :: toLower rest
    | 0xe2#8, 0x84#8 :: 0xaa#8 :: rest => char 'k' :: toLower rest
    | first, rest => lowerByte first :: toLower rest

/-- The white space of Unicode in UTF-8. -/
def spaces : List (List Byte) :=
  [[0x09#8], [0x0a#8], [0x0b#8], [0x0c#8], [0x0d#8], [0x20#8], [0xc2#8, 0x85#8], [0xc2#8, 0xa0#8],
    [0xe1#8, 0x9a#8, 0x80#8], [0xe2#8, 0x80#8, 0xa8#8], [0xe2#8, 0x80#8, 0xa9#8],
    [0xe2#8, 0x80#8, 0xaf#8], [0xe2#8, 0x81#8, 0x9f#8], [0xe3#8, 0x80#8, 0x80#8]] ++
    (List.range 11).map fun index => [0xe2#8, 0x80#8, BitVec.ofNat 8 (0x80 + index)]

/-- Strips any of the given texts from the front; the fuel is the length. -/
def stripFront (texts : List (List Byte)) : Nat → List Byte → List Byte
  | 0, text => text
  | fuel + 1, text =>
    match texts.find? fun front => front.isPrefixOf text with
    | none => text
    | some front => stripFront texts fuel (text.drop front.length)

def trimSpace (text : List Byte) : List Byte :=
  let front := stripFront spaces text.length text
  (stripFront (spaces.map List.reverse) front.length front.reverse).reverse

/-- Case folding against an ASCII name: the long s counts as an s. -/
def foldCase : List Byte → List Byte
  | [] => []
  | first :: rest =>
    match first, rest with
    | 0xc5#8, 0xbf#8 :: rest => char 's' :: foldCase rest
    | first, rest => lowerByte first :: foldCase rest

def cutText (separator : List Byte) : List Byte → Option (List Byte × List Byte)
  | [] => none
  | first :: rest =>
    if separator.isPrefixOf (first :: rest) then
      some ([], (first :: rest).drop separator.length)
    else
      (cutText separator rest).map fun parts => (first :: parts.1, parts.2)

def contains (text part : List Byte) : Bool :=
  text.tails.any fun tail => part.isPrefixOf tail

def splitFrom (separator : List Byte) : Nat → List Byte → List (List Byte)
  | 0, text => [text]
  | fuel + 1, text =>
    match cutText separator text with
    | none => [text]
    | some (first, rest) => first :: splitFrom separator fuel rest

def splitText (text separator : List Byte) : List (List Byte) :=
  splitFrom separator text.length text

end ReclaimTee
