/-
JSON texts over bytes. The writer puts in no space and escapes what HTML needs;
a byte that belongs to no rune is written as the replacement character. The
reader takes any JSON text up to a depth. What is written reads back with such
bytes replaced.
-/

import Mathlib.Data.Nat.Digits.Lemmas
import ReclaimTee.Utf8

namespace ReclaimTee

open List

inductive Json
  | null
  | bool (value : Bool)
  | number (literal : List Byte)
  | string (value : List Byte)
  | array (items : List Json)
  | object (members : List (List Byte × Json))

namespace Json

open Utf8 (Piece coercePiece pieces runeLength Whole)

abbrev Bytes := List Byte

@[match_pattern] abbrev quote : Byte := 0x22#8
@[match_pattern] abbrev comma : Byte := 0x2c#8
@[match_pattern] abbrev colon : Byte := 0x3a#8
@[match_pattern] abbrev openBracket : Byte := 0x5b#8
@[match_pattern] abbrev backslash : Byte := 0x5c#8
@[match_pattern] abbrev closeBracket : Byte := 0x5d#8
@[match_pattern] abbrev openBrace : Byte := 0x7b#8
@[match_pattern] abbrev closeBrace : Byte := 0x7d#8

/-! ### Writing strings -/

def hexDigit (value : Nat) : Byte :=
  if value < 10 then BitVec.ofNat 8 (0x30 + value) else BitVec.ofNat 8 (0x57 + value)

def escapeByte (byte : Byte) : Bytes :=
  if byte = quote then [backslash, quote]
  else if byte = backslash then [backslash, backslash]
  else if byte = 0x08#8 then [backslash, char 'b']
  else if byte = 0x0c#8 then [backslash, char 'f']
  else if byte = 0x0a#8 then [backslash, char 'n']
  else if byte = 0x0d#8 then [backslash, char 'r']
  else if byte = 0x09#8 then [backslash, char 't']
  else if byte.toNat < 0x20 ∨ byte = char '<' ∨ byte = char '>' ∨ byte = char '&' then
    [backslash, char 'u', char '0', char '0', hexDigit (byte.toNat / 16), hexDigit (byte.toNat % 16)]
  else [byte]

def lineSeparator : Bytes := [0xe2#8, 0x80#8, 0xa8#8]

def paragraphSeparator : Bytes := [0xe2#8, 0x80#8, 0xa9#8]

def escapePiece : Piece → Bytes
  | .stray _ => replacementCharacter
  | .rune [byte] => escapeByte byte
  | .rune bytes =>
    if bytes = lineSeparator then ascii "\\u2028"
    else if bytes = paragraphSeparator then ascii "\\u2029"
    else bytes

def escape (text : Bytes) : Bytes :=
  (pieces text).flatMap escapePiece

def encodeString (text : Bytes) : Bytes :=
  quote :: (escape text ++ [quote])

/-! ### Reading strings -/

def encodeRune (code : Nat) : Bytes :=
  if code < 0x80 then [BitVec.ofNat 8 code]
  else if code < 0x800 then
    [BitVec.ofNat 8 (0xc0 + code / 0x40), BitVec.ofNat 8 (0x80 + code % 0x40)]
  else if code < 0x10000 then
    [BitVec.ofNat 8 (0xe0 + code / 0x1000), BitVec.ofNat 8 (0x80 + code / 0x40 % 0x40),
      BitVec.ofNat 8 (0x80 + code % 0x40)]
  else
    [BitVec.ofNat 8 (0xf0 + code / 0x40000), BitVec.ofNat 8 (0x80 + code / 0x1000 % 0x40),
      BitVec.ofNat 8 (0x80 + code / 0x40 % 0x40), BitVec.ofNat 8 (0x80 + code % 0x40)]

def hexValue (byte : Byte) : Option Nat :=
  if 0x30 ≤ byte.toNat ∧ byte.toNat ≤ 0x39 then some (byte.toNat - 0x30)
  else if 0x61 ≤ byte.toNat ∧ byte.toNat ≤ 0x66 then some (byte.toNat - 0x57)
  else if 0x41 ≤ byte.toNat ∧ byte.toNat ≤ 0x46 then some (byte.toNat - 0x37)
  else none

def hex4 : Bytes → Option (Nat × Bytes)
  | first :: second :: third :: fourth :: rest => do
      let first ← hexValue first
      let second ← hexValue second
      let third ← hexValue third
      let fourth ← hexValue fourth
      return (((first * 16 + second) * 16 + third) * 16 + fourth, rest)
  | _ => none

/-- The second half of a surrogate pair. -/
def lowSurrogate : Bytes → Option (Nat × Bytes)
  | backslash :: 0x75#8 :: rest => do
      let (low, rest) ← hex4 rest
      if 0xdc00 ≤ low ∧ low < 0xe000 then some (low, rest) else none
  | _ => none

/-- A surrogate without its other half is replaced. -/
def unicodeEscape (input : Bytes) : Option (Bytes × Bytes) := do
  let (code, rest) ← hex4 input
  if 0xd800 ≤ code ∧ code < 0xe000 then
    match lowSurrogate rest with
    | some (low, after) =>
      if code < 0xdc00 then
        some (encodeRune (0x10000 + (code - 0xd800) * 0x400 + (low - 0xdc00)), after)
      else
        some (replacementCharacter, rest)
    | none => some (replacementCharacter, rest)
  else
    some (encodeRune code, rest)

def readEscape : Bytes → Option (Bytes × Bytes)
  | [] => none
  | byte :: rest =>
    if byte = quote ∨ byte = backslash ∨ byte = char '/' then some ([byte], rest)
    else if byte = char 'b' then some ([0x08#8], rest)
    else if byte = char 'f' then some ([0x0c#8], rest)
    else if byte = char 'n' then some ([0x0a#8], rest)
    else if byte = char 'r' then some ([0x0d#8], rest)
    else if byte = char 't' then some ([0x09#8], rest)
    else if byte = char 'u' then unicodeEscape rest
    else none

def readCharacter : Bytes → Option (Bytes × Bytes)
  | [] => none
  | byte :: rest =>
    if byte = backslash then readEscape rest
    else if byte.toNat < 0x20 then none
    else
      match runeLength (byte :: rest) with
      | none => some (replacementCharacter, rest)
      | some length => some ((byte :: rest).take length, (byte :: rest).drop length)

def readCharacters : Nat → Bytes → Option (Bytes × Bytes)
  | 0, _ => none
  | fuel + 1, input =>
    match input with
    | quote :: rest => some ([], rest)
    | input => do
        let (character, rest) ← readCharacter input
        let (more, rest) ← readCharacters fuel rest
        return (character ++ more, rest)

def readString (input : Bytes) : Option (Bytes × Bytes) :=
  readCharacters input.length input

/-! ### Values -/

mutual

def encode : Json → Bytes
  | null => ascii "null"
  | bool true => ascii "true"
  | bool false => ascii "false"
  | number literal => literal
  | string value => encodeString value
  | array [] => [openBracket, closeBracket]
  | array (first :: rest) => openBracket :: (encode first ++ encodeItems rest)
  | object [] => [openBrace, closeBrace]
  | object ((name, value) :: rest) =>
    openBrace :: (encodeString name ++ colon :: (encode value ++ encodeMembers rest))

def encodeItems : List Json → Bytes
  | [] => [closeBracket]
  | item :: rest => comma :: (encode item ++ encodeItems rest)

def encodeMembers : List (Bytes × Json) → Bytes
  | [] => [closeBrace]
  | (name, value) :: rest =>
    comma :: (encodeString name ++ colon :: (encode value ++ encodeMembers rest))

end

def isSpace (byte : Byte) : Bool :=
  byte = 0x20#8 || byte = 0x09#8 || byte = 0x0a#8 || byte = 0x0d#8

def skipSpace (input : Bytes) : Bytes :=
  input.dropWhile isSpace

def isDigit (byte : Byte) : Bool :=
  0x30 ≤ byte.toNat ∧ byte.toNat ≤ 0x39

def readDigits (input : Bytes) : Option (Bytes × Bytes) :=
  let digits := input.takeWhile isDigit
  if digits = [] then none else some (digits, input.dropWhile isDigit)

def readInteger : Bytes → Option (Bytes × Bytes)
  | [] => none
  | byte :: rest => if byte = 0x30#8 then some ([byte], rest) else readDigits (byte :: rest)

def readFraction : Bytes → Option (Bytes × Bytes)
  | 0x2e#8 :: rest => do
      let (digits, rest) ← readDigits rest
      return (0x2e#8 :: digits, rest)
  | input => some ([], input)

def readExponent : Bytes → Option (Bytes × Bytes)
  | [] => some ([], [])
  | byte :: rest =>
    if byte = char 'e' ∨ byte = char 'E' then
      match rest with
      | sign :: digits =>
        if sign = char '+' ∨ sign = char '-' then do
          let (digits, rest) ← readDigits digits
          return (byte :: sign :: digits, rest)
        else do
          let (digits, rest) ← readDigits rest
          return (byte :: digits, rest)
      | [] => none
    else
      some ([], byte :: rest)

def readMagnitude (input : Bytes) : Option (Bytes × Bytes) := do
  let (whole, rest) ← readInteger input
  let (fraction, rest) ← readFraction rest
  let (exponent, rest) ← readExponent rest
  return (whole ++ fraction ++ exponent, rest)

def readNumber : Bytes → Option (Bytes × Bytes)
  | 0x2d#8 :: rest => do
      let (literal, rest) ← readMagnitude rest
      return (0x2d#8 :: literal, rest)
  | input => readMagnitude input

/-- A value that is neither a string nor a list of values. -/
def readWord (input : Bytes) : Option (Json × Bytes) :=
  if (ascii "null").isPrefixOf input then some (null, input.drop 4)
  else if (ascii "true").isPrefixOf input then some (bool true, input.drop 4)
  else if (ascii "false").isPrefixOf input then some (bool false, input.drop 5)
  else (readNumber input).map fun read => (number read.1, read.2)

mutual

/-- The next value, with at most so many levels of brackets. -/
def readValue : Nat → Nat → Bytes → Option (Json × Bytes)
  | 0, _, _ => none
  | fuel + 1, depth, input =>
    match skipSpace input with
    | [] => none
    | quote :: rest => (readString rest).map fun read => (string read.1, read.2)
    | openBracket :: rest =>
      match depth with
      | 0 => none
      | depth + 1 =>
        match skipSpace rest with
        | closeBracket :: after => some (array [], after)
        | inner => (readItems fuel depth inner).map fun read => (array read.1, read.2)
    | openBrace :: rest =>
      match depth with
      | 0 => none
      | depth + 1 =>
        match skipSpace rest with
        | closeBrace :: after => some (object [], after)
        | inner => (readMembers fuel depth inner).map fun read => (object read.1, read.2)
    | word => readWord word

def readItems : Nat → Nat → Bytes → Option (List Json × Bytes)
  | 0, _, _ => none
  | fuel + 1, depth, input => do
      let (item, rest) ← readValue fuel depth input
      match skipSpace rest with
      | comma :: after => do
          let (more, rest) ← readItems fuel depth after
          return (item :: more, rest)
      | closeBracket :: after => return ([item], after)
      | _ => none

def readMembers : Nat → Nat → Bytes → Option (List (Bytes × Json) × Bytes)
  | 0, _, _ => none
  | fuel + 1, depth, input =>
    match skipSpace input with
    | quote :: opened => do
        let (name, rest) ← readString opened
        match skipSpace rest with
        | colon :: behind => do
            let (value, rest) ← readValue fuel depth behind
            match skipSpace rest with
            | comma :: after => do
                let (more, rest) ← readMembers fuel depth after
                return ((name, value) :: more, rest)
            | closeBrace :: after => return ([(name, value)], after)
            | _ => none
        | _ => none
    | _ => none

end

def maxNestingDepth : Nat := 10000

/-- Every byte is read at two levels at most, so the fuel suffices. -/
def parse (input : Bytes) : Option Json := do
  let (value, rest) ← readValue (2 * input.length + 1) maxNestingDepth input
  if skipSpace rest = [] then some value else none

/-! ### Strings read back -/

/-- A text with the replacement character for every stray byte. -/
def coerce (text : Bytes) : Bytes :=
  (pieces text).flatMap coercePiece

theorem hexValue_hexDigit {value : Nat} (small : value < 16) :
    hexValue (hexDigit value) = some value := by
  revert value
  decide

theorem whole_ascii {byte : Byte} (whole : Whole [byte]) : byte.toNat < 0x80 := by
  by_contra wide
  simp [Whole, runeLength, wide] at whole

theorem wide_of_whole {first second : Byte} {rest : Bytes}
    (whole : Whole (first :: second :: rest)) : 0x80 ≤ first.toNat := by
  by_contra small
  simp [Whole, runeLength, Nat.lt_of_not_le small] at whole

theorem readCharacter_plain {byte : Byte} (rest : Bytes) (noEscape : byte ≠ backslash)
    (printable : ¬ byte.toNat < 0x20) (ascii : byte.toNat < 0x80) :
    readCharacter (byte :: rest) = some ([byte], rest) := by
  have decoded : runeLength (byte :: rest) = some 1 := by
    simp [runeLength, ascii]
  simp [readCharacter, noEscape, printable, decoded]

theorem readCharacter_hex {byte : Byte} (rest : Bytes) (ascii : byte.toNat < 0x80) :
    readCharacter ([backslash, char 'u', char '0', char '0', hexDigit (byte.toNat / 16),
      hexDigit (byte.toNat % 16)] ++ rest) = some ([byte], rest) := by
  have high := hexValue_hexDigit (show byte.toNat / 16 < 16 by omega)
  have low := hexValue_hexDigit (Nat.mod_lt byte.toNat (show 0 < 16 by decide))
  have zero : hexValue (char '0') = some 0 := by decide
  have code : (0 + byte.toNat / 16) * 16 + byte.toNat % 16 = byte.toNat := by omega
  have read : hex4 ([char '0', char '0', hexDigit (byte.toNat / 16),
      hexDigit (byte.toNat % 16)] ++ rest) = some (byte.toNat, rest) := by
    simp only [hex4, cons_append, nil_append, zero, high, low, Option.bind_eq_bind,
      Option.bind_some, Nat.zero_mul, Nat.zero_add]
    rw [Nat.zero_add] at code
    rw [code]
    rfl
  have noSurrogate : ¬ (0xd800 ≤ byte.toNat ∧ byte.toNat < 0xe000) := by omega
  have escaped : unicodeEscape ([char '0', char '0', hexDigit (byte.toNat / 16),
      hexDigit (byte.toNat % 16)] ++ rest) = some ([byte], rest) := by
    simp only [unicodeEscape, read, Option.bind_eq_bind, Option.bind_some, noSurrogate, if_false,
      encodeRune, ascii, if_true, BitVec.ofNat_toNat, BitVec.setWidth_eq]
  exact escaped

theorem readCharacter_escapeByte {byte : Byte} (rest : Bytes) (ascii : byte.toNat < 0x80) :
    readCharacter (escapeByte byte ++ rest) = some ([byte], rest) := by
  unfold escapeByte
  iterate 2
    split
    · next same =>
      rw [same]
      rfl
  next noEscape =>
  iterate 5
    split
    · next same =>
      rw [same]
      rfl
  split
  · exact readCharacter_hex rest ascii
  · next plain => exact readCharacter_plain rest noEscape (fun small => plain (Or.inl small)) ascii

theorem escapePiece_wide (first second : Byte) (more : Bytes) :
    escapePiece (.rune (first :: second :: more)) =
      if first :: second :: more = lineSeparator then ascii "\\u2028"
      else if first :: second :: more = paragraphSeparator then ascii "\\u2029"
      else first :: second :: more := rfl

theorem readCharacter_escapePiece {piece : Piece} (rest : Bytes) (sound : piece.Sound) :
    readCharacter (escapePiece piece ++ rest) = some (coercePiece piece, rest) := by
  cases piece with
  | stray byte => rfl
  | rune bytes =>
    match bytes with
    | [] => cases sound
    | [byte] => exact readCharacter_escapeByte rest (whole_ascii sound)
    | first :: second :: more =>
      have wide := wide_of_whole sound
      rw [escapePiece_wide]
      iterate 2
        split
        · next same =>
          rw [same]
          rfl
      have noEscape : first ≠ backslash := by
        intro same
        rw [same] at wide
        exact absurd wide (by decide)
      have printable : ¬ first.toNat < 0x20 := by omega
      have decoded := Whole.append sound rest
      simp only [readCharacter, cons_append, noEscape, printable, if_false] at decoded ⊢
      rw [decoded]
      simp [coercePiece]

theorem escapePiece_head {piece : Piece} (sound : piece.Sound) :
    ∃ byte tail, escapePiece piece = byte :: tail ∧ byte ≠ quote := by
  have read := readCharacter_escapePiece [] sound
  rw [append_nil] at read
  cases shape : escapePiece piece with
  | nil =>
    rw [shape] at read
    cases read
  | cons byte tail =>
    refine ⟨byte, tail, rfl, ?_⟩
    intro same
    subst same
    rw [shape, readCharacter_plain tail (by decide) (by decide) (by decide)] at read
    obtain ⟨single, rfl⟩ := Prod.mk.inj (Option.some.inj read)
    cases piece with
    | stray byte => cases single
    | rune bytes =>
      have bytes : bytes = [quote] := single.symm
      subst bytes
      cases shape

theorem readCharacters_escapePiece {piece : Piece} (fuel : Nat) (rest : Bytes)
    (sound : piece.Sound) :
    readCharacters (fuel + 1) (escapePiece piece ++ rest) =
      (readCharacters fuel rest).map fun read => (coercePiece piece ++ read.1, read.2) := by
  have read := readCharacter_escapePiece rest sound
  obtain ⟨byte, tail, shape, noQuote⟩ := escapePiece_head sound
  rw [shape, cons_append] at read ⊢
  conv_lhs => unfold readCharacters
  split
  · next opened =>
    cases opened
    exact absurd rfl noQuote
  · rw [read]
    simp only [Option.bind_eq_bind, Option.bind_some]
    cases readCharacters fuel rest <;> rfl

theorem readCharacters_escapePieces {runes : List Piece} {fuel : Nat} (rest : Bytes)
    (sound : ∀ piece ∈ runes, piece.Sound) (enough : runes.length < fuel) :
    readCharacters fuel (runes.flatMap escapePiece ++ quote :: rest) =
      some (runes.flatMap coercePiece, rest) := by
  induction runes generalizing fuel with
  | nil =>
    obtain _ | fewer := fuel
    · omega
    rfl
  | cons piece more ih =>
    obtain _ | fewer := fuel
    · omega
    obtain ⟨first, later⟩ := forall_mem_cons.mp sound
    rw [flatMap_cons, append_assoc, readCharacters_escapePiece fewer _ first,
      ih later (by simpa using enough)]
    rfl

theorem length_le_escapePieces {runes : List Piece}
    (sound : ∀ piece ∈ runes, piece.Sound) :
    runes.length ≤ (runes.flatMap escapePiece).length := by
  induction runes with
  | nil => exact Nat.le_refl _
  | cons piece more ih =>
    obtain ⟨first, later⟩ := forall_mem_cons.mp sound
    obtain ⟨byte, tail, shape, _⟩ := escapePiece_head first
    have rest := ih later
    rw [flatMap_cons, shape, length_append, length_cons, length_cons]
    omega

theorem readString_escape (text rest : Bytes) :
    readString (escape text ++ quote :: rest) = some (coerce text, rest) := by
  have sound : ∀ piece ∈ pieces text, piece.Sound := fun _ => Utf8.sound_of_mem
  apply readCharacters_escapePieces rest sound
  have shorter := length_le_escapePieces sound
  rw [length_append, length_cons]
  unfold escape
  omega

/-! ### Texts with stray bytes -/

def mend : Piece → Piece
  | .stray _ => .rune replacementCharacter
  | .rune bytes => .rune bytes

theorem pieces_coercePieces {runes : List Piece}
    (sound : ∀ piece ∈ runes, piece.Sound) :
    pieces (runes.flatMap coercePiece) = runes.map mend := by
  induction runes with
  | nil => rfl
  | cons piece more ih =>
    obtain ⟨first, later⟩ := forall_mem_cons.mp sound
    cases piece with
    | stray byte =>
      have known : Whole replacementCharacter := rfl
      exact (Utf8.pieces_whole_append known _).trans (congrArg _ (ih later))
    | rune bytes =>
      exact (Utf8.pieces_whole_append first _).trans (congrArg _ (ih later))

/-- What the reader gives back is written as the text itself. -/
theorem encodeString_coerce (text : Bytes) : encodeString (coerce text) = encodeString text := by
  have mended : ∀ piece, escapePiece (mend piece) = escapePiece piece := by
    intro piece
    cases piece with
    | stray byte => rfl
    | rune bytes => rfl
  unfold encodeString escape coerce
  rw [pieces_coercePieces fun _ => Utf8.sound_of_mem, flatMap_map]
  simp only [mended]

theorem coerce_of_valid {text : Bytes} (valid : Utf8.valid text = true) : coerce text = text := by
  induction text using Utf8.pieces_induction with
  | nil => rfl
  | stray first rest decoded ih =>
    rw [Utf8.valid_iff, Utf8.pieces_stray decoded] at valid
    exact absurd mem_cons_self (valid first)
  | rune text length decoded ih =>
    rw [Utf8.valid_iff, Utf8.pieces_rune decoded] at valid
    have later : Utf8.valid (text.drop length) = true := by
      rw [Utf8.valid_iff]
      intro byte member
      exact valid byte (mem_cons_of_mem _ member)
    have mended := ih later
    unfold coerce at mended ⊢
    rw [Utf8.pieces_rune decoded, flatMap_cons, mended]
    exact take_append_drop length text

/-! ### Numbers -/

def digitByte (digit : Nat) : Byte :=
  BitVec.ofNat 8 (0x30 + digit)

def decimal (value : Nat) : Bytes :=
  if value = 0 then [0x30#8] else (Nat.digits 10 value).reverse.map digitByte

def decimalValue (digits : Bytes) : Nat :=
  digits.foldl (fun value byte => value * 10 + (byte.toNat - 0x30)) 0

theorem digitByte_toNat {digit : Nat} (small : digit < 10) :
    (digitByte digit).toNat = 0x30 + digit := by
  unfold digitByte
  rw [BitVec.toNat_ofNat]
  omega

theorem decimal_digits (value : Nat) : ∀ byte ∈ decimal value, isDigit byte = true := by
  intro byte member
  unfold decimal at member
  split at member
  · rw [mem_singleton.mp member]
    rfl
  obtain ⟨digit, inside, rfl⟩ := mem_map.mp member
  have small := Nat.digits_lt_base (by decide) (mem_reverse.mp inside)
  have toNat := digitByte_toNat small
  unfold isDigit
  rw [toNat, decide_eq_true_iff]
  omega

theorem foldl_digits (digits : List Nat) (small : ∀ digit ∈ digits, digit < 10) :
    (digits.reverse.map digitByte).foldl (fun value byte => value * 10 + (byte.toNat - 0x30)) 0 =
      Nat.ofDigits 10 digits := by
  induction digits with
  | nil => rfl
  | cons digit more ih =>
    rw [reverse_cons, map_append, foldl_append,
      ih fun other member => small other (mem_cons_of_mem _ member), Nat.ofDigits_cons]
    simp only [map_cons, map_nil, foldl_cons, foldl_nil,
      digitByte_toNat (small digit mem_cons_self)]
    omega

theorem decimalValue_decimal (value : Nat) : decimalValue (decimal value) = value := by
  unfold decimalValue decimal
  split
  · next zero =>
    rw [zero]
    rfl
  · rw [foldl_digits _ fun digit member => Nat.digits_lt_base (by decide) member]
    exact Nat.ofDigits_digits 10 value

theorem decimal_shape (value : Nat) :
    decimal value = [0x30#8] ∨ ∃ first rest, decimal value = first :: rest ∧ first ≠ 0x30#8 := by
  unfold decimal
  split
  · exact Or.inl rfl
  rename_i positive
  right
  have nonempty : Nat.digits 10 value ≠ [] := Nat.digits_ne_nil_iff_ne_zero.mpr positive
  have leading := Nat.getLast_digit_ne_zero 10 positive
  have small := Nat.digits_lt_base (by decide : 1 < 10) (getLast_mem nonempty)
  rw [← dropLast_concat_getLast nonempty, reverse_concat, map_cons]
  refine ⟨_, _, rfl, ?_⟩
  intro zero
  have toNat := digitByte_toNat small
  rw [zero] at toNat
  have last : (Nat.digits 10 value).getLast nonempty = 0 := by
    have known : (0x30#8).toNat = 0x30 := rfl
    omega
  exact leading last

/-- What does not go on with a number. -/
def Stops : Bytes → Prop
  | [] => True
  | byte :: _ => isDigit byte = false ∧ byte ≠ 0x2e#8 ∧ byte ≠ char 'e' ∧ byte ≠ char 'E'

theorem readFraction_stops {rest : Bytes} (stops : Stops rest) :
    readFraction rest = some ([], rest) := by
  unfold readFraction
  split
  · exact absurd rfl stops.2.1
  · rfl

theorem readExponent_stops {rest : Bytes} (stops : Stops rest) :
    readExponent rest = some ([], rest) := by
  cases rest with
  | nil => rfl
  | cons byte more =>
    have noExponent : ¬ (byte = char 'e' ∨ byte = char 'E') := by
      rintro (lower | upper)
      · exact stops.2.2.1 lower
      · exact stops.2.2.2 upper
    simp only [readExponent, noExponent, if_false]

theorem readDigits_append {digits rest : Bytes} (all : ∀ byte ∈ digits, isDigit byte = true)
    (nonempty : digits ≠ []) (stops : Stops rest) :
    readDigits (digits ++ rest) = some (digits, rest) := by
  have none : rest.takeWhile isDigit = [] ∧ rest.dropWhile isDigit = rest := by
    cases rest with
    | nil => exact ⟨rfl, rfl⟩
    | cons byte more =>
      have other : isDigit byte = false := stops.1
      simp [other]
  unfold readDigits
  rw [takeWhile_append_of_pos all, dropWhile_append_of_pos all, none.1, none.2, append_nil]
  simp [nonempty]

theorem readInteger_decimal (value : Nat) {rest : Bytes} (stops : Stops rest) :
    readInteger (decimal value ++ rest) = some (decimal value, rest) := by
  have digits := decimal_digits value
  rcases decimal_shape value with zero | ⟨first, more, shape, leading⟩
  · rw [zero]
    rfl
  · have read := readDigits_append digits (by rw [shape]; exact cons_ne_nil _ _) stops
    rw [shape, cons_append] at read ⊢
    simp only [readInteger, leading, if_false]
    exact read

theorem readNumber_decimal (value : Nat) {rest : Bytes} (stops : Stops rest) :
    readNumber (decimal value ++ rest) = some (decimal value, rest) := by
  have magnitude : readMagnitude (decimal value ++ rest) = some (decimal value, rest) := by
    simp [readMagnitude, readInteger_decimal value stops, readFraction_stops stops,
      readExponent_stops stops]
  unfold readNumber
  split
  · next negative =>
    have digits := decimal_digits value
    rcases decimal_shape value with zero | ⟨first, more, shape, leading⟩
    · rw [zero] at negative
      cases negative
    · rw [shape, cons_append] at negative
      rw [shape, (List.cons.inj negative).1] at digits
      exact absurd (digits _ mem_cons_self) (by decide)
  · exact magnitude

/-! ### Values read back -/

mutual

/-- A value within a depth, and what it reads back as. -/
inductive Reads : Nat → Json → Json → Prop
  | null (depth : Nat) : Reads depth null null
  | bool (depth : Nat) (value : Bool) : Reads depth (bool value) (bool value)
  | number (depth value : Nat) : Reads depth (number (decimal value)) (number (decimal value))
  | string (depth : Nat) (value : Bytes) : Reads depth (string value) (string (coerce value))
  | array {depth : Nat} {items later : List Json} (each : ReadsItems depth items later) :
      Reads (depth + 1) (array items) (array later)
  | object {depth : Nat} {members later : List (Bytes × Json)}
      (each : ReadsMembers depth members later) :
      Reads (depth + 1) (object members) (object later)

inductive ReadsItems : Nat → List Json → List Json → Prop
  | nil (depth : Nat) : ReadsItems depth [] []
  | cons {depth : Nat} {item after : Json} {items later : List Json}
      (first : Reads depth item after) (rest : ReadsItems depth items later) :
      ReadsItems depth (item :: items) (after :: later)

inductive ReadsMembers : Nat → List (Bytes × Json) → List (Bytes × Json) → Prop
  | nil (depth : Nat) : ReadsMembers depth [] []
  | cons {depth : Nat} (name : Bytes) {value after : Json} {members later : List (Bytes × Json)}
      (first : Reads depth value after) (rest : ReadsMembers depth members later) :
      ReadsMembers depth ((name, value) :: members) ((coerce name, after) :: later)

end

/-- The reader takes a value and leaves what follows it. -/
def ReadsTo (depth : Nat) (value after : Json) : Prop :=
  ∀ fuel rest, 2 * (encode value).length ≤ fuel → Stops rest →
    readValue fuel depth (encode value ++ rest) = some (after, rest)

theorem stops_encodeItems (items : List Json) (rest : Bytes) : Stops (encodeItems items ++ rest) := by
  cases items with
  | nil | cons => exact ⟨by decide, by decide, by decide, by decide⟩

theorem stops_encodeMembers (members : List (Bytes × Json)) (rest : Bytes) :
    Stops (encodeMembers members ++ rest) := by
  cases members with
  | nil | cons => exact ⟨by decide, by decide, by decide, by decide⟩

theorem digit_plain : ∀ byte : Byte, isDigit byte = true →
    isSpace byte = false ∧ byte ≠ quote ∧ byte ≠ openBracket ∧ byte ≠ openBrace ∧
      byte ≠ closeBracket ∧ byte ≠ char 'n' ∧ byte ≠ char 't' ∧ byte ≠ char 'f' := by
  decide +kernel

theorem readWord_number {literal rest : Bytes} {first : Byte} {more : Bytes}
    (shape : literal ++ rest = first :: more) (digit : isDigit first = true)
    (read : readNumber (literal ++ rest) = some (literal, rest)) :
    readWord (literal ++ rest) = some (number literal, rest) := by
  obtain ⟨_, _, _, _, _, noNull, noTrue, noFalse⟩ := digit_plain first digit
  unfold readWord
  rw [read, shape]
  have differs {letter : Byte} {word : Bytes} (other : first ≠ letter) :
      (letter :: word).isPrefixOf (first :: more) = false := by
    simp [isPrefixOf, Ne.symm other]
  have null : (ascii "null").isPrefixOf (first :: more) = false := differs noNull
  have yes : (ascii "true").isPrefixOf (first :: more) = false := differs noTrue
  have no : (ascii "false").isPrefixOf (first :: more) = false := differs noFalse
  simp [null, yes, no]

theorem decimal_cons (value : Nat) : ∃ first more, decimal value = first :: more := by
  rcases decimal_shape value with zero | ⟨first, more, shape, _⟩
  · exact ⟨_, _, zero⟩
  · exact ⟨first, more, shape⟩

theorem readsTo_of_succ {depth : Nat} {value after : Json} (nonempty : encode value ≠ [])
    (reads : ∀ fuel rest, 2 * (encode value).length ≤ fuel + 1 → Stops rest →
      readValue (fuel + 1) depth (encode value ++ rest) = some (after, rest)) :
    ReadsTo depth value after := by
  intro fuel rest enough stops
  have positive := length_pos_iff.mpr nonempty
  obtain _ | fewer := fuel
  · omega
  exact reads fewer rest enough stops

theorem readsTo_null (depth : Nat) : ReadsTo depth null null := by
  refine readsTo_of_succ (by rw [encode]; nofun) fun fuel rest _ _ => ?_
  rfl

theorem readsTo_bool (depth : Nat) (value : Bool) : ReadsTo depth (bool value) (bool value) := by
  refine readsTo_of_succ (by cases value <;> rw [encode] <;> decide) fun fuel rest _ _ => ?_
  cases value <;> rw [encode] <;> rfl

theorem readsTo_number (depth value : Nat) :
    ReadsTo depth (number (decimal value)) (number (decimal value)) := by
  obtain ⟨first, more, shape⟩ := decimal_cons value
  refine readsTo_of_succ (by rw [encode, shape]; nofun) fun fuel rest _ stops => ?_
  have digit := decimal_digits value first (by rw [shape]; exact mem_cons_self)
  have front : decimal value ++ rest = first :: (more ++ rest) := by rw [shape, cons_append]
  have word := readWord_number front digit (readNumber_decimal value stops)
  obtain ⟨noSpace, noQuote, noArray, noObject, _⟩ := digit_plain first digit
  have space : skipSpace (first :: (more ++ rest)) = first :: (more ++ rest) := by
    simp [skipSpace, noSpace]
  rw [encode, front]
  rw [front] at word
  unfold readValue
  rw [space]
  split
  · next empty => cases empty
  · next opened => exact absurd (List.cons.inj opened).1 noQuote
  · next opened => exact absurd (List.cons.inj opened).1 noArray
  · next opened => exact absurd (List.cons.inj opened).1 noObject
  · exact word

theorem readsTo_string (depth : Nat) (value : Bytes) :
    ReadsTo depth (string value) (string (coerce value)) := by
  refine readsTo_of_succ (by rw [encode]; nofun) fun fuel rest _ _ => ?_
  rw [encode, encodeString, cons_append, append_assoc, singleton_append]
  change (readString (escape value ++ quote :: rest)).map _ = _
  rw [readString_escape]
  rfl

theorem reads_opens {depth : Nat} {value after : Json} (reads : Reads depth value after) :
    ∃ first more, encode value = first :: more ∧ isSpace first = false ∧ first ≠ closeBracket := by
  cases reads with
  | null => exact ⟨_, _, rfl, by decide, by decide⟩
  | bool _ value => cases value <;> exact ⟨_, _, rfl, by decide, by decide⟩
  | number _ value =>
    obtain ⟨first, more, shape⟩ := decimal_cons value
    have digit := decimal_digits value first (by rw [shape]; exact mem_cons_self)
    obtain ⟨noSpace, _, _, _, noBracket, _⟩ := digit_plain first digit
    exact ⟨first, more, by rw [encode, shape], noSpace, noBracket⟩
  | string _ value => exact ⟨_, _, by rw [encode, encodeString], by decide, by decide⟩
  | array each | object each =>
    cases each <;> exact ⟨_, _, by rw [encode], by decide, by decide⟩

theorem skipSpace_opens {depth : Nat} {value after : Json} (reads : Reads depth value after)
    (rest : Bytes) : skipSpace (encode value ++ rest) = encode value ++ rest := by
  obtain ⟨first, more, shape, noSpace, _⟩ := reads_opens reads
  rw [shape, cons_append]
  simp [skipSpace, noSpace]

/-- Values up to a closing bracket, from the first of them. -/
def ItemsReadTo (depth : Nat) (items later : List Json) : Prop :=
  ∀ item after, ReadsTo depth item after → ∀ fuel rest,
    2 * (encode item ++ encodeItems items).length ≤ fuel →
      readItems fuel depth (encode item ++ (encodeItems items ++ rest)) =
        some (after :: later, rest)

/-- Members up to a closing brace, from the first of them. -/
def MembersReadTo (depth : Nat) (members later : List (Bytes × Json)) : Prop :=
  ∀ name value after, ReadsTo depth value after → ∀ fuel rest,
    2 * (encodeString name ++ colon :: (encode value ++ encodeMembers members)).length ≤ fuel →
      readMembers fuel depth
        (encodeString name ++ (colon :: (encode value ++ (encodeMembers members ++ rest)))) =
        some ((coerce name, after) :: later, rest)

theorem itemsReadTo_nil (depth : Nat) : ItemsReadTo depth [] [] := by
  intro item after first fuel rest enough
  rw [encodeItems, length_append, length_singleton] at enough
  obtain _ | fewer := fuel
  · omega
  have read := first fewer (encodeItems [] ++ rest) (by omega) (stops_encodeItems [] rest)
  rw [readItems, read]
  rfl

theorem itemsReadTo_cons {depth : Nat} {second afterSecond : Json} {items later : List Json}
    (secondReads : ReadsTo depth second afterSecond) (more : ItemsReadTo depth items later) :
    ItemsReadTo depth (second :: items) (afterSecond :: later) := by
  intro item after first fuel rest enough
  rw [encodeItems, length_append, length_cons] at enough
  obtain _ | fewer := fuel
  · omega
  have read := first fewer (encodeItems (second :: items) ++ rest) (by omega)
    (stops_encodeItems _ rest)
  have onwards := more second afterSecond secondReads fewer rest (by omega)
  rw [readItems, read]
  rw [encodeItems, cons_append, append_assoc]
  change ((readItems fewer depth (encode second ++ (encodeItems items ++ rest))).bind _) = _
  rw [onwards]
  rfl

theorem readMembers_first {depth fuel : Nat} {name : Bytes} {value after : Json} {tail : Bytes}
    (read : readValue fuel depth (encode value ++ tail) = some (after, tail)) :
    readMembers (fuel + 1) depth (encodeString name ++ colon :: (encode value ++ tail)) =
      match skipSpace tail with
      | comma :: behind =>
        (readMembers fuel depth behind).map fun more => ((coerce name, after) :: more.1, more.2)
      | closeBrace :: behind => some ([(coerce name, after)], behind)
      | _ => none := by
  rw [readMembers, encodeString, cons_append, append_assoc, singleton_append]
  change ((readString (escape name ++ quote :: colon :: (encode value ++ tail))).bind _) = _
  rw [readString_escape]
  change ((readValue fuel depth (encode value ++ tail)).bind _) = _
  rw [read]
  simp only [Option.bind_some]
  split
  · next behind _ => cases readMembers fuel depth behind <;> rfl
  · rfl
  · rfl

theorem membersReadTo_nil (depth : Nat) : MembersReadTo depth [] [] := by
  intro name value after first fuel rest enough
  rw [encodeMembers, length_append, length_cons, length_append, length_singleton] at enough
  obtain _ | fewer := fuel
  · omega
  have read := first fewer (encodeMembers [] ++ rest) (by omega) (stops_encodeMembers [] rest)
  rw [readMembers_first read]
  rfl

theorem membersReadTo_cons {depth : Nat} {second : Bytes} {value afterValue : Json}
    {members later : List (Bytes × Json)} (secondReads : ReadsTo depth value afterValue)
    (more : MembersReadTo depth members later) :
    MembersReadTo depth ((second, value) :: members) ((coerce second, afterValue) :: later) := by
  intro name own after first fuel rest enough
  rw [encodeMembers] at enough
  simp only [length_append, length_cons] at enough
  obtain _ | fewer := fuel
  · omega
  have read := first fewer (encodeMembers ((second, value) :: members) ++ rest) (by omega)
    (stops_encodeMembers _ rest)
  have onwards := more second value afterValue secondReads fewer rest (by
    simp only [length_append, length_cons]
    omega)
  rw [readMembers_first read, encodeMembers]
  simp only [cons_append, append_assoc]
  change ((readMembers fewer depth (encodeString second ++
    (colon :: (encode value ++ (encodeMembers members ++ rest))))).map _) = _
  rw [onwards]
  rfl

theorem readsTo_array_nil (depth : Nat) : ReadsTo (depth + 1) (array []) (array []) := by
  refine readsTo_of_succ (by rw [encode]; nofun) fun fuel rest _ _ => ?_
  rfl

theorem readsTo_array_cons {depth : Nat} {item after : Json} {items later : List Json}
    (reads : Reads depth item after) (first : ReadsTo depth item after)
    (more : ItemsReadTo depth items later) :
    ReadsTo (depth + 1) (array (item :: items)) (array (after :: later)) := by
  intro fuel rest enough _
  rw [encode, length_cons] at enough
  obtain _ | fewer := fuel
  · omega
  have read := more item after first fewer rest (by omega)
  have space := skipSpace_opens reads (encodeItems items ++ rest)
  obtain ⟨byte, tail, shape, _, noBracket⟩ := reads_opens reads
  rw [encode, cons_append, append_assoc]
  change (match skipSpace (encode item ++ (encodeItems items ++ rest)) with
    | closeBracket :: behind => some (array [], behind)
    | inner => (readItems fewer depth inner).map
        fun (read : List Json × Bytes) => (array read.1, read.2)) = _
  rw [space]
  split
  · next closed =>
    rw [shape, cons_append] at closed
    exact absurd (List.cons.inj closed).1 noBracket
  · rw [read]
    rfl

theorem readsTo_object_nil (depth : Nat) : ReadsTo (depth + 1) (object []) (object []) := by
  refine readsTo_of_succ (by rw [encode]; nofun) fun fuel rest _ _ => ?_
  rfl

theorem readsTo_object_cons {depth : Nat} {name : Bytes} {value after : Json}
    {members later : List (Bytes × Json)} (first : ReadsTo depth value after)
    (more : MembersReadTo depth members later) :
    ReadsTo (depth + 1) (object ((name, value) :: members))
      (object ((coerce name, after) :: later)) := by
  intro fuel rest enough _
  rw [encode, length_cons] at enough
  obtain _ | fewer := fuel
  · omega
  have read := more name value after first fewer rest (by omega)
  rw [encode]
  simp only [cons_append, append_assoc]
  change (readMembers fewer depth (encodeString name ++
    (colon :: (encode value ++ (encodeMembers members ++ rest))))).map _ = _
  rw [read]
  rfl

mutual

theorem readsTo_of_reads {depth : Nat} {value after : Json} :
    Reads depth value after → ReadsTo depth value after
  | .null _ => readsTo_null depth
  | .bool _ value => readsTo_bool depth value
  | .number _ value => readsTo_number depth value
  | .string _ value => readsTo_string depth value
  | .array (.nil depth) => readsTo_array_nil depth
  | .array (.cons first rest) =>
    readsTo_array_cons first (readsTo_of_reads first) (itemsReadTo_of_reads rest)
  | .object (.nil depth) => readsTo_object_nil depth
  | .object (.cons _ first rest) =>
    readsTo_object_cons (readsTo_of_reads first) (membersReadTo_of_reads rest)

theorem itemsReadTo_of_reads {depth : Nat} {items later : List Json} :
    ReadsItems depth items later → ItemsReadTo depth items later
  | .nil depth => itemsReadTo_nil depth
  | .cons first rest => itemsReadTo_cons (readsTo_of_reads first) (itemsReadTo_of_reads rest)

theorem membersReadTo_of_reads {depth : Nat} {members later : List (Bytes × Json)} :
    ReadsMembers depth members later → MembersReadTo depth members later
  | .nil depth => membersReadTo_nil depth
  | .cons _ first rest =>
    membersReadTo_cons (readsTo_of_reads first) (membersReadTo_of_reads rest)

end

theorem parse_encode {value after : Json} (reads : Reads maxNestingDepth value after) :
    parse (encode value) = some after := by
  have read := readsTo_of_reads reads (2 * (encode value).length + 1) [] (Nat.le_succ _) trivial
  rw [append_nil] at read
  unfold parse
  rw [read]
  rfl

/-! ### No control characters -/

def Printable (text : Bytes) : Prop :=
  ∀ byte ∈ text, 0x20 ≤ byte.toNat

instance (text : Bytes) : Decidable (Printable text) :=
  inferInstanceAs (Decidable (∀ byte ∈ text, _))

@[simp] theorem printable_nil : Printable [] := nofun

@[simp] theorem printable_cons {byte : Byte} {rest : Bytes} :
    Printable (byte :: rest) ↔ 0x20 ≤ byte.toNat ∧ Printable rest :=
  forall_mem_cons

@[simp] theorem printable_append {one other : Bytes} :
    Printable (one ++ other) ↔ Printable one ∧ Printable other :=
  forall_mem_append

theorem printable_hexDigit : ∀ value < 16, 0x20 ≤ (hexDigit value).toNat := by
  decide

theorem printable_escapeByte {byte : Byte} (small : byte.toNat < 0x80) :
    Printable (escapeByte byte) := by
  have high := printable_hexDigit (byte.toNat / 16) (by omega)
  have low := printable_hexDigit (byte.toNat % 16) (Nat.mod_lt _ (by decide))
  unfold escapeByte
  iterate 7
    split
    · decide
  split
  · simp [char, high, low]
  · next plain => simpa using fun control => plain (Or.inl control)

theorem printable_wide {first second : Byte} {more : Bytes}
    (whole : Whole (first :: second :: more)) : Printable (first :: second :: more) := by
  have wide := wide_of_whole whole
  refine printable_cons.mpr ⟨by omega, ?_⟩
  intro byte member
  obtain ⟨index, inside, rfl⟩ := mem_iff_getElem.mp member
  have continues := Utf8.runeLength_continues whole (Nat.succ_pos index)
    (by simpa using inside) (getElem?_cons_succ.trans (getElem?_eq_getElem inside))
  have range := of_decide_eq_true continues
  omega

theorem printable_escapePiece {piece : Piece} (sound : piece.Sound) :
    Printable (escapePiece piece) := by
  cases piece with
  | stray byte => exact (by decide : Printable replacementCharacter)
  | rune bytes =>
    match bytes with
    | [] => cases sound
    | [byte] => exact printable_escapeByte (whole_ascii sound)
    | first :: second :: more =>
      rw [escapePiece_wide]
      iterate 2
        split
        · decide
      exact printable_wide sound

theorem printable_escape (text : Bytes) : Printable (escape text) := by
  intro byte member
  obtain ⟨piece, inside, here⟩ := mem_flatMap.mp member
  exact printable_escapePiece (Utf8.sound_of_mem inside) byte here

theorem printable_encodeString (text : Bytes) : Printable (encodeString text) := by
  simp [encodeString, printable_escape text]

theorem printable_decimal (value : Nat) : Printable (decimal value) := by
  intro byte member
  have range := of_decide_eq_true (decimal_digits value byte member)
  omega

mutual

theorem printable_encode {depth : Nat} {value after : Json} :
    Reads depth value after → Printable (encode value)
  | .null _ => by
      rw [encode]
      decide
  | .bool _ value => by cases value <;> rw [encode] <;> decide
  | .number _ value => by
      rw [encode]
      exact printable_decimal value
  | .string _ value => by
      rw [encode]
      exact printable_encodeString value
  | .array (.nil _) | .object (.nil _) => by
      rw [encode]
      decide
  | .array (.cons first rest) => by
      simp [encode, printable_encode first, printable_encodeItems rest]
  | .object (.cons name first rest) => by
      simp [encode, printable_encodeString name, printable_encode first,
        printable_encodeMembers rest]

theorem printable_encodeItems {depth : Nat} {items later : List Json} :
    ReadsItems depth items later → Printable (encodeItems items)
  | .nil _ => by
      rw [encodeItems]
      decide
  | .cons first rest => by
      simp [encodeItems, printable_encode first, printable_encodeItems rest]

theorem printable_encodeMembers {depth : Nat} {members later : List (Bytes × Json)} :
    ReadsMembers depth members later → Printable (encodeMembers members)
  | .nil _ => by
      rw [encodeMembers]
      decide
  | .cons name first rest => by
      simp [encodeMembers, printable_encodeString name, printable_encode first,
        printable_encodeMembers rest]

end

/-! ### Lists of texts -/

def strings (texts : List Bytes) : Json :=
  array (texts.map string)

theorem reads_strings (depth : Nat) (texts : List Bytes) :
    Reads (depth + 1) (strings texts) (strings (texts.map coerce)) := by
  apply Reads.array
  induction texts with
  | nil => exact .nil depth
  | cons text more ih => exact .cons (.string depth text) ih

theorem encodeItems_coerce (texts : List Bytes) :
    encodeItems ((texts.map coerce).map string) = encodeItems (texts.map string) := by
  induction texts with
  | nil => rfl
  | cons text more ih => simp only [map_cons, encodeItems, encode, encodeString_coerce, ih]

theorem encode_strings_coerce (texts : List Bytes) :
    encode (strings (texts.map coerce)) = encode (strings texts) := by
  cases texts with
  | nil => rfl
  | cons text more =>
    simp only [strings, map_cons, encode, encodeString_coerce, encodeItems_coerce]

theorem encodeMembers_coerce (members : List (Bytes × List Bytes)) :
    encodeMembers (members.map fun member => (member.1, strings (member.2.map coerce))) =
      encodeMembers (members.map fun member => (member.1, strings member.2)) := by
  induction members with
  | nil => rfl
  | cons member more ih => simp only [map_cons, encodeMembers, encode_strings_coerce, ih]

theorem encode_object_coerce (members : List (Bytes × List Bytes)) :
    encode (object (members.map fun member => (member.1, strings (member.2.map coerce)))) =
      encode (object (members.map fun member => (member.1, strings member.2))) := by
  cases members with
  | nil => rfl
  | cons member more =>
    simp only [map_cons, encode, encode_strings_coerce, encodeMembers_coerce]

end Json

end ReclaimTee
