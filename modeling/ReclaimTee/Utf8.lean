/-
UTF-8 as a decoder reads it: the length of the first rune of a byte string, or
none when its first byte starts no rune. A decoder steps over one byte there.
-/

import ReclaimTee.Bytes

namespace ReclaimTee.Utf8

open List

def between (low high : Nat) (byte : Byte) : Bool :=
  low ≤ byte.toNat ∧ byte.toNat ≤ high

def continues (byte : Byte) : Bool :=
  between 0x80 0xbf byte

/-- The second byte is narrower behind the first bytes of overlong forms,
surrogates and numbers above the last rune. -/
def secondOf (first second : Byte) : Bool :=
  if first = 0xe0#8 then between 0xa0 0xbf second
  else if first = 0xed#8 then between 0x80 0x9f second
  else if first = 0xf0#8 then between 0x90 0xbf second
  else if first = 0xf4#8 then between 0x80 0x8f second
  else continues second

def runeLength : List Byte → Option Nat
  | [] => none
  | first :: rest =>
    if first.toNat < 0x80 then
      some 1
    else
      match rest with
      | second :: rest =>
        if between 0xc2 0xdf first then
          if continues second then some 2 else none
        else
          match rest with
          | third :: rest =>
            if between 0xe0 0xef first then
              if secondOf first second && continues third then some 3 else none
            else
              match rest with
              | fourth :: _ =>
                if between 0xf0 0xf4 first && secondOf first second && continues third &&
                    continues fourth then
                  some 4
                else
                  none
              | [] => none
          | [] => none
      | [] => none

/-- Whether every rune is well formed; the fuel is the number of bytes. -/
def validFrom : Nat → List Byte → Bool
  | _, [] => true
  | 0, _ :: _ => false
  | fuel + 1, text =>
    match runeLength text with
    | none => false
    | some length => validFrom fuel (text.drop length)

def valid (text : List Byte) : Bool :=
  validFrom text.length text

variable {text bytes : List Byte} {length : Nat}

theorem runeLength_pos
    (decoded : runeLength text = some length) : 0 < length ∧ length ≤ text.length := by
  unfold runeLength at decoded
  repeat' split at decoded
  all_goals
    cases decoded
    try simp

theorem continues_of_secondOf {first second : Byte} (valid : secondOf first second = true) :
    continues second = true := by
  unfold secondOf continues between at *
  repeat' split at valid
  all_goals
    simp only [decide_eq_true_eq] at valid ⊢
    omega

theorem runeLength_continues
    (decoded : runeLength text = some length) {index : Nat} {byte : Byte} (later : 0 < index)
    (inside : index < length) (found : text[index]? = some byte) : continues byte = true := by
  unfold runeLength at decoded
  split at decoded
  · cases decoded
  split at decoded
  · cases decoded
    omega
  split at decoded
  · next second rest =>
    split at decoded
    · split at decoded <;> cases decoded
      rename_i valid
      obtain rfl : index = 1 := by omega
      cases found
      exact valid
    · split at decoded
      · next third rest =>
        split at decoded
        · split at decoded <;> cases decoded
          rename_i valid
          obtain ⟨secondValid, thirdValid⟩ := Bool.and_eq_true_iff.mp valid
          rcases (by omega : index = 1 ∨ index = 2) with rfl | rfl
          · cases found
            exact continues_of_secondOf secondValid
          · cases found
            exact thirdValid
        · split at decoded
          · next fourth rest =>
            split at decoded <;> cases decoded
            rename_i valid
            simp only [Bool.and_eq_true] at valid
            obtain ⟨⟨⟨_, secondValid⟩, thirdValid⟩, fourthValid⟩ := valid
            rcases (by omega : index = 1 ∨ index = 2 ∨ index = 3) with rfl | rfl | rfl
            · cases found
              exact continues_of_secondOf secondValid
            · cases found
              exact thirdValid
            · cases found
              exact fourthValid
          · cases decoded
      · cases decoded
  · cases decoded

theorem runeLength_first {first : Byte} {rest : List Byte}
    (decoded : runeLength (first :: rest) = some length) : continues first = false := by
  cases known : continues first with
  | false => rfl
  | true =>
    have bounds : 0x80 ≤ first.toNat ∧ first.toNat ≤ 0xbf := of_decide_eq_true known
    have outside : ∀ low high, 0xc0 ≤ low → between low high first = false :=
      fun low high above => decide_eq_false (by omega)
    have wide : ¬ first.toNat < 0x80 := by omega
    rcases rest with _ | ⟨second, _ | ⟨third, _ | ⟨fourth, rest⟩⟩⟩
    all_goals simp [runeLength, wide, outside] at decoded

theorem runeLength_append (decoded : runeLength text = some length) (rest : List Byte) :
    runeLength (text.take length ++ rest) = some length := by
  unfold runeLength at decoded
  split at decoded
  · cases decoded
  split at decoded
  · next single =>
    cases decoded
    simp [runeLength, single]
  · next wide =>
    split at decoded
    · next second more =>
      split at decoded
      · next two =>
        split at decoded <;> cases decoded
        rename_i ok
        simp [runeLength, wide, two, ok]
      · next notTwo =>
        split at decoded
        · next third more =>
          split at decoded
          · next three =>
            split at decoded <;> cases decoded
            rename_i ok
            simp [runeLength, wide, notTwo, three, ok]
          · next notThree =>
            split at decoded
            · next fourth more =>
              split at decoded <;> cases decoded
              rename_i ok
              simp only [take_succ_cons, cons_append]
              simp only [runeLength, wide, notTwo, notThree, ok]
              rfl
            · cases decoded
        · cases decoded
    · cases decoded

/-! ### Runes and stray bytes -/

/-- What a decoder steps over at once. -/
inductive Piece
  | rune (bytes : List Byte)
  | stray (byte : Byte)
deriving DecidableEq, Repr

/-- The fuel is the number of bytes. -/
def piecesFrom : Nat → List Byte → List Piece
  | _, [] => []
  | 0, _ :: _ => []
  | fuel + 1, first :: rest =>
    match runeLength (first :: rest) with
    | none => .stray first :: piecesFrom fuel rest
    | some length =>
      .rune ((first :: rest).take length) :: piecesFrom fuel ((first :: rest).drop length)

def pieces (text : List Byte) : List Piece :=
  piecesFrom text.length text

def Piece.size : Piece → Nat
  | .rune bytes => bytes.length
  | .stray _ => 1

/-- A piece with the replacement character for a stray byte. -/
def coercePiece : Piece → List Byte
  | .stray _ => replacementCharacter
  | .rune bytes => bytes

theorem piecesFrom_enough {fuel more : Nat} (enough : text.length ≤ fuel)
    (alsoEnough : text.length ≤ more) : piecesFrom fuel text = piecesFrom more text := by
  induction fuel generalizing more text with
  | zero =>
    have empty := length_eq_zero_iff.mp (Nat.le_zero.mp enough)
    subst empty
    cases more <;> rfl
  | succ fuel ih =>
    cases text with
    | nil => cases more <;> rfl
    | cons first rest =>
      obtain ⟨fewer, rfl⟩ : ∃ fewer, more = fewer + 1 :=
        ⟨more - 1, by rw [length_cons] at alsoEnough; omega⟩
      rw [length_cons] at enough alsoEnough
      unfold piecesFrom
      cases decoded : runeLength (first :: rest) with
      | none => exact congrArg _ (ih (Nat.le_of_succ_le_succ enough)
          (Nat.le_of_succ_le_succ alsoEnough))
      | some length =>
        have positive := (runeLength_pos decoded).1
        have shorter : ((first :: rest).drop length).length ≤ rest.length := by
          rw [length_drop, length_cons]
          omega
        exact congrArg _ (ih (shorter.trans (Nat.le_of_succ_le_succ enough))
          (shorter.trans (Nat.le_of_succ_le_succ alsoEnough)))

theorem pieces_stray {first : Byte} {rest : List Byte}
    (decoded : runeLength (first :: rest) = none) :
    pieces (first :: rest) = .stray first :: pieces rest := by
  unfold pieces
  rw [length_cons, piecesFrom, decoded]

theorem pieces_rune (decoded : runeLength text = some length) :
    pieces text = .rune (text.take length) :: pieces (text.drop length) := by
  cases text with
  | nil => cases decoded
  | cons first rest =>
    have positive := (runeLength_pos decoded).1
    unfold pieces
    rw [length_cons, piecesFrom, decoded]
    dsimp only
    congr 1
    apply piecesFrom_enough
    · rw [length_drop, length_cons]
      omega
    · exact Nat.le_refl _

theorem pieces_induction {motive : List Byte → Prop} (nil : motive [])
    (stray : ∀ first rest, runeLength (first :: rest) = none → motive rest → motive (first :: rest))
    (rune : ∀ text length, runeLength text = some length → motive (text.drop length) →
      motive text) (text : List Byte) : motive text := by
  induction size : text.length using Nat.strong_induction_on generalizing text with
  | _ size ih =>
    subst size
    cases text with
    | nil => exact nil
    | cons first rest =>
      cases decoded : runeLength (first :: rest) with
      | none => exact stray first rest decoded (ih rest.length (Nat.lt_succ_self _) rest rfl)
      | some length =>
        have positive := (runeLength_pos decoded).1
        apply rune (first :: rest) length decoded
        apply ih _ _ _ rfl
        rw [length_drop, length_cons]
        omega

def Whole (bytes : List Byte) : Prop :=
  runeLength bytes = some bytes.length

theorem Whole.append (whole : Whole bytes) (rest : List Byte) :
    runeLength (bytes ++ rest) = some bytes.length := by
  have same := runeLength_append whole rest
  rwa [take_length] at same

theorem whole_take (decoded : runeLength text = some length) : Whole (text.take length) := by
  have same := runeLength_append decoded []
  rw [append_nil] at same
  unfold Whole
  rw [same, length_take, Nat.min_eq_left (runeLength_pos decoded).2]

theorem pieces_whole_append (whole : Whole bytes)
    (rest : List Byte) : pieces (bytes ++ rest) = .rune bytes :: pieces rest := by
  rw [pieces_rune (whole.append rest), take_left, drop_left]

/-- A piece that is a rune is a whole one. -/
def Piece.Sound : Piece → Prop
  | .rune bytes => Whole bytes
  | .stray _ => True

theorem sound_of_mem {piece : Piece} (member : piece ∈ pieces text) : piece.Sound := by
  induction text using pieces_induction with
  | nil => cases member
  | stray first rest decoded ih =>
    rw [pieces_stray decoded] at member
    rcases mem_cons.mp member with rfl | later
    · trivial
    · exact ih later
  | rune text length decoded ih =>
    rw [pieces_rune decoded] at member
    rcases mem_cons.mp member with rfl | later
    · exact whole_take decoded
    · exact ih later

theorem validFrom_iff {fuel : Nat} (enough : text.length ≤ fuel) :
    validFrom fuel text = true ↔ ∀ byte, .stray byte ∉ pieces text := by
  induction fuel generalizing text with
  | zero =>
    have empty := length_eq_zero_iff.mp (Nat.le_zero.mp enough)
    subst empty
    simp [validFrom, pieces, piecesFrom]
  | succ fuel ih =>
    cases text with
    | nil => simp [validFrom, pieces, piecesFrom]
    | cons first rest =>
      unfold validFrom
      cases decoded : runeLength (first :: rest) with
      | none =>
        rw [pieces_stray decoded]
        constructor
        · nofun
        · intro absent
          exact absurd mem_cons_self (absent first)
      | some length =>
        have positive := (runeLength_pos decoded).1
        have shorter : ((first :: rest).drop length).length ≤ fuel := by
          rw [length_drop]
          rw [length_cons] at enough ⊢
          omega
        rw [pieces_rune decoded]
        refine (ih shorter).trans ?_
        simp

theorem valid_iff : valid text = true ↔ ∀ byte, .stray byte ∉ pieces text :=
  validFrom_iff (Nat.le_refl _)

/-! ### Boundaries -/

/-- A place of a text that is its end or has a byte that continues no rune. -/
def Boundary (text : List Byte) (position : Nat) : Prop :=
  position ≤ text.length ∧ ∀ byte, text[position]? = some byte → continues byte = false

/-- Bytes of which the first continues no rune and the others do. -/
def OneRune (bytes : List Byte) : Prop :=
  ∃ first rest, bytes = first :: rest ∧ continues first = false ∧
    ∀ byte ∈ rest, continues byte = true

theorem oneRune_coercePiece {piece : Piece} (sound : piece.Sound) :
    OneRune (coercePiece piece) := by
  cases piece with
  | stray byte => exact ⟨0xef#8, [0xbf#8, 0xbd#8], rfl, rfl, by decide⟩
  | rune bytes =>
    cases bytes with
    | nil => cases sound
    | cons first rest =>
      refine ⟨first, rest, rfl, runeLength_first sound, fun byte member => ?_⟩
      obtain ⟨index, inside, same⟩ := getElem_of_mem member
      exact runeLength_continues sound (Nat.succ_pos index) (Nat.succ_lt_succ inside)
        (List.getElem?_eq_some_iff.mpr ⟨Nat.succ_lt_succ inside, same⟩)

theorem boundary_append (one : OneRune bytes) {position : Nat} :
    Boundary (text ++ bytes) position ↔
      Boundary text position ∨ position = text.length + bytes.length := by
  obtain ⟨first, rest, rfl, start, later⟩ := one
  unfold Boundary
  rw [length_append, length_cons]
  rcases Nat.lt_or_ge position text.length with before | behind
  · rw [getElem?_append_left before]
    constructor
    · exact fun boundary => .inl ⟨Nat.le_of_lt before, boundary.2⟩
    · rintro (boundary | impossible)
      · exact ⟨by omega, boundary.2⟩
      · omega
  · rw [getElem?_append_right behind, getElem?_eq_none behind]
    obtain ⟨distance, rfl⟩ := Nat.exists_eq_add_of_le behind
    rw [Nat.add_sub_cancel_left]
    cases distance with
    | zero =>
      refine ⟨fun _ => .inl ⟨Nat.le_refl _, nofun⟩, fun _ => ⟨by omega, ?_⟩⟩
      rintro _ ⟨⟩
      exact start
    | succ distance =>
      rw [getElem?_cons_succ]
      constructor
      · rintro ⟨bound, boundary⟩
        refine .inr (by_contra fun inside => ?_)
        have present : distance < rest.length := by omega
        have ends := boundary _ (getElem?_eq_getElem present)
        rw [later _ (getElem_mem present)] at ends
        cases ends
      · rintro (⟨impossible, _⟩ | last)
        · omega
        · refine ⟨by omega, fun byte found => ?_⟩
          rw [getElem?_eq_none (by omega)] at found
          cases found

end ReclaimTee.Utf8
