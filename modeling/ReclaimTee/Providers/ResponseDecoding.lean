/-
Decoders and the raw bytes of the runes they write. A body of UTF-8 is decoded
into its runes and stray bytes; a body of another charset by the calls of a
transformer, which together read every byte of it.
-/

import ReclaimTee.Providers.ResponseMapping

namespace ReclaimTee.Providers

open List

variable {rune : Rune} {body : DecodedResponseBody} {raw : List Byte}

namespace DecodedResponseBody

def textOf (body : DecodedResponseBody) (rune : Rune) : List Byte :=
  (body.text.take rune.decodedEnd).drop rune.decodedStart

section Write

variable {rawEnd rawStart rawStop : Nat} {bytes : List Byte}
  (tiles : Tiles body.runes body.text.length rawEnd)
include tiles

theorem write_tiles (written : bytes ≠ []) (gap : rawEnd ≤ rawStart) (raw : rawStart < rawStop) :
    Tiles (body.write bytes rawStart rawStop).runes (body.write bytes rawStart rawStop).text.length
      rawStop := by
  have length := length_pos_iff.mpr written
  have whole : (body.write bytes rawStart rawStop).text.length =
      body.text.length + bytes.length := length_append
  rw [whole]
  exact Tiles.snoc { decodedStart := body.text.length
                     decodedEnd := body.text.length + bytes.length
                     rawStart := rawStart
                     rawEnd := rawStop } tiles rfl (by dsimp only; omega) gap raw

/-- Writing keeps the texts of the runes that are there. -/
theorem forall_write {property : Nat → Nat → List Byte → Prop}
    (known : ∀ rune ∈ body.runes, property rune.rawStart rune.rawEnd (body.textOf rune))
    (fresh : property rawStart rawStop bytes) :
    ∀ rune ∈ (body.write bytes rawStart rawStop).runes,
      property rune.rawStart rune.rawEnd ((body.write bytes rawStart rawStop).textOf rune) := by
  refine forall_mem_append.mpr ⟨fun rune member => ?_, forall_mem_singleton.mpr ?_⟩
  · have bounds := tiles.bounded rune member
    have same : (body.write bytes rawStart rawStop).textOf rune = body.textOf rune :=
      congrArg (drop _) (take_append_of_le_length bounds.2.1)
    rw [same]
    exact known rune member
  · have same : ((body.text ++ bytes).take (body.text.length + bytes.length)).drop
        body.text.length = bytes := by
      rw [take_length_add_append, take_length, drop_left]
    change property rawStart rawStop (((body.text ++ bytes).take _).drop _)
    rw [same]
    exact fresh

end Write

theorem atRune_write {bytes : List Byte} {rawStart rawStop : Nat} {position : Nat} :
    (body.write bytes rawStart rawStop).AtRune position ↔
      body.AtRune position ∨ position = body.text.length + bytes.length := by
  unfold AtRune write
  simp only [mem_append, mem_singleton, or_and_right, exists_or, exists_eq_left, or_assoc]
  refine or_congr_right (or_congr_right ?_)
  omega

end DecodedResponseBody

open DecodedResponseBody

/-! ### UTF-8 -/

/-- The byte-order mark that UTF-8 is read behind. -/
def markLength (raw : List Byte) : Nat :=
  if raw.take 3 = [0xef#8, 0xbb#8, 0xbf#8] then 3 else 0

theorem markLength_le (raw : List Byte) : markLength raw ≤ raw.length := by
  unfold markLength
  split
  · next mark =>
    have length := congrArg List.length mark
    rw [length_take] at length
    change min 3 raw.length = 3 at length
    omega
  · omega

/-- The runes of pieces one behind the other, from a place in the text and in the raw body. -/
def runesOf : Nat → Nat → List Utf8.Piece → List Rune
  | _, _, [] => []
  | decodedStart, rawStart, piece :: pieces =>
    let decodedEnd := decodedStart + (Utf8.coercePiece piece).length
    let rawEnd := rawStart + piece.size
    { decodedStart := decodedStart, decodedEnd := decodedEnd, rawStart := rawStart,
      rawEnd := rawEnd } :: runesOf decodedEnd rawEnd pieces

theorem decodeRune_piece (present : raw ≠ []) :
    ∃ piece, Utf8.pieces raw = piece :: Utf8.pieces (raw.drop (decodeRune raw).2) ∧
      decodeRune raw = (Utf8.coercePiece piece, piece.size) ∧ 0 < piece.size ∧
      piece.size ≤ raw.length ∧ Utf8.OneRune (Utf8.coercePiece piece) := by
  unfold decodeRune
  cases found : Utf8.runeLength raw with
  | none =>
    cases raw with
    | nil => exact absurd rfl present
    | cons first rest =>
      exact ⟨.stray first, Utf8.pieces_stray found, rfl, Nat.zero_lt_one, Nat.succ_pos _,
        Utf8.oneRune_coercePiece trivial⟩
  | some size =>
    obtain ⟨positive, bound⟩ := Utf8.runeLength_pos found
    have length : (raw.take size).length = size := length_take_of_le bound
    refine ⟨.rune (raw.take size), Utf8.pieces_rune found, ?_, ?_, ?_, ?_⟩
    · exact congrArg (Prod.mk _) length.symm
    · exact Nat.lt_of_lt_of_eq positive length.symm
    · exact Nat.le_trans (Nat.le_of_eq length) bound
    · exact Utf8.oneRune_coercePiece (Utf8.whole_take found)

/-- The loop over a body of UTF-8: what is written and the pieces to come are all pieces. -/
structure DecodesUTF8 (raw rest : List Byte) (rawStart : Nat) (body : DecodedResponseBody) :
    Prop where
  tiles : ∃ rawEnd ≤ rawStart, Tiles body.runes body.text.length rawEnd
  start : markLength raw ≤ rawStart
  total : rawStart + rest.length = raw.length
  rawLength : body.rawLength = raw.length
  text : body.text ++ (Utf8.pieces rest).flatMap Utf8.coercePiece =
    (Utf8.pieces (raw.drop (markLength raw))).flatMap Utf8.coercePiece
  runes : body.runes ++ runesOf body.text.length rawStart (Utf8.pieces rest) =
    runesOf 0 (markLength raw) (Utf8.pieces (raw.drop (markLength raw)))
  boundaries : ∀ position : Nat, body.AtRune position ↔ Utf8.Boundary body.text position
  covered : ∀ offset, markLength raw ≤ offset → offset < rawStart →
    ∃ rune ∈ body.runes, rune.Spans offset

theorem DecodesUTF8.write {rest : List Byte} {rawStart : Nat}
    (decodes : DecodesUTF8 raw rest rawStart body) (more : rest ≠ []) :
    DecodesUTF8 raw (rest.drop (decodeRune rest).2) (rawStart + (decodeRune rest).2)
      (body.write (decodeRune rest).1 rawStart (rawStart + (decodeRune rest).2)) := by
  obtain ⟨piece, pieces, decoded, positive, bound, one⟩ := decodeRune_piece more
  rw [decoded] at pieces ⊢
  dsimp only at pieces ⊢
  obtain ⟨rawEnd, gap, tiles⟩ := decodes.tiles
  have start := decodes.start
  have total := decodes.total
  have text := decodes.text
  have runes := decodes.runes
  rw [pieces, flatMap_cons, ← append_assoc] at text
  rw [pieces, runesOf] at runes
  have written : Utf8.coercePiece piece ≠ [] := by
    obtain ⟨first, rest, same, _⟩ := one
    rw [same]
    exact cons_ne_nil _ _
  refine ⟨⟨_, Nat.le_refl _, write_tiles tiles written gap (by omega)⟩, by omega, ?_,
    decodes.rawLength, text, ?_, fun position => ?_, fun offset behind before => ?_⟩
  · rw [length_drop]
    omega
  · rw [← runes]
    unfold DecodedResponseBody.write
    dsimp only
    rw [length_append, append_assoc]
    rfl
  · rw [atRune_write, decodes.boundaries position]
    exact (Utf8.boundary_append one).symm
  · rcases Nat.lt_or_ge offset rawStart with early | late
    · obtain ⟨rune, member, spans⟩ := decodes.covered offset behind early
      exact ⟨rune, mem_append_left _ member, spans⟩
    · exact ⟨_, mem_append_right _ mem_cons_self, late, before⟩

theorem decodeUTF8From_decodes {fuel rawStart : Nat} {rest : List Byte}
    (decodes : DecodesUTF8 raw rest rawStart body) (enough : rest.length ≤ fuel) :
    DecodesUTF8 raw [] raw.length (decodeUTF8From fuel rest rawStart body) := by
  induction fuel generalizing rest rawStart body with
  | zero =>
    have empty := length_eq_zero_iff.mp (Nat.le_zero.mp enough)
    subst empty
    have ended : rawStart = raw.length := decodes.total
    exact ended ▸ decodes
  | succ fuel ih =>
    cases rest with
    | nil =>
      have ended : rawStart = raw.length := decodes.total
      exact ended ▸ decodes
    | cons first rest =>
      have next := decodes.write (cons_ne_nil first rest)
      obtain ⟨piece, _, decoded, positive, _⟩ := decodeRune_piece (cons_ne_nil first rest)
      refine ih next ?_
      change (drop (decodeRune (first :: rest)).2 _).length ≤ _
      rw [decoded, length_drop]
      dsimp only
      omega

theorem decodeUTF8ResponseBody_decodes (raw : List Byte) :
    DecodesUTF8 raw [] raw.length (decodeUTF8ResponseBody raw) := by
  have length := markLength_le raw
  have rest : (raw.drop (markLength raw)).length = raw.length - markLength raw := length_drop
  have start : DecodesUTF8 raw (raw.drop (markLength raw)) (markLength raw)
      { text := [], runes := [], rawLength := raw.length } := by
    refine ⟨⟨0, Nat.zero_le _, Tiles.nil⟩, Nat.le_refl _, by omega, rfl, rfl, rfl,
      fun position => ?_, fun offset behind before => ?_⟩
    · simp [AtRune, Utf8.Boundary]
    · omega
  exact decodeUTF8From_decodes start (rest ▸ Nat.sub_le _ _)

theorem decodeUTF8ResponseBody_tiled (raw : List Byte) :
    (decodeUTF8ResponseBody raw).Tiled ∧ (decodeUTF8ResponseBody raw).rawLength = raw.length := by
  have decodes := decodeUTF8ResponseBody_decodes raw
  obtain ⟨rawEnd, bound, tiles⟩ := decodes.tiles
  have length := decodes.rawLength
  exact ⟨⟨rawEnd, by omega, tiles⟩, length⟩

/-- The boundaries between the runes of a body of UTF-8 are those of its text. -/
theorem decodeUTF8ResponseBody_atRune (raw : List Byte) (position : Int) :
    (decodeUTF8ResponseBody raw).AtRune position ↔
      0 ≤ position ∧ Utf8.Boundary (decodeUTF8ResponseBody raw).text position.toNat := by
  constructor
  · intro atRune
    have bounds := atRune.bounds (decodeUTF8ResponseBody_tiled raw).1
    obtain ⟨natural, rfl⟩ := Int.eq_ofNat_of_zero_le bounds.1
    exact ⟨bounds.1, ((decodeUTF8ResponseBody_decodes raw).boundaries natural).mp atRune⟩
  · rintro ⟨bound, boundary⟩
    obtain ⟨natural, rfl⟩ := Int.eq_ofNat_of_zero_le bound
    exact ((decodeUTF8ResponseBody_decodes raw).boundaries natural).mpr boundary

/-- A body is the decoding of raw bytes as UTF-8. -/
structure DecodedResponseBody.ReadsUTF8 (body : DecodedResponseBody) (raw : List Byte) : Prop where
  text : body.text = (Utf8.pieces (raw.drop (markLength raw))).flatMap Utf8.coercePiece
  runes : body.runes = runesOf 0 (markLength raw) (Utf8.pieces (raw.drop (markLength raw)))
  boundaries : ∀ position,
    body.AtRune position ↔ 0 ≤ position ∧ Utf8.Boundary body.text position.toNat
  covered : ∀ offset, markLength raw ≤ offset → offset < raw.length →
    ∃ rune ∈ body.runes, rune.Spans offset

theorem decodeUTF8ResponseBody_reads (raw : List Byte) :
    (decodeUTF8ResponseBody raw).ReadsUTF8 raw := by
  have decodes := decodeUTF8ResponseBody_decodes raw
  have text := decodes.text
  have runes := decodes.runes
  exact ⟨(append_nil _).symm.trans text, (append_nil _).symm.trans runes,
    decodeUTF8ResponseBody_atRune raw, decodes.covered⟩

/-! ### Other charsets -/

namespace Decoder

variable {decoder : Decoder} {raw : List Byte} {progress next : decoder.Progress}

/-- The call for the source from a place up to the bytes that are there. -/
def call (decoder : Decoder) (raw : List Byte) (state : decoder.State) (start availableEnd : Nat) :
    Transformed decoder.State :=
  decoder.transformResponseRune state ((raw.take availableEnd).drop start)
    (decide (availableEnd = raw.length))

/-- The calls for a raw body, by their source and result: the next one is for one more byte, or
for the rest of the source when there was no room for it. -/
inductive Calls (decoder : Decoder) (raw : List Byte) :
    Nat → Nat → Transformed decoder.State → Prop
  | first (some : 0 < raw.length) : Calls decoder raw 0 1 (decoder.call raw decoder.initial 0 1)
  | again {start availableEnd : Nat} {result : Transformed decoder.State}
      (called : Calls decoder raw start availableEnd result) (room : result.error = .shortDst)
      (more : start + result.nSrc < availableEnd) :
      Calls decoder raw (start + result.nSrc) availableEnd
        (decoder.call raw result.state (start + result.nSrc) availableEnd)
  | later {start availableEnd : Nat} {result : Transformed decoder.State}
      (called : Calls decoder raw start availableEnd result) (inside : availableEnd < raw.length)
      (ended : result.error = .shortDst → availableEnd ≤ start + result.nSrc) :
      Calls decoder raw (start + result.nSrc) (availableEnd + 1)
        (decoder.call raw result.state (start + result.nSrc) (availableEnd + 1))

/-- The call that read a raw byte wrote nothing. -/
def Silent (decoder : Decoder) (raw : List Byte) (offset : Nat) : Prop :=
  ∃ start availableEnd result, decoder.Calls raw start availableEnd result ∧
    result.written = [] ∧ start ≤ offset ∧ offset < start + result.nSrc

/-- A raw byte decodes to nothing: it was read in silence, or is left behind the last rune by a
call for which the source is too short. -/
def Skips (decoder : Decoder) (raw : List Byte) (offset : Nat) : Prop :=
  decoder.Silent raw offset ∨
    ∃ start result, decoder.Calls raw start raw.length result ∧ result.written ≠ [] ∧
      result.error = .shortSrc ∧ start + result.nSrc ≤ offset

/-- A raw span is what a call read to write the bytes, behind bytes read in silence; or it is
the rest of a source that is too short, for the replacement character. -/
def Writes (decoder : Decoder) (raw : List Byte) (rawStart rawEnd : Nat) (bytes : List Byte) :
    Prop :=
  ∃ start availableEnd result, decoder.Calls raw start availableEnd result ∧ rawStart ≤ start ∧
    (∀ offset, rawStart ≤ offset → offset < start → decoder.Silent raw offset) ∧
    (result.written = bytes ∧ rawEnd = start + result.nSrc ∨
      result.written = [] ∧ result.error = .shortSrc ∧ availableEnd = raw.length ∧
        bytes = replacementCharacter ∧ rawEnd = raw.length)

theorem transformResponseRune_read (lawful : decoder.Lawful) (state : decoder.State)
    {source : List Byte} (nonempty : source ≠ []) (atEOF : Bool) :
    Read source.length (decoder.transformResponseRune state source atEOF) := by
  unfold transformResponseRune
  dsimp only
  repeat' split
  all_goals exact lawful _ _ source atEOF nonempty

theorem call_read (lawful : decoder.Lawful) (state : decoder.State) {start availableEnd : Nat}
    (more : start < availableEnd) (available : availableEnd ≤ raw.length) :
    Read (availableEnd - start) (decoder.call raw state start availableEnd) := by
  have length : ((raw.take availableEnd).drop start).length = availableEnd - start := by
    rw [length_drop, length_take]
    omega
  have nonempty : (raw.take availableEnd).drop start ≠ [] := by
    intro empty
    rw [empty, length_nil] at length
    omega
  exact length ▸ transformResponseRune_read lawful state nonempty _

/-- The loop over the raw bytes: everything written lies before the open span, of which
everything was read in silence, and every byte read is accounted for. -/
structure Progress.Sound (raw : List Byte) (availableEnd : Nat) (progress : decoder.Progress) :
    Prop where
  tiles : ∃ rawEnd, Tiles progress.body.runes progress.body.text.length rawEnd ∧
    rawEnd ≤ progress.unconsumedStart ∧ (progress.spanActive = true → rawEnd ≤ progress.spanStart)
  span : progress.spanActive = true → progress.spanStart ≤ progress.unconsumedStart ∧
    ∀ offset, progress.spanStart ≤ offset → offset < progress.unconsumedStart →
      decoder.Silent raw offset
  written : ∀ rune ∈ progress.body.runes,
    decoder.Writes raw rune.rawStart rune.rawEnd (progress.body.textOf rune)
  accounted : ∀ offset < progress.unconsumedStart,
    (∃ rune ∈ progress.body.runes, rune.Spans offset) ∨ decoder.Skips raw offset
  consumed : progress.unconsumedStart ≤ availableEnd
  available : availableEnd ≤ raw.length
  rawLength : progress.body.rawLength = raw.length

variable {availableEnd : Nat}

section Sound

variable (sound : progress.Sound raw availableEnd)
include sound

/-- A rune for the open span accounts for everything up to its end. -/
theorem accounted_write (span : progress.spanStart ≤ progress.unconsumedStart)
    {bytes : List Byte} {stop : Nat} (offset : Nat) (high : offset < stop) :
    (∃ rune ∈ (progress.body.write bytes progress.spanStart stop).runes, rune.Spans offset) ∨
      decoder.Skips raw offset := by
  rcases Nat.lt_or_ge offset progress.spanStart with early | late
  · refine (sound.accounted offset (by omega)).imp_left ?_
    rintro ⟨rune, member, spans⟩
    exact ⟨rune, mem_append_left _ member, spans⟩
  · exact .inl ⟨_, mem_append_right _ mem_cons_self, late, high⟩

theorem take_sound {result : Transformed decoder.State} (active : progress.spanActive = true)
    (called : decoder.Calls raw progress.unconsumedStart availableEnd result)
    (read : Read (availableEnd - progress.unconsumedStart) result) :
    (decoder.take progress result).Sound raw availableEnd := by
  obtain ⟨rawEnd, tiles, before, inSpan⟩ := sound.tiles
  obtain ⟨span, silent⟩ := sound.span active
  have consumed := sound.consumed
  have source := read.source
  have open_ := inSpan active
  unfold take
  split
  · next nothing =>
    have silence : ∀ offset, progress.unconsumedStart ≤ offset →
        offset < progress.unconsumedStart + result.nSrc → decoder.Silent raw offset :=
      fun offset low high => ⟨_, _, result, called, nothing, low, high⟩
    refine ⟨⟨rawEnd, tiles, by dsimp only; omega, inSpan⟩,
      fun _ => ⟨by dsimp only; omega, fun offset low high => ?_⟩, sound.written,
      fun offset high => ?_, by dsimp only; omega, sound.available, sound.rawLength⟩
    · rcases Nat.lt_or_ge offset progress.unconsumedStart with early | late
      · exact silent offset low early
      · exact silence offset late high
    · rcases Nat.lt_or_ge offset progress.unconsumedStart with early | late
      · exact sound.accounted offset early
      · exact .inr (.inl (silence offset late high))
  · next written =>
    have positive := read.reads written
    refine ⟨⟨_, write_tiles tiles written open_
        (by omega : progress.spanStart < progress.unconsumedStart + result.nSrc), Nat.le_refl _,
        nofun⟩, nofun, ?_, fun offset high => ?_, by dsimp only; omega, sound.available,
      sound.rawLength⟩
    · exact forall_write tiles sound.written
        ⟨_, _, result, called, span, silent, .inl ⟨rfl, rfl⟩⟩
    · exact accounted_write sound span offset high

theorem Progress.Sound.open :
    Progress.Sound raw availableEnd
      { progress with spanStart := progress.unconsumedStart, spanActive := true } := by
  obtain ⟨rawEnd, tiles, before, _⟩ := sound.tiles
  exact ⟨⟨rawEnd, tiles, before, fun _ => before⟩,
    fun _ => ⟨Nat.le_refl _, fun offset low high => absurd high (Nat.not_lt.mpr low)⟩,
    sound.written, sound.accounted, sound.consumed, sound.available, sound.rawLength⟩

theorem Progress.Sound.close {start : Nat} :
    Progress.Sound raw availableEnd { progress with spanStart := start, spanActive := false } := by
  obtain ⟨rawEnd, tiles, before, _⟩ := sound.tiles
  exact ⟨⟨rawEnd, tiles, before, nofun⟩, nofun, sound.written, sound.accounted, sound.consumed,
    sound.available, sound.rawLength⟩

/-- The rest of the source becomes one replacement character. -/
theorem ended_sound {result : Transformed decoder.State} (active : progress.spanActive = true)
    (called : decoder.Calls raw progress.unconsumedStart raw.length result)
    (read : Read (raw.length - progress.unconsumedStart) result)
    (short : result.error = .shortSrc) (last : availableEnd = raw.length) :
    Progress.Sound raw raw.length { decoder.take progress result with
      body := if (decoder.take progress result).spanActive then
        (decoder.take progress result).body.write replacementCharacter
          (decoder.take progress result).spanStart raw.length
      else
        (decoder.take progress result).body
      unconsumedStart := raw.length
      spanActive := false } := by
  subst last
  have taken := take_sound sound active called read
  obtain ⟨rawEnd, tiles, before, inSpan⟩ := taken.tiles
  obtain ⟨span, silent⟩ := sound.span active
  have unread := read.short short
  have consumed := taken.consumed
  by_cases written : result.written = []
  · have same : decoder.take progress result =
        { progress with
          state := result.state
          unconsumedStart := progress.unconsumedStart + result.nSrc } := if_pos written
    rw [same] at tiles inSpan taken ⊢
    dsimp only at tiles inSpan taken ⊢
    rw [if_pos active]
    have mark : replacementCharacter ≠ [] := by
      decide
    refine ⟨⟨raw.length, write_tiles tiles mark (inSpan active) (by omega), Nat.le_refl _, nofun⟩,
      nofun, forall_write tiles sound.written ⟨_, _, result, called, span, silent,
        .inr ⟨written, short, rfl, rfl, rfl⟩⟩, fun offset high => ?_, Nat.le_refl _, Nat.le_refl _,
      sound.rawLength⟩
    exact accounted_write sound span offset high
  · have closed : (decoder.take progress result).spanActive = false := by
      unfold take
      rw [if_neg written]
    have start : (decoder.take progress result).unconsumedStart =
        progress.unconsumedStart + result.nSrc := by
      unfold take
      rw [if_neg written]
    rw [closed]
    refine ⟨⟨rawEnd, tiles, by dsimp only; omega, nofun⟩, nofun, taken.written,
      fun offset high => ?_, Nat.le_refl _, Nat.le_refl _, taken.rawLength⟩
    rcases Nat.lt_or_ge offset (progress.unconsumedStart + result.nSrc) with early | late
    · exact taken.accounted offset (start ▸ early)
    · exact .inr (.inr ⟨_, result, called, written, short, late⟩)

end Sound

/-- What the calls for one more byte leave: the last byte is read to the end, and the call for
the next byte can follow. -/
structure Progress.Ready (raw : List Byte) (availableEnd : Nat) (progress : decoder.Progress) :
    Prop extends progress.Sound raw availableEnd where
  finished : availableEnd = raw.length → progress.unconsumedStart = raw.length
  calls : availableEnd < raw.length →
    decoder.Calls raw progress.unconsumedStart (availableEnd + 1)
      (decoder.call raw progress.state progress.unconsumedStart (availableEnd + 1))

theorem take_state {result : Transformed decoder.State} :
    (decoder.take progress result).state = result.state ∧
      (decoder.take progress result).unconsumedStart =
        progress.unconsumedStart + result.nSrc := by
  unfold take
  split <;> exact ⟨rfl, rfl⟩

theorem consume_ready (lawful : decoder.Lawful) {fuel : Nat}
    (sound : progress.Sound raw availableEnd) (active : progress.spanActive = true)
    (more : progress.unconsumedStart < availableEnd)
    (called : decoder.Calls raw progress.unconsumedStart availableEnd
      (decoder.call raw progress.state progress.unconsumedStart availableEnd))
    (consumed : decoder.consume raw availableEnd fuel progress = .ok next) :
    next.Ready raw availableEnd := by
  induction fuel generalizing progress with
  | zero => cases consumed
  | succ fuel ih =>
    have available := sound.available
    have read := call_read lawful progress.state more available
    unfold call at called read
    rw [consume] at consumed
    generalize decoder.transformResponseRune progress.state
      ((raw.take availableEnd).drop progress.unconsumedStart)
      (decide (availableEnd = raw.length)) = result at consumed read called
    have taken := take_sound sound active called read
    have source := read.source
    obtain ⟨state, start⟩ : (decoder.take progress result).state = result.state ∧ _ := take_state
    have later (inside : availableEnd < raw.length)
        (ended : result.error = .shortDst → availableEnd ≤ progress.unconsumedStart + result.nSrc) :
        decoder.Calls raw (decoder.take progress result).unconsumedStart (availableEnd + 1)
          (decoder.call raw (decoder.take progress result).state
            (decoder.take progress result).unconsumedStart (availableEnd + 1)) := by
      rw [state, start]
      exact called.later inside ended
    cases outcome : result.error with
    | nil =>
      rw [outcome] at consumed later
      cases consumed
      have whole := read.whole outcome
      split
      · exact ⟨taken.close, fun last => by dsimp only; omega, fun inside => later inside nofun⟩
      · exact ⟨taken, fun last => by omega, fun inside => later inside nofun⟩
    | shortSrc =>
      rw [outcome] at consumed later
      cases consumed
      split
      · next last =>
        have last := of_decide_eq_true last
        subst last
        exact ⟨ended_sound sound active called read outcome rfl, fun _ => rfl,
          fun inside => absurd inside (Nat.lt_irrefl _)⟩
      · next open_ =>
        exact ⟨taken, fun last => absurd (decide_eq_true last) open_,
          fun inside => later inside nofun⟩
    | shortDst =>
      rw [outcome] at consumed
      dsimp only at consumed
      split at consumed
      · cases consumed
      · split at consumed
        · next rest =>
          refine ih taken.open rfl rest ?_ consumed
          rw [state, start]
          exact called.again outcome (start ▸ rest)
        · next ended =>
          cases consumed
          exact ⟨taken.close, fun last => by dsimp only; omega,
            fun inside => later inside fun _ => by omega⟩
    | other text =>
      rw [outcome] at consumed
      cases consumed

theorem advance_ready (lawful : decoder.Lawful) {consumed : Nat}
    (ready : progress.Ready raw consumed) (more : consumed < raw.length)
    (advanced : decoder.advance raw progress consumed = .ok next) :
    next.Ready raw (consumed + 1) := by
  have sound := ready.toSound
  have inside := sound.consumed
  have later : progress.Sound raw (consumed + 1) :=
    { sound with
      consumed := Nat.le_succ_of_le inside
      available := more }
  unfold advance at advanced
  split at advanced
  · next active =>
    exact consume_ready lawful later active (Nat.lt_succ_of_le inside) (ready.calls more) advanced
  · exact consume_ready lawful later.open rfl (Nat.lt_succ_of_le inside) (ready.calls more) advanced

theorem foldlM_advance_ready (lawful : decoder.Lawful) {count first : Nat}
    (ready : progress.Ready raw first) (inside : first + count ≤ raw.length)
    (run : (List.range' first count).foldlM (decoder.advance raw) progress = .ok next) :
    next.Ready raw (first + count) := by
  induction count generalizing first progress with
  | zero =>
    cases run
    exact ready
  | succ count ih =>
    rw [range'_succ, foldlM_cons, bind_eq_ok_iff] at run
    obtain ⟨middle, advanced, run⟩ := run
    have result := ih (advance_ready lawful ready (by omega) advanced) (by omega) run
    rw [Nat.add_right_comm] at result
    exact result

end Decoder

/-- A body is the decoding of raw bytes by the calls of a decoder, behind a mark. -/
structure DecodedResponseBody.ReadsBy (body : DecodedResponseBody) (decoder : Decoder)
    (raw : List Byte) (mark : Nat) : Prop where
  written : ∀ rune ∈ body.runes, mark ≤ rune.rawStart ∧
    decoder.Writes (raw.drop mark) (rune.rawStart - mark) (rune.rawEnd - mark) (body.textOf rune)
  covered : ∀ offset, mark ≤ offset → offset < raw.length →
    (∃ rune ∈ body.runes, rune.Spans offset) ∨ decoder.Skips (raw.drop mark) (offset - mark)

theorem decodeEncodedResponseBody_reads {decoder : Decoder} (lawful : decoder.Lawful)
    (decoded : decodeEncodedResponseBody raw decoder = .ok body) :
    body.Tiled ∧ body.rawLength = raw.length ∧ body.ReadsBy decoder raw 0 := by
  unfold decodeEncodedResponseBody at decoded
  rw [bind_eq_ok_iff] at decoded
  obtain ⟨progress, run, same⟩ := decoded
  cases same
  rw [range_eq_range'] at run
  have ready : progress.Ready raw (0 + raw.length) := Decoder.foldlM_advance_ready lawful
    { tiles := ⟨0, Tiles.nil, Nat.le_refl _, fun active => absurd active Bool.false_ne_true⟩
      span := fun active => absurd active Bool.false_ne_true
      written := fun _ member => absurd member not_mem_nil
      accounted := fun offset before => absurd before (Nat.not_lt_zero offset)
      consumed := Nat.le_refl _
      available := Nat.zero_le _
      rawLength := rfl
      finished := id
      calls := .first }
    (Nat.le_of_eq (Nat.zero_add _)) run
  obtain ⟨rawEnd, tiles, before, _⟩ := ready.tiles
  have consumed := ready.consumed
  have length := ready.rawLength
  have all := ready.finished (Nat.zero_add _)
  refine ⟨⟨rawEnd, by omega, tiles⟩, length, fun rune member => ⟨Nat.zero_le _, ?_⟩,
    fun offset _ inside => ?_⟩
  · exact ready.written rune member
  · exact ready.accounted offset (all.symm ▸ inside)

theorem Tiles.shift {runes : List Rune} {decodedEnd rawEnd : Nat}
    (tiles : Tiles runes decodedEnd rawEnd) (distance : Nat) :
    ∃ shifted, shifted ≤ rawEnd + distance ∧
      Tiles (runes.map fun rune =>
        { rune with rawStart := rune.rawStart + distance, rawEnd := rune.rawEnd + distance })
        decodedEnd shifted := by
  induction tiles with
  | nil => exact ⟨0, Nat.zero_le _, Tiles.nil⟩
  | snoc rune tiles start decoded gap raw ih =>
    obtain ⟨shifted, bound, earlier⟩ := ih
    rw [map_append]
    exact ⟨rune.rawEnd + distance, Nat.le_refl _, Tiles.snoc
      { rune with rawStart := rune.rawStart + distance, rawEnd := rune.rawEnd + distance }
      earlier start decoded (by dsimp only; omega) (by dsimp only; omega)⟩

theorem shiftRaw_tiled (tiled : body.Tiled) (distance : Nat) : (shiftRaw distance body).Tiled := by
  obtain ⟨rawEnd, bound, tiles⟩ := tiled
  obtain ⟨shifted, moved, shiftedTiles⟩ := tiles.shift distance
  refine ⟨shifted, ?_, shiftedTiles⟩
  change shifted ≤ body.rawLength + distance
  omega

theorem shiftRaw_reads {decoder : Decoder} {mark : Nat} (inside : mark ≤ raw.length)
    (reads : body.ReadsBy decoder (raw.drop mark) 0) :
    (shiftRaw mark body).ReadsBy decoder raw mark where
  written := forall_mem_map.mpr fun rune member => by
    refine ⟨Nat.le_add_left _ _, ?_⟩
    rw [Nat.add_sub_cancel, Nat.add_sub_cancel]
    exact (reads.written rune member).2
  covered offset behind before := by
    have covered := reads.covered (offset - mark) (Nat.zero_le _) (by rw [length_drop]; omega)
    refine covered.imp_left ?_
    rintro ⟨rune, member, low, high⟩
    exact ⟨_, mem_map_of_mem member, by dsimp only; omega, by dsimp only; omega⟩

def Charsets.Lawful (charsets : Charsets) : Prop :=
  ∀ label decoder canonical, charsets.get label = .ok (decoder, canonical) → decoder.Lawful

/-- The byte-order mark that a charset is read behind. -/
def markOf (canonical raw : List Byte) : Nat :=
  if byteOrderMark canonical = some (raw.take 2) then 2 else 0

/-- A body is the decoding of raw bytes in a charset of a table. -/
structure DecodedResponseBody.Reads (body : DecodedResponseBody) (charsets : Charsets)
    (raw charset : List Byte) : Prop where
  unlabelled : trimSpace charset = [] → body.ReadsUTF8 raw
  labelled : trimSpace charset ≠ [] → ∃ decoder canonical,
    charsets.get (trimSpace charset) = .ok (decoder, canonical) ∧
      (canonical = ascii "utf-8" → body.ReadsUTF8 raw) ∧
      (canonical ≠ ascii "utf-8" → body.ReadsBy decoder raw (markOf canonical raw))

theorem decodeResponseBody_reads {charsets : Charsets} {charset : List Byte}
    (lawful : charsets.Lawful) (decoded : decodeResponseBody charsets raw charset = .ok body) :
    body.Tiled ∧ body.rawLength = raw.length ∧ body.Reads charsets raw charset := by
  unfold decodeResponseBody at decoded
  dsimp only at decoded
  split at decoded
  · next empty =>
    cases decoded
    obtain ⟨tiled, length⟩ := decodeUTF8ResponseBody_tiled raw
    exact ⟨tiled, length, fun _ => decodeUTF8ResponseBody_reads raw, absurd empty⟩
  next label =>
  split at decoded
  · cases decoded
  next decoder canonical found =>
  have law := lawful _ _ _ found
  split at decoded
  · next utf8 =>
    cases decoded
    obtain ⟨tiled, length⟩ := decodeUTF8ResponseBody_tiled raw
    exact ⟨tiled, length, fun empty => absurd empty label, fun _ => ⟨decoder, canonical, found,
      fun _ => decodeUTF8ResponseBody_reads raw, absurd utf8⟩⟩
  next other =>
  have reads (known : body.ReadsBy decoder raw (markOf canonical raw)) :
      body.Reads charsets raw charset :=
    ⟨fun empty => absurd empty label, fun _ => ⟨decoder, canonical, found,
      fun utf8 => absurd utf8 other, fun _ => known⟩⟩
  split at decoded
  · next mark =>
    rw [bind_eq_ok_iff] at decoded
    obtain ⟨plain, read, same⟩ := decoded
    cases same
    obtain ⟨tiled, length, decoding⟩ := decodeEncodedResponseBody_reads law read
    have marked : 2 ≤ raw.length := by
      unfold byteOrderMark at mark
      have two := length_take_le' 2 raw
      split at mark
      · have length := congrArg List.length (Option.some.inj mark)
        simp only [length_cons] at length
        omega
      · split at mark
        · have length := congrArg List.length (Option.some.inj mark)
          simp only [length_cons] at length
          omega
        · cases mark
    have two : markOf canonical raw = 2 := if_pos mark
    rw [two] at reads
    refine ⟨shiftRaw_tiled tiled 2, ?_, reads (shiftRaw_reads marked decoding)⟩
    change plain.rawLength + 2 = raw.length
    rw [length, length_drop]
    omega
  · next plain =>
    obtain ⟨tiled, length, decoding⟩ := decodeEncodedResponseBody_reads law decoded
    have zero : markOf canonical raw = 0 := if_neg plain
    rw [zero] at reads
    exact ⟨tiled, length, reads decoding⟩

/-! ### A charset of one byte a rune -/

/-- The runes below 0x100, a byte each. -/
def latin1 : Decoder where
  State := Unit
  initial := ()
  transform _ width source _ :=
    match source with
    | [] => { written := [], nSrc := 0, error := .nil, state := () }
    | byte :: rest =>
      let bytes := if byte.toNat < 0x80 then [byte]
        else [0xc0#8 ||| byte >>> 6, 0x80#8 ||| byte &&& 0x3f#8]
      if width < bytes.length then
        { written := [], nSrc := 0, error := .shortDst, state := () }
      else
        { written := bytes
          nSrc := 1
          error := if rest = [] then .nil else .shortDst
          state := () }

theorem latin1_lawful : latin1.Lawful := by
  intro _ width source _ nonempty
  cases source with
  | nil => exact absurd rfl nonempty
  | cons byte rest =>
    unfold latin1
    dsimp only
    generalize (if byte.toNat < 0x80 then [byte] else _) = bytes
    by_cases room : width < bytes.length
    · rw [if_pos room]
      exact ⟨Nat.zero_le _, absurd rfl, nofun, nofun⟩
    · rw [if_neg room]
      by_cases last : rest = []
      · subst last
        exact ⟨Nat.le_refl _, fun _ => Nat.zero_lt_one, nofun, fun _ => rfl⟩
      · rw [if_neg last]
        exact ⟨Nat.succ_pos _, fun _ => Nat.zero_lt_one, nofun, nofun⟩

def latin1Charsets : Charsets where
  responseBodyCharset contentType :=
    if contentType = ascii "text/plain; charset=latin1" then ascii "latin1" else []
  get label :=
    if label = ascii "latin1" then .ok (latin1, ascii "windows-1252")
    else .error "htmlindex: invalid encoding name"

theorem latin1Charsets_lawful : latin1Charsets.Lawful := by
  intro label decoder canonical found
  unfold latin1Charsets at found
  dsimp only at found
  split at found
  · cases found
    exact latin1_lawful
  · cases found

/-- The runes of a body are the decoding of its raw bytes, and parts of the text between runes
are mapped to the raw bytes of their runes. Outside the runes lie only a byte-order mark and
bytes that decode to nothing. -/
theorem rawRange_exact {charsets : Charsets} {charset : List Byte} (lawful : charsets.Lawful)
    (decoded : decodeResponseBody charsets raw charset = .ok body) :
    body.RangesExact ∧ body.Reads charsets raw charset := by
  obtain ⟨tiled, _, reads⟩ := decodeResponseBody_reads lawful decoded
  exact ⟨tiled.rangesExact, reads⟩

theorem rawRange_exact_latin1 :
    decodeResponseBody latin1Charsets [0x41#8, 0xe9#8] (ascii "latin1") =
      .ok { text := [0x41#8, 0xc3#8, 0xa9#8]
            runes := [{ decodedStart := 0, decodedEnd := 1, rawStart := 0, rawEnd := 1 },
              { decodedStart := 1, decodedEnd := 3, rawStart := 1, rawEnd := 2 }]
            rawLength := 2 } ∧
    DecodedResponseBody.RangesExact
      { text := [0x41#8, 0xc3#8, 0xa9#8]
        runes := [{ decodedStart := 0, decodedEnd := 1, rawStart := 0, rawEnd := 1 },
          { decodedStart := 1, decodedEnd := 3, rawStart := 1, rawEnd := 2 }]
        rawLength := 2 } ∧
    (decodeUTF8ResponseBody [0xef#8, 0xbb#8, 0xbf#8, 0x41#8, 0xff#8, 0xc3#8, 0xa9#8]).Reads
      latin1Charsets [0xef#8, 0xbb#8, 0xbf#8, 0x41#8, 0xff#8, 0xc3#8, 0xa9#8] [] := by
  have decoded : decodeResponseBody latin1Charsets [0x41#8, 0xe9#8] (ascii "latin1") =
      .ok { text := [0x41#8, 0xc3#8, 0xa9#8]
            runes := [{ decodedStart := 0, decodedEnd := 1, rawStart := 0, rawEnd := 1 },
              { decodedStart := 1, decodedEnd := 3, rawStart := 1, rawEnd := 2 }]
            rawLength := 2 } := by
    decide +kernel
  exact ⟨decoded, (rawRange_exact latin1Charsets_lawful decoded).1,
    (rawRange_exact latin1Charsets_lawful rfl).2⟩

end ReclaimTee.Providers
