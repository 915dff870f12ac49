/-
The event stream between the TEE and the Hub, one data line for each line of a
chunk. The reader trims the line end with the carriage returns before it, so a
chunk arrives without the returns at the end of its lines.
-/

import Mathlib.Data.List.DropRight
import ReclaimTee.Providers.Request
import ReclaimTee.TokenHive.Hub.Seam

namespace ReclaimTee.TokenHive.Hub

open List

def lineFeed : Byte := 0x0a#8

def carriageReturn : Byte := 0x0d#8

/-! ### Writing frames -/

def writeChunkFrame (chunk : Text) : Text :=
  ((chunk.splitOn lineFeed).flatMap fun line => ascii "data: " ++ line ++ [lineFeed]) ++ [lineFeed]

def writeEvent (event data : Text) : Text :=
  ascii "event: " ++ event ++ [lineFeed] ++ ascii "data: " ++ data ++ [lineFeed, lineFeed]

/-! ### Reading frames -/

def trimRight (line : Text) : Text :=
  line.rdropWhile fun byte => byte = carriageReturn || byte = lineFeed

def trimPrefix (front text : Text) : Text :=
  if front.isPrefixOf text then text.drop front.length else text

structure PendingEvent where
  type : Text
  data : Text
  dataLines : Nat
  seen : Bool
deriving DecidableEq, Repr

namespace PendingEvent

def begin : PendingEvent where
  type := []
  data := []
  dataLines := 0
  seen := false

def event (pending : PendingEvent) : SSEEvent where
  type := pending.type
  data := pending.data
  hasData := 0 < pending.dataLines

def field (pending : PendingEvent) (trimmed : Text) : PendingEvent :=
  if (ascii "event:").isPrefixOf trimmed then
    { pending with type := trimSpace (trimPrefix (ascii "event:") trimmed), seen := true }
  else if (ascii "data:").isPrefixOf trimmed then
    { pending with
      data := (if 0 < pending.dataLines then pending.data ++ [lineFeed] else pending.data) ++
        trimPrefix (ascii " ") (trimPrefix (ascii "data:") trimmed)
      dataLines := pending.dataLines + 1
      seen := true }
  else
    pending

end PendingEvent

/-- The frames in the lines that are left. A frame that the stream ends in counts. -/
def eventsFrom : PendingEvent → List Text → List SSEEvent
  | pending, [] => if pending.seen then [pending.event] else []
  | pending, line :: lines =>
    if trimRight line = [] then
      if pending.seen then pending.event :: eventsFrom .begin lines
      else eventsFrom pending lines
    else
      eventsFrom (pending.field (trimRight line)) lines

def sseEvents (input : Text) : List SSEEvent :=
  eventsFrom .begin (input.splitOn lineFeed)

/-! ### Lines -/

def unlines (lines : List Text) : Text :=
  lines.flatMap fun line => line ++ [lineFeed]

def chunkLines (chunk : Text) : List Text :=
  (chunk.splitOn lineFeed).map (ascii "data: " ++ ·) ++ [[]]

def eventLines (event data : Text) : List Text :=
  [ascii "event: " ++ event, ascii "data: " ++ data, []]

theorem writeChunkFrame_eq (chunk : Text) : writeChunkFrame chunk = unlines (chunkLines chunk) := by
  unfold writeChunkFrame unlines chunkLines
  rw [flatMap_append, flatMap_map]
  rfl

theorem writeEvent_eq (event data : Text) : writeEvent event data = unlines (eventLines event data) := by
  simp [writeEvent, unlines, eventLines]

theorem unlines_append (lines more : List Text) :
    unlines (lines ++ more) = unlines lines ++ unlines more :=
  flatMap_append

theorem unlines_flatten (blocks : List (List Text)) :
    unlines blocks.flatten = blocks.flatMap unlines := by
  induction blocks with
  | nil => rfl
  | cons block more ih => rw [flatten_cons, unlines_append, ih, flatMap_cons]

theorem splitOn_unlines {lines : List Text} (single : ∀ line ∈ lines, lineFeed ∉ line) :
    (unlines lines).splitOn lineFeed = lines ++ [[]] := by
  induction lines with
  | nil => rfl
  | cons line more ih =>
    have later := ih fun other member => single other (mem_cons_of_mem _ member)
    have whole : unlines (line :: more) = line ++ lineFeed :: unlines more := by
      simp [unlines]
    rw [whole, splitOn_append_cons_self_of_not_mem (single line mem_cons_self), later]
    rfl

theorem not_mem_of_mem_splitOn {text line : Text} (member : line ∈ text.splitOn lineFeed) :
    lineFeed ∉ line := by
  induction text generalizing line with
  | nil =>
    rw [splitOn_nil] at member
    rw [mem_singleton.mp member]
    exact not_mem_nil
  | cons byte rest ih =>
    rw [splitOn_cons_eq_if_modifyHead] at member
    split at member
    · rcases mem_cons.mp member with rfl | later
      · exact not_mem_nil
      · exact ih later
    · next other =>
      cases split : rest.splitOn lineFeed with
      | nil => exact absurd split (splitOn_ne_nil _ _)
      | cons first lines =>
        rw [split] at member
        rcases mem_cons.mp member with rfl | later
        · intro inside
          rcases mem_cons.mp inside with same | within
          · exact other (by rw [same]; exact BEq.rfl)
          · exact ih (by rw [split]; exact mem_cons_self) within
        · exact ih (by rw [split]; exact mem_cons_of_mem _ later)

/-! ### Trimming -/

theorem trimRight_data (line : Text) :
    trimRight (ascii "data: " ++ line) = ascii "data: " ++ trimRight line := by
  induction line using List.reverseRecOn with
  | nil => rfl
  | append_singleton line byte ih =>
    unfold trimRight at ih ⊢
    rw [← append_assoc, rdropWhile_concat, rdropWhile_concat]
    split
    · exact ih
    · exact append_assoc _ _ _

theorem trimRight_eq_self {line : Text} (single : lineFeed ∉ line) :
    trimRight line = line ↔ line.getLast? ≠ some carriageReturn := by
  unfold trimRight
  rw [rdropWhile_eq_self_iff]
  constructor
  · intro kept last
    have nonempty : line ≠ [] := by
      rintro rfl
      cases last
    rw [getLast?_eq_some_getLast nonempty] at last
    exact kept nonempty (by simp [Option.some.inj last])
  · intro kept nonempty dropped
    rw [getLast?_eq_some_getLast nonempty] at kept
    have member := getLast_mem nonempty
    rcases Bool.or_eq_true_iff.mp dropped with returned | fed
    · exact kept (congrArg some (of_decide_eq_true returned))
    · rw [of_decide_eq_true fed] at member
      exact single member

theorem trimRight_subset (line : Text) : ∀ byte ∈ trimRight line, byte ∈ line :=
  fun _ member => ( rdropWhile_prefix _ line).subset member

/-! ### Frames read back -/

theorem field_data (pending : PendingEvent) (line : Text) :
    pending.field (ascii "data: " ++ line) =
      { pending with
        data := (if 0 < pending.dataLines then pending.data ++ [lineFeed] else pending.data) ++ line
        dataLines := pending.dataLines + 1
        seen := true } := by
  rfl

theorem eventsFrom_data (pending : PendingEvent) (line : Text) (lines : List Text) :
    eventsFrom pending ((ascii "data: " ++ line) :: lines) =
      eventsFrom (pending.field (ascii "data: " ++ trimRight line)) lines := by
  rw [eventsFrom, trimRight_data]
  rfl

theorem eventsFrom_more {type data : Text} {count : Nat} (lines rest : List Text) :
    eventsFrom ⟨type, data, count + 1, true⟩ (lines.map (ascii "data: " ++ ·) ++ [] :: rest) =
      ⟨type, data ++ lines.flatMap fun line => lineFeed :: trimRight line, true⟩ ::
        eventsFrom .begin rest := by
  induction lines generalizing data count with
  | nil =>
    rw [flatMap_nil, append_nil]
    rfl
  | cons line more ih =>
    rw [map_cons, cons_append, eventsFrom_data, field_data]
    rw [ih]
    simp

/-- What is left of a chunk when it is read. -/
def receivedChunk (chunk : Text) : Text :=
  [lineFeed].intercalate ((chunk.splitOn lineFeed).map trimRight)

theorem intercalate_cons_eq (first : Text) (rest : List Text) :
    [lineFeed].intercalate (first :: rest) =
      first ++ rest.flatMap fun line => lineFeed :: line := by
  induction rest generalizing first with
  | nil => simp
  | cons second more ih =>
    rw [intercalate_cons_cons, ih]
    simp

theorem eventsFrom_chunk (chunk : Text) (rest : List Text) :
    eventsFrom .begin (chunkLines chunk ++ rest) =
      ⟨[], receivedChunk chunk, true⟩ :: eventsFrom .begin rest := by
  unfold chunkLines receivedChunk
  cases split : chunk.splitOn lineFeed with
  | nil => exact absurd split (splitOn_ne_nil _ _)
  | cons first lines =>
    rw [map_cons, map_cons, intercalate_cons_eq, append_assoc, cons_append,
      eventsFrom_data]
    refine (eventsFrom_more lines rest).trans ?_
    rw [flatMap_map]
    rfl

theorem eventsFrom_chunks (chunks : List Text) (rest : List Text) :
    eventsFrom .begin ((chunks.map chunkLines).flatten ++ rest) =
      (chunks.map fun chunk => ⟨[], receivedChunk chunk, true⟩) ++ eventsFrom .begin rest := by
  induction chunks with
  | nil => rfl
  | cons chunk more ih =>
    rw [map_cons, flatten_cons, append_assoc, eventsFrom_chunk, ih]
    rfl

theorem eventsFrom_event {event data : Text} (rest : List Text)
    (named : trimRight (ascii "event: " ++ event) = ascii "event: " ++ event)
    (plain : trimSpace (ascii " " ++ event) = event) (kept : trimRight data = data) :
    eventsFrom .begin (eventLines event data ++ rest) =
      ⟨event, data, true⟩ :: eventsFrom .begin rest := by
  have typed : PendingEvent.begin.field (ascii "event: " ++ event) =
      { PendingEvent.begin with
        type := event
        seen := true } := by
    change { PendingEvent.begin with type := trimSpace (ascii " " ++ event), seen := true } = _
    rw [plain]
  have nonempty : ascii "event: " ++ event ≠ [] := nofun
  unfold eventLines
  rw [cons_append, eventsFrom, named, if_neg nonempty, typed, cons_append,
    eventsFrom_data, kept]
  rfl

theorem receivedChunk_eq_iff {chunk : Text} :
    receivedChunk chunk = chunk ↔
      ∀ line ∈ chunk.splitOn lineFeed, line.getLast? ≠ some carriageReturn := by
  have single : ∀ line ∈ (chunk.splitOn lineFeed).map trimRight, lineFeed ∉ line := by
    intro line member inside
    obtain ⟨whole, here, rfl⟩ := mem_map.mp member
    exact not_mem_of_mem_splitOn here (trimRight_subset whole _ inside)
  have nonempty : (chunk.splitOn lineFeed).map trimRight ≠ [] := by
    intro empty
    exact splitOn_ne_nil _ _ (map_eq_nil_iff.mp empty)
  have unchanged : (chunk.splitOn lineFeed).map trimRight = chunk.splitOn lineFeed ↔
      ∀ line ∈ chunk.splitOn lineFeed, trimRight line = line := by
    have each := @List.map_inj_left _ _ (chunk.splitOn lineFeed) trimRight id
    rwa [map_id] at each
  constructor
  · intro same line member
    have split := splitOn_intercalate lineFeed single nonempty
    have lines : (chunk.splitOn lineFeed).map trimRight = chunk.splitOn lineFeed := by
      rw [← split]
      exact congrArg _ same
    exact (trimRight_eq_self (not_mem_of_mem_splitOn member)).mp (unchanged.mp lines line member)
  · intro kept
    have lines : (chunk.splitOn lineFeed).map trimRight = chunk.splitOn lineFeed :=
      unchanged.mpr fun line member =>
        (trimRight_eq_self (not_mem_of_mem_splitOn member)).mpr (kept line member)
    unfold receivedChunk
    rw [lines]
    exact intercalate_splitOn lineFeed

end ReclaimTee.TokenHive.Hub
