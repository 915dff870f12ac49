/-
What an exchange that the TEE wrote looks like to the Hub: the chunks without the
carriage returns at the ends of their lines, and the headers with the replacement
character for bytes outside UTF-8, which leaves their digest as it is.
-/

import ReclaimTee.TokenHive.Hub.EventStream
import ReclaimTee.TokenHive.Hub.ResponseHeaders

namespace ReclaimTee.TokenHive.Hub

open Providers (base64 base64Digit)
open List
open Json (Printable encode)

/-! ### The stream of an exchange -/

def writeStartFrame (start : ResponseStart) : Text :=
  writeEvent (ascii "start") (encode (startJson start))

def writeFailureFrame (failure : Failure) : Text :=
  writeEvent (ascii "failure") (encode (failureJson failure))

/-- Start, chunks, the failure if there was one, and the receipt's encoding. -/
def serveExecute (start : ResponseStart) (chunks : List Text) (failure : Option Failure)
    (receipt : Text) : Text :=
  writeStartFrame start ++ chunks.flatMap writeChunkFrame ++
    failure.toList.flatMap writeFailureFrame ++ writeEvent (ascii "receipt") (base64 receipt)

def exchangeLines (start : ResponseStart) (chunks : List Text) (failure : Option Failure)
    (receipt : Text) : List Text :=
  eventLines (ascii "start") (encode (startJson start)) ++ ((chunks.map chunkLines).flatten ++
    ((failure.toList.map fun failure =>
        eventLines (ascii "failure") (encode (failureJson failure))).flatten ++
      eventLines (ascii "receipt") (base64 receipt)))

theorem serveExecute_eq (start : ResponseStart) (chunks : List Text) (failure : Option Failure)
    (receipt : Text) :
    serveExecute start chunks failure receipt =
      unlines (exchangeLines start chunks failure receipt) := by
  have written : ∀ chunks : List Text,
      chunks.flatMap writeChunkFrame = unlines (chunks.map chunkLines).flatten := by
    intro chunks
    rw [unlines_flatten, flatMap_map]
    exact flatMap_congr fun chunk _ => writeChunkFrame_eq chunk
  have failed : failure.toList.flatMap writeFailureFrame =
      unlines ((failure.toList.map fun failure =>
        eventLines (ascii "failure") (encode (failureJson failure))).flatten) := by
    rw [unlines_flatten, flatMap_map]
    exact flatMap_congr fun failure _ => writeEvent_eq _ _
  unfold serveExecute exchangeLines writeStartFrame
  rw [written, failed, writeEvent_eq, writeEvent_eq, unlines_append, unlines_append, unlines_append]
  simp only [append_assoc]

/-! ### Contents without line ends -/

theorem printable_base64Digit : ∀ digit < 64, 0x20 ≤ (base64Digit digit).toNat := by
  decide +kernel

theorem printable_base64 (bytes : Text) : Printable (base64 bytes) := by
  fun_induction base64 bytes with
  | case1 => exact Json.printable_nil
  | case2 | case3 =>
    simp (disch := omega) [printable_base64Digit, char]
  | case4 first second third rest ih =>
    simp (disch := omega) [printable_base64Digit, ih]

theorem printable_failureJson (failure : Failure) : Printable (encode (failureJson failure)) := by
  have cold : ∃ later, Json.ReadsMembers 0
      (if failure.cold then [(ascii "cold", Json.bool true)] else []) later := by
    split
    · exact ⟨_, .cons _ (.bool 0 true) (.nil 0)⟩
    · exact ⟨_, .nil 0⟩
  obtain ⟨later, coldReads⟩ := cold
  have stage : ∃ later, Json.ReadsMembers 0
      ((if failure.stage = [] then [] else [(ascii "stage", Json.string failure.stage)]) ++
        if failure.cold then [(ascii "cold", Json.bool true)] else []) later := by
    split
    · exact ⟨_, coldReads⟩
    · exact ⟨_, .cons _ (.string 0 failure.stage) coldReads⟩
  obtain ⟨_, stageReads⟩ := stage
  exact Json.printable_encode
    (.object (.cons (ascii "class") (.string 0 failure.failureClass) stageReads))

theorem no_lineFeed {text : Text} (printable : Printable text) : lineFeed ∉ text := by
  intro member
  exact absurd (printable _ member) (by decide)

theorem trimRight_printable {text : Text} (printable : Printable text) : trimRight text = text := by
  rw [trimRight_eq_self (no_lineFeed printable)]
  intro last
  exact absurd (printable _ (mem_of_getLast? last)) (by decide)

theorem printable_startJson {start : ResponseStart}
    (names : ∀ entry ∈ start.headers, ∀ byte ∈ entry.1, byte.toNat < 0x80) :
    Printable (encode (startJson start)) := by
  have headers : ∃ later, Json.ReadsMembers 2
      (if start.headers = [] then [] else [(ascii "headers", headersJson start.headers)]) later := by
    split
    · exact ⟨_, .nil 2⟩
    · exact ⟨_, .cons _ (reads_headersJson 0 names) (.nil 2)⟩
  obtain ⟨_, headersRead⟩ := headers
  exact Json.printable_encode (.object (.cons (ascii "status") (.number 2 start.status) headersRead))

/-! ### The frames of an exchange -/

def chunkFrame (data : Text) : SSEEvent where
  type := []
  data := data
  hasData := true

def namedFrame (event data : Text) : SSEEvent where
  type := event
  data := data
  hasData := true

theorem no_lineFeed_eventLines {event data : Text} (named : lineFeed ∉ event)
    (printable : Printable data) : ∀ line ∈ eventLines event data, lineFeed ∉ line := by
  have known : lineFeed ∉ ascii "event: " ∧ lineFeed ∉ ascii "data: " := by decide
  intro line member
  unfold eventLines at member
  simp only [mem_cons, not_mem_nil, or_false] at member
  rcases member with rfl | rfl | rfl
  · rw [mem_append, not_or]
    exact ⟨known.1, named⟩
  · rw [mem_append, not_or]
    exact ⟨known.2, no_lineFeed printable⟩
  · exact not_mem_nil

theorem no_lineFeed_chunkLines (chunk : Text) : ∀ line ∈ chunkLines chunk, lineFeed ∉ line := by
  have known : lineFeed ∉ ascii "data: " := by decide
  intro line member
  rcases mem_append.mp member with data | last
  · obtain ⟨content, inside, rfl⟩ := mem_map.mp data
    rw [mem_append, not_or]
    exact ⟨known, not_mem_of_mem_splitOn inside⟩
  · rw [mem_singleton.mp last]
    exact not_mem_nil

section Names

variable {start : ResponseStart} (chunks : List Text) (failure : Option Failure) (receipt : Text)
  (names : ∀ entry ∈ start.headers, ∀ byte ∈ entry.1, byte.toNat < 0x80)
include names

theorem no_lineFeed_exchangeLines :
    ∀ line ∈ exchangeLines start chunks failure receipt, lineFeed ∉ line := by
  intro line member
  rcases mem_append.mp member with first | member
  · exact no_lineFeed_eventLines (by decide) (printable_startJson names) line first
  rcases mem_append.mp member with second | member
  · obtain ⟨lines, inside, here⟩ := mem_flatten.mp second
    obtain ⟨chunk, _, rfl⟩ := mem_map.mp inside
    exact no_lineFeed_chunkLines chunk line here
  rcases mem_append.mp member with third | fourth
  · obtain ⟨lines, inside, here⟩ := mem_flatten.mp third
    obtain ⟨failed, _, rfl⟩ := mem_map.mp inside
    exact no_lineFeed_eventLines (by decide) (printable_failureJson failed) line here
  · exact no_lineFeed_eventLines (by decide) (printable_base64 receipt) line fourth

theorem sseEvents_serveExecute :
    sseEvents (serveExecute start chunks failure receipt) =
      namedFrame (ascii "start") (encode (startJson start)) ::
        ((chunks.map fun chunk => chunkFrame (receivedChunk chunk)) ++
          ((failure.toList.map fun failure =>
              namedFrame (ascii "failure") (encode (failureJson failure))) ++
            [namedFrame (ascii "receipt") (base64 receipt)])) := by
  unfold sseEvents
  rw [serveExecute_eq, splitOn_unlines (no_lineFeed_exchangeLines chunks failure receipt names)]
  unfold exchangeLines
  have failed : ∀ rest, eventsFrom .begin ((failure.toList.map fun failure =>
        eventLines (ascii "failure") (encode (failureJson failure))).flatten ++ rest) =
      (failure.toList.map fun failure =>
        namedFrame (ascii "failure") (encode (failureJson failure))) ++ eventsFrom .begin rest := by
    intro rest
    cases failure with
    | none => rfl
    | some failure =>
      exact eventsFrom_event rest (by decide) (by decide)
        (trimRight_printable (printable_failureJson failure))
  simp only [append_assoc]
  rw [eventsFrom_event _ (by decide) (by decide) (trimRight_printable (printable_startJson names)),
    eventsFrom_chunks, failed,
    eventsFrom_event _ (by decide) (by decide) (trimRight_printable (printable_base64 receipt))]
  rfl

end Names

/-! ### What the Hub keeps -/

section Reading

variable {seam : Seam} {callbacks : Callbacks}

theorem readFrame_chunks (chunks : List Text) (reading : Reading) :
    ((chunks.map chunkFrame).foldl (seam.readFrame callbacks) reading).result =
      { reading.result with chunks := reading.result.chunks ++ chunks } := by
  induction chunks generalizing reading with
  | nil => simp
  | cons chunk rest ih =>
    have first : seam.readFrame callbacks reading (chunkFrame chunk) =
        Seam.readChunk callbacks reading chunk := rfl
    rw [map_cons, foldl_cons, first, ih]
    simp [Seam.readChunk]

/-- The kept chunks, status and headers, which the last frames leave alone. -/
def Result.kept (result : Result) : List Text × Nat × Headers :=
  (result.chunks, result.status, result.headers)

theorem readFrame_failure_kept (reading : Reading) (data : Text) :
    (seam.readFrame callbacks reading (namedFrame (ascii "failure") data)).result.kept =
      reading.result.kept := by
  change (seam.readFailure reading data).result.kept = reading.result.kept
  unfold Seam.readFailure
  split <;> rfl

theorem readFrame_start {reading : Reading} {data : Text} {start : ResponseStart}
    (decoded : seam.unmarshalStart data = some start) :
    (seam.readFrame callbacks reading (namedFrame (ascii "start") data)).result =
      { reading.result with status := start.status, headers := start.headers } := by
  change (seam.readStart callbacks reading data).result = _
  unfold Seam.readStart
  rw [decoded]

theorem verdict_kept (reading : Reading) : (seam.verdict reading).1.kept = reading.result.kept := by
  unfold Seam.verdict
  repeat' split
  all_goals rfl

theorem readFrames_exchange {data : Text} {start : ResponseStart} (chunks : List Text)
    (failures : List Text) (receipt : Text) (decoded : seam.unmarshalStart data = some start) :
    (seam.readSSE callbacks
      (namedFrame (ascii "start") data :: ((chunks.map chunkFrame) ++
        ((failures.map (namedFrame (ascii "failure"))) ++
          [namedFrame (ascii "receipt") receipt])))).1.kept =
      (chunks, start.status, start.headers) := by
  unfold Seam.readSSE
  rw [verdict_kept]
  unfold Seam.readFrames
  rw [foldl_cons, foldl_append, foldl_append]
  have failed : ∀ reading : Reading,
      ((failures.map (namedFrame (ascii "failure"))).foldl (seam.readFrame callbacks)
        reading).result.kept = reading.result.kept := by
    induction failures with
    | nil =>
      intro reading
      rfl
    | cons failure rest ih =>
      intro reading
      rw [map_cons, foldl_cons, ih, readFrame_failure_kept]
  have final : ∀ reading : Reading,
      ([namedFrame (ascii "receipt") receipt].foldl (seam.readFrame callbacks)
        reading).result.kept = reading.result.kept := fun _ => rfl
  rw [final, failed, readFrame_chunks]
  rw [readFrame_start decoded]
  rfl

end Reading

/-! ### Exchanges that arrive intact -/

/-- A receipt that attests the start and the chunks. -/
def attesting (receipt : Receipt) (seam : Seam) (start : ResponseStart) (chunks : List Text) :
    Receipt :=
  { receipt with
    statusCode := start.status
    responseHeadersHash := seam.hashResponseHeaders start.headers
    streamHash := hashResponseStream seam.digests receipt.jobID chunks }

/-- The Hub has the chunks that were written, and the receipt matches them and
the start. -/
structure Intact (seam : Seam) (receipt : Receipt) (start : ResponseStart) (chunks : List Text)
    (result : Result) : Prop where
  delivered : result.chunks = chunks
  stream : (attesting receipt seam start chunks).matchesStream seam.digests result.chunks = true
  started : seam.receiptMatchesStart (attesting receipt seam start chunks) result.status
    result.headers = true

theorem attesting_matchesStart {seam : Seam} {receipt : Receipt} {start : ResponseStart}
    {chunks : List Text} {headers : Headers} :
    seam.receiptMatchesStart (attesting receipt seam start chunks) start.status headers = true ↔
      seam.hashResponseHeaders headers = seam.hashResponseHeaders start.headers := by
  have nonempty : seam.hashResponseHeaders start.headers ≠ [] := Seam.hashResponseHeaders_ne_nil _
  simp only [Seam.receiptMatchesStart, attesting, nonempty, ne_eq]
  exact decide_eq_true_iff

/-- No line of a chunk ends with a carriage return. -/
def NoTrailingReturn (chunks : List Text) : Prop :=
  ∀ chunk ∈ chunks, ∀ line ∈ chunk.splitOn lineFeed, line.getLast? ≠ some carriageReturn

theorem map_receivedChunk_iff {chunks : List Text} :
    chunks.map receivedChunk = chunks ↔ NoTrailingReturn chunks := by
  have each := @List.map_inj_left _ _ chunks receivedChunk id
  rw [map_id] at each
  rw [each]
  exact forall₂_congr fun chunk _ => receivedChunk_eq_iff

section Exchange

variable (digests : Digests) (lower : LowerCase)
  (decodeReceiptFrame : Text → Option SignedReceipt) (callbacks : Callbacks)

/-- What the Hub has of an exchange that the TEE wrote. -/
def received (start : ResponseStart) (chunks : List Text) (failure : Option Failure)
    (encoding : Text) : Result :=
  ((jsonSeam digests lower decodeReceiptFrame).readSSE callbacks
    (sseEvents (serveExecute start chunks failure encoding))).1

variable {digests lower decodeReceiptFrame callbacks}

theorem received_kept {start : ResponseStart} (chunks : List Text) (failure : Option Failure)
    (encoding : Text) (small : start.status < uint32Limit)
    (forwarded : Forwarded lower start.headers) :
    (received digests lower decodeReceiptFrame callbacks start chunks failure encoding).kept =
      (chunks.map receivedChunk, start.status, receivedHeaders start.headers) := by
  have nodup : (start.headers.map Prod.fst).Nodup := by
    apply List.Nodup.of_map lower.toLower
    have names := forwarded.nodup
    unfold lowered at names
    rw [map_map] at names ⊢
    exact names
  have decoded := unmarshalStart_startJson small forwarded.ascii nodup
  have frames := @readFrames_exchange (jsonSeam digests lower decodeReceiptFrame) callbacks _ _
    (chunks.map receivedChunk)
    (failure.toList.map fun failure => encode (failureJson failure)) (base64 encoding) decoded
  unfold received
  rw [sseEvents_serveExecute chunks failure encoding forwarded.ascii]
  rw [map_map, map_map] at frames
  exact frames

end Exchange

/-! ### Chunks that do not survive -/

namespace FidelitySample

/-- Enough of a digest to tell two header sets apart. -/
def digests : Digests where
  sha256 text := (text ++ List.replicate 32 0#8).take 32
  sha256_length text := by
    rw [List.length_take, List.length_append, List.length_replicate]
    omega
  encodeCanonical _ := []

def lower : LowerCase where
  toLower text := text.map lowerByte
  toLower_ascii _ _ := rfl

/-- One content type, with the given value. -/
def headers (value : Text) : HeaderSet where
  entries := [(ascii "Content-Type", [value])]
  nodup := List.nodup_singleton _
  ascii := by
    have known : ∀ byte ∈ ascii "Content-Type", byte.toNat < 0x80 := by decide
    exact List.forall_mem_singleton.mpr known
  canonical := by
    have known : canonicalMIMEHeaderKey (ascii "Content-Type") = ascii "Content-Type" := by decide
    exact List.forall_mem_singleton.mpr (Or.inr known)

def start (value : Text) : ResponseStart where
  status := 200
  headers := forwardResponseHeaders lower (headers value)

def result (value : Text) (chunks : List Text) : Result :=
  received digests lower (fun _ => none) { onChunk := true, onStart := true } (start value) chunks
    none [1#8]

end FidelitySample

open FidelitySample

/-- A line end of two characters inside a chunk, and one carriage return at its end. -/
theorem returns_do_not_survive :
    ¬ Intact (jsonSeam digests lower fun _ => none)
        SignedReceipt.zero.receipt (start (ascii "text/plain"))
        [ascii "a\r\nb"] (result (ascii "text/plain") [ascii "a\r\nb"]) ∧
      ¬ Intact (jsonSeam digests lower fun _ => none)
        SignedReceipt.zero.receipt (start [0xe9#8]) [ascii "a\r"]
        (result [0xe9#8] [ascii "a\r"]) := by
  constructor
  · intro intact
    have chunks := intact.delivered
    revert chunks
    decide +kernel
  · intro intact
    have chunks := intact.delivered
    revert chunks
    decide +kernel

/-- An exchange arrives intact exactly if no line of its chunks ends with a
carriage return, whatever bytes the forwarded header values have. -/
theorem intact_iff (digests : Digests) (lower : LowerCase)
    (decodeReceiptFrame : Text → Option SignedReceipt) (callbacks : Callbacks) (receipt : Receipt)
    (status : BitVec 32) (src : HeaderSet) (chunks : List Text) (failure : Option Failure)
    (encoding : Text) :
    Intact (jsonSeam digests lower decodeReceiptFrame) receipt
        ⟨status.toNat, forwardResponseHeaders lower src⟩ chunks
        (received digests lower decodeReceiptFrame callbacks
          ⟨status.toNat, forwardResponseHeaders lower src⟩ chunks failure encoding) ↔
      NoTrailingReturn chunks := by
  have forwarded := forwarded_forwardResponseHeaders lower src
  have kept := @received_kept digests lower decodeReceiptFrame callbacks
    ⟨status.toNat, forwardResponseHeaders lower src⟩ chunks failure encoding status.isLt forwarded
  have delivered := congrArg Prod.fst kept
  have started := congrArg (fun kept => kept.2.1) kept
  have headers := congrArg (fun kept => kept.2.2) kept
  change Result.chunks _ = _ at delivered
  change Result.status _ = _ at started
  change Result.headers _ = _ at headers
  rw [← map_receivedChunk_iff]
  constructor
  · intro intact
    exact delivered.symm.trans intact.delivered
  · intro whole
    refine ⟨delivered.trans whole, ?_, ?_⟩
    · rw [delivered, whole, matchesStream_iff]
      rfl
    · rw [started, headers]
      exact attesting_matchesStart.mpr (congrArg digests.sha256 (digested_alike forwarded))

end ReclaimTee.TokenHive.Hub
