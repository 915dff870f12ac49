/-
TEE_K's generation of the redacted keystream of a response, with the mutex that
guards the streams of a session. A lock of a mutex that is held never returns.
The answers of the calls it makes are arbitrary.
-/

import Mathlib.Algebra.GroupWithZero.Nat
import ReclaimTee.Bytes
import ReclaimTee.Checked

namespace ReclaimTee.Response

structure RedactionRange where
  start : Int
  length : Int

structure OprfRange where
  tlsStart : Int
  tlsLength : Int

structure RedactionOperation where
  seqNum : Nat
  start : Int
  stop : Int
  bytes : List Byte

structure StreamSession where
  streamsMutex : Bool
  redactedStreams : List (Nat × List Byte)
  consolidatedResponseKeystream : List Byte
  redactionProcessingComplete : Bool

/-- The OPRF part of the session state of TEE_K. -/
structure OprfQueue where
  clientRangesReceived : Bool
  inProgress : Bool
  ranges : List OprfRange
  initiationStarted : Bool

/-- What the calls answer. The TLS state of the session is whether its suite is one
of TLS 1.3, and the length of each record. -/
structure StreamCalls where
  session : Except String (Bool × List (Nat × Nat))
  random : Nat × Int × Int → List Byte
  stream : Nat → Nat → Except String (List Byte)
  oprf : Option OprfQueue
  initiate : Nat → Option String
  signature : Except String Unit
  stream_length : ∀ seqNum length bytes, stream seqNum length = .ok bytes → bytes.length = length

/-- A section between `Lock` and `Unlock`. -/
def withStreams (s : StreamSession) (change : StreamSession → StreamSession) :
    Option StreamSession :=
  if s.streamsMutex then none else some (change s)

/-- The parts of the records that a range covers, as offsets in each record. -/
def overlaps (isTLS13 : Bool) (range : RedactionRange) :
    Int → List (Nat × Nat) → List (Nat × Int × Int)
  | _, [] => []
  | seqStart, (seqNum, length) :: rest =>
    let seqEnd := seqStart + (if isTLS13 then (length : Int) - 1 else length)
    let later := overlaps isTLS13 range seqEnd rest
    if range.start < seqEnd ∧ seqStart < range.start + range.length then
      let first := max range.start seqStart - seqStart
      let last := min (range.start + range.length) seqEnd - seqStart
      if 0 < last - first then (seqNum, first, last) :: later else later
    else
      later

def redactionOperations (c : StreamCalls) (isTLS13 : Bool) (ranges : List RedactionRange)
    (records : List (Nat × Nat)) : List RedactionOperation :=
  (ranges.flatMap fun range => overlaps isTLS13 range 0 records).map fun part =>
    { seqNum := part.1, start := part.2.1, stop := part.2.2, bytes := c.random part }

def applyOperation (stream : List Byte) (operation : RedactionOperation) : List Byte :=
  stream.mapIdx fun position byte =>
    if operation.start ≤ position then
      operation.bytes.getD (position - operation.start.toNat) byte
    else
      byte

/-- The bytes of a record without the content type byte of TLS 1.3. -/
def trimmedLength (isTLS13 : Bool) (length : Nat) : Nat :=
  if isTLS13 then length - 1 else length

def redactRecord (c : StreamCalls) (isTLS13 : Bool) (operations : List RedactionOperation)
    (seqNum length : Nat) : Except String (List Byte × List Byte) := do
  let original ← c.stream seqNum length
  rejectIf (isTLS13 ∧ length < 1) "invalid TLS 1.3 response length"
  let redacted := (operations.filter (·.seqNum = seqNum)).foldl applyOperation original
  let size := trimmedLength isTLS13 length
  return (redacted.take size, original.take size)

/-- Adds the redacted streams to the session and returns the original keystream. -/
def redactRecords (c : StreamCalls) (isTLS13 : Bool) (operations : List RedactionOperation) :
    List (Nat × Nat) → StreamSession → Option (StreamSession × Except String (List Byte))
  | [], s => some (s, .ok [])
  | (seqNum, length) :: rest, s => do
    -- getCachedDecryptionStream looks into the cache under the mutex
    let s ← withStreams s id
    match redactRecord c isTLS13 operations seqNum length with
    | .error text => return (s, .error text)
    | .ok (redacted, original) =>
      let s ← withStreams s fun s =>
        { s with redactedStreams := s.redactedStreams ++ [(seqNum, redacted)] }
      let (s, later) ← redactRecords c isTLS13 operations rest s
      return (s, later.map (original ++ ·))

def initiateRanges (c : StreamCalls) (keystream : List Byte) :
    Nat → List OprfRange → Except String Unit
  | _, [] => .ok ()
  | i, r :: rest => do
    rejectIf (r.tlsStart < 0 ∨ r.tlsLength ≤ 0 ∨ 64 < r.tlsLength)
      s!"invalid range {i}: start={r.tlsStart} length={r.tlsLength}"
    let rangeEnd := r.tlsStart + r.tlsLength
    rejectIf (keystream.length < rangeEnd)
      s!"range {i} exceeds keystream (end={rangeEnd}, keystream_len={keystream.length})"
    rejectSome (c.initiate i) (s!"failed to initiate OPRF for range {i}: " ++ ·)
    initiateRanges c keystream (i + 1) rest

def processQueuedOPRFRanges (c : StreamCalls) (q : OprfQueue) (keystream : List Byte) :
    Except String Unit :=
  if q.clientRangesReceived = false ∨ q.inProgress = false then
    .ok ()
  else if q.ranges = [] ∨ keystream = [] ∨ q.initiationStarted then
    .ok ()
  else
    initiateRanges c keystream 0 q.ranges

/-- The keystream is published to the OPRF state, which may start queued ranges. -/
def publishKeystream (c : StreamCalls) (keystream : List Byte) : Except String Unit :=
  match c.oprf with
  | none => .ok ()
  | some q =>
    if q.clientRangesReceived ∧ q.ranges ≠ [] then
      processQueuedOPRFRanges c q keystream
    else
      .ok ()

/-- The section from the last `Lock` on. -/
def consolidate (c : StreamCalls) (originals : List Byte) (s : StreamSession) :
    Option (StreamSession × Except String Unit) :=
  if s.streamsMutex then
    none
  else
    let s :=
      { s with
        streamsMutex := true
        consolidatedResponseKeystream := s.redactedStreams.flatMap Prod.snd }
    match publishKeystream c originals with
    | .error text => some (s, .error s!"failed to process queued OPRF ranges: {text}")
    | .ok _ => do
      let s :=
        { s with redactionProcessingComplete := true, streamsMutex := false }
      -- the readiness check takes the mutex again
      let s ← withStreams s id
      return (s, c.signature)

def generateAndSendRedactedDecryptionStream (c : StreamCalls) (ranges : List RedactionRange)
    (s : StreamSession) : Option (StreamSession × Except String Unit) :=
  match c.session with
  | .error text => some (s, .error text)
  | .ok (isTLS13, records) => do
    let s ← withStreams s fun s => { s with redactedStreams := [] }
    let operations := redactionOperations c isTLS13 ranges records
    match ← redactRecords c isTLS13 operations records s with
    | (s, .error text) => return (s, .error text)
    | (s, .ok originals) => consolidate c originals s

/-! ### When the mutex is released -/

/-- The keystream of a record is there and can be trimmed. -/
def Available (c : StreamCalls) (isTLS13 : Bool) (record : Nat × Nat) : Prop :=
  (∃ bytes, c.stream record.1 record.2 = .ok bytes) ∧ ¬ (isTLS13 = true ∧ record.2 < 1)

/-- Every step before the last `Lock` succeeds. -/
def Reaches (c : StreamCalls) (isTLS13 : Bool) (records : List (Nat × Nat)) : Prop :=
  c.session = .ok (isTLS13, records) ∧ ∀ record ∈ records, Available c isTLS13 record

def totalLength (isTLS13 : Bool) (records : List (Nat × Nat)) : Nat :=
  (records.map fun record => trimmedLength isTLS13 record.2).sum

/-- The client's ranges are queued and not yet started. -/
def OprfQueue.Due (q : OprfQueue) : Prop :=
  q.clientRangesReceived = true ∧ q.inProgress = true ∧ q.initiationStarted = false

/-- TEE_K can start a range, given with its place. -/
def Startable (c : StreamCalls) (total : Nat) (queued : OprfRange × Nat) : Prop :=
  0 ≤ queued.1.tlsStart ∧ 0 < queued.1.tlsLength ∧ queued.1.tlsLength ≤ 64 ∧
    queued.1.tlsStart + queued.1.tlsLength ≤ total ∧ c.initiate queued.2 = none

/-- Ranges that are due when the keystream is there can all be started. -/
def StartsQueued (c : StreamCalls) (total : Nat) : Prop :=
  ∀ q, c.oprf = some q → q.Due → 0 < total → ∀ queued ∈ q.ranges.zipIdx, Startable c total queued

variable {c : StreamCalls} {isTLS13 : Bool} {operations : List RedactionOperation}
  {keystream : List Byte} {s : StreamSession}

theorem initiateRanges_ok_iff {ranges : List OprfRange} {i : Nat} :
    initiateRanges c keystream i ranges = .ok () ↔
      ∀ queued ∈ ranges.zipIdx i, Startable c keystream.length queued := by
  induction ranges generalizing i with
  | nil => simp [initiateRanges]
  | cons first rest ih =>
    simp only [initiateRanges, eq_ok_iff, rejectSome_eq_ok_iff, ih, Startable]
    simp [and_assoc]

theorem publishKeystream_ok_iff :
    publishKeystream c keystream = .ok () ↔ StartsQueued c keystream.length := by
  unfold publishKeystream StartsQueued
  cases state : c.oprf with
  | none => simp
  | some q =>
    simp only [processQueuedOPRFRanges, OprfQueue.Due, ← initiateRanges_ok_iff, List.length_pos_iff]
    grind [initiateRanges]

theorem redactRecord_ok_iff {record : Nat × Nat} :
    (∃ streams, redactRecord c isTLS13 operations record.1 record.2 = .ok streams) ↔
      Available c isTLS13 record := by
  simp only [redactRecord, eq_ok_iff]
  constructor
  · rintro ⟨_, bytes, found, _, passed, _⟩
    exact ⟨⟨bytes, found⟩, passed⟩
  · rintro ⟨⟨bytes, found⟩, passed⟩
    exact ⟨_, bytes, found, (), passed, rfl⟩

theorem redactRecord_length {seqNum length : Nat} {streams : List Byte × List Byte}
    (made : redactRecord c isTLS13 operations seqNum length = .ok streams) :
    streams.2.length = trimmedLength isTLS13 length := by
  simp only [redactRecord, eq_ok_iff] at made
  obtain ⟨original, found, _, _, rfl⟩ := made
  rw [List.length_take, c.stream_length _ _ _ found, trimmedLength]
  split <;> omega

theorem redactRecords_ends {records : List (Nat × Nat)} (free : s.streamsMutex = false) :
    ∃ after result, redactRecords c isTLS13 operations records s = some (after, result) ∧
      after.streamsMutex = false ∧
      match result with
      | .ok originals => originals.length = totalLength isTLS13 records ∧
          ∀ record ∈ records, Available c isTLS13 record
      | .error _ => ¬ ∀ record ∈ records, Available c isTLS13 record := by
  induction records generalizing s with
  | nil => exact ⟨s, .ok [], rfl, free, rfl, nofun⟩
  | cons record rest ih =>
    rw [List.forall_mem_cons]
    simp only [redactRecords, withStreams, free, Bool.false_eq_true, if_false, id,
      Option.bind_eq_bind, Option.bind_some]
    cases made : redactRecord c isTLS13 operations record.1 record.2 with
    | error text =>
      refine ⟨s, _, rfl, free, fun all => ?_⟩
      obtain ⟨streams, ok⟩ := redactRecord_ok_iff.mpr all.1
      cases made.symm.trans ok
    | ok streams =>
      obtain ⟨after, result, ran, released, ends⟩ := @ih
        { s with
          streamsMutex := false
          redactedStreams := s.redactedStreams ++ [(record.1, streams.1)] } rfl
      refine ⟨after, result.map (streams.2 ++ ·), ?_, released, ?_⟩
      · dsimp only
        rw [ran]
        rfl
      cases result with
      | error text => exact fun all => ends all.2
      | ok originals =>
        refine ⟨?_, redactRecord_ok_iff.mp ⟨streams, made⟩, ends.2⟩
        rw [List.length_append, redactRecord_length made, ends.1]
        rfl

theorem consolidate_ends (free : s.streamsMutex = false) :
    ∃ after result, consolidate c keystream s = some (after, result) ∧
      (after.streamsMutex = false ↔ publishKeystream c keystream = .ok ()) := by
  unfold consolidate
  rw [free]
  cases publishKeystream c keystream with
  | error text => exact ⟨_, _, rfl, nofun, nofun⟩
  | ok value => exact ⟨_, _, rfl, fun _ => rfl, fun _ => rfl⟩

theorem stream_lock_released_iff (c : StreamCalls) (ranges : List RedactionRange)
    (s : StreamSession) :
    ∃ after result,
      generateAndSendRedactedDecryptionStream c ranges { s with streamsMutex := false } =
        some (after, result) ∧
      (after.streamsMutex = false ↔ ∀ isTLS13 records, Reaches c isTLS13 records →
        StartsQueued c (totalLength isTLS13 records)) := by
  unfold generateAndSendRedactedDecryptionStream Reaches
  cases c.session with
  | error text => exact ⟨_, _, rfl, nofun, fun _ => rfl⟩
  | ok found =>
    obtain ⟨isTLS13, records⟩ := found
    simp only [withStreams, Bool.false_eq_true, if_false, Option.bind_eq_bind, Option.bind_some]
    obtain ⟨after, result, ran, released, ends⟩ := @redactRecords_ends c isTLS13
      (redactionOperations c isTLS13 ranges records)
      { s with streamsMutex := false, redactedStreams := [] } records rfl
    rw [ran]
    cases result with
    | error text =>
      refine ⟨after, _, rfl, ?_, fun _ => released⟩
      rintro _ _ _ ⟨⟨⟩, available⟩
      exact absurd available ends
    | ok originals =>
      obtain ⟨final, outcome, consolidated, lock⟩ := consolidate_ends released
      refine ⟨final, outcome, consolidated, lock.trans (publishKeystream_ok_iff.trans ?_)⟩
      rw [ends.1]
      constructor
      · rintro starts _ _ ⟨⟨⟩, _⟩
        exact starts
      · intro all
        exact all isTLS13 records ⟨rfl, ends.2⟩

/-- A response of one record, and a queued range that is too long. -/
def tooLong : StreamCalls where
  session := .ok (true, [(0, 5)])
  random part := List.replicate (part.2.2 - part.2.1).toNat 0
  stream _ length := .ok (List.replicate length 0)
  oprf := some
    { clientRangesReceived := true
      inProgress := true
      ranges := [{ tlsStart := 0, tlsLength := 65 }]
      initiationStarted := false }
  initiate _ := none
  signature := .ok ()
  stream_length := by
    rintro _ length _ ⟨⟩
    exact List.length_replicate

def newSession : StreamSession :=
  { streamsMutex := false
    redactedStreams := []
    consolidatedResponseKeystream := []
    redactionProcessingComplete := false }

theorem invalid_range_keeps_lock :
    let first := generateAndSendRedactedDecryptionStream tooLong [] newSession
    first.map (fun ended => ended.1.streamsMutex) = some true ∧
      first.bind (fun ended => generateAndSendRedactedDecryptionStream tooLong [] ended.1) = none :=
  ⟨rfl, rfl⟩

end ReclaimTee.Response
