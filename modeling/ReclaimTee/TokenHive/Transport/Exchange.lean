/-
One exchange with a provider over a relayed connection. The upstream's bytes
reach the TEE through a tunnel stream and TLS records; the framing says where the
body ends. A deadline closes the stream, which looks like an upstream's end.
-/

import ReclaimTee.Transducer
import ReclaimTee.TokenHive.Tee.Service

namespace ReclaimTee.TokenHive.Transport

open Transducer Option List

/-! ### Reading a response -/

/-- Where a reader is in a chunked body. A bare line feed ends a size line here, which
newer versions of net/http refuse. -/
inductive ChunkedAt
  | size (value digits : Nat)
  | extension (value : Nat)
  | data (left : Nat)
  | dataEnd (returned : Bool)
  | trailer (blank : Bool)
  | ended
  | malformed
deriving DecidableEq, Repr

def ChunkedAt.afterSize (value : Nat) : ChunkedAt :=
  if value = 0 then .trailer true else .data value

def ChunkedAt.feed (place : ChunkedAt) (byte : Byte) : ChunkedAt :=
  match place with
  | size value digits =>
    match Json.hexValue byte with
    | some digit => if digits = 16 then malformed else size (16 * value + digit) (digits + 1)
    | none =>
      if digits = 0 then malformed
      else if byte = 0x0a then afterSize value
      else if byte ∈ ascii "; \t\x0d" then extension value
      else malformed
  | extension value => if byte = 0x0a then afterSize value else extension value
  | data left => if left ≤ 1 then dataEnd false else data (left - 1)
  | dataEnd false => if byte = 0x0d then dataEnd true else malformed
  | dataEnd true => if byte = 0x0a then size 0 0 else malformed
  | trailer blank =>
    if byte = 0x0a then if blank then ended else trailer true
    else trailer (blank && byte = 0x0d)
  | ended => ended
  | malformed => malformed

/-- How the end of a body is found. A response without a body is one of size zero. -/
inductive Framing
  | sized (left : Nat)
  | chunked (place : ChunkedAt)
  | untilClose
deriving DecidableEq, Repr

def Framing.feed : Framing → Byte → Framing × Text
  | sized 0, _ => (sized 0, [])
  | sized (left + 1), byte => (sized left, [byte])
  | chunked (.data left), byte => (chunked (ChunkedAt.feed (.data left) byte), [byte])
  | chunked place, byte => (chunked (place.feed byte), [])
  | untilClose, byte => (untilClose, [byte])

def Framing.complete : Framing → Bool
  | sized left => left = 0
  | chunked place => place = .ended
  | untilClose => false

inductive Reading
  | head (text : Text) (blank : Bool)
  | body (framing : Framing)
  | refused
deriving DecidableEq, Repr

/-- What the head of a response says about its body, if it is well formed. -/
abbrev Interpret := Text → Option Framing

variable (interpret : Interpret)

/-- The head ends with its first empty line. -/
def Reading.feed : Reading → Byte → Reading × Text
  | head text blank, byte =>
    if byte = 0x0a then
      if blank then
        match interpret text with
        | none => (refused, [])
        | some framing => (body framing, [])
      else
        (head (text ++ [byte]) true, [])
    else
      (head (text ++ [byte]) (blank && byte = 0x0d), [])
  | body framing, byte => (body (framing.feed byte).1, (framing.feed byte).2)
  | refused, _ => (refused, [])

/-- What the carrier delivers: bytes that end no record, or the end of a record
with what it holds. -/
inductive Piece
  | part
  | record (plain : Text)
deriving DecidableEq, Repr

def Piece.plain : Piece → Text
  | part => []
  | record plain => plain

def readAll (pieces : List Piece) : Reading × Text :=
  feedAll (Reading.feed interpret) (.head [] false) (pieces.flatMap Piece.plain)

def closeDelimited (pieces : List Piece) : Bool :=
  (readAll interpret pieces).1 = .body .untilClose

/-- The body of the response an upstream has written, once it is whole: it ends by
its own framing or with the upstream's close. -/
def response (wrote : List Piece) (closed : Bool) : Option Text :=
  match readAll interpret wrote with
  | (.body framing, body) =>
    if framing.complete ∨ framing = .untilClose ∧ closed then some body else none
  | _ => none

/-! ### The stream and the exchange -/

inductive CutReason
  | streamReset
  | tunnelFailed
deriving DecidableEq, Repr

inductive DoError
  | write
  | refusedChunk
  | malformed
  | unexpectedEOF
  | cut (reason : CutReason)
  | acquire
  | requestTimeout (error : DoError)
deriving DecidableEq, Repr

structure Transfer where
  -- The upstream, and its bytes on the way through the agent and the Hub.
  wrote : List Piece
  closed : Bool
  path : List Piece
  -- The stream at the TEE: what was received and not yet read, and its end.
  queue : List Piece
  eof : Bool
  err : Option CutReason
  -- The exchange.
  requestWritten : Bool
  wroteNothing : Bool
  taken : List Piece
  reading : Reading
  handed : List (Text × Bool)
  outcome : Option (Option DoError)
  retried : Bool
  returned : Option (Option DoError)
deriving DecidableEq, Repr

inductive WriteResult
  | whole
  | partly
  | nothing
deriving DecidableEq, Repr

inductive TransferAction
  | upstreamWrites (piece : Piece)
  | upstreamCloses
  | arrives
  | closeArrives
  /-- The agent or the Hub closes the stream though the upstream has not. -/
  | pathCloses
  /-- The TEE shuts the tunnel the stream runs in. -/
  | relayCloses
  /-- A deadline passes, or the caller or the budget watcher cancels. -/
  | expires
  | fails (reason : CutReason)
  | writes (result : WriteResult)
  /-- The exchange reads on; the caller takes what it is given or not. -/
  | reads (accepted : Bool)
  | returns (expired dialed : Bool)
deriving DecidableEq, Repr

namespace Transfer

def start (retried : Bool) : Transfer where
  wrote := []
  closed := false
  path := []
  queue := []
  eof := false
  err := none
  requestWritten := false
  wroteNothing := false
  taken := []
  reading := .head [] false
  handed := []
  outcome := none
  retried := retried
  returned := none

variable (transfer : Transfer)

def body : Text :=
  transfer.handed.flatMap Prod.fst

/-- The first reason stands. -/
def finish (reason : Option CutReason) : Transfer :=
  { transfer with eof := true, err := transfer.err.or reason }

def afterRead : Reading → Option (Option DoError)
  | .head _ _ => none
  | .refused => some (some .malformed)
  | .body framing =>
    if framing.complete then some none
    else if framing = .chunked .malformed then some (some .malformed)
    else none

def take (piece : Piece) (rest : List Piece) (accepted : Bool) : Transfer :=
  let fed := feedAll (Reading.feed interpret) transfer.reading piece.plain
  { transfer with
    queue := rest
    taken := transfer.taken ++ [piece]
    reading := fed.1
    handed := if fed.2 = [] then transfer.handed else transfer.handed ++ [(fed.2, accepted)]
    outcome :=
      if fed.2 ≠ [] ∧ accepted = false then some (some .refusedChunk) else afterRead fed.1 }

/-- At the end of the stream only a body that lasts until the close is over. A
record that was begun has to end first. -/
def atEnd : Option DoError :=
  match transfer.err with
  | some reason => some (.cut reason)
  | none =>
    if transfer.taken.getLast? = some .part then some .unexpectedEOF
    else if transfer.reading = .body .untilClose then none
    else some .unexpectedEOF

/-- An error is marked when the exchange's own deadline has passed. -/
def timedOut (expired : Bool) : Option DoError → Option DoError
  | none => none
  | some error => if expired then some (.requestTimeout error) else some error

def step : TransferAction → Option Transfer
  | .upstreamWrites piece =>
    if transfer.closed then none
    else
      some { transfer with wrote := transfer.wrote ++ [piece], path := transfer.path ++ [piece] }
  | .upstreamCloses => if transfer.closed then none else some { transfer with closed := true }
  | .arrives =>
    match transfer.path with
    | [] => none
    | piece :: rest =>
      if transfer.eof then some { transfer with path := rest }
      else some { transfer with path := rest, queue := transfer.queue ++ [piece] }
  | .closeArrives =>
    if transfer.closed ∧ transfer.path = [] then some (transfer.finish none) else none
  | .pathCloses | .relayCloses | .expires => some (transfer.finish none)
  | .fails reason => some (transfer.finish (some reason))
  | .writes result =>
    if transfer.requestWritten ∨ transfer.outcome ≠ none then none
    else if result = .whole then
      if transfer.eof then none else some { transfer with requestWritten := true }
    else
      some { transfer with wroteNothing := result = .nothing, outcome := some (some .write) }
  | .reads accepted =>
    if transfer.requestWritten ∧ transfer.outcome = none then
      match transfer.queue with
      | piece :: rest => some (transfer.take interpret piece rest accepted)
      | [] => if transfer.eof then some { transfer with outcome := some transfer.atEnd } else none
    else
      none
  | .returns expired dialed =>
    match transfer.outcome, transfer.returned with
    | some result, none =>
      -- Nothing reached the provider: the connection is dialed once more.
      if result ≠ none ∧ transfer.wroteNothing ∧ transfer.retried = false then
        if dialed then some (start true)
        else some { transfer with returned := some (timedOut expired (some .acquire)) }
      else
        some { transfer with returned := some (timedOut expired result) }
    | _, _ => none

/-- The exchange as the service sees it. -/
def exchange (starts : List Tee.Response) (status : Nat) : Tee.Exchange where
  starts := starts
  chunks := transfer.handed
  status := status
  failed := transfer.returned ≠ some none

/-- A close that is not the upstream's does not meet a body that lasts until the
close. -/
def framed : TransferAction → Bool
  | .pathCloses | .relayCloses | .expires =>
    transfer.eof || !closeDelimited interpret (transfer.taken ++ transfer.queue)
  | _ => true

end Transfer

def machine : Machine Transfer TransferAction where
  start := Transfer.start false
  step := Transfer.step interpret

/-! ### What has been read -/

variable {interpret : Interpret} {pieces more : List Piece} {wrote : List Piece} {body : Text}
  {framing : Framing} {closed : Bool}

theorem readAll_append (front back : List Piece) :
    readAll interpret (front ++ back) =
      let read := readAll interpret front
      let rest := feedAll (Reading.feed interpret) read.1 (back.flatMap Piece.plain)
      (rest.1, read.2 ++ rest.2) := by
  unfold readAll
  rw [flatMap_append, feedAll_append]

theorem complete_stuck (complete : framing.complete = true) (byte : Byte) :
    Reading.feed interpret (.body framing) byte = (.body framing, []) := by
  cases framing with
  | sized | chunked =>
    cases of_decide_eq_true complete
    rfl
  | untilClose => cases complete

/-- Nothing that is written after a complete body belongs to the response. -/
theorem response_of_complete (complete : framing.complete = true)
    (read : readAll interpret pieces = (.body framing, body)) :
    response interpret (pieces ++ more) closed = some body := by
  have whole : readAll interpret (pieces ++ more) = (.body framing, body) := by
    rw [readAll_append, read]
    dsimp only
    rw [feedAll_of_stuck _ (complete_stuck complete), append_nil]
  unfold response
  rw [whole]
  exact if_pos (.inl complete)

theorem response_stays (whole : response interpret wrote false = some body) :
    response interpret (wrote ++ more) closed = some body := by
  unfold response at whole
  split at whole
  · next framing read written =>
    split at whole <;> cases whole
    rename_i ends
    have complete := ends.resolve_right fun close => Bool.false_ne_true close.2
    exact response_of_complete complete written
  · cases whole

/-! ### Invariant -/

namespace Transfer

variable {transfer later : Transfer}

structure Sound (interpret : Interpret) (transfer : Transfer) : Prop where
  read : readAll interpret transfer.taken = (transfer.reading, transfer.body)
  sent : ∃ lost, transfer.wrote = transfer.taken ++ (transfer.queue ++ lost) ∧
    (transfer.eof = false → lost = transfer.path)
  ended : transfer.eof = true → transfer.err = none →
    transfer.closed = true ∧ transfer.wrote = transfer.taken ++ transfer.queue ∨
      closeDelimited interpret (transfer.taken ++ transfer.queue) = false
  whole : transfer.outcome = some none →
    response interpret transfer.wrote transfer.closed = some transfer.body
  settled : transfer.returned = some none → transfer.outcome = some none

theorem Sound.start (retried : Bool) : Sound interpret (start retried) where
  read := rfl
  sent := ⟨[], rfl, fun _ => rfl⟩
  ended ends := by cases ends
  whole done := by cases done
  settled done := by cases done

theorem Sound.unreturned (sound : Sound interpret transfer) (unfinished : transfer.outcome = none) :
    transfer.returned ≠ some none := by
  intro said
  have finished := sound.settled said
  rw [unfinished] at finished
  cases finished

/-- A stream ends cleanly only for what its upstream has written, or for a body
that does not rely on it. -/
theorem Sound.finish {reason : Option CutReason} (sound : Sound interpret transfer)
    (clean : transfer.eof = false → reason = none →
      transfer.closed = true ∧ transfer.path = [] ∨
        closeDelimited interpret (transfer.taken ++ transfer.queue) = false) :
    Sound interpret (transfer.finish reason) where
  read := sound.read
  sent := by
    obtain ⟨lost, written, _⟩ := sound.sent
    exact ⟨lost, written, nofun⟩
  ended _ unbroken := by
    obtain ⟨before, plain⟩ := or_eq_none_iff.mp unbroken
    cases eof : transfer.eof with
    | true => exact sound.ended eof before
    | false =>
      obtain ⟨lost, written, onPath⟩ := sound.sent
      refine (clean eof plain).imp_left fun closes => ⟨closes.1, ?_⟩
      rw [onPath eof, closes.2, append_nil] at written
      exact written
  whole := sound.whole
  settled := sound.settled

theorem framed_iff :
    (transfer.eof || !closeDelimited interpret (transfer.taken ++ transfer.queue)) = true ↔
      (transfer.eof = false →
        closeDelimited interpret (transfer.taken ++ transfer.queue) = false) := by
  cases transfer.eof <;> simp

theorem Sound.take {piece : Piece} {rest : List Piece} {accepted : Bool}
    (sound : Sound interpret transfer) (waiting : transfer.queue = piece :: rest)
    (unfinished : transfer.outcome = none) :
    Sound interpret (transfer.take interpret piece rest accepted) := by
  have read : readAll interpret (transfer.taken ++ [piece]) =
      ((transfer.take interpret piece rest accepted).reading,
        (transfer.take interpret piece rest accepted).body) := by
    rw [readAll_append, sound.read]
    unfold Transfer.take body
    dsimp only
    rw [flatMap_singleton]
    split
    · next none => rw [none, append_nil]
    · rw [flatMap_append, flatMap_singleton]
  have moved : transfer.taken ++ [piece] ++ rest = transfer.taken ++ transfer.queue := by
    rw [waiting, append_assoc]
    rfl
  have sent : ∃ lost, transfer.wrote = transfer.taken ++ [piece] ++ (rest ++ lost) ∧
      (transfer.eof = false → lost = transfer.path) := by
    obtain ⟨lost, written, onPath⟩ := sound.sent
    refine ⟨lost, ?_, onPath⟩
    rw [← append_assoc, moved, written, append_assoc]
  refine ⟨read, sent, ?_, fun finished => ?_, fun said => absurd said (sound.unreturned unfinished)⟩
  · change transfer.eof = true → transfer.err = none →
      transfer.closed = true ∧ transfer.wrote = transfer.taken ++ [piece] ++ rest ∨
        closeDelimited interpret (transfer.taken ++ [piece] ++ rest) = false
    rw [moved]
    exact sound.ended
  · change (if _ then _ else afterRead _) = _ at finished
    split at finished
    · cases finished
    unfold afterRead at finished
    split at finished
    · cases finished
    · cases finished
    next framing feeds =>
    split at finished
    · next complete =>
      obtain ⟨lost, written, _⟩ := sent
      change response interpret transfer.wrote transfer.closed = _
      rw [written]
      refine response_of_complete complete (read.trans ?_)
      rw [← feeds]
      rfl
    · split at finished
      · cases finished
      · cases finished

/-- The end of the stream is taken for the end of the body only where it is one. -/
theorem Sound.atEnd (sound : Sound interpret transfer) (empty : transfer.queue = [])
    (eof : transfer.eof = true) (ends : transfer.atEnd = none) :
    response interpret transfer.wrote transfer.closed = some transfer.body := by
  unfold Transfer.atEnd at ends
  split at ends
  · cases ends
  next unbroken =>
  split at ends
  · cases ends
  split at ends
  · next reading =>
    have known := sound.ended eof unbroken
    rw [empty, append_nil] at known
    have read := sound.read
    rw [reading] at read
    rcases known with ⟨closes, written⟩ | framed
    · unfold response
      rw [written, read, closes]
      exact if_pos (.inr ⟨rfl, rfl⟩)
    · unfold closeDelimited at framed
      rw [read] at framed
      cases framed
  · cases ends

theorem Sound.returns {expired dialed : Bool} (sound : Sound interpret transfer)
    (taken : transfer.step interpret (.returns expired dialed) = some later) :
    Sound interpret later := by
  have marked : ∀ {result : Option DoError}, timedOut expired result = none → result = none := by
    intro result unmarked
    cases result with
    | none => rfl
    | some error =>
      cases expired with
      | false | true => cases unmarked
  simp only [step] at taken
  split at taken
  · next result finished unreturned =>
    split at taken
    · split at taken
      · cases taken
        exact Sound.start true
      · cases taken
        refine { sound with settled := fun said => ?_ }
        cases marked (Option.some.inj said)
    · cases taken
      refine { sound with settled := fun said => ?_ }
      rw [finished, marked (Option.some.inj said)]
  · cases taken

theorem Sound.step {action : TransferAction} (sound : Sound interpret transfer)
    (framed : transfer.framed interpret action = true)
    (taken : transfer.step interpret action = some later) : Sound interpret later := by
  cases action with
  | upstreamWrites piece =>
    simp only [Transfer.step, ite_none_left_eq_some, Option.some.injEq] at taken
    obtain ⟨goes, rfl⟩ := taken
    have unclosed := Bool.eq_false_iff.mpr goes
    refine ⟨sound.read, ?_, fun eof unbroken => ?_, fun done => ?_, sound.settled⟩
    · obtain ⟨lost, written, onPath⟩ := sound.sent
      refine ⟨lost ++ [piece], ?_, fun unended => ?_⟩
      · dsimp only
        rw [written, append_assoc, append_assoc]
      · rw [onPath unended]
    · right
      refine (sound.ended eof unbroken).resolve_left fun closes => ?_
      exact goes closes.1
    · have whole := sound.whole done
      rw [unclosed] at whole
      exact response_stays whole
  | upstreamCloses =>
    simp only [Transfer.step, ite_none_left_eq_some, Option.some.injEq] at taken
    obtain ⟨goes, rfl⟩ := taken
    refine ⟨sound.read, sound.sent, fun eof unbroken => ?_, fun done => ?_, sound.settled⟩
    · exact (sound.ended eof unbroken).imp_left fun closes => ⟨rfl, closes.2⟩
    · have whole := sound.whole done
      rw [Bool.eq_false_iff.mpr goes] at whole
      rw [← append_nil transfer.wrote]
      exact response_stays whole
  | arrives =>
    simp only [Transfer.step] at taken
    split at taken
    · cases taken
    next piece rest onWay =>
    obtain ⟨lost, written, onPath⟩ := sound.sent
    split at taken
    · next eof =>
      cases taken
      refine { sound with sent := ⟨lost, written, fun goes => ?_⟩ }
      exact absurd eof (Bool.eq_false_iff.mp goes)
    · next goes =>
      cases taken
      have unended := Bool.eq_false_iff.mpr goes
      refine ⟨sound.read, ⟨rest, ?_, fun _ => rfl⟩, fun eof => absurd eof goes, sound.whole,
        sound.settled⟩
      rw [written, onPath unended, onWay, append_assoc]
      rfl
  | closeArrives =>
    simp only [Transfer.step, ite_none_right_eq_some, Option.some.injEq] at taken
    obtain ⟨closes, rfl⟩ := taken
    exact sound.finish fun _ _ => .inl closes
  | pathCloses | relayCloses | expires =>
    cases taken
    exact sound.finish fun goes _ => .inr (framed_iff.mp framed goes)
  | fails reason =>
    cases taken
    exact sound.finish nofun
  | writes result =>
    simp only [Transfer.step, ite_none_left_eq_some] at taken
    obtain ⟨fresh, taken⟩ := taken
    split at taken
    · split at taken <;> cases taken
      exact { sound with }
    · cases taken
      refine { sound with whole := fun none => ?_, settled := fun said => ?_ }
      · cases none
      · exact absurd said (sound.unreturned (not_not.mp (not_or.mp fresh).2))
  | reads accepted =>
    simp only [Transfer.step, ite_none_right_eq_some] at taken
    obtain ⟨⟨_, unfinished⟩, taken⟩ := taken
    split at taken
    · next piece rest waiting =>
      cases taken
      exact sound.take waiting unfinished
    · next empty =>
      simp only [ite_none_right_eq_some, Option.some.injEq] at taken
      obtain ⟨eof, rfl⟩ := taken
      refine { sound with whole := fun ends => ?_, settled := fun said => ?_ }
      · exact sound.atEnd empty eof (Option.some.inj ends)
      · exact absurd said (sound.unreturned unfinished)
  | returns expired dialed => exact sound.returns taken

/-- In every run in which only the upstream's close meets a body that lasts until
the close, an exchange that returns without error has handed on the whole body, and
the service attests to a complete exchange only then. -/
theorem successful_exchange_whole {actions : List TransferAction} {transfer : Transfer}
    (ran : (machine interpret).runWhere (framed interpret) (machine interpret).start actions =
      some transfer) :
    (transfer.returned = some none →
        response interpret transfer.wrote transfer.closed = some transfer.body) ∧
      ∀ starts status maxResponseBytes,
        (transfer.exchange starts status).completion maxResponseBytes = .complete →
          response interpret transfer.wrote transfer.closed = some transfer.body := by
  have sound : Sound interpret transfer :=
    (Machine.Reach.start.runWhere ran).invariant (Sound.start false)
      fun _ _ _ sound framed taken => sound.step framed taken
  have whole := fun said => sound.whole (sound.settled said)
  refine ⟨whole, fun starts status maxResponseBytes attested => whole ?_⟩
  unfold Tee.Exchange.completion at attested
  split at attested
  · cases attested
  · split at attested
    · cases attested
    · next fine => exact not_not.mp (of_decide_eq_false (Bool.eq_false_iff.mpr (not_or.mp fine).1))

/-- Every head announces a body that lasts until the close. -/
def unframed : Interpret :=
  fun _ => some .untilClose

/-- What a run has brought: the result, the service's verdict, the bytes handed on
and the upstream's response. -/
def shows (transfer : Transfer) :
    Option (Option DoError) × CompletionState × Text × Option Text :=
  (transfer.returned, (transfer.exchange [] 200).completion 100, transfer.body,
    response unframed transfer.wrote transfer.closed)

def closedRun : List TransferAction :=
  [.writes .whole, .upstreamWrites (.record (ascii "200\n\na")), .arrives, .reads true,
    .upstreamWrites (.record (ascii "b")), .upstreamCloses, .arrives, .closeArrives, .expires,
    .reads true, .reads true, .returns true false]

theorem successful_exchange_whole_sample :
    ∃ transfer : Transfer, transfer.returned = some none ∧ transfer.body = ascii "ab" ∧
      response unframed transfer.wrote transfer.closed = some transfer.body := by
  have whole : ((machine unframed).runWhere (framed unframed) (machine unframed).start closedRun).map
      shows = some (some none, .complete, ascii "ab", some (ascii "ab")) := by
    decide +kernel
  obtain ⟨transfer, ran, shown⟩ := map_eq_some_iff.mp whole
  simp only [shows, Prod.mk.injEq] at shown
  obtain ⟨returned, _, body, _⟩ := shown
  exact ⟨transfer, returned, body, (successful_exchange_whole ran).1 returned⟩

/-- The deadline passes while the upstream is still sending. -/
def expiredRun : List TransferAction :=
  [.writes .whole, .upstreamWrites (.record (ascii "200\n\na")), .arrives, .reads true, .expires,
    .upstreamWrites (.record (ascii "b")), .reads true, .returns true false]

theorem expired_exchange_complete :
    ∃ transfer, (machine unframed).run (machine unframed).start expiredRun = some transfer ∧
      transfer.returned = some none ∧
      (transfer.exchange [] 200).completion 100 = .complete ∧ transfer.body = ascii "a" ∧
      response unframed transfer.wrote transfer.closed = none := by
  have cut : ((machine unframed).run (machine unframed).start expiredRun).map shows =
      some (some none, .complete, ascii "a", none) := by
    decide +kernel
  obtain ⟨transfer, ran, shown⟩ := map_eq_some_iff.mp cut
  simp only [shows, Prod.mk.injEq] at shown
  exact ⟨transfer, ran, shown⟩

end Transfer

end ReclaimTee.TokenHive.Transport
