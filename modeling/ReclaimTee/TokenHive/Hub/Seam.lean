/-
How the Hub reads the event stream a TEE answers with. Chunks and response starts
are handed to the caller, and the last receipt and error frames decide the
verdict. How a frame's contents are decoded is a parameter here.
-/

import ReclaimTee.TokenHive.Receipt

namespace ReclaimTee.TokenHive.Hub

structure SSEEvent where
  type : Text
  data : Text
  hasData : Bool
deriving DecidableEq, Repr

abbrev Headers := List (Text × List Text)

structure ResponseStart where
  status : Nat
  headers : Headers
deriving DecidableEq, Repr

def ResponseStart.unseen : ResponseStart where
  status := 0
  headers := []

/-! ### Failures as the TEE describes them -/

structure Failure where
  failureClass : Text
  stage : Text
  cold : Bool
deriving DecidableEq, Repr

def failureOther : Text := ascii "other"

def knownFailureClasses : List Text :=
  [ascii "request_timeout", ascii "caller_gone", ascii "response_too_large", ascii "dial_failed",
    ascii "tls_handshake_failed", ascii "upstream_closed", ascii "read_timeout", failureOther]

/-- A frame without a class names nothing; a class that is not known is folded. -/
def Failure.admitted (failure : Failure) : Option Failure :=
  if failure.failureClass = [] then
    none
  else if failure.failureClass ∈ knownFailureClasses then
    some failure
  else
    some { failure with failureClass := failureOther }

/-! ### Reading the stream -/

/-- What decodes the contents of frames, and the digest of a header set. -/
structure Seam where
  digests : Digests
  hashResponseHeaders : Headers → Text
  hashResponseHeaders_length : ∀ headers, (hashResponseHeaders headers).length = 32
  unmarshalStart : Text → Option ResponseStart
  unmarshalFailure : Text → Option Failure
  decodeReceiptFrame : Text → Option SignedReceipt

structure Callbacks where
  onChunk : Bool
  onStart : Bool
deriving DecidableEq, Repr

inductive Callback
  | start (start : ResponseStart)
  | chunk (data : Text)
deriving DecidableEq, Repr

structure Result where
  chunks : List Text
  status : Nat
  headers : Headers
  failure : Option Failure
  receipt : SignedReceipt
deriving DecidableEq, Repr

def Result.empty : Result where
  chunks := []
  status := 0
  headers := []
  failure := none
  receipt := .zero

inductive SeamError
  | unreachable (reason : Text)
  | startFrame
  | teeRefused (message : Text)
  | noReceipt
  | receiptFrame
deriving DecidableEq, Repr

/-- The reader between two frames, and what it has handed to the caller. -/
structure Reading where
  result : Result
  receipt : Text
  teeErr : Text
  startErr : Bool
  handed : List Callback

def Reading.begin : Reading where
  result := .empty
  receipt := []
  teeErr := []
  startErr := false
  handed := []

namespace Seam

variable (seam : Seam) (callbacks : Callbacks)

def readChunk (reading : Reading) (data : Text) : Reading :=
  { reading with
    result := { reading.result with chunks := reading.result.chunks ++ [data] }
    handed := if callbacks.onChunk then reading.handed ++ [.chunk data] else reading.handed }

def readStart (reading : Reading) (data : Text) : Reading :=
  match seam.unmarshalStart data with
  | none => { reading with startErr := true }
  | some start =>
    { reading with
      result := { reading.result with status := start.status, headers := start.headers }
      handed := if callbacks.onStart then reading.handed ++ [.start start] else reading.handed }

def readFailure (reading : Reading) (data : Text) : Reading :=
  match (seam.unmarshalFailure data).bind Failure.admitted with
  | none => reading
  | some failure => { reading with result := { reading.result with failure := some failure } }

def readFrame (reading : Reading) (frame : SSEEvent) : Reading :=
  if frame.type = [] ∨ frame.type = ascii "message" then
    if frame.hasData then readChunk callbacks reading frame.data else reading
  else if frame.type = ascii "start" then
    seam.readStart callbacks reading frame.data
  else if frame.type = ascii "failure" then
    seam.readFailure reading frame.data
  else if frame.type = ascii "receipt" then
    { reading with receipt := frame.data }
  else if frame.type = ascii "error" then
    { reading with teeErr := frame.data }
  else
    reading

def readFrames (frames : List SSEEvent) : Reading :=
  frames.foldl (seam.readFrame callbacks) Reading.begin

def verdict (reading : Reading) : Result × Option SeamError :=
  if reading.startErr then
    (reading.result, some .startFrame)
  else if reading.teeErr ≠ [] then
    (reading.result, some (.teeRefused reading.teeErr))
  else if reading.receipt = [] then
    (reading.result, some .noReceipt)
  else
    match seam.decodeReceiptFrame reading.receipt with
    | none => (reading.result, some .receiptFrame)
    | some signed => ({ reading.result with receipt := signed }, none)

def readSSE (frames : List SSEEvent) : Result × Option SeamError :=
  seam.verdict (seam.readFrames callbacks frames)

/-- Whether a receipt attests the response start the Hub acted on. -/
def receiptMatchesStart (receipt : Receipt) (status : Nat) (headers : Headers) : Bool :=
  if receipt.responseHeadersHash = [] then
    status = 0
  else if receipt.statusCode ≠ status then
    false
  else
    seam.hashResponseHeaders headers = receipt.responseHeadersHash

variable {seam}

theorem hashResponseHeaders_ne_nil (headers : Headers) : seam.hashResponseHeaders headers ≠ [] := by
  intro empty
  have length := seam.hashResponseHeaders_length headers
  rw [empty] at length
  cases length

end Seam

/-! ### What has been read -/

/-- The response starts of a stream that decode, in order. -/
def Seam.starts (seam : Seam) (frames : List SSEEvent) : List ResponseStart :=
  (frames.filter fun frame => frame.type = ascii "start").filterMap fun frame =>
    seam.unmarshalStart frame.data

def handedChunks (handed : List Callback) : List Text :=
  handed.filterMap fun
    | .chunk data => some data
    | .start _ => none

def handedStarts (handed : List Callback) : List ResponseStart :=
  handed.filterMap fun
    | .chunk _ => none
    | .start start => some start

end ReclaimTee.TokenHive.Hub
