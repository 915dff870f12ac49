/-
The job specification the Hub dispatches and the receipt the TEE signs for it.
Version, times, policy hash and attestation are read by the verifier only, which
is a parameter.
-/

import ReclaimTee.Bytes

namespace ReclaimTee.TokenHive

/-- A byte string of the source; its strings are byte strings too. -/
abbrev Text := List Byte

scoped instance : LawfulBEq Text := inferInstance

/-- Numbers of 64 bits without sign stay below this. -/
def uint64Limit : Nat := 2 ^ 64

/-! ### Job specifications -/

structure Spec where
  version : Nat
  jobID : Text
  provider : Text
  method : Text
  host : Text
  path : Text
  query : Text
  headers : List (Text × Text)
  bodyHash : Text
  nonce : Text
  expiresAt : Int
  maxResponseBytes : Nat
  stream : Bool
  session : Bool
  credential : Text
deriving DecidableEq, Repr

/-- SHA-256 and the canonical encoding of a specification, which is that of a
CBOR package. -/
structure Digests where
  sha256 : Text → Text
  sha256_length : ∀ text, (sha256 text).length = 32
  encodeCanonical : Spec → Text

def jobSpecHashDomain : Text := ascii "TokenHive.JobSpec.v1"

def Spec.hash (digests : Digests) (spec : Spec) : Text :=
  digests.sha256 (jobSpecHashDomain ++ digests.encodeCanonical spec)

/-! ### Receipts -/

inductive CompletionState
  | unspecified
  | complete
  | truncated
  | failed
  | undefined (code : Byte)
deriving DecidableEq, Repr

structure Receipt where
  jobID : Text
  jobSpecHash : Text
  provider : Text
  statusCode : Nat
  streamHash : Text
  chunkCount : Nat
  responseBytes : Nat
  completion : CompletionState
  requestBytes : Nat
  providerSeq : Nat
  responseHeadersHash : Text
deriving DecidableEq, Repr

structure SignedReceipt where
  receipt : Receipt
  signature : Text
deriving DecidableEq, Repr

/-- The zero value, which stands where no receipt was obtained. -/
def SignedReceipt.zero : SignedReceipt where
  receipt :=
    { jobID := []
      jobSpecHash := []
      provider := []
      statusCode := 0
      streamHash := []
      chunkCount := 0
      responseBytes := 0
      completion := .unspecified
      requestBytes := 0
      providerSeq := 0
      responseHeadersHash := [] }
  signature := []

/-! ### The digest of a response stream -/

def streamHashLength : Nat := 32

def responseStreamDomain : Text := ascii "TokenHive.Response.v1"

/-- Chunk boundaries are not part of the digest. -/
def hashResponseStream (digests : Digests) (jobID : Text) (chunks : List Text) : Text :=
  digests.sha256 (responseStreamDomain ++ jobID ++ chunks.flatten)

def Receipt.matchesStream (digests : Digests) (receipt : Receipt) (chunks : List Text) : Bool :=
  if receipt.streamHash.length ≠ streamHashLength then
    false
  else
    hashResponseStream digests receipt.jobID chunks = receipt.streamHash

theorem matchesStream_iff {digests : Digests} {receipt : Receipt} {chunks : List Text} :
    receipt.matchesStream digests chunks = true ↔
      receipt.streamHash = hashResponseStream digests receipt.jobID chunks := by
  unfold Receipt.matchesStream
  split
  · next wrong =>
    constructor
    · nofun
    · intro same
      exact absurd (same ▸ digests.sha256_length _) wrong
  · rw [decide_eq_true_iff]
    exact eq_comm

end ReclaimTee.TokenHive
