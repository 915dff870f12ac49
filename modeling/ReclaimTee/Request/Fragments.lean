/-
The redacted request on its way to TEE_K and out of it. The client masks its
ranges with one stream each; TEE_K cuts the redacted request into records and
gives each the part of every range that falls into it.
-/

import ReclaimTee.Tls.Record

namespace ReclaimTee.Request

open ReclaimTee.Mpc ReclaimTee.Tls

inductive RedactionType where
  | sensitive
  | sensitiveProof
  | other (text : String)
deriving DecidableEq, Repr

namespace RedactionType

def text : RedactionType → String
  | sensitive => "sensitive"
  | sensitiveProof => "sensitive_proof"
  | other text => text

def Known (type : RedactionType) : Prop :=
  type = sensitive ∨ type = sensitiveProof

instance (type : RedactionType) : Decidable type.Known :=
  inferInstanceAs (Decidable (_ ∨ _))

end RedactionType

structure RequestRedactionRange where
  start : Int
  length : Int
  type : RedactionType
deriving DecidableEq, Repr

namespace RequestRedactionRange

def finish (range : RequestRedactionRange) : Int :=
  range.start + range.length

def InBounds (requestLen : Nat) (range : RequestRedactionRange) : Prop :=
  0 ≤ range.start ∧ 0 < range.length ∧ range.finish ≤ requestLen

def Disjoint (first second : RequestRedactionRange) : Prop :=
  first.finish ≤ second.start ∨ second.finish ≤ first.start

instance (requestLen : Nat) (range : RequestRedactionRange) :
    Decidable (range.InBounds requestLen) :=
  inferInstanceAs (Decidable (_ ∧ _))

instance (first second : RequestRedactionRange) : Decidable (first.Disjoint second) :=
  inferInstanceAs (Decidable (_ ∨ _))

def Covers (range : RequestRedactionRange) (position : Nat) : Prop :=
  range.start ≤ position ∧ (position : Int) < range.finish

instance (range : RequestRedactionRange) (position : Nat) : Decidable (range.Covers position) :=
  inferInstanceAs (Decidable (_ ∧ _))

end RequestRedactionRange

/-! ### The client -/

/-- The masks that a list of streams puts over its ranges. -/
def rangeMasks (ranges : List RequestRedactionRange) (streams : List (List Byte)) :
    List (Mask 8) :=
  List.zipWith
    (fun range stream =>
      { start := range.start.toNat, words := stream.take range.length.toNat })
    ranges streams

def applyRedaction (request : List Byte) (ranges : List RequestRedactionRange)
    (streams : List (List Byte)) : List Byte :=
  Mask.applyAll request (rangeMasks ranges streams)

/-! ### Records -/

def maxRedactionRanges : Nat := 1000

def maxTLSPlaintextSize : Nat := 16384

/-- TLS 1.3 keeps one byte of each record for the content type. -/
def maxFragmentPayload (suite : CipherSuite) : Nat :=
  if suite.isTLS13 then maxTLSPlaintextSize - 1 else maxTLSPlaintextSize

def Overlaps (start length : Nat) (range : RequestRedactionRange) : Prop :=
  range.start < start + length ∧ (start : Int) < range.finish

instance (start length : Nat) (range : RequestRedactionRange) :
    Decidable (Overlaps start length range) :=
  inferInstanceAs (Decidable (_ ∧ _))

/-- The part of a range inside a fragment, relative to it. -/
def adjustRange (start length : Nat) (range : RequestRedactionRange) : RequestRedactionRange :=
  let adjusted :=
    if range.start < start then
      { range with start := 0, length := range.length - (start - range.start) }
    else
      { range with start := range.start - start }
  if (length : Int) < adjusted.finish then
    { adjusted with length := length - adjusted.start }
  else
    adjusted

def adjustedRanges (ranges : List RequestRedactionRange) (start length : Nat) :
    List RequestRedactionRange :=
  (ranges.filter (Overlaps start length)).map (adjustRange start length)

structure EncryptedRequest where
  encryptedData : List Byte
  tagSecrets : List Byte
  redactionRanges : List RequestRedactionRange
  seqNum : Nat

structure BatchedEncryptedRequest where
  fragments : List EncryptedRequest
  baseSeqNum : Nat
  cipherSuite : CipherSuite

variable (c : RecordCiphers) (keys : RecordKeys)

def encryptFragment (sequence : Nat) (redacted : List Byte)
    (ranges : List RequestRedactionRange) (fragmentIndex : Nat) :
    Except String EncryptedRequest := do
  let payload := maxFragmentPayload keys.suite
  let fragmentPlaintext := chunk redacted payload fragmentIndex
  let currentSeqNum := (sequence + fragmentIndex) % 2 ^ 64
  let (encryptedData, tagSecrets) ← keys.encryptWithoutTag c currentSeqNum
    (prepareDataForEncryption fragmentPlaintext keys.suite)
  return { encryptedData := encryptedData
           tagSecrets := tagSecrets
           redactionRanges :=
             adjustedRanges ranges (fragmentIndex * payload) fragmentPlaintext.length
           seqNum := currentSeqNum }

def encryptAndSendRequest (sequence : Nat) (redacted : List Byte)
    (ranges : List RequestRedactionRange) : Except String BatchedEncryptedRequest := do
  let fragmentCount := chunkCount redacted.length (maxFragmentPayload keys.suite)
  let fragments ← (List.range fragmentCount).mapM
    (encryptFragment c keys sequence redacted ranges)
  return { fragments := fragments, baseSeqNum := sequence, cipherSuite := keys.suite }

end ReclaimTee.Request
