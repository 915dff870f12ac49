/-
The whole way of a request: masked by the client, cut and encrypted by TEE_K,
reconstructed by TEE_T. For every accepted request it ends with one record for
each fragment.
-/

import ReclaimTee.Request.Checks
import ReclaimTee.Request.Reconstruct

namespace ReclaimTee.Request

open ReclaimTee.Mpc ReclaimTee.Tls List

/-- What a client submits: to TEE_K the masked request, to TEE_T the streams. -/
structure Submission where
  connection : RequestConnectionData
  request : List Byte
  ranges : List RequestRedactionRange
  streams : List (List Byte)

namespace Submission

def redacted (s : Submission) : List Byte :=
  applyRedaction s.request s.ranges s.streams

structure WellFormed (s : Submission) : Prop where
  accepted : Accepted s.ranges s.request.length
  format : validateHTTPRequestFormat s.request s.ranges (some s.connection) = .ok ()
  streamLengths : s.streams.map List.length = s.ranges.map fun range => range.length.toNat

/-- The submission with its two parts in either order. -/
def deliver (c : RecordCiphers) (keys : RecordKeys) (sequence : Nat) (s : Submission)
    (streamsFirst : Bool) : Except String (RequestState × Option BatchedEncryptedData) := do
  handleRedactedRequest (some s.connection) s.redacted s.ranges
  let batch ← encryptAndSendRequest c keys sequence s.redacted s.ranges
  if streamsFirst then
    let (state, _) ← handleRedactionStreams c RequestState.start s.streams
    handleBatchedEncryptedRequest c state batch
  else
    let (state, _) ← handleBatchedEncryptedRequest c RequestState.start batch
    handleRedactionStreams c state s.streams

@[simp] theorem redacted_length (s : Submission) : s.redacted.length = s.request.length :=
  Mask.applyAll_length _ _

theorem WellFormed.streams_length {s : Submission} (formed : s.WellFormed) :
    s.streams.length = s.ranges.length := by
  have lengths := congrArg List.length formed.streamLengths
  rwa [length_map, length_map] at lengths

theorem WellFormed.nonempty {s : Submission} (formed : s.WellFormed) : s.request ≠ [] := by
  intro empty
  have format := formed.format
  rw [empty] at format
  cases format

end Submission

/-! ### Masks and stars -/

section Masks

variable {ranges : List RequestRedactionRange} {position : Nat} {range : RequestRedactionRange}

theorem covers_of_rangeMasks {streams : List (List Byte)}
    {index : Nat} {mask : Mask 8} (nonnegative : ∀ range ∈ ranges, 0 ≤ range.start)
    (found : (rangeMasks ranges streams)[index]? = some mask) (covers : mask.Covers position) :
    ∃ range, ranges[index]? = some range ∧ range.Covers position := by
  obtain ⟨range, stream, located, _, same⟩ := getElem?_zipWith_eq_some.mp found
  refine ⟨range, located, ?_⟩
  have known := nonnegative range (mem_of_getElem? located)
  obtain ⟨after, before⟩ := covers
  rw [← same] at after before
  have taken : (stream.take range.length.toNat).length ≤ range.length.toNat :=
    length_take_le _ _
  dsimp only at after before
  unfold RequestRedactionRange.Covers RequestRedactionRange.finish
  omega

theorem total_rangeMasks_of_uncovered (streams : List (List Byte))
    (nonnegative : ∀ range ∈ ranges, 0 ≤ range.start)
    (uncovered : ∀ range ∈ ranges, ¬ range.Covers position) :
    Mask.total (rangeMasks ranges streams) position = 0 := by
  apply Mask.total_eq_zero
  intro mask member covers
  obtain ⟨index, found⟩ := mem_iff_getElem?.mp member
  obtain ⟨range, located, inside⟩ := covers_of_rangeMasks nonnegative found covers
  exact uncovered range (mem_of_getElem? located) inside

theorem eq_of_covers (disjoint : ranges.Pairwise RequestRedactionRange.Disjoint)
    {first second : Nat} {other : RequestRedactionRange} (found : ranges[first]? = some range)
    (foundOther : ranges[second]? = some other) (covers : range.Covers position)
    (coversOther : other.Covers position) : first = second := by
  obtain ⟨inside, same⟩ := List.getElem?_eq_some_iff.mp found
  obtain ⟨insideOther, sameOther⟩ := List.getElem?_eq_some_iff.mp foundOther
  rw [← same] at covers
  rw [← sameOther] at coversOther
  unfold RequestRedactionRange.Covers at covers coversOther
  rcases Nat.lt_trichotomy first second with before | equal | after
  · have apart := pairwise_iff_getElem.mp disjoint _ _ inside insideOther before
    unfold RequestRedactionRange.Disjoint at apart
    omega
  · exact equal
  · have apart := pairwise_iff_getElem.mp disjoint _ _ insideOther inside after
    unfold RequestRedactionRange.Disjoint at apart
    omega

/-- The masks lie under the stars. -/
theorem prettyRequest_applyRedaction {request : List Byte} (streams : List (List Byte))
    (inBounds : ∀ range ∈ ranges, range.InBounds request.length) :
    prettyRequest (applyRedaction request ranges streams) ranges =
      prettyRequest request ranges := by
  have sameLength : (applyRedaction request ranges streams).length = request.length :=
    Mask.applyAll_length _ _
  apply ext_getElem?
  intro position
  rw [prettyRequest_getElem? (sameLength ▸ inBounds), prettyRequest_getElem? inBounds,
    applyRedaction, Mask.applyAll_getElem?, Option.map_map]
  congr 1
  funext byte
  by_cases covered : ∃ range ∈ ranges, range.Covers position
  · simp only [Function.comp_apply, covered, if_true]
  · have free := total_rangeMasks_of_uncovered streams (fun range member => (inBounds range member).1)
      fun range member covers => covered ⟨range, member, covers⟩
    simp [covered, free]

end Masks

/-! ### Fragments -/

theorem maxFragmentPayload_bounds (suite : CipherSuite) :
    16383 ≤ maxFragmentPayload suite ∧ maxFragmentPayload suite ≤ 16384 := by
  unfold maxFragmentPayload maxTLSPlaintextSize
  split <;> omega

theorem fragmentCount_le {size : Nat} (suite : CipherSuite) (bounded : size ≤ maxHTTPRequestSize) :
    chunkCount size (maxFragmentPayload suite) ≤ 65 := by
  obtain ⟨lower, _⟩ := maxFragmentPayload_bounds suite
  have limit : size ≤ 1048576 := bounded
  apply Nat.lt_succ_iff.mp
  rw [chunkCount, Nat.div_lt_iff_lt_mul (by omega)]
  omega

theorem fragmentCount_pos {size : Nat} (suite : CipherSuite) (nonempty : 0 < size) :
    0 < chunkCount size (maxFragmentPayload suite) := by
  obtain ⟨lower, _⟩ := maxFragmentPayload_bounds suite
  exact Nat.div_pos (by omega) (by omega)

/-- What part of a fragment a range covers, in positions of the whole request. -/
theorem adjustRange_covers (start length : Nat) (range : RequestRedactionRange) :
    (adjustRange start length range).start = max range.start start - start ∧
      (adjustRange start length range).finish = min range.finish (start + length) - start := by
  unfold adjustRange RequestRedactionRange.finish
  dsimp only
  split <;> split <;> dsimp only at * <;> omega

theorem adjustRange_inside {start length : Nat} {range : RequestRedactionRange}
    (positive : 0 < range.length) (overlaps : Overlaps start length range) :
    0 ≤ (adjustRange start length range).start ∧
      0 ≤ (adjustRange start length range).length ∧
      (adjustRange start length range).start ≤ length ∧
      (adjustRange start length range).finish ≤ length := by
  obtain ⟨first, last⟩ := adjustRange_covers start length range
  unfold Overlaps at overlaps
  have sum : (adjustRange start length range).finish =
    (adjustRange start length range).start + (adjustRange start length range).length := rfl
  have ordered : range.finish = range.start + range.length := rfl
  omega

theorem reconstructFrom_eq {ranges : List RequestRedactionRange} (streams : List (List Byte))
    (index : Nat) (data : List Byte)
    (inside : ∀ range ∈ ranges, 0 ≤ range.start ∧ 0 ≤ range.length ∧
      range.start ≤ data.length ∧ range.finish ≤ data.length) :
    reconstructFrom index data (ranges.zip streams) =
      .ok (Mask.applyAll data (rangeMasks ranges streams)) := by
  induction ranges generalizing index data streams with
  | nil => rfl
  | cons range rest ih =>
    cases streams with
    | nil => rfl
    | cons stream others =>
      have first := inside range mem_cons_self
      have passes : ¬ (range.start < 0 ∨ range.length < 0 ∨
          (data.length : Int) < range.start ∨ (data.length : Int) < range.finish) := by
        omega
      rw [zip_cons_cons, reconstructFrom, rejectIf_of_not passes, ih]
      · rfl
      · intro other member
        rw [Mask.xorInto_length]
        exact inside other (mem_cons_of_mem _ member)

namespace Submission

variable (c : RecordCiphers) (keys : RecordKeys) (sequence : Nat) (s : Submission)

def fragmentStart (index : Nat) : Nat :=
  index * maxFragmentPayload keys.suite

def fragmentText (index : Nat) : List Byte :=
  chunk s.redacted (maxFragmentPayload keys.suite) index

def fragmentRanges (index : Nat) : List RequestRedactionRange :=
  adjustedRanges s.ranges (fragmentStart keys index) (s.fragmentText keys index).length

def fragmentCount : Nat :=
  chunkCount s.request.length (maxFragmentPayload keys.suite)

def fragment (index : Nat) : EncryptedRequest :=
  { encryptedData := xorStream (keys.stream c (sequence + index))
      (prepareDataForEncryption (s.fragmentText keys index) keys.suite)
    tagSecrets := keys.secrets c (sequence + index)
    redactionRanges := s.fragmentRanges keys index
    seqNum := sequence + index }

def batch : BatchedEncryptedRequest :=
  { fragments := (List.range (s.fragmentCount keys)).map (s.fragment c keys sequence)
    baseSeqNum := sequence
    cipherSuite := keys.suite }

def reconstructed (index : Nat) : List Byte :=
  Mask.applyAll (s.fragment c keys sequence index).encryptedData
    (rangeMasks (s.fragmentRanges keys index) s.streams)

def deliveredRecord (index : Nat) : EncryptedData :=
  { encryptedData := s.reconstructed c keys sequence index
    authTag := keys.expectedTag c (sequence + index) (s.reconstructed c keys sequence index) }

variable {c keys sequence s}

theorem encryptAndSendRequest_eq (fits : sequence + s.fragmentCount keys ≤ maxUint64) :
    encryptAndSendRequest c keys sequence s.redacted s.ranges = .ok (s.batch c keys sequence) := by
  have turns : ∀ index ∈ List.range (s.fragmentCount keys),
      encryptFragment c keys sequence s.redacted s.ranges index =
        .ok (s.fragment c keys sequence index) := by
    intro index member
    have inside := mem_range.mp member
    have limit : maxUint64 = 18446744073709551615 := rfl
    have noWrap : (sequence + index) % 2 ^ 64 = sequence + index := Nat.mod_eq_of_lt (by omega)
    have notLast : ¬ sequence + index = maxUint64 := by omega
    simp only [encryptFragment, noWrap, RecordKeys.encryptWithoutTag, if_neg notLast]
    rfl
  unfold encryptAndSendRequest
  rw [redacted_length]
  change (List.range (s.fragmentCount keys)).mapM _ >>= _ = _
  rw [mapM_eq_ok turns]
  rfl

/-! ### The fragments on TEE_T -/

/-- A fragment as TEE_T keeps it until the streams are there. -/
def pendingFragment (c : RecordCiphers) (keys : RecordKeys) (sequence : Nat) (s : Submission)
    (index : Nat) : PendingFragment :=
  { request := s.fragment c keys sequence index, cipherSuite := keys.suite }

def pendingFragments (c : RecordCiphers) (keys : RecordKeys) (sequence : Nat) (s : Submission) :
    SequenceMap PendingFragment :=
  SequenceMap.store
    ((List.range (s.fragmentCount keys)).map fun index =>
      (sequence + index, s.pendingFragment c keys sequence index)) ∅

theorem numberedFragments_batch (fits : sequence + s.fragmentCount keys ≤ maxUint64) :
    numberedFragments (s.batch c keys sequence) =
      (List.range (s.fragmentCount keys)).map fun index =>
        (sequence + index, s.pendingFragment c keys sequence index) := by
  apply ext_getElem?
  intro index
  simp only [numberedFragments, batch, getElem?_map, getElem?_zipIdx]
  by_cases inside : index < s.fragmentCount keys
  · have limit : maxUint64 = 18446744073709551615 := rfl
    rw [getElem?_range inside]
    simp [pendingFragment, fragment]
    omega
  · rw [getElem?_eq_none (by rw [length_range]; omega)]
    rfl

theorem find_pendingFragments {index : Nat} (inside : index < s.fragmentCount keys) :
    (s.pendingFragments c keys sequence).find (sequence + index) =
      some (s.pendingFragment c keys sequence index) := by
  obtain ⟨rest, counted⟩ := Nat.exists_eq_add_of_lt inside
  have split : List.range (s.fragmentCount keys) =
      List.range index ++ index :: (List.range rest).map (index + 1 + ·) := by
    rw [counted, show index + rest + 1 = index + 1 + rest by omega, range_add,
      range_succ, append_assoc]
    rfl
  unfold pendingFragments
  rw [split, map_append]
  apply SequenceMap.find_store_append
  intro member
  simp only [map_map, mem_map, Function.comp_apply] at member
  omega

theorem ascending_pendingFragments (c : RecordCiphers) (keys : RecordKeys) (sequence : Nat)
    (s : Submission) :
    (s.pendingFragments c keys sequence).ascending =
      (List.range (s.fragmentCount keys)).map (sequence + ·) := by
  apply SequenceMap.ascending_eq
  · exact nodup_range.map fun _ _ same => Nat.add_left_cancel same
  · rw [pairwise_map]
    exact pairwise_lt_range.imp fun before => by omega
  · intro number
    rw [pendingFragments, SequenceMap.mem_store]
    simp

theorem fragmentText_length (index : Nat) :
    (s.fragmentText keys index).length =
      min (maxFragmentPayload keys.suite)
        (s.request.length - fragmentStart keys index) := by
  rw [fragmentText, chunk, length_take, length_drop, redacted_length]
  rfl

theorem fragmentRanges_inside (formed : s.WellFormed) {index : Nat} {range : RequestRedactionRange}
    (member : range ∈ s.fragmentRanges keys index) :
    0 ≤ range.start ∧ 0 ≤ range.length ∧ range.start ≤ (s.fragmentText keys index).length ∧
      range.finish ≤ (s.fragmentText keys index).length := by
  obtain ⟨whole, kept, same⟩ := mem_map.mp member
  obtain ⟨listed, overlaps⟩ := mem_filter.mp kept
  obtain ⟨_, positive, _⟩ := formed.accepted.inBounds whole listed
  rw [← same]
  exact adjustRange_inside positive (of_decide_eq_true overlaps)

theorem prepared_length_le (data : List Byte) (suite : CipherSuite) :
    data.length ≤ (prepareDataForEncryption data suite).length := by
  unfold prepareDataForEncryption prepareDataForTLS13
  split
  · rw [length_append]
    exact Nat.le_add_right _ _
  · exact Nat.le_refl _

theorem processFragment_eq (c : RecordCiphers) (keys : RecordKeys) (sequence : Nat)
    (formed : s.WellFormed) (index : Nat) :
    processFragment c s.streams (sequence + index) (s.pendingFragment c keys sequence index) =
      .ok (s.deliveredRecord c keys sequence index) := by
  have inside : ∀ range ∈ s.fragmentRanges keys index, 0 ≤ range.start ∧ 0 ≤ range.length ∧
      range.start ≤ (s.fragment c keys sequence index).encryptedData.length ∧
      range.finish ≤ (s.fragment c keys sequence index).encryptedData.length := by
    intro range member
    have bounds := fragmentRanges_inside formed member
    have longer := prepared_length_le (s.fragmentText keys index) keys.suite
    have same : (s.fragment c keys sequence index).encryptedData.length =
        (prepareDataForEncryption (s.fragmentText keys index) keys.suite).length :=
      xorStream_length _ _
    omega
  have applied :=
    reconstructFrom_eq s.streams 0 (s.fragment c keys sequence index).encryptedData inside
  change (reconstructFrom 0 (s.fragment c keys sequence index).encryptedData
    ((s.fragmentRanges keys index).zip s.streams) >>= _) = _
  rw [applied]
  rfl

theorem checkConsecutive_eq (base offset count : Nat) (fits : base + offset + count ≤ maxUint64) :
    checkConsecutive base offset ((List.range count).map (base + offset + ·)) = .ok () := by
  induction count generalizing offset with
  | zero => rfl
  | succ count ih =>
    have limit : maxUint64 = 18446744073709551615 := rfl
    have noWrap : (base + offset) % 2 ^ 64 = base + offset := Nat.mod_eq_of_lt (by omega)
    have shifted : ((List.range count).map Nat.succ).map (base + offset + ·) =
        (List.range count).map (base + (offset + 1) + ·) := by
      rw [map_map]
      apply map_congr_left
      intro index _
      change base + offset + (index + 1) = base + (offset + 1) + index
      omega
    rw [range_succ_eq_map, map_cons, shifted, checkConsecutive,
      rejectIf_of_not (by rw [noWrap]; exact fun differs => differs rfl), ok_bind,
      ih (offset + 1) (by omega)]

theorem pendingFragments_entries_length (c : RecordCiphers) (keys : RecordKeys) (sequence : Nat)
    (s : Submission) :
    (s.pendingFragments c keys sequence).entries.length = s.fragmentCount keys := by
  have counted := congrArg List.length (ascending_pendingFragments c keys sequence s)
  rw [SequenceMap.ascending, length_insertionSort, length_map, length_range] at counted
  rw [← counted]
  exact (length_map _).symm

variable (formed : s.WellFormed) (fits : sequence + s.fragmentCount keys ≤ maxUint64)
include formed fits

theorem processEncryptedFragments_eq :
    processEncryptedFragmentsWithStreams c s.streams (s.pendingFragments c keys sequence) =
      .ok (some
        { fragments := (List.range (s.fragmentCount keys)).map (s.deliveredRecord c keys sequence)
          baseSeqNum := sequence }) := by
  have positive : 0 < s.fragmentCount keys :=
    fragmentCount_pos keys.suite (length_pos_iff.mpr formed.nonempty)
  have counted := pendingFragments_entries_length c keys sequence s
  rcases Nat.lt_or_ge 1 (s.fragmentCount keys) with several | single
  · have found : (s.pendingFragments c keys sequence).find sequence =
        some (s.pendingFragment c keys sequence 0) := find_pendingFragments positive
    have head : ((List.range (s.fragmentCount keys)).map (sequence + ·)).headD 0 = sequence := by
      obtain ⟨rest, more⟩ := Nat.exists_eq_succ_of_ne_zero (Nat.ne_of_gt positive)
      rw [more, range_succ_eq_map]
      rfl
    have consecutive := checkConsecutive_eq sequence 0 (s.fragmentCount keys) fits
    have turns : ∀ number ∈ (List.range (s.fragmentCount keys)).map (sequence + ·),
        processPending c s.streams (s.pendingFragments c keys sequence) keys.suite number =
          .ok (s.deliveredRecord c keys sequence (number - sequence)) := by
      intro number member
      obtain ⟨index, inside, same⟩ := mem_map.mp member
      rw [← same, processPending, find_pendingFragments (mem_range.mp inside),
        Nat.add_sub_cancel_left]
      change (if keys.suite ≠ keys.suite then _ else _) = _
      rw [if_neg fun differs => differs rfl]
      exact processFragment_eq c keys sequence formed index
    have renamed : ((List.range (s.fragmentCount keys)).map (sequence + ·)).map
        (fun number => s.deliveredRecord c keys sequence (number - sequence)) =
          (List.range (s.fragmentCount keys)).map (s.deliveredRecord c keys sequence) := by
      rw [map_map]
      apply map_congr_left
      intro index _
      change s.deliveredRecord c keys sequence (sequence + index - sequence) = _
      rw [Nat.add_sub_cancel_left]
    unfold processEncryptedFragmentsWithStreams
    split
    · next none => rw [none] at counted; simp at counted; omega
    · next one => rw [one] at counted; simp at counted; omega
    simp only [ascending_pendingFragments, head, found]
    rw [Nat.add_zero] at consecutive
    rw [consecutive]
    change (List.mapM (processPending c s.streams _ keys.suite) _ >>= _) = _
    rw [mapM_eq_ok turns, renamed]
    rfl
  · have one : s.fragmentCount keys = 1 := by omega
    have entries : (s.pendingFragments c keys sequence).entries =
        [⟨sequence, s.pendingFragment c keys sequence 0⟩] := by
      unfold pendingFragments
      rw [one]
      rfl
    have processed := processFragment_eq c keys sequence formed 0
    unfold processEncryptedFragmentsWithStreams
    rw [entries]
    change Except.map some (processFragment c s.streams (sequence + 0)
      (s.pendingFragment c keys sequence 0) >>= _) = _
    rw [processed, one]
    rfl

/-! ### Both parts -/

/-- TEE_T when all fragments and all streams are there. -/
def arrived (c : RecordCiphers) (keys : RecordKeys) (sequence : Nat) (s : Submission) :
    RequestState :=
  { ranges := s.fragmentRanges keys 0
    redactionStreams := s.streams
    pendingEncryptedFragments := s.pendingFragments c keys sequence
    requestPartsArrived := 1
    requestProofStreams := [] }

def signedProofStreams (keys : RecordKeys) (s : Submission) : List (List Byte) :=
  captureProofStreams (s.fragmentRanges keys 0) s.streams

/-- What both orders of arrival leave and send. -/
def delivered (c : RecordCiphers) (keys : RecordKeys) (sequence : Nat) (s : Submission) :
    RequestState × Option BatchedEncryptedData :=
  ({ ranges := s.fragmentRanges keys 0
     redactionStreams := s.streams
     pendingEncryptedFragments := ∅
     requestPartsArrived := 2
     requestProofStreams := s.signedProofStreams keys },
    some
      { fragments := (List.range (s.fragmentCount keys)).map (s.deliveredRecord c keys sequence)
        baseSeqNum := sequence })

theorem processIfBothPartsArrived_eq :
    processIfBothPartsArrived c (s.arrived c keys sequence) =
      .ok (s.delivered c keys sequence) := by
  have positive : 0 < s.fragmentCount keys :=
    fragmentCount_pos keys.suite (length_pos_iff.mpr formed.nonempty)
  have pending : ¬ (s.pendingFragments c keys sequence).entries = [] := by
    intro none
    have counted := pendingFragments_entries_length c keys sequence s
    rw [none] at counted
    exact Nat.ne_of_lt positive counted
  have processed := processEncryptedFragments_eq (c := c) formed fits
  change (rejectIf ((s.pendingFragments c keys sequence).entries = []) _ >>= fun _ =>
    processEncryptedFragmentsWithStreams c s.streams (s.pendingFragments c keys sequence) >>=
      fun sent => pure ((s.delivered c keys sequence).1, sent)) = _
  rw [rejectIf_of_not pending, processed]
  rfl

theorem handleBatchedEncryptedRequest_eq {state : RequestState}
    (fresh : state.pendingEncryptedFragments = ∅) :
    handleBatchedEncryptedRequest c state (s.batch c keys sequence) =
      processIfBothPartsArrived c
        { state with
          ranges := s.fragmentRanges keys 0
          pendingEncryptedFragments := s.pendingFragments c keys sequence } := by
  have positive : 0 < s.fragmentCount keys :=
    fragmentCount_pos keys.suite (length_pos_iff.mpr formed.nonempty)
  have few : s.fragmentCount keys ≤ 65 := fragmentCount_le keys.suite formed.accepted.size
  have fewFragments : ¬ maxEncryptedFragments < (s.batch c keys sequence).fragments.length := by
    rw [batch, length_map, length_range, maxEncryptedFragments]
    omega
  have first : (s.batch c keys sequence).fragments.head?.map EncryptedRequest.redactionRanges =
      some (s.fragmentRanges keys 0) := by
    obtain ⟨rest, more⟩ := Nat.exists_eq_succ_of_ne_zero (Nat.ne_of_gt positive)
    rw [batch, more, range_succ_eq_map]
    rfl
  have fewRanges : ¬ maxRedactionRanges < (s.fragmentRanges keys 0).length := by
    have kept := length_filter_le
      (Overlaps (fragmentStart keys 0) (s.fragmentText keys 0).length) s.ranges
    have count := formed.accepted.count
    rw [fragmentRanges, adjustedRanges, length_map]
    omega
  simp only [handleBatchedEncryptedRequest, rejectIf_of_not fewFragments, first,
    Option.getD_some, rejectIf_of_not fewRanges, numberedFragments_batch fits, fresh]
  rfl

theorem deliver_eq (streamsFirst : Bool) :
    s.deliver c keys sequence streamsFirst = .ok (s.delivered c keys sequence) := by
  have format : validateHTTPRequestFormat s.redacted s.ranges (some s.connection) = .ok () := by
    unfold validateHTTPRequestFormat redacted
    rw [prettyRequest_applyRedaction s.streams formed.accepted.inBounds]
    exact formed.format
  have checked := handleRedactedRequest_eq_ok_iff.mpr
    ⟨s.redacted_length.symm ▸ formed.accepted, format⟩
  have processed := processIfBothPartsArrived_eq (c := c) formed fits
  rw [deliver, checked, ok_bind, encryptAndSendRequest_eq fits, ok_bind]
  cases streamsFirst with
  | true =>
    change handleBatchedEncryptedRequest c _ (s.batch c keys sequence) = _
    rw [handleBatchedEncryptedRequest_eq formed fits rfl]
    exact processed
  | false =>
    rw [handleBatchedEncryptedRequest_eq formed fits rfl]
    exact processed

end Submission

end ReclaimTee.Request
