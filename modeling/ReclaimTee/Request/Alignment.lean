/-
Where the streams of a request meet its masks. The client counts its streams by
the ranges of the whole request, TEE_T by the ranges of each fragment. The
records read as the request exactly when both pick the same bytes.
-/

import ReclaimTee.Request.Delivery

namespace ReclaimTee.Request

open ReclaimTee.Mpc ReclaimTee.Tls List

/-! ### Masks over disjoint ranges -/

variable {ranges : List RequestRedactionRange} {position : Nat} {range : RequestRedactionRange}

theorem total_rangeMasks_of_covers {streams : List (List Byte)} {index : Nat}
    (nonnegative : ∀ range ∈ ranges, 0 ≤ range.start)
    (disjoint : ranges.Pairwise RequestRedactionRange.Disjoint)
    (enough : ranges.length ≤ streams.length) (found : ranges[index]? = some range)
    (covers : range.Covers position) :
    Mask.total (rangeMasks ranges streams) position =
      (streams.getD index []).getD (position - range.start.toNat) 0 := by
  obtain ⟨inside, _⟩ := List.getElem?_eq_some_iff.mp found
  have paired := getElem?_eq_some_getD streams index [] (by omega)
  have mask : (rangeMasks ranges streams)[index]? = some
      { start := range.start.toNat, words := (streams.getD index []).take range.length.toNat } :=
    getElem?_zipWith_eq_some.mpr ⟨range, streams.getD index [], found, paired, rfl⟩
  have only := Mask.total_eq_of_only mask fun other placed located different coversOther => by
    obtain ⟨range', found', covers'⟩ := covers_of_rangeMasks nonnegative located coversOther
    exact different (eq_of_covers disjoint found' found covers' covers)
  obtain ⟨after, before⟩ := covers
  unfold RequestRedactionRange.finish at before
  refine only.trans ?_
  unfold Mask.wordAt
  dsimp only
  rw [if_pos (by omega), getD_take _ _ _ _ (by omega)]

theorem adjustRange_disjoint {start length : Nat} {first second : RequestRedactionRange}
    (disjoint : first.Disjoint second) :
    (adjustRange start length first).Disjoint (adjustRange start length second) := by
  obtain ⟨firstStart, firstFinish⟩ := adjustRange_covers start length first
  obtain ⟨secondStart, secondFinish⟩ := adjustRange_covers start length second
  unfold RequestRedactionRange.Disjoint at *
  omega

theorem adjustRange_covers_iff {start length : Nat} (inside : position < length) :
    (adjustRange start length range).Covers position ↔ range.Covers (start + position) := by
  obtain ⟨first, last⟩ := adjustRange_covers start length range
  unfold RequestRedactionRange.Covers
  omega

/-! ### The two ways of counting -/

namespace Submission

variable (c : RecordCiphers) (keys : RecordKeys) (sequence : Nat) (s : Submission)

def streamByte (index offset : Nat) : Byte :=
  (s.streams.getD index []).getD offset 0

/-- The ranges that reach into a fragment, with their places in the whole request. -/
def overlapping (index : Nat) : List (RequestRedactionRange × Nat) :=
  s.ranges.zipIdx.filter fun pair =>
    Overlaps (fragmentStart keys index) (s.fragmentText keys index).length pair.1

/-- Inside a fragment, TEE_T reads the stream numbered by the place in the fragment,
from its first byte; the client wrote the stream numbered by the place in the
request, from the start of the range. -/
def AlignedAt (index : Nat) : Prop :=
  ∀ place range origin, (s.overlapping keys index)[place]? = some (range, origin) →
    ∀ position, position < (s.fragmentText keys index).length →
      range.Covers (fragmentStart keys index + position) →
      s.streamByte place (fragmentStart keys index + position -
          max range.start.toNat (fragmentStart keys index)) =
        s.streamByte origin (fragmentStart keys index + position - range.start.toNat)

def StreamsAligned : Prop :=
  ∀ index, index < s.fragmentCount keys → s.AlignedAt keys index

variable {c keys sequence s}

theorem fragmentRanges_eq (index : Nat) :
    s.fragmentRanges keys index = (s.overlapping keys index).map fun pair =>
      adjustRange (fragmentStart keys index) (s.fragmentText keys index).length pair.1 := by
  have numbered : s.ranges = s.ranges.zipIdx.map Prod.fst := zipIdx_map_fst 0 s.ranges |>.symm
  unfold fragmentRanges adjustedRanges overlapping
  nth_rewrite 1 [numbered]
  rw [filter_map, map_map]
  rfl

theorem overlapping_origin {index place origin : Nat} {range : RequestRedactionRange}
    (found : (s.overlapping keys index)[place]? = some (range, origin)) :
    s.ranges[origin]? = some range := by
  have kept := (mem_filter.mp (mem_of_getElem? found)).1
  exact mk_mem_zipIdx_iff_getElem?.mp kept

theorem fragmentRanges_length_le (keys : RecordKeys) (s : Submission) (index : Nat) :
    (s.fragmentRanges keys index).length ≤ s.ranges.length := by
  unfold fragmentRanges adjustedRanges
  rw [length_map]
  exact length_filter_le _ _

theorem fragmentRanges_disjoint (formed : s.WellFormed) (index : Nat) :
    (s.fragmentRanges keys index).Pairwise RequestRedactionRange.Disjoint :=
  (formed.accepted.disjoint.filter _).map _ fun _ _ => adjustRange_disjoint

/-- The client's masks and those of TEE_T agree on a fragment exactly when it is
aligned. -/
theorem masks_agree_iff (formed : s.WellFormed) (index : Nat) :
    (∀ position, position < (s.fragmentText keys index).length →
      Mask.total (rangeMasks s.ranges s.streams) (fragmentStart keys index + position) =
        Mask.total (rangeMasks (s.fragmentRanges keys index) s.streams) position) ↔
      s.AlignedAt keys index := by
  have streams := formed.streams_length
  have fewer := fragmentRanges_length_le keys s index
  have known : ∀ range ∈ s.ranges, 0 ≤ range.start :=
    fun range member => (formed.accepted.inBounds range member).1
  have knownHere : ∀ range ∈ s.fragmentRanges keys index, 0 ≤ range.start :=
    fun range member => (fragmentRanges_inside formed member).1
  -- Under a range of the fragment both sides are bytes of streams.
  have bytes : ∀ place range origin,
      (s.overlapping keys index)[place]? = some (range, origin) →
      ∀ position, position < (s.fragmentText keys index).length →
      range.Covers (fragmentStart keys index + position) →
      Mask.total (rangeMasks s.ranges s.streams) (fragmentStart keys index + position) =
          s.streamByte origin (fragmentStart keys index + position - range.start.toNat) ∧
        Mask.total (rangeMasks (s.fragmentRanges keys index) s.streams) position =
          s.streamByte place (fragmentStart keys index + position -
            max range.start.toNat (fragmentStart keys index)) := by
    intro place range origin found position inside covers
    constructor
    · exact total_rangeMasks_of_covers known formed.accepted.disjoint (by omega)
        (overlapping_origin found) covers
    · have here : (s.fragmentRanges keys index)[place]? = some
          (adjustRange (fragmentStart keys index) (s.fragmentText keys index).length range) := by
        rw [fragmentRanges_eq, getElem?_map, found]
        rfl
      rw [total_rangeMasks_of_covers knownHere (fragmentRanges_disjoint formed index) (by omega)
        here ((adjustRange_covers_iff inside).mpr covers)]
      have first := (adjustRange_covers (fragmentStart keys index)
        (s.fragmentText keys index).length range).1
      have sameOffset : position - (adjustRange (fragmentStart keys index)
          (s.fragmentText keys index).length range).start.toNat =
            fragmentStart keys index + position -
              max range.start.toNat (fragmentStart keys index) := by
        rw [first]
        omega
      rw [sameOffset]
      rfl
  constructor
  · intro agree place range origin found position inside covers
    obtain ⟨client, here⟩ := bytes place range origin found position inside covers
    rw [← client, ← here]
    exact (agree position inside).symm
  · intro aligned position inside
    by_cases covered : ∃ range ∈ s.ranges, range.Covers (fragmentStart keys index + position)
    · obtain ⟨range, listed, covers⟩ := covered
      obtain ⟨origin, located⟩ := mem_iff_getElem?.mp listed
      have overlaps : Overlaps (fragmentStart keys index) (s.fragmentText keys index).length
          range := by
        unfold Overlaps
        unfold RequestRedactionRange.Covers at covers
        omega
      have kept : (range, origin) ∈ s.overlapping keys index :=
        mem_filter.mpr
          ⟨mk_mem_zipIdx_iff_getElem?.mpr located, decide_eq_true overlaps⟩
      obtain ⟨place, found⟩ := mem_iff_getElem?.mp kept
      obtain ⟨client, here⟩ := bytes place range origin found position inside covers
      rw [client, here]
      exact (aligned place range origin found position inside covers).symm
    · have uncovered : ∀ range ∈ s.fragmentRanges keys index, ¬ range.Covers position := by
        intro range member covers
        rw [fragmentRanges_eq] at member
        obtain ⟨pair, kept, same⟩ := mem_map.mp member
        rw [← same] at covers
        obtain ⟨place, found⟩ := mem_iff_getElem?.mp kept
        exact covered ⟨pair.1, mem_of_getElem? (overlapping_origin found),
          (adjustRange_covers_iff inside).mp covers⟩
      rw [total_rangeMasks_of_uncovered s.streams known
          fun range member covers => covered ⟨range, member, covers⟩,
        total_rangeMasks_of_uncovered s.streams knownHere uncovered]

/-! ### The receiver -/

/-- What the receiver of the records reads from a fragment. -/
def openedText (keys : RecordKeys) (s : Submission) (index : Nat) : List Byte :=
  Mask.applyAll (s.fragmentText keys index)
    (rangeMasks (s.fragmentRanges keys index) s.streams)

theorem fragmentMasks_inside (formed : s.WellFormed) {index : Nat} :
    ∀ mask ∈ rangeMasks (s.fragmentRanges keys index) s.streams,
      mask.start + mask.words.length ≤ (s.fragmentText keys index).length := by
  intro mask member
  obtain ⟨place, found⟩ := mem_iff_getElem?.mp member
  obtain ⟨range, stream, located, _, same⟩ := getElem?_zipWith_eq_some.mp found
  obtain ⟨first, size, _, last⟩ := fragmentRanges_inside formed (mem_of_getElem? located)
  have taken : (stream.take range.length.toNat).length ≤ range.length.toNat :=
    length_take_le _ _
  unfold RequestRedactionRange.finish at last
  rw [← same]
  dsimp only
  omega

theorem decrypted_fragment (c : RecordCiphers) (keys : RecordKeys) (sequence : Nat)
    (s : Submission) (index : Nat) :
    xorStream (keys.stream c (sequence + index)) (s.reconstructed c keys sequence index) =
      Mask.applyAll (prepareDataForEncryption (s.fragmentText keys index) keys.suite)
        (rangeMasks (s.fragmentRanges keys index) s.streams) := by
  apply ext_getElem?
  intro position
  rw [xorStream_getElem?, reconstructed, Mask.applyAll_getElem?, Mask.applyAll_getElem?]
  change Option.map _ (Option.map _ ((xorStream (keys.stream c (sequence + index)) _)[position]?)) =
    _
  rw [xorStream_getElem?, Option.map_map, Option.map_map]
  congr 1
  funext byte
  change byte ^^^ keys.stream c (sequence + index) position ^^^ _ ^^^
    keys.stream c (sequence + index) position = byte ^^^ _
  rw [BitVec.xor_assoc byte, BitVec.xor_comm (keys.stream c (sequence + index) position),
    ← BitVec.xor_assoc byte, BitVec.xor_assoc _ (keys.stream c (sequence + index) position),
    BitVec.xor_self, BitVec.xor_zero]

theorem openRecord_delivered (formed : s.WellFormed) (index : Nat) :
    keys.openRecord c (sequence + index) (s.deliveredRecord c keys sequence index).encryptedData
        (s.deliveredRecord c keys sequence index).authTag =
      some (s.openedText keys index) := by
  have decrypted := decrypted_fragment c keys sequence s index
  have tagged : keys.expectedTag c (sequence + index)
      (s.deliveredRecord c keys sequence index).encryptedData =
        (s.deliveredRecord c keys sequence index).authTag := rfl
  unfold RecordKeys.openRecord
  rw [if_pos tagged]
  change (if keys.suite.isTLS13 then innerContent (xorStream (keys.stream c (sequence + index))
      (s.reconstructed c keys sequence index))
    else some (xorStream (keys.stream c (sequence + index))
      (s.reconstructed c keys sequence index))) = _
  rw [decrypted]
  unfold prepareDataForEncryption
  by_cases version : keys.suite.isTLS13
  · rw [if_pos version, if_pos version, prepareDataForTLS13,
      Mask.applyAll_append _ (fragmentMasks_inside formed)]
    exact innerContent_prepared _
  · rw [if_neg version, if_neg version]
    rfl

end Submission

/-- The receiver of a batch opens its records one after the other. -/
def openBatch (c : RecordCiphers) (keys : RecordKeys) (batch : BatchedEncryptedData) :
    Option (List Byte) :=
  (batch.fragments.zipIdx.mapM fun numbered : EncryptedData × Nat =>
    keys.openRecord c (batch.baseSeqNum + numbered.2) numbered.1.encryptedData
      numbered.1.authTag).map List.flatten

namespace Submission

variable {c : RecordCiphers} {keys : RecordKeys} {sequence : Nat} {s : Submission}

theorem openBatch_delivered (formed : s.WellFormed) (count : Nat) :
    openBatch c keys
        { fragments := (List.range count).map (s.deliveredRecord c keys sequence)
          baseSeqNum := sequence } =
      some ((List.range count).map (s.openedText keys)).flatten := by
  have numbered : ((List.range count).map (s.deliveredRecord c keys sequence)).zipIdx =
      (List.range count).map fun index => (s.deliveredRecord c keys sequence index, index) := by
    apply ext_getElem?
    intro index
    rw [getElem?_zipIdx, getElem?_map, getElem?_map]
    by_cases inside : index < count
    · rw [getElem?_range inside]
      simp
    · rw [getElem?_eq_none (by rw [length_range]; omega)]
      rfl
  have turns : ∀ index ∈ List.range count,
      keys.openRecord c (sequence + index) (s.deliveredRecord c keys sequence index).encryptedData
        (s.deliveredRecord c keys sequence index).authTag = pure (s.openedText keys index) :=
    fun index _ => openRecord_delivered formed index
  unfold openBatch
  rw [numbered, mapM_map]
  change Option.map List.flatten (List.mapM (fun index => keys.openRecord c (sequence + index)
    (s.deliveredRecord c keys sequence index).encryptedData
    (s.deliveredRecord c keys sequence index).authTag) (List.range count)) = _
  rw [mapM_eq_pure turns]
  rfl

theorem openBatch_delivered_iff (formed : s.WellFormed) :
    openBatch c keys
        { fragments := (List.range (s.fragmentCount keys)).map
            (s.deliveredRecord c keys sequence)
          baseSeqNum := sequence } = some s.request ↔ s.StreamsAligned keys := by
  have positive : 0 < maxFragmentPayload keys.suite := by
    have bounds := maxFragmentPayload_bounds keys.suite
    omega
  have whole := flatten_chunks s.request positive
  have sameLength : ∀ index, index < s.fragmentCount keys →
      (s.openedText keys index).length =
        (chunk s.request (maxFragmentPayload keys.suite) index).length := by
    intro index _
    rw [openedText, Mask.applyAll_length, fragmentText_length, chunk, length_take, length_drop]
    rfl
  rw [openBatch_delivered formed, Option.some_inj]
  nth_rewrite 1 [← whole]
  refine (flatten_map_eq_iff sameLength).trans ?_
  apply forall_congr'
  intro index
  apply imp_congr_right
  intro inside
  rw [← masks_agree_iff formed index]
  refine (unmasked_chunk_iff s.request _ _ _ index).trans ?_
  rw [← sameLength index inside, openedText, Mask.applyAll_length]
  rfl

/-- Whatever the order of arrival, every record is delivered; together the records
carry the request exactly when all fragments are aligned. -/
theorem reconstructed_request_iff (c : RecordCiphers) (keys : RecordKeys) (sequence : Nat)
    (s : Submission) (formed : s.WellFormed) (fits : sequence + s.fragmentCount keys ≤ maxUint64) :
    ∃ state batch, (∀ streamsFirst,
        s.deliver c keys sequence streamsFirst = .ok (state, some batch)) ∧
      (openBatch c keys batch = some s.request ↔ s.StreamsAligned keys) :=
  ⟨_, _, deliver_eq formed fits, openBatch_delivered_iff formed⟩

/-! ### A request of two records -/

def sampleKeys : RecordKeys :=
  { suite := .ecdheRsaWithAes128GcmSha256, key := [], iv := [0x00, 0x01, 0x02, 0x03] }

def sampleHead : List Byte :=
  ascii "POST / HTTP/1.1\r\nHost: a.io\r\nConnection: close\r\nContent-Length: 16312\r\n\r\n"

/-- A request of 16385 bytes, one more than a record of TLS 1.2 holds. -/
def sampleSubmission (ranges : List RequestRedactionRange) (streams : List (List Byte)) :
    Submission where
  connection := { hostname := ascii "a.io", port := 443 }
  request := sampleHead ++ List.replicate 16312 (char 'a')
  ranges := ranges
  streams := streams

section Sample

variable {ranges : List RequestRedactionRange} {streams : List (List Byte)}

theorem sampleSubmission_length : (sampleSubmission ranges streams).request.length = 16385 := by
  have head : sampleHead.length = 73 := by decide
  exact length_append.trans (by rw [head, length_replicate])

theorem sampleSubmission_count : (sampleSubmission ranges streams).fragmentCount sampleKeys = 2 := by
  rw [fragmentCount, sampleSubmission_length]
  decide

/-- Any body without a carriage return passes behind the head. -/
theorem validatePretty_sampleHead {body : List Byte} (plain : char '\r' ∉ body) :
    validatePretty (sampleHead ++ body) (some { hostname := ascii "a.io", port := 443 }) =
      .ok () := by
  have none : cutText (ascii "\r\n") body = none := cutText_eq_none plain
  have lines : splitText (sampleHead ++ body) (ascii "\r\n") =
      [ascii "POST / HTTP/1.1", ascii "Host: a.io", ascii "Connection: close",
        ascii "Content-Length: 16312", [], body] := by
    have enough : (sampleHead ++ body).length = body.length + 67 + 6 := by
      rw [length_append, Nat.add_comm]
      rfl
    have first : cutText (ascii "\r\n") (sampleHead ++ body) =
        some (ascii "POST / HTTP/1.1", sampleHead.drop 17 ++ body) := rfl
    have second : cutText (ascii "\r\n") (sampleHead.drop 17 ++ body) =
        some (ascii "Host: a.io", sampleHead.drop 29 ++ body) := rfl
    have third : cutText (ascii "\r\n") (sampleHead.drop 29 ++ body) =
        some (ascii "Connection: close", sampleHead.drop 48 ++ body) := rfl
    have fourth : cutText (ascii "\r\n") (sampleHead.drop 48 ++ body) =
        some (ascii "Content-Length: 16312", ascii "\r\n" ++ body) := rfl
    have fifth : cutText (ascii "\r\n") (ascii "\r\n" ++ body) = some ([], body) := rfl
    rw [splitText, enough]
    simp only [splitFrom, first, second, third, fourth, fifth, none]
  unfold validatePretty
  rw [lines]
  rfl

theorem sampleSubmission_wellFormed (accepted : Accepted ranges 16385)
    (behind : ∀ range ∈ ranges, 73 ≤ range.start)
    (streamLengths : streams.map List.length = ranges.map fun range => range.length.toNat) :
    (sampleSubmission ranges streams).WellFormed where
  accepted := sampleSubmission_length.symm ▸ accepted
  format := by
    obtain ⟨starred, same, bytes⟩ :=
      @prettyRequest_append sampleHead (List.replicate 16312 (char 'a')) ranges behind
    change validatePretty (prettyRequest (sampleHead ++ _) ranges) _ = _
    rw [same]
    apply validatePretty_sampleHead
    intro member
    rcases bytes _ member with star | letter
    · exact absurd star (by decide)
    · exact absurd (eq_of_mem_replicate letter) (by decide)
  streamLengths := streamLengths

/-- One range of one byte meets its stream in whatever record it falls. -/
theorem aligned_single {range : RequestRedactionRange} {stream : List Byte}
    (single : range.length = 1) : (sampleSubmission [range] [stream]).StreamsAligned sampleKeys := by
  intro index _ place other origin found position _ covers
  have located := overlapping_origin found
  have first : origin = 0 := by
    have inside := (List.getElem?_eq_some_iff.mp located).1
    exact Nat.lt_one_iff.mp inside
  have placed : place = 0 := by
    have inside := (List.getElem?_eq_some_iff.mp found).1
    have few := length_filter_le (fun pair : RequestRedactionRange × Nat =>
      decide (Overlaps (fragmentStart sampleKeys index)
        ((sampleSubmission [range] [stream]).fragmentText sampleKeys index).length pair.1))
      [(range, 0)]
    exact Nat.lt_one_iff.mp (Nat.lt_of_lt_of_le inside few)
  subst first placed
  cases located
  obtain ⟨after, before⟩ := covers
  unfold RequestRedactionRange.finish at before
  have start : max range.start.toNat (fragmentStart sampleKeys index) = range.start.toNat := by
    omega
  rw [start]

end Sample

/-- The last byte of the request, alone in its record. -/
def lateRange (type : RedactionType) : RequestRedactionRange :=
  { start := 16384, length := 1, type := type }

theorem lateRequest_wellFormed {type : RedactionType} (known : type.Known) (byte : Byte) :
    (sampleSubmission [lateRange type] [[byte]]).WellFormed := by
  have bounds : (0 : Int) ≤ 16384 ∧ (0 : Int) < 1 ∧ (16384 + 1 : Int) ≤ (16385 : Nat) := by decide
  apply sampleSubmission_wellFormed
  · exact
      { size := by decide
        count := Nat.one_le_of_lt (by decide : 0 < maxRedactionRanges)
        inBounds := forall_mem_singleton.mpr bounds
        known := forall_mem_singleton.mpr known
        disjoint := pairwise_singleton _ _ }
  · exact forall_mem_singleton.mpr (by decide : (73 : Int) ≤ 16384)
  · rfl

/-- The second record carries the only masked byte, and the request arrives. -/
theorem reconstructed_request_iff_single :
    (sampleSubmission [lateRange .sensitive] [[0x05]]).WellFormed ∧
    ∃ state batch, (∀ streamsFirst,
        (sampleSubmission [lateRange .sensitive] [[0x05]]).deliver RecordCiphers.transcript
          sampleKeys 1 streamsFirst = .ok (state, some batch)) ∧
      openBatch RecordCiphers.transcript sampleKeys batch =
        some (sampleSubmission [lateRange .sensitive] [[0x05]]).request := by
  have formed := lateRequest_wellFormed (Or.inl rfl) 0x05
  obtain ⟨state, batch, arrives, opened⟩ := reconstructed_request_iff RecordCiphers.transcript
    sampleKeys 1 _ formed (by rw [sampleSubmission_count]; decide)
  exact ⟨formed, state, batch, arrives, opened.mpr (aligned_single rfl)⟩

/-- One masked byte in each record. -/
def twoRecordRequest : Submission :=
  sampleSubmission [{ start := 80, length := 1, type := .sensitive }, lateRange .sensitive]
    [[0x01], [0x02]]

theorem twoRecordRequest_wellFormed : twoRecordRequest.WellFormed :=
  sampleSubmission_wellFormed
    { size := by decide
      count := by decide
      inBounds := by decide
      known := by decide
      disjoint := by decide }
    (by decide) rfl

/-- The second record has one range, the second of the request; TEE_T applies the
first stream to it. -/
theorem twoRecordRequest_not_aligned : ¬ twoRecordRequest.StreamsAligned sampleKeys := by
  intro aligned
  have text : (twoRecordRequest.fragmentText sampleKeys 1).length = 1 := by
    rw [fragmentText_length, twoRecordRequest, sampleSubmission_length]
    decide
  have found : (twoRecordRequest.overlapping sampleKeys 1)[0]? =
      some (lateRange .sensitive, 1) := by
    rw [overlapping, text]
    decide
  have bytes := aligned 1 (by rw [twoRecordRequest, sampleSubmission_count]; decide) 0 _ 1 found 0
    (by rw [text]; decide) (by decide)
  revert bytes
  decide

theorem two_record_request_not_reconstructed :
    twoRecordRequest.WellFormed ∧
    ∃ state batch, (∀ streamsFirst,
        twoRecordRequest.deliver RecordCiphers.transcript sampleKeys 1 streamsFirst =
          .ok (state, some batch)) ∧
      openBatch RecordCiphers.transcript sampleKeys batch ≠ some twoRecordRequest.request := by
  have fits : 1 + twoRecordRequest.fragmentCount sampleKeys ≤ maxUint64 := by
    rw [twoRecordRequest, sampleSubmission_count]
    decide
  refine ⟨twoRecordRequest_wellFormed, _, _, deliver_eq twoRecordRequest_wellFormed fits, ?_⟩
  intro opened
  exact twoRecordRequest_not_aligned
    ((openBatch_delivered_iff twoRecordRequest_wellFormed).mp opened)

end Submission

end ReclaimTee.Request
