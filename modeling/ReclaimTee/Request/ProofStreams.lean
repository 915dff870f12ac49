/-
The proof streams that TEE_T signs, chosen by the range list of the first record
alone. The choice is the client's exactly when every proof range starts in the
first record and keeps a stream of its own there.
-/

import ReclaimTee.Request.Alignment

namespace ReclaimTee.Request

open ReclaimTee.Mpc ReclaimTee.Tls List

/-- Every range has a stream, so the choice goes by the places of the ranges. -/
theorem captureProofStreams_eq {ranges : List RequestRedactionRange} {streams : List (List Byte)}
    (enough : ranges.length ≤ streams.length) :
    captureProofStreams ranges streams =
      (ranges.zipIdx.filter fun pair => pair.1.type = .sensitiveProof).map fun pair =>
        streams.getD pair.2 [] := by
  have numbered : ranges.zip streams =
      ranges.zipIdx.map fun pair => (pair.1, streams.getD pair.2 []) := by
    apply ext_getElem?
    intro place
    rw [getElem?_map, getElem?_zipIdx, List.zip, getElem?_zipWith]
    by_cases inside : place < ranges.length
    · rw [getElem?_eq_getElem inside, getElem?_eq_some_getD streams place [] (by omega)]
      simp
    · rw [getElem?_eq_none (by omega)]
      rfl
  unfold captureProofStreams
  rw [numbered, filter_map, map_map]
  rfl

theorem adjustRange_type (start length : Nat) (range : RequestRedactionRange) :
    (adjustRange start length range).type = range.type := by
  unfold adjustRange
  dsimp only
  split <;> split <;> rfl

namespace Submission

/-- Every proof range starts in the first record, and there it has the place of
a stream equal to its own. -/
structure ProofStreamsKept (keys : RecordKeys) (s : Submission) : Prop where
  first : ∀ range ∈ s.ranges, range.type = .sensitiveProof →
    range.start < maxFragmentPayload keys.suite
  stream : ∀ place range origin, (s.overlapping keys 0)[place]? = some (range, origin) →
    range.type = .sensitiveProof → s.streams.getD place [] = s.streams.getD origin []

variable {keys : RecordKeys} {s : Submission}

theorem overlaps_first_iff (formed : s.WellFormed) {range : RequestRedactionRange}
    (listed : range ∈ s.ranges) :
    Overlaps (fragmentStart keys 0) (s.fragmentText keys 0).length range ↔
      range.start < maxFragmentPayload keys.suite := by
  obtain ⟨first, size, last⟩ := formed.accepted.inBounds range listed
  have origin : fragmentStart keys 0 = 0 := Nat.zero_mul _
  rw [fragmentText_length]
  unfold Overlaps
  unfold RequestRedactionRange.finish at *
  omega

theorem signedProofStreams_eq (formed : s.WellFormed) :
    s.signedProofStreams keys =
      ((s.overlapping keys 0).zipIdx.filter fun pair => pair.1.1.type = .sensitiveProof).map
        fun pair => s.streams.getD pair.2 [] := by
  have streams := formed.streams_length
  have fewer := fragmentRanges_length_le keys s 0
  have renumbered : (s.fragmentRanges keys 0).zipIdx = (s.overlapping keys 0).zipIdx.map
      fun pair => (adjustRange (fragmentStart keys 0) (s.fragmentText keys 0).length pair.1.1,
        pair.2) := by
    rw [fragmentRanges_eq, zipIdx_map]
    rfl
  rw [signedProofStreams, captureProofStreams_eq (by omega), renumbered, filter_map, map_map]
  congr 1
  apply filter_congr
  intro pair _
  exact decide_eq_decide.mpr (by rw [adjustRange_type])

theorem proofRanges_first (formed : s.WellFormed) :
    (s.overlapping keys 0).filter (fun pair => pair.1.type = .sensitiveProof) =
      (s.ranges.zipIdx.filter fun pair => pair.1.type = .sensitiveProof).filter
        fun pair => pair.1.start < (maxFragmentPayload keys.suite : Int) := by
  unfold overlapping
  rw [filter_filter, filter_filter]
  apply filter_congr
  intro pair member
  have listed : pair.1 ∈ s.ranges :=
    mem_of_getElem? (mk_mem_zipIdx_iff_getElem?.mp member)
  rw [decide_eq_decide.mpr (overlaps_first_iff formed listed)]
  exact Bool.and_comm _ _

theorem signedProofStreams_eq_iff (formed : s.WellFormed) :
    s.signedProofStreams keys = captureProofStreams s.ranges s.streams ↔
      s.ProofStreamsKept keys := by
  have streams := formed.streams_length
  have forgotten : ((s.overlapping keys 0).zipIdx.filter fun pair =>
      pair.1.1.type = .sensitiveProof).map Prod.fst =
        (s.overlapping keys 0).filter fun pair => pair.1.type = .sensitiveProof := by
    nth_rewrite 2 [← zipIdx_map_fst 0 (s.overlapping keys 0)]
    rw [filter_map]
    rfl
  rw [signedProofStreams_eq formed, captureProofStreams_eq (by omega)]
  by_cases first : ∀ range ∈ s.ranges, range.type = .sensitiveProof →
      range.start < maxFragmentPayload keys.suite
  · have all : (s.overlapping keys 0).filter (fun pair => pair.1.type = .sensitiveProof) =
        s.ranges.zipIdx.filter fun pair => pair.1.type = .sensitiveProof := by
      rw [proofRanges_first formed]
      apply filter_eq_self.mpr
      intro pair member
      obtain ⟨listed, proof⟩ := mem_filter.mp member
      have inRanges : pair.1 ∈ s.ranges :=
        mem_of_getElem? (mk_mem_zipIdx_iff_getElem?.mp listed)
      exact decide_eq_true (first pair.1 inRanges (of_decide_eq_true proof))
    rw [← all, ← forgotten, map_map, map_inj_left]
    constructor
    · intro same
      refine { first := first, stream := ?_ }
      intro place range origin found proof
      exact same ((range, origin), place) (mem_filter.mpr
        ⟨mk_mem_zipIdx_iff_getElem?.mpr found, decide_eq_true proof⟩)
    · intro kept pair member
      obtain ⟨listed, proof⟩ := mem_filter.mp member
      exact kept.stream pair.2 pair.1.1 pair.1.2 (mk_mem_zipIdx_iff_getElem?.mp listed)
        (of_decide_eq_true proof)
  · -- A proof range that starts later is missing, so fewer streams are signed.
    constructor
    · intro same
      have lengths := congrArg List.length same
      rw [length_map, length_map,
        ← length_map Prod.fst, forgotten, proofRanges_first formed] at lengths
      push Not at first
      obtain ⟨range, listed, proof, late⟩ := first
      obtain ⟨origin, located⟩ := mem_iff_getElem?.mp listed
      have listedProof : (range, origin) ∈ s.ranges.zipIdx.filter fun pair =>
          pair.1.type = .sensitiveProof :=
        mem_filter.mpr ⟨mk_mem_zipIdx_iff_getElem?.mpr located, decide_eq_true proof⟩
      apply absurd lengths (Nat.ne_of_lt _)
      apply length_filter_lt_length_iff_exists.mpr
      refine ⟨(range, origin), listedProof, ?_⟩
      intro early
      exact absurd (of_decide_eq_true early) (not_lt.mpr late)
    · intro kept
      exact absurd kept.first first

theorem deliver_signs (c : RecordCiphers) {sequence : Nat} (formed : s.WellFormed)
    (fits : sequence + s.fragmentCount keys ≤ maxUint64) :
    ∃ state sent, (∀ streamsFirst, s.deliver c keys sequence streamsFirst = .ok (state, sent)) ∧
      state.requestProofStreams = s.signedProofStreams keys :=
  ⟨_, _, deliver_eq formed fits, rfl⟩

/-- In either order of arrival, the proof streams kept for signing are the streams
of the client's proof ranges exactly when the first record keeps them. -/
theorem signed_proof_streams_iff (c : RecordCiphers) (keys : RecordKeys) (sequence : Nat)
    (s : Submission) (formed : s.WellFormed) (fits : sequence + s.fragmentCount keys ≤ maxUint64) :
    ∃ state sent, (∀ streamsFirst, s.deliver c keys sequence streamsFirst = .ok (state, sent)) ∧
      (state.requestProofStreams = captureProofStreams s.ranges s.streams ↔
        s.ProofStreamsKept keys) := by
  obtain ⟨state, sent, arrives, signed⟩ := deliver_signs c formed fits
  refine ⟨state, sent, arrives, ?_⟩
  rw [signed]
  exact signedProofStreams_eq_iff formed

/-- A masked and a proved byte in the first record. -/
def provedRequest : Submission :=
  sampleSubmission
    [{ start := 80, length := 1, type := .sensitive },
      { start := 90, length := 1, type := .sensitiveProof }]
    [[0x05], [0x06]]

theorem provedRequest_wellFormed : provedRequest.WellFormed :=
  sampleSubmission_wellFormed
    { size := by decide
      count := by decide
      inBounds := by decide
      known := by decide
      disjoint := by decide }
    (by decide) rfl

theorem provedRequest_kept : provedRequest.ProofStreamsKept sampleKeys where
  first := by decide
  stream := by
    have text : (provedRequest.fragmentText sampleKeys 0).length = 16384 := by
      rw [fragmentText_length, provedRequest, sampleSubmission_length]
      decide
    have both : provedRequest.overlapping sampleKeys 0 = provedRequest.ranges.zipIdx := by
      rw [overlapping, text]
      decide
    intro place range origin found _
    rw [both, getElem?_zipIdx] at found
    obtain ⟨_, _, same⟩ := Option.map_eq_some_iff.mp found
    cases same
    rw [Nat.zero_add]

theorem signed_proof_streams_iff_proved :
    provedRequest.WellFormed ∧
    ∃ state sent, (∀ streamsFirst,
        provedRequest.deliver RecordCiphers.transcript sampleKeys 1 streamsFirst =
          .ok (state, sent)) ∧
      state.requestProofStreams = [[0x06]] := by
  obtain ⟨state, sent, arrives, signed⟩ := signed_proof_streams_iff RecordCiphers.transcript
    sampleKeys 1 provedRequest provedRequest_wellFormed
    (by rw [provedRequest, sampleSubmission_count]; decide)
  exact ⟨provedRequest_wellFormed, state, sent, arrives, signed.mpr provedRequest_kept⟩

/-- The streams signed for a request lack its only proof stream. -/
theorem late_proof_stream_not_signed :
    (sampleSubmission [lateRange .sensitiveProof] [[0x02]]).WellFormed ∧
    ∃ state sent, (∀ streamsFirst,
        (sampleSubmission [lateRange .sensitiveProof] [[0x02]]).deliver RecordCiphers.transcript
          sampleKeys 1 streamsFirst = .ok (state, sent)) ∧
      state.requestProofStreams ≠
        captureProofStreams [lateRange .sensitiveProof] [[0x02]] := by
  have formed := lateRequest_wellFormed (Or.inr rfl) 0x02
  have fits : 1 + (sampleSubmission [lateRange .sensitiveProof] [[0x02]]).fragmentCount
      sampleKeys ≤ maxUint64 := by
    rw [sampleSubmission_count]
    decide
  obtain ⟨state, sent, arrives, signed⟩ := deliver_signs RecordCiphers.transcript formed fits
  refine ⟨formed, state, sent, arrives, ?_⟩
  intro same
  rw [signed] at same
  have kept := (signedProofStreams_eq_iff formed).mp same
  have early := kept.first _ mem_cons_self rfl
  revert early
  decide

end Submission

end ReclaimTee.Request
