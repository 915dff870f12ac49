/-
The sender's check against any receiver. The receiver may mask each column with
choices of its own and send any proof; the sender accepts exactly when the
combination of each of its columns is the one the proof claims.
-/

import ReclaimTee.Mpc.WireCanonical

namespace ReclaimTee.Mpc

theorem put_inj {first second : Label} : first.put = second.put ↔ first = second := by
  constructor
  · intro same
    rw [← fromBytes_put first, same, fromBytes_put]
  · exact congrArg Label.put

theorem finishExtensionSender_ok_iff {p : Primitives} {state : ExtensionSenderState}
    {proof : ExtensionProof} :
    (∃ sent, (finishExtensionSender p state proof).2 = .ok sent) ↔
      state.used = false ∧ proof.sessionID = state.commitment.sessionID ∧
        proof.transcript = state.challengeTranscript ∧
        state.rows.length = state.commitment.paddedCount ∧
        (∀ col < baseOTCount, state.qChecks.getD col Label.zero =
          wantedCheck state.delta proof.x proof.t col) ∧
        ∃ stop, checkedIndexEnd state.commitment.startIndex state.commitment.count = .ok stop := by
  unfold finishExtensionSender
  cases state.used with
  | true => simp
  | false =>
    simp only [Bool.false_eq_true, if_false, eq_ok_iff, hashSenderOTs, exists_const, not_or, not_not, not_exists, not_and, List.mem_range, put_inj, true_and, and_assoc]
    constructor
    · rintro ⟨sent, session, transcript, complete, checked, stop, fits, _⟩
      exact ⟨session, transcript, complete, checked, stop, fits⟩
    · rintro ⟨session, transcript, complete, checked, stop, fits⟩
      exact ⟨_, session, transcript, complete, checked, stop, fits, rfl⟩

theorem wantedCheck_eq (delta x : Label) (t : List Label) (col : Nat) :
    wantedCheck delta x t col =
      (t.getD col Label.zero).xor (if deltaBit delta col then x else Label.zero) := by
  unfold wantedCheck
  cases deltaBit delta col with
  | false => exact (add_zero (t.getD col Label.zero)).symm
  | true => rfl

theorem finishExtensionSender_again (p : Primitives) (state : ExtensionSenderState)
    (proof other : ExtensionProof) :
    ¬ ∃ sent, (finishExtensionSender p (finishExtensionSender p state proof).1 other).2 =
      .ok sent := by
  rw [finishExtensionSender_ok_iff, not_and]
  intro unused
  unfold finishExtensionSender at unused
  split at unused
  · rename_i used
    rw [used] at unused
    cases unused
  · cases unused

section Started

variable {p : Primitives} {flag : Bool} {rng : RandomSource}
  {selected : Fin baseOTCount → Label} {delta : Label} {epoch cipherMessage : List Byte}
  {commitment : ExtensionCommitment} {state : ExtensionSenderState}
  {challenge : ExtensionChallenge}

def senderCheck (p : Primitives) (selected : Fin baseOTCount → Label) (delta : Label)
    (commitment : ExtensionCommitment) (chi : List Label) (col : Fin baseOTCount) : Label :=
  combination
    (senderColumn p selected delta commitment.sessionID commitment.u
      (commitment.paddedCount / 8) col)
    ((commitment.paddedCount - kosCheckOTs) / 8) chi

theorem senderColumn_sized {u : List Byte} {byteRows : Nat}
    (sized : u.length = baseOTCount * byteRows) (sessionID : SessionID) (col : Fin baseOTCount) :
    (senderColumn p selected delta sessionID u byteRows col).length = byteRows := by
  have own := expandSeed_length p (selected col) sessionID col byteRows
  have read : (column u byteRows col).length = byteRows := by
    have room : (col.val + 1) * byteRows ≤ baseOTCount * byteRows :=
      Nat.mul_le_mul_right _ col.isLt
    rw [Nat.succ_mul] at room
    rw [column, List.length_take, List.length_drop]
    omega
  unfold senderColumn
  split
  · rw [xorBytes_length (own.trans read.symm), own]
  · exact own

theorem startExtensionSender_started
    (started : startExtensionSender p flag rng selected delta epoch cipherMessage commitment =
      .ok (state, challenge)) :
    state.used = false ∧ state.delta = delta ∧
      state.rows.length = state.commitment.paddedCount ∧
      (∃ stop, checkedIndexEnd state.commitment.startIndex state.commitment.count = .ok stop) ∧
      ∀ col : Fin baseOTCount, state.qChecks.getD col Label.zero =
        senderCheck p selected delta commitment challenge.chi col := by
  simp only [startExtensionSender, validateExtensionCommitment, eq_ok_iff, exists_const,
    Prod.mk.injEq, not_not] at started
  obtain ⟨_, ⟨_, _, _, _, padded, counted, same, stop, fits, sized, _, _⟩, random, _, built,
    asked⟩ := started
  subst built asked
  obtain ⟨_, _, rows⟩ := extensionPaddedCount_ok_iff.mp counted
  rw [paddedRows] at rows
  refine ⟨rfl, rfl, ?_, ⟨stop, fits⟩, ?_⟩
  · change (transposeColumns _ _ commitment.paddedCount).length = commitment.paddedCount
    rw [same, rows]
    exact transposeColumns_length ..
  · intro col
    have whole : commitment.u.length = baseOTCount * (commitment.paddedCount / 8) := by
      rw [baseOTCount] at sized ⊢
      omega
    rw [repetitionColumnChecks, getD_range_map, if_pos col.isLt, senderMatrix,
      column_flatten _ (senderColumn_sized whole commitment.sessionID), columnCheck_eq]
    rfl

theorem extensionCheck_exact (proof : ExtensionProof)
    (started : startExtensionSender p flag rng selected delta epoch cipherMessage commitment =
      .ok (state, challenge)) :
    ((∃ sent, (finishExtensionSender p state proof).2 = .ok sent) ↔
      proof.sessionID = state.commitment.sessionID ∧
        proof.transcript = state.challengeTranscript ∧
        ∀ col : Fin baseOTCount, senderCheck p selected delta commitment challenge.chi col =
          (proof.t.getD col Label.zero).xor (if deltaBit delta col then proof.x else Label.zero)) ∧
      (∀ base choices, SelectedBy base delta selected →
        (∀ col, (choices col).length = commitment.paddedCount / 8) →
        commitment.u =
          maskedMatrix p base commitment.sessionID choices (commitment.paddedCount / 8) →
        proof.sessionID = state.commitment.sessionID →
        proof.transcript = state.challengeTranscript →
        (∀ col : Fin baseOTCount, proof.t.getD col Label.zero =
          combination (receiverColumn p base commitment.sessionID (commitment.paddedCount / 8) col)
            ((commitment.paddedCount - kosCheckOTs) / 8) challenge.chi) →
        ((∃ sent, (finishExtensionSender p state proof).2 = .ok sent) ↔
          ∀ col : Fin baseOTCount, deltaBit delta col = true →
            combination (choices col) ((commitment.paddedCount - kosCheckOTs) / 8)
              challenge.chi = proof.x)) ∧
      ∀ other, ¬ ∃ sent,
        (finishExtensionSender p (finishExtensionSender p state proof).1 other).2 = .ok sent := by
  obtain ⟨unused, same, complete, fits, checks⟩ := startExtensionSender_started started
  have accepted : (∃ sent, (finishExtensionSender p state proof).2 = .ok sent) ↔
      proof.sessionID = state.commitment.sessionID ∧
        proof.transcript = state.challengeTranscript ∧
        ∀ col : Fin baseOTCount, senderCheck p selected delta commitment challenge.chi col =
          (proof.t.getD col Label.zero).xor
            (if deltaBit delta col then proof.x else Label.zero) := by
    rw [finishExtensionSender_ok_iff, same]
    simp only [unused, complete, fits, true_and, and_true, Fin.forall_iff, ← checks, wantedCheck_eq]
  refine ⟨accepted, ?_, finishExtensionSender_again p state proof⟩
  intro base choices chosen lengths masked session transcript honest
  rw [accepted]
  simp only [session, transcript, true_and]
  apply forall_congr'
  intro col
  have own := receiverColumn_length p base commitment.sessionID (commitment.paddedCount / 8) col
  rw [senderCheck, masked, senderColumn_masked chosen commitment.sessionID lengths, honest,
    Label.xor_eq_add]
  cases deltaBit delta col with
  | false =>
    simp only [Bool.false_eq_true, false_implies, iff_true]
    exact (add_zero _).symm
  | true =>
    simp only [if_true, true_implies]
    rw [combination_xorBytes (own.trans (lengths col).symm), add_right_inj]

theorem extensionCheck_exact_sample :
    ∃ state challenge,
      startExtensionSender samplePrimitives true countingSource sampleSelected sampleDelta
        sampleEpoch sampleCipherMessage
        (honestCommitment samplePrimitives sampleBase sampleEpoch sampleCipherMessage
          sampleSession 7 129 (List.replicate 48 1)) = .ok (state, challenge) ∧
      ∀ x t, (∃ sent, (finishExtensionSender samplePrimitives state
          { sessionID := sampleSession
            transcript := challenge.transcript
            x := x
            t := t }).2 = .ok sent) ↔
        ∀ col : Fin baseOTCount, senderCheck samplePrimitives sampleSelected sampleDelta
          (honestCommitment samplePrimitives sampleBase sampleEpoch sampleCipherMessage
            sampleSession 7 129 (List.replicate 48 1)) challenge.chi col =
          (t.getD col Label.zero).xor (if deltaBit sampleDelta col then x else Label.zero) := by
  have started := startExtensionSender_eq sampleBase
    (@sample_accepted 7 129 (by decide) (by decide) (by decide)) true sampleSelected
    (show sampleDelta ≠ Label.zero by decide) (show (List.replicate 48 (1 : Byte)).length = _ by decide)
    (show readFull countingSource 0 32 = .ok ((List.range 32).map (BitVec.ofNat 8)) by
      decide +kernel)
  refine ⟨_, _, started, ?_⟩
  intro x t
  rw [(extensionCheck_exact _ started).1]
  exact ⟨fun accepted => accepted.2.2, fun checked => ⟨rfl, rfl, checked⟩⟩

end Started

end ReclaimTee.Mpc
