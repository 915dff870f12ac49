/-
The wire formats together: canonical codecs, exact sizes, and the decoders of
an expected batch, which accept within the production limit the frames of the
general decoders that carry the expected session, start and count.
-/

import ReclaimTee.Mpc.WireCanonical

namespace ReclaimTee.Mpc

/-! ### Sizes -/

theorem extensionCommitment_metadata {data : List Byte} {commitment : ExtensionCommitment}
    (parsed : unmarshalExtensionCommitment data = .ok commitment) :
    slice data 0 4 = ascii "KOC2" ∧ slice data 4 36 = commitment.sessionID.toList ∧
      ofBigEndian (slice data 36 44) = commitment.startIndex ∧
      ofBigEndian (slice data 44 48) = commitment.count ∧
      ∃ padded stop, extensionPaddedCount commitment.count = .ok padded ∧
        checkedIndexEnd commitment.startIndex commitment.count = .ok stop ∧
        data.length = extensionCommitmentHeaderSize + baseOTCount * padded / 8 := by
  simp only [unmarshalExtensionCommitment, eq_ok_iff, passed_iff] at parsed
  obtain ⟨long, tag, padded, counted, _, stop, ended, whole, rfl⟩ := parsed
  have header : 116 ≤ data.length := long
  exact ⟨tag, (toList_array_slice).symm, rfl, rfl, padded, stop, counted, ended, whole⟩

theorem precomputeCommitment_wireSize {data cipher : List Byte} {commitment : ExtensionCommitment}
    (read : unmarshalPrecomputeCommitment data = .ok (cipher, commitment)) :
    precomputeCommitmentWireSize commitment.count = .ok data.length := by
  simp only [unmarshalPrecomputeCommitment, eq_ok_iff] at read
  obtain ⟨_, _, _, framing, _, parsed, _, _, same⟩ := read
  cases same
  obtain ⟨_, _, _, _, padded, _, counted, _, length⟩ := extensionCommitment_metadata parsed
  rw [List.length_drop] at length
  simp only [precomputeCommitmentWireSize, eq_ok_iff]
  refine ⟨padded, counted, ?_⟩
  omega

theorem extensionChallenge_metadata {p : Primitives} {data : List Byte}
    {challenge : ExtensionChallenge} (read : unmarshalExtensionChallenge p data = .ok challenge) :
    slice data 0 4 = ascii "KCH2" ∧ slice data 4 36 = challenge.sessionID.toList ∧
      ofBigEndian (slice data 100 104) = challenge.chi.length ∧
      data.length = extensionChallengeHeaderSize + challenge.chi.length * 16 := by
  simp only [unmarshalExtensionChallenge, eq_ok_iff, passed_iff] at read
  obtain ⟨⟨long, tag⟩, _, _, _, whole, _, rfl⟩ := read
  have atLeast : 104 ≤ data.length := long
  rw [labelsFromBytes_length]
  exact ⟨tag, (toList_array_slice).symm, rfl, whole⟩

theorem extensionProof_length {proof : ExtensionProof} {data : List Byte} (typed : proof.Typed)
    (written : marshalExtensionProof proof = .ok data) : data.length = precomputeProofWireSize := by
  have frame := Except.ok.inj written
  have checks : proof.t.length = baseOTCount := typed
  rw [← frame, precomputeProofWireSize, extensionProofSize]
  simp [checks]
  omega

theorem onlinePayload_length {engine : Except String Engine} {payload : OnlinePayload}
    {data : List Byte} (typed : payload.Typed)
    (written : marshalOnlinePayload engine payload = .ok data) :
    onlinePayloadSize engine = .ok data.length := by
  simp only [marshalOnlinePayload, eq_ok_iff] at written
  obtain ⟨e, compiled, _, tables, _, inputs, rfl⟩ := written
  simp only [onlinePayloadSize, eq_ok_iff]
  refine ⟨e, compiled, ?_⟩
  rw [← typed.outputTranslations]
  simp [payloadHeaderSize, typed.key]
  omega

/-! ### Decoders of an expected batch -/

theorem validatePrecomputeCount_ok_iff {count : Int} {value : Unit} :
    validatePrecomputeCount count = .ok value ↔ 0 < count ∧ count ≤ maxPrecomputeOTs := by
  unfold validatePrecomputeCount
  split
  · simp
    omega
  · simp
    omega

theorem precomputeCommitmentFor_iff (data : List Byte) (expected : PrecomputeBegin)
    (message : List Byte × ExtensionCommitment) :
    unmarshalPrecomputeCommitmentFor data expected = .ok message ↔
      expected.count ≤ maxPrecomputeOTs ∧ unmarshalPrecomputeCommitment data = .ok message ∧
        message.2.sessionID = expected.sessionID ∧ message.2.startIndex = expected.startIndex ∧
        message.2.count = expected.count := by
  simp only [unmarshalPrecomputeCommitmentFor, eq_ok_iff, passed_iff, validatePrecomputeCount_ok_iff]
  constructor
  · rintro ⟨counted, _, _, _, _, _, _, _, ⟨_, _⟩, read, metadata, same⟩
    cases same
    exact ⟨by omega, read, metadata⟩
  · rintro ⟨limited, read, session, start, count⟩
    have size := precomputeCommitment_wireSize read
    have generic := read
    simp only [unmarshalPrecomputeCommitment, eq_ok_iff, passed_iff] at generic
    obtain ⟨⟨_, tag⟩, ⟨cipherSize, _⟩, _, parsed, _, _, same⟩ := generic
    cases same
    rw [cipherSize] at parsed
    obtain ⟨nested, nestedSession, nestedStart, nestedCount, padded, stop, counted, ended, _⟩ :=
      extensionCommitment_metadata parsed
    rw [slice_drop] at nested nestedSession nestedStart nestedCount
    rw [start, count] at ended
    rw [count] at counted size
    have positive := (extensionPaddedCount_ok_iff.mp counted).1
    exact ⟨by omega, stop, ended, data.length, size, rfl, ⟨tag, cipherSize, nested⟩,
      ⟨nestedSession.trans (congrArg Vector.toList session), nestedStart.trans start,
        nestedCount.trans count⟩, _, read, ⟨session, start, count⟩, rfl⟩

theorem extensionChallengeCount_fits {count padded : Nat}
    (counted : extensionPaddedCount count = .ok padded) :
    extensionChallengeCount padded % 2 ^ 32 = extensionChallengeCount padded := by
  have small := padded_fits counted
  rw [extensionChallengeCount]
  omega

theorem extensionChallengeFor_iff (p : Primitives) (data : List Byte) (session : SessionID)
    (otCount : Int) (challenge : ExtensionChallenge) :
    unmarshalExtensionChallengeFor p data session otCount = .ok challenge ↔
      otCount ≤ maxPrecomputeOTs ∧ unmarshalExtensionChallenge p data = .ok challenge ∧
        challenge.sessionID = session ∧
        ∃ padded, extensionPaddedCount otCount = .ok padded ∧
          challenge.chi.length = extensionChallengeCount padded := by
  simp only [unmarshalExtensionChallengeFor, precomputeChallengeWireSize, eq_ok_iff, passed_iff,
    validatePrecomputeCount_ok_iff]
  constructor
  · rintro ⟨⟨positive, limited⟩, _, _, _, _, padded, counted, coefficients, _, read, sameSession, rfl⟩
    obtain ⟨count, rfl⟩ := Int.eq_ofNat_of_zero_le (Int.le_of_lt positive)
    obtain ⟨_, _, number, _⟩ := extensionChallenge_metadata read
    refine ⟨limited, read, sameSession, padded, counted, ?_⟩
    rw [← number, ← extensionChallengeCount_fits counted]
    exact coefficients
  · rintro ⟨limited, read, sameSession, padded, counted, coefficients⟩
    obtain ⟨tag, nestedSession, number, length⟩ := extensionChallenge_metadata read
    have positive : 0 < otCount := by
      unfold extensionPaddedCount at counted
      rw [bind_eq_ok_iff] at counted
      obtain ⟨_, inBounds, _⟩ := counted
      have passed := rejectIf_eq_ok_iff.mp inBounds
      omega
    obtain ⟨count, rfl⟩ := Int.eq_ofNat_of_zero_le (Int.le_of_lt positive)
    refine ⟨⟨positive, limited⟩, data.length, ⟨padded, counted, ?_⟩, rfl,
      ⟨tag, nestedSession.trans (congrArg Vector.toList sameSession)⟩, padded, counted, ?_, challenge,
      read, sameSession, rfl⟩
    · rw [length, coefficients]
    · rw [number, coefficients, extensionChallengeCount_fits counted]

theorem extensionProofFor_iff (data : List Byte) (session : SessionID) (proof : ExtensionProof) :
    unmarshalExtensionProofFor data session = .ok proof ↔
      unmarshalExtensionProof data = .ok proof ∧ proof.sessionID = session := by
  simp only [unmarshalExtensionProofFor, unmarshalExtensionProof, eq_ok_iff, passed_iff]
  constructor
  · rintro ⟨⟨_, _, sameSession⟩, header, rfl⟩
    refine ⟨⟨header, rfl⟩, ?_⟩
    rw [sameSession]
    exact array_toList session
  · rintro ⟨⟨⟨length, tag⟩, rfl⟩, sameSession⟩
    have long : 36 ≤ data.length := by
      rw [length, extensionProofSize]
      omega
    have read := toList_array_slice long (show 36 - 4 = 32 by decide)
    have sameBytes : array 32 (slice data 4 36) = session := sameSession
    rw [sameBytes] at read
    exact ⟨⟨length, tag, read.symm⟩, ⟨length, tag⟩, rfl⟩

/-! ### The wire formats -/

structure WireFormats (p : Primitives) (engine : Except String Engine) : Prop where
  precomputeBegin :
    Canonical (fun _ => True) (marshalPrecomputeBegin p) (unmarshalPrecomputeBegin p)
  baseSetup : ∀ session, Canonical (fun _ => True) (marshalPrecomputeBaseSetup session)
    (unmarshalPrecomputeBaseSetup · session)
  baseChoices : ∀ session, Canonical (fun _ => True) (marshalPrecomputeBaseChoices session)
    (unmarshalPrecomputeBaseChoices · session)
  commitment : Canonical (fun _ => True) marshalExtensionCommitment unmarshalExtensionCommitment
  framedCommitment : Canonical (fun _ => True)
    (fun message : List Byte × ExtensionCommitment =>
      marshalPrecomputeCommitment message.1 message.2)
    unmarshalPrecomputeCommitment
  challenge : Canonical (fun challenge => challenge.chi.length ≤ maxChallengeCount)
    (marshalExtensionChallenge p) (unmarshalExtensionChallenge p)
  proof : Canonical ExtensionProof.Typed marshalExtensionProof unmarshalExtensionProof
  payload : Canonical OnlinePayload.Typed (marshalOnlinePayload engine)
    (unmarshalOnlinePayload engine)
  corrections : Canonical (fun _ => True) marshalChoiceCorrections unmarshalChoiceCorrections
  masks : Canonical (fun _ => True) marshalOTMasks unmarshalOTMasks
  labels : Canonical (fun _ => True) marshalOutputLabels unmarshalOutputLabels
  commitmentSize : ∀ cipher commitment data, marshalPrecomputeCommitment cipher commitment = .ok data →
    precomputeCommitmentWireSize commitment.count = .ok data.length
  challengeSize : ∀ (count : Int) padded challenge data, extensionPaddedCount count = .ok padded →
    challenge.chi.length = extensionChallengeCount padded →
    marshalExtensionChallenge p challenge = .ok data →
    precomputeChallengeWireSize count = .ok data.length
  proofSize : ∀ proof data, proof.Typed → marshalExtensionProof proof = .ok data →
    data.length = precomputeProofWireSize
  payloadSize : ∀ payload data, payload.Typed → marshalOnlinePayload engine payload = .ok data →
    onlinePayloadSize engine = .ok data.length
  commitmentFor : ∀ data expected message,
    unmarshalPrecomputeCommitmentFor data expected = .ok message ↔
      expected.count ≤ maxPrecomputeOTs ∧ unmarshalPrecomputeCommitment data = .ok message ∧
        message.2.sessionID = expected.sessionID ∧ message.2.startIndex = expected.startIndex ∧
        message.2.count = expected.count
  challengeFor : ∀ data session (otCount : Int) challenge,
    unmarshalExtensionChallengeFor p data session otCount = .ok challenge ↔
      otCount ≤ maxPrecomputeOTs ∧ unmarshalExtensionChallenge p data = .ok challenge ∧
        challenge.sessionID = session ∧
        ∃ padded, extensionPaddedCount otCount = .ok padded ∧
          challenge.chi.length = extensionChallengeCount padded
  proofFor : ∀ data session proof, unmarshalExtensionProofFor data session = .ok proof ↔
    unmarshalExtensionProof data = .ok proof ∧ proof.sessionID = session

/-- The compiled circuit has fewer than 2^32 table rows, as its gates can address. -/
theorem wire_formats_canonical (p : Primitives) (engine : Except String Engine)
    (small : ∀ e, engine = .ok e → e.tableCount < 2 ^ 32) : WireFormats p engine where
  precomputeBegin := precomputeBegin_canonical p
  baseSetup := baseMessage_canonical rfl
  baseChoices := baseMessage_canonical rfl
  commitment := extensionCommitment_canonical
  framedCommitment := precomputeCommitment_canonical
  challenge := extensionChallenge_canonical p
  proof := extensionProof_canonical
  payload := onlinePayload_canonical small
  corrections := choiceCorrections_canonical
  masks := otMasks_canonical
  labels := outputLabels_canonical
  commitmentSize cipher commitment data written :=
    precomputeCommitment_wireSize
      (precomputeCommitment_canonical.decodes (cipher, commitment) data trivial written)
  challengeSize := by
    intro count padded challenge data counted coefficients written
    simp only [marshalExtensionChallenge, eq_ok_iff] at written
    obtain ⟨_, _, _, _, rfl⟩ := written
    simp only [precomputeChallengeWireSize, eq_ok_iff]
    refine ⟨padded, counted, ?_⟩
    rw [extensionChallengeHeaderSize]
    simp
    omega
  proofSize _ _ := extensionProof_length
  payloadSize _ _ := onlinePayload_length
  commitmentFor := precomputeCommitmentFor_iff
  challengeFor := extensionChallengeFor_iff p
  proofFor := extensionProofFor_iff

theorem wire_formats_canonical_sample :
    WireFormats samplePrimitives (.ok { gates := [], numWires := 1280, tableCount := 2 }) :=
  wire_formats_canonical _ _ (by
    intro e same
    cases same
    decide)

/-- One coefficient more than the largest extension needs. -/
def longChallenge : ExtensionChallenge where
  sessionID := Vector.replicate 32 0
  commitment := Vector.replicate 32 0
  transcript := Vector.replicate 32 0
  chi := List.replicate (maxChallengeCount + 1) Label.zero

/-- A batch one larger than production makes. -/
def largeBatch : ExtensionCommitment where
  sessionID := Vector.replicate 32 0
  startIndex := 0
  count := maxPrecomputeOTs + 1
  paddedCount := paddedRows (maxPrecomputeOTs + 1)
  epochHash := Vector.replicate 32 0
  transcript := Vector.replicate 32 0
  u := List.replicate (baseOTCount * paddedRows (maxPrecomputeOTs + 1) / 8) 0

def largeBatchCipher : List Byte :=
  ascii "BOT1" ++ (List.replicate 32 0 ++ List.replicate (baseOTCount * 32) 0)

/-- A long challenge is written and not read back; a frame of a large batch is read by
the general decoder and refused by the one that expects just this batch. -/
theorem limits_not_shared :
    (∃ data, marshalExtensionChallenge samplePrimitives longChallenge = .ok data ∧
      ∀ value, unmarshalExtensionChallenge samplePrimitives data ≠ .ok value) ∧
    ∃ data, unmarshalPrecomputeCommitment data = .ok (largeBatchCipher, largeBatch) ∧
      ∀ message, unmarshalPrecomputeCommitmentFor data
        { sessionID := largeBatch.sessionID
          startIndex := largeBatch.startIndex
          count := largeBatch.count
          epoch := ascii "kos2:sample" } ≠ .ok message := by
  constructor
  · have written : ∃ data, marshalExtensionChallenge samplePrimitives longChallenge = .ok data := by
      simp only [marshalExtensionChallenge, eq_ok_iff]
      exact ⟨_, (), by simp [longChallenge], (), not_not.mpr rfl, rfl⟩
    obtain ⟨data, written⟩ := written
    refine ⟨data, written, ?_⟩
    intro value read
    have bounded := ((extensionChallenge_canonical samplePrimitives).exact data value read).1
    obtain ⟨_, _, number, _⟩ := extensionChallenge_metadata read
    simp only [marshalExtensionChallenge, eq_ok_iff] at written
    obtain ⟨_, _, _, _, frame⟩ := written
    have count : slice data 100 104 = bigEndian 4 longChallenge.chi.length := by
      rw [← frame]
      simp [slice_here, slice_past]
    have coefficients : longChallenge.chi.length = maxChallengeCount + 1 := List.length_replicate
    rw [count, coefficients, ofBigEndian_bigEndian (by decide)] at number
    omega
  · have counted : extensionPaddedCount largeBatch.count =
        .ok (paddedRows (maxPrecomputeOTs + 1)) :=
      extensionPaddedCount_eq (by decide) (by decide)
    have extension : ∃ data, marshalExtensionCommitment largeBatch = .ok data := by
      simp only [marshalExtensionCommitment, eq_ok_iff]
      exact ⟨_, _, counted, (), not_not.mpr rfl, _,
        checkedIndexEnd_ok_iff.mpr ⟨by decide, by decide, rfl⟩, (),
        not_not.mpr List.length_replicate, rfl⟩
    have cipher : validateBaseCipherForTranscript largeBatchCipher largeBatch.sessionID =
        .ok () := by
      decide +kernel
    have written : ∃ data, marshalPrecomputeCommitment largeBatchCipher largeBatch = .ok data := by
      obtain ⟨data, extension⟩ := extension
      simp only [marshalPrecomputeCommitment, eq_ok_iff]
      exact ⟨_, (), cipher, data, extension, rfl⟩
    obtain ⟨data, written⟩ := written
    refine ⟨data, precomputeCommitment_canonical.decodes (_, _) data trivial written, ?_⟩
    intro message read
    have limited := ((precomputeCommitmentFor_iff _ _ _).mp read).1
    exact Nat.not_succ_le_self _ limited

end ReclaimTee.Mpc
