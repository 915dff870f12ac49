/-
What the acceptance of a ServerHello says about the message. The extension loop
ends quietly at a truncated extension, a later key share replaces an earlier one,
and the version extension is not read.
-/

import ReclaimTee.Tls.HelloRetry

namespace ReclaimTee.Tls

open ReclaimTee.Mpc List

/-! ### The extensions the loop passes -/

theorem scanExtensions_bytes (fuel : Nat) (data : List Byte) :
    encodeExtensions (scanExtensions fuel data).1 ++ (scanExtensions fuel data).2 = data := by
  induction fuel generalizing data with
  | zero => rfl
  | succ fuel ih =>
    rw [scanExtensions]
    split
    · rfl
    rename_i enough
    obtain ⟨header, body⟩ := not_or.mp enough
    have bytes := field_of_bytes (Nat.le_of_not_lt header)
    rw [encodeExtensions, flatMap_cons, ← encodeExtensions, append_assoc, ih, HelloExtension.encode]
    rw [length_take_of_le (Nat.le_of_not_lt body), append_assoc, append_assoc, take_append_drop]
    exact bytes.symm

/-! ### Well-formed messages -/

def behindCompression (data : List Byte) : List Byte :=
  (data.drop (39 + (data.getD 38 0).toNat)).drop 3

/-- The message ends with an extension block of whole extensions without a repeated
type, one selects TLS 1.3, and the key share is for the group and the key. -/
structure CompleteServerHello {PublicKey Secret : Type} (env : HelloEnvironment PublicKey Secret)
    (data : List Byte) (group : Nat) (publicKey : PublicKey)
    (extensions : List HelloExtension) : Prop where
  filled : behindCompression data =
    bigEndian 2 (encodeExtensions extensions).length ++ encodeExtensions extensions
  fits : (encodeExtensions extensions).length < 65536
  distinct : (extensions.map HelloExtension.extType).Nodup
  version : ∃ extension ∈ extensions,
    extension.extType = extensionSupportedVersions ∧ extension.data = bigEndian 2 versionTLS13
  share : ∃ extension ∈ extensions, ∃ key : List Byte,
    extension.extType = extensionKeyShare ∧
      extension.data = bigEndian 2 group ++ (bigEndian 2 key.length ++ key) ∧
      env.newPublicKey group key = some publicKey

/-- What the parser leaves unchecked: the block is the rest of the message, the loop
leaves no bytes, meets no type twice and meets TLS 1.3, and key shares end with their keys. -/
def LoopLeavesNothing (data : List Byte) : Prop :=
  let block := (behindCompression data).drop 2
  let scan := scanExtensions block.length block
  block.length = ofBigEndian ((behindCompression data).take 2) ∧ scan.2 = [] ∧
    (scan.1.map HelloExtension.extType).Nodup ∧
    (∃ extension ∈ scan.1, extension.extType = extensionSupportedVersions ∧
      extension.data = bigEndian 2 versionTLS13) ∧
    ∀ extension ∈ scan.1, extension.extType = extensionKeyShare →
      extension.data.length = 4 + ofBigEndian ((extension.data.drop 2).take 2)

instance (data : List Byte) : Decidable (LoopLeavesNothing data) := by
  unfold LoopLeavesNothing
  infer_instance

section Accepted

variable {PublicKey Secret : Type} {env : HelloEnvironment PublicKey Secret} {config : HelloConfig}
  {data : List Byte} {group : Nat} {publicKey : PublicKey}

theorem CompleteServerHello.leavesNothing {extensions : List HelloExtension}
    (complete : CompleteServerHello env data group publicKey extensions) :
    LoopLeavesNothing data := by
  have block : (behindCompression data).drop 2 = encodeExtensions extensions := by
    rw [complete.filled]
    exact drop_left' (bigEndian_length 2 _)
  have declared : ofBigEndian ((behindCompression data).take 2) =
      (encodeExtensions extensions).length := by
    rw [complete.filled, take_left' (bigEndian_length 2 _), ofBigEndian_bigEndian complete.fits]
  unfold LoopLeavesNothing
  dsimp only
  rw [block, scanExtensions_encode extensions (Nat.le_refl _)]
  refine ⟨declared.symm, rfl, complete.distinct, complete.version, ?_⟩
  intro extension member type
  obtain ⟨share, inside, key, shareType, bytes, _⟩ := complete.share
  have same : extension = share :=
    inj_on_of_nodup_map complete.distinct member inside (type.trans shareType.symm)
  have short : key.length < 65536 := by
    have whole := share.data_length
    rw [bytes, length_append, length_append] at whole
    omega
  rw [same, bytes, drop_left' (bigEndian_length 2 _), take_left' (bigEndian_length 2 _),
    ofBigEndian_bigEndian short]
  simp
  omega

theorem parseKeyShare_exact {bytes : List Byte}
    (read : parseKeyShare env bytes = .ok (group, publicKey))
    (exact : bytes.length = 4 + ofBigEndian ((bytes.drop 2).take 2)) :
    ∃ key, bytes = bigEndian 2 group ++ (bigEndian 2 key.length ++ key) ∧
      env.newPublicKey group key = some publicKey := by
  unfold parseKeyShare at read
  simp only [bind_eq_ok_iff] at read
  obtain ⟨_, _, _, _, _, _, read⟩ := read
  have all : (bytes.drop 4).take (ofBigEndian ((bytes.drop 2).take 2)) = bytes.drop 4 :=
    take_of_length_le (by rw [length_drop]; omega)
  rw [all] at read
  split at read <;> cases read
  rename_i key found
  have keyLength : (bytes.drop 4).length = ofBigEndian ((bytes.drop 2).take 2) := by
    rw [length_drop]
    omega
  refine ⟨bytes.drop 4, ?_, found⟩
  rw [keyLength]
  exact field_of_bytes (by omega)

theorem LoopLeavesNothing.complete {cipherSuite : Nat}
    (accepted : parseServerHello env config data = .ok (cipherSuite, group, publicKey))
    (nothing : LoopLeavesNothing data) :
    ∃ extensions, CompleteServerHello env data group publicKey extensions := by
  obtain ⟨declared, unread, distinct, version, shares⟩ := nothing
  have bytes := scanExtensions_bytes ((behindCompression data).drop 2).length
    ((behindCompression data).drop 2)
  rw [unread, append_nil] at bytes
  generalize (scanExtensions _ ((behindCompression data).drop 2)).1 = extensions at *
  rw [← bytes] at declared
  unfold parseServerHello at accepted
  simp only [eq_ok_iff] at accepted
  obtain ⟨_, _, _, _, _, long, _, _, ⟨_, _⟩, parsed, result⟩ := accepted
  cases result
  have block : ((data.drop (39 + (data.getD 38 0).toNat)).drop 5) = encodeExtensions extensions := by
    rw [bytes, behindCompression, @drop_drop _ 2 3]
  have read := wrapError_eq_ok_iff.mp parsed
  unfold parseServerHelloExtensions at read
  rw [block, ← behindCompression, ← declared, take_length, bind_eq_ok_iff] at read
  obtain ⟨found, loop, read⟩ := read
  have two : ((behindCompression data).take 2).length = 2 := by
    apply length_take_of_le
    rw [behindCompression, length_drop]
    omega
  have header := bigEndian_ofBigEndian ((behindCompression data).take 2)
  rw [two, ← declared] at header
  rw [parseExtensions_eq, scanExtensions_encode _ (Nat.le_refl _)] at loop
  rcases (keyShares_of_readExtensions loop).2 with
    none | ⟨share, member, type, found, shareRead, same⟩
  · subst none
    cases read
  · subst same
    cases read
    obtain ⟨key, keyBytes, keyRead⟩ := parseKeyShare_exact shareRead (shares share member type)
    exact ⟨extensions,
      { filled := by rw [header, bytes, take_append_drop]
        fits := declared ▸ ofBigEndian_take_two _
        distinct := distinct
        version := version
        share := ⟨share, member, key, type, keyBytes, keyRead⟩ }⟩

/-- An accepted ServerHello is well formed exactly when the loop leaves nothing. -/
theorem accepted_serverHello_complete_iff {cipherSuite : Nat}
    (accepted : parseServerHello env config data = .ok (cipherSuite, group, publicKey)) :
    (∃ extensions, CompleteServerHello env data group publicKey extensions) ↔
      LoopLeavesNothing data := by
  constructor
  · rintro ⟨extensions, complete⟩
    exact complete.leavesNothing
  · exact LoopLeavesNothing.complete accepted

end Accepted

theorem sampleServerHello_complete :
    ∃ extensions, CompleteServerHello sampleHelloEnvironment sampleServerHello.encode 0x17 [4, 5, 6]
      extensions :=
  (accepted_serverHello_complete_iff
    (show parseServerHello sampleHelloEnvironment sampleHelloConfig sampleServerHello.encode =
      .ok (0x1301, 0x17, [4, 5, 6]) by decide +kernel)).mpr (by decide +kernel)

/-- A key share and a truncated version extension. -/
def truncatedServerHello : List Byte :=
  handshakeMessage 2 (bigEndian 2 versionTLS12 ++ (replicate 32 1 ++ (0 ::
    (bigEndian 2 0x1301 ++ (0 :: (bigEndian 2 14 ++ (sampleShare.encode ++ [0, 43, 0])))))))

theorem truncatedServerHello_accepted :
    parseServerHello sampleHelloEnvironment sampleHelloConfig truncatedServerHello =
        .ok (0x1301, 0x17, [4, 5, 6]) ∧
      ∀ extensions, ¬ CompleteServerHello sampleHelloEnvironment truncatedServerHello 0x17 [4, 5, 6]
        extensions := by
  refine ⟨by decide +kernel, fun extensions complete => ?_⟩
  exact absurd complete.leavesNothing (by decide +kernel)

end ReclaimTee.Tls
