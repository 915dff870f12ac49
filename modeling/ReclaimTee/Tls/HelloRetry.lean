/-
The handshake against RFC 8446, from the ClientHello to the key schedule. After a
HelloRetryRequest the schedule never starts, because behind the synthetic message
the transcript has the HelloRetryRequest.
-/

import ReclaimTee.Tls.Hello

namespace ReclaimTee.Tls

open ReclaimTee.Mpc List

/-! ### Messages as the server writes them -/

def handshakeMessage (type : Byte) (body : List Byte) : List Byte :=
  type :: (bigEndian 3 body.length ++ body)

structure HelloExtension where
  extType : Nat
  data : List Byte
  extType_lt : extType < 65536
  data_length : data.length < 65536

def HelloExtension.encode (extension : HelloExtension) : List Byte :=
  bigEndian 2 extension.extType ++ (bigEndian 2 extension.data.length ++ extension.data)

def encodeExtensions (extensions : List HelloExtension) : List Byte :=
  extensions.flatMap HelloExtension.encode

structure HelloMessage where
  random : List Byte
  sessionId : List Byte
  cipherSuite : Nat
  extensions : List HelloExtension
  random_length : random.length = 32
  sessionId_length : sessionId.length ≤ 32
  cipherSuite_lt : cipherSuite < 65536
  extensions_length : (encodeExtensions extensions).length < 65536

namespace HelloMessage

def suiteAndExtensions (hello : HelloMessage) : List Byte :=
  bigEndian 2 hello.cipherSuite ++
    (0 :: (bigEndian 2 (encodeExtensions hello.extensions).length ++
      encodeExtensions hello.extensions))

def body (hello : HelloMessage) : List Byte :=
  bigEndian 2 versionTLS12 ++
    (hello.random ++ (BitVec.ofNat 8 hello.sessionId.length ::
      (hello.sessionId ++ hello.suiteAndExtensions)))

def encode (hello : HelloMessage) : List Byte :=
  handshakeMessage 2 hello.body

end HelloMessage

/-! ### Reading a message back -/

theorem getD_append_cons {α : Type} {front back : List α} {item fallback : α} {index : Nat}
    (length : front.length = index) : (front ++ item :: back).getD index fallback = item := by
  subst length
  simp

theorem drop_header (type : Byte) (body : List Byte) : (handshakeMessage type body).drop 4 = body :=
  @List.drop_left' _ (type :: bigEndian 3 body.length) _ _ rfl

theorem header_length {type : Byte} {body rest : List Byte} (fits : body.length < 256 ^ 3) :
    ofBigEndian (((handshakeMessage type body ++ rest).drop 1).take 3) = body.length := by
  have written : ((handshakeMessage type body ++ rest).drop 1).take 3 =
      bigEndian 3 body.length := by
    exact take_left' (bigEndian_length 3 _)
  rw [written, ofBigEndian_bigEndian fits]

theorem handshakeMessage_length (type : Byte) (body : List Byte) :
    (handshakeMessage type body).length = 4 + body.length := by
  simp [handshakeMessage]
  omega

namespace HelloMessage

variable (hello : HelloMessage)

theorem suiteAndExtensions_length :
    hello.suiteAndExtensions.length = 5 + (encodeExtensions hello.extensions).length := by
  simp [suiteAndExtensions]
  omega

theorem body_length :
    hello.body.length =
      40 + hello.sessionId.length + (encodeExtensions hello.extensions).length := by
  have suffix := hello.suiteAndExtensions_length
  have random := hello.random_length
  simp [body]
  omega

theorem sessionIDLen : (BitVec.ofNat 8 hello.sessionId.length).toNat = hello.sessionId.length := by
  have short := hello.sessionId_length
  rw [BitVec.toNat_ofNat]
  omega

attribute [local simp] random_length drop_append drop_of_length_le getElem?_append

theorem body_random : (hello.body.drop 2).take 32 = hello.random := by
  simp [body]

theorem body_sessionIDLen : hello.body.getD 34 0 = BitVec.ofNat 8 hello.sessionId.length := by
  simp [body]

theorem body_afterLen : hello.body.drop 35 = hello.sessionId ++ hello.suiteAndExtensions := by
  simp [body]

theorem suite_read (rest : List Byte) :
    ofBigEndian ((hello.suiteAndExtensions ++ rest).take 2) = hello.cipherSuite := by
  have written : (hello.suiteAndExtensions ++ rest).take 2 = bigEndian 2 hello.cipherSuite := by
    exact take_left' (bigEndian_length 2 _)
  rw [written, ofBigEndian_bigEndian hello.cipherSuite_lt]

theorem extensions_read (rest : List Byte) :
    ofBigEndian (((hello.suiteAndExtensions ++ rest).drop 3).take 2) =
        (encodeExtensions hello.extensions).length ∧
      (hello.suiteAndExtensions ++ rest).drop 5 = encodeExtensions hello.extensions ++ rest := by
  have read := @ofBigEndian_bigEndian 2 _ hello.extensions_length
  simp [suiteAndExtensions, read]

theorem encode_session (rest : List Byte) :
    (hello.encode ++ rest).getD 38 0 = BitVec.ofNat 8 hello.sessionId.length ∧
      (hello.encode ++ rest).drop (39 + hello.sessionId.length) =
        hello.suiteAndExtensions ++ rest := by
  rw [← drop_drop]
  simp [encode, handshakeMessage, body]

end HelloMessage

theorem detectHello_encode {ε : Type} (retry : ε) (failed : String → ε) (hello : HelloMessage)
    (suite : isTLS13CipherSuite hello.cipherSuite = true) :
    detectHello retry failed hello.encode =
      if hello.random = hrrRandom then .error retry
      else .ok (versionTLS13, hello.cipherSuite) := by
  have payload : hello.encode.drop 4 = hello.body := drop_header 2 hello.body
  have size := hello.body_length
  have whole : hello.encode.length = 4 + hello.body.length := handshakeMessage_length 2 hello.body
  have version : ofBigEndian (hello.body.take 2) = versionTLS12 := by
    rfl
  have session : hello.body.getD 34 0 = _ := hello.body_sessionIDLen
  have read := hello.suite_read []
  rw [append_nil] at read
  have compression : hello.suiteAndExtensions.getD 2 0 = 0 :=
    getD_append_cons (bigEndian_length 2 _)
  have type : ¬ messageType hello.encode ≠ .serverHello := not_not.mpr rfl
  unfold detectHello
  rw [rejectIf_of_not (by omega), rejectIf_of_not type]
  simp only [payload, version, hello.body_random, session, hello.sessionIDLen, hello.body_afterLen,
    drop_left, read, compression]
  rw [rejectIf_of_not (by omega), rejectIf_of_not (not_not.mpr (Eq.refl versionTLS12))]
  by_cases retried : hello.random = hrrRandom
  · rw [if_pos retried, rejectIf, if_pos retried]
    rfl
  · rw [if_neg retried, rejectIf_of_not retried, rejectIf_of_not (by rw [length_append]; omega), rejectIf_of_not (not_not.mpr (Eq.refl 0)), ok_bind, if_pos suite]
    rfl

/-! ### Fields with a type and a length -/

theorem read_field {bytes data rest : List Byte} {type : Nat}
    (written : bytes = bigEndian 2 type ++ (bigEndian 2 data.length ++ (data ++ rest)))
    (typeFits : type < 65536) (dataFits : data.length < 65536) :
    ofBigEndian (bytes.take 2) = type ∧ ofBigEndian ((bytes.drop 2).take 2) = data.length ∧
      bytes.drop 4 = data ++ rest ∧ 4 ≤ bytes.length := by
  have behind : bytes.drop 4 = data ++ rest := by
    rw [written, ← append_assoc]
    exact drop_left' (by simp)
  refine ⟨?_, ?_, behind, ?_⟩
  · rw [written, take_left' (bigEndian_length 2 _), ofBigEndian_bigEndian typeFits]
  · rw [written, drop_left' (bigEndian_length 2 _), take_left' (bigEndian_length 2 _),
      ofBigEndian_bigEndian dataFits]
  · simp [written]
    omega

theorem field_of_bytes {bytes : List Byte} (header : 4 ≤ bytes.length) :
    bytes = bigEndian 2 (ofBigEndian (bytes.take 2)) ++
      (bigEndian 2 (ofBigEndian ((bytes.drop 2).take 2)) ++ bytes.drop 4) := by
  have type := bigEndian_ofBigEndian (bytes.take 2)
  have length := bigEndian_ofBigEndian ((bytes.drop 2).take 2)
  rw [length_take_of_le (by omega)] at type
  rw [length_take_of_le (by rw [length_drop]; omega)] at length
  rw [type, length, ← drop_drop (i := 2) (j := 2), take_append_drop, take_append_drop]

theorem ofBigEndian_take_two (bytes : List Byte) : ofBigEndian (bytes.take 2) < 65536 :=
  Nat.lt_of_lt_of_le (ofBigEndian_lt _) (Nat.pow_le_pow_right (by decide) (length_take_le 2 bytes))

/-! ### Extensions -/

section Extensions

/-- The whole extensions at the front of the data, and the bytes behind them. -/
def scanExtensions : Nat → List Byte → List HelloExtension × List Byte
  | 0, data => ([], data)
  | fuel + 1, data =>
    let extLen := ofBigEndian ((data.drop 2).take 2)
    let body := data.drop 4
    if data.length < 4 ∨ body.length < extLen then ([], data)
    else
      let later := scanExtensions fuel (body.drop extLen)
      ({ extType := ofBigEndian (data.take 2)
         data := body.take extLen
         extType_lt := ofBigEndian_take_two data
         data_length :=
          Nat.lt_of_le_of_lt (length_take_le extLen body) (ofBigEndian_take_two (data.drop 2)) } ::
        later.1, later.2)

theorem scanExtensions_encode (extensions : List HelloExtension) {fuel : Nat}
    (enough : (encodeExtensions extensions).length ≤ fuel) :
    scanExtensions fuel (encodeExtensions extensions) = (extensions, []) := by
  induction extensions generalizing fuel with
  | nil =>
    cases fuel with
    | zero | succ => rfl
  | cons extension others ih =>
    have written : encodeExtensions (extension :: others) =
        bigEndian 2 extension.extType ++ (bigEndian 2 extension.data.length ++
          (extension.data ++ encodeExtensions others)) := by
      simp [encodeExtensions, HelloExtension.encode]
    obtain ⟨type, length, body, header⟩ :=
      read_field written extension.extType_lt extension.data_length
    have size := congrArg List.length body
    rw [length_drop, length_append] at size
    obtain ⟨less, rfl⟩ := Nat.exists_eq_add_of_le' (Nat.le_trans (by omega : 1 ≤ _) enough)
    have whole : ¬ ((encodeExtensions (extension :: others)).length < 4 ∨
        (extension.data ++ encodeExtensions others).length < extension.data.length) := by
      rw [length_append]
      omega
    have shorter : (encodeExtensions others).length ≤ less := by omega
    rw [scanExtensions]
    simp only [type, length, body, if_neg whole, take_left, drop_left, ih shorter]

variable {PublicKey Secret : Type} (env : HelloEnvironment PublicKey Secret)
  (config : HelloConfig)

def readExtension (keyShare : Option (Nat × PublicKey)) (extension : HelloExtension) :
    Except String (Option (Nat × PublicKey)) :=
  if extension.extType = extensionKeyShare then do
    let found ← wrapError "failed to parse key_share" (parseKeyShare env extension.data)
    return some found
  else if extension.extType = extensionALPN then do
    checkALPN config extension.data
    return keyShare
  else
    return keyShare

theorem parseExtensions_eq (fuel : Nat) (data : List Byte) (keyShare : Option (Nat × PublicKey)) :
    parseExtensions env config fuel data keyShare =
      (scanExtensions fuel data).1.foldlM (readExtension env config) keyShare := by
  induction fuel generalizing data keyShare with
  | zero => rfl
  | succ fuel ih =>
    rw [parseExtensions, scanExtensions]
    split
    · rfl
    simp only [foldlM_cons, readExtension, ih]
    split
    · rw [bind_assoc]
      rfl
    · split
      · rw [bind_assoc]
        rfl
      · rfl

theorem readExtensions_plain {extensions : List HelloExtension}
    {keyShare : Option (Nat × PublicKey)}
    (plain : ∀ extension ∈ extensions,
      extension.extType ≠ extensionKeyShare ∧ extension.extType ≠ extensionALPN) :
    extensions.foldlM (readExtension env config) keyShare = .ok keyShare := by
  induction extensions with
  | nil => rfl
  | cons extension others ih =>
    obtain ⟨notShare, notALPN⟩ := plain extension mem_cons_self
    rw [foldlM_cons, readExtension, if_neg notShare, if_neg notALPN]
    exact ih fun other member => plain other (mem_cons_of_mem _ member)

variable {env config}

theorem readExtension_ok {extension : HelloExtension} {keyShare next : Option (Nat × PublicKey)}
    (read : readExtension env config keyShare extension = .ok next) :
    (∃ result, parseKeyShare env extension.data = .ok result ∧ next = some result) ∧
        extension.extType = extensionKeyShare ∨
      next = keyShare ∧ extension.extType ≠ extensionKeyShare := by
  unfold readExtension at read
  split at read
  · next type =>
    obtain ⟨result, first, same⟩ := bind_eq_ok_iff.mp read
    exact .inl ⟨⟨result, wrapError_eq_ok_iff.mp first, (Except.ok.inj same).symm⟩, type⟩
  · next type =>
    split at read
    · obtain ⟨_, _, same⟩ := bind_eq_ok_iff.mp read
      exact .inr ⟨(Except.ok.inj same).symm, type⟩
    · exact .inr ⟨(Except.ok.inj read).symm, type⟩

/-- A key share that cannot be parsed fails the whole list, and the share found is one
of the list. -/
theorem keyShares_of_readExtensions {extensions : List HelloExtension}
    {keyShare found : Option (Nat × PublicKey)}
    (read : extensions.foldlM (readExtension env config) keyShare = .ok found) :
    (∀ share ∈ extensions, share.extType = extensionKeyShare →
        ∃ result, parseKeyShare env share.data = .ok result) ∧
      (found = keyShare ∨ ∃ share ∈ extensions, share.extType = extensionKeyShare ∧
        ∃ result, parseKeyShare env share.data = .ok result ∧ found = some result) := by
  induction extensions generalizing keyShare with
  | nil => exact ⟨nofun, .inl (Except.ok.inj read).symm⟩
  | cons extension others ih =>
    obtain ⟨next, first, read⟩ := bind_eq_ok_iff.mp read
    obtain ⟨parsed, from_list⟩ := ih read
    have later : ∀ {start}, next = start → found = start ∨
        ∃ share ∈ extension :: others, share.extType = extensionKeyShare ∧
          ∃ result, parseKeyShare env share.data = .ok result ∧ found = some result := by
      rintro _ rfl
      exact from_list.imp_right fun ⟨share, member, read⟩ =>
        ⟨share, mem_cons_of_mem _ member, read⟩
    rcases readExtension_ok first with ⟨⟨result, shareRead, same⟩, type⟩ | ⟨same, type⟩
    · refine ⟨forall_mem_cons.mpr ⟨fun _ => ⟨result, shareRead⟩, parsed⟩, .inr ?_⟩
      rcases later same with found | other
      · exact ⟨extension, mem_cons_self, type, result, shareRead, found⟩
      · exact other
    · exact ⟨forall_mem_cons.mpr ⟨fun shareType => absurd shareType type, parsed⟩, later same⟩

variable (env config)

/-- The ServerHello parser reads the message at the front of its input, whatever
follows. -/
theorem parseServerHello_encode (hello : HelloMessage) (rest : List Byte) :
    parseServerHello env config (hello.encode ++ rest) = (do
      let (group, publicKey) ← wrapError "failed to parse extensions"
        (parseServerHelloExtensions env config (encodeExtensions hello.extensions))
      return (hello.cipherSuite, group, publicKey)) := by
  have size := hello.body_length
  have whole : hello.encode.length = 4 + hello.body.length := handshakeMessage_length 2 hello.body
  obtain ⟨session, after⟩ := hello.encode_session rest
  obtain ⟨length, extensions⟩ := hello.extensions_read rest
  have long : 5 ≤ (hello.suiteAndExtensions ++ rest).length := by
    rw [length_append, hello.suiteAndExtensions_length]
    omega
  unfold parseServerHello
  rw [rejectIf_of_not (by rw [length_append]; omega), ok_bind]
  simp only [session, hello.sessionIDLen, after, hello.suite_read, length, extensions, take_left]
  rw [rejectIf_of_not (by omega), ok_bind, rejectIf_of_not (by omega), ok_bind,
    rejectIf_of_not (by simp), ok_bind]

theorem continueTLS13Handshake_message (type : Byte) {body : List Byte}
    (fits : body.length < 256 ^ 3) (hello : HelloMessage) (rest : List Byte) (cipherSuite : Nat) :
    continueTLS13Handshake env config
        (handshakeMessage type body ++ (hello.encode ++ rest)) cipherSuite = (do
      let (_, group, serverPublicKey) ← wrapError "failed to parse ServerHello for TLS 1.3"
        (parseServerHello env config (hello.encode ++ rest))
      match env.ecdh group serverPublicKey with
      | none => .error "ECDH failed"
      | some sharedSecret =>
        return {
          cipherSuite := cipherSuite
          sharedSecret := sharedSecret
          transcript := handshakeMessage type body ++ (hello.encode ++ rest)
          finishedTranscript := handshakeMessage type body ++ (hello.encode ++ rest) }) := by
  have first := handshakeMessage_length type body
  have second : hello.encode.length = 4 + hello.body.length := handshakeMessage_length 2 hello.body
  have long : 4 ≤ (handshakeMessage type body ++ (hello.encode ++ rest)).length := by
    rw [length_append]
    omega
  unfold continueTLS13Handshake
  simp only [if_pos long, header_length fits]
  rw [rejectIf_of_not (by rw [length_append, length_append]; omega), drop_left' first]
  rfl

end Extensions

/-! ### Answers of the server -/

structure HelloMessage.Carries (hello : HelloMessage) (allowed : List Nat)
    (keyShare : List Byte) : Prop where
  distinct : (hello.extensions.map HelloExtension.extType).Nodup
  allowed : ∀ extension ∈ hello.extensions, extension.extType ∈ allowed
  version : ∃ extension ∈ hello.extensions,
    extension.extType = extensionSupportedVersions ∧ extension.data = bigEndian 2 versionTLS13
  keyShare : ∃ extension ∈ hello.extensions,
    extension.extType = extensionKeyShare ∧ extension.data = keyShare

/-- The answer of a server, with or without a retry. -/
structure Answer where
  retryRequest : Option HelloMessage
  serverHello : HelloMessage
  group : Nat
  keyExchange : List Byte
  cookie : Option (List Byte)

def extensionPreSharedKey : Nat := 41

def Answer.share (answer : Answer) : List Byte :=
  bigEndian 2 answer.group ++ (bigEndian 2 answer.keyExchange.length ++ answer.keyExchange)

def Answer.messages (answer : Answer) : List (List Byte) :=
  (answer.retryRequest.map HelloMessage.encode).toList ++ [answer.serverHello.encode]

/-- A well-formed HelloRetryRequest for the group and the suite of the answer. -/
structure Answer.RetryWellFormed (answer : Answer) (request : HelloMessage) : Prop where
  random : request.random = hrrRandom
  suite : request.cipherSuite = answer.serverHello.cipherSuite
  extensions : request.Carries [extensionSupportedVersions, extensionCookie, extensionKeyShare]
    (bigEndian 2 answer.group)
  cookie : ∀ extension ∈ request.extensions, extension.extType = extensionCookie →
    ∃ cookie, answer.cookie = some cookie ∧ cookie ≠ [] ∧
      extension.data = bigEndian 2 cookie.length ++ cookie

section Handshake

variable {PublicKey Secret : Type} (env : HelloEnvironment PublicKey Secret)
  (config : HelloConfig)

/-- The server stays within the offer, and its share is a key of the group. -/
structure Answer.WellFormed (answer : Answer) : Prop where
  version : versionTLS13 ∈ config.supportedVersions
  suite : isTLS13CipherSuite answer.serverHello.cipherSuite = true
  offeredSuite : answer.serverHello.cipherSuite ∈ config.offeredCipherSuites
  offeredGroup : answer.group ∈ supportedCurves
  random : answer.serverHello.random ≠ hrrRandom
  extensions : answer.serverHello.Carries
    [extensionPreSharedKey, extensionSupportedVersions, extensionKeyShare] answer.share
  key : ∃ publicKey secret, env.newPublicKey answer.group answer.keyExchange = some publicKey ∧
    env.ecdh answer.group publicKey = some secret
  retry : ∀ request, answer.retryRequest = some request → answer.RetryWellFormed request

/-- The transcript of RFC 8446, section 4.4.1. -/
def Answer.transcript (answer : Answer) (clientHello : List Byte) : List Byte :=
  match answer.retryRequest with
  | none => clientHello ++ answer.serverHello.encode
  | some request =>
    let hash := (getHashForCipherSuite env answer.serverHello.cipherSuite).getD id
    messageHash (hash clientHello) ++ (request.encode ++
      (env.clientHelloForHRR answer.group (answer.cookie.getD []) ++ answer.serverHello.encode))

/-- The key schedule starts from the share of the last ServerHello, and that
transcript is what all later hashes extend. -/
structure Answer.Followed (answer : Answer) (clientHello : List Byte)
    (keys : HandshakeKeys Secret) : Prop where
  cipherSuite : keys.cipherSuite = answer.serverHello.cipherSuite
  sharedSecret : ∃ publicKey, env.newPublicKey answer.group answer.keyExchange = some publicKey ∧
    env.ecdh answer.group publicKey = some keys.sharedSecret
  transcript : keys.transcript = answer.transcript env clientHello
  finishedTranscript : keys.finishedTranscript = answer.transcript env clientHello

variable {env config} {answer : Answer}

theorem parseKeyShare_share (offered : answer.group ∈ supportedCurves)
    (short : answer.share.length < 65536) {publicKey : PublicKey}
    (key : env.newPublicKey answer.group answer.keyExchange = some publicKey) :
    parseKeyShare env answer.share = .ok (answer.group, publicKey) := by
  have size : answer.share.length = 4 + answer.keyExchange.length := by
    simp [Answer.share]
    omega
  have groupFits : answer.group < 256 ^ 2 := by
    have bounded : ∀ group ∈ supportedCurves, group < 256 ^ 2 := by decide
    exact bounded answer.group offered
  have lengthFits : answer.keyExchange.length < 256 ^ 2 := by omega
  have written : answer.share = bigEndian 2 answer.group ++
      (bigEndian 2 answer.keyExchange.length ++ (answer.keyExchange ++ [])) := by
    rw [append_nil]
    rfl
  obtain ⟨group, length, fourth, _⟩ := read_field written groupFits lengthFits
  rw [append_nil] at fourth
  unfold parseKeyShare
  rw [rejectIf_of_not (by omega)]
  simp only [group, length, fourth, take_length]
  rw [rejectIf_of_not (not_not.mpr offered), rejectIf_of_not (by omega), key]
  rfl

theorem parseServerHelloExtensions_share (wellFormed : answer.WellFormed env config)
    {publicKey : PublicKey}
    (key : env.newPublicKey answer.group answer.keyExchange = some publicKey) :
    parseServerHelloExtensions env config (encodeExtensions answer.serverHello.extensions) =
      .ok (answer.group, publicKey) := by
  have carries := wellFormed.extensions
  obtain ⟨share, member, type, data⟩ := carries.keyShare
  obtain ⟨before, after, split⟩ := append_of_mem member
  have plain : ∀ extension ∈ before ++ after,
      extension.extType ≠ extensionKeyShare ∧ extension.extType ≠ extensionALPN := by
    intro extension inside
    have distinct := carries.distinct
    rw [split, map_append, map_cons, nodup_middle, nodup_cons, ← map_append, type] at distinct
    refine ⟨fun same => distinct.1 (same ▸ mem_map_of_mem inside), fun same => ?_⟩
    have permitted := carries.allowed extension
      (by rw [split]; exact perm_middle.mem_iff.mpr (mem_cons_of_mem _ inside))
    rw [same] at permitted
    exact absurd permitted (by decide)
  have short : answer.share.length < 65536 := data ▸ share.data_length
  unfold parseServerHelloExtensions
  rw [parseExtensions_eq, scanExtensions_encode _ (Nat.le_refl _), split, foldlM_append,
    readExtensions_plain env config fun _ member => plain _ (mem_append_left _ member), ok_bind, foldlM_cons, readExtension, if_pos type,
    data, parseKeyShare_share wellFormed.offeredGroup short key]
  exact congrArg (· >>= _) (readExtensions_plain env config fun _ member => plain _ (mem_append_right _ member))

theorem handshake_hello {type : Byte} {body : List Byte} (fits : body.length < 256 ^ 3)
    (wellFormed : answer.WellFormed env config) (none : answer.retryRequest = none) :
    ∃ keys, handshake env config (handshakeMessage type body) answer.messages = .ok (.tls13 keys) ∧
      answer.Followed env (handshakeMessage type body) keys := by
  obtain ⟨publicKey, secret, key, shared⟩ := wellFormed.key
  have transcript : answer.transcript env (handshakeMessage type body) =
      handshakeMessage type body ++ answer.serverHello.encode := by
    unfold Answer.transcript
    rw [none]
  have messages : answer.messages = [answer.serverHello.encode] := by
    rw [Answer.messages, none]
    rfl
  have negotiated : checkNegotiated config versionTLS13 answer.serverHello.cipherSuite = .ok () := by
    unfold checkNegotiated
    rw [rejectIf_of_not (not_not.mpr wellFormed.version), ok_bind,
      rejectIf_of_not fun refused => refused.2 wellFormed.offeredSuite]
  have derived := continueTLS13Handshake_message env config type fits answer.serverHello []
    answer.serverHello.cipherSuite
  rw [parseServerHello_encode, parseServerHelloExtensions_share wellFormed key, append_nil,
    wrapError_ok, ok_bind] at derived
  dsimp only [pure, Except.pure] at derived
  rw [wrapError_ok, ok_bind] at derived
  rw [shared] at derived
  refine ⟨{
    cipherSuite := answer.serverHello.cipherSuite
    sharedSecret := secret
    transcript := handshakeMessage type body ++ answer.serverHello.encode
    finishedTranscript := handshakeMessage type body ++ answer.serverHello.encode }, ?_, ?_⟩
  · have detected : detectTLSVersion answer.serverHello.encode =
        .ok (versionTLS13, answer.serverHello.cipherSuite) := by
      rw [detectTLSVersion, detectHello_encode _ _ _ wellFormed.suite, if_neg wellFormed.random]
    rw [messages]
    unfold handshake
    dsimp only
    rw [detected]
    dsimp only
    rw [negotiated, derived]
    rfl
  · exact
      { cipherSuite := rfl
        sharedSecret := ⟨publicKey, key, shared⟩
        transcript := transcript.symm
        finishedTranscript := transcript.symm }

/-- The transcript of a retry starts with a hash of both first messages. -/
theorem updateTranscriptForHRR_transcript {transcript hrrData updated : List Byte}
    {cipherSuite : Nat}
    (update : updateTranscriptForHRR env transcript hrrData cipherSuite = .ok updated) :
    ∃ digest, digest.length < 256 ^ 3 ∧ updated = handshakeMessage 254 digest ++ hrrData ∧
      (getHashForCipherSuite env cipherSuite).map (fun hash => hash transcript) = some digest := by
  unfold updateTranscriptForHRR at update
  split at update <;> cases update
  rename_i hash found
  refine ⟨hash transcript, ?_, rfl, by rw [found]; rfl⟩
  unfold getHashForCipherSuite at found
  split at found
  · cases found
    rw [env.sha256_length]
    decide
  · split at found <;> cases found
    rw [env.sha384_length]
    decide

theorem parseServerHello_retry {request : HelloMessage}
    (wellFormed : answer.RetryWellFormed request) (rest : List Byte)
    (result : Nat × Nat × PublicKey) :
    parseServerHello env config (request.encode ++ rest) ≠ .ok result := by
  intro parsed
  rw [parseServerHello_encode, bind_eq_ok_iff] at parsed
  obtain ⟨_, extensions, _⟩ := parsed
  have read := wrapError_eq_ok_iff.mp extensions
  unfold parseServerHelloExtensions at read
  rw [bind_eq_ok_iff] at read
  obtain ⟨_, loop, _⟩ := read
  obtain ⟨share, member, type, data⟩ := wellFormed.extensions.keyShare
  rw [parseExtensions_eq, scanExtensions_encode _ (Nat.le_refl _)] at loop
  obtain ⟨found, shareRead⟩ := (keyShares_of_readExtensions loop).1 share member type
  unfold parseKeyShare at shareRead
  rw [data, bind_eq_ok_iff] at shareRead
  obtain ⟨_, long, _⟩ := shareRead
  have tooShort := rejectIf_eq_ok_iff.mp long
  rw [bigEndian_length] at tooShort
  exact tooShort (by decide)

theorem handleHelloRetryRequestFlow_fails {request : HelloMessage}
    (wellFormed : answer.RetryWellFormed request) (transcript : List Byte)
    (messages : List (List Byte)) (keys : HandshakeKeys Secret) :
    handleHelloRetryRequestFlow env config transcript request.encode messages ≠ .ok keys := by
  intro completed
  unfold handleHelloRetryRequestFlow at completed
  rw [bind_eq_ok_iff] at completed
  obtain ⟨⟨group, suite, cookie⟩, _, completed⟩ := completed
  simp only [bind_eq_ok_iff] at completed
  obtain ⟨_, _, _, _, updated, update, newClientHello, _, completed⟩ := completed
  cases messages with
  | nil => cases completed
  | cons realServerHello rest =>
    rw [bind_eq_ok_iff] at completed
    obtain ⟨⟨version, finalSuite⟩, _, completed⟩ := completed
    simp only [bind_eq_ok_iff] at completed
    obtain ⟨_, _, _, _, _, _, completed⟩ := completed
    obtain ⟨digest, fits, same, _⟩ :=
      updateTranscriptForHRR_transcript (wrapError_eq_ok_iff.mp update)
    -- Behind the synthetic message stands the HelloRetryRequest.
    rw [same, append_assoc, append_assoc,
      continueTLS13Handshake_message env config 254 fits, bind_eq_ok_iff] at completed
    obtain ⟨result, parsed, _⟩ := completed
    exact parseServerHello_retry wellFormed _ result (wrapError_eq_ok_iff.mp parsed)

theorem handshake_retry_fails {request : HelloMessage} (clientHello : List Byte)
    (wellFormed : answer.WellFormed env config) (retried : answer.retryRequest = some request)
    (negotiated : Negotiated Secret) :
    handshake env config clientHello answer.messages ≠ .ok negotiated := by
  have retry := wellFormed.retry request retried
  have detected : detectTLSVersion request.encode = .error .helloRetryRequest := by
    rw [detectTLSVersion, detectHello_encode _ _ _ (retry.suite.symm ▸ wellFormed.suite),
      if_pos retry.random]
  have messages : answer.messages = [request.encode, answer.serverHello.encode] := by
    rw [Answer.messages, retried]
    rfl
  intro completed
  rw [messages] at completed
  unfold handshake at completed
  dsimp only at completed
  rw [detected] at completed
  rw [bind_eq_ok_iff] at completed
  obtain ⟨keys, flow, _⟩ := completed
  exact handleHelloRetryRequestFlow_fails retry _ _ keys flow

/-- The key schedule starts as RFC 8446 has it exactly in the handshakes without a
retry. -/
theorem handshake_follows_rfc_iff (env : HelloEnvironment PublicKey Secret)
    (config : HelloConfig) (body : List Byte) (fits : body.length < 256 ^ 3) (answer : Answer)
    (wellFormed : answer.WellFormed env config) :
    (∃ keys, handshake env config (handshakeMessage 1 body) answer.messages = .ok (.tls13 keys) ∧
        answer.Followed env (handshakeMessage 1 body) keys) ↔
      answer.retryRequest = none := by
  constructor
  · rintro ⟨keys, completed, _⟩
    cases retried : answer.retryRequest with
    | none => rfl
    | some request => exact absurd completed (handshake_retry_fails _ wellFormed retried _)
  · exact handshake_hello fits wellFormed

end Handshake

/-! ### A server that asks for another group -/

/-- Hashes of the right size, and keys that are their own bytes. -/
def sampleHelloEnvironment : HelloEnvironment (List Byte) (List Byte) where
  sha256 data := bigEndian 32 data.length
  sha384 data := bigEndian 48 data.length
  sha256_length data := bigEndian_length 32 data.length
  sha384_length data := bigEndian_length 48 data.length
  newPublicKey _ key := some key
  ecdh _ publicKey := some publicKey
  clientHelloForHRR group cookie := handshakeMessage 1 (bigEndian 2 group ++ cookie)

def sampleHelloConfig : HelloConfig where
  supportedVersions := [versionTLS13, versionTLS12]
  offeredCipherSuites := [0x1303, 0x1302, 0x1301]
  nextProtos := []

def sampleVersions : HelloExtension where
  extType := extensionSupportedVersions
  data := bigEndian 2 versionTLS13
  extType_lt := by decide
  data_length := by decide

def sampleShare : HelloExtension where
  extType := extensionKeyShare
  data := [0x00, 0x17, 0x00, 0x03, 0x04, 0x05, 0x06]
  extType_lt := by decide
  data_length := by decide

def sampleGroup : HelloExtension where
  extType := extensionKeyShare
  data := [0x00, 0x17]
  extType_lt := by decide
  data_length := by decide

def sampleServerHello : HelloMessage where
  random := List.replicate 32 1
  sessionId := List.replicate 32 2
  cipherSuite := 0x1301
  extensions := [sampleVersions, sampleShare]
  random_length := by decide
  sessionId_length := by decide
  cipherSuite_lt := by decide
  extensions_length := by decide

def sampleRetryRequest : HelloMessage where
  random := hrrRandom
  sessionId := List.replicate 32 2
  cipherSuite := 0x1301
  extensions := [sampleVersions, sampleGroup]
  random_length := by decide
  sessionId_length := by decide
  cipherSuite_lt := by decide
  extensions_length := by decide

def sampleAnswer (retryRequest : Option HelloMessage) : Answer where
  retryRequest := retryRequest
  serverHello := sampleServerHello
  group := 0x0017
  keyExchange := [0x04, 0x05, 0x06]
  cookie := none

theorem sampleServerHello_carries :
    sampleServerHello.Carries [extensionPreSharedKey, extensionSupportedVersions, extensionKeyShare]
      (sampleAnswer none).share where
  distinct := by decide
  allowed := by decide
  version := ⟨sampleVersions, by simp [sampleServerHello], rfl, rfl⟩
  keyShare := ⟨sampleShare, by simp [sampleServerHello], rfl, by decide⟩

theorem sampleRetryRequest_wellFormed (answer : Answer)
    (same : answer.serverHello = sampleServerHello) (group : answer.group = 0x0017) :
    answer.RetryWellFormed sampleRetryRequest where
  random := rfl
  suite := by rw [same]; rfl
  extensions :=
    { distinct := by decide
      allowed := by decide
      version := ⟨sampleVersions, by simp [sampleRetryRequest], rfl, rfl⟩
      keyShare := ⟨sampleGroup, by simp [sampleRetryRequest], rfl, by rw [group]; decide⟩ }
  cookie := by
    have noCookie : ∀ extension ∈ sampleRetryRequest.extensions,
        extension.extType ≠ extensionCookie := by decide
    intro extension member type
    exact absurd type (noCookie extension member)

theorem sampleAnswer_wellFormed (retryRequest : Option HelloMessage)
    (requested : ∀ request, retryRequest = some request → request = sampleRetryRequest) :
    (sampleAnswer retryRequest).WellFormed sampleHelloEnvironment sampleHelloConfig where
  version := by decide
  suite := rfl
  offeredSuite :=
    (by decide : sampleServerHello.cipherSuite ∈ sampleHelloConfig.offeredCipherSuites)
  offeredGroup := (by decide : 0x0017 ∈ supportedCurves)
  random := (by decide : sampleServerHello.random ≠ hrrRandom)
  extensions := sampleServerHello_carries
  key := ⟨_, _, rfl, rfl⟩
  retry := by
    intro request retried
    rw [requested request retried]
    exact sampleRetryRequest_wellFormed _ rfl rfl

theorem handshake_follows_rfc_iff_sample :
    ∃ keys, handshake sampleHelloEnvironment sampleHelloConfig (handshakeMessage 1 [7])
        (sampleAnswer none).messages = .ok (.tls13 keys) ∧
      (sampleAnswer none).Followed sampleHelloEnvironment (handshakeMessage 1 [7]) keys :=
  (handshake_follows_rfc_iff sampleHelloEnvironment sampleHelloConfig [7] (by decide)
    (sampleAnswer none) (sampleAnswer_wellFormed none (by simp))).mpr rfl

theorem retried_handshake_fails :
    (sampleAnswer (some sampleRetryRequest)).WellFormed sampleHelloEnvironment sampleHelloConfig ∧
      handshake sampleHelloEnvironment sampleHelloConfig (handshakeMessage 1 [7])
          (sampleAnswer (some sampleRetryRequest)).messages =
        .error ("failed to parse ServerHello for TLS 1.3: failed to parse extensions: " ++
          "failed to parse key_share: key_share data too short") := by
  refine ⟨sampleAnswer_wellFormed _ fun request retried => (Option.some.inj retried).symm, ?_⟩
  decide +kernel

end ReclaimTee.Tls
