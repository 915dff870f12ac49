/-
From the ClientHello to the key schedule. After a HelloRetryRequest the flat
transcript is rewritten and a second answer is read. Key pairs, curves, hashes and
the second ClientHello are parameters, and a TLS 1.2 outcome ends the model.
-/

import ReclaimTee.Tls.ServerFlight

namespace ReclaimTee.Tls

open ReclaimTee.Mpc

def versionTLS12 : Nat := 0x0303

def versionTLS13 : Nat := 0x0304

def isTLS13CipherSuite (cipherSuite : Nat) : Bool :=
  [0x1301, 0x1302, 0x1303].contains cipherSuite

def isTLS12CipherSuite (cipherSuite : Nat) : Bool :=
  [0x009c, 0x009d, 0xc02f, 0xc02b, 0xc030, 0xc02c, 0xcca8, 0xcca9,
    0x002f, 0x0035, 0x003c, 0x003d, 0xc009, 0xc00a, 0xc013, 0xc014,
    0xc023, 0xc024, 0xc027, 0xc028].contains cipherSuite

def extensionALPN : Nat := 16

def extensionSupportedVersions : Nat := 43

def extensionCookie : Nat := 44

def extensionKeyShare : Nat := 51

/-- The groups of the ClientHello: X25519, secp256r1, secp384r1, secp521r1. -/
def supportedCurves : List Nat :=
  [0x001d, 0x0017, 0x0018, 0x0019]

def hrrRandom : List Byte :=
  [0xcf, 0x21, 0xad, 0x74, 0xe5, 0x9a, 0x61, 0x11, 0xbe, 0x1d, 0x8c, 0x02, 0x1e, 0x65, 0xb8, 0x91,
    0xc2, 0xa2, 0x11, 0x16, 0x7a, 0xbb, 0x8c, 0x5e,
    0x07, 0x9e, 0x09, 0xe2, 0xc8, 0xa8, 0x33, 0x9c]

def downgradeSentinelTLS12 : List Byte :=
  [0x44, 0x4f, 0x57, 0x4e, 0x47, 0x52, 0x44, 0x01]

structure HelloConfig where
  supportedVersions : List Nat
  offeredCipherSuites : List Nat
  nextProtos : List (List Byte)

/-- The hashes, the curves with the client's private keys, and the second
ClientHello for a group and a cookie. -/
structure HelloEnvironment (PublicKey Secret : Type) where
  sha256 : List Byte → List Byte
  sha384 : List Byte → List Byte
  sha256_length : ∀ data, (sha256 data).length = 32
  sha384_length : ∀ data, (sha384 data).length = 48
  newPublicKey : Nat → List Byte → Option PublicKey
  ecdh : Nat → PublicKey → Option Secret
  clientHelloForHRR : Nat → List Byte → List Byte

/-- What the key schedule starts from, and the transcript the flight continues. -/
structure HandshakeKeys (Secret : Type) where
  cipherSuite : Nat
  sharedSecret : Secret
  transcript : List Byte
  finishedTranscript : List Byte
deriving DecidableEq, Repr

inductive Negotiated (Secret : Type) where
  | tls12 (cipherSuite : Nat) (transcript : List Byte)
  | tls13 (keys : HandshakeKeys Secret)
deriving DecidableEq, Repr

/-- An error with the text of its caller in front. -/
def wrapError {α : Type} (context : String) : Except String α → Except String α
  | .ok value => .ok value
  | .error message => .error (context ++ ": " ++ message)

@[simp] theorem wrapError_ok {α : Type} (context : String) (value : α) :
    wrapError context (.ok value) = .ok value := rfl

theorem wrapError_eq_ok_iff {α : Type} {context : String} {result : Except String α} {value : α} :
    wrapError context result = .ok value ↔ result = .ok value := by
  cases result with
  | ok found => exact Iff.rfl
  | error message =>
    constructor
    · nofun
    · nofun

/-! ### Version detection -/

inductive HelloError where
  | helloRetryRequest
  | failed (message : String)
deriving DecidableEq, Repr

/-- The two detections differ in what they make of a HelloRetryRequest. -/
def detectHello {ε : Type} (retry : ε) (failed : String → ε) (serverHello : List Byte) :
    Except ε (Nat × Nat) := do
  rejectIf (serverHello.length < 4) (failed "ServerHello too short")
  rejectIf (messageType serverHello ≠ .serverHello)
    (failed "invalid message type: expected ServerHello")
  let payload := serverHello.drop 4
  rejectIf (payload.length < 38) (failed "ServerHello payload too short")
  let legacyVersion := ofBigEndian (payload.take 2)
  rejectIf (legacyVersion ≠ versionTLS12)
    (failed s!"ServerHello has invalid legacy version {legacyVersion}")
  rejectIf ((payload.drop 2).take 32 = hrrRandom) retry
  let sessionIDLen := (payload.getD 34 0).toNat
  let afterLen := payload.drop 35
  rejectIf (afterLen.length < sessionIDLen)
    (failed "ServerHello session ID length exceeds payload")
  let afterSession := afterLen.drop sessionIDLen
  rejectIf (afterSession.length < 3)
    (failed "ServerHello is missing cipher suite or compression method")
  let cipherSuite := ofBigEndian (afterSession.take 2)
  rejectIf (afterSession.getD 2 0 ≠ 0)
    (failed s!"ServerHello selected unsupported compression method {(afterSession.getD 2 0).toNat}")
  if isTLS13CipherSuite cipherSuite then
    return (versionTLS13, cipherSuite)
  else if isTLS12CipherSuite cipherSuite then
    return (versionTLS12, cipherSuite)
  else
    .error (failed s!"unsupported cipher suite: {cipherSuite}")

def detectTLSVersion : List Byte → Except HelloError (Nat × Nat) :=
  detectHello .helloRetryRequest .failed

def detectTLSVersionFromData : List Byte → Except String (Nat × Nat) :=
  detectHello "server sent a second HelloRetryRequest" id

def checkNegotiated (config : HelloConfig) (version cipherSuite : Nat) : Except String Unit := do
  rejectIf (version ∉ config.supportedVersions)
    s!"server negotiated TLS {version}, outside configured range"
  rejectIf (config.offeredCipherSuites ≠ [] ∧ cipherSuite ∉ config.offeredCipherSuites)
    s!"server selected cipher suite {cipherSuite} which was not offered"

def checkDowngradeSentinel (config : HelloConfig) (negotiatedVersion : Nat)
    (serverHello : List Byte) : Except String Unit :=
  if negotiatedVersion ≠ versionTLS12 ∨ versionTLS13 ∉ config.supportedVersions then
    .ok ()
  else do
    rejectIf (serverHello.length < 38) "ServerHello too short to check downgrade sentinel"
    rejectIf ((serverHello.drop 30).take 8 = downgradeSentinelTLS12)
      "TLS 1.3 downgrade detected: server signalled DOWNGRD sentinel while negotiating TLS 1.2"

/-! ### ServerHello -/

variable {PublicKey Secret : Type} (env : HelloEnvironment PublicKey Secret)
  (config : HelloConfig)

def parseKeyShare (data : List Byte) : Except String (Nat × PublicKey) := do
  rejectIf (data.length < 4) "key_share data too short"
  let group := ofBigEndian (data.take 2)
  let keyLen := ofBigEndian ((data.drop 2).take 2)
  rejectIf (group ∉ supportedCurves) s!"unsupported key share group: {group}"
  rejectIf (data.length < 4 + keyLen) "invalid key_share length"
  match env.newPublicKey group ((data.drop 4).take keyLen) with
  | none => .error "failed to parse server public key"
  | some publicKey => return (group, publicKey)

/-- `http/1.1`, offered when nothing is configured. -/
def defaultProtocol : List Byte :=
  [0x68, 0x74, 0x74, 0x70, 0x2f, 0x31, 0x2e, 0x31]

def offeredProtocols : List (List Byte) :=
  if config.nextProtos = [] then [defaultProtocol] else config.nextProtos

/-- A malformed ALPN extension is skipped, a protocol that was not offered is an error. -/
def checkALPN (extData : List Byte) : Except String Unit :=
  let alpnListLen := ofBigEndian (extData.take 2)
  let protoLen := (extData.getD 2 0).toNat
  if extData.length < 2 ∨ extData.length < 2 + alpnListLen ∨ alpnListLen < 2 ∨
      extData.length < 3 + protoLen then
    .ok ()
  else
    let negotiatedProtocol := (extData.drop 3).take protoLen
    rejectIf (negotiatedProtocol ∉ offeredProtocols config)
      s!"ALPN: server selected protocol '{display negotiatedProtocol}' that we didn't offer"

/-- The extensions of a ServerHello; a truncated one ends the list. The fuel is the
number of bytes. -/
def parseExtensions : Nat → List Byte → Option (Nat × PublicKey) →
    Except String (Option (Nat × PublicKey))
  | 0, _, keyShare => .ok keyShare
  | fuel + 1, extensionsData, keyShare =>
    let extType := ofBigEndian (extensionsData.take 2)
    let extLen := ofBigEndian ((extensionsData.drop 2).take 2)
    let body := extensionsData.drop 4
    if extensionsData.length < 4 ∨ body.length < extLen then
      .ok keyShare
    else if extType = extensionKeyShare then do
      let found ← wrapError "failed to parse key_share" (parseKeyShare env (body.take extLen))
      parseExtensions fuel (body.drop extLen) (some found)
    else if extType = extensionALPN then do
      checkALPN config (body.take extLen)
      parseExtensions fuel (body.drop extLen) keyShare
    else
      parseExtensions fuel (body.drop extLen) keyShare

def parseServerHelloExtensions (extensionsData : List Byte) : Except String (Nat × PublicKey) := do
  match ← parseExtensions env config extensionsData.length extensionsData none with
  | none => .error "key_share extension not found"
  | some keyShare => return keyShare

/-- Suite, group and key of the ServerHello at the front of the data. -/
def parseServerHello (data : List Byte) : Except String (Nat × Nat × PublicKey) := do
  rejectIf (data.length < 40) "ServerHello too short"
  let sessionIDLen := (data.getD 38 0).toNat
  let afterSession := data.drop (39 + sessionIDLen)
  rejectIf (afterSession.length < 2) "invalid ServerHello: missing cipher suite"
  let cipherSuite := ofBigEndian (afterSession.take 2)
  rejectIf (afterSession.length < 5) "invalid ServerHello: missing extensions length"
  let extensionsLen := ofBigEndian ((afterSession.drop 3).take 2)
  let extensions := afterSession.drop 5
  rejectIf (extensions.length < extensionsLen)
    s!"invalid ServerHello: extensions length {extensionsLen} exceeds remaining data {extensions.length}"
  let (group, publicKey) ← wrapError "failed to parse extensions"
    (parseServerHelloExtensions env config (extensions.take extensionsLen))
  return (cipherSuite, group, publicKey)

/-- The ServerHello is looked for behind the first message of the transcript. -/
def continueTLS13Handshake (transcript : List Byte) (cipherSuite : Nat) :
    Except String (HandshakeKeys Secret) := do
  let clientHelloLen :=
    if 4 ≤ transcript.length then 4 + ofBigEndian ((transcript.drop 1).take 3) else 0
  rejectIf (transcript.length ≤ clientHelloLen) "transcript too short to contain ServerHello"
  let (_, group, serverPublicKey) ← wrapError "failed to parse ServerHello for TLS 1.3"
    (parseServerHello env config (transcript.drop clientHelloLen))
  match env.ecdh group serverPublicKey with
  | none => .error "ECDH failed"
  | some sharedSecret =>
    return {
      cipherSuite := cipherSuite
      sharedSecret := sharedSecret
      transcript := transcript
      finishedTranscript := transcript }

/-! ### HelloRetryRequest -/

/-- The extensions of a HelloRetryRequest, with the group (zero for none) and the
cookie found so far. The fuel is the number of bytes. -/
def parseRetryExtensions : Nat → List Byte → Nat → Option (List Byte) →
    Except String (Nat × Option (List Byte))
  | _, [], selectedGroup, cookie => .ok (selectedGroup, cookie)
  | 0, _ :: _, selectedGroup, cookie => .ok (selectedGroup, cookie)
  | fuel + 1, extensionsData, selectedGroup, cookie => do
      rejectIf (extensionsData.length < 4) "truncated HelloRetryRequest extension header"
      let extType := ofBigEndian (extensionsData.take 2)
      let extLen := ofBigEndian ((extensionsData.drop 2).take 2)
      let body := extensionsData.drop 4
      rejectIf (body.length < extLen) "HelloRetryRequest extension length exceeds payload"
      let extData := body.take extLen
      if extType = extensionKeyShare then
        rejectIf (selectedGroup ≠ 0 ∨ extData.length ≠ 2)
          "HelloRetryRequest key_share extension is invalid"
        parseRetryExtensions fuel (body.drop extLen) (ofBigEndian extData) cookie
      else if extType = extensionCookie then
        rejectIf (cookie.isSome = true)
          "HelloRetryRequest contains duplicate cookie extensions"
        rejectIf (extData.length < 2) "HelloRetryRequest cookie extension is truncated"
        let cookieLen := ofBigEndian (extData.take 2)
        rejectIf (cookieLen = 0 ∨ cookieLen ≠ extData.length - 2)
          "HelloRetryRequest cookie extension has invalid length"
        parseRetryExtensions fuel (body.drop extLen) selectedGroup (some (extData.drop 2))
      else
        parseRetryExtensions fuel (body.drop extLen) selectedGroup cookie

/-- Group, suite and cookie of a HelloRetryRequest. -/
def parseHelloRetryRequest (hrrData : List Byte) :
    Except String (Nat × Nat × Option (List Byte)) := do
  rejectIf (hrrData.length < 4) "HelloRetryRequest too short"
  rejectIf (messageType hrrData ≠ .serverHello) "invalid message type: expected ServerHello"
  let payload := hrrData.drop 4
  rejectIf (payload.length < 38) "HelloRetryRequest payload too short"
  rejectIf (ofBigEndian (payload.take 2) ≠ versionTLS12)
    "HelloRetryRequest has invalid legacy version"
  rejectIf ((payload.drop 2).take 32 ≠ hrrRandom) "ServerHello is not a HelloRetryRequest"
  let sessionIDLen := (payload.getD 34 0).toNat
  let afterLen := payload.drop 35
  rejectIf (afterLen.length < sessionIDLen)
    "HelloRetryRequest session ID length exceeds payload"
  let afterSession := afterLen.drop sessionIDLen
  rejectIf (afterSession.length < 3) "HelloRetryRequest missing cipher suite"
  let cipherSuite := ofBigEndian (afterSession.take 2)
  rejectIf (afterSession.length < 5) "HelloRetryRequest missing extensions length"
  let extensionsLen := ofBigEndian ((afterSession.drop 3).take 2)
  let extensionsData := afterSession.drop 5
  rejectIf (extensionsData.length ≠ extensionsLen)
    "HelloRetryRequest extensions length does not match payload"
  let (selectedGroup, cookie) ←
    parseRetryExtensions extensionsData.length extensionsData 0 none
  rejectIf (selectedGroup = 0) "HelloRetryRequest missing key_share extension"
  return (selectedGroup, cipherSuite, cookie)

/-- The hash of a suite; the source hashes the transcript at the time of the call. -/
def getHashForCipherSuite (cipherSuite : Nat) : Option (List Byte → List Byte) :=
  if cipherSuite = 0x1301 ∨ cipherSuite = 0x1303 then some env.sha256
  else if cipherSuite = 0x1302 then some env.sha384
  else none

/-- The synthetic message that stands for a hashed message. -/
def messageHash (digest : List Byte) : List Byte :=
  [254] ++ bigEndian 3 digest.length ++ digest

def updateTranscriptForHRR (transcript hrrData : List Byte) (cipherSuite : Nat) :
    Except String (List Byte) :=
  match getHashForCipherSuite env cipherSuite with
  | none => .error s!"HelloRetryRequest selected unsupported cipher suite {cipherSuite}"
  | some hash => .ok (messageHash (hash transcript) ++ hrrData)

def buildClientHelloForHRR (selectedGroup : Nat) (cookie : List Byte) :
    Except String (List Byte) := do
  rejectIf (selectedGroup ∉ supportedCurves)
    s!"unsupported key group in HelloRetryRequest: {selectedGroup}"
  return env.clientHelloForHRR selectedGroup cookie

/-- The retry, with the messages the server still sends. -/
def handleHelloRetryRequestFlow (transcript hrrData : List Byte) (messages : List (List Byte)) :
    Except String (HandshakeKeys Secret) := do
  let (selectedGroup, hrrCipherSuite, cookie) ←
    wrapError "failed to parse HelloRetryRequest" (parseHelloRetryRequest hrrData)
  rejectIf (isTLS13CipherSuite hrrCipherSuite = false)
    s!"HelloRetryRequest selected non-TLS-1.3 cipher suite {hrrCipherSuite}"
  rejectIf (config.offeredCipherSuites ≠ [] ∧ hrrCipherSuite ∉ config.offeredCipherSuites)
    s!"HelloRetryRequest selected cipher suite {hrrCipherSuite} which was not offered"
  let transcript ← wrapError "failed to update transcript for HRR"
    (updateTranscriptForHRR env transcript hrrData hrrCipherSuite)
  let newClientHello ← wrapError "failed to build ClientHello for HRR"
    (buildClientHelloForHRR env selectedGroup (cookie.getD []))
  match messages with
  | [] => .error "failed to read real ServerHello after HRR"
  | realServerHello :: _ =>
    let (negotiatedVersion, cipherSuite) ←
      wrapError "failed to detect TLS version from real ServerHello"
        (detectTLSVersionFromData realServerHello)
    rejectIf (negotiatedVersion ≠ versionTLS13)
      s!"server negotiated TLS {negotiatedVersion} after HelloRetryRequest; HRR is TLS 1.3 only"
    rejectIf (cipherSuite ≠ hrrCipherSuite)
      s!"ServerHello cipher suite {cipherSuite} differs from HelloRetryRequest {hrrCipherSuite}"
    checkNegotiated config negotiatedVersion cipherSuite
    continueTLS13Handshake env config (transcript ++ newClientHello ++ realServerHello) cipherSuite

/-- The handshake up to the key schedule, for a ClientHello and the messages of the
server. -/
def handshake (clientHello : List Byte) (messages : List (List Byte)) :
    Except String (Negotiated Secret) :=
  match messages with
  | [] => .error "failed to read ServerHello"
  | serverHello :: rest =>
    let transcript := clientHello ++ serverHello
    match detectTLSVersion serverHello with
    | .error .helloRetryRequest => do
        let keys ← handleHelloRetryRequestFlow env config transcript serverHello rest
        return .tls13 keys
    | .error (.failed message) => .error ("failed to detect TLS version: " ++ message)
    | .ok (negotiatedVersion, cipherSuite) => do
        checkNegotiated config negotiatedVersion cipherSuite
        checkDowngradeSentinel config negotiatedVersion serverHello
        if negotiatedVersion = versionTLS12 then
          return .tls12 cipherSuite transcript
        else
          let keys ← continueTLS13Handshake env config transcript cipherSuite
          return .tls13 keys

end ReclaimTee.Tls
