/-
The encrypted flight of a TLS 1.3 server, as the client of TEE_K reads it.
Certificate parsing, chain validation, signatures, hashes and the client's own
flight are parameters.
-/

import ReclaimTee.BigEndian
import ReclaimTee.Checked
import ReclaimTee.Mpc.Bits

namespace ReclaimTee.Tls

open ReclaimTee.Mpc

inductive HandshakeType where
  | clientHello
  | serverHello
  | encryptedExtensions
  | certificate
  | certificateRequest
  | certificateVerify
  | finished
  | other (code : Byte)
deriving DecidableEq, Repr

def HandshakeType.ofByte (code : Byte) : HandshakeType :=
  if code = 1 then .clientHello
  else if code = 2 then .serverHello
  else if code = 8 then .encryptedExtensions
  else if code = 11 then .certificate
  else if code = 13 then .certificateRequest
  else if code = 15 then .certificateVerify
  else if code = 20 then .finished
  else .other code

/-- The type of a handshake message; an empty message has none. -/
def messageType (message : List Byte) : HandshakeType :=
  .ofByte (message.headD 0)

/-! ### Certificates and signatures -/

structure Certificate (PublicKey : Type) where
  subjectCommonName : String
  issuerCommonName : String
  notBefore : Nat
  notAfter : Nat
  dnsNames : List String
  publicKey : PublicKey
deriving DecidableEq

structure CertificateInfo where
  commonName : String
  issuerCommonName : String
  notBeforeUnix : Nat
  notAfterUnix : Nat
  dnsNames : List String
deriving DecidableEq, Repr

inductive SignatureHash where
  | sha256
  | sha384
  | sha512
deriving DecidableEq, Repr

inductive SignatureType where
  | ecdsa (hash : SignatureHash)
  | rsaPSS (hash : SignatureHash)
  | rsaPKCS1 (hash : SignatureHash)
  | ed25519
deriving DecidableEq, Repr

def supportedSignatureAlgorithms (code : Nat) : Option SignatureType :=
  if code = 0x0403 then some (.ecdsa .sha256)
  else if code = 0x0503 then some (.ecdsa .sha384)
  else if code = 0x0603 then some (.ecdsa .sha512)
  else if code = 0x0804 ∨ code = 0x0809 then some (.rsaPSS .sha256)
  else if code = 0x0805 ∨ code = 0x080a then some (.rsaPSS .sha384)
  else if code = 0x0806 ∨ code = 0x080b then some (.rsaPSS .sha512)
  else if code = 0x0401 then some (.rsaPKCS1 .sha256)
  else if code = 0x0501 then some (.rsaPKCS1 .sha384)
  else if code = 0x0601 then some (.rsaPKCS1 .sha512)
  else if code = 0x0807 then some .ed25519
  else none

/-- What the handshake takes from elsewhere, down to the server's verify data and
the outcome of the client's own messages. -/
structure HandshakeEnvironment (PublicKey : Type) where
  parseCertificate : List Byte → Option (Certificate PublicKey)
  verifyCertificateChain : List (Certificate PublicKey) → Except String Unit
  verifySignature : SignatureType → PublicKey → List Byte → List Byte → Bool
  hash : List Byte → List Byte
  serverFinishedVerifyData : List Byte → List Byte
  completeFlight : Bool → List Byte → Except String Unit

structure HandshakeClient (PublicKey : Type) where
  finishedTranscript : List Byte
  serverCertificates : List (Certificate PublicKey)
  certificateInfo : Option CertificateInfo
  certRequestReceived : Bool
  certificateReceived : Bool
  certificateVerifyReceived : Bool

variable {PublicKey : Type}

/-- The client when the handshake keys are derived. -/
def HandshakeClient.start (transcript : List Byte) : HandshakeClient PublicKey :=
  { finishedTranscript := transcript
    serverCertificates := []
    certificateInfo := none
    certRequestReceived := false
    certificateReceived := false
    certificateVerifyReceived := false }

def extractCertificateInfo : List (Certificate PublicKey) → Option CertificateInfo
  | [] => none
  | leaf :: chain =>
    some
      { commonName := leaf.subjectCommonName
        issuerCommonName :=
          match chain with
          | [] => leaf.issuerCommonName
          | issuer :: _ => issuer.subjectCommonName
        notBeforeUnix := leaf.notBefore
        notAfterUnix := leaf.notAfter
        dnsNames := leaf.dnsNames }

variable (env : HandshakeEnvironment PublicKey)

/-- The entries of a certificate list, each with extensions that are skipped. The
fuel is the number of bytes. -/
def parseCertificateEntries : Nat → List Byte → Except String (List (Certificate PublicKey))
  | _, [] => .ok []
  | 0, _ :: _ => .error "not enough data for certificate entry data length"
  | fuel + 1, listBytes => do
      rejectIf (listBytes.length < 3) "not enough data for certificate entry data length"
      let certLen := ofBigEndian (listBytes.take 3)
      let body := listBytes.drop 3
      rejectIf (body.length < certLen) "not enough data for certificate body"
      let certData := body.take certLen
      let extensions := body.drop certLen
      rejectIf (extensions.length < 2) "not enough data for extensions length"
      let extLen := ofBigEndian (extensions.take 2)
      rejectIf ((extensions.drop 2).length < extLen) "not enough data for extensions body"
      match env.parseCertificate certData with
      | none => .error "failed to parse certificate"
      | some cert => do
          let rest ← parseCertificateEntries fuel ((extensions.drop 2).drop extLen)
          return cert :: rest

/-- The certificates of a Certificate message, header included. -/
def parseCertificateMessage (data : List Byte) :
    Except String (List (Certificate PublicKey)) := do
  let payload := data.drop 4
  rejectIf (payload.length < 1) "payload too short for context length"
  let contextLen := (payload.headD 0).toNat
  rejectIf (payload.length < 1 + contextLen) "payload too short for context body"
  let payload := payload.drop (1 + contextLen)
  rejectIf (payload.length < 3) "payload too short for certificate list length"
  let certListLen := ofBigEndian (payload.take 3)
  rejectIf (payload.length - 3 < certListLen)
    s!"certificate list length ({certListLen}) is larger than remaining payload ({payload.length - 3})"
  let listBytes := (payload.drop 3).take certListLen
  let certs ← parseCertificateEntries env listBytes.length listBytes
  rejectIf (certs.length = 0) "server sent no certificates"
  return certs

def processServerCertificate (c : HandshakeClient PublicKey) (data : List Byte) :
    Except String (HandshakeClient PublicKey) := do
  let certs ← parseCertificateMessage env data
  env.verifyCertificateChain certs
  return { c with serverCertificates := certs, certificateInfo := extractCertificateInfo certs }

/-- What the server signs: 64 spaces, the context, a zero byte, the hash. -/
def signedContent (transcriptHash : List Byte) : List Byte :=
  List.replicate 64 0x20 ++
    ("TLS 1.3, server CertificateVerify".toList.map fun character =>
      BitVec.ofNat 8 character.toNat) ++ [0x00] ++ transcriptHash

/-- Algorithm and signature of a CertificateVerify message, header included. -/
def parseCertificateVerify (data : List Byte) : Except String (Nat × List Byte) := do
  rejectIf (data.length < 8) s!"CertificateVerify message too short: {data.length} bytes"
  let signatureAlgorithm := ofBigEndian ((data.drop 4).take 2)
  let signatureLength := ofBigEndian ((data.drop 6).take 2)
  rejectIf (data.length < 8 + signatureLength)
    s!"CertificateVerify signature truncated: expected {signatureLength} bytes, got {data.length - 8}"
  return (signatureAlgorithm, (data.drop 8).take signatureLength)

def verifyCertificateVerifyTLS13 (c : HandshakeClient PublicKey) (data : List Byte) :
    Except String Unit :=
  match c.serverCertificates with
  | [] => .error "no server certificates available for CertificateVerify"
  | serverCert :: _ => do
      let (signatureAlgorithm, signature) ← parseCertificateVerify data
      let content := signedContent (env.hash c.finishedTranscript)
      match supportedSignatureAlgorithms signatureAlgorithm with
      | none => .error s!"unsupported signature algorithm in CertificateVerify: {signatureAlgorithm}"
      | some (.rsaPKCS1 _) =>
        .error "RSA PKCS#1 v1.5 signatures not allowed in TLS 1.3 CertificateVerify"
      | some algorithm =>
        if env.verifySignature algorithm serverCert.publicKey content signature then .ok ()
        else .error "signature verification failed"

def verifyServerFinished (message transcriptHash : List Byte) : Except String Unit := do
  rejectIf (message.length < 4) "Finished message too short"
  rejectIf (messageType message ≠ .finished) "expected Finished message type 20"
  let msgLen := ofBigEndian ((message.drop 1).take 3)
  rejectIf (message.length < 4 + msgLen)
    s!"Finished message incomplete: expected {4 + msgLen} bytes, got {message.length}"
  rejectIf ((message.drop 4).take msgLen ≠ env.serverFinishedVerifyData transcriptHash)
    "verify_data mismatch"

/-! ### The message loop -/

def emptyCertificate : List Byte :=
  [0x0b, 0x00, 0x00, 0x04, 0x00, 0x00, 0x00, 0x00]

def HandshakeClient.record (c : HandshakeClient PublicKey) (data : List Byte) :
    HandshakeClient PublicKey :=
  { c with finishedTranscript := c.finishedTranscript ++ data }

/-- One complete message; the result says whether the handshake is complete. -/
def processSingleHandshakeMessage (c : HandshakeClient PublicKey) (data : List Byte) :
    Except String (HandshakeClient PublicKey × Bool) :=
  match messageType data with
  | .certificateVerify => do
      rejectIf (c.certificateReceived = false) "received CertificateVerify before Certificate"
      verifyCertificateVerifyTLS13 env c data
      return ({ c with certificateVerifyReceived := true }.record data, false)
  | .certificateRequest =>
    .ok ({ c with certRequestReceived := true }.record data, false)
  | .certificate => do
      let c ← processServerCertificate env c data
      return ({ c with certificateReceived := true }.record data, false)
  | .finished => do
      rejectIf (c.certificateReceived = false)
        "received Finished before Certificate - invalid handshake sequence"
      rejectIf (c.certificateVerifyReceived = false)
        "received Finished before CertificateVerify - invalid handshake sequence"
      verifyServerFinished env data (env.hash c.finishedTranscript)
      let c := c.record data
      env.completeFlight c.certRequestReceived (env.hash c.finishedTranscript)
      return (if c.certRequestReceived then c.record emptyCertificate else c, true)
  | _ => .ok (c.record data, false)

def maxHandshakeMsgLen : Nat := 65536

/-- The first complete message of a buffer and the rest of it. -/
def takeMessage (buffer : List Byte) : Except String (Option (List Byte × List Byte)) :=
  if buffer.length < 4 then
    .ok none
  else
    let msgLen := ofBigEndian ((buffer.drop 1).take 3)
    if maxHandshakeMsgLen < msgLen then
      .error s!"handshake message of {msgLen} bytes exceeds {maxHandshakeMsgLen} cap"
    else if buffer.length < 4 + msgLen then
      .ok none
    else
      .ok (some (buffer.take (4 + msgLen), buffer.drop (4 + msgLen)))

/-- The loop over the complete messages of the buffer. The result has what is left
in the buffer, and whether the handshake is complete. The fuel is the number of bytes. -/
def processMessages : Nat → HandshakeClient PublicKey → List Byte →
    Except String (HandshakeClient PublicKey × List Byte × Bool)
  | 0, c, buffer => .ok (c, buffer, false)
  | fuel + 1, c, buffer => do
      match ← takeMessage buffer with
      | none => return (c, buffer, false)
      | some (message, rest) =>
        let (c, done) ← processSingleHandshakeMessage env c message
        if done then return (c, rest, true) else processMessages fuel c rest

def processHandshakeBuffer (c : HandshakeClient PublicKey) (buffer : List Byte) :
    Except String (HandshakeClient PublicKey × List Byte × Bool) :=
  processMessages env buffer.length c buffer

/-- A record on the wire; a protected one decrypts or it does not. -/
inductive ServerRecord where
  | changeCipherSpec
  | applicationData (plaintext : Option (List Byte))
  | other (recordType : Byte)

def recordTypeHandshake : Byte := 22

/-- The content of a decrypted record, without padding and content type. -/
def innerHandshake (plaintext : List Byte) : Except String (List Byte) :=
  match plaintext.reverse.dropWhile (· = 0) with
  | [] => .error "handshake record is all padding"
  | contentType :: rest =>
    if contentType = recordTypeHandshake then .ok rest.reverse
    else .error "expected handshake content type in encrypted record"

/-- The read loop; it ends with the Finished message or an error. -/
def processEncryptedHandshakeMessages (c : HandshakeClient PublicKey) (buffer : List Byte) :
    List ServerRecord → Except String (HandshakeClient PublicKey)
  | [] => do
      let (c, _, done) ← processHandshakeBuffer env c buffer
      if done then return c else .error "failed to read record header"
  | record :: rest => do
      let (c, buffer, done) ← processHandshakeBuffer env c buffer
      if done then
        return c
      else
        match record with
        | .changeCipherSpec => processEncryptedHandshakeMessages c buffer rest
        | .other _ => .error "expected application_data record for encrypted handshake"
        | .applicationData none => .error "decryption failed during handshake"
        | .applicationData (some plaintext) => do
            let actualData ← innerHandshake plaintext
            processEncryptedHandshakeMessages c (buffer ++ actualData) rest

end ReclaimTee.Tls
