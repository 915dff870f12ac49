/-
Which certificate a completed TLS 1.3 handshake reports: the one whose key signed
the transcript exactly when some CertificateVerify follows the last Certificate.
-/

import Mathlib.Data.List.TakeWhile
import ReclaimTee.Tls.ServerFlight

namespace ReclaimTee.Tls

open ReclaimTee.Mpc List

variable {PublicKey : Type} {env : HandshakeEnvironment PublicKey}

/-! ### Messages of a flight -/

/-- The messages before the Finished message, each processed without completing the
handshake. -/
inductive Reads (env : HandshakeEnvironment PublicKey) (start : HandshakeClient PublicKey) :
    List (List Byte) → HandshakeClient PublicKey → Prop
  | nil : Reads env start [] start
  | snoc {messages : List (List Byte)} {c next : HandshakeClient PublicKey} {data : List Byte} :
      Reads env start messages c →
      processSingleHandshakeMessage env c data = .ok (next, false) →
      Reads env start (messages ++ [data]) next

/-- What one message that does not complete the handshake does. -/
structure Processed (env : HandshakeEnvironment PublicKey) (c next : HandshakeClient PublicKey)
    (data : List Byte) : Prop where
  transcript : next.finishedTranscript = c.finishedTranscript ++ data
  certificate : messageType data = .certificate →
    next.certificateReceived = true ∧
      parseCertificateMessage env data = .ok next.serverCertificates ∧
      next.certificateInfo = extractCertificateInfo next.serverCertificates
  other : messageType data ≠ .certificate →
    next.certificateReceived = c.certificateReceived ∧
      next.serverCertificates = c.serverCertificates ∧ next.certificateInfo = c.certificateInfo
  verify : messageType data = .certificateVerify →
    c.certificateReceived = true ∧ verifyCertificateVerifyTLS13 env c data = .ok ()

variable {c start final : HandshakeClient PublicKey} {data transcript rest : List Byte}
  {messages : List (List Byte)} {records : List ServerRecord}

theorem processSingle_processed {next : HandshakeClient PublicKey}
    (processed : processSingleHandshakeMessage env c data = .ok (next, false)) :
    Processed env c next data := by
  unfold processSingleHandshakeMessage at processed
  split at processed
  · next type =>
    rw [bind_eq_ok_iff] at processed
    obtain ⟨_, received, processed⟩ := processed
    rw [bind_eq_ok_iff] at processed
    obtain ⟨_, verified, processed⟩ := processed
    cases processed
    exact
      { transcript := rfl
        certificate := fun wrong => by rw [type] at wrong; cases wrong
        other := fun _ => ⟨rfl, rfl, rfl⟩
        verify := fun _ =>
          ⟨Bool.eq_true_of_not_eq_false (rejectIf_eq_ok_iff.mp received), verified⟩ }
  · next type =>
    cases processed
    exact
      { transcript := rfl
        certificate := fun wrong => by rw [type] at wrong; cases wrong
        other := fun _ => ⟨rfl, rfl, rfl⟩
        verify := fun wrong => by rw [type] at wrong; cases wrong }
  · next type =>
    rw [bind_eq_ok_iff] at processed
    obtain ⟨c', stored, processed⟩ := processed
    unfold processServerCertificate at stored
    rw [bind_eq_ok_iff] at stored
    obtain ⟨certs, parsed, stored⟩ := stored
    rw [bind_eq_ok_iff] at stored
    obtain ⟨_, _, stored⟩ := stored
    cases stored
    cases processed
    exact
      { transcript := rfl
        certificate := fun _ => ⟨rfl, parsed, rfl⟩
        other := fun wrong => absurd type wrong
        verify := fun wrong => by rw [type] at wrong; cases wrong }
  · simp only [bind_eq_ok_iff] at processed
    obtain ⟨_, _, _, _, _, _, _, _, processed⟩ := processed
    cases processed
  · next notVerify _ notCertificate _ =>
    cases processed
    exact
      { transcript := rfl
        certificate := fun type => absurd type notCertificate
        other := fun _ => ⟨rfl, rfl, rfl⟩
        verify := fun type => absurd type notVerify }

def lastCertificate (messages : List (List Byte)) : Option (List Byte) :=
  messages.reverse.find? fun data => messageType data = .certificate

/-- What the client has after some messages. -/
structure FlightState (env : HandshakeEnvironment PublicKey) (transcript : List Byte)
    (messages : List (List Byte)) (c : HandshakeClient PublicKey) : Prop where
  transcript : c.finishedTranscript = transcript ++ messages.flatten
  none : lastCertificate messages = none → c.certificateReceived = false
  some : ∀ data, lastCertificate messages = some data →
    parseCertificateMessage env data = .ok c.serverCertificates ∧
      c.certificateInfo = extractCertificateInfo c.serverCertificates

theorem lastCertificate_snoc (messages : List (List Byte)) (data : List Byte) :
    lastCertificate (messages ++ [data]) =
      if messageType data = .certificate then some data else lastCertificate messages := by
  unfold lastCertificate
  by_cases type : messageType data = .certificate
  · rw [if_pos type]
    simp [type]
  · rw [if_neg type]
    simp [type]

theorem Reads.state (reads : Reads env (.start transcript) messages c) :
    FlightState env transcript messages c := by
  induction reads with
  | nil =>
    exact
      { transcript := (append_nil _).symm
        none := fun _ => rfl
        some := nofun }
  | @snoc messages c next data _ processed ih =>
    have step := processSingle_processed processed
    have transcript : next.finishedTranscript = transcript ++ (messages ++ [data]).flatten := by
      rw [step.transcript, ih.transcript]
      simp
    by_cases type : messageType data = .certificate
    · obtain ⟨received, parsed, info⟩ := step.certificate type
      refine { transcript := transcript, none := ?_, some := ?_ }
      · intro absent
        rw [lastCertificate_snoc, if_pos type] at absent
        cases absent
      · intro found last
        rw [lastCertificate_snoc, if_pos type] at last
        cases last
        exact ⟨parsed, info⟩
    · obtain ⟨received, certs, info⟩ := step.other type
      refine { transcript := transcript, none := ?_, some := ?_ }
      · intro absent
        rw [lastCertificate_snoc, if_neg type] at absent
        rw [received]
        exact ih.none absent
      · intro found last
        rw [lastCertificate_snoc, if_neg type] at last
        rw [certs, info]
        exact ih.some found last

/-- Every CertificateVerify of the flight was checked against the client at that point. -/
theorem Reads.verified (reads : Reads env (.start transcript) messages c)
    {before after : List (List Byte)} (split : messages = before ++ data :: after)
    (type : messageType data = .certificateVerify) :
    ∃ then_, Reads env (.start transcript) before then_ ∧ then_.certificateReceived = true ∧
      verifyCertificateVerifyTLS13 env then_ data = .ok () := by
  induction reads generalizing after with
  | nil =>
    have empty := congrArg List.length split
    simp at empty
  | @snoc messages c next last reads processed ih =>
    rcases eq_nil_or_concat after with none | ⟨front, final, more⟩
    · rw [none] at split
      obtain ⟨same, single⟩ := append_inj' split rfl
      cases single
      rw [← same]
      obtain ⟨received, verified⟩ := (processSingle_processed processed).verify type
      exact ⟨c, reads, received, verified⟩
    · rw [more, concat_eq_append] at split
      have grouped : before ++ data :: (front ++ [final]) = (before ++ data :: front) ++ [final] := by
        simp
      rw [grouped] at split
      obtain ⟨same, _⟩ := append_inj' split rfl
      exact ih same

/-! ### The messages of the records -/

def flightContent (records : List ServerRecord) : List Byte :=
  records.flatMap fun record =>
    match record with
    | .applicationData (some plaintext) => (innerHandshake plaintext).toOption.getD []
    | _ => []

def splitMessages : Nat → List Byte → List (List Byte)
  | 0, _ => []
  | fuel + 1, content =>
    match takeMessage content with
    | .ok (some (message, rest)) => message :: splitMessages fuel rest
    | _ => []

def serverMessages (records : List ServerRecord) : List (List Byte) :=
  (splitMessages (flightContent records).length (flightContent records)).takeWhile
    fun data => messageType data ≠ .finished

structure Framed (message : List Byte) : Prop where
  header : 4 ≤ message.length
  length : message.length = 4 + ofBigEndian ((message.drop 1).take 3)
  bounded : ofBigEndian ((message.drop 1).take 3) ≤ maxHandshakeMsgLen

theorem header_append {message : List Byte} (rest : List Byte) (header : 4 ≤ message.length) :
    ((message ++ rest).drop 1).take 3 = (message.drop 1).take 3 := by
  have three : 3 ≤ (message.drop 1).length := by
    rw [length_drop]
    omega
  rw [drop_append_of_le_length (by omega), take_append_of_le_length three]

theorem takeMessage_append {message : List Byte} (framed : Framed message) :
    takeMessage (message ++ rest) = .ok (some (message, rest)) := by
  have header := framed.header
  have long : ¬ (message ++ rest).length < 4 := by
    rw [length_append]
    omega
  unfold takeMessage
  rw [if_neg long]
  simp only [header_append rest header, ← framed.length]
  rw [if_neg (Nat.not_lt.mpr framed.bounded), if_neg (by simp), take_left, drop_left]

theorem takeMessage_framed {buffer message : List Byte}
    (taken : takeMessage buffer = .ok (some (message, rest))) :
    Framed message ∧ buffer = message ++ rest := by
  unfold takeMessage at taken
  split at taken
  · cases taken
  dsimp only at taken
  split at taken
  · cases taken
  rename_i bounded
  split at taken <;> cases taken
  rename_i complete
  have size : (buffer.take (4 + ofBigEndian ((buffer.drop 1).take 3))).length =
      4 + ofBigEndian ((buffer.drop 1).take 3) :=
    length_take_of_le (Nat.not_lt.mp complete)
  have header : 4 ≤ (buffer.take (4 + ofBigEndian ((buffer.drop 1).take 3))).length := by
    omega
  have same := header_append (buffer.drop (4 + ofBigEndian ((buffer.drop 1).take 3))) header
  rw [take_append_drop] at same
  refine ⟨⟨header, ?_, ?_⟩, (take_append_drop _ _).symm⟩
  · rw [← same]
    exact size
  · rw [← same]
    exact Nat.not_lt.mp bounded

theorem splitMessages_flatten {fuel : Nat}
    (framed : ∀ message ∈ messages, Framed message) (enough : messages.length ≤ fuel) :
    splitMessages fuel (messages.flatten ++ rest) =
      messages ++ splitMessages (fuel - messages.length) rest := by
  induction messages generalizing fuel with
  | nil => rfl
  | cons message others ih =>
    obtain ⟨less, rfl⟩ := Nat.exists_eq_add_of_lt (Nat.lt_of_lt_of_le (Nat.succ_pos _) enough)
    rw [Nat.zero_add, flatten_cons, append_assoc, splitMessages,
      takeMessage_append (framed message mem_cons_self)]
    have shorter : others.length ≤ less := by
      rw [length_cons] at enough
      omega
    dsimp only
    rw [ih (fun other member => framed other (mem_cons_of_mem _ member)) shorter,
      length_cons, Nat.add_sub_add_right]
    rfl

theorem length_le_flatten (framed : ∀ message ∈ messages, Framed message) :
    messages.length ≤ messages.flatten.length := by
  induction messages with
  | nil => exact Nat.le_refl 0
  | cons message others ih =>
    have header := (framed message mem_cons_self).header
    have shorter := ih fun other member => framed other (mem_cons_of_mem _ member)
    rw [length_cons, flatten_cons, length_append]
    omega

theorem serverMessages_eq {finished : List Byte}
    (content : flightContent records = (messages ++ [finished]).flatten ++ rest)
    (framed : ∀ message ∈ messages ++ [finished], Framed message)
    (unfinished : ∀ message ∈ messages, messageType message ≠ .finished)
    (type : messageType finished = .finished) : serverMessages records = messages := by
  have enough : (messages ++ [finished]).length ≤
      ((messages ++ [finished]).flatten ++ rest).length := by
    refine Nat.le_trans (length_le_flatten framed) ?_
    rw [@List.length_append _ _ rest]
    exact Nat.le_add_right _ _
  unfold serverMessages
  rw [content, splitMessages_flatten framed enough, append_assoc,
    takeWhile_append_of_pos (by simpa using unfinished), singleton_append,
    takeWhile_cons_of_neg (by simpa using type), append_nil]

/-! ### The message loop -/

/-- The Finished message completes the handshake after the other messages. -/
def Completes (env : HandshakeEnvironment PublicKey) (start : HandshakeClient PublicKey)
    (messages : List (List Byte)) (finished : List Byte) (final : HandshakeClient PublicKey) :
    Prop :=
  ∃ c, Reads env start messages c ∧ processSingleHandshakeMessage env c finished = .ok (final, true)

/-- What the message loop reads from a buffer. -/
structure Loop (env : HandshakeEnvironment PublicKey) (start : HandshakeClient PublicKey)
    (read : List (List Byte)) (buffer : List Byte) (messages : List (List Byte))
    (last : HandshakeClient PublicKey) (rest : List Byte) (done : Bool) : Prop where
  content : buffer = messages.flatten ++ rest
  framed : ∀ message ∈ messages, Framed message
  more : done = false → Reads env start (read ++ messages) last
  complete : done = true → ∃ front finished, messages = front ++ [finished] ∧
    Completes env start (read ++ front) finished last

theorem Loop.stopped {read : List (List Byte)} {buffer : List Byte}
    (reads : Reads env start read c) : Loop env start read buffer [] c buffer false where
  content := rfl
  framed _ member := absurd member not_mem_nil
  more _ := (append_nil read).symm ▸ reads
  complete := nofun

theorem processMessages_loop {last : HandshakeClient PublicKey} {read : List (List Byte)}
    {buffer : List Byte} {fuel : Nat} {done : Bool} (reads : Reads env start read c)
    (processed : processMessages env fuel c buffer = .ok (last, rest, done)) :
    ∃ messages, Loop env start read buffer messages last rest done := by
  induction fuel generalizing c buffer read with
  | zero =>
    cases processed
    exact ⟨[], .stopped reads⟩
  | succ fuel ih =>
    rw [processMessages, bind_eq_ok_iff] at processed
    obtain ⟨taken, take, processed⟩ := processed
    cases taken with
    | none =>
      cases processed
      exact ⟨[], .stopped reads⟩
    | some pair =>
      obtain ⟨message, others⟩ := pair
      obtain ⟨framed, content⟩ := takeMessage_framed take
      rw [bind_eq_ok_iff] at processed
      obtain ⟨⟨next, finished⟩, single, processed⟩ := processed
      cases finished with
      | true =>
        cases processed
        exact ⟨[message],
          { content := by rw [content]; simp
            framed := by simpa using framed
            more := nofun
            complete := fun _ => ⟨[], message, rfl, c, (append_nil read).symm ▸ reads, single⟩ }⟩
      | false =>
        obtain ⟨messages, loop⟩ := ih (reads.snoc single) processed
        refine ⟨message :: messages,
          { content := ?_, framed := ?_, more := ?_, complete := ?_ }⟩
        · rw [content, loop.content, flatten_cons, append_assoc]
        · exact forall_mem_cons.mpr ⟨framed, loop.framed⟩
        · intro open_
          have further := loop.more open_
          rw [append_assoc] at further
          exact further
        · intro closed
          obtain ⟨front, last, split, completes⟩ := loop.complete closed
          rw [append_assoc] at completes
          exact ⟨message :: front, last, by rw [split]; rfl, completes⟩

/-- The messages at the front of some bytes complete the handshake. -/
def Flight (env : HandshakeEnvironment PublicKey) (start : HandshakeClient PublicKey)
    (read : List (List Byte)) (content : List Byte) (final : HandshakeClient PublicKey) : Prop :=
  ∃ messages finished rest, content = (messages ++ [finished]).flatten ++ rest ∧
    (∀ message ∈ messages ++ [finished], Framed message) ∧
    Completes env start (read ++ messages) finished final

theorem Loop.flight {read : List (List Byte)} {buffer : List Byte}
    (loop : Loop env start read buffer messages final rest true) (tail : List Byte) :
    Flight env start read (buffer ++ tail) final := by
  obtain ⟨front, finished, split, completes⟩ := loop.complete rfl
  rw [split] at loop
  refine ⟨front, finished, rest ++ tail, ?_, loop.framed, completes⟩
  rw [loop.content, append_assoc]

theorem Loop.before {read : List (List Byte)} {buffer tail : List Byte}
    (loop : Loop env start read buffer messages c rest false)
    (flight : Flight env start (read ++ messages) (rest ++ tail) final) :
    Flight env start read (buffer ++ tail) final := by
  obtain ⟨others, finished, left, same, framed, completes⟩ := flight
  refine ⟨messages ++ others, finished, left, ?_, ?_, append_assoc read .. ▸ completes⟩
  · rw [loop.content, append_assoc, same, append_assoc messages, @List.flatten_append _ messages,
      append_assoc]
  · intro message member
    rw [append_assoc, mem_append] at member
    exact member.elim (loop.framed message) (framed message)

theorem processEncryptedHandshakeMessages_completes {read : List (List Byte)} {buffer : List Byte}
    (reads : Reads env start read c)
    (processed : processEncryptedHandshakeMessages env c buffer records = .ok final) :
    Flight env start read (buffer ++ flightContent records) final := by
  induction records generalizing c buffer read with
  | nil =>
    rw [processEncryptedHandshakeMessages, bind_eq_ok_iff] at processed
    obtain ⟨⟨last, rest, done⟩, loop, processed⟩ := processed
    obtain ⟨messages, loop⟩ := processMessages_loop reads loop
    cases done with
    | false => cases processed
    | true =>
      cases processed
      exact loop.flight _
  | cons record records ih =>
    rw [processEncryptedHandshakeMessages, bind_eq_ok_iff] at processed
    obtain ⟨⟨last, rest, done⟩, loop, processed⟩ := processed
    obtain ⟨messages, loop⟩ := processMessages_loop reads loop
    cases done with
    | true =>
      cases processed
      exact loop.flight _
    | false =>
      have further := loop.more rfl
      refine loop.before ?_
      cases record with
      | changeCipherSpec => exact ih further processed
      | other recordType => cases processed
      | applicationData plaintext =>
        cases plaintext with
        | none => cases processed
        | some plaintext =>
          dsimp only at processed
          rw [if_neg Bool.false_ne_true, bind_eq_ok_iff] at processed
          obtain ⟨content, inner, processed⟩ := processed
          have held : flightContent (.applicationData (some plaintext) :: records) =
              content ++ flightContent records := by
            unfold flightContent
            rw [flatMap_cons]
            dsimp only
            rw [inner]
            rfl
          rw [held, ← append_assoc]
          exact ih further processed

/-- The Finished message is the only one that completes the handshake, and it keeps
the certificates. -/
theorem finished_keeps (processed : processSingleHandshakeMessage env c data = .ok (final, true)) :
    messageType data = .finished ∧ c.certificateReceived = true ∧
      final.serverCertificates = c.serverCertificates ∧
      final.certificateInfo = c.certificateInfo := by
  unfold processSingleHandshakeMessage at processed
  split at processed
  · rw [bind_eq_ok_iff] at processed
    obtain ⟨_, _, processed⟩ := processed
    rw [bind_eq_ok_iff] at processed
    obtain ⟨_, _, processed⟩ := processed
    cases processed
  · cases processed
  · rw [bind_eq_ok_iff] at processed
    obtain ⟨_, _, processed⟩ := processed
    cases processed
  · next type =>
    simp only [bind_eq_ok_iff] at processed
    obtain ⟨_, received, _, _, _, _, _, _, processed⟩ := processed
    refine ⟨type, Bool.eq_true_of_not_eq_false (rejectIf_eq_ok_iff.mp received), ?_⟩
    cases processed
    by_cases requested : c.certRequestReceived = true <;> simp [HandshakeClient.record, requested]
  · cases processed

theorem Reads.unfinished (reads : Reads env start messages c) :
    ∀ message ∈ messages, messageType message ≠ .finished := by
  induction reads with
  | nil => exact fun _ member => absurd member not_mem_nil
  | @snoc messages c next data _ processed ih =>
    intro message member
    rcases mem_append.mp member with earlier | last
    · exact ih message earlier
    rw [mem_singleton.mp last]
    intro type
    unfold processSingleHandshakeMessage at processed
    rw [type] at processed
    simp only [bind_eq_ok_iff] at processed
    obtain ⟨_, _, _, _, _, _, _, _, wrong⟩ := processed
    cases wrong

theorem completed_flight
    (completed : processEncryptedHandshakeMessages env (.start transcript) [] records = .ok final) :
    ∃ c, Reads env (.start transcript) (serverMessages records) c ∧
      c.certificateReceived = true ∧ final.serverCertificates = c.serverCertificates ∧
      final.certificateInfo = c.certificateInfo := by
  obtain ⟨messages, finished, rest, content, framed, c, reads, last⟩ :=
    processEncryptedHandshakeMessages_completes .nil completed
  obtain ⟨type, received, certs, info⟩ := finished_keeps last
  rw [serverMessages_eq content framed reads.unfinished type]
  exact ⟨c, reads, received, certs, info⟩

/-! ### The reported certificate -/

/-- The signature of a CertificateVerify message verifies under a key over a transcript. -/
def SignedBy (env : HandshakeEnvironment PublicKey) (key : PublicKey) (transcript : List Byte)
    (data : List Byte) : Prop :=
  ∃ code signature algorithm, parseCertificateVerify data = .ok (code, signature) ∧
    supportedSignatureAlgorithms code = some algorithm ∧
    env.verifySignature algorithm key (signedContent (env.hash transcript)) signature = true

/-- The reported leaf is that of the last Certificate message, and its key signed the
transcript that ends just before a later CertificateVerify. A Certificate repeated
after the CertificateVerify counts as unsigned, even the same one. -/
structure ServerAuthenticated (env : HandshakeEnvironment PublicKey) (transcript : List Byte)
    (messages : List (List Byte)) (final : HandshakeClient PublicKey) : Prop where
  authenticated : ∃ before certificate between verify after leaf chain,
    messages = before ++ certificate :: (between ++ verify :: after) ∧
    messageType certificate = .certificate ∧
    parseCertificateMessage env certificate = .ok (leaf :: chain) ∧
    (∀ data ∈ between ++ verify :: after, messageType data ≠ .certificate) ∧
    final.serverCertificates = leaf :: chain ∧
    final.certificateInfo = extractCertificateInfo (leaf :: chain) ∧
    messageType verify = .certificateVerify ∧
    SignedBy env leaf.publicKey (transcript ++ (before ++ certificate :: between).flatten) verify

def notCertificate (data : List Byte) : Bool :=
  messageType data ≠ .certificate

/-- Some CertificateVerify comes after the last Certificate. -/
def VerifyFollows (messages : List (List Byte)) : Prop :=
  ∃ data ∈ messages.reverse.takeWhile notCertificate, messageType data = .certificateVerify

instance (messages : List (List Byte)) : Decidable (VerifyFollows messages) := by
  unfold VerifyFollows
  infer_instance

theorem verifyFollows_iff_split (messages : List (List Byte)) :
    VerifyFollows messages ↔
      ∃ before verify after, messages = before ++ verify :: after ∧
        messageType verify = .certificateVerify ∧
        ∀ data ∈ after, messageType data ≠ .certificate := by
  constructor
  · rintro ⟨verify, member, type⟩
    obtain ⟨late, early, taken⟩ := append_of_mem member
    have whole := takeWhile_append_dropWhile (p := notCertificate) (l := messages.reverse)
    generalize messages.reverse.dropWhile notCertificate = rest at whole
    rw [taken] at whole
    refine ⟨(early ++ rest).reverse, verify, late.reverse, ?_, type, ?_⟩
    · rw [← reverse_reverse messages, ← whole]
      simp
    · intro data lateMember
      have inside : data ∈ messages.reverse.takeWhile notCertificate := by
        rw [taken]
        exact mem_append_left _ (mem_reverse.mp lateMember)
      have kept : notCertificate data = true := mem_takeWhile_imp inside
      exact of_decide_eq_true kept
  · rintro ⟨before, verify, after, split, type, none⟩
    refine ⟨verify, ?_, type⟩
    have reversed : messages.reverse = after.reverse ++ verify :: before.reverse := by
      rw [split]
      simp
    have late : ∀ data ∈ after.reverse, notCertificate data = true := fun data member =>
      decide_eq_true (none data (mem_reverse.mp member))
    have kept : notCertificate verify = true := decide_eq_true (by rw [type]; decide)
    rw [reversed, takeWhile_append_of_pos late, takeWhile_cons_of_pos kept]
    exact mem_append_right _ mem_cons_self

theorem lastCertificate_append {before after : List (List Byte)}
    (none : ∀ data ∈ after, messageType data ≠ .certificate) :
    lastCertificate (before ++ after) = lastCertificate before := by
  unfold lastCertificate
  rw [reverse_append, find?_append]
  have absent : after.reverse.find? (fun data => decide (messageType data = .certificate)) =
      Option.none := by
    rw [find?_eq_none]
    intro data member
    simpa using none data (mem_reverse.mp member)
  rw [absent, Option.none_or]

theorem lastCertificate_split {certificate : List Byte}
    (found : lastCertificate messages = some certificate) :
    messageType certificate = .certificate ∧ ∃ before between,
      messages = before ++ certificate :: between ∧
        ∀ data ∈ between, messageType data ≠ .certificate := by
  obtain ⟨type, late, early, split, none⟩ := find?_eq_some_iff_append.mp found
  refine ⟨of_decide_eq_true type, early.reverse, late.reverse, ?_, ?_⟩
  · rw [← reverse_reverse messages, split]
    simp
  · intro data member
    simpa using none data (mem_reverse.mp member)

theorem verifyCertificateVerifyTLS13_signedBy
    (verified : verifyCertificateVerifyTLS13 env c data = .ok ()) :
    ∃ leaf chain, c.serverCertificates = leaf :: chain ∧
      SignedBy env leaf.publicKey c.finishedTranscript data := by
  unfold verifyCertificateVerifyTLS13 at verified
  cases certs : c.serverCertificates with
  | nil =>
    rw [certs] at verified
    cases verified
  | cons leaf chain =>
    rw [certs] at verified
    dsimp only at verified
    rw [bind_eq_ok_iff] at verified
    obtain ⟨⟨code, signature⟩, parsed, verified⟩ := verified
    refine ⟨leaf, chain, rfl, code, signature, ?_⟩
    split at verified
    · cases verified
    · cases verified
    · next algorithm _ supported =>
      split at verified
      · next valid => exact ⟨algorithm, parsed, supported, valid⟩
      · cases verified

theorem verifyFollows_of_authenticated
    (authenticated : ServerAuthenticated env transcript messages final) :
    VerifyFollows messages := by
  obtain ⟨before, certificate, between, verify, after, leaf, chain, split, _, _, none, _, _,
    type, _⟩ := authenticated.authenticated
  refine (verifyFollows_iff_split messages).mpr
    ⟨before ++ certificate :: between, verify, after, ?_, type, ?_⟩
  · rw [split]
    simp
  · intro data member
    exact none data (mem_append_right _ (mem_cons_of_mem _ member))

theorem authenticated_of_verifyFollows (reads : Reads env (.start transcript) messages c)
    (certs : final.serverCertificates = c.serverCertificates)
    (info : final.certificateInfo = c.certificateInfo) (follows : VerifyFollows messages) :
    ServerAuthenticated env transcript messages final := by
  obtain ⟨front, verify, after, split, type, none⟩ := (verifyFollows_iff_split messages).mp follows
  obtain ⟨earlier, readsFront, received, verified⟩ := reads.verified split type
  have state := readsFront.state
  have noneLater : ∀ data ∈ verify :: after, messageType data ≠ .certificate := by
    rw [forall_mem_cons, type]
    exact ⟨by decide, none⟩
  cases found : lastCertificate front with
  | none =>
    rw [state.none found] at received
    cases received
  | some certificate =>
    obtain ⟨certificateType, before, between, frontSplit, noneBetween⟩ :=
      lastCertificate_split found
    obtain ⟨leaf, chain, earlierCerts, signed⟩ := verifyCertificateVerifyTLS13_signedBy verified
    obtain ⟨parsed, _⟩ := state.some certificate found
    -- No later Certificate replaces the one the signature was checked with.
    have last : lastCertificate messages = some certificate := by
      rw [split, lastCertificate_append noneLater, found]
    obtain ⟨parsedLast, infoLast⟩ := reads.state.some certificate last
    have sameCerts : c.serverCertificates = leaf :: chain := by
      rw [parsed] at parsedLast
      rw [← Except.ok.inj parsedLast]
      exact earlierCerts
    rw [earlierCerts] at parsed
    rw [state.transcript, frontSplit] at signed
    refine ⟨before, certificate, between, verify, after, leaf, chain, ?_, certificateType, parsed,
      ?_, ?_, ?_, type, signed⟩
    · rw [split, frontSplit, append_assoc, cons_append]
    · intro data member
      rcases mem_append.mp member with inside | later
      · exact noneBetween data inside
      · exact noneLater data later
    · rw [certs, sameCerts]
    · rw [info, infoLast, sameCerts]

/-- A completed handshake reports the verified certificate exactly when a
CertificateVerify follows the last Certificate. -/
theorem server_authenticated_iff {transcript : List Byte} {records : List ServerRecord}
    {final : HandshakeClient PublicKey}
    (completed : processEncryptedHandshakeMessages env (.start transcript) [] records = .ok final) :
    ServerAuthenticated env transcript (serverMessages records) final ↔
      VerifyFollows (serverMessages records) := by
  obtain ⟨c, reads, _, certs, info⟩ := completed_flight completed
  constructor
  · exact verifyFollows_of_authenticated
  · exact authenticated_of_verifyFollows reads certs info

/-! ### A flight with two certificates -/

def sampleCertificate (key : Nat) : Certificate Nat :=
  { subjectCommonName := "server"
    issuerCommonName := "issuer"
    notBefore := 0
    notAfter := 1
    dnsNames := []
    publicKey := key }

/-- Certificates of one byte, which is the key; a signature names its key. -/
def sampleEnvironment : HandshakeEnvironment Nat :=
  { parseCertificate := fun data => some (sampleCertificate (data.headD 0).toNat)
    verifyCertificateChain := fun _ => .ok ()
    verifySignature := fun _ key _ signature => signature = [BitVec.ofNat 8 key]
    hash := id
    serverFinishedVerifyData := fun _ => []
    completeFlight := fun _ _ => .ok () }

def sampleCertificateMessage (key : Byte) : List Byte :=
  [11, 0, 0, 10, 0, 0, 0, 6, 0, 0, 1, key, 0, 0]

def sampleCertificateVerify (key : Byte) : List Byte :=
  [15, 0, 0, 5, 8, 7, 0, 1, key]

def sampleFinished : List Byte :=
  [20, 0, 0, 0]

def sampleRecord (messages : List (List Byte)) : ServerRecord :=
  .applicationData (some (messages.flatten ++ [recordTypeHandshake]))

def sampleClient (transcript : List (List Byte)) (key : Nat) : HandshakeClient Nat :=
  { finishedTranscript := transcript.flatten
    serverCertificates := [sampleCertificate key]
    certificateInfo := extractCertificateInfo [sampleCertificate key]
    certRequestReceived := false
    certificateReceived := true
    certificateVerifyReceived := true }

def sampleFlight : List (List Byte) :=
  [[8, 0, 0, 2, 0, 0], sampleCertificateMessage 1, sampleCertificateVerify 1]

/-- The server presents a second certificate after it proved the key of the first. -/
def sampleSwapped : List (List Byte) :=
  sampleFlight ++ [sampleCertificateMessage 2]

set_option maxRecDepth 4000 in
theorem sampleFlight_completes :
    processEncryptedHandshakeMessages sampleEnvironment (.start []) []
      [sampleRecord (sampleFlight ++ [sampleFinished])] =
        .ok (sampleClient (sampleFlight ++ [sampleFinished]) 1) := by
  rfl

set_option maxRecDepth 4000 in
theorem sampleSwapped_completes :
    processEncryptedHandshakeMessages sampleEnvironment (.start []) []
      [sampleRecord (sampleSwapped ++ [sampleFinished])] =
        .ok (sampleClient (sampleSwapped ++ [sampleFinished]) 2) := by
  rfl

theorem server_authenticated_iff_sample :
    ServerAuthenticated sampleEnvironment []
      (serverMessages [sampleRecord (sampleFlight ++ [sampleFinished])])
      (sampleClient (sampleFlight ++ [sampleFinished]) 1) :=
  (server_authenticated_iff sampleFlight_completes).mpr (by decide)

theorem swapped_certificate_reported :
    ∃ final,
      processEncryptedHandshakeMessages sampleEnvironment (.start []) []
        [sampleRecord (sampleSwapped ++ [sampleFinished])] = .ok final ∧
      ¬ ServerAuthenticated sampleEnvironment []
          (serverMessages [sampleRecord (sampleSwapped ++ [sampleFinished])]) final := by
  refine ⟨_, sampleSwapped_completes, fun authenticated => ?_⟩
  exact absurd (verifyFollows_of_authenticated authenticated) (by decide)

end ReclaimTee.Tls
