/-
Whole histories of the paired OT pools, which interleave reservations, batch
additions, consumptions of any range and resumes. The logs record what each pool
handed out.
-/

import ReclaimTee.Mpc.PoolLedger

namespace ReclaimTee.Mpc

inductive PoolCall
  | reserve (count : Int)
  | add (sent : List SenderOT) (received : List ReceiverOT)
  | consume (start : Nat) (count : Int)
  | resume
deriving Repr

structure PoolPair where
  sender : SenderPool
  receiver : ReceiverPool
  reserved : List (Nat × List SenderOT)
  consumed : List (Nat × List ReceiverOT)
deriving Repr

namespace PoolPair

def new : PoolPair :=
  { sender := SenderPool.new, receiver := ReceiverPool.new, reserved := [], consumed := [] }

def call (pair : PoolPair) : PoolCall → PoolPair
  | .reserve count =>
    match pair.sender.reserve count with
    | .error _ => pair
    | .ok (handed, sender) =>
      { pair with sender := sender, reserved := pair.reserved ++ [handed] }
  | .add sent received =>
    { pair with
      sender := (pair.sender.add sent).toOption.getD pair.sender
      receiver := (pair.receiver.add received).toOption.getD pair.receiver }
  | .consume start count =>
    match pair.receiver.consume start count with
    | .error _ => pair
    | .ok (entries, receiver) =>
      { pair with receiver := receiver, consumed := pair.consumed ++ [(start, entries)] }
  | .resume =>
    { pair with
      receiver := (pair.receiver.advanceTo pair.sender.nextIndex).toOption.getD
        pair.receiver }

def run (pair : PoolPair) (calls : List PoolCall) : PoolPair :=
  calls.foldl call pair

def reservedIndices (pair : PoolPair) : List Nat :=
  pair.reserved.flatMap fun handed => handed.2.map SenderOT.index

def consumedIndices (pair : PoolPair) : List Nat :=
  pair.consumed.flatMap fun handed => handed.2.map ReceiverOT.index

end PoolPair

/-- A batch addition gives both pools entries with the same indices. -/
def PoolCall.Matching : PoolCall → Prop
  | .add sent received => sent.map SenderOT.index = received.map ReceiverOT.index
  | _ => True

/-- What holds after every history: the pools refine ledgers of equal extent,
and each log is what its ledger handed out. -/
structure PoolPair.Sound (pair : PoolPair) (sent : Ledger SenderOT)
    (received : Ledger ReceiverOT) : Prop where
  sender : pair.sender.Refines sent
  receiver : pair.receiver.Refines received
  sameExtent : sent.history.length = received.history.length
  reservedRun : Ledger.Run Ledger.empty pair.reservedIndices sent
  consumedRun : Ledger.Run Ledger.empty pair.consumedIndices received
  reservedAt : ∀ handed ∈ pair.reserved,
    handed.2.map SenderOT.index = List.range' handed.1 handed.2.length
  consumedAt : ∀ handed ∈ pair.consumed,
    handed.2.map ReceiverOT.index = List.range' handed.1 handed.2.length
  highWater : pair.receiver.highWater ≤ pair.sender.nextIndex ∨
    ∃ handed ∈ pair.consumed,
      pair.receiver.highWater = handed.1 + handed.2.length

theorem PoolPair.new_sound : PoolPair.new.Sound Ledger.empty Ledger.empty :=
  { sender := SenderPool.new_refines
    receiver := ReceiverPool.new_refines
    sameExtent := rfl
    reservedRun := Ledger.Run.refl _
    consumedRun := Ledger.Run.refl _
    reservedAt := nofun
    consumedAt := nofun
    highWater := .inl (Nat.le_refl _) }

namespace PoolPair.Sound

variable {pair : PoolPair} {sent : Ledger SenderOT} {received : Ledger ReceiverOT}

variable (sound : pair.Sound sent received)
include sound

theorem reserve (count : Int) : ∃ sent', (pair.call (.reserve count)).Sound sent' received := by
  unfold PoolPair.call
  dsimp only
  cases answered : pair.sender.reserve count with
  | error message => exact ⟨sent, sound⟩
  | ok answer =>
    obtain ⟨⟨start, entries⟩, sender⟩ := answer
    obtain ⟨startEq, _, free, entriesEq, refines, nextEq⟩ :=
      SenderPool.reserve_refines sound.sender answered
    obtain ⟨_, reservedRun, reservedAt⟩ := sound.reservedRun.log_snoc sound.reservedAt
      sound.sender.indexed free entriesEq
    refine ⟨sent.mark start count.toNat,
      { sound with
        sender := refines
        reservedRun := reservedRun
        reservedAt := reservedAt
        highWater := ?_ }⟩
    rcases sound.highWater with below | reached
    · have later : pair.sender.nextIndex ≤ sender.nextIndex := by omega
      exact .inl (Nat.le_trans below later)
    · exact .inr reached

theorem add (batch : List SenderOT) (counterparts : List ReceiverOT)
    (matching : batch.map SenderOT.index = counterparts.map ReceiverOT.index) :
    ∃ sent' received', (pair.call (.add batch counterparts)).Sound sent' received' := by
  unfold PoolPair.call
  dsimp only
  have sameLength : batch.length = counterparts.length := by
    have lengths := congrArg List.length matching
    rwa [List.length_map, List.length_map] at lengths
  cases senderAnswer : pair.sender.add batch with
  | error message =>
    cases receiverAnswer : pair.receiver.add counterparts with
    | error other => exact ⟨sent, received, sound⟩
    | ok receiver =>
      have continues := ((ReceiverPool.add_eq_ok_iff sound.receiver _).mp receiverAnswer).1
      rw [← sound.sameExtent, ← matching] at continues
      have accepted := (SenderPool.add_eq_ok_iff sound.sender batch).mpr ⟨continues, rfl⟩
      rw [senderAnswer] at accepted
      cases accepted
  | ok sender =>
    cases receiverAnswer : pair.receiver.add counterparts with
    | error other =>
      have continues := ((SenderPool.add_eq_ok_iff sound.sender _).mp senderAnswer).1
      rw [sound.sameExtent, matching] at continues
      have accepted :=
        (ReceiverPool.add_eq_ok_iff sound.receiver counterparts).mpr ⟨continues, rfl⟩
      rw [receiverAnswer] at accepted
      cases accepted
    | ok receiver =>
      obtain ⟨senderRefines, nextEq⟩ := SenderPool.add_refines sound.sender senderAnswer
      obtain ⟨receiverRefines, highEq⟩ :=
        ReceiverPool.add_refines sound.receiver receiverAnswer
      have reservedRun := sound.reservedRun.snoc (Ledger.Step.append _ batch)
      have consumedRun := sound.consumedRun.snoc (Ledger.Step.append _ counterparts)
      rw [List.append_nil] at reservedRun consumedRun
      refine ⟨sent.append batch, received.append counterparts,
        { sound with
          sender := senderRefines
          receiver := receiverRefines
          sameExtent := ?_
          reservedRun := reservedRun
          consumedRun := consumedRun
          highWater := ?_ }⟩
      · rw [Ledger.append_history, Ledger.append_history, List.length_append,
          List.length_append, sound.sameExtent, sameLength]
      · change receiver.highWater ≤ sender.nextIndex ∨
          ∃ handed ∈ pair.consumed, receiver.highWater = handed.1 + handed.2.length
        rw [highEq, nextEq]
        exact sound.highWater

theorem consume (start : Nat) (count : Int) :
    ∃ received', (pair.call (.consume start count)).Sound sent received' := by
  unfold PoolPair.call
  dsimp only
  cases answered : pair.receiver.consume start count with
  | error message => exact ⟨received, sound⟩
  | ok answer =>
    obtain ⟨entries, receiver⟩ := answer
    obtain ⟨_, free, entriesEq, refines, highEq⟩ :=
      ReceiverPool.consume_refines sound.receiver answered
    obtain ⟨handedLength, consumedRun, consumedAt⟩ := sound.consumedRun.log_snoc
      sound.consumedAt sound.receiver.indexed free entriesEq
    refine ⟨received.mark start count.toNat,
      { sound with
        receiver := refines
        consumedRun := consumedRun
        consumedAt := consumedAt
        highWater := ?_ }⟩
    rw [highEq]
    by_cases raised : pair.receiver.highWater ≤ start + count.toNat
    · refine .inr ⟨(start, entries), List.mem_append_right _ (List.mem_singleton_self _), ?_⟩
      rw [Nat.max_eq_right raised, handedLength]
    · rw [Nat.max_eq_left (by omega)]
      rcases sound.highWater with below | reached
      · exact .inl below
      · obtain ⟨handed, member, atEnd⟩ := reached
        exact .inr ⟨handed, List.mem_append_left _ member, atEnd⟩

/-- Where no consumed range ends past the sender's frontier, advancing the
receiver to that frontier succeeds and leaves the pools in agreement. -/
theorem advance
    (noneBeyond : ∀ handed ∈ pair.consumed, handed.1 + handed.2.length ≤ pair.sender.nextIndex) :
    ∃ receiver, pair.receiver.advanceTo pair.sender.nextIndex = .ok receiver ∧
      validatePoolAgreement pair.sender receiver = .ok () := by
  have afterHigh : pair.receiver.highWater ≤ pair.sender.nextIndex := by
    rcases sound.highWater with below | reached
    · exact below
    · obtain ⟨handed, member, atEnd⟩ := reached
      rw [atEnd]
      exact noneBeyond handed member
  have inTotal : pair.sender.nextIndex ≤ received.history.length := by
    rw [← sound.sameExtent]
    exact sound.sender.nextLeTotal
  obtain ⟨receiver, advanced, refines, highEq⟩ :=
    ReceiverPool.advanceTo_refines sound.receiver afterHigh inTotal
  refine ⟨receiver, advanced, ?_⟩
  have agree : ¬ (pair.sender.totalCount ≠ receiver.totalCount ∨
      pair.sender.nextIndex ≠ receiver.nextIndex) := by
    rw [sound.sender.totalCount_eq, refines.totalCount_eq, sound.sameExtent, ReceiverPool.nextIndex, highEq]
    simp
  rw [validatePoolAgreement]
  exact if_neg agree

theorem resume : ∃ received', (pair.call .resume).Sound sent received' := by
  unfold PoolPair.call
  cases answered : pair.receiver.advanceTo pair.sender.nextIndex with
  | error message => exact ⟨received, sound⟩
  | ok receiver =>
    obtain ⟨refines, highEq⟩ := ReceiverPool.advanceTo_kept sound.receiver answered
    have consumedRun := sound.consumedRun.snoc
      (Ledger.Step.discard _ pair.receiver.baseIndex
        (pair.sender.nextIndex - pair.receiver.baseIndex))
    rw [List.append_nil] at consumedRun
    exact ⟨_,
      { sound with
        receiver := refines
        consumedRun := consumedRun
        highWater := .inl (Nat.le_of_eq highEq) }⟩

theorem step (made : PoolCall) (matching : made.Matching) :
    ∃ sent' received', (pair.call made).Sound sent' received' := by
  cases made with
  | reserve count =>
    obtain ⟨sent', kept⟩ := sound.reserve count
    exact ⟨sent', received, kept⟩
  | add batch counterparts => exact sound.add batch counterparts matching
  | consume start count =>
    obtain ⟨received', kept⟩ := sound.consume start count
    exact ⟨sent, received', kept⟩
  | resume =>
    obtain ⟨received', kept⟩ := sound.resume
    exact ⟨sent, received', kept⟩

theorem run (calls : List PoolCall) (matching : ∀ made ∈ calls, made.Matching) :
    ∃ sent' received', (pair.run calls).Sound sent' received' := by
  induction calls generalizing pair sent received with
  | nil => exact ⟨sent, received, sound⟩
  | cons made rest ih =>
    obtain ⟨sent', received', kept⟩ :=
      sound.step made (matching made List.mem_cons_self)
    exact ih kept fun later member => matching later (List.mem_cons_of_mem _ member)

end PoolPair.Sound

/-- Paired pools never diverge: over every history with matching batches no
index is handed out twice by either pool, and the receiver can be advanced to
the sender's frontier whenever nothing beyond it was consumed. -/
theorem PoolPair.run_never_diverges (calls : List PoolCall)
    (matching : ∀ made ∈ calls, made.Matching) :
    let pair := PoolPair.new.run calls
    pair.reservedIndices.Nodup ∧ pair.consumedIndices.Nodup ∧
      (∀ handed ∈ pair.reserved,
        handed.2.map SenderOT.index = List.range' handed.1 handed.2.length) ∧
      (∀ handed ∈ pair.consumed,
        handed.2.map ReceiverOT.index = List.range' handed.1 handed.2.length) ∧
      ((∀ handed ∈ pair.consumed, handed.1 + handed.2.length ≤ pair.sender.nextIndex) →
        ∃ receiver, pair.receiver.advanceTo pair.sender.nextIndex = .ok receiver ∧
          validatePoolAgreement pair.sender receiver = .ok ()) := by
  obtain ⟨sent, received, sound⟩ := PoolPair.new_sound.run calls matching
  exact ⟨sound.reservedRun.handed_nodup, sound.consumedRun.handed_nodup,
    sound.reservedAt, sound.consumedAt, sound.advance⟩

theorem PoolPair.run_never_diverges_skipped_entry :
    let pair := PoolPair.new.run
      [.add [⟨0, 0, 0⟩, ⟨0, 0, 1⟩, ⟨0, 0, 2⟩] [⟨0, 0, true⟩, ⟨0, 1, false⟩, ⟨0, 2, true⟩],
        .reserve 2, .consume 1 1, .reserve 1]
    pair.reservedIndices = [0, 1, 2] ∧ pair.consumedIndices = [1] ∧
      ∃ receiver, pair.receiver.advanceTo pair.sender.nextIndex = .ok receiver ∧
        validatePoolAgreement pair.sender receiver = .ok () := by
  refine ⟨by decide, by decide, ?_⟩
  refine (PoolPair.run_never_diverges _ ?_).2.2.2.2 (by decide)
  simp [PoolCall.Matching]

end ReclaimTee.Mpc
