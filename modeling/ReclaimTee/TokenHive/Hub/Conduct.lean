/-
How a call behaves towards the shared tables, whatever it is answered. It gives
its slot back once, stores a verified receipt before it claims the job, and books
charge, commission and bill once and in this order.
-/

import ReclaimTee.TokenHive.Hub.Tables

namespace ReclaimTee.TokenHive.Hub

/-! ### What a call settled -/

structure Settlement where
  provider : Text
  receipt : SignedReceipt
  bill : Bill
deriving DecidableEq, Repr

def HubError.isRelay : HubError → Bool
  | .relay _ => true
  | _ => false

def SessionEnd.settled (session : SessionEnd) : Bool :=
  session.outcome.stored && session.error.all HubError.isRelay

/-- An outcome settled if the call returned no error, or a relay error with a
receipt that was stored. -/
def HubJob.settlement : HubJob → CallResult → Option Settlement
  | .execute _ _ _ spec _, .executed execution =>
    if execution.error = none then
      some
        { provider := spec.provider
          receipt := execution.outcome.receipt
          bill :=
            { charged := execution.outcome.charged
              commission := execution.outcome.commission
              buyer := execution.outcome.buyer } }
    else
      none
  | .session _ _ _, .ended ending =>
    if ending.settled then
      some
        { provider := ending.outcome.provider
          receipt := ending.outcome.receipt
          bill :=
            { charged := ending.outcome.charged
              commission := ending.outcome.commission
              buyer := ending.outcome.buyer } }
    else
      none
  | _, _ => none

/-! ### Phases -/

inductive Slot
  | untaken
  | held
  | returned
deriving DecidableEq, Repr

inductive Money
  | unmoved
  | noted (provider : Text) (charged : Nat)
  | commissioned (provider : Text) (charged commission : Nat)
  | moved (provider : Text) (bill : Bill)
deriving DecidableEq, Repr

namespace Money

def provider : Money → Text
  | unmoved => []
  | noted provider _ => provider
  | commissioned provider _ _ => provider
  | moved provider _ => provider

def charged : Money → Nat
  | unmoved => 0
  | noted _ charged => charged
  | commissioned _ charged _ => charged
  | moved _ bill => bill.charged

def commission : Money → Nat
  | commissioned _ _ commission => commission
  | moved _ bill => bill.commission
  | _ => 0

def buyer : Money → Nat
  | moved _ bill => bill.buyer
  | _ => 0

end Money

structure Phase where
  tenant : Text
  slot : Slot
  admitted : Bool
  stored : Option (Text × SignedReceipt)
  claimed : Option Text
  money : Money
deriving DecidableEq, Repr

def Phase.begin (tenant : Text) : Phase where
  tenant := tenant
  slot := .untaken
  admitted := false
  stored := none
  claimed := none
  money := .unmoved

def Phase.after (phase : Phase) : (request : HubRequest) → request.Answer → Phase
  | .acquire _, true => { phase with slot := .held }
  | .release _, _ => { phase with slot := .returned }
  | .allowBudget _, true => { phase with admitted := true }
  | .put provider signed, none => { phase with stored := some (provider, signed) }
  | .claimSettlement jobID, true => { phase with claimed := some jobID }
  | .noteSettled provider micros, _ => { phase with money := .noted provider micros }
  | .noteCommission provider micros, _ =>
    { phase with money := .commissioned provider phase.money.charged micros }
  | .chargeTenant _ micros, _ =>
    { phase with
      money := .moved phase.money.provider
        { charged := phase.money.charged
          commission := phase.money.commission
          buyer := micros } }
  | _, _ => phase

namespace Config

variable (config : Config)

/-- The job that is claimed is that of the stored receipt; a Hub that withholds
receipts claims jobs of receipts it never stored. -/
def Claimable (phase : Phase) (provider jobID : Text) : Prop :=
  config.withhold ≠ none ∨
    ∃ signed, phase.stored = some (provider, signed) ∧ signed.receipt.jobID = jobID

def permitted (phase : Phase) : HubRequest → Prop
  | .acquire tenant => tenant = phase.tenant ∧ phase.slot = .untaken ∧ phase.admitted = false
  | .release tenant => tenant = phase.tenant ∧ phase.slot = .held
  | .allowBudget tenant =>
    tenant = phase.tenant ∧ phase.slot = .held ∧ phase.admitted = false ∧ phase.money = .unmoved
  | .put _ signed =>
    phase.stored = none ∧ phase.claimed = none ∧ config.verify signed = none
  | .claimSettlement jobID =>
    phase.claimed = none ∧ phase.money = .unmoved ∧ ∃ provider, config.Claimable phase provider jobID
  | .noteSettled provider _ =>
    phase.money = .unmoved ∧
      ∃ jobID, phase.claimed = some jobID ∧ config.Claimable phase provider jobID
  | .noteCommission provider _ => ∃ charged, phase.money = .noted provider charged
  | .chargeTenant tenant micros =>
    tenant = phase.tenant ∧ phase.admitted = true ∧ config.exceedsCeiling micros = false ∧
      ∃ provider charged commission, phase.money = .commissioned provider charged commission
  | _ => True

def discipline : Program.Discipline hub Phase where
  permitted := config.permitted
  after := Phase.after

/-- A call that moved money returns exactly what it booked, and one that moved
none returns no settlement. -/
def ends (job : HubJob) (phase : Phase) (result : CallResult) : Prop :=
  phase.slot ≠ .held ∧
    match job.settlement result with
    | none => phase.money = .unmoved
    | some settlement =>
      phase.money = .moved settlement.provider settlement.bill ∧
        phase.claimed = some settlement.receipt.receipt.jobID ∧
        (config.withhold = none → phase.stored = some (settlement.provider, settlement.receipt))

/-! ### Sending one request -/

variable {config} {Value : Type} {ends : Phase → Value → Prop} {phase : Phase}

theorem obeys_send {request : HubRequest} {rest : request.Answer → HubProgram Value}
    (onwards : ∀ answer : request.Answer,
      (rest answer).Obeys config.discipline ends (phase.after request answer))
    (permitted : config.permitted phase request := by trivial) :
    (send request >>= rest).Obeys config.discipline ends phase :=
  ⟨permitted, onwards⟩

theorem obeys_return {result : Value} (meets : ends phase result) :
    (pure result : HubProgram Value).Obeys config.discipline ends phase :=
  meets

/-! ### Stages of a call -/

/-- Admitted, with nothing stored, claimed or booked. -/
structure Running (tenant : Text) (slot : Slot) (phase : Phase) : Prop where
  tenant_eq : phase.tenant = tenant
  slot_eq : phase.slot = slot
  admitted : phase.admitted = true
  stored : phase.stored = none
  claimed : phase.claimed = none
  money : phase.money = .unmoved

structure Idle (tenant : Text) (slot : Slot) (phase : Phase) : Prop where
  tenant_eq : phase.tenant = tenant
  slot_eq : phase.slot = slot
  money : phase.money = .unmoved

theorem Running.idle {tenant : Text} {slot : Slot} (running : Running tenant slot phase) :
    Idle tenant slot phase where
  tenant_eq := running.tenant_eq
  slot_eq := running.slot_eq
  money := running.money

variable (config) in
structure Booked (tenant : Text) (slot : Slot) (provider : Text) (signed : SignedReceipt)
    (bill : Bill) (phase : Phase) : Prop where
  tenant_eq : phase.tenant = tenant
  slot_eq : phase.slot = slot
  money : phase.money = .moved provider bill
  claimed : phase.claimed = some signed.receipt.jobID
  stored : config.withhold = none → phase.stored = some (provider, signed)

variable (config) in
/-- Without an error the bill is booked, and an error says that it is not. -/
def Accounted (tenant : Text) (slot : Slot) (provider : Text) (signed : SignedReceipt)
    (bill : Bill) (phase : Phase) : Option HubError → Prop
  | none => config.Booked tenant slot provider signed bill phase
  | some error => error.isRelay = false ∧ Idle tenant slot phase

/-! ### Admission -/

/-- A tenant that is not refused holds its slot. -/
def Admitted (tenant : Text) (slot : Slot) (phase : Phase) : Option HubError → Prop
  | none => Running tenant slot phase
  | some error => error.isRelay = false ∧ Idle tenant slot phase

theorem admitTenant_obeys (tenant : Text) :
    (admitTenant tenant).Obeys config.discipline
      (fun later refused => Admitted tenant .held later refused)
      { Phase.begin tenant with slot := .held } := by
  refine obeys_send (fun affordable => ?_) ⟨rfl, rfl, rfl, rfl⟩
  cases affordable with
  | false => exact obeys_return ⟨rfl, ⟨rfl, rfl, rfl⟩⟩
  | true =>
    refine obeys_send fun within => ?_
    cases within with
    | false => exact obeys_return ⟨rfl, ⟨rfl, rfl, rfl⟩⟩
    | true => exact obeys_return ⟨rfl, rfl, rfl, rfl, rfl, rfl⟩

/-- The slot is held by a tenant that is not refused and by no other. -/
theorem beginJob_obeys (tenant : Text) :
    (beginJob tenant).Obeys config.discipline
      (fun later refused => match refused with
        | none => Running tenant .held later
        | some error => error.isRelay = false ∧ later.slot ≠ .held ∧ later.money = .unmoved)
      (Phase.begin tenant) := by
  refine obeys_send (fun free => ?_) ⟨rfl, rfl, rfl⟩
  cases free with
  | false => exact obeys_return ⟨rfl, Slot.noConfusion, rfl⟩
  | true =>
    refine .bind (admitTenant_obeys tenant) ?_
    intro later refused admitted
    cases refused with
    | none => exact obeys_return admitted
    | some error =>
      obtain ⟨plain, idle⟩ := admitted
      refine obeys_send (fun _ => ?_) ⟨idle.tenant_eq.symm, idle.slot_eq⟩
      exact obeys_return ⟨plain, Slot.noConfusion, idle.money⟩

/-! ### Settlement -/

variable {tenant : Text} {slot : Slot}

theorem settle_obeys {provider : Text} {signed : SignedReceipt} {bill : Bill}
    (tenant_eq : phase.tenant = tenant) (slot_eq : phase.slot = slot)
    (admitted : phase.admitted = true) (unclaimed : phase.claimed = none)
    (unmoved : phase.money = .unmoved)
    (claimable : config.Claimable phase provider signed.receipt.jobID)
    (stored : config.withhold = none → phase.stored = some (provider, signed))
    (affordable : config.exceedsCeiling bill.buyer = false) :
    (settle tenant provider signed.receipt.jobID bill).Obeys config.discipline
      (config.Accounted tenant slot provider signed bill) phase := by
  refine obeys_send (fun claimed => ?_) ⟨unclaimed, unmoved, provider, claimable⟩
  cases claimed with
  | false => exact obeys_return ⟨rfl, tenant_eq, slot_eq, unmoved⟩
  | true =>
    refine obeys_send (fun _ => ?_) ⟨unmoved, _, rfl, claimable⟩
    refine obeys_send (fun _ => ?_) ⟨_, rfl⟩
    refine obeys_send (fun _ => ?_) ⟨tenant_eq.symm, admitted, affordable, _, _, _, rfl⟩
    exact
      { tenant_eq := tenant_eq, slot_eq := slot_eq, money := rfl, claimed := rfl, stored := stored }

section Running

variable (running : Running tenant slot phase)
include running

theorem storeAndSettle_obeys {provider : Text} {signed : SignedReceipt} {bill : Bill} (verified : config.verify signed = none) :
    (config.storeAndSettle tenant provider signed bill).Obeys config.discipline
      (fun later ended => config.Accounted tenant slot provider signed bill later ended.2 ∧
        (ended.2 = none → ended.1 = true)) phase := by
  have storable : config.permitted phase (.put provider signed) :=
    ⟨running.stored, running.claimed, verified⟩
  unfold storeAndSettle
  split
  · refine obeys_send (fun refused => ?_) storable
    cases refused with
    | none =>
      exact obeys_return ⟨⟨rfl, running.tenant_eq, running.slot_eq, running.money⟩, by simp⟩
    | some reason => exact obeys_return ⟨⟨rfl, running.idle⟩, by simp⟩
  · next affordable =>
    refine obeys_send (fun refused => ?_) storable
    cases refused with
    | some reason => exact obeys_return ⟨⟨rfl, running.idle⟩, by simp⟩
    | none =>
      have settled := @settle_obeys config
        { phase with stored := some (provider, signed) } tenant slot provider signed bill
        running.tenant_eq running.slot_eq running.admitted running.claimed running.money
        (Or.inr ⟨signed, rfl, rfl⟩) (fun _ => rfl) (Bool.eq_false_iff.mpr affordable)
      refine .bind settled ?_
      intro later error accounted
      exact obeys_return ⟨accounted, fun _ => rfl⟩

theorem settleReceipt_obeys {provider : Text} {signed : SignedReceipt} {bill : Bill} (verified : config.verify signed = none) :
    (config.settleReceipt tenant provider signed bill).Obeys config.discipline
      (fun later ended => config.Accounted tenant slot provider signed bill later ended.2) phase := by
  unfold settleReceipt
  split
  · next hidden =>
    have withholds : config.withhold ≠ none := by
      intro unset
      rw [withheld, unset] at hidden
      cases hidden.2
    have settled := @settle_obeys config phase tenant slot provider signed bill
      running.tenant_eq running.slot_eq running.admitted running.claimed running.money
      (Or.inl withholds) (fun unset => absurd unset withholds) hidden.1
    refine .bind settled ?_
    intro later error accounted
    exact obeys_return accounted
  · exact (storeAndSettle_obeys running verified).mono fun _ _ both => both.1

/-! ### Requests -/

variable (config) in
/-- A request whose outcome says what it booked. -/
def Executed (tenant : Text) (slot : Slot) (provider : Text) (phase : Phase) (outcome : Outcome)
    (error : Option HubError) : Prop :=
  config.Accounted tenant slot provider outcome.receipt
    { charged := outcome.charged, commission := outcome.commission, buyer := outcome.buyer }
    phase error

theorem account_obeys {model : Text} {spec : Spec} {card : RateCard} {result : Result} :
    (config.account tenant model spec card result).Obeys config.discipline
      (fun later ended => config.Executed tenant slot spec.provider later ended.1 ended.2)
      phase := by
  unfold account
  cases verified : config.verify result.receipt with
  | some reason => exact obeys_return ⟨rfl, running.idle⟩
  | none =>
    refine obeys_send fun _ => ?_
    split
    · exact obeys_return ⟨rfl, running.idle⟩
    split
    · exact obeys_return ⟨rfl, running.idle⟩
    dsimp only
    cases config.bill card model (result.chunks.map List.length).sum
        result.receipt.receipt with
    | none => exact obeys_return ⟨rfl, running.idle⟩
    | some bill =>
      refine .bind (settleReceipt_obeys running verified) ?_
      intro later ended accounted
      exact obeys_return accounted

theorem attachCredential_obeys {spec : Spec} :
    (attachCredential spec).Obeys config.discipline
      (fun later attached => Running tenant slot later ∧
        match attached with
        | .ok bound => bound.provider = spec.provider
        | .error error => error.isRelay = false) phase := by
  refine obeys_send fun envelope => ?_
  rcases envelope with _ | (_ | encoded)
  · exact obeys_return ⟨running, rfl⟩
  · exact obeys_return ⟨running, rfl⟩
  · exact obeys_return ⟨running, rfl⟩

theorem attempt_obeys {callbacks : Callbacks} {model : Text} {spec : Spec} {body : Text} :
    (config.attempt callbacks tenant model spec body).Obeys config.discipline
      (fun later execution =>
        config.Executed tenant slot spec.provider later execution.outcome execution.error)
      phase := by
  refine obeys_send fun card => ?_
  cases card with
  | none => exact obeys_return ⟨rfl, running.idle⟩
  | some card =>
    refine .bind (attachCredential_obeys running) ?_
    intro later attached both
    obtain ⟨running, same⟩ := both
    cases attached with
    | error error => exact obeys_return ⟨same, running.idle⟩
    | ok bound =>
      refine obeys_send fun _ => ?_
      refine obeys_send fun answer => ?_
      cases answer with
      | unreachable reason => exact obeys_return ⟨rfl, running.idle⟩
      | stream frames =>
        dsimp only
        rcases config.seam.readSSE callbacks frames with ⟨result, _ | error⟩
        · refine .bind (account_obeys running) ?_
          intro last ended executed
          rw [same] at executed
          exact obeys_return executed
        · exact obeys_return ⟨rfl, running.idle⟩

end Running

theorem execute_obeys (callbacks : Callbacks) (tenant model : Text) (spec : Spec) (body : Text) :
    (config.execute callbacks tenant model spec body).Obeys config.discipline
      (fun later execution => config.ends (.execute callbacks tenant model spec body) later
        (.executed execution)) (Phase.begin tenant) := by
  refine .bind (beginJob_obeys tenant) ?_
  intro later refused begun
  cases refused with
  | some error => exact obeys_return ⟨begun.2.1, begun.2.2⟩
  | none =>
    refine .bind (attempt_obeys begun) ?_
    intro last execution executed
    obtain ⟨outcome, error, handed⟩ := execution
    cases error with
    | none =>
      refine obeys_send (fun _ => ?_) ⟨executed.tenant_eq.symm, executed.slot_eq⟩
      exact obeys_return ⟨Slot.noConfusion, executed.money, executed.claimed, executed.stored⟩
    | some error =>
      refine obeys_send (fun _ => ?_) ⟨executed.2.tenant_eq.symm, executed.2.slot_eq⟩
      exact obeys_return ⟨Slot.noConfusion, executed.2.money⟩

/-! ### Sessions -/

/-- A session that opened is running, and one that did not is refused. -/
def Opened (tenant : Text) (slot : Slot) (phase : Phase) : Except HubError Spec → Prop
  | .ok _ => Running tenant slot phase
  | .error error => error.isRelay = false ∧ Running tenant slot phase

theorem openAmong_obeys {model : Text} {providers : List Text} (running : Running tenant slot phase) :
    (config.openAmong model providers).Obeys config.discipline (Opened tenant slot) phase := by
  induction providers generalizing phase with
  | nil => exact obeys_return ⟨rfl, running⟩
  | cons provider rest ih =>
    refine obeys_send fun built => ?_
    cases built with
    | error reason => exact obeys_return ⟨rfl, running⟩
    | ok spec =>
      refine .bind (attachCredential_obeys running) ?_
      intro later attached both
      obtain ⟨running, same⟩ := both
      cases attached with
      | error error => exact obeys_return ⟨same, running⟩
      | ok bound =>
        refine obeys_send fun opened => ?_
        cases opened with
        | true => exact obeys_return running
        | false => exact ih running

theorem openSessionFor_obeys {model : Text} {pinned : Option Text}
    (running : Running tenant slot phase) :
    (config.openSessionFor model pinned).Obeys config.discipline (Opened tenant slot) phase := by
  cases pinned with
  | some provider =>
    refine obeys_send fun serves => ?_
    cases serves with
    | true => exact openAmong_obeys running
    | false => exact obeys_return ⟨rfl, running⟩
  | none =>
    refine obeys_send fun providers => ?_
    split
    · refine obeys_send fun gone => ?_
      cases gone with
      | true | false => exact obeys_return ⟨rfl, running⟩
    · exact openAmong_obeys running

theorem openSession_obeys (tenant model : Text) (pinned : Option Text) :
    (config.openSession tenant model pinned).Obeys config.discipline
      (fun later opened => match opened with
        | .ok _ => Running tenant .held later
        | .error error => error.isRelay = false ∧ later.slot ≠ .held ∧ later.money = .unmoved)
      (Phase.begin tenant) := by
  refine .bind (beginJob_obeys tenant) ?_
  intro later refused begun
  cases refused with
  | some error => exact obeys_return begun
  | none =>
    refine .bind (openSessionFor_obeys begun) ?_
    intro last opened kept
    cases opened with
    | ok spec => exact obeys_return kept
    | error error =>
      refine obeys_send (fun _ => ?_) ⟨kept.2.tenant_eq.symm, kept.2.slot_eq⟩
      exact obeys_return ⟨kept.1, Slot.noConfusion, kept.2.money⟩

theorem ends_unsettled {model : Text} {pinned : Option Text} {session : SessionEnd}
    (returned : phase.slot ≠ .held) (unmoved : phase.money = .unmoved)
    (unsettled : session.settled = false) :
    config.ends (.session tenant model pinned) phase (.ended session) := by
  refine ⟨returned, ?_⟩
  simp only [HubJob.settlement, unsettled]
  exact unmoved

theorem Running.ends_unsettled {model : Text} {pinned : Option Text} {session : SessionEnd}
    (running : Running tenant .returned phase) (unsettled : session.settled = false) :
    config.ends (.session tenant model pinned) phase (.ended session) :=
  Config.ends_unsettled (by rw [running.slot_eq]; exact Slot.noConfusion) running.money unsettled

theorem accountSession_obeys {model : Text} {pinned : Option Text} {spec : Spec}
    {relayed : RelayEnd} {signed : SignedReceipt} (running : Running tenant .returned phase) :
    (config.accountSession tenant model spec relayed signed).Obeys config.discipline
      (fun later ending => config.ends (.session tenant model pinned) later (.ended ending))
      phase := by
  unfold accountSession
  cases verified : config.verify signed with
  | some reason => exact obeys_return (running.ends_unsettled rfl)
  | none =>
    refine obeys_send fun _ => ?_
    split
    · exact obeys_return (running.ends_unsettled rfl)
    split
    · exact obeys_return (running.ends_unsettled rfl)
    refine obeys_send fun card => ?_
    cases card with
    | none => exact obeys_return (running.ends_unsettled rfl)
    | some card =>
      dsimp only
      cases config.bill card model relayed.down signed.receipt with
      | none => exact obeys_return (running.ends_unsettled rfl)
      | some bill =>
        refine .bind (storeAndSettle_obeys running verified) ?_
        intro later ended both
        obtain ⟨stored, error⟩ := ended
        obtain ⟨accounted, kept⟩ := both
        cases error with
        | none =>
          obtain rfl : stored = true := kept rfl
          refine ⟨by rw [accounted.slot_eq]; exact Slot.noConfusion, ?_⟩
          cases relayed.error <;> exact ⟨accounted.money, accounted.claimed, accounted.stored⟩
        | some error =>
          apply ends_unsettled
          · rw [accounted.2.slot_eq]
            exact Slot.noConfusion
          · exact accounted.2.money
          · simp [SessionEnd.settled, accounted.1]

theorem runRealtime_obeys (tenant model : Text) (pinned : Option Text) :
    (config.runRealtime tenant model pinned).Obeys config.discipline
      (fun later ending => config.ends (.session tenant model pinned) later (.ended ending))
      (Phase.begin tenant) := by
  refine .bind (openSession_obeys tenant model pinned) ?_
  intro later opened begun
  cases opened with
  | error error =>
    exact obeys_return (ends_unsettled begun.2.1 begun.2.2 rfl)
  | ok spec =>
    refine obeys_send fun _ => ?_
    refine obeys_send (fun _ => ?_) ⟨begun.tenant_eq.symm, begun.slot_eq⟩
    have running : Running tenant .returned { later with slot := .returned } :=
      { tenant_eq := begun.tenant_eq
        slot_eq := rfl
        admitted := begun.admitted
        stored := begun.stored
        claimed := begun.claimed
        money := begun.money }
    refine obeys_send fun relayed => ?_
    unfold endSession
    split
    · exact obeys_return (running.ends_unsettled rfl)
    refine obeys_send fun receipt => ?_
    cases receipt with
    | error reason => exact obeys_return (running.ends_unsettled rfl)
    | ok signed => exact accountSession_obeys running

/-! ### All calls -/

theorem body_obeys (job : HubJob) :
    (config.body job).Obeys config.discipline (config.ends job) (Phase.begin job.tenant) := by
  cases job with
  | execute callbacks tenant model spec body =>
    refine .bind (execute_obeys callbacks tenant model spec body) ?_
    intro later execution ended
    exact obeys_return ended
  | session tenant model pinned =>
    refine .bind (runRealtime_obeys tenant model pinned) ?_
    intro later ending ended
    exact obeys_return ended

end Config

/-! ### One turn among many calls -/

abbrev HubThread := Thread hub HubJob CallResult

abbrev HubPool := Pool hub Tables HubJob CallResult

def phaseOf (thread : HubThread) : Phase :=
  thread.events.foldl (fun phase event => phase.after event.request event.answer)
    (.begin thread.job.tenant)

variable {config : Config} {limits : Limits} {allowed : HubPool → Turn hub HubJob → Prop}
  {before after pool : HubPool}

theorem follows_conduct (reached : (config.calls limits).machine.Reach allowed pool)
    {thread : HubThread} (member : thread ∈ pool.threads) :
    thread.program.Obeys config.discipline (config.ends thread.job) (phaseOf thread) := by
  have follows : Concurrent.Follows config.discipline (fun job => Phase.begin job.tenant)
      config.ends thread :=
    Concurrent.follows_everywhere (fun job => config.body_obeys job) reached thread member
  exact follows

/-- What is known of a turn besides what the pools say. -/
structure Turned (config : Config) (limits : Limits) (before after : HubPool) where
  index : Nat
  advance : (config.calls limits).Advance before index after
  permitted : config.permitted (phaseOf advance.thread) advance.request
  admitted : limits.admits before.shared advance.request advance.answer = true
  shared : after.shared = limits.after before.shared advance.request advance.answer
  phase : phaseOf advance.turned = (phaseOf advance.thread).after advance.request advance.answer

theorem turned_cases (reached : (config.calls limits).machine.Reach allowed before)
    {turn : Turn hub HubJob} (taken : (config.calls limits).machine.step before turn = some after) :
    (∃ job, turn = .spawn job ∧ after = (config.calls limits).spawned before job) ∨
      ∃ turned : Turned config limits before after,
        ∃ oracle, turn = .step turned.index oracle := by
  rcases Concurrent.step_cases taken with spawned | ⟨index, oracle, same, advance, _⟩
  · exact Or.inl spawned
  right
  have obeys := follows_conduct reached (List.mem_of_getElem? advance.found)
  rw [advance.sends] at obeys
  have handled : limits.handle before.shared advance.request advance.answer =
      some advance.shared := advance.handled
  obtain ⟨admitted, result⟩ := Limits.handle_eq_some handled
  have shared : after.shared = advance.shared := congrArg Pool.shared advance.result
  refine ⟨{ index := index
            advance := advance
            permitted := obeys.1
            admitted := admitted
            shared := shared.trans result
            phase := ?_ }, oracle, same⟩
  unfold phaseOf Concurrent.Advance.turned
  rw [List.foldl_append]
  rfl

end ReclaimTee.TokenHive.Hub
