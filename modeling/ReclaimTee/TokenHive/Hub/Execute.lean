/-
One request through the Hub, as a program over the shared tables, the receipt
store, the agents that are online and the TEE behind the seam. The tables are
locked one at a time, so each access is one request.
-/

import ReclaimTee.Program
import ReclaimTee.TokenHive.Hub.Pricing
import ReclaimTee.TokenHive.Hub.Seam

namespace ReclaimTee.TokenHive.Hub

inductive RelayError
  | sessionLimitExceeded
  | context
  | link (reason : Text)
  | tunnel (reason : Text)
deriving DecidableEq, Repr

inductive HubError
  | tooManyInflight (tenant : Text)
  | budgetExceeded (tenant : Text)
  | quotaExceeded (tenant : Text)
  | unknownProvider (provider : Text)
  | credential (provider : Text)
  | buildSpec (provider : Text) (reason : Text)
  | noProviderForModel (model : Text)
  | noProvidersOnline (model : Text)
  | seam (error : SeamError)
  | verify (reason : Text)
  | streamMismatch
  | responseStartMismatch
  | priceOverflow
  | jobPriceExceeded (buyer ceiling : Nat)
  | store (reason : Text)
  | duplicateSettlement (jobID : Text)
  | relay (error : RelayError)
  | noReceiptForSession (reason : Text)
  | sessionStatus (status : Nat)
  | sessionStreamMismatch
deriving DecidableEq, Repr

/-- The Hub's configuration, as far as calls read it. -/
structure Config where
  seam : Seam
  /-- The verifier; it looks at a receipt alone and says why it refuses it. -/
  verify : SignedReceipt → Option Text
  commission : CommissionRate
  /-- The ceiling on what one job may cost its buyer; zero is no ceiling. -/
  maxJob : Nat
  withhold : Option (Nat → Bool)
  sessionMaxDownBytes : Nat

/-- How a relayed session ended, by the Hub's own counts. -/
structure RelayEnd where
  up : Nat
  down : Nat
  downHash : Text
  error : Option RelayError
deriving DecidableEq, Repr

/-- The TEE's answer to a job: no stream at all, or the frames of one. -/
inductive SeamAnswer
  | unreachable (reason : Text)
  | stream (frames : List SSEEvent)
deriving DecidableEq, Repr

inductive HubRequest
  | acquire (tenant : Text)
  | release (tenant : Text)
  | allowBudget (tenant : Text)
  | allowQuota (tenant : Text)
  | card (provider : Text)
  | credential (provider : Text)
  | noteDispatch (provider : Text)
  | noteVerified (provider : Text)
  | noteSettled (provider : Text) (micros : Nat)
  | noteCommission (provider : Text) (micros : Nat)
  | chargeTenant (tenant : Text) (micros : Nat)
  | put (provider : Text) (receipt : SignedReceipt)
  | claimSettlement (jobID : Text)
  | execute (spec : Spec) (body : Text)
  | openSession (spec : Spec)
  | relaySession (spec : Spec)
  | sessionReceipt (spec : Spec)
  | build (provider : Text)
  | providersForModel (model : Text)
  | providerServes (provider model : Text)
  | agentsGone
deriving DecidableEq, Repr

@[reducible] def HubRequest.Answer : HubRequest → Type
  | acquire _ => Bool
  | release _ => Unit
  | allowBudget _ => Bool
  | allowQuota _ => Bool
  | card _ => Option RateCard
  -- The canonical encoding of the registered envelope, if there is one.
  | credential _ => Except Unit (Option Text)
  | noteDispatch _ => Unit
  | noteVerified _ => Unit
  | noteSettled _ _ => Unit
  | noteCommission _ _ => Unit
  | chargeTenant _ _ => Unit
  -- Why the store refused the receipt.
  | put _ _ => Option Text
  | claimSettlement _ => Bool
  | execute _ _ => SeamAnswer
  | openSession _ => Bool
  | relaySession _ => RelayEnd
  | sessionReceipt _ => Except Text SignedReceipt
  | build _ => Except Text Spec
  | providersForModel _ => List Text
  | providerServes _ _ => Bool
  | agentsGone => Bool

@[reducible] def hub : Interface where
  Request := HubRequest
  Answer := HubRequest.Answer

abbrev HubProgram := Program hub

def send (request : HubRequest) : HubProgram request.Answer :=
  @Program.ask hub request

theorem ends_of_send {Value : Type} {request : HubRequest} {rest : request.Answer → HubProgram Value}
    {events : List hub.Event} {result : Value} (run : (send request >>= rest).Ends events result) :
    ∃ (answer : request.Answer) (after : List hub.Event), (rest answer).Ends after result ∧
      events = ⟨request, answer⟩ :: after := by
  cases run with
  | call run => exact ⟨_, _, run, rfl⟩

/-! ### Admission -/

def admitTenant (tenant : Text) : HubProgram (Option HubError) := do
  let affordable ← send (.allowBudget tenant)
  if affordable then
    let within ← send (.allowQuota tenant)
    if within then
      return none
    else
      return some (.quotaExceeded tenant)
  else
    return some (.budgetExceeded tenant)

/-- Takes the in-flight slot first and gives it back if the tenant is refused. -/
def beginJob (tenant : Text) : HubProgram (Option HubError) := do
  let free ← send (.acquire tenant)
  if free then
    let refused ← admitTenant tenant
    match refused with
    | none => return none
    | some error =>
      send (.release tenant)
      return some error
  else
    return some (.tooManyInflight tenant)

def attachCredential (spec : Spec) : HubProgram (Except HubError Spec) := do
  let envelope ← send (.credential spec.provider)
  match envelope with
  | .error _ => return .error (.credential spec.provider)
  | .ok none => return .ok spec
  | .ok (some encoded) => return .ok { spec with credential := encoded }

/-! ### Outcomes -/

structure Outcome where
  receipt : SignedReceipt
  chunks : List Text
  statusCode : Nat
  charged : Nat
  commission : Nat
  buyer : Nat
  stored : Bool
  failure : Option Failure
deriving DecidableEq, Repr

def Outcome.empty : Outcome where
  receipt := .zero
  chunks := []
  statusCode := 0
  charged := 0
  commission := 0
  buyer := 0
  stored := false
  failure := none

def attemptOutcome (result : Result) : Outcome :=
  { Outcome.empty with
    chunks := result.chunks
    statusCode := result.status
    failure := result.failure }

/-- What a call returned, and what its callbacks were handed. -/
structure Execution where
  outcome : Outcome
  error : Option HubError
  handed : List Callback
deriving DecidableEq, Repr

/-! ### Pricing what was received -/

structure Bill where
  charged : Nat
  commission : Nat
  buyer : Nat
deriving DecidableEq, Repr

namespace Config

variable (config : Config)

def bill (card : RateCard) (model : Text) (relayed : Nat) (receipt : Receipt) : Option Bill := do
  let charged ← price card model relayed receipt
  let commission ← config.commission.commissionOn charged
  let buyer ← addChecked charged commission
  return { charged := charged, commission := commission, buyer := buyer }

def exceedsCeiling (buyer : Nat) : Bool :=
  0 < config.maxJob ∧ config.maxJob < buyer

def withheld (seq : Nat) : Bool :=
  match config.withhold with
  | none => false
  | some hides => hides seq

def billedOutcome (result : Result) (bill : Bill) (stored : Bool) : Outcome where
  receipt := result.receipt
  chunks := result.chunks
  statusCode := result.status
  charged := bill.charged
  commission := bill.commission
  buyer := bill.buyer
  stored := stored
  failure := result.failure

/-! ### Execute -/

/-- Books a bill once its job is claimed. -/
def settle (tenant provider jobID : Text) (bill : Bill) : HubProgram (Option HubError) := do
  let claimed ← send (.claimSettlement jobID)
  if claimed then
    send (.noteSettled provider bill.charged)
    send (.noteCommission provider bill.commission)
    send (.chargeTenant tenant bill.buyer)
    return none
  else
    return some (.duplicateSettlement jobID)

/-- The receipt is kept before money moves, and is kept also when the price is
above the ceiling and none moves. -/
def storeAndSettle (tenant provider : Text) (signed : SignedReceipt) (bill : Bill) :
    HubProgram (Bool × Option HubError) := do
  if config.exceedsCeiling bill.buyer then
    let refused ← send (.put provider signed)
    match refused with
    | some reason => return (false, some (.store reason))
    | none => return (true, some (.jobPriceExceeded bill.buyer config.maxJob))
  else
    let refused ← send (.put provider signed)
    match refused with
    | some reason => return (false, some (.store reason))
    | none =>
      let error ← settle tenant provider signed.receipt.jobID bill
      return (true, error)

/-- A withheld receipt is settled and never stored. -/
def settleReceipt (tenant provider : Text) (signed : SignedReceipt) (bill : Bill) :
    HubProgram (Bool × Option HubError) := do
  if config.exceedsCeiling bill.buyer = false ∧ config.withheld signed.receipt.providerSeq then
    let error ← settle tenant provider signed.receipt.jobID bill
    return (false, error)
  else
    config.storeAndSettle tenant provider signed bill

/-- What Execute does with a result: verify, compare, price, settle. -/
def account (tenant model : Text) (spec : Spec) (card : RateCard) (result : Result) :
    HubProgram (Outcome × Option HubError) := do
  match config.verify result.receipt with
  | some reason => return (attemptOutcome result, some (.verify reason))
  | none =>
    send (.noteVerified spec.provider)
    if result.receipt.receipt.matchesStream config.seam.digests result.chunks = false then
      return (attemptOutcome result, some .streamMismatch)
    else if config.seam.receiptMatchesStart result.receipt.receipt result.status result.headers =
        false then
      return (attemptOutcome result, some .responseStartMismatch)
    else
      let relayed := (result.chunks.map List.length).sum
      match config.bill card model relayed result.receipt.receipt with
      | none => return (attemptOutcome result, some .priceOverflow)
      | some bill =>
        let (stored, error) ← config.settleReceipt tenant spec.provider result.receipt bill
        return (billedOutcome result bill stored, error)

/-- The dispatch and what follows, while the in-flight slot is held. -/
def attempt (callbacks : Callbacks) (tenant model : Text) (spec : Spec) (body : Text) :
    HubProgram Execution := do
  let card ← send (.card spec.provider)
  match card with
  | none => return ⟨.empty, some (.unknownProvider spec.provider), []⟩
  | some card =>
    let attached ← attachCredential spec
    match attached with
    | .error error => return ⟨.empty, some error, []⟩
    | .ok spec =>
      send (.noteDispatch spec.provider)
      let answer ← send (.execute spec body)
      match answer with
      | .unreachable reason => return ⟨.empty, some (.seam (.unreachable reason)), []⟩
      | .stream frames =>
        let handed := (config.seam.readFrames callbacks frames).handed
        match config.seam.readSSE callbacks frames with
        | (result, some error) => return ⟨attemptOutcome result, some (.seam error), handed⟩
        | (result, none) =>
          let (outcome, error) ← config.account tenant model spec card result
          return ⟨outcome, error, handed⟩

def execute (callbacks : Callbacks) (tenant model : Text) (spec : Spec) (body : Text) :
    HubProgram Execution := do
  let refused ← beginJob tenant
  match refused with
  | some error => return ⟨.empty, some error, []⟩
  | none =>
    let execution ← config.attempt callbacks tenant model spec body
    send (.release tenant)
    return execution

end Config

end ReclaimTee.TokenHive.Hub
