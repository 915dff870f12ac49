/-
The tables all calls share: the slots in flight, the tenants' recorded spend,
the ledger, the receipts stored and the jobs settled. Each has its own lock, so
calls take turns at them one access at a time.
-/

import ReclaimTee.Table
import ReclaimTee.TokenHive.Hub.Realtime

namespace ReclaimTee.TokenHive.Hub

/-! ### In-flight slots -/

structure FlightLimiter where
  maxPerTenant : Nat
  maxTenants : Nat
deriving DecidableEq, Repr

namespace FlightLimiter

def inFlight (per : Table Text Nat) (tenant : Text) : Nat :=
  (per.find tenant).getD 0

def acquire (limiter : FlightLimiter) (per : Table Text Nat) (tenant : Text) :
    Bool × Table Text Nat :=
  if limiter.maxPerTenant ≤ inFlight per tenant then
    (false, per)
  else if inFlight per tenant = 0 ∧ 0 < limiter.maxTenants ∧ limiter.maxTenants ≤ per.size then
    (false, per)
  else
    (true, per.put tenant (inFlight per tenant + 1))

def release (per : Table Text Nat) (tenant : Text) : Table Text Nat :=
  if inFlight per tenant ≤ 1 then
    per.remove tenant
  else
    per.put tenant (inFlight per tenant - 1)

end FlightLimiter

/-! ### The ledger -/

structure ProviderAccount where
  dispatched : Nat
  verified : Nat
  settled : Nat
  revenue : Nat
  commission : Nat
deriving DecidableEq, Repr

def ProviderAccount.empty : ProviderAccount where
  dispatched := 0
  verified := 0
  settled := 0
  revenue := 0
  commission := 0

/-- The whole ledger has the fields of one account, and one account for each
provider. -/
structure Ledger where
  total : ProviderAccount
  accounts : Text → ProviderAccount

def Ledger.empty : Ledger where
  total := .empty
  accounts _ := .empty

def saturatingAdd (one other : Nat) : Nat :=
  (addChecked one other).getD (uint64Limit - 1)

namespace Ledger

def note (change : ProviderAccount → ProviderAccount) (provider : Text) (ledger : Ledger) :
    Ledger where
  total := change ledger.total
  accounts := Function.update ledger.accounts provider (change (ledger.accounts provider))

def noteDispatch : Text → Ledger → Ledger :=
  note fun account => { account with dispatched := account.dispatched + 1 }

def noteVerified : Text → Ledger → Ledger :=
  note fun account => { account with verified := account.verified + 1 }

def noteSettled (provider : Text) (micros : Nat) : Ledger → Ledger :=
  note (fun account =>
    { account with
      settled := account.settled + 1
      revenue := saturatingAdd account.revenue micros }) provider

def noteCommission (provider : Text) (micros : Nat) : Ledger → Ledger :=
  note (fun account =>
    { account with commission := saturatingAdd account.commission micros }) provider

end Ledger

/-! ### Settled jobs -/

def maxSettledJobs : Nat := 2 ^ 18

/-- The table of settled jobs starts over when it is full. -/
def claimSettlement (settled : List Text) (jobID : Text) : Bool × List Text :=
  if jobID ∈ settled then
    (false, settled)
  else if maxSettledJobs ≤ settled.length then
    (true, [jobID])
  else
    (true, jobID :: settled)

/-! ### The state all calls share -/

/-- A Hub without a limiter or without budgets bounds nothing there. -/
structure Limits where
  flight : Option FlightLimiter
  budgets : Text → Option Nat

structure Tables where
  per : Table Text Nat
  used : Text → Nat
  ledger : Ledger
  stored : List (Text × SignedReceipt)
  settled : List Text

def Tables.initial : Tables where
  per := .empty
  used _ := 0
  ledger := .empty
  stored := []
  settled := []

namespace Limits

variable (limits : Limits)

def acquire (tables : Tables) (tenant : Text) : Bool × Tables :=
  match limits.flight with
  | none => (true, tables)
  | some limiter =>
    let (free, per) := limiter.acquire tables.per tenant
    (free, { tables with per := per })

def release (tables : Tables) (tenant : Text) : Tables :=
  match limits.flight with
  | none => tables
  | some _ => { tables with per := FlightLimiter.release tables.per tenant }

def allowBudget (tables : Tables) (tenant : Text) : Bool :=
  match limits.budgets tenant with
  | none => true
  | some ceiling => tables.used tenant < ceiling

/-- A tenant without a provisioned budget is not recorded. -/
def record (tables : Tables) (tenant : Text) (micros : Nat) : Tables :=
  match limits.budgets tenant with
  | none => tables
  | some _ =>
    { tables with
      used := Function.update tables.used tenant (saturatingAdd (tables.used tenant) micros) }

/-- The store refuses a second receipt for a provider and sequence number, and
may refuse any other. -/
def holds (tables : Tables) (provider : Text) (signed : SignedReceipt) : Bool :=
  tables.stored.any fun kept =>
    kept.1 = provider ∧ kept.2.receipt.providerSeq = signed.receipt.providerSeq

/-- Answers that these tables determine; all others come from outside. -/
def admits (tables : Tables) : (request : HubRequest) → request.Answer → Bool
  | .acquire tenant, free => free = (limits.acquire tables tenant).1
  | .allowBudget tenant, affordable => affordable = limits.allowBudget tables tenant
  | .put provider signed, none => !holds tables provider signed
  | .claimSettlement jobID, claimed => claimed = (Hub.claimSettlement tables.settled jobID).1
  | _, _ => true

def after (tables : Tables) : (request : HubRequest) → request.Answer → Tables
  | .acquire tenant, _ => (limits.acquire tables tenant).2
  | .release tenant, _ => limits.release tables tenant
  | .noteDispatch provider, _ =>
    { tables with ledger := tables.ledger.noteDispatch provider }
  | .noteVerified provider, _ =>
    { tables with ledger := tables.ledger.noteVerified provider }
  | .noteSettled provider micros, _ =>
    { tables with ledger := tables.ledger.noteSettled provider micros }
  | .noteCommission provider micros, _ =>
    { tables with ledger := tables.ledger.noteCommission provider micros }
  | .chargeTenant tenant micros, _ => limits.record tables tenant micros
  | .put provider signed, none =>
    { tables with stored := tables.stored ++ [(provider, signed)] }
  | .claimSettlement jobID, _ =>
    { tables with settled := (Hub.claimSettlement tables.settled jobID).2 }
  | _, _ => tables

def handle (tables : Tables) (request : HubRequest) (answer : request.Answer) : Option Tables :=
  if limits.admits tables request answer then
    some (limits.after tables request answer)
  else
    none

variable {limits} {tables later : Tables} {request : HubRequest} {answer : request.Answer}

theorem handle_eq_some (handled : limits.handle tables request answer = some later) :
    limits.admits tables request answer = true ∧ later = limits.after tables request answer := by
  unfold handle at handled
  split at handled
  · next admitted => exact ⟨admitted, (Option.some.inj handled).symm⟩
  · cases handled

end Limits

/-! ### Calls that run at once -/

inductive HubJob
  | execute (callbacks : Callbacks) (tenant model : Text) (spec : Spec) (body : Text)
  | session (tenant model : Text) (pinned : Option Text)

def HubJob.tenant : HubJob → Text
  | execute _ tenant _ _ _ => tenant
  | session tenant _ _ => tenant

inductive CallResult
  | executed (execution : Execution)
  | ended (session : SessionEnd)

def Config.body (config : Config) : HubJob → HubProgram CallResult
  | .execute callbacks tenant model spec body => do
      let execution ← config.execute callbacks tenant model spec body
      return .executed execution
  | .session tenant model pinned => do
      let session ← config.runRealtime tenant model pinned
      return .ended session

def Config.calls (config : Config) (limits : Limits) : Concurrent hub Tables HubJob CallResult where
  initial := .initial
  body := config.body
  handle := limits.handle

end ReclaimTee.TokenHive.Hub
