/-
Money moves with a stored, verified receipt and once. A total of the tables is
the sum, over all calls, of what each has booked so far, and a call that returned
has booked what its outcome says.
-/

import ReclaimTee.TokenHive.Hub.Conduct

namespace ReclaimTee.TokenHive.Hub

open List Option

/-! ### Requests that move money -/

def HubRequest.movesMoney : HubRequest → Bool
  | noteSettled _ _ => true
  | noteCommission _ _ => true
  | chargeTenant _ _ => true
  | _ => false

namespace Phase

variable {request : HubRequest}

theorem after_money (phase : Phase) (answer : request.Answer)
    (still : request.movesMoney = false) : (phase.after request answer).money = phase.money := by
  cases request with
  | acquire | allowBudget | put | claimSettlement => cases answer <;> rfl
  | noteSettled | noteCommission | chargeTenant => cases still
  | _ => rfl

theorem after_moved (phase : Phase) (answer : request.Answer)
    (moves : request.movesMoney = true) : (phase.after request answer).money ≠ .unmoved := by
  cases request with
  | noteSettled | noteCommission | chargeTenant => exact Money.noConfusion
  | _ => cases moves

theorem after_tenant (phase : Phase) (answer : request.Answer) :
    (phase.after request answer).tenant = phase.tenant := by
  cases request with
  | acquire | allowBudget | put | claimSettlement => cases answer <;> rfl
  | _ => rfl

theorem never_moved {events : List hub.Event} {phase : Phase}
    (unmoved : (events.foldl (fun reached event => reached.after event.request event.answer)
      phase).money = .unmoved) :
    phase.money = .unmoved ∧ ∀ event ∈ events, event.request.movesMoney = false := by
  induction events generalizing phase with
  | nil => exact ⟨unmoved, nofun⟩
  | cons event rest ih =>
    obtain ⟨first, later⟩ := ih unmoved
    cases moves : event.request.movesMoney with
    | true => exact absurd first (phase.after_moved event.answer moves)
    | false =>
      rw [phase.after_money event.answer moves] at first
      refine ⟨first, ?_⟩
      intro other member
      rcases mem_cons.mp member with rfl | inRest
      · exact moves
      · exact later other inRest

end Phase

/-! ### Accounts -/

/-- The account of one provider, or that of the whole ledger. -/
def Ledger.account (ledger : Ledger) : Option Text → ProviderAccount
  | none => ledger.total
  | some provider => ledger.accounts provider

/-- Whose bookings an account holds. -/
def countsFor (who : Option Text) (provider : Text) : Bool :=
  who.all (· = provider)

theorem Ledger.account_note (change : ProviderAccount → ProviderAccount) (ledger : Ledger)
    (provider : Text) (who : Option Text) :
    (ledger.note change provider).account who =
      if countsFor who provider then change (ledger.account who) else ledger.account who := by
  cases who with
  | none => rfl
  | some asked =>
    by_cases same : asked = provider
    · subst same
      simp [account, note, countsFor]
    · simp [account, note, countsFor, same]

theorem saturatingAdd_eq (one other : Nat) :
    saturatingAdd one other = min (one + other) (uint64Limit - 1) := by
  unfold saturatingAdd addChecked
  split
  · simp only [getD_some]
    omega
  · simp only [getD_none]
    omega

namespace Limits

variable (limits : Limits) (tables : Tables)

theorem after_ledger_still {request : HubRequest} (answer : request.Answer)
    (still : request.movesMoney = false) (who : Option Text) :
    ((limits.after tables request answer).ledger.account who).revenue =
        (tables.ledger.account who).revenue ∧
      ((limits.after tables request answer).ledger.account who).commission =
        (tables.ledger.account who).commission := by
  cases request with
  | acquire | release =>
    simp only [after, acquire, release]
    split <;> exact ⟨rfl, rfl⟩
  | noteDispatch | noteVerified =>
    simp only [after, Ledger.noteDispatch, Ledger.noteVerified, Ledger.account_note]
    split <;> exact ⟨rfl, rfl⟩
  | put provider signed => cases answer <;> exact ⟨rfl, rfl⟩
  | noteSettled | noteCommission | chargeTenant => cases still
  | _ => exact ⟨rfl, rfl⟩

theorem after_used_still {request : HubRequest} (answer : request.Answer)
    (still : request.movesMoney = false) :
    (limits.after tables request answer).used = tables.used := by
  cases request with
  | acquire | release =>
    simp only [after, acquire, release]
    split <;> rfl
  | put provider signed => cases answer <;> rfl
  | noteSettled | noteCommission | chargeTenant => cases still
  | _ => rfl

end Limits

/-! ### Totals that grow with what calls book -/

/-- A total of the tables, and what a call counts for in it by its tenant and by
what it booked. -/
structure Meter (config : Config) (limits : Limits) where
  reading : Tables → Nat
  weight : Text → Money → Nat
  initially : reading .initial = 0
  unmoved : ∀ tenant, weight tenant .unmoved = 0
  still : ∀ (tables : Tables) (request : HubRequest) (answer : request.Answer),
    request.movesMoney = false → reading (limits.after tables request answer) = reading tables
  /-- A permitted request adds to the reading what it adds to the weight. -/
  moves : ∀ (tables : Tables) (phase : Phase) (request : HubRequest) (answer : request.Answer),
    config.permitted phase request → request.movesMoney = true →
      ∃ amount, weight phase.tenant (phase.after request answer).money =
          weight phase.tenant phase.money + amount ∧
        (reading (limits.after tables request answer) = saturatingAdd (reading tables) amount ∨
          amount = 0 ∧ reading (limits.after tables request answer) = reading tables)

section Calls

variable {config : Config} {limits : Limits} {allowed : HubPool → Turn hub HubJob → Prop}
  {pool : HubPool}

namespace Meter

variable (meter : Meter config limits)

def weigh (phase : Phase) : Nat :=
  meter.weight phase.tenant phase.money

theorem adds (tables : Tables) {phase : Phase} {request : HubRequest} (answer : request.Answer)
    (permitted : config.permitted phase request) :
    ∃ amount, meter.weigh (phase.after request answer) = meter.weigh phase + amount ∧
      (meter.reading (limits.after tables request answer) =
          saturatingAdd (meter.reading tables) amount ∨
        amount = 0 ∧ meter.reading (limits.after tables request answer) = meter.reading tables) := by
  unfold weigh
  rw [phase.after_tenant]
  cases moves : request.movesMoney with
  | true => exact meter.moves tables phase request answer permitted moves
  | false =>
    refine ⟨0, ?_, Or.inr ⟨rfl, meter.still tables request answer moves⟩⟩
    rw [phase.after_money answer moves, Nat.add_zero]

theorem reads (reached : (config.calls limits).machine.Reach allowed pool) :
    meter.reading pool.shared =
      min (Concurrent.total (fun thread => meter.weigh (phaseOf thread)) pool)
        (uint64Limit - 1) := by
  apply Machine.Reach.invariant_given (fun _ known => known) _ _ reached
  · rw [show (config.calls limits).machine.start.shared = .initial from rfl, meter.initially]
    rfl
  · intro before turn after known held _permitted taken
    rcases turned_cases known taken with ⟨job, _, rfl⟩ | ⟨turned, _⟩
    · rw [Concurrent.total_spawned]
      have fresh : meter.weigh (phaseOf
          { job := job, program := (config.calls limits).body job, events := [] }) = 0 :=
        meter.unmoved job.tenant
      rw [fresh]
      exact held
    · have sums := turned.advance.total fun thread => meter.weigh (phaseOf thread)
      obtain ⟨amount, weighs, reads⟩ :=
        meter.adds before.shared turned.advance.answer turned.permitted
      rw [turned.phase] at sums
      rw [turned.shared]
      rcases reads with adds | ⟨zero, same⟩
      · rw [adds, saturatingAdd_eq]
        omega
      · rw [same]
        omega

end Meter

namespace Money

def chargedTo (who : Option Text) (money : Money) : Nat :=
  if countsFor who money.provider then money.charged else 0

def commissionTo (who : Option Text) (money : Money) : Nat :=
  if countsFor who money.provider then money.commission else 0

theorem chargedTo_unmoved (who : Option Text) : chargedTo who unmoved = 0 :=
  ite_self 0

theorem commissionTo_unmoved (who : Option Text) : commissionTo who unmoved = 0 :=
  ite_self 0

theorem commissionTo_noted (who : Option Text) (provider : Text) (charged : Nat) :
    commissionTo who (noted provider charged) = 0 :=
  ite_self 0

end Money

def Phase.billedTo (tenant : Text) (phase : Phase) : Nat :=
  if phase.tenant = tenant then phase.money.buyer else 0

variable (config limits) in
def revenueMeter (who : Option Text) : Meter config limits where
  reading tables := (tables.ledger.account who).revenue
  weight _ money := money.chargedTo who
  initially := by cases who <;> rfl
  unmoved _ := Money.chargedTo_unmoved who
  still tables _ answer still := (limits.after_ledger_still tables answer still who).1
  moves := by
    intro tables phase request answer permitted moves
    cases request with
    | noteSettled provider micros =>
      refine ⟨if countsFor who provider then micros else 0, ?_, ?_⟩
      · rw [permitted.1, Money.chargedTo_unmoved, Nat.zero_add]
        rfl
      · simp only [Limits.after, Ledger.noteSettled, Ledger.account_note]
        split
        · exact Or.inl rfl
        · exact Or.inr ⟨rfl, rfl⟩
    | noteCommission provider micros =>
      obtain ⟨charged, noted⟩ := permitted
      refine ⟨0, ?_, Or.inr ⟨rfl, ?_⟩⟩
      · rw [Phase.after, noted]
        rfl
      · simp only [Limits.after, Ledger.noteCommission, Ledger.account_note]
        split <;> rfl
    | chargeTenant tenant micros =>
      refine ⟨0, rfl, Or.inr ⟨rfl, ?_⟩⟩
      simp only [Limits.after, Limits.record]
      split <;> rfl
    | _ => cases moves

variable (config limits) in
def commissionMeter (who : Option Text) : Meter config limits where
  reading tables := (tables.ledger.account who).commission
  weight _ money := money.commissionTo who
  initially := by cases who <;> rfl
  unmoved _ := Money.commissionTo_unmoved who
  still tables _ answer still := (limits.after_ledger_still tables answer still who).2
  moves := by
    intro tables phase request answer permitted moves
    cases request with
    | noteSettled provider micros =>
      refine ⟨0, ?_, Or.inr ⟨rfl, ?_⟩⟩
      · rw [permitted.1, Money.commissionTo_unmoved]
        exact Money.commissionTo_noted who provider micros
      · simp only [Limits.after, Ledger.noteSettled, Ledger.account_note]
        split <;> rfl
    | noteCommission provider micros =>
      obtain ⟨charged, noted⟩ := permitted
      refine ⟨if countsFor who provider then micros else 0, ?_, ?_⟩
      · rw [noted, Money.commissionTo_noted, Nat.zero_add]
        rfl
      · simp only [Limits.after, Ledger.noteCommission, Ledger.account_note]
        split
        · exact Or.inl rfl
        · exact Or.inr ⟨rfl, rfl⟩
    | chargeTenant tenant micros =>
      refine ⟨0, rfl, Or.inr ⟨rfl, ?_⟩⟩
      simp only [Limits.after, Limits.record]
      split <;> rfl
    | _ => cases moves

variable (config) in
/-- Only a tenant with a provisioned budget has a record. -/
def spendMeter {tenant : Text} {ceiling : Nat} (provisioned : limits.budgets tenant = some ceiling) :
    Meter config limits where
  reading tables := tables.used tenant
  weight owner money := if owner = tenant then money.buyer else 0
  initially := rfl
  unmoved _ := ite_self 0
  still tables _ answer still := congrFun (limits.after_used_still tables answer still) tenant
  moves := by
    intro tables phase request answer permitted moves
    cases request with
    | noteSettled provider micros =>
      refine ⟨0, ?_, Or.inr ⟨rfl, rfl⟩⟩
      rw [permitted.1]
      rfl
    | noteCommission provider micros =>
      obtain ⟨charged, noted⟩ := permitted
      refine ⟨0, ?_, Or.inr ⟨rfl, rfl⟩⟩
      rw [noted]
      rfl
    | chargeTenant owner micros =>
      obtain ⟨rfl, _, _, _, _, _, booked⟩ := permitted
      by_cases mine : phase.tenant = tenant
      · refine ⟨micros, ?_, Or.inl ?_⟩
        · rw [if_pos mine, if_pos mine, booked]
          exact (Nat.zero_add micros).symm
        · simp [Limits.after, Limits.record, mine, provisioned]
      · refine ⟨0, ?_, Or.inr ⟨rfl, ?_⟩⟩
        · rw [if_neg mine, if_neg mine]
        · have other : tenant ≠ phase.tenant := fun same => mine same.symm
          simp only [Limits.after, Limits.record]
          split
          · rfl
          · exact Function.update_of_ne other _ _
    | _ => cases moves

/-! ### What holds of every phase -/

theorem phase_invariant {holds : Phase → Prop} (begins : ∀ tenant, holds (.begin tenant))
    (kept : ∀ (phase : Phase) (request : HubRequest) (answer : request.Answer),
      config.permitted phase request → holds phase → holds (phase.after request answer))
    (reached : (config.calls limits).machine.Reach allowed pool) :
    ∀ thread ∈ pool.threads, holds (phaseOf thread) := by
  intro thread member
  exact Concurrent.phase_everywhere (fun job => config.body_obeys job) reached
    (fun job => begins job.tenant) kept thread member

/-- Money is booked for a claimed job, and the job is claimed for a stored
receipt, which was verified. -/
structure Sound (config : Config) (phase : Phase) : Prop where
  claimed : phase.money ≠ .unmoved → phase.claimed ≠ none
  stored : config.withhold = none → phase.claimed ≠ none → phase.stored ≠ none
  verified : ∀ kept, phase.stored = some kept → config.verify kept.2 = none

theorem Sound.begin (tenant : Text) : Sound config (.begin tenant) where
  claimed moved := absurd rfl moved
  stored _ claimed := absurd rfl claimed
  verified _ impossible := by cases impossible

variable {request : HubRequest}

theorem Sound.after {phase : Phase} (answer : request.Answer)
    (permitted : config.permitted phase request) (sound : Sound config phase) :
    Sound config (phase.after request answer) := by
  obtain ⟨claimed, stored, verified⟩ := sound
  cases request with
  | acquire | allowBudget => cases answer <;> exact ⟨claimed, stored, verified⟩
  | put provider signed =>
    cases answer with
    | some reason => exact ⟨claimed, stored, verified⟩
    | none =>
      refine ⟨claimed, fun _ _ => some_ne_none _, ?_⟩
      intro kept same
      cases same
      exact permitted.2.2
  | claimSettlement jobID =>
    cases answer with
    | false => exact ⟨claimed, stored, verified⟩
    | true =>
      refine ⟨fun _ => some_ne_none _, ?_, verified⟩
      intro unset _
      obtain ⟨_, _, provider, withholds | ⟨signed, kept, _⟩⟩ := permitted
      · exact absurd unset withholds
      · exact fun lost => by rw [Phase.after, kept] at lost; cases lost
  | noteSettled provider micros =>
    obtain ⟨_, jobID, claimed, _⟩ := permitted
    exact ⟨fun _ lost => (by rw [Phase.after, claimed] at lost; cases lost), stored, verified⟩
  | noteCommission provider micros =>
    obtain ⟨charged, noted⟩ := permitted
    exact ⟨fun _ => claimed (by rw [noted]; exact Money.noConfusion), stored, verified⟩
  | chargeTenant tenant micros =>
    obtain ⟨_, _, _, _, _, _, booked⟩ := permitted
    exact ⟨fun _ => claimed (by rw [booked]; exact Money.noConfusion), stored, verified⟩
  | _ => exact ⟨claimed, stored, verified⟩

theorem sound_everywhere (reached : (config.calls limits).machine.Reach allowed pool) :
    ∀ thread ∈ pool.threads, Sound config (phaseOf thread) :=
  phase_invariant Sound.begin (fun _ _ answer permitted sound => sound.after answer permitted) reached

/-! ### The receipts calls have stored -/

namespace Limits

theorem after_stored_sub {request : HubRequest} (answer : request.Answer) (tables : Tables) :
    ∀ kept ∈ tables.stored, kept ∈ (limits.after tables request answer).stored := by
  intro kept member
  cases request with
  | acquire | release | chargeTenant =>
    simp only [after, acquire, release, record]
    split <;> exact member
  | put provider signed =>
    cases answer with
    | some reason => exact member
    | none => exact mem_append_left _ member
  | _ => exact member

end Limits

/-- A call begins to hold a receipt as stored when the store takes it. -/
theorem Phase.after_stored (answer : request.Answer) {phase : Phase} {kept : Text × SignedReceipt}
    (stored : (phase.after request answer).stored = some kept) :
    phase.stored = some kept ∨ (⟨request, answer⟩ : hub.Event) = ⟨.put kept.1 kept.2, none⟩ := by
  cases request with
  | acquire | allowBudget | claimSettlement => cases answer <;> exact .inl stored
  | put provider signed =>
    cases answer with
    | some reason => exact .inl stored
    | none =>
      cases stored
      exact .inr rfl
  | _ => exact .inl stored

theorem Phase.put_of_stored {events : List hub.Event} {phase : Phase} {kept : Text × SignedReceipt}
    (stored : (events.foldl (fun reached event => reached.after event.request event.answer)
      phase).stored = some kept) :
    phase.stored = some kept ∨ ⟨.put kept.1 kept.2, none⟩ ∈ events := by
  induction events generalizing phase with
  | nil => exact .inl stored
  | cons event rest ih =>
    rcases ih stored with before | later
    · rcases Phase.after_stored event.answer before with held | put
      · exact .inl held
      · exact .inr (put ▸ mem_cons_self)
    · exact .inr (mem_cons_of_mem _ later)

theorem stored_everywhere (reached : (config.calls limits).machine.Reach allowed pool) :
    ∀ thread ∈ pool.threads, ∀ kept, (phaseOf thread).stored = some kept →
      kept ∈ pool.shared.stored := by
  apply Machine.Reach.invariant_given (fun _ known => known) _ _ reached
  · nofun
  intro before turn after known held _permitted taken thread member kept stored
  rcases turned_cases known taken with ⟨job, _, rfl⟩ | ⟨turned, _⟩
  · rcases mem_append.mp member with old | new
    · exact held thread old kept stored
    · rw [mem_singleton.mp new] at stored
      cases stored
  · rw [turned.shared]
    have older : ∀ other ∈ before.threads, (phaseOf other).stored = some kept →
        kept ∈ (limits.after before.shared turned.advance.request turned.advance.answer).stored :=
      fun other inside was => Limits.after_stored_sub _ _ kept (held other inside kept was)
    obtain ⟨left, right, whole, changed⟩ := turned.advance.split
    rw [whole] at older
    rw [changed] at member
    rcases mem_append.mp member with earlier | later
    · exact older thread (mem_append_left _ earlier) stored
    rcases mem_cons.mp later with rfl | behind
    · rw [turned.phase] at stored
      rcases Phase.after_stored turned.advance.answer stored with was | put
      · exact older _ (mem_append_right _ mem_cons_self) was
      · have added : ∀ event : hub.Event, event = ⟨.put kept.1 kept.2, none⟩ →
            kept ∈ (limits.after before.shared event.request event.answer).stored := by
          rintro _ rfl
          exact mem_append_right _ (mem_singleton.mpr rfl)
        exact added _ put
    · exact older thread (mem_append_right _ (mem_cons_of_mem _ behind)) stored

/-! ### The jobs calls have claimed -/

def claims (pool : HubPool) : List Text :=
  pool.threads.filterMap fun thread => (phaseOf thread).claimed

theorem Phase.after_claimed (answer : request.Answer) (phase : Phase)
    (other : ∀ jobID, request ≠ .claimSettlement jobID) :
    (phase.after request answer).claimed = phase.claimed := by
  cases request with
  | acquire | allowBudget | put => cases answer <;> rfl
  | claimSettlement jobID => exact absurd rfl (other jobID)
  | _ => rfl

theorem Limits.after_settled (answer : request.Answer) (tables : Tables)
    (other : ∀ jobID, request ≠ .claimSettlement jobID) :
    (limits.after tables request answer).settled = tables.settled := by
  cases request with
  | acquire | release | chargeTenant =>
    simp only [after, acquire, release, record]
    split <;> rfl
  | put provider signed => cases answer <;> rfl
  | claimSettlement jobID => exact absurd rfl (other jobID)
  | _ => rfl

/-- A turn leaves the claims and the table of settled jobs alone, or adds a job
to the claims that the table admitted. -/
theorem Turned.claims_cases {before after : HubPool} (turned : Turned config limits before after) :
    (claims after = claims before ∧ after.shared.settled = before.shared.settled) ∨
      ∃ jobID, (claims after).Perm (jobID :: claims before) ∧
        claimSettlement before.shared.settled jobID = (true, after.shared.settled) := by
  by_cases claiming : ∃ jobID, turned.advance.request = .claimSettlement jobID
  · obtain ⟨jobID, asked⟩ := claiming
    have permitted := turned.permitted
    have admitted := turned.admitted
    have shared := congrArg Tables.settled turned.shared
    have phase := congrArg Phase.claimed turned.phase
    revert permitted admitted shared phase
    generalize turned.advance.answer = answer
    revert answer
    rw [asked]
    intro claimed permitted admitted shared phase
    have answered : claimed = (claimSettlement before.shared.settled jobID).1 :=
      of_decide_eq_true admitted
    cases claimed with
    | true =>
      right
      refine ⟨jobID, ?_, ?_⟩
      · exact turned.advance.carried (fun thread => (phaseOf thread).claimed) permitted.1 phase
      · exact Prod.ext answered.symm shared.symm
    | false =>
      left
      refine ⟨turned.advance.carried_same (fun thread => (phaseOf thread).claimed) phase, ?_⟩
      rw [shared]
      simp only [Limits.after]
      unfold claimSettlement at answered ⊢
      split at answered
      · next known => rw [if_pos known]
      · split at answered <;> cases answered
  · left
    have other : ∀ jobID, turned.advance.request ≠ .claimSettlement jobID :=
      fun jobID same => claiming ⟨jobID, same⟩
    constructor
    · apply turned.advance.carried_same fun thread => (phaseOf thread).claimed
      rw [turned.phase]
      exact Phase.after_claimed _ _ other
    · rw [turned.shared]
      exact Limits.after_settled _ _ other

theorem claimSettlement_admitted {settled later : List Text} {jobID : Text}
    (room : settled.length < maxSettledJobs)
    (claimed : claimSettlement settled jobID = (true, later)) :
    jobID ∉ settled ∧ later = jobID :: settled := by
  unfold claimSettlement at claimed
  split at claimed
  · cases claimed
  · next fresh =>
    rw [if_neg (Nat.not_le.mpr room)] at claimed
    cases claimed
    exact ⟨fresh, rfl⟩

/-- As long as the table of settled jobs did not start over it holds the claimed
jobs, each once. -/
theorem claims_nodup (reached : (config.calls limits).machine.Reach allowed pool)
    (fits : (claims pool).length ≤ maxSettledJobs) :
    (claims pool).Nodup ∧ pool.shared.settled.Perm (claims pool) := by
  revert fits
  apply Machine.Reach.invariant_given (fun _ known => known) _ _ reached
  · intro _
    exact ⟨nodup_nil, List.Perm.refl _⟩
  · intro before turn after known held _permitted taken fits
    rcases turned_cases known taken with ⟨job, _, rfl⟩ | ⟨turned, _⟩
    · have same : claims ((config.calls limits).spawned before job) = claims before := by
        unfold claims Concurrent.spawned
        rw [filterMap_append]
        exact append_nil _
      rw [same] at fits ⊢
      exact held fits
    · rcases turned.claims_cases with ⟨same, settled⟩ | ⟨jobID, added, claimed⟩
      · rw [same] at fits ⊢
        rw [settled]
        exact held fits
      · have longer := added.length_eq
        rw [length_cons] at longer
        obtain ⟨distinct, table⟩ := held (by omega)
        have room : before.shared.settled.length < maxSettledJobs := by
          rw [table.length_eq]
          omega
        obtain ⟨fresh, grown⟩ := claimSettlement_admitted room claimed
        constructor
        · rw [added.nodup_iff, nodup_cons]
          exact ⟨fun member => fresh (table.mem_iff.mpr member), distinct⟩
        · rw [grown]
          exact (table.cons jobID).trans added.symm

/-! ### Outcomes -/

def outcomeOf (thread : HubThread) : Option CallResult :=
  match thread.program with
  | .done result => some result
  | .call _ _ => none

def settlementOf (thread : HubThread) : Option Settlement :=
  (outcomeOf thread).bind thread.job.settlement

/-- What the settled outcomes add up to, each counted where it belongs. -/
def settledSum (amount : HubThread → Settlement → Nat) (pool : HubPool) : Nat :=
  Concurrent.total (fun thread => (settlementOf thread).elim 0 (amount thread)) pool

/-- What calls that have not returned have booked so far. -/
def pendingSum (amount : Phase → Nat) (pool : HubPool) : Nat :=
  Concurrent.total
    (fun thread => if outcomeOf thread = none then amount (phaseOf thread) else 0) pool

/-- No call is between its claim of a job and its return. -/
def AtRest (pool : HubPool) : Prop :=
  ∀ thread ∈ pool.threads, outcomeOf thread = none → (phaseOf thread).claimed = none

def CallResult.error : CallResult → Option HubError
  | executed execution => execution.error
  | ended session => session.error

def CallResult.stored : CallResult → Bool
  | executed execution => execution.outcome.stored
  | ended session => session.outcome.stored

/-- An error other than that of a relay whose session was settled. -/
def CallResult.failed (result : CallResult) : Bool :=
  result.error.any fun error => !(error.isRelay && result.stored)

theorem phaseOf_tenant (thread : HubThread) : (phaseOf thread).tenant = thread.job.tenant := by
  unfold phaseOf
  generalize begun : Phase.begin thread.job.tenant = phase
  have same : phase.tenant = thread.job.tenant := by
    rw [← begun]
    rfl
  clear begun
  induction thread.events generalizing phase with
  | nil => exact same
  | cons event rest ih =>
    apply ih
    rw [phase.after_tenant, same]

theorem settlement_none_of_failed {job : HubJob} {result : CallResult} (failed : result.failed = true) :
    job.settlement result = none := by
  cases result with
  | executed execution =>
    cases job with
    | session tenant model pinned => rfl
    | execute callbacks tenant model spec body =>
      have some : execution.error ≠ none := by
        intro none
        simp [CallResult.failed, CallResult.error, none] at failed
      exact if_neg some
  | ended session =>
    cases job with
    | execute callbacks tenant model spec body => rfl
    | session tenant model pinned =>
      have unsettled : session.settled = false := by
        cases error : session.error with
        | none => simp [CallResult.failed, CallResult.error, error] at failed
        | some error' =>
          simp only [CallResult.failed, CallResult.error, error,
            any_some, Bool.not_eq_true', SessionEnd.settled] at failed ⊢
          rw [Bool.and_comm]
          exact failed
      simp [HubJob.settlement, unsettled]

variable (reached : (config.calls limits).machine.Reach allowed pool)
include reached

theorem ends_of_outcome {thread : HubThread} (member : thread ∈ pool.threads) {result : CallResult}
    (returned : outcomeOf thread = some result) :
    config.ends thread.job (phaseOf thread) result := by
  have obeys := follows_conduct reached member
  unfold outcomeOf at returned
  split at returned <;> cases returned
  rename_i done
  rw [done] at obeys
  exact obeys

theorem Meter.settles (meter : Meter config limits) {amount : HubThread → Settlement → Nat}
    (moved : ∀ thread settlement, meter.weight thread.job.tenant
      (.moved settlement.provider settlement.bill) = amount thread settlement)
    (fits : settledSum amount pool + pendingSum meter.weigh pool < uint64Limit) :
    meter.reading pool.shared = settledSum amount pool + pendingSum meter.weigh pool := by
  have total : Concurrent.total (fun thread => meter.weigh (phaseOf thread)) pool =
      settledSum amount pool + pendingSum meter.weigh pool := by
    apply Concurrent.total_eq_add
    intro thread member
    cases returned : outcomeOf thread with
    | none =>
      rw [settlementOf, returned]
      exact (Nat.zero_add _).symm
    | some result =>
      have ended := (ends_of_outcome reached member returned).2
      rw [settlementOf, returned, weigh, phaseOf_tenant]
      change _ = (thread.job.settlement result).elim 0 (amount thread)
      cases settled : thread.job.settlement result with
      | none =>
        rw [settled] at ended
        exact (congrArg _ ended).trans (meter.unmoved _)
      | some settlement =>
        rw [settled] at ended
        exact (congrArg _ ended.1).trans (moved thread settlement)
  rw [meter.reads reached, total]
  omega

theorem pendingSum_atRest (weight : Text → Money → Nat) (unmoved : ∀ owner, weight owner .unmoved = 0)
    (rest : AtRest pool) : pendingSum (fun phase => weight phase.tenant phase.money) pool = 0 := by
  apply sum_eq_zero
  intro booked member
  obtain ⟨thread, inside, rfl⟩ := mem_map.mp member
  split
  · next running =>
    have same : (phaseOf thread).money = .unmoved := by
      by_contra moved
      exact (sound_everywhere reached thread inside).claimed moved (rest thread inside running)
    exact (congrArg _ same).trans (unmoved _)
  · rfl

/-! ### The books -/

def settledCharges (who : Option Text) : HubPool → Nat :=
  settledSum fun _ settlement =>
    if countsFor who settlement.provider then settlement.bill.charged else 0

def settledCommissions (who : Option Text) : HubPool → Nat :=
  settledSum fun _ settlement =>
    if countsFor who settlement.provider then settlement.bill.commission else 0

def settledBills (tenant : Text) : HubPool → Nat :=
  settledSum fun thread settlement =>
    if thread.job.tenant = tenant then settlement.bill.buyer else 0

def pendingCharges (who : Option Text) : HubPool → Nat :=
  pendingSum fun phase => phase.money.chargedTo who

def pendingCommissions (who : Option Text) : HubPool → Nat :=
  pendingSum fun phase => phase.money.commissionTo who

def pendingBills (tenant : Text) : HubPool → Nat :=
  pendingSum (Phase.billedTo tenant)

/-- The books of a Hub as calls leave them. Totals are compared with what was
booked as long as that fits 64 bits. -/
structure Settled (config : Config) (limits : Limits) (pool : HubPool) : Prop where
  revenue : ∀ who, settledCharges who pool + pendingCharges who pool < uint64Limit →
    (pool.shared.ledger.account who).revenue = settledCharges who pool + pendingCharges who pool
  commission : ∀ who, settledCommissions who pool + pendingCommissions who pool < uint64Limit →
    (pool.shared.ledger.account who).commission =
      settledCommissions who pool + pendingCommissions who pool
  spend : ∀ tenant ceiling, limits.budgets tenant = some ceiling →
    settledBills tenant pool + pendingBills tenant pool < uint64Limit →
      pool.shared.used tenant = settledBills tenant pool + pendingBills tenant pool
  rest : AtRest pool → ∀ who tenant,
    pendingCharges who pool = 0 ∧ pendingCommissions who pool = 0 ∧ pendingBills tenant pool = 0
  stored : ∀ thread ∈ pool.threads, ∀ event ∈ thread.events, event.request.movesMoney = true →
    ∃ kept ∈ pool.shared.stored, config.verify kept.2 = none ∧
      ⟨.put kept.1 kept.2, none⟩ ∈ thread.events ∧
      ∀ settlement, settlementOf thread = some settlement →
        kept = (settlement.provider, settlement.receipt)
  once : (claims pool).length ≤ maxSettledJobs →
    (pool.threads.filterMap fun thread =>
      (settlementOf thread).map fun settlement => settlement.receipt.receipt.jobID).Nodup
  unmoved : ∀ thread ∈ pool.threads, ∀ result, outcomeOf thread = some result →
    result.failed = true → ∀ event ∈ thread.events, event.request.movesMoney = false

theorem settlement_moved {thread : HubThread} (member : thread ∈ pool.threads)
    {settlement : Settlement} (settled : settlementOf thread = some settlement) :
    (phaseOf thread).money = .moved settlement.provider settlement.bill ∧
      (phaseOf thread).claimed = some settlement.receipt.receipt.jobID ∧
      (config.withhold = none →
        (phaseOf thread).stored = some (settlement.provider, settlement.receipt)) := by
  obtain ⟨result, returned, found⟩ := bind_eq_some_iff.mp settled
  have ended := (ends_of_outcome reached member returned).2
  rw [found] at ended
  exact ended

end Calls

/-! ### A Hub with one provisioned tenant -/

namespace Sample

/-- Enough of a digest to tell short texts apart. -/
def digests : Digests where
  sha256 text := (List.replicate 32 0#8 ++ text).drop text.length
  sha256_length text := by
    rw [List.length_drop, List.length_append, List.length_replicate]
    omega
  encodeCanonical spec := spec.jobID

/-- What a provider sends for a job. One that declines sends no body. -/
def chunks (jobID : Text) : List Text :=
  if jobID = ascii "declined" then [] else [ascii "a", jobID]

/-- The receipt for a job, with its length as the sequence number. -/
def receiptOf (jobID : Text) : SignedReceipt where
  receipt :=
    { jobID := jobID
      jobSpecHash := digests.sha256 (jobSpecHashDomain ++ jobID)
      provider := ascii "provider"
      statusCode := if jobID = ascii "declined" then 401 else 200
      streamHash := hashResponseStream digests jobID (chunks jobID)
      chunkCount := (chunks jobID).length
      responseBytes := (chunks jobID).flatten.length
      completion := .complete
      requestBytes := 0
      providerSeq := jobID.length
      responseHeadersHash :=
        if jobID = ascii "declined" then [] else digests.sha256 (ascii "Content-Type") }
  signature := []

def start : ResponseStart where
  status := 200
  headers := [(ascii "Content-Type", [ascii "text/plain"])]

def config : Config where
  seam :=
    { digests := digests
      hashResponseHeaders := fun headers => digests.sha256 (headers.flatMap Prod.fst)
      hashResponseHeaders_length := fun _ => digests.sha256_length _
      unmarshalStart := fun data => if data = ascii "200" then some start else none
      unmarshalFailure := fun _ => none
      decodeReceiptFrame := fun data => some (receiptOf data) }
  verify _ := none
  commission := { basisPoints := 0 }
  maxJob := 0
  withhold := none
  sessionMaxDownBytes := 0

/-- The stream for a job: its start and chunks if it was served, and the receipt. -/
def frames (jobID : Text) : List SSEEvent :=
  (if jobID = ascii "declined" then [] else
    { type := ascii "start", data := ascii "200", hasData := true } ::
      (chunks jobID).map fun chunk => { type := [], data := chunk, hasData := true }) ++
    [{ type := ascii "receipt", data := jobID, hasData := true }]

def limits : Limits where
  flight := none
  budgets tenant := if tenant = ascii "provisioned" then some 100 else none

def spec : Spec where
  version := 1
  jobID := ascii "job"
  provider := ascii "provider"
  method := ascii "GET"
  host := ascii "host"
  path := ascii "/"
  query := []
  headers := []
  bodyHash := []
  nonce := []
  expiresAt := 1
  maxResponseBytes := 1
  stream := false
  session := false
  credential := []

/-- Everything is granted and the TEE answers with the receipt. -/
def oracle : (request : HubRequest) → request.Answer
  | .acquire _ => true
  | .release _ => ()
  | .allowBudget _ => true
  | .allowQuota _ => true
  | .card _ => some
      { perRequestMicros := 5, perMegabyteMicros := 0, modelPremiumMicros := [] }
  | .credential _ => .ok none
  | .noteDispatch _ => ()
  | .noteVerified _ => ()
  | .noteSettled _ _ => ()
  | .noteCommission _ _ => ()
  | .chargeTenant _ _ => ()
  | .put _ _ => none
  | .claimSettlement _ => true
  | .execute spec _ => .stream (frames spec.jobID)
  | .openSession _ => true
  | .relaySession _ => { up := 0, down := 0, downHash := [], error := none }
  | .sessionReceipt _ => .ok (receiptOf (ascii "job"))
  | .build _ => .ok spec
  | .providersForModel _ => []
  | .providerServes _ _ => true
  | .agentsGone => false

/-- One request of a tenant, from its start to its return. -/
def turns (tenant : Text) : List (Turn hub HubJob) :=
  .spawn (.execute { onChunk := false, onStart := false } tenant [] spec []) ::
    List.replicate 14 (.step 0 oracle)

def run (tenant : Text) : Option HubPool :=
  (config.calls limits).machine.run (config.calls limits).machine.start (turns tenant)

theorem run_reached {tenant : Text} {pool : HubPool} (ran : run tenant = some pool) :
    (config.calls limits).machine.Reach Machine.Any pool :=
  Machine.Reach.run Machine.Reach.start (fun _ _ _ => trivial) ran

end Sample

/-- What a run of one request shows: all calls returned, the settled bills, the
recorded spend, and the revenue. -/
def Sample.shows (tenant : Text) (pool : HubPool) : Bool × Nat × Nat × Nat :=
  (pool.threads.all fun thread => (outcomeOf thread).isSome, settledBills tenant pool,
    pool.shared.used tenant, pool.shared.ledger.total.revenue)

/-- The spend of a tenant without a budget is not recorded. -/
theorem unprovisioned_spend_unrecorded :
    ∃ pool, (Sample.config.calls Sample.limits).machine.Reach Machine.Any pool ∧
      Sample.config.withhold = none ∧
      Sample.shows (ascii "guest") pool = (true, 5, 0, 5) := by
  have whole : (Sample.run (ascii "guest")).map (Sample.shows (ascii "guest")) =
      some (true, 5, 0, 5) := by
    decide +kernel
  obtain ⟨pool, ran, shown⟩ := map_eq_some_iff.mp whole
  exact ⟨pool, Sample.run_reached ran, rfl, shown⟩

/-- In every interleaving of calls on a Hub that withholds no receipts. -/
theorem settled_everywhere {config : Config} {limits : Limits}
    {allowed : HubPool → Turn hub HubJob → Prop} {pool : HubPool} (unset : config.withhold = none)
    (reached : (config.calls limits).machine.Reach allowed pool) : Settled config limits pool where
  revenue who fits := (revenueMeter config limits who).settles reached (fun _ _ => rfl) fits
  commission who fits := (commissionMeter config limits who).settles reached (fun _ _ => rfl) fits
  spend _ _ provisioned fits :=
    (spendMeter config provisioned).settles reached (fun _ _ => rfl) fits
  rest atRest who tenant :=
    ⟨pendingSum_atRest reached (fun _ money => money.chargedTo who)
        (fun _ => Money.chargedTo_unmoved who) atRest,
      pendingSum_atRest reached (fun _ money => money.commissionTo who)
        (fun _ => Money.commissionTo_unmoved who) atRest,
      pendingSum_atRest reached (fun owner money => if owner = tenant then money.buyer else 0)
        (fun _ => ite_self 0) atRest⟩
  stored := by
    intro thread member event inside moves
    have moved : (phaseOf thread).money ≠ .unmoved := by
      intro unmoved
      have still := (Phase.never_moved unmoved).2 event inside
      rw [moves] at still
      cases still
    have sound := sound_everywhere reached thread member
    obtain ⟨kept, held⟩ := ne_none_iff_exists'.mp (sound.stored unset (sound.claimed moved))
    have own := (Phase.put_of_stored held).resolve_left nofun
    refine ⟨kept, stored_everywhere reached thread member kept held, sound.verified kept held, own,
      ?_⟩
    intro settlement settled
    have same := (settlement_moved reached member settled).2.2 unset
    exact Option.some.inj (held.symm.trans same)
  once := by
    intro fits
    refine List.Nodup.sublist ?_ (claims_nodup reached fits).1
    apply filterMap_sublist
    intro thread member jobID settled
    obtain ⟨settlement, found, rfl⟩ := map_eq_some_iff.mp settled
    exact (settlement_moved reached member found).2.1
  unmoved := by
    intro thread member result returned failed event inside
    have ended := (ends_of_outcome reached member returned).2
    rw [settlement_none_of_failed failed] at ended
    exact (Phase.never_moved ended).2 event inside

/-- Two jobs of one tenant, a step of each in turn, on a Hub that takes a fifth. -/
def Sample.interleaved : Option HubPool :=
  let system := ({ config with commission := { basisPoints := 2000 } } : Config).calls limits
  let job (jobID : Text) : HubJob := .execute { onChunk := true, onStart := true }
    (ascii "provisioned") [] { spec with jobID := jobID } []
  system.machine.run system.machine.start
    (.spawn (job (ascii "job")) :: .spawn (job (ascii "later")) ::
      (List.replicate 14 [.step 0 oracle, .step 1 oracle]).flatten)

theorem settled_everywhere_sample :
    ∃ pool, (({ Sample.config with commission := { basisPoints := 2000 } } : Config).calls
        Sample.limits).machine.Reach Machine.Any pool ∧
      Settled { Sample.config with commission := { basisPoints := 2000 } } Sample.limits pool ∧
      Sample.shows (ascii "provisioned") pool = (true, 12, 12, 10) ∧
      pool.shared.ledger.total.commission = 2 ∧ pool.shared.stored.length = 2 := by
  have whole : Sample.interleaved.map (fun pool => (Sample.shows (ascii "provisioned") pool,
      pool.shared.ledger.total.commission, pool.shared.stored.length)) =
      some ((true, 12, 12, 10), 2, 2) := by
    decide +kernel
  obtain ⟨pool, ran, shown⟩ := map_eq_some_iff.mp whole
  obtain ⟨totals, taken⟩ := Prod.mk.inj shown
  have reached := Machine.Reach.run Machine.Reach.start (fun _ _ _ => trivial) ran
  exact ⟨pool, reached, settled_everywhere rfl reached, totals, Prod.mk.inj taken⟩

end ReclaimTee.TokenHive.Hub
