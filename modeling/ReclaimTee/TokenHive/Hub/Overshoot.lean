/-
How far a tenant's recorded spend can go beyond its budget: every call that is
admitted and not charged yet may add one ceiling. A session gives its slot back
before it is charged; the bound holds where no call of the tenant starts then.
-/

import ReclaimTee.TokenHive.Hub.Settlement

namespace ReclaimTee.TokenHive.Hub

/-! ### The slots of a tenant -/

namespace FlightLimiter

variable {limiter : FlightLimiter} {per later : Table Text Nat} {tenant : Text}

theorem inFlight_acquire_self (acquired : limiter.acquire per tenant = (true, later)) :
    inFlight later tenant = inFlight per tenant + 1 ∧
      inFlight per tenant < limiter.maxPerTenant := by
  unfold acquire at acquired
  split at acquired
  · cases acquired
  · next room =>
    split at acquired <;> cases acquired
    rw [inFlight, Table.find_put_self]
    exact ⟨rfl, Nat.lt_of_not_le room⟩

theorem acquire_refused (refused : (limiter.acquire per tenant).1 = false) :
    (limiter.acquire per tenant).2 = per := by
  unfold acquire at refused ⊢
  split
  · rfl
  rename_i room
  rw [if_neg room] at refused
  split
  · rfl
  · next free =>
    rw [if_neg free] at refused
    cases refused

theorem inFlight_acquire_other {other : Text} (different : other ≠ tenant) :
    inFlight (limiter.acquire per tenant).2 other = inFlight per other := by
  unfold acquire
  split
  · rfl
  · split
    · rfl
    · unfold inFlight
      rw [Table.find_put_other _ _ different]

theorem inFlight_release_self : inFlight (release per tenant) tenant = inFlight per tenant - 1 := by
  unfold release
  split
  · next few =>
    rw [inFlight, Table.find_remove_self]
    change 0 = _
    omega
  · rw [inFlight, Table.find_put_self]
    rfl

theorem inFlight_release_other {other : Text} (different : other ≠ tenant) :
    inFlight (release per tenant) other = inFlight per other := by
  unfold release inFlight
  split
  · rw [Table.find_remove_other _ different]
  · rw [Table.find_put_other _ _ different]

end FlightLimiter

open FlightLimiter

/-! ### Calls of a tenant that may still be charged -/

namespace Phase

def charged (phase : Phase) : Bool :=
  match phase.money with
  | .moved _ _ => true
  | _ => false

def holds (tenant : Text) (phase : Phase) : Bool :=
  phase.tenant = tenant && phase.slot = .held

def chargeable (tenant : Text) (phase : Phase) : Bool :=
  phase.tenant = tenant && phase.admitted && !phase.charged

def closing (tenant : Text) (phase : Phase) : Bool :=
  phase.chargeable tenant && phase.slot = .returned

theorem after_slot {request : HubRequest} (phase : Phase) (answer : request.Answer)
    (noAcquire : ∀ tenant, request ≠ .acquire tenant)
    (noRelease : ∀ tenant, request ≠ .release tenant) :
    (phase.after request answer).slot = phase.slot := by
  cases request with
  | acquire tenant => exact absurd rfl (noAcquire tenant)
  | release tenant => exact absurd rfl (noRelease tenant)
  | allowBudget | put | claimSettlement => cases answer <;> rfl
  | _ => rfl

/-- A call that is admitted took its slot. -/
def Seated (phase : Phase) : Prop :=
  phase.admitted = true → phase.slot ≠ .untaken

theorem Seated.after {config : Config} {request : HubRequest} {phase : Phase}
    (answer : request.Answer) (permitted : config.permitted phase request)
    (seated : phase.Seated) : (phase.after request answer).Seated := by
  intro admitted
  cases request with
  | acquire tenant =>
    cases answer with
    | false => exact seated admitted
    | true => exact Slot.noConfusion
  | release tenant => exact Slot.noConfusion
  | allowBudget tenant =>
    cases answer with
    | false => exact seated admitted
    | true =>
      change phase.slot ≠ .untaken
      rw [permitted.2.1]
      exact Slot.noConfusion
  | put | claimSettlement => cases answer <;> exact seated admitted
  | _ => exact seated admitted

theorem chargeable_le {tenant : Text} {phase : Phase} (seated : phase.Seated) :
    (phase.chargeable tenant).toNat ≤
      (phase.holds tenant).toNat + (phase.closing tenant).toNat := by
  cases open' : phase.chargeable tenant with
  | false => exact Nat.zero_le _
  | true =>
    have parts := open'
    simp only [chargeable, Bool.and_eq_true] at parts
    have taken := seated parts.1.2
    cases slot : phase.slot with
    | untaken => exact absurd slot taken
    | held => simp [holds, parts.1.1, slot]
    | returned => simp [closing, open', slot]

end Phase

/-! ### What one access does to a tenant's slots and spend -/

section Access

variable {config : Config} {limits : Limits} {limiter : FlightLimiter} {tenant : Text}
  {tables : Tables} {phase : Phase} {request : HubRequest} {answer : request.Answer}

theorem chargeable_after (permitted : config.permitted phase request)
    (noAdmission : ∀ tenant, request ≠ .allowBudget tenant)
    (chargeable : (phase.after request answer).chargeable tenant = true) :
    phase.chargeable tenant = true := by
  cases request with
  | acquire owner => cases answer <;> exact chargeable
  | allowBudget owner => exact absurd rfl (noAdmission owner)
  | put | claimSettlement => cases answer <;> exact chargeable
  | noteSettled provider micros =>
    simp only [Phase.chargeable, Phase.charged, permitted.1]
    exact chargeable
  | noteCommission provider micros =>
    obtain ⟨charged, noted⟩ := permitted
    simp only [Phase.chargeable, Phase.charged, noted]
    exact chargeable
  | chargeTenant owner micros =>
    simp [Phase.chargeable, Phase.charged, Phase.after] at chargeable
  | _ => exact chargeable

theorem closing_after (permitted : config.permitted phase request)
    (noAcquire : ∀ tenant, request ≠ .acquire tenant)
    (noRelease : ∀ tenant, request ≠ .release tenant)
    (closing : (phase.after request answer).closing tenant = true) :
    phase.closing tenant = true := by
  rw [Phase.closing, phase.after_slot answer noAcquire noRelease] at closing
  obtain ⟨chargeable, returned⟩ := Bool.and_eq_true_iff.mp closing
  have noAdmission : ∀ owner, request ≠ .allowBudget owner := by
    rintro owner rfl
    rw [permitted.2.1] at returned
    cases returned
  rw [Phase.closing, chargeable_after permitted noAdmission chargeable, returned]
  rfl

theorem per_after (noAcquire : ∀ tenant, request ≠ .acquire tenant)
    (noRelease : ∀ tenant, request ≠ .release tenant) :
    (limits.after tables request answer).per = tables.per := by
  cases request with
  | acquire owner => exact absurd rfl (noAcquire owner)
  | release owner => exact absurd rfl (noRelease owner)
  | chargeTenant owner micros =>
    simp only [Limits.after, Limits.record]
    split <;> rfl
  | put provider signed => cases answer <;> rfl
  | _ => rfl

theorem toNat_le {one other : Bool} (implied : one = true → other = true) :
    one.toNat ≤ other.toNat := by
  cases one with
  | false => exact Nat.zero_le _
  | true => rw [implied rfl]

/-- What an access does to the slots of a tenant and to the calls that hold one
or are closing. Only taking a free slot makes a call hold or close more. -/
structure SlotsAfter (limits : Limits) (limiter : FlightLimiter) (tenant : Text) (tables : Tables)
    (phase : Phase) (request : HubRequest) (answer : request.Answer) : Prop where
  counted : inFlight (limits.after tables request answer).per tenant +
      (phase.holds tenant).toNat =
    inFlight tables.per tenant + ((phase.after request answer).holds tenant).toNat
  bounded : ((phase.after request answer).holds tenant).toNat +
      ((phase.after request answer).closing tenant).toNat ≤
    (phase.holds tenant).toNat + (phase.closing tenant).toNat ∨
    request = .acquire tenant ∧ ((phase.after request answer).closing tenant).toNat = 0 ∧
      inFlight tables.per tenant < limiter.maxPerTenant

theorem slots_after_acquire (limited : limits.flight = some limiter) {owner : Text} {free : Bool}
    (permitted : config.permitted phase (.acquire owner))
    (admitted : limits.admits tables (.acquire owner) free = true) :
    SlotsAfter limits limiter tenant tables phase (.acquire owner) free := by
  obtain ⟨rfl, untaken, fresh⟩ := permitted
  have answered : free = (limiter.acquire tables.per phase.tenant).1 := by
    have given := of_decide_eq_true admitted
    rw [Limits.acquire, limited] at given
    exact given
  have table : (limits.after tables (.acquire phase.tenant) free).per =
      (limiter.acquire tables.per phase.tenant).2 := by
    simp only [Limits.after, Limits.acquire, limited]
  cases free with
  | false =>
    rw [acquire_refused answered.symm] at table
    exact ⟨by rw [table]; rfl, Or.inl (Nat.le_refl _)⟩
  | true =>
    have before : phase.holds tenant = false := by simp [Phase.holds, untaken]
    have closing : (phase.after (.acquire phase.tenant) true).closing tenant = false := by
      simp [Phase.closing, Phase.after]
    by_cases mine : phase.tenant = tenant
    · subst mine
      have after : (phase.after (.acquire phase.tenant) true).holds phase.tenant = true := by
        simp [Phase.holds, Phase.after]
      obtain ⟨more, room⟩ := inFlight_acquire_self
        (Prod.ext answered.symm rfl : limiter.acquire tables.per phase.tenant = (true, _))
      constructor
      · rw [table, more, before, after]
        rfl
      · right
        exact ⟨rfl, by rw [closing]; rfl, room⟩
    · have after : (phase.after (.acquire phase.tenant) true).holds tenant = false := by
        simp [Phase.holds, Phase.after, mine]
      have other : tenant ≠ phase.tenant := fun same => mine same.symm
      constructor
      · rw [table, inFlight_acquire_other other, before, after]
      · left
        rw [after, closing]
        exact Nat.zero_le _

theorem slots_after_release (limited : limits.flight = some limiter) {owner : Text}
    {done : Unit} (permitted : config.permitted phase (.release owner))
    (counted : (phase.holds tenant).toNat ≤ inFlight tables.per tenant) :
    SlotsAfter limits limiter tenant tables phase (.release owner) done := by
  obtain ⟨rfl, held⟩ := permitted
  have table : (limits.after tables (.release phase.tenant) done).per =
      release tables.per phase.tenant := by
    simp only [Limits.after, Limits.release, limited]
  have after : (phase.after (.release phase.tenant) done).holds tenant = false := by
    simp [Phase.holds, Phase.after]
  by_cases mine : phase.tenant = tenant
  · subst mine
    have before : phase.holds phase.tenant = true := by simp [Phase.holds, held]
    rw [before] at counted
    change 1 ≤ _ at counted
    constructor
    · rw [table, inFlight_release_self, before, after]
      change _ - 1 + 1 = _ + 0
      omega
    · left
      rw [before, after]
      have most := ((phase.after (.release phase.tenant) done).closing phase.tenant).toNat_le
      change 0 + _ ≤ 1 + _
      omega
  · have other : tenant ≠ phase.tenant := fun same => mine same.symm
    have before : phase.holds tenant = false := by simp [Phase.holds, mine]
    have closing : (phase.after (.release phase.tenant) done).closing tenant = false := by
      simp [Phase.closing, Phase.chargeable, Phase.after, mine]
    constructor
    · rw [table, inFlight_release_other other, before, after]
    · left
      rw [after, closing]
      exact Nat.zero_le _

theorem slots_after (limited : limits.flight = some limiter)
    (permitted : config.permitted phase request)
    (admitted : limits.admits tables request answer = true)
    (counted : (phase.holds tenant).toNat ≤ inFlight tables.per tenant) :
    SlotsAfter limits limiter tenant tables phase request answer := by
  by_cases acquires : ∃ owner, request = .acquire owner
  · obtain ⟨owner, rfl⟩ := acquires
    exact slots_after_acquire limited permitted admitted
  by_cases releases : ∃ owner, request = .release owner
  · obtain ⟨owner, rfl⟩ := releases
    exact slots_after_release limited permitted counted
  have noAcquire : ∀ owner, request ≠ .acquire owner := fun owner same => acquires ⟨owner, same⟩
  have noRelease : ∀ owner, request ≠ .release owner := fun owner same => releases ⟨owner, same⟩
  have same : (phase.after request answer).holds tenant = phase.holds tenant := by
    unfold Phase.holds
    rw [phase.after_tenant, phase.after_slot answer noAcquire noRelease]
  constructor
  · rw [per_after noAcquire noRelease, same]
  · left
    rw [same]
    exact Nat.add_le_add_left (toNat_le (closing_after permitted noAcquire noRelease)) _

theorem SlotsAfter.holds_le
    (access : SlotsAfter limits limiter tenant tables phase request answer)
    (permitted : config.permitted phase request) :
    ((phase.after request answer).holds tenant).toNat ≤ (phase.holds tenant).toNat ∨
      inFlight tables.per tenant < limiter.maxPerTenant := by
  rcases access.bounded with fewer | ⟨_, _, room⟩
  · left
    by_cases acquires : ∃ owner, request = .acquire owner
    · obtain ⟨owner, rfl⟩ := acquires
      have unclosed : phase.closing tenant = false := by simp [Phase.closing, permitted.2.1]
      rw [unclosed] at fewer
      exact (Nat.le_add_right _ _).trans fewer
    by_cases releases : ∃ owner, request = .release owner
    · obtain ⟨owner, rfl⟩ := releases
      simp [Phase.holds, Phase.after]
    · unfold Phase.holds
      rw [phase.after_tenant, phase.after_slot answer (fun owner same => acquires ⟨owner, same⟩)
        fun owner same => releases ⟨owner, same⟩]
  · exact .inr room

/-- The recorded spend and what the call may still be charged grow no further,
or the call is admitted while the spend is below the budget. -/
def SpendAfter (config : Config) (limits : Limits) (ceiling : Nat) (tenant : Text)
    (tables : Tables) (phase : Phase) (request : HubRequest) (answer : request.Answer) : Prop :=
  (limits.after tables request answer).used tenant +
      ((phase.after request answer).chargeable tenant).toNat * config.maxJob ≤
    tables.used tenant + (phase.chargeable tenant).toNat * config.maxJob ∨
  (limits.after tables request answer).used tenant = tables.used tenant ∧
    tables.used tenant < ceiling

theorem spend_after_still {ceiling : Nat} (permitted : config.permitted phase request)
    (noAdmission : ∀ tenant, request ≠ .allowBudget tenant)
    (same : (limits.after tables request answer).used tenant = tables.used tenant) :
    SpendAfter config limits ceiling tenant tables phase request answer := by
  left
  rw [same]
  have fewer : ((phase.after request answer).chargeable tenant).toNat ≤
      (phase.chargeable tenant).toNat := toNat_le (chargeable_after permitted noAdmission)
  exact Nat.add_le_add_left (Nat.mul_le_mul_right _ fewer) _

theorem spend_after_admission {ceiling : Nat} (provisioned : limits.budgets tenant = some ceiling)
    {owner : Text} {affordable : Bool} (permitted : config.permitted phase (.allowBudget owner))
    (admitted : limits.admits tables (.allowBudget owner) affordable = true) :
    SpendAfter config limits ceiling tenant tables phase (.allowBudget owner) affordable := by
  obtain ⟨rfl, _⟩ := permitted
  cases affordable with
  | false => exact Or.inl (Nat.le_refl _)
  | true =>
    by_cases mine : phase.tenant = tenant
    · right
      subst mine
      have allowed := of_decide_eq_true admitted
      rw [Limits.allowBudget, provisioned] at allowed
      exact ⟨rfl, of_decide_eq_true allowed.symm⟩
    · left
      have none : (phase.after (.allowBudget phase.tenant) true).chargeable tenant = false := by
        simp [Phase.chargeable, Phase.after, mine]
      rw [none]
      exact Nat.add_le_add_left (Nat.mul_le_mul_right _ (Nat.zero_le _)) _

theorem spend_after_charge {ceiling : Nat} (bounded : 0 < config.maxJob) {owner : Text}
    {micros : Nat} {done : Unit} (permitted : config.permitted phase (.chargeTenant owner micros)) :
    SpendAfter config limits ceiling tenant tables phase (.chargeTenant owner micros) done := by
  by_cases mine : phase.tenant = tenant
  · obtain ⟨rfl, admitted, affordable, _, _, _, booked⟩ := permitted
    subst mine
    left
    have before : phase.chargeable phase.tenant = true := by
      simp [Phase.chargeable, Phase.charged, admitted, booked]
    have after : (phase.after (.chargeTenant phase.tenant micros) done).chargeable phase.tenant =
        false := by
      simp [Phase.chargeable, Phase.charged, Phase.after]
    have most : micros ≤ config.maxJob := by
      have notAbove := of_decide_eq_false affordable
      omega
    have spent : (limits.after tables (.chargeTenant phase.tenant micros) done).used phase.tenant ≤
        tables.used phase.tenant + micros := by
      simp only [Limits.after, Limits.record]
      split
      · exact Nat.le_add_right _ _
      · dsimp only
        rw [Function.update_self, saturatingAdd_eq]
        exact Nat.min_le_left _ _
    rw [before, after, Bool.toNat_true, Bool.toNat_false]
    omega
  · have other : tenant ≠ phase.tenant := fun same => mine same.symm
    apply spend_after_still permitted (fun _ same => by cases same)
    obtain ⟨rfl, _⟩ := permitted
    simp only [Limits.after, Limits.record]
    split
    · rfl
    · exact Function.update_of_ne other _ _

theorem spend_after {ceiling : Nat} (provisioned : limits.budgets tenant = some ceiling)
    (bounded : 0 < config.maxJob) (permitted : config.permitted phase request)
    (admitted : limits.admits tables request answer = true) :
    SpendAfter config limits ceiling tenant tables phase request answer := by
  cases moves : request.movesMoney with
  | true =>
    cases request with
    | chargeTenant owner micros => exact spend_after_charge bounded permitted
    | noteSettled | noteCommission =>
      exact spend_after_still permitted nofun rfl
    | _ => cases moves
  | false =>
    by_cases admission : ∃ owner, request = .allowBudget owner
    · obtain ⟨owner, rfl⟩ := admission
      exact spend_after_admission provisioned permitted admitted
    · apply spend_after_still permitted (fun owner same => admission ⟨owner, same⟩)
      rw [limits.after_used_still tables answer moves]

end Access

/-! ### The tenant's calls in a pool -/

section Calls

variable {config : Config} {limits : Limits} {limiter : FlightLimiter} {tenant : Text}

def running (thread : HubThread) : Bool :=
  (outcomeOf thread).isNone

/-- A session of the tenant that closed its tunnel and is not charged yet. -/
def closingCall (tenant : Text) (thread : HubThread) : Bool :=
  running thread && (phaseOf thread).closing tenant

def chargeableCall (tenant : Text) (thread : HubThread) : Bool :=
  running thread && (phaseOf thread).chargeable tenant

def holdCount (tenant : Text) : HubPool → Nat :=
  Concurrent.total fun thread => ((phaseOf thread).holds tenant).toNat

def closingCount (tenant : Text) : HubPool → Nat :=
  Concurrent.total fun thread => (closingCall tenant thread).toNat

def chargeableCount (tenant : Text) : HubPool → Nat :=
  Concurrent.total fun thread => (chargeableCall tenant thread).toNat

/-- No call of the tenant takes its slot while a session of the tenant has
closed its tunnel and is neither charged nor over. -/
def orderly (tenant : Text) (pool : HubPool) : Turn hub HubJob → Bool
  | .spawn _ => true
  | .step index _ =>
    match (pool.threads[index]?).map Thread.program with
    | some (.call (.acquire owner) _) =>
      owner ≠ tenant || pool.threads.all fun other => !closingCall tenant other
    | _ => true

def Orderly (tenant : Text) (pool : HubPool) (turn : Turn hub HubJob) : Prop :=
  orderly tenant pool turn = true

theorem Orderly.acquire {tenant : Text} {pool : HubPool} {index : Nat} {thread : HubThread}
    {oracle : (request : HubRequest) → request.Answer} {next : Bool → HubProgram CallResult}
    (holds : Orderly tenant pool (.step index oracle)) (found : pool.threads[index]? = some thread)
    (sends : thread.program = .call (.acquire tenant) next) :
    ∀ other ∈ pool.threads, closingCall tenant other = false := by
  simp only [Orderly, orderly, found, Option.map_some, sends] at holds
  intro other member
  have all := (Bool.or_eq_true_iff.mp holds).resolve_left (by simp)
  have quiet := List.all_eq_true.mp all other member
  rw [Bool.not_eq_true'] at quiet
  exact quiet

structure Within (config : Config) (limiter : FlightLimiter) (ceiling : Nat) (tenant : Text)
    (pool : HubPool) : Prop where
  bounded : holdCount tenant pool + closingCount tenant pool ≤ limiter.maxPerTenant
  spend : pool.shared.used tenant + chargeableCount tenant pool * config.maxJob ≤
    ceiling - 1 + limiter.maxPerTenant * config.maxJob

variable {ceiling : Nat} {before after : HubPool}

theorem holdCount_spawned (job : HubJob) :
    holdCount tenant ((config.calls limits).spawned before job) = holdCount tenant before := by
  have none : (Phase.begin job.tenant).holds tenant = false := by
    simp [Phase.holds, Phase.begin]
  rw [holdCount, Concurrent.total_spawned]
  exact congrArg (_ + Bool.toNat ·) none

theorem Turned.slots_after (turned : Turned config limits before after)
    (limited : limits.flight = some limiter)
    (slots : inFlight before.shared.per tenant = holdCount tenant before) :
    SlotsAfter limits limiter tenant before.shared (phaseOf turned.advance.thread)
      turned.advance.request turned.advance.answer := by
  have counted := Concurrent.le_total
    (fun thread : HubThread => ((phaseOf thread).holds tenant).toNat)
    (List.mem_of_getElem? turned.advance.found)
  exact Hub.slots_after limited turned.permitted turned.admitted
    (counted.trans (Nat.le_of_eq slots.symm))

/-- In every run the slots in use are those of the calls that hold one. -/
theorem slots_counted {allowed : HubPool → Turn hub HubJob → Prop} {pool : HubPool}
    (limited : limits.flight = some limiter)
    (reached : (config.calls limits).machine.Reach allowed pool) :
    inFlight pool.shared.per tenant = holdCount tenant pool ∧
      inFlight pool.shared.per tenant ≤ limiter.maxPerTenant := by
  apply Machine.Reach.invariant_given (fun _ known => known) _ _ reached
  · exact ⟨rfl, Nat.zero_le _⟩
  · intro before turn after known held _ taken
    obtain ⟨slots, bounded⟩ := held
    rcases turned_cases known taken with ⟨job, _, rfl⟩ | ⟨turned, _⟩
    · exact ⟨slots.trans (holdCount_spawned job).symm, bounded⟩
    · have holds := turned.advance.total fun thread => ((phaseOf thread).holds tenant).toNat
      have access := turned.slots_after limited slots
      have table := access.counted
      have fewer := access.holds_le turned.permitted
      have one := ((phaseOf turned.advance.turned).holds tenant).toNat_le
      rw [turned.phase] at holds one
      rw [turned.shared]
      unfold holdCount at slots ⊢
      omega

theorem Turned.running (turned : Turned config limits before after) :
    Hub.running turned.advance.thread = true := by
  unfold Hub.running outcomeOf
  rw [turned.advance.sends]
  rfl

theorem Turned.count_le (turned : Turned config limits before after) (counts : Phase → Bool) :
    Concurrent.total (fun thread => (Hub.running thread && counts (phaseOf thread)).toNat) after +
        (counts (phaseOf turned.advance.thread)).toNat ≤
      Concurrent.total (fun thread => (Hub.running thread && counts (phaseOf thread)).toNat) before +
        (counts ((phaseOf turned.advance.thread).after turned.advance.request
          turned.advance.answer)).toNat := by
  have sums := turned.advance.total fun thread =>
    (Hub.running thread && counts (phaseOf thread)).toNat
  rw [turned.running, Bool.true_and, turned.phase] at sums
  have most : ∀ one other : Bool, (one && other).toNat ≤ other.toNat :=
    fun _ _ => toNat_le fun both => (Bool.and_eq_true_iff.mp both).2
  have atMost := most (Hub.running turned.advance.turned)
    (counts ((phaseOf turned.advance.thread).after turned.advance.request turned.advance.answer))
  omega

theorem chargeableCount_le (reached : (config.calls limits).machine.Reach (Orderly tenant) after) :
    chargeableCount tenant after ≤ holdCount tenant after + closingCount tenant after := by
  apply Concurrent.total_le_add
  intro thread member
  have seated : (phaseOf thread).Seated :=
    phase_invariant (fun _ impossible => by cases impossible)
      (fun _ _ answer permitted seated => seated.after answer permitted) reached thread member
  have below : ((phaseOf thread).chargeable tenant).toNat ≤
      ((phaseOf thread).holds tenant).toNat + ((phaseOf thread).closing tenant).toNat :=
    Phase.chargeable_le seated
  unfold chargeableCall closingCall
  cases Hub.running thread with
  | false => exact Nat.zero_le _
  | true => exact below

theorem Within.spawn {job : HubJob} (within : Within config limiter ceiling tenant before) :
    Within config limiter ceiling tenant ((config.calls limits).spawned before job) := by
  have idle : ∀ counts : Phase → Bool, counts (.begin job.tenant) = false →
      ∀ begun : Bool, (begun && counts (.begin job.tenant)).toNat = 0 := by
    intro counts none begun
    rw [none, Bool.and_false]
    rfl
  have chargeable : (Phase.begin job.tenant).chargeable tenant = false := by
    simp [Phase.chargeable, Phase.begin]
  have closes : closingCount tenant ((config.calls limits).spawned before job) =
      closingCount tenant before := by
    rw [closingCount, Concurrent.total_spawned]
    exact congrArg (_ + ·) (idle (Phase.closing tenant) (by simp [Phase.closing, chargeable]) _)
  have charges : chargeableCount tenant ((config.calls limits).spawned before job) =
      chargeableCount tenant before := by
    rw [chargeableCount, Concurrent.total_spawned]
    exact congrArg (_ + ·) (idle (Phase.chargeable tenant) chargeable _)
  obtain ⟨bounded, spend⟩ := within
  constructor
  · rw [holdCount_spawned, closes]
    exact bounded
  · rw [charges]
    exact spend

variable (limited : limits.flight = some limiter)
  (provisioned : limits.budgets tenant = some ceiling) (positive : 0 < config.maxJob)
  (reached : (config.calls limits).machine.Reach (Orderly tenant) after)
include limited provisioned positive reached

theorem Within.turn (turned : Turned config limits before after)
    (slots : inFlight before.shared.per tenant = holdCount tenant before)
    (orderly : turned.advance.request = .acquire tenant → closingCount tenant before = 0)
    (within : Within config limiter ceiling tenant before) :
    Within config limiter ceiling tenant after := by
  obtain ⟨bounded, spend⟩ := within
  have access := turned.slots_after limited slots
  have money := spend_after provisioned positive turned.permitted turned.admitted
  have holds := turned.advance.total fun thread => ((phaseOf thread).holds tenant).toNat
  rw [turned.phase] at holds
  have closes := turned.count_le (Phase.closing tenant)
  have charges := turned.count_le (Phase.chargeable tenant)
  have boundedAfter : holdCount tenant after + closingCount tenant after ≤
      limiter.maxPerTenant := by
    unfold holdCount closingCount closingCall at *
    rcases access.bounded with fewer | ⟨acquires, none, room⟩
    · omega
    · have noneBefore := orderly acquires
      have one := ((phaseOf turned.advance.turned).holds tenant).toNat_le
      rw [turned.phase] at one
      omega
  refine ⟨boundedAfter, ?_⟩
  rw [turned.shared]
  rcases money with less | ⟨same, below⟩
  · have scaled := Nat.mul_le_mul_right config.maxJob charges
    rw [Nat.add_mul, Nat.add_mul] at scaled
    unfold chargeableCount chargeableCall at *
    omega
  · have few : chargeableCount tenant after ≤ limiter.maxPerTenant :=
      (chargeableCount_le reached).trans boundedAfter
    have scaled := Nat.mul_le_mul_right config.maxJob few
    omega

theorem within_everywhere : Within config limiter ceiling tenant after := by
  apply Machine.Reach.invariant_given (fun _ known => known) _ _ reached
  · refine ⟨Nat.zero_le _, ?_⟩
    change 0 + 0 * config.maxJob ≤ _
    rw [Nat.zero_mul]
    exact Nat.zero_le _
  · intro first turn second known held permitted taken
    have reachedSecond := Machine.Reach.step known permitted taken
    rcases turned_cases known taken with ⟨job, _, rfl⟩ | ⟨turned, oracle, rfl⟩
    · exact held.spawn
    apply held.turn limited provisioned positive reachedSecond turned
      (slots_counted limited known).1
    intro acquires
    have closed : ∀ other ∈ first.threads, closingCall tenant other = false := by
      have sends := turned.advance.sends
      generalize turned.advance.next = next at sends
      revert next
      rw [acquires]
      intro next sends
      exact Orderly.acquire permitted turned.advance.found sends
    apply List.sum_eq_zero
    intro count member
    obtain ⟨thread, inside, rfl⟩ := List.mem_map.mp member
    rw [closed thread inside]
    rfl

end Calls

/-! ### A session and a request of one tenant -/

namespace OvershootSample

def tenant : Text := ascii "provisioned"

def config : Config :=
  { Sample.config with maxJob := 10 }

def limiter : FlightLimiter where
  maxPerTenant := 1
  maxTenants := 0

def limits : Limits where
  flight := some limiter
  budgets owner := if owner = tenant then some 1 else none

def receipt : SignedReceipt :=
  { Sample.receiptOf (ascii "session") with
    receipt := { (Sample.receiptOf (ascii "session")).receipt with
      statusCode := sessionStatus
      streamHash := List.replicate 32 0#8
      chunkCount := 0
      responseBytes := 0
      responseHeadersHash := [] } }

/-- A card of ten for a completed job; the session's receipt attests no bytes. -/
def oracle : (request : HubRequest) → request.Answer
  | .card _ => some
      { perRequestMicros := 10, perMegabyteMicros := 0, modelPremiumMicros := [] }
  | .relaySession _ => { up := 0, down := 0, downHash := List.replicate 32 0#8, error := none }
  | .sessionReceipt _ => .ok receipt
  | request => Sample.oracle request

def session : HubJob := .session tenant [] (some (ascii "provider"))

def request : HubJob :=
  .execute { onChunk := false, onStart := false } tenant [] Sample.spec []

/-- The session opens and closes its tunnel; the request runs and is charged;
the session is charged. -/
def turns : List (Turn hub HubJob) :=
  .spawn session :: List.replicate 9 (.step 0 oracle) ++
    .spawn request :: List.replicate 14 (.step 1 oracle) ++ List.replicate 9 (.step 0 oracle)

def run : Option HubPool :=
  (config.calls limits).machine.run (config.calls limits).machine.start turns

end OvershootSample

open OvershootSample

/-- The request comes after the session is charged, and is refused. -/
def OvershootSample.orderlyTurns : List (Turn hub HubJob) :=
  .spawn session :: List.replicate 18 (.step 0 oracle) ++
    .spawn request :: .step 1 oracle ::
      List.replicate 2 (.step 1 fun request => match request with
        | .allowBudget _ => false
        | request => oracle request)

theorem charged_after_close_overshoots :
    ∃ pool, (config.calls limits).machine.Reach Machine.Any pool ∧
      config.maxJob = 10 ∧
      limits.flight = some limiter ∧
      limiter.maxPerTenant = 1 ∧
      limits.budgets tenant = some 1 ∧
      pool.shared.used tenant = 20 := by
  have whole : run.map (fun pool => pool.shared.used tenant) =
      some 20 := by
    decide +kernel
  obtain ⟨pool, ran, spent⟩ := Option.map_eq_some_iff.mp whole
  have reached := Machine.Reach.run Machine.Reach.start (fun _ _ _ => trivial) ran
  exact ⟨pool, reached, rfl, rfl, rfl, rfl, spent⟩

/-- In every run in which no call of the tenant takes its slot between the
closing of a session's tunnel and the session's charge. -/
theorem overshoot_bounded {config : Config} {limits : Limits} {limiter : FlightLimiter}
    {tenant : Text} {ceiling : Nat} {pool : HubPool} (limited : limits.flight = some limiter)
    (provisioned : limits.budgets tenant = some ceiling) (positive : 0 < config.maxJob)
    (reached : (config.calls limits).machine.Reach (Orderly tenant) pool) :
    pool.shared.used tenant ≤ ceiling - 1 + limiter.maxPerTenant * config.maxJob :=
  (Nat.le_add_right _ _).trans (within_everywhere limited provisioned positive reached).spend

theorem overshoot_bounded_sample :
    ∃ pool, (config.calls limits).machine.Reach
        (Orderly tenant) pool ∧
      pool.threads.length = 2 ∧ pool.shared.used tenant = 10 ∧
      pool.shared.used tenant ≤ 1 - 1 + 1 * 10 := by
  have whole : ((config.calls limits).machine.runWhere
      (orderly tenant) (config.calls limits).machine.start
      orderlyTurns).map
        (fun pool => (pool.threads.length, pool.shared.used tenant)) =
      some (2, 10) := by
    decide +kernel
  obtain ⟨pool, ran, shown⟩ := Option.map_eq_some_iff.mp whole
  have reached := Machine.Reach.start.runWhere ran
  obtain ⟨length, spent⟩ := Prod.mk.inj shown
  exact ⟨pool, reached, length, spent, overshoot_bounded rfl rfl (by decide) reached⟩

/-! ### Slots in every run -/

/-- In every run the slots in use are those of the calls that hold one, so
they stay within the limit, and none is left behind once all calls returned. -/
theorem slots_accounted {config : Config} {limits : Limits} {limiter : FlightLimiter}
    {tenant : Text} {pool : HubPool} (limited : limits.flight = some limiter)
    (reached : (config.calls limits).machine.Reach Machine.Any pool) :
    inFlight pool.shared.per tenant = holdCount tenant pool ∧
      inFlight pool.shared.per tenant ≤ limiter.maxPerTenant ∧
      ((∀ thread ∈ pool.threads, running thread = false) →
        inFlight pool.shared.per tenant = 0) := by
  refine and_assoc.mp ⟨slots_counted limited reached, fun rest => ?_⟩
  rw [(slots_counted limited reached).1]
  apply List.sum_eq_zero
  intro held member
  obtain ⟨thread, inside, rfl⟩ := List.mem_map.mp member
  have returned := rest thread inside
  cases outcome : outcomeOf thread with
  | none => simp [running, outcome] at returned
  | some result =>
    have unheld := (ends_of_outcome reached inside outcome).1
    simp [Phase.holds, unheld]

theorem slots_accounted_returned :
    ∃ pool, run = some pool ∧ pool.threads.length = 2 ∧
      inFlight pool.shared.per tenant = 0 := by
  have whole : run.map (fun pool =>
      (pool.threads.length, pool.threads.all fun thread => !running thread)) =
      some (2, true) := by
    decide +kernel
  obtain ⟨pool, ran, shown⟩ := Option.map_eq_some_iff.mp whole
  obtain ⟨length, returned⟩ := Prod.mk.inj shown
  have reached := Machine.Reach.run Machine.Reach.start (fun _ _ _ => trivial) ran
  refine ⟨pool, ran, length, (slots_accounted rfl reached).2.2 fun thread member => ?_⟩
  simpa using List.all_eq_true.mp returned thread member

end ReclaimTee.TokenHive.Hub
