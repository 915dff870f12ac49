/-
Agents that come online for a provider and go. A registration stores its
credential envelope and then enters the registry; at its end it leaves the
registry and, if it was current, revokes the envelope. Store and registry agree
where no two handlers are between delivery and revocation at once.
-/

import ReclaimTee.Transition
import ReclaimTee.TokenHive.Hub.Pricing

namespace ReclaimTee.TokenHive.Hub

open Option

/-! ### Registrations -/

def maxRateMicros : Nat := 2 ^ 40

def maxRateModels : Nat := 64

def maxModelNameLength : Nat := 64

def RateCard.valid (card : RateCard) : Bool :=
  card.perRequestMicros ≤ maxRateMicros && card.perMegabyteMicros ≤ maxRateMicros &&
    card.modelPremiumMicros.length ≤ maxRateModels &&
    card.modelPremiumMicros.all fun entry =>
      entry.1 ≠ [] && entry.1.length ≤ maxModelNameLength && entry.2 ≤ maxRateMicros

def maxProviderName : Nat := 64

def validProviderByte (byte : Byte) : Bool :=
  (0x61 ≤ byte.toNat && byte.toNat ≤ 0x7a) || (0x30 ≤ byte.toNat && byte.toNat ≤ 0x39) ||
    byte = 0x2d#8 || byte = 0x5f#8

def validateProviderName (provider : Text) : Bool :=
  provider ≠ [] && provider.length ≤ maxProviderName && provider.all validProviderByte

structure AgentRegister where
  provider : Text
  credential : Option Text
  selfPrice : Option RateCard
  models : List Text
deriving DecidableEq, Repr

/-- What a deployment admits agents by. -/
structure Gate where
  rates : Text → Option RateCard
  admits : AgentRegister → Bool

namespace Gate

/-- A card of the agent's own that is not valid counts as none. -/
def agentPrice (gate : Gate) (reg : AgentRegister) : Option RateCard :=
  (reg.selfPrice.filter RateCard.valid).or (gate.rates reg.provider)

def accepts (gate : Gate) (authedProvider : Text) (reg : AgentRegister) : Bool :=
  validateProviderName reg.provider && (authedProvider = [] || reg.provider = authedProvider) &&
    gate.admits reg && (gate.agentPrice reg).isSome

end Gate

/-! ### Handlers of agent tunnels -/

inductive AgentStage
  | dialed
  | delivered
  | online
  | leaving
  | over
deriving DecidableEq, Repr

/-- Between the delivery of the credential and its revocation. -/
def AgentStage.engaged : AgentStage → Bool
  | delivered => true
  | online => true
  | leaving => true
  | _ => false

/-- Stored but not online: about to register, or about to revoke. -/
def AgentStage.pending : AgentStage → Bool
  | delivered => true
  | leaving => true
  | _ => false

structure AgentHandler where
  authedProvider : Text
  reg : AgentRegister
  stage : AgentStage
deriving DecidableEq, Repr

/-- An envelope in the store, and the handler that put it there. -/
structure Delivery where
  deliveredBy : Nat
  envelope : Text
deriving DecidableEq, Repr

/-- A handler is known by its place in the list, as a tunnel is by its address. -/
structure Agents where
  handlers : List AgentHandler
  online : Text → Option Nat
  envelopes : Text → Option Delivery

inductive AgentAction
  | dial (authedProvider : Text) (reg : AgentRegister)
  | refuse (handler : Nat)
  /-- Stores the credential, if the store takes it. -/
  | deliver (handler : Nat) (accepted : Bool)
  | register (handler : Nat)
  | deregister (handler : Nat)
  /-- Deletes the credential, if the store does. -/
  | revoke (handler : Nat) (deleted : Bool)
deriving DecidableEq, Repr

/-- What a handler does on its way out. -/
def AgentAction.leavingOf : AgentAction → Option Nat
  | deregister index => some index
  | revoke index _ => some index
  | _ => none

namespace Agents

def initial : Agents where
  handlers := []
  online _ := none
  envelopes _ := none

def setStage (agents : Agents) (index : Nat) (handler : AgentHandler) (stage : AgentStage) :
    List AgentHandler :=
  agents.handlers.set index { handler with stage := stage }

variable (gate : Gate)

def deliver (agents : Agents) (index : Nat) (handler : AgentHandler) (accepted : Bool) :
    Option Agents :=
  if handler.stage = .dialed ∧ gate.accepts handler.authedProvider handler.reg then
    match handler.reg.credential, accepted with
    | some envelope, true =>
      some
        { handlers := agents.setStage index handler .delivered
          online := agents.online
          envelopes := Function.update agents.envelopes handler.reg.provider
            (some { deliveredBy := index, envelope := envelope }) }
    | _, _ => some { agents with handlers := agents.setStage index handler .over }
  else
    none

def refuse (agents : Agents) (index : Nat) (handler : AgentHandler) : Option Agents :=
  if handler.stage = .dialed ∧ gate.accepts handler.authedProvider handler.reg = false then
    some { agents with handlers := agents.setStage index handler .over }
  else
    none

def register (agents : Agents) (index : Nat) (handler : AgentHandler) : Option Agents :=
  if handler.stage = .delivered then
    some
      { agents with
        handlers := agents.setStage index handler .online
        online := Function.update agents.online handler.reg.provider (some index) }
  else
    none

/-- Only the current agent leaves the registry, and only it revokes. -/
def deregister (agents : Agents) (index : Nat) (handler : AgentHandler) : Option Agents :=
  if handler.stage = .online then
    if agents.online handler.reg.provider = some index then
      some
        { agents with
          handlers := agents.setStage index handler .leaving
          online := Function.update agents.online handler.reg.provider none }
    else
      some { agents with handlers := agents.setStage index handler .over }
  else
    none

def revoke (agents : Agents) (index : Nat) (handler : AgentHandler) (deleted : Bool) :
    Option Agents :=
  if handler.stage = .leaving then
    some
      { agents with
        handlers := agents.setStage index handler .over
        envelopes :=
          if deleted then Function.update agents.envelopes handler.reg.provider none
          else agents.envelopes }
  else
    none

def step (agents : Agents) : AgentAction → Option Agents
  | .dial authedProvider reg =>
    some
      { agents with
        handlers := agents.handlers ++
          [{ authedProvider := authedProvider, reg := reg, stage := .dialed }] }
  | .refuse index => agents.handlers[index]?.bind (agents.refuse gate index)
  | .deliver index accepted =>
    agents.handlers[index]?.bind fun handler => agents.deliver gate index handler accepted
  | .register index => agents.handlers[index]?.bind (agents.register index)
  | .deregister index => agents.handlers[index]?.bind (agents.deregister index)
  | .revoke index deleted =>
    agents.handlers[index]?.bind fun handler => agents.revoke index handler deleted

def machine : Machine Agents AgentAction where
  start := initial
  step := step gate

/-! ### Handlers and what they hold -/

/-- The handler is one of the provider's, at a stage that passes the test. -/
def At (agents : Agents) (test : AgentStage → Bool) (provider : Text) (index : Nat) : Prop :=
  ∃ handler, agents.handlers[index]? = some handler ∧ handler.reg.provider = provider ∧
    test handler.stage = true

abbrev Engaged (agents : Agents) : Text → Nat → Prop :=
  agents.At AgentStage.engaged

abbrev Online (agents : Agents) : Text → Nat → Prop :=
  agents.At (· = .online)

/-- Store and registry are those of the handlers that are engaged. -/
structure Aligned (agents : Agents) : Prop where
  stored : ∀ provider delivery, agents.envelopes provider = some delivery →
    agents.Engaged provider delivery.deliveredBy
  holds : ∀ provider index, agents.Engaged provider index →
    ∃ envelope, agents.envelopes provider = some { deliveredBy := index, envelope := envelope }
  current : ∀ provider index, agents.online provider = some index ↔ agents.Online provider index

/-- No handler of the provider is engaged when one delivers, and the store
deletes what is revoked. -/
def exclusive (agents : Agents) : AgentAction → Bool
  | .deliver _ false => true
  | .deliver index true =>
    match agents.handlers[index]? with
    | none => true
    | some handler => agents.handlers.all fun other =>
      other.reg.provider ≠ handler.reg.provider || !other.stage.engaged
  | .revoke _ deleted => deleted
  | _ => true

def Exclusive (agents : Agents) (action : AgentAction) : Prop :=
  agents.exclusive action = true

variable {gate} {agents later : Agents} {index : Nat} {handler : AgentHandler}

theorem Aligned.alone (aligned : agents.Aligned) {provider : Text} {one other : Nat}
    (first : agents.Engaged provider one) (second : agents.Engaged provider other) :
    one = other := by
  obtain ⟨envelope, stored⟩ := aligned.holds provider one first
  obtain ⟨_, storedOther⟩ := aligned.holds provider other second
  rw [stored] at storedOther
  exact congrArg Delivery.deliveredBy (Option.some.inj storedOther)

variable {stage : AgentStage} {test : AgentStage → Bool}

theorem at_index {provider : Text} (found : agents.handlers[index]? = some handler) :
    agents.At test provider index ↔ handler.reg.provider = provider ∧ test handler.stage = true := by
  constructor
  · intro ⟨other, same, owner, passes⟩
    rw [found] at same
    cases same
    exact ⟨owner, passes⟩
  · intro ⟨owner, passes⟩
    exact ⟨handler, found, owner, passes⟩

section Changed

variable (found : agents.handlers[index]? = some handler)
  (changed : later.handlers = agents.setStage index handler stage)
include found changed

theorem at_set {provider : Text} {other : Nat} :
    later.At test provider other ↔
      (other = index ∧ handler.reg.provider = provider ∧ test stage = true) ∨
        (other ≠ index ∧ agents.At test provider other) := by
  have inside : index < agents.handlers.length := (List.getElem?_eq_some_iff.mp found).1
  unfold At
  rw [changed, setStage]
  by_cases same : other = index
  · subst same
    rw [List.getElem?_set_self inside]
    constructor
    · intro ⟨_, equal, owner, passes⟩
      cases equal
      exact .inl ⟨rfl, owner, passes⟩
    · rintro (⟨_, owner, passes⟩ | ⟨different, _⟩)
      · exact ⟨_, rfl, owner, passes⟩
      · exact absurd rfl different
  · rw [List.getElem?_set_ne (Ne.symm same)]
    constructor
    · intro here
      exact .inr ⟨same, here⟩
    · rintro (⟨equal, _⟩ | ⟨_, here⟩)
      · exact absurd equal same
      · exact here

theorem at_keep {provider : Text}
    (same : handler.reg.provider = provider → test stage = test handler.stage) (other : Nat) :
    later.At test provider other ↔ agents.At test provider other := by
  rw [at_set found changed]
  constructor
  · rintro (⟨rfl, owner, passes⟩ | ⟨_, here⟩)
    · exact (at_index found).mpr ⟨owner, same owner ▸ passes⟩
    · exact here
  · intro here
    by_cases equal : other = index
    · subst equal
      obtain ⟨owner, passes⟩ := (at_index found).mp here
      exact .inl ⟨rfl, owner, (same owner).trans passes⟩
    · exact .inr ⟨equal, here⟩

theorem at_mine
    (alone : ∀ other, agents.At test handler.reg.provider other → other = index) (other : Nat) :
    later.At test handler.reg.provider other ↔ other = index ∧ test stage = true := by
  rw [at_set found changed]
  constructor
  · rintro (⟨same, _, passes⟩ | ⟨different, here⟩)
    · exact ⟨same, passes⟩
    · exact absurd (alone other here) different
  · rintro ⟨same, passes⟩
    exact .inl ⟨same, rfl, passes⟩

end Changed

/-! ### Each step keeps the alignment -/

theorem Aligned.of_engaged (aligned : agents.Aligned) (store : later.envelopes = agents.envelopes)
    (engaged : ∀ provider other, later.Engaged provider other ↔ agents.Engaged provider other)
    (current : ∀ provider index,
      later.online provider = some index ↔ later.Online provider index) : later.Aligned where
  stored provider delivery stored :=
    (engaged _ _).mpr (aligned.stored provider delivery (store ▸ stored))
  holds provider other holds := by
    rw [store]
    exact aligned.holds provider other ((engaged _ _).mp holds)
  current := current

section Moved

variable (aligned : agents.Aligned) (found : agents.handlers[index]? = some handler)
include aligned found

theorem Aligned.ended (dialed : handler.stage = .dialed) :
    Aligned { agents with handlers := agents.setStage index handler .over } := by
  refine aligned.of_engaged rfl (fun _ => at_keep found rfl fun _ => by rw [dialed]; rfl) ?_
  intro provider other
  rw [aligned.current]
  exact (at_keep found rfl (fun _ => by rw [dialed]; rfl) other).symm

/-- The store changes for the provider of a handler that nobody else is engaged for. -/
theorem Aligned.restored {entry : Option Delivery}
    (alone : ∀ other, agents.Engaged handler.reg.provider other → other = index)
    (offline : handler.stage ≠ .online ∧ stage ≠ .online)
    (handlers : later.handlers = agents.setStage index handler stage)
    (registry : later.online = agents.online)
    (store : later.envelopes = Function.update agents.envelopes handler.reg.provider entry)
    (given : ∀ delivery, entry = some delivery →
      delivery.deliveredBy = index ∧ stage.engaged = true)
    (present : stage.engaged = true →
      ∃ envelope, entry = some { deliveredBy := index, envelope := envelope }) : later.Aligned := by
  constructor
  · intro provider delivery stored
    rw [store] at stored
    by_cases owner : provider = handler.reg.provider
    · subst owner
      rw [Function.update_self] at stored
      exact (at_mine found handlers alone _).mpr (given delivery stored)
    · rw [Function.update_of_ne owner] at stored
      exact (at_keep found handlers (absurd · (Ne.symm owner)) _).mpr (aligned.stored provider delivery stored)
  · intro provider other engaged
    rw [store]
    by_cases owner : provider = handler.reg.provider
    · subst owner
      obtain ⟨rfl, passes⟩ := (at_mine found handlers alone other).mp engaged
      rw [Function.update_self]
      exact present passes
    · rw [Function.update_of_ne owner]
      exact aligned.holds provider other
        ((at_keep found handlers (absurd · (Ne.symm owner)) other).mp engaged)
  · intro provider other
    rw [registry]
    refine (aligned.current provider other).trans (at_keep found handlers (fun _ => ?_) other).symm
    rw [decide_eq_false offline.1, decide_eq_false offline.2]

theorem Aligned.relisted (before : handler.stage.engaged = true) (after : stage.engaged = true)
    (handlers : later.handlers = agents.setStage index handler stage)
    (registry : later.online = Function.update agents.online handler.reg.provider
      (if stage = .online then some index else none)) (store : later.envelopes = agents.envelopes) :
    later.Aligned := by
  have mine : agents.Engaged handler.reg.provider index := (at_index found).mpr ⟨rfl, before⟩
  have alone : ∀ other, agents.Online handler.reg.provider other → other = index := by
    rintro other ⟨holder, foundHolder, owned, online⟩
    exact aligned.alone ⟨holder, foundHolder, owned, by rw [of_decide_eq_true online]; rfl⟩ mine
  refine aligned.of_engaged store
    (fun _ => at_keep found handlers fun _ => after.trans before.symm) fun provider other => ?_
  rw [registry]
  by_cases owner : provider = handler.reg.provider
  · subst owner
    rw [Online, at_mine found handlers alone]
    by_cases online : stage = .online
    · simp [online, eq_comm]
    · simp [online]
  · rw [Function.update_of_ne owner, aligned.current]
    exact (at_keep found handlers (absurd · (Ne.symm owner)) other).symm

end Moved

theorem Aligned.dial (aligned : agents.Aligned) (authedProvider : Text) (reg : AgentRegister)
    (taken : step gate agents (.dial authedProvider reg) = some later) : later.Aligned := by
  cases taken
  have same : ∀ (test : AgentStage → Bool), test .dialed = false → ∀ provider other,
      At { agents with
            handlers := agents.handlers ++
              [{ authedProvider := authedProvider, reg := reg, stage := .dialed }] }
          test provider other ↔ agents.At test provider other := by
    intro test fails provider other
    constructor
    · intro ⟨handler, found, owner, passes⟩
      by_cases inside : other < agents.handlers.length
      · rw [List.getElem?_append_left inside] at found
        exact ⟨handler, found, owner, passes⟩
      · rw [List.getElem?_append_right (Nat.le_of_not_lt inside)] at found
        cases List.mem_singleton.mp (List.mem_of_getElem? found)
        rw [fails] at passes
        cases passes
    · intro ⟨handler, found, owner, passes⟩
      have inside := (List.getElem?_eq_some_iff.mp found).1
      exact ⟨handler, (List.getElem?_append_left inside).trans found, owner, passes⟩
  exact aligned.of_engaged rfl (same _ rfl) fun provider other =>
    (aligned.current provider other).trans (same _ rfl _ _).symm

theorem Exclusive.nobody (allowed : agents.Exclusive (.deliver index true))
    (found : agents.handlers[index]? = some handler) (other : Nat) :
    ¬ agents.Engaged handler.reg.provider other := by
  intro ⟨rival, foundRival, owner, engaged⟩
  simp only [Exclusive, exclusive, found, List.all_eq_true] at allowed
  have free := allowed rival (List.mem_of_getElem? foundRival)
  rw [owner, engaged] at free
  simp at free

theorem Aligned.deliver {accepted : Bool} (aligned : agents.Aligned)
    (allowed : agents.Exclusive (.deliver index accepted))
    (found : agents.handlers[index]? = some handler)
    (taken : agents.deliver gate index handler accepted = some later) : later.Aligned := by
  unfold Agents.deliver at taken
  split at taken
  · next ready =>
    split at taken
    · cases taken
      refine aligned.restored found ?_ ⟨by rw [ready.1]; decide, by decide⟩ rfl rfl rfl ?_
        fun _ => ⟨_, rfl⟩
      · exact fun other engaged => absurd engaged (allowed.nobody found other)
      · rintro _ ⟨⟩
        exact ⟨rfl, rfl⟩
    · cases taken
      exact aligned.ended found ready.1
  · cases taken

theorem Aligned.deregister (aligned : agents.Aligned)
    (found : agents.handlers[index]? = some handler)
    (taken : agents.deregister index handler = some later) : later.Aligned := by
  unfold Agents.deregister at taken
  split at taken
  · next online =>
    have current : agents.online handler.reg.provider = some index :=
      (aligned.current _ _).mpr ((at_index found).mpr ⟨rfl, decide_eq_true online⟩)
    rw [if_pos current] at taken
    cases taken
    exact aligned.relisted found (by rw [online]; rfl) rfl rfl rfl rfl
  · cases taken

theorem Aligned.step {action : AgentAction} (aligned : agents.Aligned)
    (allowed : agents.Exclusive action) (taken : step gate agents action = some later) :
    later.Aligned := by
  cases action with
  | dial authedProvider reg => exact aligned.dial authedProvider reg taken
  | refuse index =>
    obtain ⟨handler, found, refused⟩ := bind_eq_some_iff.mp taken
    unfold refuse at refused
    split at refused <;> cases refused
    rename_i ready
    exact aligned.ended found ready.1
  | deliver index accepted =>
    obtain ⟨handler, found, delivered⟩ := bind_eq_some_iff.mp taken
    exact aligned.deliver allowed found delivered
  | register index =>
    obtain ⟨handler, found, registered⟩ := bind_eq_some_iff.mp taken
    unfold register at registered
    split at registered <;> cases registered
    rename_i ready
    exact aligned.relisted found (by rw [ready]; rfl) rfl rfl rfl rfl
  | deregister index =>
    obtain ⟨handler, found, left⟩ := bind_eq_some_iff.mp taken
    exact aligned.deregister found left
  | revoke index deleted =>
    obtain ⟨handler, found, revoked⟩ := bind_eq_some_iff.mp taken
    have gone : deleted = true := allowed
    unfold revoke at revoked
    split at revoked <;> cases revoked
    rename_i leaving
    refine aligned.restored found ?_ ⟨by rw [leaving]; decide, by decide⟩ rfl rfl rfl nofun nofun
    have mine : agents.Engaged handler.reg.provider index :=
      (at_index found).mpr ⟨rfl, by rw [leaving]; rfl⟩
    exact fun other engaged => aligned.alone engaged mine

theorem aligned_initial : initial.Aligned := by
  constructor
  · nofun
  · nofun
  · intro _ _
    constructor
    · nofun
    · nofun

theorem aligned_everywhere (reached : (machine gate).Reach Exclusive agents) : agents.Aligned :=
  reached.invariant aligned_initial fun _ _ _ aligned allowed taken => aligned.step allowed taken

/-! ### Credentials of the agents online -/

structure Rightful (agents : Agents) : Prop where
  own : ∀ provider index, agents.online provider = some index →
    ∃ envelope, agents.envelopes provider = some { deliveredBy := index, envelope := envelope }
  cleared : ∀ provider, agents.online provider = none →
    (∀ index, ¬ agents.At AgentStage.pending provider index) → agents.envelopes provider = none

/-- Entries and envelopes of other handlers are as they were. -/
structure Spares (before : Agents) (index : Nat) (after : Agents) : Prop where
  entries : ∀ provider other, before.online provider = some other → other ≠ index →
    after.online provider = some other
  envelopes : ∀ provider delivery, before.envelopes provider = some delivery →
    delivery.deliveredBy ≠ index → after.envelopes provider = some delivery

theorem Aligned.rightful (aligned : agents.Aligned) : agents.Rightful := by
  constructor
  · intro provider index current
    obtain ⟨handler, found, owner, online⟩ := (aligned.current provider index).mp current
    exact aligned.holds provider index
      ⟨handler, found, owner, by rw [of_decide_eq_true online]; rfl⟩
  · intro provider offline settled
    cases stored : agents.envelopes provider with
    | none => rfl
    | some delivery =>
      obtain ⟨handler, found, owner, engaged⟩ := aligned.stored provider delivery stored
      cases stage : handler.stage with
      | online =>
        have current := (aligned.current provider delivery.deliveredBy).mpr
          ⟨handler, found, owner, decide_eq_true stage⟩
        rw [offline] at current
        cases current
      | delivered | leaving =>
        exact absurd ⟨handler, found, owner, by rw [stage]; rfl⟩
          (settled delivery.deliveredBy)
      | _ =>
        rw [stage] at engaged
        cases engaged

theorem spares_deregister
    (taken : agents.deregister index handler = some later) : agents.Spares index later := by
  unfold Agents.deregister at taken
  split at taken
  · split at taken
    · next current =>
      cases taken
      refine ⟨?_, fun _ _ stored _ => stored⟩
      intro provider other online different
      by_cases owner : provider = handler.reg.provider
      · subst owner
        rw [current] at online
        exact absurd (Option.some.inj online).symm different
      · exact (Function.update_of_ne owner _ _).trans online
    · cases taken
      exact ⟨fun _ _ online _ => online, fun _ _ stored _ => stored⟩
  · cases taken

theorem Aligned.spares_revoke {deleted : Bool} (aligned : agents.Aligned)
    (found : agents.handlers[index]? = some handler)
    (taken : agents.revoke index handler deleted = some later) : agents.Spares index later := by
  unfold Agents.revoke at taken
  split at taken <;> cases taken
  rename_i leaving
  refine ⟨fun _ _ online _ => online, ?_⟩
  intro provider delivery stored different
  have mine : agents.Engaged handler.reg.provider index :=
    (at_index found).mpr ⟨rfl, by rw [leaving]; rfl⟩
  by_cases owner : provider = handler.reg.provider
  · subst owner
    exact absurd (aligned.alone (aligned.stored _ _ stored) mine) different
  · cases deleted with
    | false => exact stored
    | true => exact (Function.update_of_ne owner _ _).trans stored

theorem Aligned.spares {action : AgentAction} (aligned : agents.Aligned)
    (leaves : action.leavingOf = some index) (taken : Agents.step gate agents action = some later) :
    agents.Spares index later := by
  cases action with
  | deregister own =>
    cases leaves
    obtain ⟨handler, found, left⟩ := bind_eq_some_iff.mp taken
    exact spares_deregister left
  | revoke own deleted =>
    cases leaves
    obtain ⟨handler, found, revoked⟩ := bind_eq_some_iff.mp taken
    exact aligned.spares_revoke found revoked
  | _ => cases leaves

end Agents

/-! ### Runs of two agents of one provider -/

namespace AgentSample

def provider : Text := ascii "acme"

def gate : Gate where
  rates _ := some { perRequestMicros := 1, perMegabyteMicros := 1, modelPremiumMicros := [] }
  admits _ := true

def reg (envelope : Text) : AgentRegister where
  provider := provider
  credential := some envelope
  selfPrice := none
  models := []

/-- The second agent comes online once the first has revoked. -/
def apart : List AgentAction :=
  [.dial provider (reg (ascii "first")), .deliver 0 true, .register 0, .deregister 0,
    .revoke 0 true, .dial provider (reg (ascii "second")), .deliver 1 true, .register 1]

/-- The second agent delivers while the first is about to revoke. -/
def crossing : List AgentAction :=
  [.dial provider (reg (ascii "first")), .deliver 0 true, .register 0, .deregister 0,
    .dial provider (reg (ascii "second")), .deliver 1 true, .register 1, .revoke 0 true]

end AgentSample

open AgentSample

namespace Agents

/-- In runs whose deliveries and revocations are exclusive, leaving takes nothing
from a successor. -/
theorem rightful_everywhere {gate : Gate} {agents : Agents}
    (reached : (machine gate).Reach Exclusive agents) :
    agents.Rightful ∧
      ∀ action index later, action.leavingOf = some index →
        step gate agents action = some later → agents.Spares index later := by
  have aligned := aligned_everywhere reached
  refine ⟨aligned.rightful, ?_⟩
  intro action index later leaves taken
  exact aligned.spares leaves taken

theorem rightful_everywhere_sample :
    ∃ agents, (machine gate).Reach Exclusive agents ∧
      agents.online provider = some 1 ∧ agents.Rightful := by
  have whole : ((machine gate).runWhere exclusive initial apart).map
      (·.online provider) = some (some 1) := by
    decide +kernel
  obtain ⟨agents, ran, online⟩ := map_eq_some_iff.mp whole
  have reached : (machine gate).Reach Exclusive agents :=
    Machine.Reach.start.runWhere ran
  exact ⟨agents, reached, online, (rightful_everywhere reached).1⟩

/-- The first agent's revocation deletes the credential of the second, which is
online by then. -/
theorem crossing_revocation_deletes_successor :
    ∃ agents, (machine gate).Reach Machine.Any agents ∧
      agents.online provider = some 1 ∧
      agents.envelopes provider = none := by
  have whole : ((machine gate).run initial crossing).map
      (fun agents =>
        (agents.online provider, agents.envelopes provider)) =
        some (some 1, none) := by
    decide +kernel
  obtain ⟨agents, ran, shown⟩ := map_eq_some_iff.mp whole
  have reached : (machine gate).Reach Machine.Any agents :=
    Machine.Reach.start.run (fun _ _ _ => trivial) ran
  exact ⟨agents, reached, congrArg Prod.fst shown, congrArg Prod.snd shown⟩

end Agents

end ReclaimTee.TokenHive.Hub
