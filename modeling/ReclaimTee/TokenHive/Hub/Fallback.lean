/-
A job that may fall back from one provider to the next. An attempt is final once
the caller has seen anything of it or it earned anything. A specification that
cannot be built for a later candidate discards the last outcome.
-/

import ReclaimTee.TokenHive.Hub.Settlement

namespace ReclaimTee.TokenHive.Hub

open List

/-! ### The fallback loop -/

/-- A response start or a body byte commits the response to its provider. -/
def Callback.commits : Callback → Bool
  | start _ => true
  | chunk data => data ≠ []

def Execution.relayed (execution : Execution) : Bool :=
  execution.handed.any Callback.commits

/-- What executeForProviders returned, and the attempts it made. -/
structure Dispatch where
  outcome : Outcome
  error : Option HubError
  attempts : List Execution
deriving DecidableEq, Repr

/-- Whether no further candidate is tried after an attempt. -/
def Execution.final (execution : Execution) (relayed : Bool) : Bool :=
  match execution.error with
  | some (.jobPriceExceeded _ _) => true
  | some _ => relayed
  | none => billable execution.outcome.receipt.receipt || 0 < execution.outcome.charged || relayed

namespace Config

variable (config : Config) (callbacks : Callbacks) (tenant model body : Text)

def tryProviders : List Text → List Execution → HubProgram Dispatch
  | [], attempts =>
    match attempts.getLast? with
    | none => do
        let error ← supplyError model
        return ⟨.empty, some error, []⟩
    | some last => return ⟨last.outcome, last.error, attempts⟩
  | provider :: rest, attempts => do
      let built ← send (.build provider)
      match built with
      | .error reason =>
        return ⟨.empty, some (.buildSpec provider reason), attempts⟩
      | .ok spec =>
        let execution ← config.execute callbacks tenant model spec body
        let made := attempts ++ [execution]
        if execution.final (made.any Execution.relayed) then
          return ⟨execution.outcome, execution.error, made⟩
        else
          tryProviders rest made

def executeForProviders (providers : List Text) : HubProgram Dispatch :=
  config.tryProviders callbacks tenant model body providers []

end Config

/-! ### Positive settlements -/

def positiveSettlement (event : hub.Event) : Bool :=
  match event.request with
  | .noteSettled _ micros => 0 < micros
  | _ => false

def positiveSettlements (events : List hub.Event) : Nat :=
  events.countP positiveSettlement

theorem positiveSettlements_append (events more : List hub.Event) :
    positiveSettlements (events ++ more) = positiveSettlements events + positiveSettlements more :=
  countP_append

theorem positiveSettlements_cons (event : hub.Event) (events : List hub.Event) :
    positiveSettlements (event :: events) =
      positiveSettlements events + (positiveSettlement event).toNat := by
  unfold positiveSettlements
  rw [countP_cons]
  cases positiveSettlement event <;> rfl

section Dispatches

variable {config : Config}

variable {request : HubRequest} {events : List hub.Event} {execution : Execution}

theorem positiveSettlement_still (answer : request.Answer)
    (still : request.movesMoney = false) : positiveSettlement ⟨request, answer⟩ = false := by
  cases request with
  | noteSettled provider micros => cases still
  | _ => rfl

theorem charge_kept {phase : Phase} (answer : request.Answer)
    (permitted : config.permitted phase request) (booked : phase.money ≠ .unmoved) :
    positiveSettlement ⟨request, answer⟩ = false ∧
      (phase.after request answer).money ≠ .unmoved ∧
      (phase.after request answer).money.charged = phase.money.charged := by
  cases moves : request.movesMoney with
  | false =>
    rw [phase.after_money answer moves]
    exact ⟨positiveSettlement_still answer moves, booked, rfl⟩
  | true =>
    refine ⟨?_, phase.after_moved answer moves, ?_⟩
    · cases request with
      | noteSettled provider micros => exact absurd permitted.1 booked
      | _ => rfl
    · cases request with
      | noteSettled provider micros => exact absurd permitted.1 booked
      | noteCommission | chargeTenant => rfl
      | _ => cases moves

theorem charge_first {phase : Phase} (answer : request.Answer)
    (permitted : config.permitted phase request) (unbooked : phase.money = .unmoved) :
    positiveSettlement ⟨request, answer⟩ =
      decide (0 < (phase.after request answer).money.charged) := by
  cases moves : request.movesMoney with
  | false =>
    rw [phase.after_money answer moves, unbooked, positiveSettlement_still answer moves]
    rfl
  | true =>
    cases request with
    | noteSettled provider micros => rfl
    | noteCommission provider micros =>
      obtain ⟨charged, noted⟩ := permitted
      rw [unbooked] at noted
      cases noted
    | chargeTenant tenant micros =>
      obtain ⟨_, _, _, _, _, _, commissioned⟩ := permitted
      rw [unbooked] at commissioned
      cases commissioned
    | _ => cases moves

section Runs

variable {Value : Type} {ends : Phase → Value → Prop} {program : HubProgram Value}
  {events : List hub.Event} {result : Value} {phase : Phase}

theorem settlements_booked (run : program.Ends events result)
    (obeys : program.Obeys config.discipline ends phase) (booked : phase.money ≠ .unmoved) :
    positiveSettlements events = 0 ∧
      (config.discipline.phaseAfter phase events).money.charged = phase.money.charged := by
  induction run generalizing phase with
  | done result => exact ⟨rfl, rfl⟩
  | @call request next answer events result rest ih =>
    obtain ⟨silent, still, same⟩ := charge_kept answer obeys.1 booked
    obtain ⟨none, kept⟩ := ih (obeys.2 answer) still
    rw [positiveSettlements_cons, silent, none]
    exact ⟨rfl, kept.trans same⟩

theorem settlements_of_run (run : program.Ends events result)
    (obeys : program.Obeys config.discipline ends phase) (unbooked : phase.money = .unmoved) :
    positiveSettlements events =
      (decide (0 < (config.discipline.phaseAfter phase events).money.charged)).toNat := by
  induction run generalizing phase with
  | done result =>
    change 0 = (decide (0 < phase.money.charged)).toNat
    rw [unbooked]
    rfl
  | @call request next answer events result rest ih =>
    have first := charge_first answer obeys.1 unbooked
    by_cases still : (phase.after request answer).money = .unmoved
    · rw [positiveSettlements_cons, first, still, ih (obeys.2 answer) still]
      rfl
    · obtain ⟨none, kept⟩ := settlements_booked rest (obeys.2 answer) still
      rw [positiveSettlements_cons, none, first, Nat.zero_add]
      exact congrArg (fun charged => (decide (0 < charged)).toNat) kept.symm

end Runs

def Execution.paid (execution : Execution) : Bool :=
  execution.error = none && 0 < execution.outcome.charged

theorem settlements_of_execute {callbacks : Callbacks} {tenant model body : Text} {spec : Spec}
    (run : (config.execute callbacks tenant model spec body).Ends events execution) :
    positiveSettlements events = execution.paid.toNat := by
  have obeys := config.execute_obeys callbacks tenant model spec body
  have ended := run.of_obeys obeys
  rw [settlements_of_run run obeys rfl]
  congr 1
  have money := ended.2
  by_cases failed : execution.error = none
  · simp only [HubJob.settlement, failed] at money
    rw [money.1, Execution.paid, failed]
    rfl
  · simp only [HubJob.settlement, failed] at money
    have unmoved : (config.discipline.phaseAfter (Phase.begin tenant) events).money = .unmoved :=
      money
    rw [unmoved, Execution.paid]
    simp [failed, Money.charged]

/-! ### What a dispatch shows and books -/

/-- An attempt the loop may go on after. -/
def Execution.quiet (execution : Execution) : Bool :=
  !execution.relayed && !execution.paid

/-- The caller sees one attempt, one attempt is paid, none is made after an
attempt that was seen or paid, and the last outcome is returned. -/
structure Faithful (events : List hub.Event) (dispatch : Dispatch) : Prop where
  oneSeen : ∀ one other : Nat, ∀ first second, dispatch.attempts[one]? = some first →
    dispatch.attempts[other]? = some second → first.relayed = true → second.relayed = true →
      one = other
  onePaid : positiveSettlements events ≤ 1
  lastCommitted : ∀ execution ∈ dispatch.attempts.dropLast, execution.quiet = true
  lastReturned : ∀ last, dispatch.attempts.getLast? = some last → dispatch.outcome = last.outcome

theorem quiet_of_goes_on {relayed : Bool} (goesOn : execution.final relayed = false)
    (seen : execution.relayed = true → relayed = true) : execution.quiet = true := by
  have unseen : relayed = false := by
    unfold Execution.final at goesOn
    cases relayed with
    | false => rfl
    | true =>
      split at goesOn
      · cases goesOn
      · cases goesOn
      · rw [Bool.or_true] at goesOn
        cases goesOn
  have unpaid : execution.paid = false := by
    unfold Execution.final at goesOn
    unfold Execution.paid
    split at goesOn
    · cases goesOn
    · next failed => simp [failed]
    · rw [Bool.or_eq_false_iff, Bool.or_eq_false_iff] at goesOn
      rw [goesOn.1.2, Bool.and_false]
  have unrelayed : execution.relayed = false := by
    cases relays : execution.relayed with
    | false => rfl
    | true =>
      rw [seen relays] at unseen
      cases unseen
  rw [Execution.quiet, unrelayed, unpaid]
  rfl

theorem unpaid_of_quiet {executions : List Execution}
    (quiet : ∀ execution ∈ executions, execution.quiet = true) :
    executions.countP Execution.paid = 0 := by
  rw [countP_eq_zero]
  intro execution member paid
  have silent := (Bool.and_eq_true_iff.mp (quiet execution member)).2
  rw [paid] at silent
  cases silent

/-! ### Attempts in the events of a run -/

def buildFailure (provider reason : Text) : hub.Event :=
  ⟨.build provider, .error reason⟩

def buildSuccess (provider : Text) (spec : Spec) : hub.Event :=
  ⟨.build provider, .ok spec⟩

section Attempts

variable (config) (callbacks : Callbacks) (tenant model body : Text)

/-- Events that are one attempt after the other: a specification that was built, and
a run of Execute with it. -/
inductive Attempts : List hub.Event → List Execution → Prop
  | none : Attempts [] []
  | more {provider : Text} {spec : Spec} {attempted later : List hub.Event} {execution : Execution}
      {executions : List Execution}
      (executed : (config.execute callbacks tenant model spec body).Ends attempted execution)
      (rest : Attempts later executions) :
      Attempts (buildSuccess provider spec :: (attempted ++ later)) (execution :: executions)

/-- The events end with a failed build behind an attempt that had an outcome. -/
def LateBuildFailure (events : List hub.Event) : Prop :=
  ∃ made attempts last provider reason, events = made ++ [buildFailure provider reason] ∧
    Attempts config callbacks tenant model body made attempts ∧
    attempts.getLast? = some last ∧ last.outcome ≠ .empty

/-- How a run goes on after its attempts, and what it returns then. -/
structure Ending (tail : List hub.Event) (dispatch : Dispatch) : Prop where
  stops : ∀ provider spec, tail.head? ≠ some (buildSuccess provider spec)
  discarded : ∀ provider reason, tail = [buildFailure provider reason] → dispatch.outcome = .empty
  returned : (∀ provider reason, tail ≠ [buildFailure provider reason]) →
    ∀ last, dispatch.attempts.getLast? = some last → dispatch.outcome = last.outcome

/-- What a run of the loop leaves behind, from attempts it may go on after. -/
structure Tried (earlier : List Execution) (events : List hub.Event) (dispatch : Dispatch) :
    Prop where
  quiet : ∀ execution ∈ dispatch.attempts.dropLast, execution.quiet = true
  paid : positiveSettlements events = dispatch.attempts.countP Execution.paid
  ended : ∃ made tail later, events = made ++ tail ∧
    Attempts config callbacks tenant model body made later ∧
    dispatch.attempts = earlier ++ later ∧ Ending tail dispatch

end Attempts

variable {callbacks : Callbacks} {tenant model body : Text}

theorem Attempts.unique {one other tail rest : List hub.Event} {attempts others : List Execution}
    (first : Attempts config callbacks tenant model body one attempts)
    (second : Attempts config callbacks tenant model body other others)
    (same : one ++ tail = other ++ rest)
    (stops : ∀ provider spec, tail.head? ≠ some (buildSuccess provider spec))
    (stopsToo : ∀ provider spec, rest.head? ≠ some (buildSuccess provider spec)) :
    attempts = others ∧ tail = rest := by
  induction first generalizing other others with
  | none =>
    cases second with
    | none => exact ⟨rfl, same⟩
    | more _ _ => exact absurd (congrArg head? same) (stops _ _)
  | more executed _ ih =>
    cases second with
    | none => exact absurd (congrArg head? same).symm (stopsToo _ _)
    | more executedToo onwards =>
      rw [cons_append, cons_append, append_assoc, append_assoc] at same
      obtain ⟨event, later⟩ := List.cons.inj same
      cases event
      obtain ⟨_, later, rfl⟩ := executed.append_inj executedToo later
      obtain ⟨rfl, tails⟩ := ih onwards later
      exact ⟨rfl, tails⟩

theorem Tried.of_quiet {attempts : List Execution} {outcome : Outcome} {error : Option HubError}
    (quiet : ∀ execution ∈ attempts, execution.quiet = true)
    (unbooked : positiveSettlements events = 0) (ending : Ending events ⟨outcome, error, attempts⟩) :
    Tried config callbacks tenant model body attempts events ⟨outcome, error, attempts⟩ where
  quiet execution member := quiet execution (mem_of_mem_dropLast member)
  paid := unbooked.trans (unpaid_of_quiet quiet).symm
  ended := ⟨[], events, [], rfl, .none, (append_nil attempts).symm, ending⟩

theorem tried_of_run {providers : List Text} {attempts : List Execution} {dispatch : Dispatch}
    (run : (config.tryProviders callbacks tenant model body providers attempts).Ends events
      dispatch)
    (quiet : ∀ execution ∈ attempts, execution.quiet = true) :
    Tried config callbacks tenant model body attempts events dispatch := by
  induction providers generalizing attempts events with
  | nil =>
    unfold Config.tryProviders at run
    cases made : attempts.getLast? with
    | none =>
      rw [made] at run
      obtain ⟨before, error, after, first, second, rfl⟩ := Program.Ends.of_bind run
      cases second
      obtain ⟨gone, rest, answered, rfl⟩ := ends_of_send first
      have silent : rest = [] := by
        cases gone <;> cases answered <;> rfl
      subst silent
      rw [getLast?_eq_none_iff.mp made]
      exact Tried.of_quiet nofun rfl ⟨nofun, nofun, nofun⟩
    | some last =>
      rw [made] at run
      cases run
      refine Tried.of_quiet quiet rfl ⟨nofun, nofun, ?_⟩
      intro _ final same
      cases made.symm.trans same
      rfl
  | cons provider rest ih =>
    obtain ⟨built, later, asked, rfl⟩ := ends_of_send run
    have unbooked : positiveSettlement ⟨.build provider, built⟩ = false := rfl
    cases built with
    | error reason =>
      cases asked
      exact Tried.of_quiet quiet rfl
        ⟨nofun, fun _ _ _ => rfl, fun other => absurd rfl (other provider reason)⟩
    | ok spec =>
      obtain ⟨before, execution, after, executed, onwards, rfl⟩ := Program.Ends.of_bind asked
      have booked := settlements_of_execute executed
      dsimp only at onwards
      split at onwards
      · cases onwards
        constructor
        · rw [dropLast_concat]
          exact quiet
        · rw [positiveSettlements_cons, append_nil, booked, countP_append,
            unpaid_of_quiet quiet, countP_singleton]
          cases execution.paid <;> rfl
        · refine ⟨_, [], _, (append_nil _).symm, .more executed .none, rfl, nofun, nofun, ?_⟩
          intro _ last same
          rw [getLast?_concat] at same
          cases same
          rfl
      · next goesOn =>
        have still : execution.quiet = true := by
          apply quiet_of_goes_on (Bool.eq_false_iff.mpr goesOn)
          intro relayed
          rw [any_append, any_cons, relayed, Bool.true_or, Bool.or_true]
        have unpaid : positiveSettlements before = 0 := by
          rw [booked]
          have silent := (Bool.and_eq_true_iff.mp still).2
          cases paid : execution.paid with
          | false => rfl
          | true =>
            rw [paid] at silent
            cases silent
        have tried := ih onwards (by
          intro other member
          rcases mem_append.mp member with earlier | here
          · exact quiet other earlier
          · rw [mem_singleton.mp here]
            exact still)
        obtain ⟨made, tail, executions, split_, attempted, all, ending⟩ := tried.ended
        refine ⟨tried.quiet, ?_, buildSuccess provider spec :: (before ++ made), tail,
          execution :: executions, ?_, .more executed attempted, ?_, ending⟩
        · rw [positiveSettlements_cons, positiveSettlements_append, unpaid, tried.paid]
          exact Nat.zero_add _
        · rw [split_, cons_append, append_assoc]
          rfl
        · rw [all, append_assoc]
          rfl

variable {earlier : List Execution} {dispatch : Dispatch}

theorem Tried.oneSeen (tried : Tried config callbacks tenant model body earlier events dispatch)
    {index : Nat} (found : dispatch.attempts[index]? = some execution)
    (relayed : execution.relayed = true) : index + 1 = dispatch.attempts.length := by
  obtain ⟨inside, rfl⟩ := List.getElem?_eq_some_iff.mp found
  by_contra earlier
  have member : dispatch.attempts[index] ∈ dispatch.attempts.dropLast := by
    rw [dropLast_eq_take]
    exact mem_take_iff_getElem.mpr ⟨index, by omega, rfl⟩
  have silent := (Bool.and_eq_true_iff.mp (tried.quiet _ member)).1
  rw [relayed] at silent
  cases silent

theorem Tried.onePaid (tried : Tried config callbacks tenant model body earlier events dispatch) :
    positiveSettlements events ≤ 1 := by
  rw [tried.paid]
  rcases eq_nil_or_concat dispatch.attempts with none | ⟨earlier, last, whole⟩
  · rw [none]
    exact Nat.zero_le _
  · have quiet := tried.quiet
    rw [whole] at quiet ⊢
    rw [concat_eq_append, dropLast_concat] at quiet
    rw [concat_eq_append, countP_append, unpaid_of_quiet quiet, Nat.zero_add]
    exact countP_le_length

end Dispatches

/-! ### A provider that declines, one that serves, and one without a specification -/

namespace FallbackSample

def oracle : (request : HubRequest) → request.Answer
  | .build provider =>
    if provider = ascii "first" then .ok { Sample.spec with jobID := ascii "declined" }
    else if provider = ascii "second" then .ok Sample.spec
    else .error (ascii "no route")
  | request => Sample.oracle request

def callbacks : Callbacks where
  onChunk := true
  onStart := true

/-- The dispatch to the first candidate and then another. -/
def run (provider : Text) : List hub.Event × Dispatch :=
  (Sample.config.executeForProviders callbacks [] [] [] [ascii "first", provider]).under oracle

theorem run_ends (provider : Text) :
    (Sample.config.executeForProviders callbacks [] [] [] [ascii "first", provider]).Ends
      (run provider).1 (run provider).2 :=
  Program.ends_under _ _

end FallbackSample

open FallbackSample

theorem late_build_discards_outcome :
    (Sample.config.executeForProviders callbacks [] [] []
        [ascii "first", ascii "third"]).Ends
      (run (ascii "third")).1 (run (ascii "third")).2 ∧
    ¬ Faithful (run (ascii "third")).1 (run (ascii "third")).2 := by
  refine ⟨run_ends _, ?_⟩
  intro faithful
  have differs : ((run (ascii "third")).2.attempts.getLast?).map
      (fun last => decide ((run (ascii "third")).2.outcome = last.outcome)) =
      some false := by
    decide +kernel
  obtain ⟨last, found, different⟩ := Option.map_eq_some_iff.mp differs
  exact of_decide_eq_false different (faithful.lastReturned last found)

/-- The recorded attempts are those in the events of the run. The dispatch is faithful
exactly if the events do not end with a failed build behind an attempt that had
an outcome. -/
theorem faithful_iff {config : Config} {callbacks : Callbacks} {tenant model body : Text}
    {providers : List Text} {events : List hub.Event} {dispatch : Dispatch}
    (run : (config.executeForProviders callbacks tenant model body providers).Ends events dispatch) :
    (∃ made tail, events = made ++ tail ∧
      Attempts config callbacks tenant model body made dispatch.attempts) ∧
    (Faithful events dispatch ↔
      ¬ LateBuildFailure config callbacks tenant model body events) := by
  have tried := tried_of_run run nofun
  obtain ⟨made, tail, attempts, whole, attempted, all, ending⟩ := tried.ended
  rw [nil_append] at all
  subst all
  refine ⟨⟨made, tail, whole, attempted⟩, ?_⟩
  constructor
  · rintro faithful ⟨others, attempts, last, provider, reason, same, again, found, outcome⟩
    obtain ⟨rfl, rfl⟩ := attempted.unique again (whole.symm.trans same) ending.stops nofun
    apply outcome
    rw [← faithful.lastReturned last found]
    exact ending.discarded provider reason rfl
  · intro kept
    constructor
    · intro one other first second foundFirst foundSecond relayedFirst relayedSecond
      have atEnd := tried.oneSeen foundFirst relayedFirst
      have alsoAtEnd := tried.oneSeen foundSecond relayedSecond
      omega
    · exact tried.onePaid
    · exact tried.quiet
    · intro last found
      by_cases failed : ∃ provider reason, tail = [buildFailure provider reason]
      · obtain ⟨provider, reason, same⟩ := failed
        rw [ending.discarded provider reason same]
        by_contra outcome
        exact kept ⟨made, _, last, provider, reason, same ▸ whole, attempted, found,
          fun empty => outcome empty.symm⟩
      · apply ending.returned _ last found
        exact fun provider reason same => failed ⟨provider, reason, same⟩

/-- The first candidate declines; the second serves the job and is paid, and its
outcome is returned. -/
theorem faithful_iff_sample :
    Faithful (run (ascii "second")).1 (run (ascii "second")).2 ∧
      (run (ascii "second")).2.attempts.map
        (fun attempt => (attempt.outcome.receipt.receipt.statusCode, attempt.outcome.charged,
          handedChunks attempt.handed)) =
        [(401, 0, []), (200, 5, [ascii "a", ascii "job"])] ∧
      (run (ascii "second")).2.outcome.charged = 5 := by
  refine ⟨(faithful_iff (run_ends _)).2.mpr ?_, by decide +kernel, by decide +kernel⟩
  rintro ⟨made, attempts, last, provider, reason, same, _⟩
  have released : (run (ascii "second")).1.getLast?.map Interface.Event.request =
      some (.release []) := by
    rfl
  rw [same, getLast?_concat] at released
  cases released

end ReclaimTee.TokenHive.Hub
