/-
Acknowledgements at TEE_K stay within one control generation. An acknowledged
owner is held until a connection takes it over or it is released, which happens
once. Owners and session connections are those of the current connection.
-/

import ReclaimTee.Control.TeeK

namespace ReclaimTee.TeeK

open ReclaimTee.Control List Table

namespace Node

/-- Owners that are acknowledged and neither published nor released. -/
def held (n : Node) : List ControlToken :=
  n.manager.acknowledgedSessions.entries.map Prod.snd

def acknowledged (n : Node) : List ControlToken :=
  n.delivered.map fun delivery => delivery.waiter.owner

end Node

/-- A session connection as its owner was acknowledged. -/
def SessionConnection.Admitted (conn : SessionConnection) : Prop :=
  conn.session = conn.admissionOwner.session ∧ conn.sessionID = conn.session.id ∧
    conn.controlConn = conn.admissionOwner.conn ∧
    conn.controlGeneration = conn.admissionOwner.generation

structure Accounted (n : Node) : Prop where
  delivered : ∀ delivery ∈ n.delivered,
    delivery.waiter.controlConn = delivery.conn ∧
      delivery.waiter.controlGeneration = delivery.generation
  distinct : n.acknowledged.Nodup
  once : (n.held ++ (n.published.map SessionConnection.admissionOwner ++ n.released)).Perm
    n.acknowledged
  current : ∀ sessionID owner, n.manager.acknowledgedSessions.find sessionID = some owner →
    n.manager.controlConn = some owner.conn ∧ n.manager.controlGeneration = owner.generation
  published : ∀ conn ∈ n.published, conn.Admitted
  stays : ∀ sessionID conn, n.manager.sessionConns.find sessionID = some conn →
    conn ∈ n.published ∧ conn.sessionID = sessionID ∧
      n.manager.controlConn = some conn.controlConn ∧
      n.manager.controlGeneration = conn.controlGeneration

/-- The waiters: each is the only one of its session, and new. -/
structure Waiting (n : Node) : Prop where
  named : ∀ sessionID owner, n.manager.acknowledgedSessions.find sessionID = some owner →
    owner.session.id = sessionID
  pending : ∀ sessionID waiter, n.manager.pendingAcks.find sessionID = some waiter →
    waiter.owner.session.id = sessionID ∧ waiter.controlConn = waiter.owner.conn ∧
      waiter.controlGeneration = waiter.owner.generation ∧
      waiter.owner.identity < n.nextOwner ∧ waiter.owner ∉ n.acknowledged ∧
      n.manager.acknowledgedSessions.find sessionID = none
  older : ∀ owner ∈ n.acknowledged, owner.identity < n.nextOwner

structure Bound (n : Node) : Prop where
  accounted : Accounted n
  waiting : Waiting n

namespace Bound

variable {n : Node}

theorem start : Bound Node.start where
  accounted :=
    { delivered := fun _ member => absurd member not_mem_nil
      distinct := nodup_nil
      once := List.Perm.refl _
      current := nofun
      published := fun _ member => absurd member not_mem_nil
      stays := nofun }
  waiting :=
    { named := nofun
      pending := nofun
      older := fun _ member => absurd member not_mem_nil }

variable (known : Bound n)
include known

theorem elsewhere (requests : List Request) (sessions : Sessions)
    (cleanedUp : List Session) (nextSession : Nat) :
    Bound { n with
      requests := requests
      sessions := sessions
      cleanedUp := cleanedUp
      nextSession := nextSession } where
  accounted := { known.accounted with }
  waiting := { known.waiting with }

theorem connect {next : Node} (taken : n.connect = some next) : Bound next := by
  unfold Node.connect at taken
  split at taken <;> cases taken
  rename_i disconnected
  have none := Option.not_isSome_iff_eq_none.mp disconnected
  exact
    { accounted :=
        { known.accounted with
          current := by
            intro sessionID owner found
            rw [(known.accounted.current sessionID owner found).1] at none
            cases none
          stays := by
            intro sessionID conn found
            rw [(known.accounted.stays sessionID conn found).2.2.1] at none
            cases none }
      waiting := { known.waiting with } }

theorem fewerWaiters {waiters : Table String AckWaiter}
    (kept : ∀ sessionID waiter, waiters.find sessionID = some waiter →
      n.manager.pendingAcks.find sessionID = some waiter) :
    Bound { n with manager := { n.manager with pendingAcks := waiters } } where
  accounted := { known.accounted with }
  waiting :=
    { known.waiting with
      pending := fun sessionID waiter found =>
        known.waiting.pending sessionID waiter (kept sessionID waiter found) }

theorem removeWaiter (owner : ControlToken) :
    Bound { n with manager := n.manager.removeWaiter owner } := by
  unfold ConnectionManager.removeWaiter
  split
  · exact known
  · split
    · exact known.fewerWaiters fun _ _ found => (find_remove_eq_some_iff.mp found).1
    · exact known

theorem request (session : Session) : Bound (n.request session) := by
  unfold Node.request
  split
  · exact known
  rename_i manager owner registered
  unfold ConnectionManager.registerWaiter at registered
  split at registered
  · cases registered
  rw [bind_eq_ok_iff] at registered
  obtain ⟨_, noWaiter, registered⟩ := registered
  rw [bind_eq_ok_iff] at registered
  obtain ⟨_, noOwner, registered⟩ := registered
  cases registered
  have unowned := Option.not_isSome_iff_eq_none.mp (rejectIf_eq_ok_iff.mp noOwner)
  exact
    { accounted := { known.accounted with }
      waiting :=
        { known.waiting with
          pending := by
            intro sessionID waiter found
            rcases find_put_cases found with ⟨same, rfl⟩ | ⟨_, found⟩
            · refine ⟨same.symm, rfl, rfl, Nat.lt_succ_self _, ?_, same ▸ unowned⟩
              intro member
              exact Nat.lt_irrefl _ (known.waiting.older _ member)
            · obtain ⟨id, conn, generation, older, rest⟩ :=
                known.waiting.pending sessionID waiter found
              exact ⟨id, conn, generation, Nat.lt_succ_of_lt older, rest⟩
          older := fun owner member => Nat.lt_succ_of_lt (known.waiting.older owner member) } }

theorem acknowledge {next : Node} {conn generation : Nat} {sessionID : String}
    (taken : n.acknowledge conn generation sessionID = some next) : Bound next := by
  unfold Node.acknowledge ConnectionManager.sessionCreatedAck at taken
  split at taken
  · next live =>
    obtain ⟨connected, current⟩ := of_decide_eq_true live
    cases found : n.manager.pendingAcks.find sessionID with
    | none =>
      rw [found] at taken
      cases taken
      exact known
    | some waiter =>
      rw [found] at taken
      dsimp only at taken
      obtain ⟨named, ownConn, ownGeneration, older, undelivered, unheld⟩ :=
        known.waiting.pending sessionID waiter found
      by_cases same : waiter.controlConn = conn ∧ waiter.controlGeneration = generation
      · rw [if_pos same] at taken
        cases taken
        exact
          { accounted :=
              { delivered := forall_mem_cons.mpr ⟨same, known.accounted.delivered⟩
                distinct := nodup_cons.mpr ⟨undelivered, known.accounted.distinct⟩
                once :=
                  ((values_put waiter.owner unheld).append_right _).trans
                    (known.accounted.once.cons waiter.owner)
                current := by
                  intro asked owner held
                  rcases find_put_cases held with ⟨here, rfl⟩ | ⟨_, held⟩
                  · rw [← ownConn, ← ownGeneration, same.1, same.2]
                    exact ⟨connected, current⟩
                  · exact known.accounted.current asked owner held
                published := known.accounted.published
                stays := known.accounted.stays }
            waiting :=
              { named := by
                  intro asked owner held
                  rcases find_put_cases held with ⟨here, rfl⟩ | ⟨_, held⟩
                  · rw [named, here]
                  · exact known.waiting.named asked owner held
                pending := by
                  intro asked other left
                  obtain ⟨before, different⟩ := find_remove_eq_some_iff.mp left
                  obtain ⟨otherNamed, otherConn, otherGeneration, otherOlder, unacknowledged,
                    otherUnheld⟩ := known.waiting.pending asked other before
                  refine ⟨otherNamed, otherConn, otherGeneration, otherOlder, ?_, ?_⟩
                  · refine not_mem_cons_of_ne_of_not_mem ?_ unacknowledged
                    intro sameOwner
                    rw [sameOwner, named] at otherNamed
                    exact different otherNamed.symm
                  · dsimp only
                    rw [find_put_other _ _ different]
                    exact otherUnheld
                older := forall_mem_cons.mpr ⟨older, known.waiting.older⟩ } }
      · rw [if_neg same] at taken
        cases taken
        exact known
  · cases taken

theorem takeOver {sessionID : String} {owner : ControlToken}
    (found : n.manager.acknowledgedSessions.find sessionID = some owner)
    (sessionConns : Table String SessionConnection) (published : List SessionConnection)
    (released : List ControlToken)
    (taken : (published.map SessionConnection.admissionOwner ++ released).Perm
      (owner :: (n.published.map SessionConnection.admissionOwner ++ n.released)))
    (admitted : ∀ conn ∈ published, conn.Admitted)
    (stays : ∀ asked conn, sessionConns.find asked = some conn →
      conn ∈ published ∧ conn.sessionID = asked ∧
        n.manager.controlConn = some conn.controlConn ∧
        n.manager.controlGeneration = conn.controlGeneration) :
    Bound { n with
      manager := { n.manager with
        acknowledgedSessions := n.manager.acknowledgedSessions.remove sessionID
        sessionConns := sessionConns }
      published := published
      released := released } where
  accounted :=
    { delivered := known.accounted.delivered
      distinct := known.accounted.distinct
      once := by
        refine List.Perm.trans ?_ known.accounted.once
        refine (taken.append_left _).trans ?_
        refine perm_middle.trans ?_
        exact ((values_remove found).append_right _).symm
      current := fun asked held left =>
        known.accounted.current asked held (find_remove_eq_some_iff.mp left).1
      published := admitted
      stays := stays }
  waiting :=
    { named := fun asked held left =>
        known.waiting.named asked held (find_remove_eq_some_iff.mp left).1
      pending := by
        intro asked waiter waits
        obtain ⟨named, conn, generation, older, undelivered, unheld⟩ :=
          known.waiting.pending asked waiter waits
        refine ⟨named, conn, generation, older, undelivered, ?_⟩
        have different : asked ≠ sessionID := by
          intro same
          rw [same, found] at unheld
          cases unheld
        rw [find_remove_other _ different]
        exact unheld
      older := known.waiting.older }

theorem publish {next : Node} {request : Request}
    (taken : n.publish request = some next) : Bound next := by
  unfold Node.publish at taken
  split at taken
  · split at taken
    · cases taken
      exact known.elsewhere _ _ _ _
    · next manager accepted =>
      cases taken
      unfold ConnectionManager.publishSessionConnection at accepted
      simp only [bind_eq_ok_iff] at accepted
      obtain ⟨_, _, _, currentControl, _, _, _, _, _, _, _, _, _, acknowledged, accepted⟩ := accepted
      cases accepted
      have live : n.manager.isCurrentControlConnection request.owner.conn request.owner.generation =
          true := eq_true_of_ne_false (rejectIf_eq_ok_iff.mp currentControl)
      have found : n.manager.acknowledgedSessions.find request.owner.session.id =
          some request.owner := not_not.mp (rejectIf_eq_ok_iff.mp acknowledged)
      have admitted : ∀ conn ∈ n.candidate request.owner :: n.published, conn.Admitted :=
        forall_mem_cons.mpr ⟨⟨rfl, rfl, rfl, rfl⟩, known.accounted.published⟩
      have stays : ∀ asked conn,
          (n.manager.sessionConns.put request.owner.session.id
            (n.candidate request.owner)).find asked = some conn →
          conn ∈ n.candidate request.owner :: n.published ∧ conn.sessionID = asked ∧
            n.manager.controlConn = some conn.controlConn ∧
            n.manager.controlGeneration = conn.controlGeneration := by
        intro asked conn stored
        rcases find_put_cases stored with ⟨here, rfl⟩ | ⟨_, stored⟩
        · obtain ⟨connected, generation⟩ := of_decide_eq_true live
          exact ⟨mem_cons_self, here.symm, connected, generation⟩
        · obtain ⟨member, rest⟩ := known.accounted.stays asked conn stored
          exact ⟨mem_cons_of_mem _ member, rest⟩
      have base := known.takeOver found _ _ n.released (List.Perm.refl _) admitted stays
      exact
        { accounted := { base.accounted with }
          waiting := { base.waiting with } }
  · cases taken

theorem released {sessionID : String} {owner : ControlToken}
    (found : n.manager.acknowledgedSessions.find sessionID = some owner)
    {sessionConns : Table String SessionConnection}
    (kept : ∀ asked conn, sessionConns.find asked = some conn →
      n.manager.sessionConns.find asked = some conn) :
    Bound { n with
      manager := { n.manager with
        acknowledgedSessions := n.manager.acknowledgedSessions.remove sessionID
        sessionConns := sessionConns }
      released := owner :: n.released } :=
  known.takeOver found _ _ _ perm_middle known.accounted.published fun asked conn stored =>
    known.accounted.stays asked conn (kept asked conn stored)

theorem fewerConnections {sessionConns : Table String SessionConnection}
    (kept : ∀ asked conn, sessionConns.find asked = some conn →
      n.manager.sessionConns.find asked = some conn) :
    Bound { n with manager := { n.manager with sessionConns := sessionConns } } where
  accounted :=
    { known.accounted with
      stays := fun asked conn stored => known.accounted.stays asked conn (kept asked conn stored) }
  waiting := { known.waiting with }

theorem release {next : Node} {request : Request}
    (taken : n.release request = some next) : Bound next := by
  unfold Node.release ConnectionManager.releaseAcknowledgedSessionOwner at taken
  split at taken
  · by_cases found : n.manager.acknowledgedSessions.find request.owner.session.id =
        some request.owner
    · rw [if_pos found] at taken
      cases taken
      exact (known.released found fun _ _ stored => stored).elsewhere _ _ _ _
    · rw [if_neg found] at taken
      cases taken
      exact known.elsewhere _ _ _ _
  · cases taken

theorem closeSessionConnection (session : Session) : Bound (n.closeSessionConnection session) := by
  have kept : ∀ asked conn,
      (n.manager.closeSessionConnection session).sessionConns.find asked = some conn →
      n.manager.sessionConns.find asked = some conn := by
    intro asked conn stored
    dsimp only [ConnectionManager.closeSessionConnection] at stored
    split at stored
    · exact stored
    · split at stored
      · exact (find_remove_eq_some_iff.mp stored).1
      · exact stored
  unfold Node.closeSessionConnection
  cases owned : n.manager.ownerOfSession session with
  | none =>
    have same : (n.manager.closeSessionConnection session).acknowledgedSessions =
        n.manager.acknowledgedSessions := by
      dsimp only [ConnectionManager.closeSessionConnection]
      rw [owned]
      rfl
    have closed := known.fewerConnections kept
    dsimp only at closed
    rw [← same] at closed
    exact closed
  | some owner =>
    have found : n.manager.acknowledgedSessions.find session.id = some owner := by
      unfold ConnectionManager.ownerOfSession at owned
      split at owned
      · cases owned
      · next present =>
        split at owned <;> cases owned
        exact present
    have removed : (n.manager.closeSessionConnection session).acknowledgedSessions =
        n.manager.acknowledgedSessions.remove session.id := by
      dsimp only [ConnectionManager.closeSessionConnection]
      rw [owned]
      rfl
    have closed := known.released found kept
    rw [← removed] at closed
    exact closed

theorem tearDown (conn generation : Nat) : Bound (n.tearDown conn generation) := by
  have fewer : ∀ sessionID waiter,
      (n.manager.failWaiters conn generation).pendingAcks.find sessionID = some waiter →
      n.manager.pendingAcks.find sessionID = some waiter := fun _ _ found =>
    (find_keep_eq_some_iff.mp found).1
  unfold Node.tearDown ConnectionManager.tearDownControl
  by_cases live : n.manager.isCurrentControlConnection conn generation = true
  · obtain ⟨connected, current⟩ := of_decide_eq_true live
    -- All owners and connections in the tables are of this control connection.
    have ours : ∀ {other number : Nat}, n.manager.controlConn = some other ∧
        n.manager.controlGeneration = number → other = conn ∧ number = generation := by
      rintro other number ⟨sameConn, sameGeneration⟩
      rw [connected] at sameConn
      rw [current] at sameGeneration
      exact ⟨(Option.some.inj sameConn).symm, sameGeneration.symm⟩
    have noOwner : ∀ sessionID owner, (n.manager.acknowledgedSessions.keep fun _ owner =>
        ¬ (owner.conn = conn ∧ owner.generation = generation)).find sessionID ≠ some owner := by
      intro sessionID owner found
      obtain ⟨before, other⟩ := find_keep_eq_some_iff.mp found
      exact of_decide_eq_true other (ours (known.accounted.current sessionID owner before))
    have noConnection : ∀ sessionID sessionConn,
        (n.manager.sessionConns.keep fun _ sessionConn => ¬ (sessionConn.controlConn = conn ∧
          sessionConn.controlGeneration = generation)).find sessionID ≠ some sessionConn := by
      intro sessionID sessionConn found
      obtain ⟨before, other⟩ := find_keep_eq_some_iff.mp found
      obtain ⟨_, _, same⟩ := known.accounted.stays sessionID sessionConn before
      exact of_decide_eq_true other (ours same)
    have split : (n.manager.orphanedOwners conn generation ++
        (n.manager.acknowledgedSessions.keep fun _ owner =>
          ¬ (owner.conn = conn ∧ owner.generation = generation)).entries.map Prod.snd).Perm
          n.held := by
      have whole := (filter_append_perm
        (fun entry : String × ControlToken =>
          decide (entry.2.conn = conn ∧ entry.2.generation = generation))
        n.manager.acknowledgedSessions.entries).map Prod.snd
      simpa [ConnectionManager.orphanedOwners, Table.keep, Node.held] using whole
    rw [if_pos live]
    exact
      { accounted :=
          { delivered := known.accounted.delivered
            distinct := known.accounted.distinct
            once := by
              refine List.Perm.trans ?_ known.accounted.once
              refine List.Perm.trans ?_ (split.append_right _)
              refine ((perm_append_comm_assoc _ _ _).append_left _).trans ?_
              rw [← append_assoc]
              exact perm_append_comm.append_right _
            current := fun sessionID owner found => absurd found (noOwner sessionID owner)
            published := known.accounted.published
            stays := fun sessionID sessionConn found =>
              absurd found (noConnection sessionID sessionConn) }
        waiting :=
          { named := fun sessionID owner found => absurd found (noOwner sessionID owner)
            pending := by
              intro sessionID waiter found
              obtain ⟨named, sameConn, sameGeneration, older, undelivered, unheld⟩ :=
                known.waiting.pending sessionID waiter (fewer sessionID waiter found)
              refine ⟨named, sameConn, sameGeneration, older, undelivered, ?_⟩
              exact Option.eq_none_iff_forall_ne_some.mpr (noOwner sessionID)
            older := known.waiting.older } }
  · rw [if_neg live]
    exact (known.fewerWaiters fewer).elsewhere _ _ _ _

theorem step {action : Action} {next : Node} (taken : n.step action = some next) : Bound next := by
  cases action with
  | connect => exact known.connect taken
  | tearDown conn generation =>
    cases taken
    exact known.tearDown conn generation
  | openSession | giveUp | abort =>
    dsimp only [Node.step, Node.openSession, Node.giveUp, Node.abort] at taken
    split at taken <;> cases taken
    exact known.elsewhere _ _ _ _
  | closeSession | markCleanedUp =>
    cases taken
    exact known.elsewhere _ _ _ _
  | request session =>
    cases taken
    exact known.request session
  | leave request =>
    dsimp only [Node.step, Node.leave] at taken
    split at taken <;> cases taken
    exact (known.removeWaiter request.owner).elsewhere _ _ _ _
  | acknowledge conn generation sessionID => exact known.acknowledge taken
  | receive | lookForConnection =>
    dsimp only [Node.step, Node.receive, Node.lookForConnection] at taken
    split at taken
    · split at taken <;> cases taken <;> exact known.elsewhere _ _ _ _
    · cases taken
  | publish request => exact known.publish taken
  | release request => exact known.release taken
  | closeSessionConnection session =>
    cases taken
    exact known.closeSessionConnection session
  | finishHandler sessionConn =>
    cases taken
    unfold ConnectionManager.removeSessionConnection
    split
    · exact known.fewerConnections fun _ _ stored =>
        (find_remove_eq_some_iff.mp stored).1
    · exact known

end Bound

theorem Accounted.settled {n : Node} (known : Accounted n)
    (disconnected : n.manager.controlConn = none) :
    (n.published.map SessionConnection.admissionOwner ++ n.released).Perm n.acknowledged := by
  have unheld : n.held = [] := by
    refine map_eq_nil_iff.mpr (eq_nil_iff_forall_not_mem.mpr ?_)
    intro entry member
    have held := (known.current entry.1 entry.2 (find_eq_some_iff.mpr member)).1
    rw [disconnected] at held
    cases held
  have once := known.once
  rw [unheld] at once
  exact once

/-- In every reachable state: an acknowledgement reached a waiter of the generation it
was read on; the acknowledged owners are, each once, those still held, those that were
published and those that were released, and none is held once the control connection is
lost; owners and session connections in the tables belong to the current control
connection. -/
theorem acknowledgements_accounted {n : Node} (reached : machine.Reach Machine.Any n) :
    Accounted n ∧ (n.manager.controlConn = none →
      (n.published.map SessionConnection.admissionOwner ++ n.released).Perm n.acknowledged) := by
  have known : Bound n := reached.invariant Bound.start fun _ _ _ known _ taken => known.step taken
  exact ⟨known.accounted, known.accounted.settled⟩

/-- The time is over just when the acknowledgement arrives; the next session is
published, and then the control connection is lost. -/
def sampleRun : List Action :=
  let late : ControlToken := ⟨0, 0, 1, ⟨0, "a"⟩⟩
  let early : ControlToken := ⟨1, 0, 1, ⟨1, "b"⟩⟩
  [.connect, .openSession "a", .request ⟨0, "a"⟩, .giveUp ⟨late, .waiting, none⟩,
    .acknowledge 0 1 "a", .leave ⟨late, .leaving, some true⟩, .openSession "b",
    .request ⟨1, "b"⟩, .acknowledge 0 1 "b", .receive ⟨early, .waiting, some true⟩,
    .publish ⟨early, .establishing, some true⟩, .tearDown 0 1]

theorem acknowledgements_accounted_sample :
    ∃ n, machine.run machine.start sampleRun = some n ∧
      n.acknowledged = [⟨1, 0, 1, ⟨1, "b"⟩⟩, ⟨0, 0, 1, ⟨0, "a"⟩⟩] ∧
      n.released = [⟨0, 0, 1, ⟨0, "a"⟩⟩] ∧ Accounted n ∧ n.manager.controlConn = none ∧
      (n.published.map SessionConnection.admissionOwner ++ n.released).Perm n.acknowledged := by
  have recorded : (machine.run machine.start sampleRun).map
      (fun n => (n.acknowledged, n.released, n.manager.controlConn)) =
      some ([⟨1, 0, 1, ⟨1, "b"⟩⟩, ⟨0, 0, 1, ⟨0, "a"⟩⟩], [⟨0, 0, 1, ⟨0, "a"⟩⟩], none) := by
    decide +kernel
  cases ran : machine.run machine.start sampleRun with
  | none =>
    rw [ran] at recorded
    cases recorded
  | some n =>
    rw [ran] at recorded
    obtain ⟨acknowledged, left⟩ := Prod.mk.inj (Option.some.inj recorded)
    obtain ⟨released, disconnected⟩ := Prod.mk.inj left
    have reached : machine.Reach Machine.Any n :=
      Machine.Reach.start.run (fun _ _ _ => trivial) ran
    obtain ⟨accounted, settled⟩ := acknowledgements_accounted reached
    exact ⟨n, rfl, acknowledged, released, accounted, disconnected, settled disconnected⟩

end ReclaimTee.TeeK
