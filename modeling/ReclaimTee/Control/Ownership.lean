/-
Ownership of the session connections at TEE_T. A published connection has the
owner of its session beside it, of the current generation, and the two are purged
together, so a late close finds nothing to remove.
-/

import ReclaimTee.Control.TeeT

namespace ReclaimTee.TeeT

open ReclaimTee.Control List Table ConnectionManager

/-- Every published connection belongs to the owner of its session in the current
generation, and there are not too many. -/
structure Owned (m : ConnectionManager) : Prop where
  owner : ∀ sessionID conn, m.sessionConns.find sessionID = some conn →
    m.controlConn.isSome = true ∧ conn.sessionID = sessionID ∧
      conn.controlGeneration = m.controlGeneration ∧
      m.sessionOwners.find sessionID =
        some { controlGeneration := m.controlGeneration, session := conn.session }
  bounded : m.sessionConns.size ≤ maxConcurrentSessions

/-! ### Removals -/

/-- Connections and owners are only removed, a connection together with its owner. -/
structure Shrinks (m next : ConnectionManager) : Prop where
  each : ∀ sessionID,
    (next.sessionConns.find sessionID = m.sessionConns.find sessionID ∧
        next.sessionOwners.find sessionID = m.sessionOwners.find sessionID) ∨
      (next.sessionConns.find sessionID = none ∧ next.sessionOwners.find sessionID = none)
  size : next.sessionConns.size ≤ m.sessionConns.size

namespace Shrinks

variable {m next : ConnectionManager} {sessionID : String}

theorem refl (m : ConnectionManager) : Shrinks m m where
  each _ := .inl ⟨rfl, rfl⟩
  size := Nat.le_refl _

theorem owners (shrinks : Shrinks m next) {owner : SessionOwner}
    (found : next.sessionOwners.find sessionID = some owner) :
    m.sessionOwners.find sessionID = some owner := by
  rcases shrinks.each sessionID with ⟨_, same⟩ | ⟨_, gone⟩
  · exact same.symm.trans found
  · cases gone.symm.trans found

theorem owned (shrinks : Shrinks m next) (known : Owned m)
    (control : next.controlConn = m.controlConn)
    (generation : next.controlGeneration = m.controlGeneration) : Owned next where
  owner sessionID conn published := by
    rw [control, generation]
    rcases shrinks.each sessionID with ⟨same, owner⟩ | ⟨gone, _⟩
    · rw [owner]
      exact known.owner sessionID conn (same.symm.trans published)
    · cases gone.symm.trans published
  bounded := Nat.le_trans shrinks.size known.bounded

theorem dropping (others : ∀ other, other ≠ sessionID →
      next.sessionConns.find other = m.sessionConns.find other ∧
        next.sessionOwners.find other = m.sessionOwners.find other)
    (conn : next.sessionConns.find sessionID = none)
    (owner : next.sessionOwners.find sessionID = none)
    (size : next.sessionConns.size ≤ m.sessionConns.size) : Shrinks m next where
  each asked := by
    by_cases same : asked = sessionID
    · rw [same]
      exact .inr ⟨conn, owner⟩
    · exact .inl (others asked same)
  size := size

theorem removed (m : ConnectionManager) (sessionID : String) :
    Shrinks m { m with
      sessionConns := m.sessionConns.remove sessionID
      sessionOwners := m.sessionOwners.remove sessionID } :=
  .dropping (fun _ other => ⟨find_remove_other _ other, find_remove_other _ other⟩)
    (find_remove_self _ _) (find_remove_self _ _) (size_remove_le _ _)

theorem disowned (unpublished : m.sessionConns.find sessionID = none) :
    Shrinks m { m with sessionOwners := m.sessionOwners.remove sessionID } :=
  .dropping (fun _ other => ⟨rfl, find_remove_other _ other⟩) unpublished (find_remove_self _ _)
    (Nat.le_refl _)

end Shrinks

namespace Owned

variable {m : ConnectionManager}

theorem of_empty (none : ∀ sessionID, m.sessionConns.find sessionID = none)
    (size : m.sessionConns.size ≤ maxConcurrentSessions) : Owned m where
  owner sessionID conn published := by
    rw [none] at published
    cases published
  bounded := size

theorem purge_shrinks (known : Owned m) (generation : Nat) : Shrinks m (m.purge generation) where
  each sessionID := by
    dsimp only [purge]
    rw [find_keep, find_keep]
    cases published : m.sessionConns.find sessionID with
    | none => cases m.sessionOwners.find sessionID <;> simp [Option.filter, ne_or_eq]
    | some conn =>
      obtain ⟨_, _, current, owner⟩ := known.owner sessionID conn published
      by_cases purged : m.controlGeneration = generation <;> simp [owner, current, purged]
  size := size_keep_le _ _

theorem purge_current (known : Owned m) (sessionID : String) :
    (m.purge m.controlGeneration).sessionConns.find sessionID = none := by
  refine Option.eq_none_iff_forall_ne_some.mpr fun conn found => ?_
  obtain ⟨before, kept⟩ := find_keep_eq_some_iff.mp found
  exact of_decide_eq_true kept (known.owner sessionID conn before).2.2.1

theorem none_without_control (known : Owned m) (control : m.controlConn = none)
    (sessionID : String) : m.sessionConns.find sessionID = none := by
  refine Option.eq_none_iff_forall_ne_some.mpr fun conn found => ?_
  have connected := (known.owner sessionID conn found).1
  rw [control] at connected
  cases connected

theorem closeOwnedSession_shrinks (known : Owned m) (conn generation : Nat) (sessionID : String) :
    Shrinks m (m.closeOwnedSession conn generation sessionID) := by
  unfold closeOwnedSession
  split
  · split
    · exact .refl m
    rename_i owner owned
    split
    · exact .refl m
    rename_i current
    have generations := not_not.mp current
    cases published : m.sessionConns.find sessionID with
    | none =>
      exact .disowned published
    | some found =>
      obtain ⟨_, _, _, sameOwner⟩ := known.owner sessionID found published
      rw [owned] at sameOwner
      cases sameOwner
      dsimp only
      rw [if_pos ⟨(known.owner sessionID found published).2.2.1.trans generations, rfl⟩]
      exact .removed m sessionID
  · exact .refl m

theorem closeSessionConnection_shrinks (known : Owned m) (generation : Nat) (session : Session) :
    Shrinks m (m.closeSessionConnection generation session) := by
  unfold closeSessionConnection
  cases published : m.sessionConns.find session.id with
  | none =>
    cases owned : m.sessionOwners.find session.id with
    | none => exact .refl m
    | some owner =>
      dsimp only
      split
      · exact .disowned published
      · exact .refl m
  | some conn =>
    obtain ⟨_, _, current, owner⟩ := known.owner session.id conn published
    rw [owner]
    dsimp only
    rw [current]
    by_cases closed : m.controlGeneration = generation ∧ conn.session = session
    · rw [if_pos closed, if_pos closed]
      exact .removed m session.id
    · rw [if_neg closed, if_neg closed]
      exact .refl m

end Owned

theorem removeSessionConnection_eq (m : ConnectionManager) (conn : SessionConnection) :
    ∃ conns, m.removeSessionConnection conn = { m with sessionConns := conns } ∧
      (∀ sessionID found, conns.find sessionID = some found →
        m.sessionConns.find sessionID = some found) ∧
      (∀ sessionID found, m.sessionConns.find sessionID = some found → found ≠ conn →
        conns.find sessionID = some found) ∧
      conns.size ≤ m.sessionConns.size := by
  unfold removeSessionConnection
  split
  · next present =>
    refine ⟨_, rfl, fun _ _ found => (find_remove_eq_some_iff.mp found).1, ?_, size_remove_le _ _⟩
    intro sessionID found published other
    refine find_remove_eq_some_iff.mpr ⟨published, ?_⟩
    intro same
    rw [same, present] at published
    exact other (Option.some.inj published).symm
  · exact ⟨_, rfl, fun _ _ found => found, fun _ _ published _ => published, Nat.le_refl _⟩

theorem publishSessionConnection_ok {m next : ConnectionManager}
    {identity generation : Nat} {sessionID : String} {conn : SessionConnection}
    (published : m.publishSessionConnection identity sessionID generation = .ok (next, conn)) :
    ∃ owner, m.sessionOwners.find sessionID = some owner ∧ m.controlConn.isSome = true ∧
      m.controlGeneration = generation ∧ owner.controlGeneration = generation ∧
      m.sessionConns.find sessionID = none ∧ m.sessionConns.size < maxConcurrentSessions ∧
      conn = ⟨identity, sessionID, generation, owner.session⟩ ∧
      next = { m with sessionConns := m.sessionConns.put sessionID conn } := by
  unfold publishSessionConnection at published
  split at published
  · cases published
  rename_i owner owned
  simp only [bind_eq_ok_iff] at published
  obtain ⟨_, current, _, unpublished, _, _, _, room, published⟩ := published
  cases published
  obtain ⟨connected, sameGeneration, ownerGeneration⟩ :=
    (not_or.mp (rejectIf_eq_ok_iff.mp current)).imp_right not_or.mp
  exact ⟨owner, owned, Option.isSome_iff_ne_none.mpr connected, not_not.mp sameGeneration,
    not_not.mp ownerGeneration,
    Option.not_isSome_iff_eq_none.mp (rejectIf_eq_ok_iff.mp unpublished),
    Nat.not_le.mp (rejectIf_eq_ok_iff.mp room), rfl, rfl⟩

/-! ### Steps -/

/-- Sessions are new when they get an owner, so a connection that is still handled
is the one its session has. -/
structure Bound (n : Node) : Prop where
  owned : Owned n.manager
  control : ∀ conn, n.manager.controlConn = some conn → conn < n.nextControl
  named : ∀ sessionID owner, n.manager.sessionOwners.find sessionID = some owner →
    owner.session.id = sessionID ∧ owner.session.identity < n.nextSession
  registering : ∀ registration, n.registering = some registration →
    n.manager.sessionOwners.find registration.sessionID = none
  fresh : ∀ registration session, n.registering = some registration →
    registration.stage = .registered session ∨ registration.stage = .recorded session →
    session.id = registration.sessionID ∧ session.identity < n.nextSession ∧
      (∀ sessionID owner, n.manager.sessionOwners.find sessionID = some owner →
        owner.session ≠ session) ∧
      ∀ conn ∈ n.publishing ++ n.handlers, conn.session ≠ session
  active : ∀ conn ∈ n.publishing ++ n.handlers,
    conn.sessionID = conn.session.id ∧ conn.session.identity < n.nextSession ∧
      conn.identity < n.nextConnection ∧
      ∀ owner, n.manager.sessionOwners.find conn.sessionID = some owner →
        owner.session = conn.session → n.manager.sessionConns.find conn.sessionID = some conn
  distinct : (n.publishing ++ n.handlers).Nodup
  causes : ∀ cleanup ∈ n.cleanups, ∀ conn, cleanup.cause = some conn →
    conn ∈ n.handlers ∧ conn.session = cleanup.session

namespace Bound

variable {n : Node}

theorem start : Bound Node.start where
  owned := Owned.of_empty (fun _ => rfl) (Nat.zero_le _)
  control _ held := by cases held
  named _ _ found := by cases found
  registering _ found := by cases found
  fresh _ _ found := by cases found
  active _ member := absurd member not_mem_nil
  distinct := nodup_nil
  causes _ member := absurd member not_mem_nil

variable (known : Bound n)

include known

theorem shrink {next : ConnectionManager} {nextControl : Nat} (shrinks : Shrinks n.manager next)
    (owned : Owned next) (control : ∀ conn, next.controlConn = some conn → conn < nextControl) :
    Bound { n with manager := next, nextControl := nextControl } where
  owned := owned
  control := control
  named sessionID owner found := known.named sessionID owner (shrinks.owners found)
  registering registration found :=
    Option.eq_none_iff_forall_ne_some.mpr fun owner later => by
      cases (known.registering registration found).symm.trans (shrinks.owners later)
  fresh registration session found stage := by
    obtain ⟨id, bounded, unowned, unused⟩ := known.fresh registration session found stage
    exact ⟨id, bounded, fun other owner owns => unowned other owner (shrinks.owners owns), unused⟩
  active conn member := by
    obtain ⟨id, bounded, identity, held⟩ := known.active conn member
    refine ⟨id, bounded, identity, fun owner owns same => ?_⟩
    rcases shrinks.each conn.sessionID with ⟨kept, _⟩ | ⟨_, gone⟩
    · exact kept.trans (held owner (shrinks.owners owns) same)
    · cases gone.symm.trans owns
  distinct := known.distinct
  causes := known.causes

theorem elsewhere {sessionManager : SessionManager} {cleanedUp : List Session}
    {cleanups : List Cleanup} (causes : ∀ cleanup ∈ cleanups, ∀ conn, cleanup.cause = some conn →
      conn ∈ n.handlers ∧ conn.session = cleanup.session) :
    Bound { n with
      sessionManager := sessionManager
      cleanedUp := cleanedUp
      cleanups := cleanups } :=
  { known with causes := causes }

variable {next : Node} {generation : Nat} {conn : SessionConnection}

theorem activate (taken : n.activate = some next) : Bound next := by
  unfold Node.activate at taken
  split at taken <;> cases taken
  have purged : Shrinks n.manager (n.manager.activateControlConnection n.nextControl) ∧
      Owned (n.manager.activateControlConnection n.nextControl) := by
    unfold activateControlConnection
    cases control : n.manager.controlConn with
    | none =>
      have none := known.owned.none_without_control control
      exact ⟨{ Shrinks.refl n.manager with }, Owned.of_empty none known.owned.bounded⟩
    | some conn =>
      have fresh : some conn ≠ some n.nextControl := by
        intro same
        have older := known.control conn control
        rw [Option.some.inj same] at older
        exact Nat.lt_irrefl _ older
      rw [if_pos ⟨rfl, fresh⟩]
      have shrinks := known.owned.purge_shrinks n.manager.controlGeneration
      exact ⟨{ shrinks with }, Owned.of_empty known.owned.purge_current
        (Nat.le_trans shrinks.size known.owned.bounded)⟩
  refine known.shrink purged.1 purged.2 ?_
  intro conn held
  cases held
  exact Nat.lt_succ_self _

theorem tearDown {conn : Nat} (taken : n.tearDown conn generation = some next) : Bound next := by
  unfold Node.tearDown at taken
  split at taken <;> cases taken
  unfold tearDownControlConnection
  split
  · next current =>
    have same : n.manager.controlGeneration = generation := (of_decide_eq_true current).2
    have shrinks := known.owned.purge_shrinks generation
    have empty := known.owned.purge_current
    rw [same] at empty
    refine known.shrink { shrinks with }
      (Owned.of_empty empty (Nat.le_trans shrinks.size known.owned.bounded)) ?_
    intro conn held
    cases held
  · exact known

theorem completeAttestation (conn generation : Nat) :
    Bound { n with manager := n.manager.completeControlAttestation conn generation } := by
  unfold completeControlAttestation
  split
  · exact known.shrink { Shrinks.refl n.manager with } { known.owned with } known.control
  · exact known

theorem shrinkSame {next : ConnectionManager} (shrinks : Shrinks n.manager next)
    (control : next.controlConn = n.manager.controlConn)
    (generation : next.controlGeneration = n.manager.controlGeneration) :
    Bound { n with manager := next } :=
  known.shrink shrinks (shrinks.owned known.owned control generation) fun conn held =>
    known.control conn (control ▸ held)

theorem closeOwned (conn generation : Nat) (sessionID : String) :
    Bound { n with manager := n.manager.closeOwnedSession conn generation sessionID } := by
  have control : (n.manager.closeOwnedSession conn generation sessionID).controlConn =
        n.manager.controlConn ∧
      (n.manager.closeOwnedSession conn generation sessionID).controlGeneration =
        n.manager.controlGeneration := by
    unfold closeOwnedSession
    repeat' split
    all_goals exact ⟨rfl, rfl⟩
  exact known.shrinkSame (known.owned.closeOwnedSession_shrinks conn generation sessionID)
    control.1 control.2

theorem continueCleanup {cleanup : Cleanup}
    (taken : n.continueCleanup cleanup = some next) : Bound next := by
  unfold Node.continueCleanup at taken
  split at taken
  · next member =>
    have advanced : ∀ stage, ∀ later ∈ { cleanup with stage := stage } :: n.cleanups.erase cleanup,
        ∀ conn, later.cause = some conn → conn ∈ n.handlers ∧ conn.session = later.session := by
      intro stage later inside conn cause
      rcases mem_cons.mp inside with same | other
      · rw [same] at cause ⊢
        exact known.causes cleanup member conn cause
      · exact known.causes later (mem_of_mem_erase other) conn cause
    split at taken
    · split at taken <;> cases taken <;> exact known.elsewhere (advanced _)
    · cases taken
      exact (known.shrinkSame (known.owned.closeSessionConnection_shrinks _ cleanup.session)
        rfl rfl).elsewhere (advanced _)
    · cases taken
      exact known.elsewhere (advanced _)
    · cases taken
      exact known.elsewhere fun later inside =>
        known.causes later (mem_of_mem_erase inside)
  · cases taken

theorem startCleanup {session : Session} {cause : Option SessionConnection}
    (taken : n.startCleanup session cause = some next) : Bound next := by
  unfold Node.startCleanup at taken
  split at taken <;> cases taken
  rename_i allowed
  refine known.elsewhere fun cleanup member conn caused => ?_
  rcases mem_cons.mp member with same | other
  · rw [same] at caused ⊢
    dsimp only at caused
    rw [caused] at allowed
    simpa using (not_or.mp allowed).2
  · exact known.causes cleanup other conn caused

theorem leave {publishing handlers : List SessionConnection}
    (kept : ∀ other ∈ publishing ++ handlers, other ∈ n.publishing ++ n.handlers ∧ other ≠ conn)
    (distinct : (publishing ++ handlers).Nodup)
    (causes : ∀ cleanup ∈ n.cleanups, ∀ cause, cleanup.cause = some cause →
      cause ∈ handlers ∧ cause.session = cleanup.session) :
    Bound { n with
      manager := n.manager.removeSessionConnection conn
      publishing := publishing
      handlers := handlers } := by
  obtain ⟨conns, same, removed, others, size⟩ := removeSessionConnection_eq n.manager conn
  rw [same]
  exact
    { known with
      owned :=
        { owner := fun sessionID found published =>
            known.owned.owner sessionID found (removed sessionID found published)
          bounded := Nat.le_trans size known.owned.bounded }
      fresh := by
        intro registration session found stage
        obtain ⟨id, bounded, unowned, unused⟩ := known.fresh registration session found stage
        exact ⟨id, bounded, unowned, fun other member => unused other (kept other member).1⟩
      active := by
        intro other member
        obtain ⟨before, different⟩ := kept other member
        obtain ⟨id, bounded, identity, held⟩ := known.active other before
        exact ⟨id, bounded, identity, fun owner owns same =>
          others _ other (held owner owns same) different⟩
      distinct := distinct
      causes := causes }

theorem confirm (taken : n.confirm conn = some next) : Bound next := by
  unfold Node.confirm at taken
  split at taken
  · next member =>
    have distinct := nodup_append.mp known.distinct
    split at taken
    · cases taken
      have perm : (n.publishing.erase conn ++ conn :: n.handlers).Perm
          (n.publishing ++ n.handlers) := by
        refine perm_middle.trans ?_
        exact (perm_cons_erase member).symm.append_right _
      exact
        { known with
          fresh := by
            intro registration session found stage
            obtain ⟨id, bounded, unowned, unused⟩ := known.fresh registration session found stage
            exact ⟨id, bounded, unowned, fun other inside => unused other (perm.mem_iff.mp inside)⟩
          active := fun other inside => known.active other (perm.mem_iff.mp inside)
          distinct := perm.nodup_iff.mpr known.distinct
          causes := fun cleanup inside cause caused =>
            (known.causes cleanup inside cause caused).imp_left (mem_cons_of_mem conn) }
    · cases taken
      refine known.leave ?_ ?_ known.causes
      · intro other inside
        rcases mem_append.mp inside with early | late
        · exact ⟨mem_append_left _ (mem_of_mem_erase early),
            fun same => distinct.1.not_mem_erase (same ▸ early)⟩
        · exact ⟨mem_append_right _ late, fun same => distinct.2.2 conn member other late same.symm⟩
      · exact known.distinct.sublist (erase_sublist.append_right _)
  · cases taken

theorem finishHandler (taken : n.finishHandler conn = some next) : Bound next := by
  unfold Node.finishHandler at taken
  split at taken <;> cases taken
  rename_i allowed
  have distinct := nodup_append.mp known.distinct
  refine known.leave ?_ ?_ ?_
  · intro other inside
    rcases mem_append.mp inside with early | late
    · exact ⟨mem_append_left _ early, fun same => distinct.2.2 other early conn allowed.1 same⟩
    · exact ⟨mem_append_right _ (mem_of_mem_erase late),
        fun same => distinct.2.1.not_mem_erase (same ▸ late)⟩
  · exact known.distinct.sublist (erase_sublist.append_left _)
  · intro cleanup inside cause caused
    obtain ⟨handled, session⟩ := known.causes cleanup inside cause caused
    refine ⟨(mem_erase_of_ne ?_).mpr handled, session⟩
    intro same
    rw [same] at caused
    exact allowed.2 cleanup inside caused

theorem startRegistration {conn : Nat} {sessionID : String}
    (taken : n.startRegistration conn generation sessionID = some next) : Bound next := by
  unfold Node.startRegistration at taken
  split at taken
  · cases taken
  split at taken
  · cases taken
    exact known
  · next allowed =>
    cases taken
    have absent := Option.not_isSome_iff_eq_none.mp (not_or.mp allowed).2
    exact
      { known with
        registering := by
          intro registration started
          cases started
          exact absent
        fresh := by
          intro registration session started stage
          cases started
          rcases stage with wrong | wrong <;> cases wrong }

theorem continueRegistration (taken : n.continueRegistration = some next) : Bound next := by
  unfold Node.continueRegistration at taken
  split at taken
  · cases taken
  rename_i registration started
  have absent := known.registering registration started
  split at taken
  · dsimp only at taken
    split at taken
    · cases taken
      exact
        { known with
          registering := nofun
          fresh := nofun }
    · cases taken
      exact
        { known with
          named := fun sessionID owner found =>
            (known.named sessionID owner found).imp_right (Nat.lt_succ_of_lt ·)
          registering := by
            intro later same
            cases same
            exact absent
          fresh := by
            intro later session same stage
            cases same
            have created : session = ⟨n.nextSession, registration.sessionID⟩ := by
              rcases stage with here | wrong
              · cases here
                rfl
              · cases wrong
            rw [created]
            refine ⟨rfl, Nat.lt_succ_self _, ?_, ?_⟩
            · intro sessionID owner found same
              have older := (known.named sessionID owner found).2
              rw [same] at older
              exact Nat.lt_irrefl _ older
            · intro conn member same
              have older := (known.active conn member).2.1
              rw [same] at older
              exact Nat.lt_irrefl _ older
          active := by
            intro conn member
            obtain ⟨id, bounded, rest⟩ := known.active conn member
            exact ⟨id, Nat.lt_succ_of_lt bounded, rest⟩ }
  · next session stage =>
    cases taken
    exact
      { known with
        registering := by
          intro later same
          cases same
          exact absent
        fresh := by
          intro later found same inside
          cases same
          rcases inside with wrong | here
          · cases wrong
          · cases here
            exact known.fresh registration session started (.inl stage) }
  · next session stage =>
    cases taken
    obtain ⟨id, bounded, _, unused⟩ := known.fresh registration session started (.inr stage)
    have unpublished : n.manager.sessionConns.find registration.sessionID = none :=
      Option.eq_none_iff_forall_ne_some.mpr fun conn published => by
        cases absent.symm.trans (known.owned.owner _ conn published).2.2.2
    exact
      { known with
        owned :=
          { owner := by
              intro sessionID conn published
              have other : sessionID ≠ registration.sessionID := by
                rintro rfl
                cases unpublished.symm.trans published
              rw [find_put_other _ _ other]
              exact known.owned.owner sessionID conn published
            bounded := known.owned.bounded }
        named := by
          intro sessionID owner found
          rcases find_put_cases found with ⟨same, rfl⟩ | ⟨_, found⟩
          · exact ⟨id.trans same.symm, bounded⟩
          · exact known.named sessionID owner found
        registering := nofun
        fresh := nofun
        active := by
          intro conn member
          obtain ⟨id, bounded, identity, held⟩ := known.active conn member
          refine ⟨id, bounded, identity, fun owner owns same => ?_⟩
          rcases find_put_cases owns with ⟨here, rfl⟩ | ⟨_, owns⟩
          · exact absurd same.symm (unused conn member)
          · exact held owner owns same }

theorem publish {sessionID : String}
    (taken : n.publish sessionID generation = some next) : Bound next := by
  unfold Node.publish at taken
  split at taken
  · cases taken
    exact known
  · next manager conn published =>
    cases taken
    obtain ⟨owner, owned, connected, current, ownerCurrent, unpublished, room, shape, stored⟩ :=
      publishSessionConnection_ok published
    obtain ⟨id, bounded⟩ := known.named sessionID owner owned
    subst shape
    subst stored
    have occupied : ∀ other ∈ n.publishing ++ n.handlers, other.sessionID = sessionID →
        other.session ≠ owner.session := by
      intro other member same session
      have held := (known.active other member).2.2.2 owner (same ▸ owned) session.symm
      rw [same, unpublished] at held
      cases held
    exact
      { known with
        owned :=
          { owner := by
              intro asked found stored
              rcases find_put_cases stored with ⟨rfl, rfl⟩ | ⟨_, stored⟩
              · refine ⟨connected, rfl, current.symm, ?_⟩
                rw [owned, current, ← ownerCurrent]
              · exact known.owned.owner asked found stored
            bounded := Nat.le_trans (size_put_le _ _ _) room }
        fresh := by
          intro registration session started stage
          obtain ⟨sessionId, sessionBounded, unowned, unused⟩ :=
            known.fresh registration session started stage
          refine ⟨sessionId, sessionBounded, unowned, ?_⟩
          intro other member
          rcases mem_cons.mp member with new | earlier
          · rw [new]
            exact unowned sessionID owner owned
          · exact unused other earlier
        active := by
          intro other member
          rcases mem_cons.mp member with new | earlier
          · rw [new]
            exact ⟨id.symm, bounded, Nat.lt_succ_self _, fun _ _ _ => find_put_self _ _ _⟩
          · obtain ⟨otherId, otherBounded, identity, held⟩ := known.active other earlier
            refine ⟨otherId, otherBounded, Nat.lt_succ_of_lt identity, fun found owns same => ?_⟩
            by_cases here : other.sessionID = sessionID
            · rw [here, owned] at owns
              cases owns
              exact absurd same.symm (occupied other earlier here)
            · rw [find_put_other _ _ here]
              exact held found owns same
        distinct := by
          refine nodup_cons.mpr ⟨?_, known.distinct⟩
          intro member
          exact Nat.lt_irrefl _ (known.active _ member).2.2.1 }

theorem step {action : Action} (taken : n.step action = some next) : Bound next := by
  cases action with
  | activate => exact known.activate taken
  | completeAttestation conn generation =>
    cases taken
    exact known.completeAttestation conn generation
  | tearDown conn generation => exact known.tearDown taken
  | startRegistration conn generation sessionID => exact known.startRegistration taken
  | continueRegistration => exact known.continueRegistration taken
  | closeOwned conn generation sessionID =>
    cases taken
    exact known.closeOwned conn generation sessionID
  | publish sessionID expectedGeneration => exact known.publish taken
  | confirm conn => exact known.confirm taken
  | startCleanup session cause => exact known.startCleanup taken
  | continueCleanup cleanup => exact known.continueCleanup taken
  | finishHandler conn => exact known.finishHandler taken
  | expire sessionID =>
    cases taken
    exact known.elsewhere known.causes

end Bound

theorem Bound.reach {n : Node} (reached : machine.Reach Machine.Any n) : Bound n :=
  reached.invariant Bound.start fun _ _ _ known _ taken => known.step taken

/-! ### Closes -/

/-- The step closes this connection: its own handler or publication, a cleanup of its
session that no other connection runs, its generation, or a newer control connection. -/
def Closes (conn : SessionConnection) : Action → Prop
  | .activate => True
  | .tearDown _ generation => generation = conn.controlGeneration
  | .closeOwned _ generation sessionID =>
    generation = conn.controlGeneration ∧ sessionID = conn.sessionID
  | .confirm other => other = conn
  | .finishHandler other => other = conn
  | .continueCleanup cleanup =>
    cleanup.session = conn.session ∧ cleanup.stage = .closeConnection conn.controlGeneration ∧
      ∀ cause, cleanup.cause = some cause → cause = conn
  | _ => False

theorem removeSessionConnection_removes {m : ConnectionManager} {expected conn : SessionConnection}
    {sessionID : String} (published : m.sessionConns.find sessionID = some conn)
    (removed : (m.removeSessionConnection expected).sessionConns.find sessionID ≠ some conn) :
    expected = conn := by
  obtain ⟨conns, same, _, others, _⟩ := removeSessionConnection_eq m expected
  rw [same] at removed
  by_contra different
  exact removed (others sessionID conn published (Ne.symm different))

namespace Bound

variable {n : Node} {sessionID : String} {conn : SessionConnection} (known : Bound n)

include known

section Closes

variable (published : n.manager.sessionConns.find sessionID = some conn)
include published

theorem tearDown_closes {next : Node} {control generation : Nat}
    (taken : n.tearDown control generation = some next)
    (removed : next.manager.sessionConns.find sessionID ≠ some conn) :
    generation = conn.controlGeneration := by
  unfold Node.tearDown at taken
  split at taken <;> cases taken
  unfold tearDownControlConnection at removed
  split at removed
  · next current =>
    rw [(known.owned.owner sessionID conn published).2.2.1]
    exact (of_decide_eq_true current).2.symm
  · exact absurd published removed

theorem closeOwned_closes {control generation : Nat} {closed : String}
    (removed : (n.manager.closeOwnedSession control generation closed).sessionConns.find sessionID ≠
      some conn) : generation = conn.controlGeneration ∧ closed = conn.sessionID := by
  obtain ⟨_, named, current, _⟩ := known.owned.owner sessionID conn published
  unfold closeOwnedSession at removed
  split at removed
  · next live =>
    split at removed
    · exact absurd published removed
    split at removed
    · exact absurd published removed
    split at removed
    · exact absurd published removed
    split at removed
    · by_cases same : sessionID = closed
      · rw [current, named, same]
        exact ⟨(of_decide_eq_true live).2.symm, rfl⟩
      · exact absurd (find_remove_eq_some_iff.mpr ⟨published, same⟩) removed
    · exact absurd published removed
  · exact absurd published removed

/-- A cleanup removes the connection of its session; if a handler runs it, that is
the connection of the handler. -/
theorem continueCleanup_closes {next : Node} {cleanup : Cleanup}
    (taken : n.continueCleanup cleanup = some next)
    (removed : next.manager.sessionConns.find sessionID ≠ some conn) :
    cleanup.session = conn.session ∧ cleanup.stage = .closeConnection conn.controlGeneration ∧
      ∀ cause, cleanup.cause = some cause → cause = conn := by
  obtain ⟨_, named, current, owner⟩ := known.owned.owner sessionID conn published
  unfold Node.continueCleanup at taken
  split at taken
  · next member =>
    split at taken
    · split at taken <;> cases taken <;> exact absurd published removed
    · next generation stage =>
      cases taken
      dsimp only [Node.advance, closeSessionConnection] at removed
      split at removed
      · exact absurd published removed
      rename_i found present
      split at removed
      · next closed =>
        by_cases same : sessionID = cleanup.session.id
        · rw [same] at published owner named
          rw [present] at published
          cases published
          refine ⟨closed.2.symm, by rw [stage, closed.1], fun cause caused => ?_⟩
          obtain ⟨handled, session⟩ := known.causes cleanup member cause caused
          obtain ⟨causeNamed, _, _, held⟩ :=
            known.active cause (mem_append_right _ handled)
          rw [session] at causeNamed
          rw [causeNamed] at held
          have own := held _ owner (closed.2.trans session.symm)
          rw [present] at own
          exact (Option.some.inj own).symm
        · exact absurd (find_remove_eq_some_iff.mpr ⟨published, same⟩) removed
      · exact absurd published removed
    · cases taken
      exact absurd published removed
    · cases taken
      exact absurd published removed
  · cases taken

theorem closes {next : Node} {action : Action} (taken : n.step action = some next)
    (removed : next.manager.sessionConns.find sessionID ≠ some conn) : Closes conn action := by
  cases action with
  | activate => trivial
  | completeAttestation control generation =>
    cases taken
    dsimp only [completeControlAttestation] at removed
    split at removed <;> exact removed published
  | tearDown control generation => exact known.tearDown_closes published taken removed
  | startRegistration control generation started =>
    dsimp only [Node.step, Node.startRegistration] at taken
    split at taken
    · cases taken
    split at taken <;> cases taken <;> exact removed published
  | continueRegistration =>
    dsimp only [Node.step, Node.continueRegistration] at taken
    split at taken
    · cases taken
    split at taken
    · split at taken <;> cases taken <;> exact removed published
    all_goals
      cases taken
      exact removed published
  | closeOwned control generation closed =>
    cases taken
    exact known.closeOwned_closes published removed
  | publish asked generation =>
    dsimp only [Node.step, Node.publish] at taken
    split at taken
    · cases taken
      exact absurd published removed
    · next manager new accepted =>
      cases taken
      obtain ⟨_, _, _, _, _, unpublished, _, _, stored⟩ := publishSessionConnection_ok accepted
      subst stored
      have other : sessionID ≠ asked := by
        intro same
        rw [same, unpublished] at published
        cases published
      refine absurd ?_ removed
      rw [find_put_other _ _ other]
      exact published
  | confirm other =>
    dsimp only [Node.step, Node.confirm] at taken
    split at taken
    · split at taken
      · cases taken
        exact absurd published removed
      · cases taken
        exact removeSessionConnection_removes published removed
    · cases taken
  | startCleanup session cause =>
    dsimp only [Node.step, Node.startCleanup] at taken
    split at taken <;> cases taken
    exact removed published
  | continueCleanup cleanup => exact known.continueCleanup_closes published taken removed
  | finishHandler other =>
    dsimp only [Node.step, Node.finishHandler] at taken
    split at taken <;> cases taken
    exact removeSessionConnection_removes published removed
  | expire expired =>
    cases taken
    exact absurd published removed

end Closes

end Bound

/-- In every reachable state each published connection has its owner in the current
generation, at most a hundred are published, and none is removed by a close that is
not its own. -/
theorem session_connections_owned {n : Node} (reached : machine.Reach Machine.Any n) :
    Owned n.manager ∧
      ∀ action next sessionID conn, n.step action = some next →
        n.manager.sessionConns.find sessionID = some conn →
        next.manager.sessionConns.find sessionID ≠ some conn → Closes conn action := by
  have known := Bound.reach reached
  exact ⟨known.owned, fun _ _ _ _ taken published removed => known.closes published taken removed⟩

/-- A session is announced, attached, and then lost with its control connection; the
same id is announced and attached again on the next one. -/
def sampleRun : List Action :=
  [.activate, .completeAttestation 0 1, .startRegistration 0 1 "a", .continueRegistration,
    .continueRegistration, .continueRegistration, .publish "a" 1,
    .confirm ⟨0, "a", 1, ⟨0, "a"⟩⟩, .activate, .startCleanup ⟨0, "a"⟩ none,
    .continueCleanup ⟨⟨0, "a"⟩, none, .lookUp⟩,
    .continueCleanup ⟨⟨0, "a"⟩, none, .closeConnection 1⟩,
    .continueCleanup ⟨⟨0, "a"⟩, none, .removeState⟩,
    .continueCleanup ⟨⟨0, "a"⟩, none, .closeSession⟩, .completeAttestation 1 2,
    .startRegistration 1 2 "a", .continueRegistration, .continueRegistration,
    .continueRegistration, .publish "a" 2, .finishHandler ⟨0, "a", 1, ⟨0, "a"⟩⟩]

theorem session_connections_owned_sample :
    ∃ n, machine.run machine.start sampleRun = some n ∧
      n.manager.sessionConns.find "a" = some ⟨1, "a", 2, ⟨1, "a"⟩⟩ ∧ Owned n.manager := by
  have published : (machine.run machine.start sampleRun).map
      (fun n => n.manager.sessionConns.find "a") = some (some ⟨1, "a", 2, ⟨1, "a"⟩⟩) := by
    decide +kernel
  cases ran : machine.run machine.start sampleRun with
  | none =>
    rw [ran] at published
    cases published
  | some n =>
    rw [ran] at published
    have reached : machine.Reach Machine.Any n :=
      Machine.Reach.start.run (fun _ _ _ => trivial) ran
    exact ⟨n, rfl, Option.some.inj published, (session_connections_owned reached).1⟩

end ReclaimTee.TeeT
