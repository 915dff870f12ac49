/-
The rules of a response. What the selectors find is a list of matches, and the
reveals of the rules cover the matches, nothing else but framing, and hold one
range for each hashed group.
-/

import ReclaimTee.Providers.ResponseReveals

namespace ReclaimTee.Providers

open List

/-! ### Matches of the rules -/

def windowTurn (selectors : Selectors) (text : List Byte) (rule : ResponseRedaction)
    (range : IndexRange) : Except String (List Match) := do
  let found ← windowMatch selectors text rule range
  return [found]

def ruleMatches (selectors : Selectors) (text : List Byte) (rule : ResponseRedaction) :
    Except String (List Match) :=
  forElements selectors text rule (windowTurn selectors text rule)

def selectedMatches (selectors : Selectors) (text : List Byte) (rules : List ResponseRedaction) :
    Except String (List Match) := do
  let found ← rules.mapM (ruleMatches selectors text)
  return found.flatten

def hashedGroups (matches_ : List Match) : List (IndexRange × List Byte) :=
  matches_.flatMap fun found => found.group.toList

/-- A list made of the results of a step on every found item. -/
def MadeOf {α β : Type} (use : α → Except String (List β)) (results : List β) (found : List α) :
    Prop :=
  ∃ lists, found.mapM use = .ok lists ∧ results = lists.flatten

theorem MadeOf.append {α β : Type} {use : α → Except String (List β)} {first second : List β}
    {found others : List α} (made : MadeOf use first found) (madeToo : MadeOf use second others) :
    MadeOf use (first ++ second) (found ++ others) := by
  obtain ⟨lists, run, rfl⟩ := made
  obtain ⟨more, runToo, rfl⟩ := madeToo
  refine ⟨lists ++ more, ?_, flatten_append.symm⟩
  rw [mapM_append, run, runToo]
  rfl

theorem mapM_madeOf {ι α β : Type} {use : α → Except String (List β)}
    {turn : ι → Except String (List β)} {find : ι → Except String (List α)} {items : List ι}
    {results : List (List β)} (turns : ∀ item results, turn item = .ok results →
      ∃ found, find item = .ok found ∧ MadeOf use results found)
    (run : items.mapM turn = .ok results) :
    ∃ found, items.mapM find = .ok found ∧ MadeOf use results.flatten found.flatten := by
  induction items generalizing results with
  | nil =>
    rw [mapM_nil] at run
    cases run
    exact ⟨[], mapM_nil, [], mapM_nil, rfl⟩
  | cons item rest ih =>
    rw [mapM_cons, bind_eq_ok_iff] at run
    obtain ⟨first, turned, run⟩ := run
    rw [bind_eq_ok_iff] at run
    obtain ⟨others, run, same⟩ := run
    cases same
    obtain ⟨found, search, made⟩ := turns item first turned
    obtain ⟨more, searches, madeToo⟩ := ih run
    refine ⟨found :: more, ?_, ?_⟩
    · rw [mapM_cons, search, searches]
      rfl
    · rw [flatten_cons]
      exact made.append madeToo

section

variable {α : Type} {use : Match → Except String (List α)} {selectors : Selectors}
  {text : List Byte} {rule : ResponseRedaction} {results : List α}

theorem windowTurn_madeOf (range : IndexRange)
    (turned : (windowMatch selectors text rule range >>= use) = .ok results) :
    ∃ found, windowTurn selectors text rule range = .ok found ∧ MadeOf use results found := by
  rw [bind_eq_ok_iff] at turned
  obtain ⟨found, search, used⟩ := turned
  refine ⟨[found], by unfold windowTurn; rw [search]; rfl, [results], ?_, flatten_singleton.symm⟩
  rw [mapM_cons, used]
  rfl

theorem forElement_madeOf {loc : IndexRange} (run : forElement selectors text rule
      (fun range => windowMatch selectors text rule range >>= use) loc = .ok results) :
    ∃ found, forElement selectors text rule (windowTurn selectors text rule) loc = .ok found ∧
      MadeOf use results found := by
  unfold forElement at run ⊢
  split at run
  · next json =>
    rw [if_pos json]
    simp only [eq_ok_iff] at run
    obtain ⟨jlocs, values, lists, run, rfl⟩ := run
    obtain ⟨found, searches, made⟩ := mapM_madeOf
      (fun jsonLoc _ => windowTurn_madeOf (jsonLoc.shift loc.start)) run
    exact ⟨found.flatten, by rw [values, ok_bind, searches]; rfl, made⟩
  · next json =>
    rw [if_neg json]
    exact windowTurn_madeOf _ run

theorem forElements_madeOf (run : forElements selectors text rule
      (fun range => windowMatch selectors text rule range >>= use) = .ok results) :
    ∃ found, ruleMatches selectors text rule = .ok found ∧ MadeOf use results found := by
  unfold ruleMatches
  unfold forElements at run ⊢
  split at run
  · next html =>
    rw [if_pos html]
    simp only [eq_ok_iff] at run
    obtain ⟨locs, extracted, lists, run, rfl⟩ := run
    obtain ⟨found, searches, made⟩ := mapM_madeOf (fun _ _ => forElement_madeOf) run
    exact ⟨found.flatten, by rw [extracted, ok_bind]; exact searches ▸ rfl, made⟩
  · next html =>
    rw [if_neg html]
    split at run
    · next json =>
      rw [if_pos json]
      simp only [eq_ok_iff] at run
      obtain ⟨locs, extracted, lists, run, rfl⟩ := run
      obtain ⟨found, searches, made⟩ := mapM_madeOf (fun range _ => windowTurn_madeOf range) run
      exact ⟨found.flatten, by rw [extracted, ok_bind]; exact searches ▸ rfl, made⟩
    · next json =>
      rw [if_neg json]
      split at run
      · next regex =>
        rw [if_pos regex]
        exact windowTurn_madeOf _ run
      · cases run

end

/-! ### Hashes of the rules -/

variable {selectors : Selectors} {text : List Byte} {rule : ResponseRedaction} {found : List Match}

section Turns

variable {α : Type} {turn : IndexRange → Except String (List α)} {property : α → Prop}
  (turns : ∀ range results, turn range = .ok results → ∀ result ∈ results, property result)
  {results : List α}
include turns

omit turns in
theorem forall_flatten_mapM {ι : Type} {step : ι → Except String (List α)} {items : List ι}
    {lists : List (List α)} (steps : ∀ item results, step item = .ok results →
      ∀ result ∈ results, property result) (run : items.mapM step = .ok lists) :
    ∀ result ∈ lists.flatten, property result := by
  intro result member
  obtain ⟨list, inLists, inList⟩ := mem_flatten.mp member
  obtain ⟨item, _, stepped⟩ := mapM_mem run inLists
  exact steps item list stepped result inList

theorem forElement_forall {loc : IndexRange}
    (run : forElement selectors text rule turn loc = .ok results) :
    ∀ result ∈ results, property result := by
  unfold forElement at run
  split at run
  · simp only [eq_ok_iff] at run
    obtain ⟨_, _, lists, run, rfl⟩ := run
    exact forall_flatten_mapM (fun _ => turns _) run
  · exact turns _ results run

theorem forElements_forall (run : forElements selectors text rule turn = .ok results) :
    ∀ result ∈ results, property result := by
  unfold forElements at run
  split at run
  · simp only [eq_ok_iff] at run
    obtain ⟨_, _, lists, run, rfl⟩ := run
    exact forall_flatten_mapM (fun _ _ => forElement_forall turns) run
  split at run
  · simp only [eq_ok_iff] at run
    obtain ⟨_, _, lists, run, rfl⟩ := run
    exact forall_flatten_mapM turns run
  split at run
  · exact turns _ results run
  · cases run

end Turns

theorem windowMatch_hash
    {range : IndexRange} {found : Match} (matched : windowMatch selectors text rule range = .ok found) :
    ∀ group ∈ found.group, rule.hash = some group.2 := by
  unfold windowMatch at matched
  split at matched
  · cases matched
    intro group member
    cases member
  · rw [bind_eq_ok_iff] at matched
    obtain ⟨regex, _, matched⟩ := matched
    split at matched
    · cases matched
    split at matched
    · cases matched
      intro group member
      cases member
    · next hash hashed =>
      split at matched <;> cases matched
      intro group member
      cases member
      exact hashed

theorem ruleMatches_hash (searched : ruleMatches selectors text rule = .ok found) :
    ∀ one ∈ found, ∀ group ∈ one.group, rule.hash = some group.2 := by
  refine forElements_forall (fun range results turned => ?_) searched
  unfold windowTurn at turned
  simp only [eq_ok_iff] at turned
  obtain ⟨one, matched, rfl⟩ := turned
  exact forall_mem_singleton.mpr (windowMatch_hash matched)

theorem selectedMatches_hash {rules : List ResponseRedaction}
    (selected : selectedMatches selectors text rules = .ok found) :
    ∀ group ∈ hashedGroups found, ∃ rule ∈ rules, rule.hash = some group.2 := by
  unfold selectedMatches at selected
  simp only [eq_ok_iff] at selected
  obtain ⟨lists, searched, rfl⟩ := selected
  intro group member
  obtain ⟨one, inFound, isGroup⟩ := mem_flatMap.mp member
  obtain ⟨list, inLists, inList⟩ := mem_flatten.mp inFound
  obtain ⟨rule, isRule, ruleSearched⟩ := mapM_mem searched inLists
  exact ⟨rule, isRule, ruleMatches_hash ruleSearched one inList group (Option.mem_toList.mp isGroup)⟩

/-- Substituted rules have no empty hash: the copy of the parameters leaves it out. -/
theorem substituteParamValues_hash {params : HTTPProviderParams} {secretValues : Values}
    {ignoreMissing : Bool} {substituted : SubstituteResult}
    (accepted : substituteParamValues params secretValues ignoreMissing = .ok substituted) :
    ∀ rule ∈ substituted.responseRedactions, rule.hash ≠ some [] := by
  unfold substituteParamValues at accepted
  simp only [eq_ok_iff] at accepted
  obtain ⟨copied, copies, _, _, _, _, _, _, _, _, rules, mapped, _, _, rfl⟩ := accepted
  intro rule member
  obtain ⟨origin, isOrigin, turned⟩ := mapM_mem mapped member
  simp only [eq_ok_iff] at turned
  obtain ⟨_, _, _, _, _, _, rfl⟩ := turned
  unfold HTTPProviderParams.copy at copies
  simp only [eq_ok_iff] at copies
  obtain ⟨_, _, rfl⟩ := copies
  obtain ⟨first, _, rfl⟩ := mem_map.mp isOrigin
  split
  · intro same
    cases same
  · next present => exact present

/-! ### Reveals of the rules -/

abbrev RuleReveals (data : List Byte) (response : HTTPParsedResponse) (body : DecodedResponseBody)
    (found : List Match) (items : List RedactionItem) : Prop :=
  Reveals data response body (found.flatMap Match.parts) (hashedGroups found) items

/-- Matches whose parts start and end with runes, and whose groups have a hash. -/
structure WellFormed (body : DecodedResponseBody) (found : List Match) : Prop where
  bounded : ∀ one ∈ found, ∀ part ∈ one.parts, Bounded body part
  hashes : ∀ group ∈ hashedGroups found, group.2 ≠ []

section Reveals

variable {data : List Byte} {response : HTTPParsedResponse} {place : BodyPlace}
  (located : Located data response place) (framing : place.revealFraming = true)
  (wellFormed : WellFormed place.body found)
include located framing wellFormed

theorem addMatches_reveals {items : List RedactionItem} (made : MadeOf place.addMatch items found) :
    RuleReveals data response place.body found items := by
  obtain ⟨lists, run, rfl⟩ := made
  induction found generalizing lists with
  | nil =>
    rw [mapM_nil] at run
    cases run
    exact ⟨nofun, nofun, nofun, .nil⟩
  | cons first rest ih =>
    rw [mapM_cons, bind_eq_ok_iff] at run
    obtain ⟨items, added, run⟩ := run
    rw [bind_eq_ok_iff] at run
    obtain ⟨others, run, same⟩ := run
    cases same
    have here := located.addMatch_reveals framing (wellFormed.bounded first mem_cons_self)
      (fun group member => wellFormed.hashes group (mem_append_left _ member)) added
    exact here.append (ih
      ⟨fun one member => wellFormed.bounded one (mem_cons_of_mem _ member),
        fun group member => wellFormed.hashes group (mem_append_right _ member)⟩ others run)

theorem processRules_reveals {rules : List ResponseRedaction} {items : List (List RedactionItem)}
    (selected : selectedMatches selectors place.body.text rules = .ok found)
    (processed : rules.mapM (processRedactionRequest selectors place) = .ok items) :
    RuleReveals data response place.body found items.flatten := by
  obtain ⟨lists, searched, made⟩ := mapM_madeOf (fun _ _ => forElements_madeOf) processed
  unfold selectedMatches at selected
  rw [searched, ok_bind, pure_eq_ok_iff] at selected
  rw [selected] at made
  exact addMatches_reveals located framing wellFormed made

end Reveals

end ReclaimTee.Providers
