/-
The receipt of an execution as an account of the exchange. The transport stops
when relay returns an error, so every chunk before the last one was taken, and
what the digest covers is what the caller was handed.
-/

import ReclaimTee.TokenHive.Tee.Sequence

namespace ReclaimTee.TokenHive.Tee

open Hub (hashResponseHeaders forwardResponseHeaders)
open List

/-- Relay returns an error: the chunk is over the limit or the caller refuses it. -/
def RelayState.raises (limit : Nat) (state : RelayState) (chunk : Text × Bool) : Prop :=
  limit < state.written + chunk.1.length ∨ chunk.2 = false

/-- What the caller is handed of a chunk. -/
def RelayState.handedOn (limit : Nat) (state : RelayState) (chunk : Text × Bool) : List Text :=
  if limit < state.written + chunk.1.length then [] else [chunk.1]

def Exchange.handed (exchange : Exchange) (limit : Nat) : List Text :=
  (exchange.chunks.foldl (fun (state, handed) chunk =>
    (state.relay limit chunk, handed ++ state.handedOn limit chunk)) (RelayState.begin, [])).2

/-- The transport gives relay no chunk after an error. -/
def Exchange.Stops (exchange : Exchange) (limit : Nat) : Prop :=
  ∀ before chunk after, exchange.chunks = before ++ chunk :: after →
    (before.foldl (RelayState.relay limit) .begin).raises limit chunk → after = []

structure Account (config : Config) (job : Job) (limit : Nat) (exchange : Exchange)
    (receipt : Receipt) : Prop where
  digest : receipt.streamHash =
    hashResponseStream config.digests job.spec.jobID (exchange.handed limit)
  sent : exchange.handed limit <+: exchange.chunks.map Prod.fst
  within : ((exchange.handed limit).map List.length).sum ≤ limit
  bytes : receipt.responseBytes = (exchange.chunks.map fun chunk => chunk.1.length).sum
  chunks : receipt.chunkCount = exchange.chunks.length
  failed : receipt.completion = .failed ↔ exchange.failed = true ∧ exchange.started = none ∧
    ((exchange.handed limit).map List.length).sum = 0
  complete : receipt.completion = .complete ↔ exchange.failed = false ∧
    exchange.handed limit = exchange.chunks.map Prod.fst ∧ ∀ chunk ∈ exchange.chunks, chunk.2 = true
  otherwise : receipt.completion = .failed ∨ receipt.completion = .complete ∨
    receipt.completion = .truncated
  shown : ∀ response, exchange.started = some response →
    receipt.statusCode = exchange.status ∧
      receipt.responseHeadersHash = hashResponseHeaders config.digests config.lower
        (forwardResponseHeaders config.lower response.headers)

section Relay

variable {limit : Nat} {chunks : List (Text × Bool)}

theorem handed_eq (exchange : Exchange) :
    exchange.handed limit = (exchange.relayed limit).hashed := by
  have run : ∀ state : RelayState, (exchange.chunks.foldl (fun (state, handed) chunk =>
      (state.relay limit chunk, handed ++ state.handedOn limit chunk)) (state, state.hashed)).2 =
        (exchange.chunks.foldl (RelayState.relay limit) state).hashed := by
    induction exchange.chunks with
    | nil => exact fun _ => rfl
    | cons chunk rest ih =>
      intro state
      have step : state.hashed ++ state.handedOn limit chunk = (state.relay limit chunk).hashed := by
        unfold RelayState.relay RelayState.handedOn
        split_ifs <;> simp
      rw [foldl_cons]
      dsimp only
      rw [step]
      exact ih _
  exact run .begin

theorem relay_taken (taken : ∀ before chunk after, chunks = before ++ chunk :: after →
      ¬ (before.foldl (RelayState.relay limit) .begin).raises limit chunk) :
    chunks.foldl (RelayState.relay limit) .begin =
        { totalBytes := (chunks.map fun chunk => chunk.1.length).sum
          totalChunks := chunks.length
          hashed := chunks.map Prod.fst
          truncated := false } ∧
      (chunks.map fun chunk => chunk.1.length).sum ≤ limit ∧
      ∀ chunk ∈ chunks, chunk.2 = true := by
  induction chunks using List.reverseRecOn with
  | nil => exact ⟨rfl, Nat.zero_le _, nofun⟩
  | append_singleton chunks chunk ih =>
    obtain ⟨before, _, accepted⟩ := ih fun earlier other later same =>
      taken earlier other (later ++ [chunk]) (by rw [same]; simp)
    have here := taken chunks chunk [] rfl
    have written : (chunks.foldl (RelayState.relay limit) .begin).written =
        (chunks.map fun chunk => chunk.1.length).sum := by
      rw [before, RelayState.written, map_map]
      rfl
    rw [RelayState.raises, written, not_or, Nat.not_lt, Bool.not_eq_false] at here
    obtain ⟨fits, took⟩ := here
    refine ⟨?_, by simpa using fits, ?_⟩
    · rw [foldl_append, foldl_cons, RelayState.relay, written,
        if_neg (Nat.not_lt.mpr fits), if_pos took, before]
      simp
    · intro other member
      rcases mem_append.mp member with early | last
      · exact accepted other early
      · rw [mem_singleton.mp last]
        exact took

/-- The relayed state, when the transport stops at the first error. -/
theorem Exchange.Stops.relayed {exchange : Exchange} (stops : exchange.Stops limit) :
    let relayed := exchange.relayed limit
    relayed.hashed <+: exchange.chunks.map Prod.fst ∧ relayed.written ≤ limit ∧
      relayed.totalBytes = (exchange.chunks.map fun chunk => chunk.1.length).sum ∧
      relayed.totalChunks = exchange.chunks.length ∧
      (relayed.truncated = false ↔ relayed.hashed = exchange.chunks.map Prod.fst ∧
        ∀ chunk ∈ exchange.chunks, chunk.2 = true) := by
  unfold Exchange.relayed
  unfold Exchange.Stops at stops
  rcases eq_nil_or_concat exchange.chunks with none | ⟨earlier, last, split⟩
  · rw [none]
    simp [RelayState.begin, RelayState.written]
  · rw [concat_eq_append] at split
    rw [split] at stops ⊢
    obtain ⟨before, bounded, accepted⟩ := @relay_taken limit earlier fun first chunk after same raised =>
      append_ne_nil_of_right_ne_nil after (cons_ne_nil last [])
        (stops first chunk (after ++ [last]) (by rw [same]; simp) raised)
    have written : (earlier.foldl (RelayState.relay limit) .begin).written =
        (earlier.map fun chunk => chunk.1.length).sum := by
      rw [before, RelayState.written, map_map]
      rfl
    rw [foldl_append, foldl_cons, RelayState.relay, written]
    split_ifs with above took
    · refine ⟨by rw [before]; simp, ?_, by rw [before]; simp, by rw [before]; simp, ?_⟩
      · exact written.trans_le bounded
      · rw [before]
        simp
    · refine ⟨by rw [before]; simp, ?_, by rw [before]; simp, by rw [before]; simp, ?_⟩
      · rw [before]
        simpa [RelayState.written, Function.comp_def] using Nat.not_lt.mp above
      · rw [before]
        refine iff_of_true rfl ⟨by simp, fun chunk member => ?_⟩
        rcases mem_append.mp member with early | final
        · exact accepted chunk early
        · rw [mem_singleton.mp final]
          exact took
    · refine ⟨by rw [before]; simp, ?_, by rw [before]; simp, by rw [before]; simp, ?_⟩
      · rw [before]
        simpa [RelayState.written, Function.comp_def] using Nat.not_lt.mp above
      · refine iff_of_false (by simp) fun claimed => took ?_
        exact claimed.2 last (mem_append_right _ mem_cons_self)

end Relay

theorem exchangeReceipt_accounts (config : Config) (job : Job) (admitted : Admitted)
    {exchange : Exchange} (stops : exchange.Stops admitted.decision.maxResponseBytes) :
    Account config job admitted.decision.maxResponseBytes exchange
      (exchangeReceipt config job admitted exchange) := by
  obtain ⟨sent, within, bytes, count, whole⟩ := stops.relayed
  have completion : (exchangeReceipt config job admitted exchange).completion =
      exchange.completion admitted.decision.maxResponseBytes := rfl
  unfold Exchange.completion RelayState.written at completion
  refine
    { digest := by rw [handed_eq]; rfl
      sent := by rw [handed_eq]; exact sent
      within := by rw [handed_eq]; exact within
      bytes := bytes
      chunks := count
      failed := ?_
      complete := ?_
      otherwise := ?_
      shown := ?_ }
  · rw [completion, handed_eq]
    split_ifs with none cut
    · exact iff_of_true rfl ⟨none.1, Option.isNone_iff_eq_none.mp none.2.1, none.2.2⟩
    all_goals
      refine iff_of_false (by simp) fun claimed => none ?_
      exact ⟨claimed.1, Option.isNone_iff_eq_none.mpr claimed.2.1, claimed.2.2⟩
  · rw [completion, handed_eq, ← whole]
    split_ifs with none cut
    · exact iff_of_false (by simp) fun claimed => by simp [claimed.1] at none
    · exact iff_of_false (by simp) fun claimed => by simp [claimed.1, claimed.2] at cut
    · exact iff_of_true rfl (by simpa using cut)
  · rw [completion]
    split_ifs <;> simp
  · intro response started
    simp [exchangeReceipt, Exchange.statusCode, started]

/-- Whatever the transport, the caller and the signer do, a receipt that perform
returns accounts for the exchange, as long as the transport stops at an error. -/
theorem perform_accounts {config : Config} {boot : Nat} {job : Job} {admitted : Admitted}
    {request : Request} {events : List tee.Event} {signed : SignedReceipt}
    (ended : (perform config boot job admitted request).Ends events (.ok signed)) :
    ∃ exchange : Exchange, ⟨.sent boot (.exchange request), exchange⟩ ∈ events ∧
      (exchange.Stops admitted.decision.maxResponseBytes →
        Account config job admitted.decision.maxResponseBytes exchange signed.receipt) := by
  obtain _ | @⟨_, _, exchange, _, _, pinned⟩ := ended
  refine ⟨exchange, mem_cons_self, fun stops => ?_⟩
  obtain _ | asked := pinned
  obtain _ | @⟨_, _, stale, _, _, signing⟩ := asked
  cases stale with
  | true => cases signing
  | false =>
    obtain _ | @⟨_, _, signature, _, _, finished⟩ := signing
    cases signature with
    | error reason => cases finished
    | ok signature =>
      cases finished
      exact exchangeReceipt_accounts config job admitted stops

theorem perform_accounts_sample :
    ∃ (exchange : Exchange) (receipt : Receipt), exchange.chunks.length = 2 ∧
      Account Sample.config (Sample.job false) 3 exchange receipt := by
  let exchange : Exchange := ⟨[], [(ascii "ab", true), (ascii "cd", true)], 0, true⟩
  let request : Request := ⟨[], [], [], [], [], [], [], false, 3, []⟩
  let receipt := exchangeReceipt Sample.config (Sample.job false) ⟨⟨3, 0⟩, [], [], 1⟩ exchange
  have stops : exchange.Stops 3 := by
    intro before chunk after same raised
    rcases before with _ | ⟨first, _ | ⟨second, rest⟩⟩
    · cases same
      rcases raised with above | refused
      · exact absurd above (by decide)
      · cases refused
    · cases same
      rfl
    · simp [exchange] at same
  have ended : (perform Sample.config 0 (Sample.job false) ⟨⟨3, 0⟩, [], [], 1⟩ request).Ends
      [⟨.sent 0 (.exchange request), exchange⟩, ⟨.sent 0 .pinnedStale, false⟩,
        ⟨.sent 0 .signingStale, false⟩, ⟨.sent 0 (.sign receipt), .ok []⟩] (.ok ⟨receipt, []⟩) :=
    .call (.call (.call (.call (.done _))))
  obtain ⟨found, asked, accounts⟩ := perform_accounts ended
  have same : found = exchange := by simpa using asked
  exact ⟨found, receipt, same ▸ rfl, accounts (same ▸ stops)⟩

/-- A transport that shows one status and returns another. -/
theorem shown_status_replaced :
    ∃ (exchange : Exchange) (response : Response), exchange.starts = [response] ∧
      exchange.started = some response ∧ (∀ limit, exchange.Stops limit) ∧
      ∀ config job admitted,
        (exchangeReceipt config job admitted exchange).statusCode ≠ response.status := by
  let shown : Response := ⟨200, ⟨[], by simp, by simp, by simp⟩⟩
  refine ⟨⟨[shown], [], 502, false⟩, shown, rfl, rfl, ?_, ?_⟩
  · intro limit before chunk after impossible
    simp at impossible
  · intro config job admitted
    simp [exchangeReceipt, Exchange.statusCode, shown]

end ReclaimTee.TokenHive.Tee
