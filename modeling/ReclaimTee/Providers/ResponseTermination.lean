/-
The loops of the response parser end. Every turn that goes on reads at least one
byte, so that as many turns as there are bytes are enough.
-/

import ReclaimTee.Providers.ResponseHeaders

namespace ReclaimTee.Providers

namespace HTTPResponseParser

variable {strictFraming : Bool} {parser next : HTTPResponseParser} {line : List Byte}

theorem getLine_shorter (found : parser.getLine = some (line, next)) :
    next.remaining.length < parser.remaining.length := by
  obtain ⟨rest, split_, rfl⟩ := getLine_eq found
  rw [split_, List.length_append, List.length_append, lineEnd_length]
  dsimp only
  omega

theorem parseStatusLine_remaining (parsed : parser.parseStatusLine line = .ok next) :
    next.remaining = parser.remaining := by
  unfold parseStatusLine at parsed
  split at parsed
  · cases parsed
  dsimp only at parsed
  split at parsed <;> cases parsed
  rfl

theorem parseHeaderLine_remaining (parsed : parseHeaderLine strictFraming parser line = .ok next) :
    next.remaining = parser.remaining := by
  unfold parseHeaderLine at parsed
  rw [bind_eq_ok_iff] at parsed
  obtain ⟨found, _, parsed⟩ := parsed
  cases found with
  | none =>
    cases parsed
    rfl
  | some entry =>
    simp only [eq_ok_iff] at parsed
    obtain ⟨_, _, rfl⟩ := parsed
    rfl

theorem headersTurn_shorter (turned : headersTurn strictFraming parser = .ok (.continue next)) :
    next.remaining.length < parser.remaining.length := by
  unfold headersTurn at turned
  split at turned
  · cases turned
  rename_i line behind found
  have shorter := getLine_shorter found
  split at turned
  · simp only [eq_ok_iff] at turned
    obtain ⟨status, parsed, ⟨⟩⟩ := turned
    rw [parseStatusLine_remaining parsed]
    exact shorter
  split at turned
  · simp only [eq_ok_iff] at turned
    obtain ⟨_, _, ⟨⟩⟩ := turned
  · simp only [eq_ok_iff] at turned
    obtain ⟨header, parsed, ⟨⟩⟩ := turned
    rw [parseHeaderLine_remaining parsed]
    exact shorter

/-- The unbounded loop over the header lines ends, whatever the lines are, and the model
computes its one result. Every turn that goes on reads a byte. -/
theorem processHeaders_ends (strictFraming : Bool) (parser : HTTPResponseParser) :
    Loop.Run (headersTurn strictFraming) parser (processHeaders strictFraming parser) ∧
      (∀ result, Loop.Run (headersTurn strictFraming) parser result →
        result = processHeaders strictFraming parser) ∧
      ∀ state next, headersTurn strictFraming state = .ok (.continue next) →
        next.remaining.length < state.remaining.length := by
  have shorter : ∀ state next, headersTurn strictFraming state = .ok (.continue next) →
      next.remaining.length < state.remaining.length := fun _ _ => headersTurn_shorter
  have run := Loop.run_of_iterate shorter (Nat.lt_succ_self parser.remaining.length)
  exact ⟨run, fun _ other => other.unique run, shorter⟩

theorem recordChunkFraming_remaining (start length : Int) :
    (parser.recordChunkFraming start length).remaining = parser.remaining := by
  unfold recordChunkFraming
  split
  · rfl
  · rfl

theorem trailerTurn_shorter (turned : parser.trailerTurn = .continue next) :
    next.remaining.length < parser.remaining.length := by
  unfold trailerTurn at turned
  split at turned
  · cases turned
  rename_i line behind found
  have shorter := getLine_shorter found
  split at turned <;> cases turned
  rw [recordChunkFraming_remaining]
  exact shorter

theorem chunkEndTurn_shorter (turned : parser.chunkEndTurn = .ok (.continue next)) :
    next.remaining.length < parser.remaining.length := by
  unfold chunkEndTurn at turned
  split at turned
  · cases turned
  split at turned <;> cases turned
  rw [recordChunkFraming_remaining, List.length_drop]
  omega

theorem chunkDataTurn_shorter (turned : parser.chunkDataTurn = .continue next) :
    next.remaining.length < parser.remaining.length := by
  unfold chunkDataTurn at turned
  dsimp only at turned
  split at turned
  · cases turned
  split at turned <;> cases turned
  dsimp only [readBody]
  rw [List.length_drop]
  omega

theorem chunkSizeTurn_shorter (turned : chunkSizeTurn strictFraming parser = .ok (.continue next)) :
    next.remaining.length < parser.remaining.length := by
  unfold chunkSizeTurn at turned
  split at turned
  · cases turned
  rename_i line behind found
  have shorter := getLine_shorter found
  split at turned
  · split at turned <;> cases turned
    exact shorter
  · dsimp only at turned
    iterate 3
      split at turned
      · cases turned
    split at turned <;> cases turned <;>
      rw [recordChunkFraming_remaining, recordChunkFraming_remaining] <;> exact shorter

theorem chunkTurn_shorter (turned : chunkTurn strictFraming parser = .ok (.continue next)) :
    next.remaining.length < parser.remaining.length := by
  unfold chunkTurn at turned
  split at turned
  · exact trailerTurn_shorter (Except.ok.inj turned)
  split at turned
  · exact chunkEndTurn_shorter turned
  · split at turned
    · exact chunkDataTurn_shorter (Except.ok.inj turned)
    · exact chunkSizeTurn_shorter turned

/-- The unbounded loop over the chunks ends by a break or an error on every body, and the
model computes its one result. Every turn that goes on reads a byte. -/
theorem processChunkedBody_ends (strictFraming : Bool) (parser : HTTPResponseParser) :
    Loop.Run (chunkTurn strictFraming) parser (processChunkedBody strictFraming parser) ∧
      (∀ result, Loop.Run (chunkTurn strictFraming) parser result →
        result = processChunkedBody strictFraming parser) ∧
      ∀ state next, chunkTurn strictFraming state = .ok (.continue next) →
        next.remaining.length < state.remaining.length := by
  have shorter : ∀ state next, chunkTurn strictFraming state = .ok (.continue next) →
      next.remaining.length < state.remaining.length := fun _ _ => chunkTurn_shorter
  have run := Loop.run_of_iterate shorter (Nat.lt_succ_self parser.remaining.length)
  exact ⟨run, fun _ other => other.unique run, shorter⟩

end HTTPResponseParser

end ReclaimTee.Providers
