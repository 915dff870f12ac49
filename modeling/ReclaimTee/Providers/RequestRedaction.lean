/-
Which bytes of a request are redacted: the places of the secret bytes in its
templates. The ranges of the URL are placed by the distance behind scheme and
host in the substituted URL, while the request carries the parsed target.
-/

import ReclaimTee.Providers.Request

namespace ReclaimTee.Providers

open List

/-! ### Places -/

def At (test : Octet → Bool) (octets : List Octet) (position : Int) : Prop :=
  ∃ (index : Nat) (octet : Octet), position = index ∧ octets[index]? = some octet ∧
    test octet = true

variable {test other : Octet → Bool} {position : Int} {octets written : List Octet}
  {bytes : List Byte} {parts : List Span} {publicValues secretValues : Values}
  {ignoreMissing : Bool} {lines : List (List Octet)}

theorem not_at_nil : ¬ At test [] position := nofun

theorem at_append {front back : List Octet} :
    At test (front ++ back) position ↔
      At test front position ∨ At test back (position - front.length) := by
  constructor
  · rintro ⟨index, octet, rfl, found, passes⟩
    by_cases early : index < front.length
    · rw [getElem?_append_left early] at found
      exact .inl ⟨index, octet, rfl, found, passes⟩
    · rw [getElem?_append_right (by omega)] at found
      exact .inr ⟨index - front.length, octet, by omega, found, passes⟩
  · rintro (⟨index, octet, rfl, found, passes⟩ | ⟨index, octet, shifted, found, passes⟩)
    · have early : index < front.length := (List.getElem?_eq_some_iff.mp found).1
      exact ⟨index, octet, rfl, (List.getElem?_append_left early).trans found, passes⟩
    · refine ⟨front.length + index, octet, by omega, ?_, passes⟩
      rw [getElem?_append_right (by omega), Nat.add_sub_cancel_left]
      exact found

theorem at_bounds (at_ : At test octets position) : 0 ≤ position ∧ position < octets.length := by
  obtain ⟨index, octet, rfl, found, _⟩ := at_
  have inside : index < octets.length := (List.getElem?_eq_some_iff.mp found).1
  omega

theorem not_at_of_forall
    (none : ∀ octet ∈ octets, test octet = false) : ¬ At test octets position := by
  rintro ⟨index, octet, _, found, passes⟩
  rw [none octet (mem_of_getElem? found)] at passes
  cases passes

theorem at_iff_of_forall (all : ∀ octet ∈ octets, test octet = true) :
    At test octets position ↔ 0 ≤ position ∧ position < octets.length := by
  constructor
  · exact at_bounds
  rintro ⟨start, stop⟩
  obtain ⟨index, rfl⟩ := Int.eq_ofNat_of_zero_le start
  have inside : index < octets.length := by omega
  exact ⟨index, octets[index], rfl, getElem?_eq_getElem inside, all _ (getElem_mem inside)⟩

theorem at_mono (implies : ∀ octet ∈ octets, test octet = true → other octet = true)
    (at_ : At test octets position) : At other octets position := by
  obtain ⟨index, octet, place, found, passes⟩ := at_
  exact ⟨index, octet, place, found, implies octet (mem_of_getElem? found) passes⟩

theorem not_at_of_at (excludes : ∀ octet, test octet = true → other octet = false)
    (at_ : At test octets position) : ¬ At other octets position := by
  obtain ⟨index, octet, rfl, found, passes⟩ := at_
  rintro ⟨again, same, place, foundAgain, passesToo⟩
  obtain rfl : index = again := Int.ofNat_inj.mp place
  rw [found] at foundAgain
  cases foundAgain
  rw [excludes octet passes] at passesToo
  cases passesToo

theorem at_of_not_at (total : ∀ octet, test octet = false → other octet = true)
    (start : 0 ≤ position) (stop : position < octets.length)
    (not_at : ¬ At test octets position) : At other octets position := by
  obtain ⟨index, rfl⟩ := Int.eq_ofNat_of_zero_le start
  have inside : index < octets.length := by omega
  have found := getElem?_eq_getElem inside
  refine ⟨index, octets[index], rfl, found, total _ ?_⟩
  by_contra passes
  exact not_at ⟨index, octets[index], rfl, found, eq_true_of_ne_false passes⟩

def isOpen (octet : Octet) : Bool :=
  !octet.guarded

def isPublic (octet : Octet) : Bool :=
  !octet.secret

theorem mem_plain {octet : Octet} (member : octet ∈ plain bytes) :
    octet.secret = false ∧ octet.guarded = false := by
  obtain ⟨byte, _, rfl⟩ := mem_map.mp member
  exact ⟨rfl, rfl⟩

theorem mem_hidden {octet : Octet} (member : octet ∈ hidden bytes) :
    octet.secret = true ∧ octet.guarded = false := by
  obtain ⟨byte, _, rfl⟩ := mem_map.mp member
  exact ⟨rfl, rfl⟩

theorem mem_visible {octet : Octet} (member : octet ∈ visible octets) : octet.guarded = true := by
  obtain ⟨original, _, rfl⟩ := mem_map.mp member
  rfl

@[simp] theorem plain_length (bytes : List Byte) : (plain bytes).length = bytes.length :=
  length_map _

@[simp] theorem hidden_length (bytes : List Byte) : (hidden bytes).length = bytes.length :=
  length_map _

@[simp] theorem visible_length (octets : List Octet) : (visible octets).length = octets.length :=
  length_map _

theorem not_secret_plain : ¬ At Octet.secret (plain bytes) position :=
  not_at_of_forall fun _ member => (mem_plain member).1

theorem secret_hidden_iff :
    At Octet.secret (hidden bytes) position ↔ 0 ≤ position ∧ position < bytes.length := by
  rw [at_iff_of_forall fun _ member => (mem_hidden member).1, hidden_length]

/-! ### Hidden parts -/

/-- The hidden parts are the places of the secret bytes. -/
structure Exact (written : List Octet) (parts : List Span) : Prop where
  covered : ∀ position, Covered parts position ↔ At Octet.secret written position
  apart : parts.Pairwise Span.Disjoint
  isOpen : ∀ octet ∈ written, octet.guarded = false

theorem Exact.nil : Exact [] [] where
  covered _ := by simp [not_at_nil]
  apart := List.Pairwise.nil
  isOpen _ member := absurd member not_mem_nil

theorem Exact.plain (bytes : List Byte) : Exact (plain bytes) [] where
  covered _ := by simp [not_secret_plain]
  apart := List.Pairwise.nil
  isOpen _ member := (mem_plain member).2

theorem Exact.append_plain (exact : Exact written parts)
    (bytes : List Byte) : Exact (written ++ Providers.plain bytes) parts where
  covered position := by
    rw [exact.covered, at_append, or_iff_left not_secret_plain]
  apart := exact.apart
  isOpen octet member :=
    (mem_append.mp member).elim (exact.isOpen octet) fun added => (mem_plain added).2

theorem Exact.append_hidden (exact : Exact written parts) (bytes : List Byte) :
    Exact (written ++ hidden bytes)
      (parts ++ [{ start := written.length, length := bytes.length }]) where
  covered position := by
    rw [covered_append, exact.covered, at_append, secret_hidden_iff, covered_cons,
      or_iff_left not_covered_nil]
    unfold Span.Covers Span.stop
    exact or_congr_right (by dsimp only; omega)
  apart := by
    refine pairwise_disjoint_append exact.apart (pairwise_singleton _ _) ?_
    intro position before last
    have inside := at_bounds ((exact.covered position).mp before)
    obtain ⟨span, member, start, _⟩ := last
    rw [mem_singleton.mp member] at start
    dsimp only at start
    omega
  isOpen octet member :=
    (mem_append.mp member).elim (exact.isOpen octet) fun added => (mem_hidden added).2

structure Replacing.Tracks (state : Replacing) : Prop where
  place : state.start + state.totalOffset = state.written.length
  exact : Exact state.written state.hiddenParts

theorem Replacing.step_tracks {state next : Replacing} {piece : Piece} (tracks : state.Tracks)
    (stepped : state.step publicValues secretValues ignoreMissing piece = .ok next) :
    next.Tracks := by
  have place := tracks.place
  cases piece with
  | literal byte =>
    cases stepped
    exact
      { place := by
          simp only [Replacing.literal, length_append, plain_length, length_singleton]
          omega
        exact := tracks.exact.append_plain [byte] }
  | parameter name =>
    unfold Replacing.step Replacing.parameter at stepped
    dsimp only at stepped
    split at stepped
    · cases stepped
      exact
        { place := by
            dsimp only
            rw [length_append, plain_length]
            omega
          exact := tracks.exact.append_plain _ }
    · split at stepped
      · cases stepped
        exact
          { place := by
              dsimp only
              rw [length_append, hidden_length]
              omega
            exact := by
              rw [place]
              exact tracks.exact.append_hidden _ }
      · split at stepped
        · cases stepped
          exact
            { place := by
                simp only [length_append, plain_length, ascii, length_map]
                have braces : "\x7b\x7b".toList.length = 2 ∧ "\x7d\x7d".toList.length = 2 := by
                  decide
                omega
              exact := tracks.exact.append_plain _ }
        · cases stepped

theorem Replacing.foldlM_tracks
    {pieces : List Piece} {state last : Replacing} (tracks : state.Tracks)
    (run : pieces.foldlM (Replacing.step publicValues secretValues ignoreMissing) state =
      .ok last) : last.Tracks := by
  induction pieces generalizing state with
  | nil =>
    cases run
    exact tracks
  | cons piece rest ih =>
    rw [foldlM_cons, bind_eq_ok_iff] at run
    obtain ⟨next, stepped, run⟩ := run
    exact ih (Replacing.step_tracks tracks stepped) run

theorem extractAndReplace_exact {template : List Byte} {replaced : ReplacedParams}
    (substituted : extractAndReplaceTemplateValues template publicValues secretValues
      ignoreMissing = .ok replaced) : Exact replaced.newParam replaced.hiddenParts := by
  unfold extractAndReplaceTemplateValues at substituted
  rw [bind_eq_ok_iff] at substituted
  obtain ⟨state, run, same⟩ := substituted
  cases same
  exact (Replacing.foldlM_tracks ⟨rfl, Exact.nil⟩ run).exact

/-! ### Lines -/

def block (lines : List (List Octet)) : List Octet :=
  lines.flatMap (· ++ crlf)

theorem block_append (first second : List (List Octet)) :
    block (first ++ second) = block first ++ block second :=
  flatMap_append

theorem block_cons (line : List Octet) (rest : List (List Octet)) :
    block (line :: rest) = line ++ crlf ++ block rest :=
  flatMap_cons

@[simp] theorem crlf_length : crlf.length = 2 := by
  decide

theorem joinCRLF_append_last (lines : List (List Octet)) (last : List Octet) :
    joinCRLF (lines ++ [last]) = block lines ++ last := by
  induction lines with
  | nil => simp [joinCRLF, block]
  | cons line rest ih =>
    have step : joinCRLF (line :: (rest ++ [last])) = line ++ crlf ++ joinCRLF (rest ++ [last]) := by
      cases rest with
      | nil | cons => simp [joinCRLF]
    rw [cons_append, step, ih, block_cons, append_assoc, append_assoc, append_assoc]

theorem joinCRLF_append_crlf (nonempty : lines ≠ []) : joinCRLF lines ++ crlf = block lines := by
  obtain ⟨front, last, rfl⟩ := eq_nil_or_concat lines |>.resolve_left nonempty
  rw [concat_eq_append, joinCRLF_append_last]
  simp [block]

namespace RequestParts

variable (parts : RequestParts)

theorem frontLines_ne_nil : parts.frontLines ≠ [] := by
  exact cons_ne_nil _ _

theorem secretHeadersStart_eq : parts.secretHeadersStart = (block parts.frontLines).length := by
  rw [secretHeadersStart, ← joinCRLF_append_crlf parts.frontLines_ne_nil, length_append,
    crlf_length]

theorem headerBytes_eq :
    parts.headerBytes = block parts.frontLines ++ block parts.secretLines ++ crlf := by
  rw [headerBytes, joinCRLF_append_last, block_append]

end RequestParts

theorem lineSpans_covered {cursor : Int}
    (isOpen : ∀ line ∈ lines, ∀ octet ∈ line, octet.guarded = false) :
    Covered (lineSpans cursor lines) position ↔
      At Providers.isOpen (block lines) (position - cursor) := by
  induction lines generalizing cursor with
  | nil =>
    have nothing : ¬ At Providers.isOpen (block []) (position - cursor) := not_at_nil
    simp [lineSpans, nothing]
  | cons line rest ih =>
    have here : ∀ octet ∈ line, Providers.isOpen octet = true := by
      intro octet member
      simp [Providers.isOpen, isOpen line mem_cons_self octet member]
    have ends : ∀ place, ¬ At Providers.isOpen crlf place := fun place =>
      not_at_of_forall fun octet member => by simp [Providers.isOpen, mem_visible member]
    rw [lineSpans, covered_cons, ih fun other member => isOpen other (mem_cons_of_mem _ member),
      block_cons, at_append, at_append, or_iff_left (ends _),
      at_iff_of_forall here, length_append]
    have moved : position - (cursor + line.length + 2) =
        position - cursor - ((line.length + 2 : Nat) : Int) := by
      omega
    rw [moved]
    unfold Span.Covers Span.stop
    exact or_congr_left (by dsimp only; omega)

theorem lineSpans_after {cursor : Int}
    (covered : Covered (lineSpans cursor lines) position) : cursor ≤ position := by
  induction lines generalizing cursor with
  | nil => exact absurd covered not_covered_nil
  | cons line rest ih =>
    rw [lineSpans, covered_cons] at covered
    rcases covered with inside | later
    · exact inside.1
    · have behind := ih later
      omega

theorem lineSpans_apart (lines : List (List Octet)) (cursor : Int) :
    (lineSpans cursor lines).Pairwise Span.Disjoint := by
  induction lines generalizing cursor with
  | nil => exact List.Pairwise.nil
  | cons line rest ih =>
    refine pairwise_cons.mpr ⟨?_, ih _⟩
    intro other member position first second
    have behind := lineSpans_after ⟨other, member, second⟩
    unfold Span.Covers Span.stop at first
    dsimp only at first
    omega

theorem lineSpans_nonempty (cursor : Int) (nonempty : ∀ line ∈ lines, line ≠ []) :
    ∀ span ∈ lineSpans cursor lines, 0 < span.length := by
  induction lines generalizing cursor with
  | nil =>
    intro span member
    cases member
  | cons line rest ih =>
    refine forall_mem_cons.mpr ⟨?_, ih _ fun other member =>
      nonempty other (mem_cons_of_mem _ member)⟩
    have positive := length_pos_iff.mpr (nonempty line mem_cons_self)
    dsimp only
    omega

theorem secretHeaders_lines {secret : HTTPProviderSecretParams}
    (accepted : secretHeaders secret = .ok lines) :
    ∀ line ∈ lines, line ≠ [] ∧ ∀ octet ∈ line, octet.guarded = false := by
  unfold secretHeaders at accepted
  rw [bind_eq_ok_iff] at accepted
  obtain ⟨_, _, accepted⟩ := accepted
  rw [bind_eq_ok_iff] at accepted
  obtain ⟨_, _, accepted⟩ := accepted
  rw [bind_eq_ok_iff] at accepted
  obtain ⟨others, run, same⟩ := accepted
  cases same
  have labelled : ∀ (label : String) (value : List Byte), value ≠ [] →
      plain (ascii label) ++ hidden value ≠ [] ∧
        ∀ octet ∈ plain (ascii label) ++ hidden value, octet.guarded = false := by
    intro label value present
    refine ⟨?_, ?_⟩
    · intro empty
      have length := congrArg List.length empty
      rw [length_append, hidden_length, length_nil] at length
      have positive := length_pos_iff.mpr present
      omega
    · intro octet member
      exact (mem_append.mp member).elim (fun added => (mem_plain added).2)
        fun added => (mem_hidden added).2
  intro line member
  rw [append_assoc] at member
  rcases mem_append.mp member with cookie | member
  · split at cookie
    · cases cookie
    · next present =>
      rw [mem_singleton.mp cookie]
      exact labelled _ _ present
  · rcases mem_append.mp member with authorization | other
    · split at authorization
      · cases authorization
      · next present =>
        rw [mem_singleton.mp authorization]
        exact labelled _ _ present
    · obtain ⟨header, _, turned⟩ := mapM_mem run other
      simp only [bind_eq_ok_iff] at turned
      obtain ⟨_, _, _, _, same⟩ := turned
      cases same
      refine ⟨?_, ?_⟩
      · intro empty
        have length := congrArg List.length empty
        simp [ascii] at length
      · intro octet member
        rcases mem_append.mp member with front | value
        · exact (mem_append.mp front).elim (fun added => (mem_hidden added).2)
            fun added => (mem_plain added).2
        · exact (mem_hidden value).2

/-! ### Substituted parts -/

theorem substituteBody_exact {body : Body} {sent : List Octet}
    (substituted : substituteBody publicValues secretValues ignoreMissing body =
      .ok (sent, parts)) : Exact sent parts := by
  unfold substituteBody at substituted
  split at substituted
  · split at substituted
    · cases substituted
    rename_i replaced run
    split at substituted
    · cases substituted
      exact extractAndReplace_exact run
    · cases substituted
      exact Exact.plain _
  · cases substituted
    exact Exact.nil

/-- The hidden parts of a URL lie before its secret bytes by the authority's offset. -/
structure Displaced (written : List Octet) (parts : List Span) (offset : Int) : Prop where
  covered : ∀ position, Covered parts position ↔ At Octet.secret written (position + offset)
  apart : parts.Pairwise Span.Disjoint

theorem Displaced.none (exact : Exact written []) (offset : Int) : Displaced written [] offset where
  covered position := by
    rw [← exact.covered]
    simp
  apart := List.Pairwise.nil

theorem pairwise_shift {spans : List Span} (apart : spans.Pairwise Span.Disjoint)
    (distance : Int) : (spans.map (Span.shift · distance)).Pairwise Span.Disjoint :=
  pairwise_map.mpr (apart.imp fun disjoint => disjoint.shift distance)

theorem substituteUrl_displaced {template method : List Byte} {urlParams : ReplacedParams}
    {url : Url} (exact : Exact urlParams.newParam urlParams.hiddenParts)
    (substituted : substituteUrl template method urlParams = .ok (written, parts))
    (parsed : parse written = some url) : Displaced written parts (authorityOffset method url) := by
  unfold substituteUrl at substituted
  split at substituted
  · split at substituted
    · split at substituted
      · cases substituted
      rename_i same found
      cases substituted
      rw [found] at parsed
      cases parsed
      exact
        { covered := fun position => by
            rw [covered_shift, exact.covered, Int.sub_neg]
          apart := pairwise_shift exact.apart _ }
    · next nothing =>
      cases substituted
      rw [not_not.mp nothing] at exact
      exact Displaced.none exact _
  · cases substituted
    exact Displaced.none (Exact.plain _) _

theorem substituteParamValues_exact {params : HTTPProviderParams}
    {substituted : SubstituteResult} {url : Url}
    (accepted : substituteParamValues params secretValues ignoreMissing = .ok substituted)
    (parsed : parse substituted.url = some url) :
    substituted.method = params.method ∧
      Displaced substituted.url substituted.hiddenURLParts (authorityOffset params.method url) ∧
      Exact substituted.body substituted.hiddenBodyParts := by
  unfold substituteParamValues at accepted
  simp only [HTTPProviderParams.copy, eq_ok_iff] at accepted
  obtain ⟨copied, ⟨_, _, rfl⟩, urlParams, replaced, ⟨written, urlParts⟩, urlDone, ⟨body, bodyParts⟩,
    bodyDone, _, _, _, _, _, _, rfl⟩ := accepted
  exact ⟨rfl, substituteUrl_displaced (extractAndReplace_exact replaced) urlDone parsed,
    substituteBody_exact bodyDone⟩

end ReclaimTee.Providers
