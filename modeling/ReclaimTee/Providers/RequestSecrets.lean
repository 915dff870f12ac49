/-
Secrets of a request. The ranges of headers and body are in place for every
request, those of the URL just when the request target carries the secret bytes
at their distance behind scheme and host.
-/

import ReclaimTee.Providers.RequestRedaction

namespace ReclaimTee.Providers

open List

def CreateRequestResult.spans (result : CreateRequestResult) : List Span :=
  result.redactions.map (·.span)

/-- No secret byte of the request is sent in the clear, and nothing is hidden that has
to stay visible. -/
structure Redacted (result : CreateRequestResult) : Prop where
  covers : ∀ position, At Octet.secret result.data position → Covered result.spans position
  bounded : ∀ span ∈ result.spans,
    0 ≤ span.length ∧ 0 ≤ span.start ∧ span.stop ≤ (result.data.length : Int)
  disjoint : result.spans.Pairwise Span.Disjoint
  spares : ∀ position, At Octet.guarded result.data position → ¬ Covered result.spans position

/-! ### The bytes of a request -/

namespace RequestParts

variable {parts : RequestParts} {position : Int}

/-- Bytes that the ranges of the headers and of the body cover. -/
def Settled (parts : RequestParts) (position : Int) : Prop :=
  At isOpen (block parts.secretLines) (position - (block parts.frontLines).length) ∨
    At Octet.secret parts.body (position - parts.headerBytes.length)

/-- Bytes that may be hidden and that no range of a header or of the body covers. -/
def Spare (parts : RequestParts) (position : Int) : Prop :=
  At isOpen (block parts.frontLines) position ∨
    At isPublic parts.body (position - parts.headerBytes.length)

/-- The parts as the builder puts them together. -/
structure Marked (parts : RequestParts) : Prop where
  publicLines : ∀ line ∈ parts.publicLines, ∀ octet ∈ line, octet.secret = false
  secretLines : ∀ line ∈ parts.secretLines, line ≠ [] ∧ ∀ octet ∈ line, octet.guarded = false
  body : ∀ octet ∈ parts.body, octet.guarded = false

theorem headerBytes_length :
    parts.headerBytes.length =
      (block parts.frontLines).length + (block parts.secretLines).length + 2 := by
  rw [headerBytes_eq, length_append, length_append, crlf_length]

theorem at_data {test : Octet → Bool} :
    At test parts.data position ↔
      At test (block parts.frontLines) position ∨
        At test (block parts.secretLines) (position - (block parts.frontLines).length) ∨
        At test crlf (position - (parts.headerBytes.length - 2 : Int)) ∨
        At test parts.body (position - parts.headerBytes.length) := by
  have before : (parts.headerBytes.length : Int) - 2 =
      (block parts.frontLines ++ block parts.secretLines).length := by
    rw [headerBytes_length, length_append]
    omega
  have header : At test parts.headerBytes position ↔
      (At test (block parts.frontLines) position ∨
        At test (block parts.secretLines) (position - (block parts.frontLines).length)) ∨
        At test crlf (position - (parts.headerBytes.length - 2 : Int)) := by
    rw [before, headerBytes_eq, at_append, at_append]
  rw [data, at_append, header, or_assoc, or_assoc]

theorem guarded_crlf {octet : Octet} (member : octet ∈ crlf) : octet.guarded = true :=
  mem_visible member

theorem not_secret_crlf : ¬ At Octet.secret crlf position :=
  not_at_of_forall (by decide)

theorem not_secret_visible {bytes : List Byte} :
    ¬ At Octet.secret (visible (plain bytes)) position := by
  refine not_at_of_forall fun octet member => ?_
  obtain ⟨original, inside, rfl⟩ := mem_map.mp member
  exact (mem_plain inside).1

theorem not_secret_block {lines : List (List Octet)}
    (isPublic : ∀ line ∈ lines, ∀ octet ∈ line, octet.secret = false) :
    ¬ At Octet.secret (block lines) position := by
  refine not_at_of_forall fun octet member => ?_
  obtain ⟨line, inLines, inside⟩ := mem_flatMap.mp member
  rcases mem_append.mp inside with inLine | ending
  · exact isPublic line inLines octet inLine
  · exact (by decide : ∀ octet ∈ crlf, octet.secret = false) octet ending

theorem block_frontLines (parts : RequestParts) :
    ∃ rest, block parts.frontLines =
        visible (plain parts.method) ++ plain (ascii " ") ++ parts.target ++
          (plain (ascii " HTTP/1.1") ++ crlf) ++
          visible (plain (ascii "Host: ") ++ parts.host) ++ rest ∧
      (parts.Marked → ∀ position, ¬ At Octet.secret rest position) := by
  refine ⟨crlf ++ block ([visible (plain (ascii "Connection: close")),
    plain (ascii "Content-Length: " ++ ascii (toString parts.body.length)),
    plain (ascii "Accept-Encoding: identity")] ++ parts.publicLines), ?_, ?_⟩
  · unfold frontLines requestLine
    rw [cons_append, cons_append, block_cons, block_cons]
    simp only [append_assoc]
  · intro marked position
    rw [at_append, or_iff_right not_secret_crlf]
    refine not_secret_block fun line member => ?_
    rcases mem_append.mp member with fixed | given
    · simp only [mem_cons, not_mem_nil, or_false] at fixed
      rcases fixed with rfl | rfl | rfl
      · decide
      · exact fun octet inside => (mem_plain inside).1
      · exact fun octet inside => (mem_plain inside).1
    · exact marked.publicLines line given

theorem secret_front (marked : parts.Marked) (secret : At Octet.secret (block parts.frontLines) position)
    (host : ∀ octet ∈ parts.host, octet.secret = false) :
    At Octet.secret parts.target (position - (parts.method.length + 1)) := by
  obtain ⟨rest, layout, rest_public⟩ := block_frontLines parts
  have hostLine : ∀ place, ¬ At Octet.secret (visible (plain (ascii "Host: ") ++ parts.host)) place := by
    refine fun place => not_at_of_forall fun octet member => ?_
    obtain ⟨original, inside, rfl⟩ := mem_map.mp member
    exact (mem_append.mp inside).elim (fun label => (mem_plain label).1) (host original)
  rw [layout, at_append, or_iff_left (rest_public marked _), at_append, or_iff_left (hostLine _), at_append,
    at_append, at_append, or_iff_left not_secret_plain, or_iff_right not_secret_visible, at_append,
    or_iff_left not_secret_crlf, or_iff_left not_secret_plain, length_append, visible_length,
    plain_length] at secret
  exact secret

theorem target_front {test : Octet → Bool} (at_ : At test parts.target position) :
    At test (block parts.frontLines) (position + (parts.method.length + 1)) := by
  obtain ⟨rest, layout, _⟩ := block_frontLines parts
  rw [layout, append_assoc, append_assoc, at_append, at_append]
  refine .inl (.inr ?_)
  rw [length_append, visible_length, plain_length, plain_length]
  have length : ((ascii " ").length : Int) = 1 := by
    decide
  have place : position + (parts.method.length + 1) -
      ((parts.method.length + (ascii " ").length : Nat) : Int) = position := by
    omega
  rw [place]
  exact at_

theorem host_front {octet : Octet} (member : octet ∈ parts.host) (secret : octet.secret = true) :
    ∃ position, At Octet.secret (block parts.frontLines) position ∧
      At Octet.guarded (block parts.frontLines) position := by
  obtain ⟨rest, layout, _⟩ := block_frontLines parts
  obtain ⟨front, before⟩ : ∃ front, block parts.frontLines =
      front ++ visible (plain (ascii "Host: ") ++ parts.host) ++ rest := ⟨_, layout⟩
  have marked : { octet with guarded := true } ∈ visible (plain (ascii "Host: ") ++ parts.host) :=
    mem_map.mpr ⟨octet, mem_append_right _ member, rfl⟩
  obtain ⟨index, found⟩ := mem_iff_getElem?.mp marked
  rw [before]
  have place : ((front.length + index : Nat) : Int) - front.length = index := by
    omega
  refine ⟨(front.length + index : Nat), ?_, ?_⟩
  · refine at_append.mpr (.inl (at_append.mpr (.inr ?_)))
    rw [place]
    exact ⟨index, _, rfl, found, secret⟩
  · refine at_append.mpr (.inl (at_append.mpr (.inr ?_)))
    rw [place]
    exact ⟨index, _, rfl, found, rfl⟩

/-! ### The ranges of a request -/

variable {substituted : SubstituteResult}

def settledSpans (parts : RequestParts) (substituted : SubstituteResult) : List Span :=
  lineSpans parts.secretHeadersStart parts.secretLines ++
    (substituted.hiddenBodyParts.map
      (Span.shift · parts.headerBytes.length)).filter (fun span => 0 < span.length)

theorem covered_settled (marked : parts.Marked)
    (bodyParts : Exact parts.body substituted.hiddenBodyParts) :
    Covered (settledSpans parts substituted) position ↔ parts.Settled position := by
  rw [settledSpans, covered_append,
    lineSpans_covered fun line member => (marked.secretLines line member).2, secretHeadersStart_eq,
    covered_filter_nonempty, covered_shift, bodyParts.covered]
  rfl

theorem nonempty_redactionSpans (marked : parts.Marked) :
    ∀ span ∈ redactionSpans parts substituted, 0 < span.length := by
  have filtered : ∀ (spans : List Span), ∀ span ∈ spans.filter fun span => 0 < span.length,
      0 < span.length := fun spans span member =>
    of_decide_eq_true (mem_filter.mp member).2
  intro span member
  rcases mem_append.mp member with settled | fromUrl
  · rcases mem_append.mp settled with line | fromBody
    · exact lineSpans_nonempty _ (fun line inside => (marked.secretLines line inside).1) span line
    · exact filtered _ span fromBody
  · exact filtered _ span fromUrl

theorem Spare.isOpen (marked : parts.Marked) (spare : parts.Spare position) :
    At Providers.isOpen parts.data position := by
  rcases spare with front | body
  · exact at_data.mpr (.inl front)
  · refine at_data.mpr (.inr (.inr (.inr (at_mono ?_ body))))
    intro octet member _
    simp [Providers.isOpen, marked.body octet member]

theorem not_settled_of_front {test : Octet → Bool} (front : At test (block parts.frontLines) position) :
    ¬ parts.Settled position := by
  have before := at_bounds front
  have length := parts.headerBytes_length
  rintro (line | body)
  · have inside := at_bounds line
    omega
  · have inside := at_bounds body
    omega

theorem Spare.not_settled (spare : parts.Spare position) : ¬ parts.Settled position := by
  rcases spare with front | body
  · exact not_settled_of_front front
  · rintro (line | secret)
    · have inside := at_bounds line
      have behind := at_bounds body
      have length := parts.headerBytes_length
      omega
    · refine not_at_of_at (fun octet isPublic => ?_) body secret
      simpa [Providers.isPublic] using isPublic

/-- A byte that may be hidden and that no range of a header or of the body covers. -/
theorem spare_of_isOpen (opened : At Providers.isOpen parts.data position)
    (uncovered : ¬ parts.Settled position) : parts.Spare position := by
  rcases at_data.mp opened with front | secretLine | ending | inBody
  · exact .inl front
  · exact absurd (.inl secretLine) uncovered
  · refine absurd ending (not_at_of_forall fun octet member => ?_)
    simp [Providers.isOpen, guarded_crlf member]
  · have inside := at_bounds inBody
    refine .inr (at_of_not_at (fun octet isPublic => ?_) inside.1 inside.2 fun secret => uncovered (.inr secret))
    simp [Providers.isPublic, isPublic]

end RequestParts

open RequestParts

/-! ### Secrets of the URL -/

/-- The request carries the secret bytes of the URL where the ranges of the URL are. -/
structure UrlSecretsInPlace (parts : RequestParts) (written : List Octet) (url : Url) : Prop where
  host : ∀ octet ∈ parts.host, octet.secret = false
  sent : ∀ place, At Octet.secret parts.target place →
    At Octet.secret written (place + (url.scheme.length + 3 + url.host.length))
  placed : ∀ place, At Octet.secret written (place + (url.scheme.length + 3 + url.host.length)) →
    parts.Spare (place + (parts.method.length + 1))

/-- A URL whose target is sent as it is written, up to the last secret byte. -/
theorem urlSecretsInPlace_of_asWritten {parts : RequestParts} {url : Url}
    (front sent rest tail written : List Octet)
    (layout : written = front ++ sent ++ rest) (target : parts.target = sent ++ tail)
    (authority : front.length = url.scheme.length + 3 + url.host.length)
    (opened : ∀ octet ∈ sent, octet.guarded = false)
    (isPublic : ∀ octet ∈ front ++ rest ++ tail ++ parts.host, octet.secret = false) :
    UrlSecretsInPlace parts written url := by
  have no_front : ∀ place, ¬ At Octet.secret front place := fun place =>
    not_at_of_forall fun octet member => isPublic octet (by simp [member])
  have no_rest : ∀ place, ¬ At Octet.secret rest place := fun place =>
    not_at_of_forall fun octet member => isPublic octet (by simp [member])
  have no_tail : ∀ place, ¬ At Octet.secret tail place := fun place =>
    not_at_of_forall fun octet member => isPublic octet (by simp [member])
  have at_written : ∀ place, At Octet.secret written
      (place + (url.scheme.length + 3 + url.host.length)) ↔ At Octet.secret sent place := by
    intro place
    rw [layout, at_append, or_iff_left (no_rest _), at_append, or_iff_right (no_front _), authority]
    have same : place + ((url.scheme.length : Int) + 3 + url.host.length) -
        ((url.scheme.length + 3 + url.host.length : Nat) : Int) = place := by
      omega
    rw [same]
  exact
    { host := fun octet member => isPublic octet (by simp [member])
      sent := fun place secret => by
        rw [target, at_append, or_iff_left (no_tail _)] at secret
        exact (at_written place).mpr secret
      placed := fun place secret => by
        have inTarget : At isOpen parts.target place := by
          rw [target, at_append]
          refine .inl (at_mono (fun octet member _ => ?_) ((at_written place).mp secret))
          simp [isOpen, opened octet member]
        exact .inl (target_front inTarget) }

theorem authorityOffset_place (method : List Byte) (url : Url) (place : Int) :
    place + (method.length + 1) + authorityOffset method url =
      place + (url.scheme.length + 3 + url.host.length) := by
  unfold authorityOffset
  dsimp only
  omega

/-- A request as it is put together from its parts. -/
structure Built (result : CreateRequestResult) (parts : RequestParts)
    (substituted : SubstituteResult) (url : Url) : Prop where
  marked : parts.Marked
  bodyParts : Exact parts.body substituted.hiddenBodyParts
  urlParts : Displaced substituted.url substituted.hiddenURLParts
    (authorityOffset parts.method url)
  data : result.data = parts.data
  spans : result.spans.Perm (redactionSpans parts substituted)

namespace Built

variable {result : CreateRequestResult} {parts : RequestParts} {substituted : SubstituteResult}
  {url : Url} {position place : Int}

theorem spare_of_inPlace (inPlace : UrlSecretsInPlace parts substituted.url url)
    (secret : At Octet.secret substituted.url (position + authorityOffset parts.method url)) :
    parts.Spare position := by
  have moved := authorityOffset_place parts.method url (position - (parts.method.length + 1))
  rw [Int.sub_add_cancel] at moved
  rw [moved] at secret
  have free := inPlace.placed _ secret
  rwa [Int.sub_add_cancel] at free

variable (built : Built result parts substituted url)
include built

theorem covered :
    Covered result.spans position ↔ parts.Settled position ∨
      At Octet.secret substituted.url (position + authorityOffset parts.method url) := by
  rw [covered_perm built.spans, redactionSpans, covered_append, covered_filter_nonempty,
    built.urlParts.covered, ← covered_settled built.marked built.bodyParts]
  rfl

theorem covered_place
    (secret : At Octet.secret substituted.url
      (place + (url.scheme.length + 3 + url.host.length))) :
    Covered result.spans (place + (parts.method.length + 1)) := by
  rw [← authorityOffset_place parts.method] at secret
  exact built.covered.mpr (.inr secret)

section InPlace

variable (inPlace : UrlSecretsInPlace parts substituted.url url)
include inPlace

theorem covers_of_inPlace
    (secret : At Octet.secret result.data position) : Covered result.spans position := by
  rw [built.data] at secret
  rcases at_data.mp secret with front | line | ending | body
  · have sent := inPlace.sent _ (secret_front built.marked front inPlace.host)
    have covered := built.covered_place sent
    rwa [Int.sub_add_cancel] at covered
  · refine built.covered.mpr (.inl (.inl ?_))
    obtain ⟨index, octet, position, found, secret⟩ := line
    refine ⟨index, octet, position, found, ?_⟩
    obtain ⟨line, inLines, inside⟩ := mem_flatMap.mp (mem_of_getElem? found)
    rcases mem_append.mp inside with inLine | ending
    · simp [isOpen, (built.marked.secretLines line inLines).2 octet inLine]
    · rw [(by decide : ∀ octet ∈ crlf, octet.secret = false) octet ending] at secret
      cases secret
  · exact absurd ending not_secret_crlf
  · exact built.covered.mpr (.inl (.inr body))

theorem isOpen_of_covered (covered : Covered result.spans position) :
    At isOpen parts.data position := by
  rcases built.covered.mp covered with (line | body) | fromUrl
  · exact at_data.mpr (.inr (.inl line))
  · refine at_data.mpr (.inr (.inr (.inr (at_mono ?_ body))))
    intro octet member _
    simp [isOpen, built.marked.body octet member]
  · exact (spare_of_inPlace inPlace fromUrl).isOpen built.marked

theorem disjoint_of_inPlace : result.spans.Pairwise Span.Disjoint := by
  have lines := parts.headerBytes_length
  have apart : (redactionSpans parts substituted).Pairwise Span.Disjoint := by
    refine pairwise_disjoint_append (pairwise_disjoint_append (lineSpans_apart _ _) ?_ ?_) ?_ ?_
    · exact (pairwise_shift built.bodyParts.apart _).filter _
    · intro position line body
      rw [lineSpans_covered fun line member => (built.marked.secretLines line member).2,
        parts.secretHeadersStart_eq] at line
      rw [covered_filter_nonempty, covered_shift, built.bodyParts.covered] at body
      have early := at_bounds line
      have late := at_bounds body
      omega
    · exact built.urlParts.apart.filter _
    · intro position settled fromUrl
      rw [covered_filter_nonempty, built.urlParts.covered] at fromUrl
      have spare := spare_of_inPlace inPlace fromUrl
      exact spare.not_settled
        ((covered_settled built.marked built.bodyParts).mp settled)
  exact apart.perm built.spans.symm fun disjoint => disjoint.symm

theorem spares_of_inPlace
    (guarded : At Octet.guarded result.data position) : ¬ Covered result.spans position := by
  rw [built.data] at guarded
  have closed : ¬ At isOpen parts.data position :=
    not_at_of_at (fun octet guarded => by simp [isOpen, guarded]) guarded
  exact fun covered => closed (built.isOpen_of_covered inPlace covered)

theorem redacted_of_inPlace : Redacted result where
  covers _ := built.covers_of_inPlace inPlace
  bounded := by
    have nonempty : ∀ span ∈ result.spans, 0 < span.length := fun span member =>
      nonempty_redactionSpans built.marked span (built.spans.mem_iff.mp member)
    intro span member
    exact ⟨Int.le_of_lt (nonempty span member),
      bounded_of_covered nonempty (fun _ covered => by
        rw [built.data]
        exact at_bounds (built.isOpen_of_covered inPlace covered)) span member⟩
  disjoint := built.disjoint_of_inPlace inPlace
  spares _ := built.spares_of_inPlace inPlace

end InPlace

theorem url_apart (redacted : Redacted result)
    (fromUrl : At Octet.secret substituted.url (position + authorityOffset parts.method url)) :
    ¬ parts.Settled position := by
  have apart : (redactionSpans parts substituted).Pairwise Span.Disjoint :=
    redacted.disjoint.perm built.spans fun disjoint => disjoint.symm
  rw [← covered_settled built.marked built.bodyParts]
  exact fun settled => apart_of_pairwise apart settled
    (covered_filter_nonempty.mpr ((built.urlParts.covered position).mpr fromUrl))

theorem inPlace_of_redacted
    (redacted : Redacted result) : UrlSecretsInPlace parts substituted.url url where
  host octet member := by
    by_contra secret
    obtain ⟨position, sent, guarded⟩ :=
      host_front member (eq_true_of_ne_false secret)
    have covers := redacted.covers position
    have spares := redacted.spares position
    rw [built.data] at covers spares
    exact spares (at_data.mpr (.inl guarded))
      (covers (at_data.mpr (.inl sent)))
  sent place secret := by
    have front := target_front secret
    have covers := redacted.covers (place + (parts.method.length + 1))
    rw [built.data] at covers
    rcases built.covered.mp (covers (at_data.mpr (.inl front))) with settled | fromUrl
    · exact absurd settled (not_settled_of_front front)
    · rwa [authorityOffset_place] at fromUrl
  placed place secret := by
    have covered := built.covered_place secret
    have inside := covered_of_bounded (fun span member => (redacted.bounded span member).2) covered
    have shown : ¬ At Octet.guarded result.data _ := fun guarded =>
      redacted.spares _ guarded covered
    rw [← authorityOffset_place parts.method] at secret
    refine spare_of_isOpen ?_ (built.url_apart redacted secret)
    rw [← built.data]
    exact at_of_not_at (fun octet shown => by simp [isOpen, shown]) inside.1 inside.2 shown

end Built

/-! ### Accepted requests -/

theorem requestParts_marked {params : HTTPProviderParams} {secret : HTTPProviderSecretParams}
    {secretLines : List (List Octet)} {substituted : SubstituteResult} {url : Url}
    (lines : secretHeaders secret = .ok secretLines)
    (body : Exact substituted.body substituted.hiddenBodyParts) :
    (requestParts params secretLines substituted url).Marked where
  publicLines line member octet inside := by
    obtain ⟨header, _, rfl⟩ := mem_map.mp member
    exact (mem_plain inside).1
  secretLines := secretHeaders_lines lines
  body := body.isOpen

theorem map_sensitive (spans : List Span) : (spans.map sensitive).map (·.span) = spans := by
  rw [map_map]
  exact map_id spans

theorem createRequest_built {secret : HTTPProviderSecretParams} {params : HTTPProviderParams}
    {result : CreateRequestResult} (accepted : createRequest secret params = .ok result) :
    ∃ secretLines substituted url, secretHeaders secret = .ok secretLines ∧
      substituteParamValues params secret.paramValues false = .ok substituted ∧
      parse substituted.url = some url ∧
      Built result (requestParts params secretLines substituted url) substituted url := by
  unfold createRequest at accepted
  simp only [eq_ok_iff] at accepted
  obtain ⟨_, _, secretLines, lines, _, _, _, _, substituted, substitution, accepted⟩ := accepted
  split at accepted
  · cases accepted
  rename_i url parsed
  simp only [eq_ok_iff] at accepted
  obtain ⟨_, _, rfl⟩ := accepted
  obtain ⟨method, urlParts, bodyParts⟩ := substituteParamValues_exact substitution parsed
  refine ⟨secretLines, substituted, url, lines, substitution, parsed, ?_⟩
  exact
    { marked := requestParts_marked lines bodyParts
      bodyParts := bodyParts
      urlParts := by
        rw [← method] at urlParts
        exact urlParts
      data := rfl
      spans := by
        unfold CreateRequestResult.spans
        rw [map_sensitive]
        exact perm_insertionSort _ _ }

def SecretsInPlace (secret : HTTPProviderSecretParams) (params : HTTPProviderParams) : Prop :=
  ∀ secretLines substituted url, secretHeaders secret = .ok secretLines →
    substituteParamValues params secret.paramValues false = .ok substituted →
    parse substituted.url = some url →
    UrlSecretsInPlace (requestParts params secretLines substituted url) substituted.url url

/-- A GET request with a secret path segment. -/
def sampleParams : HTTPProviderParams where
  url := ascii "https://h.example/\x7b\x7bs\x7d\x7d"
  method := ascii "GET"
  geoLocation := []
  headers := []
  body := .absent
  paramValues := []
  responseMatches := []
  responseRedactions := []

def sampleSecrets (value : String) : HTTPProviderSecretParams where
  cookieStr := ascii "c=1"
  authorisationHeader := []
  headers := []
  paramValues := [(ascii "s", ascii value)]

theorem sampleSecrets_inPlace : SecretsInPlace (sampleSecrets "ab") sampleParams := by
  intro secretLines substituted url _ substitution parsed
  have computed : substituteParamValues sampleParams (sampleSecrets "ab").paramValues false =
      .ok { url := plain (ascii "https://h.example/") ++ hidden (ascii "ab")
            method := ascii "GET"
            body := []
            hiddenBodyParts := []
            hiddenURLParts := [{ start := 5, length := 2 }]
            responseRedactions := [] } := by
    decide +kernel
  obtain rfl := Except.ok.inj (computed.symm.trans substitution)
  have found : (parse (plain (ascii "https://h.example/") ++ hidden (ascii "ab"))).map
      (fun url => (url.scheme.length + url.host.length, requestTarget url, getHostHeaderString url)) =
      some (14, plain (ascii "/") ++ hidden (ascii "ab"), plain (ascii "h.example")) := by
    decide +kernel
  rw [parsed] at found
  simp only [Option.map_some, Option.some.injEq, Prod.mk.injEq] at found
  obtain ⟨lengths, target, host⟩ := found
  refine urlSecretsInPlace_of_asWritten (plain (ascii "https://h.example"))
    (plain (ascii "/") ++ hidden (ascii "ab")) [] [] _ ?_ ?_ ?_ ?_ ?_
  · decide +kernel
  · exact target.trans (append_nil _).symm
  · have front : (plain (ascii "https://h.example")).length = 17 := by
      decide +kernel
    omega
  · decide +kernel
  · change ∀ octet ∈ _ ++ getHostHeaderString url, octet.secret = false
    rw [host]
    decide +kernel

theorem redacted_iff_secretsInPlace {secret : HTTPProviderSecretParams} {params : HTTPProviderParams}
    {result : CreateRequestResult} (accepted : createRequest secret params = .ok result) :
    Redacted result ↔ SecretsInPlace secret params := by
  obtain ⟨secretLines, substituted, url, lines, substitution, parsed, built⟩ :=
    createRequest_built accepted
  constructor
  · intro redacted otherLines other otherUrl sameLines sameSubstitution sameUrl
    obtain rfl := Except.ok.inj (lines.symm.trans sameLines)
    obtain rfl := Except.ok.inj (substitution.symm.trans sameSubstitution)
    obtain rfl := Option.some.inj (parsed.symm.trans sameUrl)
    exact built.inPlace_of_redacted redacted
  · intro inPlace
    exact built.redacted_of_inPlace (inPlace secretLines substituted url lines substitution parsed)

theorem redacted_iff_secretsInPlace_sample :
    ∃ result, createRequest (sampleSecrets "ab") sampleParams = .ok result ∧ Redacted result := by
  have accepted : (createRequest (sampleSecrets "ab") sampleParams).isOk = true := by
    decide +kernel
  cases outcome : createRequest (sampleSecrets "ab") sampleParams with
  | error message =>
    rw [outcome] at accepted
    cases accepted
  | ok result =>
    exact ⟨result, rfl, (redacted_iff_secretsInPlace outcome).mpr sampleSecrets_inPlace⟩

/-- A blank in a secret path segment is sent as three bytes; the range covers as many
bytes as the secret has. -/
theorem escaped_secret_sent_unredacted :
    ∃ result, createRequest (sampleSecrets "a b") sampleParams = .ok result ∧
      ¬ Redacted result := by
  have leaks : (createRequest (sampleSecrets "a b") sampleParams).toOption.any (fun result =>
      result.data[9]?.any Octet.secret && !decide (Covered result.spans 9)) = true := by
    decide +kernel
  cases outcome : createRequest (sampleSecrets "a b") sampleParams with
  | error message =>
    rw [outcome] at leaks
    cases leaks
  | ok result =>
    rw [outcome] at leaks
    obtain ⟨secret, uncovered⟩ := Bool.and_eq_true_iff.mp leaks
    obtain ⟨octet, found, isSecret⟩ := Option.any_eq_true .. |>.mp secret
    refine ⟨result, rfl, fun redacted => ?_⟩
    have covered := redacted.covers 9 ⟨9, octet, rfl, found, isSecret⟩
    rw [decide_eq_true covered] at uncovered
    cases uncovered

end ReclaimTee.Providers
