import VgiRpc.Identity.Xfcc

/-!
# The coding of a response

`choose_codec` reads `X-VGI-Accept-Encoding` and `Accept-Encoding` as lists of codings in the
order of the client's preference, without their weights, and takes the first one that it knows.
-/

namespace VgiRpc.Http.ResponseCodec

open VgiRpc.Cpp VgiRpc.Identity

/-! ## The choice -/

def isBlank (byte : UInt8) : Bool := byte == 0x20 || byte == 0x09

/-- A text without the spaces and tabs around it. -/
def trimBlanks (text : Bytes) : Bytes := ((text.dropWhile isBlank).reverse.dropWhile isBlank).reverse

/-- The coding that one piece of a list names, if it names one. -/
def acceptToken (piece : Bytes) : Option Bytes :=
  let token := trimBlanks (piece.takeWhile (· != 0x3b))
  if token = [] then none else some (lowerAscii token)

/-- `parse_accept_encoding`. -/
def parseAcceptEncoding (raw : Bytes) : List Bytes := (raw.splitOn 0x2c).filterMap acceptToken

/-- `accepts`. -/
def accepts (list : List Bytes) (codec : Bytes) : Bool := list.contains codec

def identity : Bytes := ascii "identity"

def zstd : Bytes := ascii "zstd"

def gzip : Bytes := ascii "gzip"

/-- The first values of `X-VGI-Accept-Encoding` and `Accept-Encoding`, where a request has them. -/
structure AcceptHeaders where
  vgi : Option Bytes
  standard : Option Bytes

/-- `CodecChoice`.  The empty codec is identity. -/
structure CodecChoice where
  codec : Bytes := []
  standardHeader : Bool := true
  deriving DecidableEq, Repr

/-- The codings of the custom header and, behind them, those that only the standard one has. -/
def preferredCodings (headers : AcceptHeaders) : List Bytes :=
  match headers.vgi with
  | some vgi =>
      (parseAcceptEncoding (headers.standard.getD [])).foldl
        (fun preferred token => if accepts preferred token then preferred else preferred ++ [token])
        (parseAcceptEncoding vgi)
  | none => parseAcceptEncoding (headers.standard.getD [])

/-- The loop over the preferred codings. -/
def firstKnown (standard : List Bytes) : List Bytes → CodecChoice
  | [] => {}
  | token :: rest =>
      if token = identity then {}
      else if token ≠ zstd ∧ token ≠ gzip then firstKnown standard rest
      else ⟨token, accepts standard token⟩

/-- `choose_codec`. -/
def chooseCodec (headers : AcceptHeaders) (compressionEnabled : Bool) : CodecChoice :=
  if compressionEnabled = false then {}
  else firstKnown (parseAcceptEncoding (headers.standard.getD [])) (preferredCodings headers)

/-- A body with the header that announces its coding. -/
structure ArrowContent where
  encoding : Option (Bytes × Bytes)
  body : Bytes
  deriving DecidableEq, Repr

/-- `set_arrow_content`, with the two libraries that compress. -/
def setArrowContent (zstdCompress gzipCompress : Bytes → Option Bytes) (headers : AcceptHeaders)
    (compression : Bool) (body : Bytes) : ArrowContent :=
  let choice := chooseCodec headers compression
  let compressed :=
    if choice.codec = zstd ∧ body ≠ [] then zstdCompress body
    else if choice.codec = gzip ∧ body ≠ [] then gzipCompress body
    else none
  match compressed with
  | none => ⟨none, body⟩
  | some coded =>
      let header := if choice.standardHeader then "Content-Encoding" else "X-VGI-Content-Encoding"
      ⟨some (ascii header, choice.codec), coded⟩

/-! ## Weights -/

/-- `0`, or `0.` and up to three zeros. -/
def isZero : Bytes → Bool
  | 0x30 :: 0x2e :: zeros => zeros.length ≤ 3 && zeros.all (· == 0x30)
  | value => value == [0x30]

/-- The parameter `q` with the value zero. -/
def isZeroWeight (parameter : Bytes) : Bool :=
  match trimBlanks parameter with
  | name :: 0x3d :: value => (name == 0x71 || name == 0x51) && isZero value
  | _ => false

/-- Whether a piece of a list excludes its coding. -/
def excludes (piece : Bytes) : Bool :=
  (((piece.dropWhile (· != 0x3b)).drop 1).splitOn 0x3b).any isZeroWeight

/-- The codings that a header lists, each with whether it is excluded there. -/
def weighted (raw : Bytes) : List (Bytes × Bool) :=
  (raw.splitOn 0x2c).filterMap fun piece => (acceptToken piece).map fun token => (token, excludes piece)

/-- The header that decides about a coding: the custom one where that lists it. -/
def deciding (headers : AcceptHeaders) (coding : Bytes) : Bytes :=
  if coding ∈ parseAcceptEncoding (headers.vgi.getD []) then headers.vgi.getD []
  else headers.standard.getD []

/-- A header accepts a coding that it lists with a weight, and nowhere with the weight zero. -/
def Accepts (raw coding : Bytes) : Prop := (coding, false) ∈ weighted raw ∧ (coding, true) ∉ weighted raw

/-- The codings of a request, in the order of preference. -/
def offered (headers : AcceptHeaders) : List Bytes :=
  parseAcceptEncoding (headers.vgi.getD []) ++ parseAcceptEncoding (headers.standard.getD [])

/-- Identity comes before every supported coding. -/
def IdentityPreferred (headers : AcceptHeaders) : Prop :=
  ∃ front rest, offered headers = front ++ identity :: rest ∧ zstd ∉ front ∧ gzip ∉ front

/-- The coding is one that the client accepts, and is announced where the client accepts it. -/
structure Respects (headers : AcceptHeaders) (choice : CodecChoice) : Prop where
  accepted : choice.codec ≠ [] →
    (choice.codec, false) ∈ weighted (deciding headers choice.codec) ∧
      (choice.codec, true) ∉ weighted (headers.vgi.getD []) ∧
      (choice.codec, true) ∉ weighted (headers.standard.getD [])
  uncoded : IdentityPreferred headers → choice.codec = []
  announced : choice.codec ≠ [] →
    (choice.standardHeader = true ↔ Accepts (headers.standard.getD []) choice.codec)

/-- No supported coding is excluded. -/
def NoneExcluded (headers : AcceptHeaders) : Prop :=
  ∀ codec, codec = zstd ∨ codec = gzip →
    (codec, true) ∉ weighted (headers.vgi.getD []) ∧ (codec, true) ∉ weighted (headers.standard.getD [])

/-- What holds of the choice, whatever the weights. -/
structure Negotiated (headers : AcceptHeaders) (choice : CodecChoice) : Prop where
  /-- The coding is identity, or a supported one that the header that decides lists. -/
  listed : choice.codec ≠ [] → (choice.codec = zstd ∨ choice.codec = gzip) ∧
    choice.codec ∈ parseAcceptEncoding (deciding headers choice.codec)
  uncoded : IdentityPreferred headers → choice.codec = []
  /-- The standard header announces exactly what it lists. -/
  announced : choice.codec ≠ [] →
    (choice.standardHeader = true ↔ choice.codec ∈ parseAcceptEncoding (headers.standard.getD []))
  /-- Where no supported coding is excluded, the choice respects the weights. -/
  respects : NoneExcluded headers → Respects headers choice

/-- The body is sent as it is, or coded as chosen and announced. -/
def SentAs (choice : CodecChoice) (zstdCompress gzipCompress : Bytes → Option Bytes) (body : Bytes)
    (content : ArrowContent) : Prop :=
  content = ⟨none, body⟩ ∨
    ∃ coded, (choice.codec = zstd ∧ zstdCompress body = some coded ∨
        choice.codec = gzip ∧ gzipCompress body = some coded) ∧
      content = ⟨some (ascii (if choice.standardHeader then "Content-Encoding"
        else "X-VGI-Content-Encoding"), choice.codec), coded⟩

/-! ## The first known coding -/

section Choice

variable {headers : AcceptHeaders} {standard tokens : List Bytes} {token raw : Bytes}

/-- What the loop stops at. -/
def known (token : Bytes) : Bool := token == identity || token == zstd || token == gzip

/-- The choice that a token stands for. -/
def choiceOf (standard : List Bytes) (token : Bytes) : CodecChoice :=
  if token = identity then {} else ⟨token, accepts standard token⟩

theorem firstKnown_eq : firstKnown standard tokens =
    ((tokens.find? known).map (choiceOf standard)).getD {} := by
  induction tokens with
  | nil => rfl
  | cons token rest inductionHypothesis =>
      rw [firstKnown, List.find?_cons]
      by_cases plain : token = identity
      · subst plain
        rfl
      · rw [if_neg plain]
        by_cases other : token ≠ zstd ∧ token ≠ gzip
        · have unknown : known token = false := by simp [known, plain, other.1, other.2]
          rw [if_pos other, unknown, inductionHypothesis]
        · have found : known token = true := by
            rw [← not_or, not_not] at other
            rcases other with rfl | rfl
            · decide
            · decide
          rw [if_neg other, found, Option.map_some, Option.getD_some, choiceOf, if_neg plain]

/-- Tokens that are already there do not change the first known one. -/
theorem find?_foldl (preferred standard : List Bytes) :
    (standard.foldl (fun preferred token =>
        if accepts preferred token then preferred else preferred ++ [token]) preferred).find? known =
      (preferred ++ standard).find? known := by
  induction standard generalizing preferred with
  | nil => rw [List.foldl_nil, List.append_nil]
  | cons token standard inductionHypothesis =>
      rw [List.foldl_cons, inductionHypothesis]
      split
      next there =>
          rw [List.find?_append, List.find?_append, List.find?_cons]
          cases isKnown : known token with
          | false => rfl
          | true =>
              have found : (preferred.find? known).isSome = true :=
                List.find?_isSome.mpr ⟨token, List.contains_iff_mem.mp there, isKnown⟩
              obtain ⟨first, isFirst⟩ := Option.isSome_iff_exists.mp found
              rw [isFirst]
              rfl
      next => rw [List.append_assoc, List.singleton_append]

theorem find?_preferredCodings : (preferredCodings headers).find? known = (offered headers).find? known := by
  rw [preferredCodings, offered]
  cases headers.vgi with
  | none => rfl
  | some vgi => exact find?_foldl _ _

/-- The choice is that of the first known coding that is offered. -/
theorem chooseCodec_eq (headers : AcceptHeaders) : chooseCodec headers true =
    (((offered headers).find? known).map
      (choiceOf (parseAcceptEncoding (headers.standard.getD [])))).getD {} := by
  rw [chooseCodec, if_neg (by decide), firstKnown_eq, find?_preferredCodings]

/-- A choice of another coding than identity. -/
theorem chosen_of_ne {compression : Bool} (coded : (chooseCodec headers compression).codec ≠ []) :
    ∃ token, (offered headers).find? known = some token ∧ token ≠ identity ∧
      chooseCodec headers compression =
        ⟨token, accepts (parseAcceptEncoding (headers.standard.getD [])) token⟩ := by
  cases compression with
  | false => exact absurd rfl coded
  | true =>
      rw [chooseCodec_eq] at coded ⊢
      cases found : (offered headers).find? known with
      | none =>
          rw [found] at coded
          exact absurd rfl coded
      | some token =>
          rw [found, Option.map_some, Option.getD_some, choiceOf] at coded
          by_cases plain : token = identity
          · rw [if_pos plain] at coded
            exact absurd rfl coded
          · refine ⟨token, rfl, plain, ?_⟩
            rw [Option.map_some, Option.getD_some, choiceOf, if_neg plain]

/-- The codings of a header are those that it lists with their weights. -/
theorem weighted_fst (raw : Bytes) : (weighted raw).map Prod.fst = parseAcceptEncoding raw := by
  rw [weighted, parseAcceptEncoding, List.map_filterMap]
  apply List.filterMap_congr
  intro piece _
  cases acceptToken piece with
  | none => rfl
  | some token => rfl

theorem mem_weighted_of_mem (listed : token ∈ parseAcceptEncoding raw)
    (included : (token, true) ∉ weighted raw) : (token, false) ∈ weighted raw := by
  rw [← weighted_fst] at listed
  obtain ⟨⟨coding, excluded⟩, member, rfl⟩ := List.mem_map.mp listed
  cases excluded with
  | false => exact member
  | true => exact absurd member included

theorem mem_of_mem_weighted {excluded : Bool} (listed : (token, excluded) ∈ weighted raw) :
    token ∈ parseAcceptEncoding raw := by
  rw [← weighted_fst]
  exact List.mem_map_of_mem listed

theorem mem_deciding (listed : token ∈ offered headers) :
    token ∈ parseAcceptEncoding (deciding headers token) := by
  rw [deciding]
  split
  next custom => exact custom
  next absent => exact (List.mem_append.mp listed).resolve_left absent

/-- The coding of a choice is one that the server knows, and is offered. -/
theorem codec_offered {compression : Bool} (coded : (chooseCodec headers compression).codec ≠ []) :
    ((chooseCodec headers compression).codec = zstd ∨ (chooseCodec headers compression).codec = gzip) ∧
      (chooseCodec headers compression).codec ∈ offered headers := by
  obtain ⟨token, found, plain, choice⟩ := chosen_of_ne coded
  rw [choice]
  have isKnown := List.find?_some found
  simp only [known, Bool.or_eq_true, beq_iff_eq] at isKnown
  exact ⟨(or_assoc.mp isKnown).resolve_left plain, List.mem_of_find?_eq_some found⟩

theorem uncoded_of_preferred {compression : Bool} (preferred : IdentityPreferred headers) :
    (chooseCodec headers compression).codec = [] := by
  by_contra coded
  obtain ⟨token, found, plain, -⟩ := chosen_of_ne coded
  obtain ⟨front, rest, order, noZstd, noGzip⟩ := preferred
  rw [order, List.find?_append, List.find?_cons_of_pos (by decide)] at found
  cases first : front.find? known with
  | none =>
      rw [first, Option.none_or, Option.some.injEq] at found
      exact plain found.symm
  | some other =>
      rw [first, Option.some_or, Option.some.injEq] at found
      subst found
      have isKnown := List.find?_some first
      have member := List.mem_of_find?_eq_some first
      simp only [known, Bool.or_eq_true, beq_iff_eq] at isKnown
      rcases isKnown with (rfl | rfl) | rfl
      · exact plain rfl
      · exact noZstd member
      · exact noGzip member

theorem announced_iff {compression : Bool} (coded : (chooseCodec headers compression).codec ≠ []) :
    (chooseCodec headers compression).standardHeader = true ↔
      (chooseCodec headers compression).codec ∈ parseAcceptEncoding (headers.standard.getD []) := by
  obtain ⟨token, -, -, choice⟩ := chosen_of_ne coded
  rw [choice, accepts, List.contains_iff_mem]

/-- Without exclusions of supported codings the weights are respected. -/
theorem respects_of_noneExcluded {compression : Bool} (included : NoneExcluded headers) :
    Respects headers (chooseCodec headers compression) where
  accepted coded := by
    obtain ⟨supported, isOffered⟩ := codec_offered coded
    obtain ⟨noCustom, noStandard⟩ := included _ supported
    refine ⟨mem_weighted_of_mem (mem_deciding isOffered) ?_, noCustom, noStandard⟩
    rw [deciding]
    split
    next => exact noCustom
    next => exact noStandard
  uncoded := uncoded_of_preferred
  announced coded := by
    obtain ⟨supported, -⟩ := codec_offered coded
    obtain ⟨-, noStandard⟩ := included _ supported
    rw [announced_iff coded]
    constructor
    · intro listed
      exact ⟨mem_weighted_of_mem listed noStandard, noStandard⟩
    · rintro ⟨listed, -⟩
      exact mem_of_mem_weighted listed

theorem setArrowContent_sentAs (headers : AcceptHeaders) (compression : Bool)
    (zstdCompress gzipCompress : Bytes → Option Bytes) (body : Bytes) :
    SentAs (chooseCodec headers compression) zstdCompress gzipCompress body
      (setArrowContent zstdCompress gzipCompress headers compression body) := by
  rw [setArrowContent]
  dsimp only
  split
  next => exact .inl rfl
  next coded compressed =>
      refine .inr ⟨coded, ?_, rfl⟩
      split at compressed
      next isZstd => exact .inl ⟨isZstd.1, compressed⟩
      next =>
          split at compressed
          next isGzip => exact .inr ⟨isGzip.1, compressed⟩
          next => cases compressed

/-- Every choice is of what the client lists, and announced where it is listed.  The weights are
respected where they exclude nothing that the server knows. -/
theorem chooseCodec_negotiated (headers : AcceptHeaders) (compression : Bool) :
    Negotiated headers (chooseCodec headers compression) ∧
      ∀ zstdCompress gzipCompress body, SentAs (chooseCodec headers compression) zstdCompress
        gzipCompress body (setArrowContent zstdCompress gzipCompress headers compression body) := by
  refine ⟨⟨?_, uncoded_of_preferred, announced_iff, respects_of_noneExcluded⟩,
    setArrowContent_sentAs headers compression⟩
  intro coded
  obtain ⟨supported, isOffered⟩ := codec_offered coded
  exact ⟨supported, mem_deciding isOffered⟩

/-- The weight zero is dropped like any other. -/
theorem gzip_excluded_chosen :
    chooseCodec ⟨none, some (ascii "gzip;q=0")⟩ true = ⟨gzip, true⟩ ∧
      ¬Respects ⟨none, some (ascii "gzip;q=0")⟩ (chooseCodec ⟨none, some (ascii "gzip;q=0")⟩ true) := by
  have chosen : chooseCodec ⟨none, some (ascii "gzip;q=0")⟩ true = ⟨gzip, true⟩ := by decide
  refine ⟨chosen, ?_⟩
  rw [chosen]
  intro respects
  have coded : gzip ≠ [] := by decide
  exact absurd (respects.accepted coded).2.2 (by decide)

end Choice

end VgiRpc.Http.ResponseCodec
