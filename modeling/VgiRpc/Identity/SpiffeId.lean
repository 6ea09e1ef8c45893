import VgiRpc.Identity.Xfcc
import VgiRpc.Lib.DotSegments
import VgiRpc.Lib.PercentEncoding
import VgiRpc.Lib.UriReference

/-!
# SPIFFE identifiers

`validate_spiffe_id` returns the trust domain of a workload identity.  Its checks overlap;
together they accept the texts of a grammar, in which every identity has one spelling.
-/

namespace VgiRpc.Identity

open VgiRpc.Cpp VgiRpc.Lib

/-! ## The code -/

/-- `validate_spiffe_id`. -/
def validateSpiffeId (value : Bytes) (trustDomains : List Bytes) : Except String Bytes :=
  if trustDomains.all validTrustDomain = false then .error "invalid SPIFFE trust domain"
  else validateId value trustDomains

/-- In a path that does not end with a slash, the loop visits every segment. -/
theorem validSegments_eq {segment path : Bytes} (plain : (0x2f : UInt8) ∉ segment)
    (nonempty : segment ++ path ≠ []) (ends : (segment ++ path).getLast? ≠ some 0x2f) :
    validSegments segment path = (segments (segment ++ path)).all validSegment := by
  induction path generalizing segment with
  | nil =>
      rw [List.append_nil] at nonempty
      rw [validSegments, List.append_nil, segments_single plain, List.all_cons, List.all_nil,
        Bool.and_true, beq_false_of_ne nonempty, Bool.false_or]
  | cons byte path ih =>
      by_cases slash : byte = 0x2f
      · subst slash
        have present : path ≠ [] := by
          rintro rfl
          rw [List.getLast?_append] at ends
          exact ends rfl
        have last : path.getLast? ≠ some 0x2f := by
          rwa [List.getLast?_append, List.getLast?_cons_of_ne_nil present,
            Option.or_of_isSome (by simpa using present)] at ends
        rw [validSegments, if_pos rfl, ih List.not_mem_nil present last, List.nil_append,
          segments_cut plain, List.all_cons]
      · have still : (0x2f : UInt8) ∉ segment ++ [byte] := by
          rw [List.mem_append, List.mem_singleton, not_or]
          exact ⟨plain, fun same => slash same.symm⟩
        rw [List.append_cons] at nonempty ends ⊢
        rw [validSegments, if_neg slash, ih still nonempty ends]

/-- Behind the first slash of the path, the loop visits every segment. -/
theorem validSegments_drop {path : Bytes} (long : ¬path.length < 2)
    (ends : path.getLast? ≠ some 0x2f) :
    validSegments [] (path.drop 1) = (segments (path.drop 1)).all validSegment := by
  apply validSegments_eq List.not_mem_nil
  · rw [List.nil_append, ne_eq, List.drop_eq_nil_iff]
    omega
  · rwa [List.nil_append, List.getLast?_drop, if_neg (by omega)]

/-! ## The grammar -/

/-- `a` to `z`, `0` to `9`, `.`, `-` or `_`. -/
def IsDomainByte (byte : UInt8) : Prop :=
  isLower byte = true ∨ isDigit byte = true ∨ byte ∈ ascii ".-_"

/-- `A` to `Z`, `a` to `z`, `0` to `9`, `.`, `-` or `_`. -/
def IsSegmentByte (byte : UInt8) : Prop := isAlnum byte = true ∨ byte ∈ ascii ".-_"

/-- 1 to 255 characters, the first and the last of them alphanumeric. -/
structure IsTrustDomain (domain : Bytes) : Prop where
  present : domain ≠ []
  size : domain.length ≤ 255
  bytes : ∀ byte ∈ domain, IsDomainByte byte
  first : ∀ byte ∈ domain.head?, isAlnum byte = true
  last : ∀ byte ∈ domain.getLast?, isAlnum byte = true

structure IsSegment (segment : Bytes) : Prop where
  present : segment ≠ []
  name : ¬IsDot segment
  bytes : ∀ byte ∈ segment, IsSegmentByte byte

/-- A workload: a trust domain, and at least one segment behind it. -/
structure SpiffeId where
  domain : Bytes
  path : List Bytes
  isDomain : IsTrustDomain domain
  present : path ≠ []
  areSegments : ∀ segment ∈ path, IsSegment segment

/-- `spiffe://d/s1/.../sn`. -/
def SpiffeId.text (id : SpiffeId) : Bytes := spiffeScheme ++ (id.domain ++ joinSegments id.path)

section Bytes

variable {byte : UInt8}

theorem alnum_iff_of_domain (domain : IsDomainByte byte) :
    isAlnum byte = true ↔ isLower byte = true ∨ isDigit byte = true := by
  have every := forall_byte (fun byte => !(isLower byte || isDigit byte || byte ∈ ascii ".-_") ||
    (isAlnum byte == (isLower byte || isDigit byte))) (by decide) byte
  have known : (isLower byte || isDigit byte || decide (byte ∈ ascii ".-_")) = true := by
    rcases domain with lower | digit | mark <;> simp [*]
  rw [known, Bool.not_true, Bool.false_or, beq_iff_eq] at every
  rw [every, Bool.or_eq_true]

/-- The bytes of a domain are bytes of segments, in lower case. -/
theorem segment_of_domain (domain : IsDomainByte byte) : IsSegmentByte byte ∧ toLower byte = byte := by
  have every := forall_byte (fun byte => !(isLower byte || isDigit byte || byte ∈ ascii ".-_") ||
    ((isAlnum byte || byte ∈ ascii ".-_") && toLower byte == byte)) (by decide) byte
  have known : (isLower byte || isDigit byte || decide (byte ∈ ascii ".-_")) = true := by
    rcases domain with lower | digit | mark <;> simp [*]
  rw [known, Bool.not_true, Bool.false_or, Bool.and_eq_true, Bool.or_eq_true, decide_eq_true_eq,
    beq_iff_eq] at every
  exact every

/-- The bytes of segments are printable, and none of the marks of a URI. -/
theorem segment_plain (segment : IsSegmentByte byte) :
    0x20 < byte ∧ byte ≤ 0x7e ∧ byte ∉ ascii "%/:?#@" := by
  have every := forall_byte (fun byte => !(isAlnum byte || byte ∈ ascii ".-_") ||
    decide (0x20 < byte ∧ byte ≤ 0x7e ∧ byte ∉ ascii "%/:?#@")) (by decide) byte
  have known : (isAlnum byte || decide (byte ∈ ascii ".-_")) = true := by
    rcases segment with letter | mark <;> simp [*]
  rw [known, Bool.not_true, Bool.false_or] at every
  exact of_decide_eq_true every

end Bytes

/-! ## Acceptance -/

theorem validTrustDomain_iff {domain : Bytes} :
    validTrustDomain domain = true ↔ IsTrustDomain domain := by
  cases first : domain.head? with
  | none =>
      rw [List.head?_eq_none_iff] at first
      subst first
      exact iff_of_false (by decide) (fun valid => valid.present rfl)
  | some head =>
      have nonempty : domain ≠ [] := by
        rintro rfl
        cases first
      cases last : domain.getLast? with
      | none => exact absurd (List.getLast?_eq_none_iff.mp last) nonempty
      | some final =>
          have headMember : head ∈ domain := List.mem_of_mem_head? first
          have finalMember : final ∈ domain := List.mem_of_mem_getLast? last
          simp only [validTrustDomain, first, last, Bool.and_eq_true, decide_eq_true_eq,
            List.all_eq_true, Bool.or_eq_true, beq_iff_eq]
          have bytes : (∀ byte ∈ domain, (((isLower byte = true ∨ isDigit byte = true) ∨
              byte = 0x2e) ∨ byte = 0x5f) ∨ byte = 0x2d) ↔ ∀ byte ∈ domain, IsDomainByte byte := by
            apply forall₂_congr
            intro byte _
            have marks : byte ∈ ascii ".-_" ↔ byte = 0x2e ∨ byte = 0x2d ∨ byte = 0x5f := by
              have list : ascii ".-_" = [0x2e, 0x2d, 0x5f] := by decide
              simp [list]
            rw [IsDomainByte, marks]
            tauto
          rw [bytes]
          constructor
          · rintro ⟨⟨⟨size, opens⟩, closes⟩, bytes⟩
            refine ⟨nonempty, size, bytes, ?_, ?_⟩
            · rw [first]
              rintro byte ⟨⟩
              exact (alnum_iff_of_domain (bytes head headMember)).mpr opens
            · rw [last]
              rintro byte ⟨⟩
              exact (alnum_iff_of_domain (bytes final finalMember)).mpr closes
          · rintro ⟨-, size, bytes, opens, closes⟩
            rw [first] at opens
            rw [last] at closes
            exact ⟨⟨⟨size, (alnum_iff_of_domain (bytes head headMember)).mp (opens head rfl)⟩,
              (alnum_iff_of_domain (bytes final finalMember)).mp (closes final rfl)⟩, bytes⟩

theorem validSegment_iff {segment : Bytes} : validSegment segment = true ↔ IsSegment segment := by
  have dots : segment ≠ ascii "." ∧ segment ≠ ascii ".." ↔ ¬IsDot segment := by
    rw [IsDot, not_or]
    rfl
  have bytes : (∀ byte ∈ segment, ((isAlnum byte = true ∨ byte = 0x2e) ∨ byte = 0x5f) ∨
      byte = 0x2d) ↔ ∀ byte ∈ segment, IsSegmentByte byte := by
    apply forall₂_congr
    intro byte _
    have list : ascii ".-_" = [0x2e, 0x2d, 0x5f] := by decide
    simp only [IsSegmentByte, list, List.mem_cons, List.not_mem_nil, or_false]
    tauto
  simp only [validSegment, Bool.and_eq_true, bne_iff_ne, List.all_eq_true, Bool.or_eq_true,
    beq_iff_eq, bytes]
  constructor
  · rintro ⟨⟨⟨present, dot⟩, dotDot⟩, letters⟩
    exact ⟨present, dots.mp ⟨dot, dotDot⟩, letters⟩
  · rintro ⟨present, name, letters⟩
    exact ⟨⟨⟨present, (dots.mpr name).1⟩, (dots.mpr name).2⟩, letters⟩

namespace SpiffeId

variable (id : SpiffeId)

theorem slash_not_mem_domain : (0x2f : UInt8) ∉ id.domain := by
  intro member
  exact (segment_plain (segment_of_domain (id.isDomain.bytes _ member)).1).2.2 (by decide)

theorem slash_not_mem_segment : ∀ segment ∈ id.path, (0x2f : UInt8) ∉ segment := by
  intro segment listed member
  exact (segment_plain ((id.areSegments segment listed).bytes _ member)).2.2 (by decide)

/-- The path behind its first slash. -/
theorem exists_path : ∃ rest, joinSegments id.path = 0x2f :: rest ∧ segments rest = id.path := by
  have split := segments_join id.present id.slash_not_mem_segment
  cases path : id.path with
  | nil => exact absurd path id.present
  | cons segment more =>
      refine ⟨_, joinSegments_cons segment more, ?_⟩
      rw [path, joinSegments_cons, segments_slash, List.cons.injEq] at split
      exact split.2

/-- Every byte behind the scheme is a slash or a byte of a segment. -/
theorem mem_body {byte : UInt8} (member : byte ∈ id.domain ++ joinSegments id.path) :
    byte = 0x2f ∨ IsSegmentByte byte := by
  rcases List.mem_append.mp member with domain | path
  · exact .inr (segment_of_domain (id.isDomain.bytes byte domain)).1
  · rw [joinSegments, List.mem_flatMap] at path
    rcases path with ⟨segment, listed, inside⟩
    rcases List.mem_cons.mp inside with rfl | inside
    · exact .inl rfl
    · exact .inr ((id.areSegments segment listed).bytes byte inside)

/-- The marks of userinfo, port, query, fragment and escapes do not occur behind the scheme. -/
theorem mark_not_mem_body {mark : UInt8} (listed : mark ∈ ascii "%:?#@") :
    mark ∉ id.domain ++ joinSegments id.path := by
  intro member
  rcases id.mem_body member with rfl | segment
  · exact absurd listed (by decide)
  · have apart := (segment_plain segment).2.2
    have more : mark ∈ ascii "%/:?#@" := by
      have marks : ascii "%:?#@" ⊆ ascii "%/:?#@" := by decide
      exact marks listed
    exact apart more

theorem text_printable {byte : UInt8} (member : byte ∈ id.text) : 0x20 < byte ∧ byte ≤ 0x7e := by
  rcases List.mem_append.mp member with scheme | body
  · have every : ∀ byte ∈ spiffeScheme, 0x20 < byte ∧ byte ≤ 0x7e := by decide
    exact every byte scheme
  · rcases id.mem_body body with rfl | segment
    · decide
    · exact ⟨(segment_plain segment).1, (segment_plain segment).2.1⟩

/-- A text does not end with a slash. -/
theorem getLast?_path : (joinSegments id.path).getLast? ≠ some 0x2f := by
  rcases List.eq_nil_or_concat' id.path with none | ⟨front, last, path⟩
  · exact absurd none id.present
  · have listed : last ∈ id.path := by
      rw [path]
      exact List.mem_concat_self
    have segment := id.areSegments last listed
    rw [path, joinSegments_append, joinSegments_cons, joinSegments_nil, List.append_nil,
      List.getLast?_append, List.getLast?_cons_of_ne_nil segment.present]
    intro slash
    cases final : last.getLast? with
    | none => exact segment.present (List.getLast?_eq_none_iff.mp final)
    | some byte =>
        rw [final, Option.some_or, Option.some.injEq] at slash
        subst slash
        exact id.slash_not_mem_segment last listed (List.mem_of_mem_getLast? final)

theorem dropWhile_body : (id.domain ++ joinSegments id.path).takeWhile (· != 0x2f) = id.domain ∧
    (id.domain ++ joinSegments id.path).dropWhile (· != 0x2f) = joinSegments id.path :=
  cut_eq (plain_all id.slash_not_mem_domain) (joinSegments_head id.path)

end SpiffeId

section Acceptance

variable {value domain : Bytes} {domains : List Bytes}

/-- What the checks of `validate_id` leave over. -/
theorem validateId_checked (accepted : validateId value domains = .ok domain) :
    ∃ behind, value = spiffeScheme ++ behind ∧ value.length ≤ 2048 ∧
      behind.takeWhile (· != 0x2f) = domain ∧ behind.dropWhile (· != 0x2f) ≠ [] ∧
      validTrustDomain domain = true ∧ domain ∈ domains ∧
      (segments ((behind.dropWhile (· != 0x2f)).drop 1)).all validSegment = true := by
  rw [validateId] at accepted
  split at accepted
  next => cases accepted
  next encoded =>
    simp only [not_or, not_lt, not_not] at encoded
    obtain ⟨-, size, -, -, behind, rfl⟩ := encoded
    dsimp only at accepted
    rw [List.drop_left] at accepted
    split at accepted
    next => cases accepted
    next =>
      split at accepted
      next => cases accepted
      next pathed =>
        split at accepted
        next => cases accepted
        next allowed =>
          split at accepted
          next => cases accepted
          next =>
            split at accepted
            next => cases accepted
            next closed =>
              rw [not_or] at closed
              split at accepted
              next => cases accepted
              next canonical =>
                rw [validSegments_drop closed.1 closed.2] at canonical
                rw [Except.ok.injEq] at accepted
                rw [accepted] at allowed
                simp only [not_or, not_not, Bool.not_eq_false] at allowed canonical
                exact ⟨behind, rfl, size, accepted, pathed, allowed.1, allowed.2.1, canonical⟩

/-- What `validate_id` accepts has the form of an identifier. -/
theorem exists_spiffeId_of_validateId (accepted : validateId value domains = .ok domain) :
    value.length ≤ 2048 ∧ domain ∈ domains ∧ ∃ id : SpiffeId, id.domain = domain ∧ id.text = value := by
  obtain ⟨behind, scheme, size, front, pathed, valid, listed, names⟩ := validateId_checked accepted
  have parts := @List.takeWhile_append_dropWhile _ (· != 0x2f) behind
  cases path : behind.dropWhile (· != 0x2f) with
  | nil => exact absurd path pathed
  | cons slash rest =>
      have stop := @stop_of_dropWhile _ (· != 0x2f) _ _ _ path
      obtain rfl : slash = 0x2f := bne_eq_false_iff_eq.mp stop
      rw [path] at parts names
      rw [List.drop_succ_cons, List.drop_zero, List.all_eq_true] at names
      have named : ∀ segment ∈ segments rest, IsSegment segment := by
        intro segment member
        exact validSegment_iff.mp (names segment member)
      have some : segments rest ≠ [] := List.splitOn_ne_nil _ _
      have body : domain ++ joinSegments (segments rest) = behind := by
        rw [joinSegments_segments, ← front, parts]
      refine ⟨size, listed, ⟨domain, segments rest, validTrustDomain_iff.mp valid, some, named⟩, rfl, ?_⟩
      exact (congrArg (spiffeScheme ++ ·) body).trans scheme.symm

/-- The text of an identifier passes every check. -/
theorem validateId_text {id : SpiffeId} (size : id.text.length ≤ 2048) (allowed : id.domain ∈ domains) :
    validateId id.text domains = .ok id.domain := by
  obtain ⟨rest, path, split⟩ := id.exists_path
  have printable : ∀ byte ∈ id.text, byte < 0x80 := by
    intro byte member
    exact UInt8.lt_of_le_of_lt (id.text_printable member).2 (by decide)
  have mark {byte : UInt8} (listed : byte ∈ ascii "%:?#@") :
      byte ∉ id.domain ∧ byte ∉ joinSegments id.path := by
    have absent := id.mark_not_mem_body listed
    rwa [List.mem_append, not_or] at absent
  have unescaped : percent ∉ id.text := by
    intro member
    rcases List.mem_append.mp member with scheme | body
    · exact absurd scheme (by decide)
    · exact id.mark_not_mem_body (by decide) body
  have shown : (id.text.any fun c => c < 0x20 || 0x7e < c) = false := by
    rw [List.any_eq_false]
    intro byte member
    have range := id.text_printable member
    rw [Bool.or_eq_true, decide_eq_true_eq, decide_eq_true_eq, not_or]
    exact ⟨UInt8.not_lt.mpr (UInt8.le_of_lt range.1), UInt8.not_lt.mpr range.2⟩
  have long : ¬(joinSegments id.path).length < 2 := by
    intro short
    have last := id.getLast?_path
    rw [path] at short last
    cases rest with
    | nil => exact last rfl
    | cons byte rest =>
        rw [List.length_cons, List.length_cons] at short
        omega
  have segmented : segments ((joinSegments id.path).drop 1) = id.path := by
    rw [path]
    exact split
  have names : id.path.all validSegment = true := by
    rw [List.all_eq_true]
    exact fun segment listed => validSegment_iff.mpr (id.areSegments segment listed)
  have body : id.text.drop spiffeScheme.length = id.domain ++ joinSegments id.path :=
    List.drop_left
  have nonempty : joinSegments id.path ≠ [] := by
    rw [path]
    exact List.cons_ne_nil _ _
  rw [validateId, if_neg, if_neg (by rw [shown]; decide)]
  · dsimp only
    rw [body, id.dropWhile_body.1, id.dropWhile_body.2, if_neg nonempty, if_neg, if_neg, if_neg,
      validSegments_drop long id.getLast?_path, segmented, if_neg (by rw [names]; decide)]
    · exact not_or.mpr ⟨long, id.getLast?_path⟩
    · exact not_or.mpr ⟨(mark (by decide)).2, (mark (by decide)).2⟩
    · simp only [not_or, not_not, Bool.not_eq_false]
      exact ⟨validTrustDomain_iff.mpr id.isDomain, allowed, (mark (by decide)).1, (mark (by decide)).1⟩
  · simp only [not_or, not_lt, not_not]
    refine ⟨List.append_ne_nil_of_left_ne_nil (by decide) _, size, ?_, unescaped,
      List.prefix_append _ _⟩
    rw [validUtf8_of_ascii printable]
    decide

/-- `validate_spiffe_id` accepts the texts of the grammar, if the allowed trust domains are in it. -/
theorem validateSpiffeId_ok_iff : validateSpiffeId value domains = .ok domain ↔
    (∀ allowed ∈ domains, IsTrustDomain allowed) ∧ value.length ≤ 2048 ∧ domain ∈ domains ∧
      ∃ id : SpiffeId, id.domain = domain ∧ id.text = value := by
  have checked : domains.all validTrustDomain = true ↔ ∀ allowed ∈ domains, IsTrustDomain allowed := by
    simp only [List.all_eq_true, validTrustDomain_iff]
  rw [validateSpiffeId, ← checked]
  split
  next invalid => exact iff_of_false nofun (by rw [invalid]; exact nofun)
  next valid =>
      rw [Bool.not_eq_false] at valid
      constructor
      · intro accepted
        exact ⟨valid, exists_spiffeId_of_validateId accepted⟩
      · rintro ⟨-, size, allowed, id, rfl, rfl⟩
        exact validateId_text size allowed

end Acceptance

/-! ## One spelling -/

/-- The host of an authority, without userinfo and port. -/
def hostOf (authority : Bytes) : Bytes :=
  (authority.reverse.takeWhile (· != 0x40)).reverse.takeWhile (· != 0x3a)

/-- The workload that a URI names, whatever its case, userinfo, port, escapes, dot segments,
empty segments, query and fragment. -/
def denoted (value : Bytes) : Option Bytes × List Bytes :=
  let uri := Reference.parse value
  (uri.authority.map fun authority => lowerAscii (hostOf authority),
    (segments (removeDots ((unescape uri.path).getD uri.path) [])).filter (· ≠ []))

namespace SpiffeId

variable (id : SpiffeId)

theorem hostOf_domain : hostOf id.domain = id.domain := by
  have mark {byte : UInt8} (listed : byte ∈ ascii "%:?#@") : byte ∉ id.domain := by
    have absent := id.mark_not_mem_body listed
    rw [List.mem_append, not_or] at absent
    exact absent.1
  have userinfo : id.domain.reverse.takeWhile (· != 0x40) = id.domain.reverse := by
    rw [List.takeWhile_eq_self_iff]
    intro byte member
    rw [bne_iff_ne]
    rintro rfl
    exact mark (by decide) (List.mem_reverse.mp member)
  rw [hostOf, userinfo, List.reverse_reverse, List.takeWhile_eq_self_iff]
  intro byte member
  rw [bne_iff_ne]
  rintro rfl
  exact mark (by decide) member

theorem lowerAscii_domain : lowerAscii id.domain = id.domain := by
  have kept : ∀ byte ∈ id.domain, toLower byte = byte := by
    intro byte member
    exact (segment_of_domain (id.isDomain.bytes byte member)).2
  rw [lowerAscii, List.map_congr_left kept, List.map_id']

/-- The components of the URI. -/
theorem parse_text :
    Reference.parse id.text = ⟨some (ascii "spiffe"), some id.domain, joinSegments id.path, none⟩ := by
  have marks {byte : UInt8} (listed : byte ∈ ascii "%:?#@") :
      byte ∉ id.domain ∧ byte ∉ joinSegments id.path := by
    have absent := id.mark_not_mem_body listed
    rwa [List.mem_append, not_or] at absent
  have authority : id.domain.all Reference.inAuthority = true := by
    rw [List.all_eq_true]
    intro byte member
    have slash : byte ≠ 0x2f := by
      rintro rfl
      exact id.slash_not_mem_domain member
    have query : byte ≠ 0x3f := by
      rintro rfl
      exact (marks (by decide)).1 member
    have fragment : byte ≠ 0x23 := by
      rintro rfl
      exact (marks (by decide)).1 member
    simp [Reference.inAuthority, slash, query, fragment]
  have path : (joinSegments id.path).all Reference.inPath = true := by
    rw [List.all_eq_true]
    intro byte member
    have query : byte ≠ 0x3f := by
      rintro rfl
      exact (marks (by decide)).2 member
    have fragment : byte ≠ 0x23 := by
      rintro rfl
      exact (marks (by decide)).2 member
    simp [Reference.inPath, query, fragment]
  have stops : ∀ byte more, joinSegments id.path = byte :: more →
      Reference.inAuthority byte = false := by
    obtain ⟨rest, shape, -⟩ := id.exists_path
    intro byte more starts
    rw [shape, List.cons.injEq] at starts
    rw [← starts.1]
    rfl
  have cut := cut_eq authority stops
  have whole : (joinSegments id.path).takeWhile Reference.inPath = joinSegments id.path ∧
      (joinSegments id.path).dropWhile Reference.inPath = [] := by
    have whole := @cut_eq _ Reference.inPath (joinSegments id.path) [] path nofun
    rwa [List.append_nil] at whole
  have scheme : id.text =
      ascii "spiffe" ++ 0x3a :: (0x2f :: 0x2f :: (id.domain ++ joinSegments id.path)) := rfl
  rw [scheme, Reference.parse_colon (by decide) (by decide), Reference.hierarchical_authority, cut.1,
    cut.2, whole.1, whole.2]
  rfl

/-- An accepted text denotes what it spells. -/
theorem denoted_text : denoted id.text = (some id.domain, id.path) := by
  have plain : (0x25 : UInt8) ∉ joinSegments id.path := by
    have absent := id.mark_not_mem_body (by decide : (0x25 : UInt8) ∈ ascii "%:?#@")
    rw [List.mem_append, not_or] at absent
    exact absent.2
  have split := segments_join id.present id.slash_not_mem_segment
  have names : ∀ segment ∈ segments (joinSegments id.path), ¬IsDot segment := by
    rw [split, List.forall_mem_cons]
    exact ⟨by decide, fun segment listed => (id.areSegments segment listed).name⟩
  have dots := (removeDots_eq_iff (joinSegments id.path) []).mpr names
  have kept : id.path.filter (· ≠ []) = id.path := by
    rw [List.filter_eq_self]
    intro segment listed
    exact decide_eq_true (id.areSegments segment listed).present
  simp only [denoted, id.parse_text, Option.map_some, id.hostOf_domain, id.lowerAscii_domain,
    unescape_of_not_mem plain, Option.getD_some, dots, List.nil_append, split]
  rw [List.filter_cons_of_neg (by decide), kept]

theorem text_injective {id other : SpiffeId} (domain : id.domain = other.domain)
    (path : id.path = other.path) : id.text = other.text := by
  rw [SpiffeId.text, SpiffeId.text, domain, path]

end SpiffeId

section Spelling

variable {value other domain otherDomain : Bytes} {domains others : List Bytes}

/-- Two accepted texts that denote the same workload are the same. -/
theorem accepted_unique (accepted : validateSpiffeId value domains = .ok domain)
    (otherAccepted : validateSpiffeId other others = .ok otherDomain)
    (same : denoted value = denoted other) : value = other := by
  obtain ⟨-, -, -, id, -, rfl⟩ := validateSpiffeId_ok_iff.mp accepted
  obtain ⟨-, -, -, otherId, -, rfl⟩ := validateSpiffeId_ok_iff.mp otherAccepted
  rw [id.denoted_text, otherId.denoted_text, Prod.mk.injEq, Option.some.injEq] at same
  exact SpiffeId.text_injective same.1 same.2

/-- Nothing that another reader could take for userinfo, a port, a query, a fragment or an escape,
and no slash at the end. -/
structure Unadorned (value : Bytes) : Prop where
  marks : ∀ mark ∈ ascii "%:?#@", mark ∉ value.drop spiffeScheme.length
  ends : value.getLast? ≠ some 0x2f

theorem accepted_unadorned (accepted : validateSpiffeId value domains = .ok domain) :
    Unadorned value := by
  obtain ⟨-, -, -, id, -, rfl⟩ := validateSpiffeId_ok_iff.mp accepted
  have body : id.text.drop spiffeScheme.length = id.domain ++ joinSegments id.path := List.drop_left
  constructor
  · intro mark listed
    rw [body]
    exact id.mark_not_mem_body listed
  · obtain ⟨rest, path, -⟩ := id.exists_path
    have last := id.getLast?_path
    rw [SpiffeId.text, ← List.append_assoc, List.getLast?_append]
    cases final : (joinSegments id.path).getLast? with
    | none =>
        rw [List.getLast?_eq_none_iff, path] at final
        cases final
    | some byte =>
        rw [final] at last
        exact last

/-- `validate_spiffe_id` returns a domain exactly for the texts of the grammar, if every allowed
domain is a trust domain of the grammar, and throws for everything else.  Accepted texts that
denote one workload are one text, and have nothing but a domain and segments in them. -/
theorem validateSpiffeId_exact :
    (validateSpiffeId value domains = .ok domain ↔
      (∀ allowed ∈ domains, IsTrustDomain allowed) ∧ value.length ≤ 2048 ∧ domain ∈ domains ∧
        ∃ id : SpiffeId, id.domain = domain ∧ id.text = value) ∧
      (validateSpiffeId value domains = .ok domain →
        Unadorned value ∧ ∀ other others otherDomain,
          validateSpiffeId other others = .ok otherDomain → denoted value = denoted other →
            value = other) := by
  refine ⟨validateSpiffeId_ok_iff, ?_⟩
  intro accepted
  refine ⟨accepted_unadorned accepted, ?_⟩
  intro other others otherDomain otherAccepted same
  exact accepted_unique accepted otherAccepted same

/-- The identity of a worker. -/
def workerId : SpiffeId where
  domain := ascii "good.example"
  path := [ascii "ns", ascii "worker-1"]
  isDomain := validTrustDomain_iff.mp (by decide)
  present := List.cons_ne_nil _ _
  areSegments := by
    intro segment listed
    have every : [ascii "ns", ascii "worker-1"].all validSegment = true := by decide
    exact validSegment_iff.mp (List.all_eq_true.mp every segment listed)

theorem workerId_accepted :
    validateSpiffeId workerId.text [workerId.domain] = .ok workerId.domain ∧
      Unadorned workerId.text := by
  have accepted := validateSpiffeId_exact.1.mpr ⟨List.forall_mem_singleton.mpr workerId.isDomain,
    by decide, List.mem_singleton_self workerId.domain, workerId, rfl, rfl⟩
  exact ⟨accepted, (validateSpiffeId_exact.2 accepted).1⟩

/-- An allowed domain outside the grammar spoils every other one. -/
theorem invalid_neighbour_refuses :
    (workerId.domain ∈ [workerId.domain, ascii "Bad"] ∧ workerId.text.length ≤ 2048) ∧
      validateSpiffeId workerId.text [workerId.domain, ascii "Bad"] =
        .error "invalid SPIFFE trust domain" := by
  decide

end Spelling

end VgiRpc.Identity
