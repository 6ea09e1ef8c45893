import VgiRpc.Cpp.Json
import VgiRpc.Identity.AuthContext
import VgiRpc.Identity.Xfcc
import VgiRpc.Lib.Results

/-!
# Peer evidence

What identity providers found out about the peer of a connection: identities, the results
that carry them, and the set of results that the policies read.
-/

namespace VgiRpc.Evidence

open VgiRpc.Cpp VgiRpc.Identity VgiRpc.Lib

/-- What the code under test throws, with its text. -/
inductive Thrown where
  | invalidArgument (what : String)
  | logicError (what : String)
  /-- `PeerIdentityRejected`. -/
  | rejected (what : String)
  /-- `PeerIdentityUnavailable`. -/
  | unavailable (what : String)
  /-- What a hook of the application throws. -/
  | other (what : String)
  deriving DecidableEq, Repr

/-- `if (condition) throw thrown;` -/
def throwIf (condition : Prop) [Decidable condition] (thrown : Thrown) : Except Thrown Unit :=
  if condition then .error thrown else .ok ()

/-! ## JSON evidence -/

def kMaxJsonBytes : Nat := 65536
def kMaxJsonDepth : Nat := 16
def kMaxJsonValues : Nat := 4096

/-- `require_text`. -/
def requireText (value : Bytes) (field : String) : Except Thrown Unit :=
  if validUtf8 value then .ok () else .error (.invalidArgument (field ++ " contains invalid UTF-8"))

mutual

/-- `validate_json`: the values seen so far, this one included. -/
def validateJson (depth count : Nat) (value : Json) : Except Thrown Nat :=
  if kMaxJsonDepth < depth then
    .error (.invalidArgument "peer evidence exceeds JSON depth limit")
  else if kMaxJsonValues < count + 1 then
    .error (.invalidArgument "peer evidence exceeds JSON value limit")
  else
    match value with
    | .string text => do
        requireText text "peer evidence string"
        return count + 1
    | .float bits =>
        if Json.isFinite bits then .ok (count + 1)
        else .error (.invalidArgument "peer evidence numbers must be finite")
    | .object members => validateMembers (depth + 1) (count + 1) members
    | .array items => validateItems (depth + 1) (count + 1) items
    | _ => .ok (count + 1)

def validateMembers (depth count : Nat) : List (Bytes × Json) → Except Thrown Nat
  | [] => .ok count
  | (key, item) :: members => do
      requireText key "peer evidence key"
      validateMembers depth (← validateJson depth count item) members

def validateItems (depth count : Nat) : List Json → Except Thrown Nat
  | [] => .ok count
  | item :: items => do validateItems depth (← validateJson depth count item) items

end

/-- `validate_json_object`. -/
def validateJsonObject (dump : Json → Bytes) (value : Json) : Except Thrown Unit := do
  throwIf (value.isObject = false) (.invalidArgument "peer evidence must be a JSON object")
  let _ ← validateJson 1 0 value
  throwIf (kMaxJsonBytes < (dump value).length)
    (.invalidArgument "peer evidence exceeds JSON byte limit")

/-! ## Identities -/

inductive PeerIdentityStatus where
  | off
  | notApplicable
  | available
  | unavailable
  | permissionDenied
  | noMatch
  | invalid
  | untrustedProxy
  deriving DecidableEq, Repr

inductive IdentityAssurance where
  | cryptographicPeer
  | localDaemon
  | configuredProxy
  deriving DecidableEq, Repr

inductive PeerSubjectKind where
  | user
  | taggedNode
  | workload
  | endpoint
  | unknown
  deriving DecidableEq, Repr

inductive SubjectStability where
  | stable
  | login
  | none
  deriving DecidableEq, Repr

/-- `wire` of a status. -/
def PeerIdentityStatus.wire : PeerIdentityStatus → Bytes
  | .off => ascii "off"
  | .notApplicable => ascii "not_applicable"
  | .available => ascii "available"
  | .unavailable => ascii "unavailable"
  | .permissionDenied => ascii "permission_denied"
  | .noMatch => ascii "no_match"
  | .invalid => ascii "invalid"
  | .untrustedProxy => ascii "untrusted_proxy"

def IdentityAssurance.wire : IdentityAssurance → Bytes
  | .cryptographicPeer => ascii "cryptographic_peer"
  | .localDaemon => ascii "local_daemon"
  | .configuredProxy => ascii "configured_proxy"

def PeerSubjectKind.wire : PeerSubjectKind → Bytes
  | .user => ascii "user"
  | .taggedNode => ascii "tagged_node"
  | .workload => ascii "workload"
  | .endpoint => ascii "endpoint"
  | .unknown => ascii "unknown"

def SubjectStability.wire : SubjectStability → Bytes
  | .stable => ascii "stable"
  | .login => ascii "login"
  | .none => ascii "none"

/-- `PeerIdentity`.  The addresses are kept and read by nothing here. -/
structure PeerIdentity where
  provider : Bytes
  evidenceSource : Bytes
  assurance : IdentityAssurance
  issuer : Bytes
  transport : Bytes
  subjectKind : PeerSubjectKind
  subjectKey : Option Bytes
  subjectStability : SubjectStability
  subjectVerified : Bool
  attributes : Json
  capabilities : Json
  capabilitiesVerified : Bool
  sourceAddress : Option Bytes
  proxyAddress : Option Bytes

/-- The checks of the constructor of `PeerIdentity`. -/
def PeerIdentity.check (dump : Json → Bytes) (identity : PeerIdentity) : Except Thrown Unit := do
  throwIf (identity.provider = [] ∨ identity.evidenceSource = [] ∨ identity.issuer = [] ∨
      identity.transport = [])
    (.invalidArgument "provider, evidence source, issuer, and transport are required")
  requireText identity.provider "provider"
  requireText identity.evidenceSource "evidence source"
  requireText identity.issuer "issuer"
  requireText identity.transport "transport"
  requireText (identity.subjectKey.getD []) "subject key"
  throwIf (identity.subjectVerified = true ∧ identity.subjectKey.getD [] = [])
    (.invalidArgument "verified identity requires a subject key")
  throwIf (identity.subjectKey = none ∧ identity.subjectStability ≠ .none)
    (.invalidArgument "subjectless identity must have none stability")
  validateJsonObject dump identity.attributes
  validateJsonObject dump identity.capabilities

/-- A digit of a percent escape. -/
def upperHex (value : UInt8) : UInt8 := if value < 10 then 0x30 + value else 0x41 + (value - 10)

/-- `percent`. -/
def percentText (value : Bytes) : Bytes :=
  value.flatMap fun byte =>
    if isAlnum byte || byte == 0x2d || byte == 0x2e || byte == 0x5f || byte == 0x7e then [byte]
    else [0x25, upperHex (byte >>> 4), upperHex (byte &&& 15)]

/-- `PeerIdentity::canonical_principal`. -/
def PeerIdentity.canonicalPrincipal (identity : PeerIdentity) : Except Thrown Bytes :=
  match identity.subjectKey with
  | none => .error (.logicError "subjectless evidence has no canonical principal")
  | some subjectKey =>
      .ok (ascii "peer/" ++ percentText identity.provider ++ ascii "/" ++
        percentText identity.issuer ++ ascii "/" ++ percentText subjectKey)

/-! ## Results -/

structure PeerIdentityResult where
  provider : Bytes
  status : PeerIdentityStatus
  identities : List PeerIdentity

/-- `PeerIdentityResult::validate`. -/
def PeerIdentityResult.validate (result : PeerIdentityResult) : Except Thrown Unit := do
  throwIf (result.provider = []) (.invalidArgument "peer result provider is required")
  throwIf (¬(result.status = .available ↔ result.identities ≠ []))
    (.invalidArgument "only available results may carry identities")
  throwIf (∃ identity ∈ result.identities, identity.provider ≠ result.provider)
    (.invalidArgument "peer result provider mismatch")

/-- `PeerEvidenceSet`. -/
structure PeerEvidenceSet where
  identities : List PeerIdentity
  statuses : List (Bytes × PeerIdentityStatus)

namespace PeerEvidenceSet

def empty : PeerEvidenceSet := ⟨[], []⟩

/-- `PeerEvidenceSet::with_result`. -/
def withResult (evidence : PeerEvidenceSet) (result : PeerIdentityResult) :
    Except Thrown PeerEvidenceSet := do
  result.validate
  throwIf ((evidence.statuses.lookup result.provider).isSome = true)
    (.invalidArgument "duplicate peer provider")
  return ⟨evidence.identities ++ result.identities,
    evidence.statuses ++ [(result.provider, result.status)]⟩

/-- The constructor of `PeerEvidenceSet`: the same steps for one result after the other. -/
def new (results : List PeerIdentityResult) : Except Thrown PeerEvidenceSet :=
  results.foldlM withResult empty

/-- `PeerEvidenceSet::status`. -/
def status (evidence : PeerEvidenceSet) (provider : Bytes) : PeerIdentityStatus :=
  (evidence.statuses.lookup provider).getD .off

/-- `PeerEvidenceSet::for_provider`. -/
def forProvider (evidence : PeerEvidenceSet) (provider : Bytes) : List PeerIdentity :=
  evidence.identities.filter fun identity => identity.provider == provider

/-- `PeerEvidenceSet::eligible_subjects`. -/
def eligibleSubjects (evidence : PeerEvidenceSet) (provider : Bytes) : List PeerIdentity :=
  (evidence.forProvider provider).filter fun identity =>
    !(!identity.subjectVerified || identity.subjectKey.isNone ||
      identity.subjectStability != .stable)

/-- `PeerEvidenceSet::unique_verified_subject`. -/
def uniqueVerifiedSubject (evidence : PeerEvidenceSet) (provider : Bytes) :
    Except Thrown PeerIdentity :=
  match evidence.eligibleSubjects provider with
  | [identity] => .ok identity
  | _ => .error (.rejected "provider did not produce one verified stable subject")

/-- `PeerEvidenceSet::require_available_provider`. -/
def requireAvailableProvider (evidence : PeerEvidenceSet) (provider : Bytes) :
    Except Thrown Unit :=
  let outcome := evidence.status provider
  if outcome = .unavailable ∨ outcome = .permissionDenied then
    .error (.unavailable "peer identity provider is unavailable")
  else if outcome = .invalid ∨ outcome = .untrustedProxy then
    .error (.rejected "peer identity provider rejected evidence")
  else if outcome ≠ .available ∨ evidence.forProvider provider = [] then
    .error (.rejected "peer identity provider did not produce evidence")
  else
    .ok ()

/-- `PeerEvidenceSet::require_usable_provider`. -/
def requireUsableProvider (evidence : PeerEvidenceSet) (provider : Bytes) :
    Except Thrown PeerIdentity := do
  evidence.requireAvailableProvider provider
  evidence.uniqueVerifiedSubject provider

end PeerEvidenceSet

/-! ## Checked identities -/

theorem throwIf_ok_iff {condition : Prop} [Decidable condition] {thrown : Thrown} {value : Unit} :
    throwIf condition thrown = .ok value ↔ ¬condition := by
  unfold throwIf
  split
  next holds => simp [holds]
  next fails => simp [fails]

/-- The JSON of an identity passes the checks of its constructor. -/
structure PeerIdentity.ValidJson (dump : Json → Bytes) (identity : PeerIdentity) : Prop where
  attributes : validateJsonObject dump identity.attributes = .ok ()
  capabilities : validateJsonObject dump identity.capabilities = .ok ()

theorem PeerIdentity.check_ok {dump : Json → Bytes} {identity : PeerIdentity}
    (passed : identity.check dump = .ok ()) :
    (identity.subjectVerified = true → identity.subjectKey.isSome = true) ∧
      identity.ValidJson dump := by
  simp only [PeerIdentity.check, bind_eq_ok_iff, throwIf_ok_iff, exists_const] at passed
  rcases passed with
    ⟨-, _, -, _, -, _, -, _, -, _, -, subject, -, _, attributes, capabilities⟩
  refine ⟨?_, attributes, capabilities⟩
  intro verified
  cases shape : identity.subjectKey with
  | none => exact absurd ⟨verified, by rw [shape]; rfl⟩ subject
  | some key => rfl

/-! ## Sets that can be built -/

/-- What `validate` lets through. -/
structure PeerIdentityResult.Valid (result : PeerIdentityResult) : Prop where
  named : result.provider ≠ []
  available : result.status = .available ↔ result.identities ≠ []
  own : ∀ identity ∈ result.identities, identity.provider = result.provider

theorem PeerIdentityResult.validate_iff (result : PeerIdentityResult) :
    result.validate = .ok () ↔ result.Valid := by
  simp only [PeerIdentityResult.validate, bind_eq_ok_iff, throwIf_ok_iff, exists_const]
  constructor
  · rintro ⟨named, available, own⟩
    exact ⟨named, not_not.mp available, by simpa using own⟩
  · intro valid
    exact ⟨valid.named, not_not.mpr valid.available, by simpa using valid.own⟩

namespace PeerEvidenceSet

/-- Adding a result. -/
theorem withResult_ok_iff {evidence next : PeerEvidenceSet} {result : PeerIdentityResult} :
    evidence.withResult result = .ok next ↔
      result.Valid ∧ result.provider ∉ evidence.statuses.map Prod.fst ∧
        next = ⟨evidence.identities ++ result.identities,
          evidence.statuses ++ [(result.provider, result.status)]⟩ := by
  have known : (evidence.statuses.lookup result.provider).isSome = true ↔
      result.provider ∈ evidence.statuses.map Prod.fst := by
    rw [List.lookup_isSome_iff, List.mem_map]
    simp only [beq_iff_eq, @eq_comm _ result.provider]
  simp only [withResult, bind_eq_ok_iff, throwIf_ok_iff, exists_const, result.validate_iff, known]
  apply and_congr_right
  intro _
  apply and_congr_right
  intro _
  constructor
  · intro same
    exact (Except.ok.inj same).symm
  · intro same
    rw [same]
    rfl

/-- The set that results make. -/
def ofResults (results : List PeerIdentityResult) : PeerEvidenceSet :=
  ⟨results.flatMap PeerIdentityResult.identities,
    results.map fun result => (result.provider, result.status)⟩

/-- Results that can be put into one set. -/
structure Compatible (results : List PeerIdentityResult) : Prop where
  valid : ∀ result ∈ results, result.Valid
  distinct : (results.map PeerIdentityResult.provider).Nodup

theorem statuses_ofResults_fst (results : List PeerIdentityResult) :
    (ofResults results).statuses.map Prod.fst = results.map PeerIdentityResult.provider := by
  rw [ofResults, List.map_map]
  rfl

theorem ofResults_snoc (results : List PeerIdentityResult) (result : PeerIdentityResult) :
    ofResults (results ++ [result]) = ⟨(ofResults results).identities ++ result.identities,
      (ofResults results).statuses ++ [(result.provider, result.status)]⟩ := by
  simp [ofResults]

theorem compatible_snoc {results : List PeerIdentityResult} {result : PeerIdentityResult} :
    Compatible (results ++ [result]) ↔ Compatible results ∧ result.Valid ∧
      result.provider ∉ results.map PeerIdentityResult.provider := by
  constructor
  · intro compatible
    have distinct := compatible.distinct
    rw [List.map_append, List.map_singleton, List.nodup_append_comm, List.singleton_append,
      List.nodup_cons] at distinct
    refine ⟨⟨?_, distinct.2⟩, ?_, distinct.1⟩
    · intro other listed
      exact compatible.valid other (List.mem_append_left _ listed)
    · exact compatible.valid result (List.mem_append_right _ List.mem_cons_self)
  · rintro ⟨compatible, valid, fresh⟩
    constructor
    · intro other listed
      rcases List.mem_append.mp listed with old | new
      · exact compatible.valid other old
      · rw [List.mem_singleton.mp new]
        exact valid
    · rw [List.map_append, List.map_singleton, List.nodup_append_comm, List.singleton_append,
        List.nodup_cons]
      exact ⟨fresh, compatible.distinct⟩

/-- Adding a result to the set of compatible results. -/
theorem withResult_ofResults {results : List PeerIdentityResult} {result : PeerIdentityResult}
    (compatible : Compatible results) {next : PeerEvidenceSet} :
    (ofResults results).withResult result = .ok next ↔
      Compatible (results ++ [result]) ∧ next = ofResults (results ++ [result]) := by
  rw [withResult_ok_iff, statuses_ofResults_fst, compatible_snoc, ofResults_snoc]
  constructor
  · rintro ⟨valid, fresh, rfl⟩
    exact ⟨⟨compatible, valid, fresh⟩, rfl⟩
  · rintro ⟨⟨-, valid, fresh⟩, rfl⟩
    exact ⟨valid, fresh, rfl⟩

/-- The constructor makes the set of its results if they are compatible. -/
theorem new_ok_iff {results : List PeerIdentityResult} {evidence : PeerEvidenceSet} :
    new results = .ok evidence ↔ Compatible results ∧ evidence = ofResults results := by
  induction results using List.reverseRecOn generalizing evidence with
  | nil =>
      constructor
      · intro made
        exact ⟨⟨by simp, List.nodup_nil⟩, (Except.ok.inj made).symm⟩
      · rintro ⟨-, rfl⟩
        rfl
  | append_singleton results result ih =>
      have steps : new (results ++ [result]) =
          (new results).bind fun evidence => evidence.withResult result := by
        rw [new, List.foldlM_append]
        cases shape : results.foldlM withResult empty with
        | error thrown => simp [new, shape, bind, Except.bind]
        | ok before =>
            simp only [new, shape]
            exact bind_pure (before.withResult result)
      rw [steps]
      cases made : new results with
      | error thrown =>
          constructor
          · intro passed
            cases passed
          · rintro ⟨compatible, -⟩
            have before := ih.mpr ⟨(compatible_snoc.mp compatible).1, rfl⟩
            rw [made] at before
            cases before
      | ok before =>
          rcases ih.mp made with ⟨compatible, rfl⟩
          exact withResult_ofResults compatible

/-- A set to which some results were added one after the other, first by the constructor and
then by `with_result`, all of checked identities. -/
inductive Added (dump : Json → Bytes) : List PeerIdentityResult → PeerEvidenceSet → Prop
  | new {results : List PeerIdentityResult} {evidence : PeerEvidenceSet}
      (checked : ∀ result ∈ results, ∀ identity ∈ result.identities, identity.check dump = .ok ())
      (made : PeerEvidenceSet.new results = .ok evidence) : Added dump results evidence
  | withResult {results : List PeerIdentityResult} {evidence next : PeerEvidenceSet}
      {result : PeerIdentityResult} (added : Added dump results evidence)
      (checked : ∀ identity ∈ result.identities, identity.check dump = .ok ())
      (made : evidence.withResult result = .ok next) : Added dump (results ++ [result]) next

/-- A set that a program can have. -/
def Built (dump : Json → Bytes) (evidence : PeerEvidenceSet) : Prop :=
  ∃ results, Added dump results evidence

variable {dump : Json → Bytes} {results : List PeerIdentityResult} {evidence : PeerEvidenceSet}

/-- However they are added, compatible results make one set. -/
theorem added_iff : Added dump results evidence ↔
    Compatible results ∧ evidence = ofResults results ∧
      ∀ result ∈ results, ∀ identity ∈ result.identities, identity.check dump = .ok () := by
  constructor
  · intro added
    induction added with
    | new checked made =>
        rcases new_ok_iff.mp made with ⟨compatible, rfl⟩
        exact ⟨compatible, rfl, checked⟩
    | withResult added checked made ih =>
        rcases ih with ⟨compatible, rfl, before⟩
        rcases (withResult_ofResults compatible).mp made with ⟨more, rfl⟩
        refine ⟨more, rfl, ?_⟩
        intro other listed
        rcases List.mem_append.mp listed with old | new
        · exact before other old
        · rw [List.mem_singleton.mp new]
          exact checked
  · rintro ⟨compatible, rfl, checked⟩
    exact .new checked (new_ok_iff.mpr ⟨compatible, rfl⟩)

/-- Every identity of a set was checked. -/
theorem Built.checked (built : Built dump evidence) : ∀ identity ∈ evidence.identities,
    (identity.subjectVerified = true → identity.subjectKey.isSome = true) ∧
      identity.ValidJson dump := by
  rcases built with ⟨results, added⟩
  rcases added_iff.mp added with ⟨-, rfl, checked⟩
  intro identity listed
  rcases List.mem_flatMap.mp listed with ⟨result, member, own⟩
  exact PeerIdentity.check_ok (checked result member identity own)

/-! ## Reading a set -/

theorem status_ofResults {results : List PeerIdentityResult} (compatible : Compatible results)
    {result : PeerIdentityResult} (listed : result ∈ results) :
    (ofResults results).status result.provider = result.status := by
  induction results with
  | nil => cases listed
  | cons first results ih =>
      have distinct := compatible.distinct
      rw [List.map_cons, List.nodup_cons] at distinct
      have rest : Compatible results :=
        ⟨fun other member => compatible.valid other (List.mem_cons_of_mem _ member), distinct.2⟩
      rcases List.mem_cons.mp listed with rfl | later
      · simp [ofResults, status]
      · have apart : result.provider ≠ first.provider := by
          intro same
          rw [← same] at distinct
          exact distinct.1 (List.mem_map_of_mem later)
        have tail := ih rest later
        simpa [ofResults, status, List.lookup_cons, beq_false_of_ne apart] using tail

theorem status_of_absent {results : List PeerIdentityResult} {provider : Bytes}
    (absent : ∀ result ∈ results, result.provider ≠ provider) :
    (ofResults results).status provider = .off := by
  have missing : (ofResults results).statuses.lookup provider = none := by
    rw [List.lookup_eq_none_iff]
    intro entry listed
    rcases List.mem_map.mp listed with ⟨result, member, rfl⟩
    exact bne_iff_ne.mpr (absent result member).symm
  rw [status, missing, Option.getD_none]

theorem forProvider_of_absent {results : List PeerIdentityResult}
    (valid : ∀ result ∈ results, result.Valid) {provider : Bytes}
    (absent : ∀ result ∈ results, result.provider ≠ provider) :
    (ofResults results).forProvider provider = [] := by
  rw [forProvider, List.filter_eq_nil_iff]
  intro identity listed
  rcases List.mem_flatMap.mp listed with ⟨result, member, own⟩
  rw [beq_iff_eq, (valid result member).own identity own]
  exact absent result member

/-- The identities of a provider are those of its result. -/
theorem forProvider_ofResults {results : List PeerIdentityResult} (compatible : Compatible results)
    {result : PeerIdentityResult} (listed : result ∈ results) :
    (ofResults results).forProvider result.provider = result.identities := by
  induction results with
  | nil => cases listed
  | cons first results ih =>
      have distinct := compatible.distinct
      rw [List.map_cons, List.nodup_cons] at distinct
      have rest : Compatible results :=
        ⟨fun other member => compatible.valid other (List.mem_cons_of_mem _ member), distinct.2⟩
      have own := (compatible.valid first List.mem_cons_self).own
      have parted : ∀ provider, (ofResults (first :: results)).forProvider provider =
          first.identities.filter (fun identity => identity.provider == provider) ++
            (ofResults results).forProvider provider := by
        intro provider
        simp [ofResults, forProvider]
      rw [parted]
      rcases List.mem_cons.mp listed with rfl | later
      · have others : ∀ other ∈ results, other.provider ≠ result.provider := by
          intro other member same
          rw [← same] at distinct
          exact distinct.1 (List.mem_map_of_mem member)
        rw [forProvider_of_absent rest.valid others, List.append_nil, List.filter_eq_self]
        intro identity member
        exact beq_iff_eq.mpr (own identity member)
      · have apart : first.provider ≠ result.provider := by
          intro same
          rw [same] at distinct
          exact distinct.1 (List.mem_map_of_mem later)
        have none_own : first.identities.filter
            (fun identity => identity.provider == result.provider) = [] := by
          rw [List.filter_eq_nil_iff]
          intro identity member
          rw [own identity member, beq_iff_eq]
          exact apart
        rw [none_own, List.nil_append]
        exact ih rest later

theorem known_or_absent (results : List PeerIdentityResult) (provider : Bytes) :
    (∃ result ∈ results, result.provider = provider) ∨
      ∀ result ∈ results, result.provider ≠ provider := by
  by_cases known : ∃ result ∈ results, result.provider = provider
  · exact .inl known
  · exact .inr fun result listed same => known ⟨result, listed, same⟩

/-- A provider is available exactly if it has identities. -/
theorem Built.available_iff (built : Built dump evidence) (provider : Bytes) :
    evidence.status provider = .available ↔ evidence.forProvider provider ≠ [] := by
  rcases built with ⟨results, added⟩
  rcases added_iff.mp added with ⟨compatible, rfl, -⟩
  rcases known_or_absent results provider with ⟨result, listed, rfl⟩ | absent
  · rw [status_ofResults compatible listed, forProvider_ofResults compatible listed]
    exact (compatible.valid result listed).available
  · rw [status_of_absent absent, forProvider_of_absent compatible.valid absent]
    simp

end PeerEvidenceSet

end VgiRpc.Evidence
