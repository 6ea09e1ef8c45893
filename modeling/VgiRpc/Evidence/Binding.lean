import VgiRpc.Evidence.Results
import VgiRpc.Lib.Fields
import VgiRpc.Lib.Memory

/-!
# The binding digest

`PeerEvidenceSet::binding_digest`: the bytes that it hashes, and that they tell everything
that is bound, up to the order of the providers and of the identities.
-/

namespace VgiRpc.Evidence

open VgiRpc.Cpp VgiRpc.Identity VgiRpc.Lib

/-! ## The bytes that are hashed -/

/-- The eight bytes of a length: the loop writes the low ones first, from the end. -/
def lengthBytes (size : Nat) : Bytes := (Memory.toBytesLE 8 size).reverse

/-- `add_field`. -/
def addField (field : Bytes) : Bytes := lengthBytes field.length ++ field

section Digest

variable (dump : Json → Bytes)

/-- The row of an identity. -/
def bindingRow (identity : PeerIdentity) : List Bytes :=
  [identity.provider, identity.issuer, identity.subjectKey.getD [], identity.assurance.wire,
    identity.evidenceSource, identity.transport, identity.subjectKind.wire,
    identity.subjectStability.wire,
    if identity.subjectVerified then ascii "true" else ascii "false",
    if identity.capabilitiesVerified then ascii "true" else ascii "false", [], [],
    dump identity.attributes, dump identity.capabilities]

/-- `std::set` of the providers, in its order. -/
def selected (providers : List Bytes) : List Bytes :=
  providers.dedup.mergeSort fun first second => decide (first ≤ second)

/-- What is written for one provider. -/
def providerGroup (evidence : PeerEvidenceSet) (provider : Bytes) : RowGroup Bytes where
  key := provider
  header := (evidence.status provider).wire
  rows := ((evidence.forProvider provider).map (bindingRow dump)).mergeSort
    fun first second => decide (first ≤ second)

/-- What is written for the application. -/
def applicationFields : Option AuthContext → List Bytes
  | none => []
  | some application =>
      [ascii "application_auth", application.domain, application.principal.getD []]

/-- The fields that `binding_digest` writes. -/
def bindingFields (evidence : PeerEvidenceSet) (providers : List Bytes)
    (application : Option AuthContext) : List Bytes :=
  ((selected providers).map (providerGroup dump evidence)).flatMap RowGroup.fields ++
    applicationFields application

/-- The bytes that `binding_digest` hashes. -/
def bindingPreimage (evidence : PeerEvidenceSet) (providers : List Bytes)
    (application : Option AuthContext) : Bytes :=
  (bindingFields dump evidence providers application).flatMap addField

/-- `PeerEvidenceSet::binding_digest`. -/
def bindingDigest (sha256 : Bytes → Bytes) (evidence : PeerEvidenceSet) (providers : List Bytes)
    (application : Option AuthContext) : Bytes :=
  sha256 (bindingPreimage dump evidence providers application)

end Digest

/-! ## Lengths -/

theorem length_lengthBytes (size : Nat) : (lengthBytes size).length = 8 := by
  rw [lengthBytes, List.length_reverse, Memory.toBytesLE_length]

theorem lengthBytes_inj {size size' : Nat} (bound : size < 2 ^ 64) (bound' : size' < 2 ^ 64)
    (same : lengthBytes size = lengthBytes size') : size = size' := by
  have values := congrArg Memory.ofBytesLE (List.reverse_injective same)
  rwa [Memory.ofBytesLE_toBytesLE, Memory.ofBytesLE_toBytesLE,
    show 256 ^ 8 = 2 ^ 64 from rfl, Nat.mod_eq_of_lt bound, Nat.mod_eq_of_lt bound'] at values

/-- A field tells its text and where it ends. -/
theorem addField_delimiting :
    SelfDelimiting (fun field : Bytes => field.length < 2 ^ 64) addField := by
  intro field other bound bound' rest rest' same
  rw [addField, addField, List.append_assoc, List.append_assoc] at same
  rcases List.append_inj same (by rw [length_lengthBytes, length_lengthBytes]) with
    ⟨lengths, texts⟩
  exact List.append_inj texts (lengthBytes_inj bound bound' lengths)

theorem addField_ne_nil (field : Bytes) : addField field ≠ [] := by
  intro empty
  have lengths := congrArg List.length empty
  rw [addField, List.length_append, length_lengthBytes, List.length_nil] at lengths
  exact absurd lengths (by simp)

/-! ## What is bound -/

/-- What a row tells of an identity: the fields that are written, an absent subject key as
an empty one. -/
structure BoundRow where
  provider : Bytes
  issuer : Bytes
  subjectKey : Bytes
  assurance : IdentityAssurance
  evidenceSource : Bytes
  transport : Bytes
  subjectKind : PeerSubjectKind
  subjectStability : SubjectStability
  subjectVerified : Bool
  capabilitiesVerified : Bool
  attributes : Json
  capabilities : Json

def PeerIdentity.bound (identity : PeerIdentity) : BoundRow :=
  ⟨identity.provider, identity.issuer, identity.subjectKey.getD [], identity.assurance,
    identity.evidenceSource, identity.transport, identity.subjectKind, identity.subjectStability,
    identity.subjectVerified, identity.capabilitiesVerified, identity.attributes,
    identity.capabilities⟩

/-- What is bound of an application. -/
def boundApplication (application : Option AuthContext) : Option (Bytes × Bytes) :=
  application.map fun auth => (auth.domain, auth.principal.getD [])

/-- Two calls bind the same: the same providers, the same status of each, the same rows of
each up to their order, and the same application. -/
structure SameBinding (first second : PeerEvidenceSet) (named named' : List Bytes)
    (application application' : Option AuthContext) : Prop where
  providers : ∀ provider, provider ∈ named ↔ provider ∈ named'
  statuses : ∀ provider ∈ named, first.status provider = second.status provider
  rows : ∀ provider ∈ named, ((first.forProvider provider).map PeerIdentity.bound).Perm
    ((second.forProvider provider).map PeerIdentity.bound)
  application : boundApplication application = boundApplication application'

theorem status_wire_injective : Function.Injective PeerIdentityStatus.wire := by
  intro status other same
  cases status <;> cases other <;> first | rfl | exact absurd same (by decide)

theorem assurance_wire_injective : Function.Injective IdentityAssurance.wire := by
  intro assurance other same
  cases assurance <;> cases other <;> first | rfl | exact absurd same (by decide)

theorem kind_wire_injective : Function.Injective PeerSubjectKind.wire := by
  intro kind other same
  cases kind <;> cases other <;> first | rfl | exact absurd same (by decide)

theorem stability_wire_injective : Function.Injective SubjectStability.wire := by
  intro stability other same
  cases stability <;> cases other <;> first | rfl | exact absurd same (by decide)

theorem flag_injective {flag other : Bool}
    (same : (if flag then ascii "true" else ascii "false") =
      if other then ascii "true" else ascii "false") : flag = other := by
  cases flag <;> cases other <;> first | rfl | exact absurd same (by decide)

section Faithful

variable {dump : Json → Bytes}

/-- Printing is injective on the values that are checked. -/
def Injective (dump : Json → Bytes) : Prop :=
  ∀ ⦃value other : Json⦄, validateJsonObject dump value = .ok () →
    validateJsonObject dump other = .ok () → dump value = dump other → value = other

/-- The row of an identity is written from what it tells. -/
def BoundRow.written (dump : Json → Bytes) (row : BoundRow) : List Bytes :=
  [row.provider, row.issuer, row.subjectKey, row.assurance.wire, row.evidenceSource,
    row.transport, row.subjectKind.wire, row.subjectStability.wire,
    if row.subjectVerified then ascii "true" else ascii "false",
    if row.capabilitiesVerified then ascii "true" else ascii "false", [], [],
    dump row.attributes, dump row.capabilities]

theorem bound_eq_of_written (injective : Injective dump) {identity other : PeerIdentity}
    (valid : identity.ValidJson dump) (valid' : other.ValidJson dump)
    (same : identity.bound.written dump = other.bound.written dump) :
    identity.bound = other.bound := by
  simp only [BoundRow.written, List.cons.injEq, true_and, and_true] at same
  rcases same with ⟨provider, issuer, subjectKey, assurance, source, transport, kind, stability,
    verified, capable, attributes, capabilities⟩
  rw [PeerIdentity.bound, PeerIdentity.bound, BoundRow.mk.injEq]
  exact ⟨provider, issuer, subjectKey, assurance_wire_injective assurance, source, transport,
    kind_wire_injective kind, stability_wire_injective stability, flag_injective verified,
    flag_injective capable, injective valid.attributes valid'.attributes attributes,
    injective valid.capabilities valid'.capabilities capabilities⟩

theorem mem_selected {providers : List Bytes} {provider : Bytes} :
    provider ∈ selected providers ↔ provider ∈ providers := by
  rw [selected, List.mem_mergeSort, List.mem_dedup]

theorem selected_eq_iff {providers others : List Bytes} :
    selected providers = selected others ↔ ∀ provider, provider ∈ providers ↔ provider ∈ others := by
  rw [selected, selected, mergeSort_eq_iff, List.perm_ext_iff_of_nodup (List.nodup_dedup _)
    (List.nodup_dedup _)]
  simp only [List.mem_dedup]

theorem nodup_selected (providers : List Bytes) : (selected providers).Nodup :=
  (List.mergeSort_perm _ _).nodup_iff.mpr (List.nodup_dedup _)

/-- Every row of a provider begins with its name. -/
theorem providerGroup_keyed (evidence : PeerEvidenceSet) (provider : Bytes) :
    (providerGroup dump evidence provider).Keyed 14 := by
  intro row listed
  rw [providerGroup, List.mem_mergeSort, List.mem_map] at listed
  rcases listed with ⟨identity, member, rfl⟩
  have named := (List.mem_filter.mp member).2
  rw [beq_iff_eq] at named
  refine ⟨rfl, ?_⟩
  rw [bindingRow, List.head?_cons, named]
  rfl

theorem even_applicationFields_iff (application : Option AuthContext) :
    Even (applicationFields application).length ↔ application = none := by
  cases application with
  | none => simp [applicationFields]
  | some application =>
      constructor
      · intro even
        exact absurd even (by simp only [applicationFields, List.length_cons]; decide)
      · intro absent
        cases absent

theorem applicationFields_eq_iff {application application' : Option AuthContext} :
    applicationFields application = applicationFields application' ↔
      boundApplication application = boundApplication application' := by
  cases application with
  | none => cases application' <;> simp [applicationFields, boundApplication]
  | some auth => cases application' <;> simp [applicationFields, boundApplication]

/-- The number of the fields is even exactly without an application: its three fields are
never taken for a provider. -/
theorem bindingFields_split {first second : PeerEvidenceSet} {providers others : List Bytes}
    {application application' : Option AuthContext}
    (same : bindingFields dump first providers application =
      bindingFields dump second others application') :
    (selected providers).map (providerGroup dump first) =
        (selected others).map (providerGroup dump second) ∧
      applicationFields application = applicationFields application' := by
  have keyed : ∀ (evidence : PeerEvidenceSet) (providers : List Bytes),
      ∀ group ∈ (selected providers).map (providerGroup dump evidence), group.Keyed 14 := by
    intro evidence providers group listed
    rcases List.mem_map.mp listed with ⟨provider, -, rfl⟩
    exact providerGroup_keyed evidence provider
  have distinct : ∀ (evidence : PeerEvidenceSet) (providers : List Bytes),
      (((selected providers).map (providerGroup dump evidence)).map RowGroup.key).Nodup := by
    intro evidence providers
    rw [List.map_map]
    simpa [Function.comp_def, providerGroup] using nodup_selected providers
  have lengths := congrArg (fun fields => Even fields.length) same
  simp only [bindingFields, List.length_append, Nat.even_add,
    even_length_flatMap_fields (keyed _ _) (by decide : Even 14), true_iff,
    even_applicationFields_iff, eq_iff_iff] at lengths
  have trailers : (applicationFields application).length =
      (applicationFields application').length := by
    cases application with
    | none => rw [lengths.mp rfl]
    | some auth =>
        cases application' with
        | none => cases lengths.mpr rfl
        | some auth' => rfl
  rcases List.append_inj' same trailers with ⟨groups, trailer⟩
  exact ⟨groups_injective (keyed _ _) (keyed _ _) (distinct _ _) (distinct _ _) groups, trailer⟩

theorem providerGroup_eq_iff (injective : Injective dump) {first second : PeerEvidenceSet}
    (valid : ∀ identity ∈ first.identities, identity.ValidJson dump)
    (valid' : ∀ identity ∈ second.identities, identity.ValidJson dump) {provider : Bytes} :
    providerGroup dump first provider = providerGroup dump second provider ↔
      first.status provider = second.status provider ∧
        ((first.forProvider provider).map PeerIdentity.bound).Perm
          ((second.forProvider provider).map PeerIdentity.bound) := by
  simp only [providerGroup, RowGroup.mk.injEq, true_and, mergeSort_eq_iff,
    status_wire_injective.eq_iff]
  apply and_congr_right
  intro _
  have factored : ∀ identities : List PeerIdentity, identities.map (bindingRow dump) =
      (identities.map PeerIdentity.bound).map (BoundRow.written dump) := by
    intro identities
    rw [List.map_map]
    rfl
  rw [factored, factored]
  constructor
  · intro perm
    apply perm_of_map _ perm
    intro row listed row' listed' same
    rcases List.mem_map.mp listed with ⟨identity, member, rfl⟩
    rcases List.mem_map.mp listed' with ⟨other, member', rfl⟩
    exact bound_eq_of_written injective (valid identity (List.mem_of_mem_filter member))
      (valid' other (List.mem_of_mem_filter member')) same
  · intro perm
    exact perm.map _

/-- The bytes that are hashed tell exactly what is bound, if the sizes of all fields fit into
the eight bytes that they are written in. -/
theorem bindingPreimage_faithful (injective : Injective dump) {first second : PeerEvidenceSet}
    (built : PeerEvidenceSet.Built dump first) (built' : PeerEvidenceSet.Built dump second)
    {providers others : List Bytes} {application application' : Option AuthContext}
    (fits : ∀ field ∈ bindingFields dump first providers application, field.length < 2 ^ 64)
    (fits' : ∀ field ∈ bindingFields dump second others application', field.length < 2 ^ 64) :
    bindingPreimage dump first providers application =
        bindingPreimage dump second others application' ↔
      SameBinding first second providers others application application' := by
  have groups_eq_iff : ∀ provider,
      providerGroup dump first provider = providerGroup dump second provider ↔
        first.status provider = second.status provider ∧
          ((first.forProvider provider).map PeerIdentity.bound).Perm
            ((second.forProvider provider).map PeerIdentity.bound) := by
    intro provider
    apply providerGroup_eq_iff injective
    · exact fun identity listed => (built.checked identity listed).2
    · exact fun identity listed => (built'.checked identity listed).2
  constructor
  · intro same
    have fields := addField_delimiting.flatMap_inj addField_ne_nil fits fits' same
    rcases bindingFields_split fields with ⟨groups, trailers⟩
    have keys := congrArg (List.map RowGroup.key) groups
    simp only [List.map_map, Function.comp_def, providerGroup, List.map_id'] at keys
    rw [keys, List.map_inj_left] at groups
    have each : ∀ provider ∈ providers, first.status provider = second.status provider ∧
        ((first.forProvider provider).map PeerIdentity.bound).Perm
          ((second.forProvider provider).map PeerIdentity.bound) := by
      intro provider listed
      rw [← mem_selected, keys] at listed
      exact (groups_eq_iff provider).mp (groups provider listed)
    exact ⟨selected_eq_iff.mp keys, fun provider listed => (each provider listed).1,
      fun provider listed => (each provider listed).2, applicationFields_eq_iff.mp trailers⟩
  · intro same
    have groups : (selected providers).map (providerGroup dump first) =
        (selected others).map (providerGroup dump second) := by
      rw [selected_eq_iff.mpr same.providers, List.map_inj_left]
      intro provider listed
      rw [mem_selected, ← same.providers] at listed
      exact (groups_eq_iff provider).mpr
        ⟨same.statuses provider listed, same.rows provider listed⟩
    rw [bindingPreimage, bindingPreimage, bindingFields, bindingFields, groups,
      applicationFields_eq_iff.mpr same.application]

end Faithful

/-! ## An identity and its binding -/

/-- A printer that knows the empty object, and finds everything else too long. -/
def sampleDump : Json → Bytes
  | .object [] => ascii "\x7b\x7d"
  | _ => List.replicate (kMaxJsonBytes + 1) 0x20

theorem sampleDump_injective : Injective sampleDump := by
  have only : ∀ {value : Json}, validateJsonObject sampleDump value = .ok () → value = .object [] := by
    intro value valid
    simp only [validateJsonObject, bind_eq_ok_iff, throwIf_ok_iff, exists_const] at valid
    unfold sampleDump at valid
    split at valid
    next => rfl
    next => simp at valid
  intro value other valid valid' _
  rw [only valid, only valid']

/-- A user that a proxy vouches for. -/
def sampleIdentity (subjectKey : Bytes) : PeerIdentity where
  provider := ascii "mesh"
  evidenceSource := ascii "whois"
  assurance := .localDaemon
  issuer := ascii "net"
  transport := ascii "tcp"
  subjectKind := .user
  subjectKey := some subjectKey
  subjectStability := .stable
  subjectVerified := true
  attributes := .object []
  capabilities := .object []
  capabilitiesVerified := false
  sourceAddress := none
  proxyAddress := none

/-- A set with one user. -/
def sampleEvidence (subjectKey : Bytes) : PeerEvidenceSet :=
  PeerEvidenceSet.ofResults [⟨ascii "mesh", .available, [sampleIdentity subjectKey]⟩]

theorem sampleEvidence_built {subjectKey : Bytes}
    (checked : (sampleIdentity subjectKey).check sampleDump = .ok ()) :
    PeerEvidenceSet.Built sampleDump (sampleEvidence subjectKey) := by
  refine ⟨[⟨ascii "mesh", .available, [sampleIdentity subjectKey]⟩], .new ?_ ?_⟩
  · intro result listed identity member
    rw [List.mem_singleton.mp listed, List.mem_singleton] at member
    rw [member]
    exact checked
  · rw [PeerEvidenceSet.new_ok_iff]
    refine ⟨⟨?_, List.nodup_singleton _⟩, rfl⟩
    intro result listed
    rw [List.mem_singleton.mp listed]
    exact ⟨List.cons_ne_nil _ _, by simp, by simp [sampleIdentity]⟩

/-- The subject is bound. -/
theorem users_told_apart :
    bindingPreimage sampleDump (sampleEvidence (ascii "alice")) [ascii "mesh"] none =
        bindingPreimage sampleDump (sampleEvidence (ascii "bob")) [ascii "mesh"] none ↔
      SameBinding (sampleEvidence (ascii "alice")) (sampleEvidence (ascii "bob")) [ascii "mesh"]
        [ascii "mesh"] none none :=
  bindingPreimage_faithful sampleDump_injective (sampleEvidence_built (by decide))
    (sampleEvidence_built (by decide)) (by decide +kernel) (by decide +kernel)

end VgiRpc.Evidence
