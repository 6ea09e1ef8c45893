import VgiRpc.Lib.Results
import VgiRpc.Socket.PeerAddress

/-!
# PROXY protocol version 2

A trusted proxy puts a preamble in front of the bytes of a connection.  It is a fixed part of 16
bytes, a block of addresses, and a sequence of type-length-value entries.
-/

namespace VgiRpc.Socket

open VgiRpc.Cpp VgiRpc.Lib

/-! ## The code -/

def kSignature : Bytes := [0x0d, 0x0a, 0x0d, 0x0a, 0x00, 0x0d, 0x0a, 0x51, 0x55, 0x49, 0x54, 0x0a]
def kFixedBytes : Nat := 16
def kVersion2 : UInt8 := 0x20
def kProxyCommand : UInt8 := 0x01
def kUnspec : UInt8 := 0x00
def kTcpIpv4 : UInt8 := 0x11
def kTcpIpv6 : UInt8 := 0x21
def kIrohEndpointVersion : UInt8 := 1
def kIrohEndpointValueBytes : Nat := 33
def irohEndpointTlv : UInt8 := 0xe0

/-- `ProxyProtocolV2Error`. -/
inductive ProxyProtocolV2Error where
  | truncatedTlvHeader
  | truncatedTlvValue
  | duplicateIroh
  | invalidIroh
  | fixedSize
  | missingSignature
  | unsupportedVersion
  | exceedsLimit
  | truncatedFixed
  | truncatedOrOverlong
  | localCommand
  | truncatedIpv4
  | truncatedIpv6
  | requiresTcp
  | irohRequired
  | irohRequiresUnspec
  | timedOut
  | cannotRead
  | truncated
  deriving DecidableEq, Repr

/-- `what()`; the text of the system's error behind `cannotRead` is left out. -/
def ProxyProtocolV2Error.what : ProxyProtocolV2Error → Bytes
  | .truncatedTlvHeader => ascii "PROXY v2 contains a truncated TLV header"
  | .truncatedTlvValue => ascii "PROXY v2 contains a truncated TLV value"
  | .duplicateIroh => ascii "PROXY v2 contains duplicate VGI Iroh identity TLVs"
  | .invalidIroh => ascii "PROXY v2 contains an invalid VGI Iroh identity TLV"
  | .fixedSize => ascii "PROXY v2 fixed preamble must be exactly 16 bytes"
  | .missingSignature => ascii "missing PROXY v2 signature"
  | .unsupportedVersion => ascii "unsupported PROXY protocol version"
  | .exceedsLimit => ascii "PROXY v2 preamble exceeds configured limit"
  | .truncatedFixed => ascii "truncated PROXY v2 fixed preamble"
  | .truncatedOrOverlong => ascii "truncated or overlong PROXY v2 preamble"
  | .localCommand => ascii "PROXY v2 LOCAL command is not accepted"
  | .truncatedIpv4 => ascii "truncated PROXY v2 TCP/IPv4 address block"
  | .truncatedIpv6 => ascii "truncated PROXY v2 TCP/IPv6 address block"
  | .requiresTcp => ascii "PROXY v2 requires TCP over IPv4 or IPv6"
  | .irohRequired => ascii "PROXY/UNSPEC requires one VGI Iroh identity TLV"
  | .irohRequiresUnspec => ascii "VGI Iroh identity requires PROXY/UNSPEC"
  | .timedOut => ascii "PROXY v2 preamble timed out"
  | .cannotRead => ascii "cannot read PROXY v2 preamble: "
  | .truncated => ascii "truncated PROXY v2 preamble"

abbrev Parsed := Except ProxyProtocolV2Error

/-- `if (condition) throw error`. -/
def refuseIf (condition : Prop) [Decidable condition] (error : ProxyProtocolV2Error) : Parsed Unit :=
  if condition then .error error else .ok ()

structure ProxyProtocolV2Address where
  sourceAddress : Bytes := []
  destinationAddress : Bytes := []
  sourcePort : Nat := 0
  destinationPort : Nat := 0
  irohEndpointId : Option Bytes := none
  deriving DecidableEq

def networkU16 (data : Bytes) : Nat := 0x100 * (data.getD 0 0).toNat + (data.getD 1 0).toNat

/-- What an entry with the identity of an Iroh endpoint does. -/
def takeIroh (result : ProxyProtocolV2Address) (value : Bytes) : Parsed ProxyProtocolV2Address := do
  refuseIf (result.irohEndpointId.isSome = true) .duplicateIroh
  refuseIf (value.length ≠ kIrohEndpointValueBytes ∨ value.head? ≠ some kIrohEndpointVersion)
    .invalidIroh
  .ok { result with irohEndpointId := some (value.drop 1) }

/-- `parse_tlvs`, from an offset on. -/
def parseTlvs (allowIrohIdentity : Bool) (result : ProxyProtocolV2Address) :
    Bytes → Parsed ProxyProtocolV2Address
  | [] => .ok result
  | [_] | [_, _] => .error .truncatedTlvHeader
  | type :: high :: low :: rest =>
      if networkU16 [high, low] > rest.length then
        .error .truncatedTlvValue
      else if type = irohEndpointTlv ∧ allowIrohIdentity = true then
        match takeIroh result (rest.take (networkU16 [high, low])) with
        | .error error => .error error
        | .ok next => parseTlvs allowIrohIdentity next (rest.drop (networkU16 [high, low]))
      else
        parseTlvs allowIrohIdentity result (rest.drop (networkU16 [high, low]))
  termination_by body => body.length
  decreasing_by all_goals simp_wf; omega

/-- `proxy_protocol_v2_size`. -/
def proxyProtocolV2Size (fixed : Bytes) (maximumBytes : Nat) : Parsed Nat := do
  refuseIf (fixed.length ≠ kFixedBytes) .fixedSize
  refuseIf (fixed.take 12 ≠ kSignature) .missingSignature
  refuseIf (fixed.getD 12 0 &&& 0xf0 ≠ kVersion2) .unsupportedVersion
  refuseIf (kFixedBytes + networkU16 (fixed.drop 14) > maximumBytes) .exceedsLimit
  .ok (kFixedBytes + networkU16 (fixed.drop 14))

/-- The address at an offset of the body. -/
def addressAt (family : Family) (body : Bytes) (offset : Nat)
    (size : ((body.drop offset).take family.size).length = family.size) : Bytes :=
  numericAddress ⟨family, (body.drop offset).take family.size, size⟩

/-- The address block: its result and its size. -/
def parseAddresses (allowIrohIdentity : Bool) (family : UInt8) (body : Bytes) :
    Parsed (ProxyProtocolV2Address × Nat) :=
  if family = kUnspec ∧ allowIrohIdentity = true then
    .ok (⟨[], [], 0, 0, none⟩, 0)
  else if family = kTcpIpv4 then
    if short : body.length < 12 then
      .error .truncatedIpv4
    else
      .ok (⟨addressAt .inet body 0 (by simp [Family.size]; omega),
        addressAt .inet body 4 (by simp [Family.size]; omega), networkU16 (body.drop 8),
        networkU16 (body.drop 10), none⟩, 12)
  else if family = kTcpIpv6 then
    if short : body.length < 36 then
      .error .truncatedIpv6
    else
      .ok (⟨addressAt .inet6 body 0 (by simp [Family.size]; omega),
        addressAt .inet6 body 16 (by simp [Family.size]; omega), networkU16 (body.drop 32),
        networkU16 (body.drop 34), none⟩, 36)
  else
    .error .requiresTcp

/-- `parse_proxy_protocol_v2`. -/
def parseProxyProtocolV2 (preamble : Bytes) (maximumBytes : Nat) (allowIrohIdentity : Bool) :
    Parsed ProxyProtocolV2Address := do
  refuseIf (preamble.length < kFixedBytes) .truncatedFixed
  let expected ← proxyProtocolV2Size (preamble.take kFixedBytes) maximumBytes
  refuseIf (preamble.length ≠ expected) .truncatedOrOverlong
  refuseIf (preamble.getD 12 0 &&& 0x0f ≠ kProxyCommand) .localCommand
  let (addresses, addressBytes) ← parseAddresses allowIrohIdentity (preamble.getD 13 0)
    (preamble.drop kFixedBytes)
  let result ← parseTlvs allowIrohIdentity addresses ((preamble.drop kFixedBytes).drop addressBytes)
  refuseIf (preamble.getD 13 0 = kUnspec ∧ result.irohEndpointId.isNone = true) .irohRequired
  refuseIf (result.irohEndpointId.isSome = true ∧ preamble.getD 13 0 ≠ kUnspec) .irohRequiresUnspec
  .ok result

/-! ## The grammar -/

/-- An entry; its length is two bytes. -/
structure Tlv where
  type : UInt8
  value : Bytes
  bound : value.length < 0x10000

/-- A number of sixteen bits in network order. -/
def encodeU16 (value : Nat) : Bytes := [UInt8.ofNat (value / 0x100), UInt8.ofNat (value % 0x100)]

def Tlv.encode (tlv : Tlv) : Bytes := tlv.type :: (encodeU16 tlv.value.length ++ tlv.value)

def encodeTlvs (tlvs : List Tlv) : Bytes := tlvs.flatMap Tlv.encode

/-- The entries with the identity of an Iroh endpoint. -/
def irohs (tlvs : List Tlv) : List Bytes := (tlvs.filter fun tlv => tlv.type = 0xe0).map Tlv.value

/-- The block of addresses. -/
inductive Addresses where
  | unspec
  | tcp (family : Family) (source destination : Bytes) (sourcePort destinationPort : UInt16)
      (sourceSize : source.length = family.size) (destinationSize : destination.length = family.size)

namespace Addresses

def familyByte : Addresses → UInt8
  | .unspec => 0x00
  | .tcp .inet _ _ _ _ _ _ => 0x11
  | .tcp .inet6 _ _ _ _ _ _ => 0x21

def encode : Addresses → Bytes
  | .unspec => []
  | .tcp _ source destination sourcePort destinationPort _ _ =>
      source ++ (destination ++ (encodeU16 sourcePort.toNat ++ encodeU16 destinationPort.toNat))

/-- What the block says, with the identity of an endpoint. -/
def result (irohEndpointId : Option Bytes) : Addresses → ProxyProtocolV2Address
  | .unspec => ⟨[], [], 0, 0, irohEndpointId⟩
  | .tcp family source destination sourcePort destinationPort sourceSize destinationSize =>
      ⟨numericAddress ⟨family, source, sourceSize⟩, numericAddress ⟨family, destination, destinationSize⟩,
        sourcePort.toNat, destinationPort.toNat, irohEndpointId⟩

end Addresses

/-- A preamble, as a proxy writes it. -/
structure Preamble where
  addresses : Addresses
  tlvs : List Tlv
  bound : (addresses.encode ++ encodeTlvs tlvs).length < 0x10000

namespace Preamble

variable (preamble : Preamble)

def body : Bytes := preamble.addresses.encode ++ encodeTlvs preamble.tlvs

/-- Signature, version 2 with the command PROXY, family, length and body. -/
def encode : Bytes :=
  kSignature ++ 0x21 :: preamble.addresses.familyByte :: (encodeU16 preamble.body.length ++ preamble.body)

/-- What the option asks of a preamble, and the identity that it carries: with Iroh allowed there
is exactly one entry under `UNSPEC`, of 33 bytes and version 1, and none under TCP; otherwise there
is no `UNSPEC`, and such entries are like any others. -/
def Carries (allowIrohIdentity : Bool) (irohEndpointId : Option Bytes) : Prop :=
  match allowIrohIdentity, preamble.addresses with
  | true, .unspec => ∃ endpoint, endpoint.length = 32 ∧ irohs preamble.tlvs = [1 :: endpoint] ∧
      irohEndpointId = some endpoint
  | true, .tcp _ _ _ _ _ _ _ => irohs preamble.tlvs = [] ∧ irohEndpointId = none
  | false, .unspec => False
  | false, .tcp _ _ _ _ _ _ _ => irohEndpointId = none

end Preamble

/-! ## Steps of the parser -/

section Steps

variable {allowIrohIdentity : Bool} {result next : ProxyProtocolV2Address} {body : Bytes}

@[simp] theorem refuseIf_ok {condition : Prop} [Decidable condition] {error : ProxyProtocolV2Error}
    {done : Unit} : refuseIf condition error = .ok done ↔ ¬condition := by
  rw [refuseIf]
  split <;> simp [*]

theorem networkU16_encode {value : Nat} (bound : value < 0x10000) (rest : Bytes) :
    networkU16 (encodeU16 value ++ rest) = value := by
  have high : (UInt8.ofNat (value / 0x100)).toNat = value / 0x100 := by
    rw [UInt8.toNat_ofNat']
    omega
  have low : (UInt8.ofNat (value % 0x100)).toNat = value % 0x100 := by
    rw [UInt8.toNat_ofNat']
    omega
  change 0x100 * (UInt8.ofNat (value / 0x100)).toNat + (UInt8.ofNat (value % 0x100)).toNat = value
  rw [high, low]
  exact Nat.div_add_mod _ _

theorem encode_networkU16 (high low : UInt8) : encodeU16 (networkU16 [high, low]) = [high, low] := by
  have bound := low.toNat_lt
  have upper : (0x100 * high.toNat + low.toNat) / 0x100 = high.toNat := by omega
  have lower : (0x100 * high.toNat + low.toNat) % 0x100 = low.toNat := by omega
  change [UInt8.ofNat ((0x100 * high.toNat + low.toNat) / 0x100),
    UInt8.ofNat ((0x100 * high.toNat + low.toNat) % 0x100)] = [high, low]
  rw [upper, lower, UInt8.ofNat_toNat, UInt8.ofNat_toNat]

theorem networkU16_bound (high low : UInt8) : networkU16 [high, low] < 0x10000 := by
  have bounds := And.intro high.toNat_lt low.toNat_lt
  change 0x100 * high.toNat + low.toNat < 0x10000
  omega

theorem takeIroh_ok {value : Bytes} : takeIroh result value = .ok next ↔
    result.irohEndpointId = none ∧ ∃ endpoint : Bytes, endpoint.length = 32 ∧ value = 1 :: endpoint ∧
      next = { result with irohEndpointId := some endpoint } := by
  simp only [takeIroh, bind_eq_ok_iff, refuseIf_ok, Option.not_isSome_iff_eq_none, not_or, not_not,
    exists_const, Except.ok.injEq]
  constructor
  · rintro ⟨fresh, ⟨size, head⟩, rfl⟩
    cases value with
    | nil => cases size
    | cons version endpoint =>
        rw [List.head?_cons, Option.some.injEq] at head
        rw [List.length_cons] at size
        exact ⟨fresh, endpoint, Nat.succ.inj size, congrArg (· :: endpoint) head, rfl⟩
  · rintro ⟨fresh, endpoint, size, rfl, rfl⟩
    refine ⟨fresh, ⟨?_, rfl⟩, rfl⟩
    rw [List.length_cons, size]
    rfl

/-- What the entries do to the result. -/
def Collects (allowIrohIdentity : Bool) (result : ProxyProtocolV2Address) (tlvs : List Tlv)
    (next : ProxyProtocolV2Address) : Prop :=
  (allowIrohIdentity = true ∧ result.irohEndpointId = none ∧ ∃ endpoint : Bytes,
      endpoint.length = 32 ∧ irohs tlvs = [1 :: endpoint] ∧
        next = { result with irohEndpointId := some endpoint }) ∨
    ((allowIrohIdentity = true → irohs tlvs = []) ∧ next = result)

theorem irohs_cons (tlv : Tlv) (tlvs : List Tlv) :
    irohs (tlv :: tlvs) = if tlv.type = irohEndpointTlv then tlv.value :: irohs tlvs else irohs tlvs := by
  rw [irohs, List.filter_cons]
  split
  · next same =>
      have type : tlv.type = irohEndpointTlv := of_decide_eq_true same
      rw [if_pos type, List.map_cons, irohs]
  · next other =>
      have type : tlv.type ≠ irohEndpointTlv := fun same => other (decide_eq_true same)
      rw [if_neg type, irohs]

/-- An entry, and what is behind it. -/
theorem parseTlvs_encode (tlv : Tlv) (rest : Bytes) :
    parseTlvs allowIrohIdentity result (tlv.encode ++ rest) =
      if tlv.type = irohEndpointTlv ∧ allowIrohIdentity = true then
        match takeIroh result tlv.value with
        | .error error => .error error
        | .ok next => parseTlvs allowIrohIdentity next rest
      else
        parseTlvs allowIrohIdentity result rest := by
  have length := networkU16_encode tlv.bound []
  rw [List.append_nil, encodeU16] at length
  rw [Tlv.encode, encodeU16, List.cons_append, List.cons_append, List.cons_append, List.cons_append,
    List.nil_append, List.cons_append, parseTlvs, length, if_neg, List.take_left, List.drop_left]
  rw [List.length_append]
  omega

/-- The parser accepts sequences of complete entries. -/
theorem parseTlvs_encodeTlvs {tlvs : List Tlv} (collects : Collects allowIrohIdentity result tlvs next) :
    parseTlvs allowIrohIdentity result (encodeTlvs tlvs) = .ok next := by
  induction tlvs generalizing result with
  | nil =>
      rcases collects with ⟨-, -, endpoint, -, none, -⟩ | ⟨-, rfl⟩
      · cases none
      · rw [encodeTlvs, List.flatMap_nil, parseTlvs]
  | cons tlv tlvs inductionHypothesis =>
      rw [encodeTlvs, List.flatMap_cons, ← encodeTlvs, parseTlvs_encode]
      rw [Collects, irohs_cons] at collects
      split
      · next iroh =>
          rw [if_pos iroh.1] at collects
          rcases collects with ⟨-, fresh, endpoint, size, entries, rfl⟩ | ⟨none, -⟩
          · obtain ⟨value, others⟩ := List.cons.inj entries
            have takes : takeIroh result tlv.value = .ok { result with irohEndpointId := some endpoint } :=
              takeIroh_ok.mpr ⟨fresh, endpoint, size, value, rfl⟩
            rw [takes]
            exact inductionHypothesis (.inr ⟨fun _ => others, rfl⟩)
          · cases none iroh.2
      · next plain =>
          apply inductionHypothesis
          rcases collects with ⟨allowed, fresh, endpoint, size, entries, rfl⟩ | ⟨none, rfl⟩
          · rw [if_neg fun same => plain ⟨same, allowed⟩] at entries
            exact .inl ⟨allowed, fresh, endpoint, size, entries, rfl⟩
          · refine .inr ⟨?_, rfl⟩
            intro allowed
            have entries := none allowed
            rw [if_neg fun same => plain ⟨same, allowed⟩] at entries
            exact entries

/-- An entry that fits is encoded in front of what is behind it. -/
theorem exists_encode (type high low : UInt8) {rest : Bytes}
    (fits : ¬networkU16 [high, low] > rest.length) : ∃ tlv : Tlv, tlv.type = type ∧
      tlv.value = rest.take (networkU16 [high, low]) ∧
        type :: high :: low :: rest = tlv.encode ++ rest.drop (networkU16 [high, low]) := by
  have size : (rest.take (networkU16 [high, low])).length = networkU16 [high, low] :=
    List.length_take_of_le (Nat.not_lt.mp fits)
  refine ⟨⟨type, rest.take (networkU16 [high, low]), ?_⟩, rfl, rfl, ?_⟩
  · rw [size]
    exact networkU16_bound high low
  · rw [Tlv.encode]
    dsimp only
    rw [size, encode_networkU16, List.cons_append, List.append_assoc, List.take_append_drop]
    rfl

/-- And nothing else. -/
theorem parseTlvs_ok (parses : parseTlvs allowIrohIdentity result body = .ok next) :
    ∃ tlvs, body = encodeTlvs tlvs ∧ Collects allowIrohIdentity result tlvs next := by
  fun_induction parseTlvs allowIrohIdentity result body with
  | case1 result => exact ⟨[], rfl, .inr ⟨fun _ => rfl, (Except.ok.inj parses).symm⟩⟩
  | case2 => cases parses
  | case3 => cases parses
  | case4 => cases parses
  | case5 => cases parses
  | case6 result type high low rest fits iroh taken takes inductionHypothesis =>
      obtain ⟨tlvs, behind, collects⟩ := inductionHypothesis parses
      obtain ⟨tlv, same, value, encoded⟩ := exists_encode type high low fits
      rw [← value] at takes
      obtain ⟨fresh, endpoint, size, identity, rfl⟩ := takeIroh_ok.mp takes
      refine ⟨tlv :: tlvs, ?_, ?_⟩
      · rw [encoded, behind, encodeTlvs, encodeTlvs, List.flatMap_cons]
      · rcases collects with ⟨-, none, -⟩ | ⟨none, rfl⟩
        · cases none
        · refine .inl ⟨iroh.2, fresh, endpoint, size, ?_, rfl⟩
          rw [irohs_cons, if_pos (same.trans iroh.1), identity, none iroh.2]
  | case7 result type high low rest fits plain inductionHypothesis =>
      obtain ⟨tlvs, behind, collects⟩ := inductionHypothesis parses
      obtain ⟨tlv, same, -, encoded⟩ := exists_encode type high low fits
      have ignored (allowed : allowIrohIdentity = true) : irohs (tlv :: tlvs) = irohs tlvs := by
        rw [irohs_cons, if_neg fun iroh => plain ⟨same.symm.trans iroh, allowed⟩]
      refine ⟨tlv :: tlvs, ?_, ?_⟩
      · rw [encoded, behind, encodeTlvs, encodeTlvs, List.flatMap_cons]
      · rcases collects with ⟨allowed, fresh, endpoint, size, entries, rfl⟩ | ⟨none, rfl⟩
        · exact .inl ⟨allowed, fresh, endpoint, size, (ignored allowed).trans entries, rfl⟩
        · exact .inr ⟨fun allowed => (ignored allowed).trans (none allowed), rfl⟩

/-! ### Addresses -/

theorem take_two (bytes : Bytes) (enough : 2 ≤ bytes.length) :
    ∃ high low, bytes = high :: low :: bytes.drop 2 := by
  match bytes, enough with
  | high :: low :: rest, _ => exact ⟨high, low, rfl⟩

/-- Two bytes are a number, and the number is those two bytes. -/
theorem exists_u16 {bytes : Bytes} (enough : 2 ≤ bytes.length) :
    ∃ value : UInt16, networkU16 bytes = value.toNat ∧
      bytes = encodeU16 value.toNat ++ bytes.drop 2 := by
  obtain ⟨high, low, same⟩ := take_two bytes enough
  have number : networkU16 bytes = networkU16 [high, low] := by
    rw [same]
    rfl
  have back : (UInt16.ofNat (networkU16 [high, low])).toNat = networkU16 [high, low] := by
    rw [UInt16.toNat_ofNat']
    exact Nat.mod_eq_of_lt (networkU16_bound high low)
  refine ⟨UInt16.ofNat (networkU16 [high, low]), ?_, ?_⟩
  · rw [number, back]
  · rw [back, encode_networkU16]
    exact same

theorem encodeU16_length (value : Nat) : (encodeU16 value).length = 2 := rfl

theorem Addresses.encode_length (family : Family) {source destination : Bytes}
    (sourcePort destinationPort : UInt16) (sourceSize : source.length = family.size)
    (destinationSize : destination.length = family.size) :
    (Addresses.tcp family source destination sourcePort destinationPort sourceSize
      destinationSize).encode.length = 2 * family.size + 4 := by
  rw [Addresses.encode, List.length_append, List.length_append, List.length_append, sourceSize,
    destinationSize, encodeU16_length, encodeU16_length]
  omega

/-- What the parser reads of a block. -/
theorem addresses_read (family : Family) {body : Bytes} (enough : 2 * family.size + 4 ≤ body.length) :
    ∃ sourcePort destinationPort : UInt16, ∃ sourceSize destinationSize,
      networkU16 (body.drop (2 * family.size)) = sourcePort.toNat ∧
      networkU16 (body.drop (2 * family.size + 2)) = destinationPort.toNat ∧
      body = (Addresses.tcp family (body.take family.size) ((body.drop family.size).take family.size)
        sourcePort destinationPort sourceSize destinationSize).encode ++
          body.drop (2 * family.size + 4) := by
  obtain ⟨sourcePort, source, sourceBytes⟩ := @exists_u16 (body.drop (2 * family.size)) (by
    rw [List.length_drop]
    omega)
  obtain ⟨destinationPort, destination, destinationBytes⟩ :=
    @exists_u16 (body.drop (2 * family.size + 2)) (by
      rw [List.length_drop]
      omega)
  rw [List.drop_drop] at sourceBytes destinationBytes
  have sourceSize : (body.take family.size).length = family.size :=
    List.length_take_of_le (by omega)
  have destinationSize : ((body.drop family.size).take family.size).length = family.size := by
    rw [List.length_take_of_le]
    rw [List.length_drop]
    omega
  refine ⟨sourcePort, destinationPort, sourceSize, destinationSize, source, destination, ?_⟩
  have second : body.drop family.size =
      (body.drop family.size).take family.size ++ body.drop (2 * family.size) := by
    conv_lhs => rw [← List.take_append_drop family.size (body.drop family.size)]
    rw [List.drop_drop, two_mul]
  rw [Addresses.encode, List.append_assoc, List.append_assoc, List.append_assoc, ← destinationBytes,
    ← sourceBytes, ← second, List.take_append_drop]

theorem addressAt_eq {family : Family} {offset place : Nat} {bytes : Bytes}
    {size : ((body.drop offset).take family.size).length = family.size} (here : offset = place)
    (same : (body.drop place).take family.size = bytes) (sized : bytes.length = family.size) :
    addressAt family body offset size = numericAddress ⟨family, bytes, sized⟩ := by
  subst here same
  rfl

/-- A block in front of the body is read as it was written. -/
theorem addresses_written (family : Family) {source destination rest : Bytes}
    (sourcePort destinationPort : UInt16) (sourceSize : source.length = family.size)
    (destinationSize : destination.length = family.size)
    (written : body = (Addresses.tcp family source destination sourcePort destinationPort sourceSize
      destinationSize).encode ++ rest) :
    (body.drop 0).take family.size = source ∧
      (body.drop family.size).take family.size = destination ∧
      networkU16 (body.drop (2 * family.size)) = sourcePort.toNat ∧
      networkU16 (body.drop (2 * family.size + 2)) = destinationPort.toNat ∧
      body.drop (2 * family.size + 4) = rest := by
  subst written
  rw [Addresses.encode, List.append_assoc, List.append_assoc, List.append_assoc]
  have second : (source ++ (destination ++ (encodeU16 sourcePort.toNat ++
      (encodeU16 destinationPort.toNat ++ rest)))).drop family.size = destination ++
        (encodeU16 sourcePort.toNat ++ (encodeU16 destinationPort.toNat ++ rest)) :=
    List.drop_left' sourceSize
  have third : (source ++ (destination ++ (encodeU16 sourcePort.toNat ++
      (encodeU16 destinationPort.toNat ++ rest)))).drop (2 * family.size) =
        encodeU16 sourcePort.toNat ++ (encodeU16 destinationPort.toNat ++ rest) := by
    rw [two_mul, ← List.drop_drop, second, List.drop_left' destinationSize]
  have fourth : (source ++ (destination ++ (encodeU16 sourcePort.toNat ++
      (encodeU16 destinationPort.toNat ++ rest)))).drop (2 * family.size + 2) =
        encodeU16 destinationPort.toNat ++ rest := by
    rw [← List.drop_drop, third]
    rfl
  have last : (source ++ (destination ++ (encodeU16 sourcePort.toNat ++
      (encodeU16 destinationPort.toNat ++ rest)))).drop (2 * family.size + 4) = rest := by
    rw [show 2 * family.size + 4 = 2 * family.size + 2 + 2 from rfl, ← List.drop_drop, fourth]
    rfl
  refine ⟨?_, ?_, ?_, ?_, last⟩
  · rw [List.drop_zero, List.take_left' sourceSize]
  · rw [second, List.take_left' destinationSize]
  · rw [third, networkU16_encode sourcePort.toNat_lt]
  · rw [fourth, networkU16_encode destinationPort.toNat_lt]

/-- The block is read if it is complete and allowed. -/
theorem parseAddresses_encode {block : Addresses} {rest : Bytes}
    (allowed : block = .unspec → allowIrohIdentity = true) :
    parseAddresses allowIrohIdentity block.familyByte (block.encode ++ rest) =
      .ok (block.result none, block.encode.length) := by
  cases block with
  | unspec => rw [parseAddresses, if_pos ⟨rfl, allowed rfl⟩]; rfl
  | tcp family source destination sourcePort destinationPort sourceSize destinationSize =>
      obtain ⟨first, second, third, fourth, -⟩ := addresses_written family sourcePort destinationPort
        sourceSize destinationSize (Eq.refl (_ ++ rest))
      have length := Addresses.encode_length family sourcePort destinationPort sourceSize destinationSize
      cases family with
      | inet =>
          have long : ¬((Addresses.tcp .inet source destination sourcePort destinationPort sourceSize
              destinationSize).encode ++ rest).length < 12 := by
            rw [List.length_append, length]
            exact Nat.not_lt.mpr (Nat.le_add_right _ _)
          have byte : (Addresses.tcp .inet source destination sourcePort destinationPort sourceSize
              destinationSize).familyByte = kTcpIpv4 := rfl
          rw [parseAddresses, byte, if_neg (fun both => absurd both.1 (by decide)), if_pos rfl,
            dif_neg long, addressAt_eq rfl first sourceSize,
            addressAt_eq (show 4 = _ from rfl) second destinationSize]
          exact congrArg Except.ok (Prod.ext (by rw [Addresses.result, ← third, ← fourth]; rfl)
            length.symm)
      | inet6 =>
          have long : ¬((Addresses.tcp .inet6 source destination sourcePort destinationPort sourceSize
              destinationSize).encode ++ rest).length < 36 := by
            rw [List.length_append, length]
            exact Nat.not_lt.mpr (Nat.le_add_right _ _)
          have byte : (Addresses.tcp .inet6 source destination sourcePort destinationPort sourceSize
              destinationSize).familyByte = kTcpIpv6 := rfl
          rw [parseAddresses, byte, if_neg (fun both => absurd both.1 (by decide)),
            if_neg (by decide), if_pos rfl, dif_neg long, addressAt_eq rfl first sourceSize,
            addressAt_eq (show 16 = _ from rfl) second destinationSize]
          exact congrArg Except.ok (Prod.ext (by rw [Addresses.result, ← third, ← fourth]; rfl)
            length.symm)

/-- And only then. -/
theorem parseAddresses_ok {family : UInt8} {addresses : ProxyProtocolV2Address} {size : Nat}
    (parses : parseAddresses allowIrohIdentity family body = .ok (addresses, size)) :
    ∃ block : Addresses, (block = .unspec → allowIrohIdentity = true) ∧ family = block.familyByte ∧
      body = block.encode ++ body.drop size ∧ addresses = block.result none := by
  rw [parseAddresses] at parses
  split at parses
  · next unspec =>
      obtain ⟨rfl, rfl⟩ := Prod.mk.inj (Except.ok.inj parses)
      exact ⟨.unspec, fun _ => unspec.2, unspec.1, rfl, rfl⟩
  · split at parses
    · next four =>
        split at parses
        · cases parses
        · next long =>
            obtain ⟨sourcePort, destinationPort, sourceSize, destinationSize, source, destination,
              encoded⟩ := addresses_read .inet (Nat.not_lt.mp long)
            obtain ⟨rfl, rfl⟩ := Prod.mk.inj (Except.ok.inj parses)
            refine ⟨.tcp .inet _ _ sourcePort destinationPort sourceSize destinationSize, nofun, four,
              encoded, ?_⟩
            rw [Addresses.result, ← source, ← destination]
            rfl
    · split at parses
      · next six =>
          split at parses
          · cases parses
          · next long =>
              obtain ⟨sourcePort, destinationPort, sourceSize, destinationSize, source, destination,
                encoded⟩ := addresses_read .inet6 (Nat.not_lt.mp long)
              obtain ⟨rfl, rfl⟩ := Prod.mk.inj (Except.ok.inj parses)
              refine ⟨.tcp .inet6 _ _ sourcePort destinationPort sourceSize destinationSize, nofun,
                six, encoded, ?_⟩
              rw [Addresses.result, ← source, ← destination]
              rfl
      · cases parses

/-! ### The whole preamble -/

/-- A preamble has 16 bytes in front of its body. -/
theorem exists_fixed {preamble : Bytes} (enough : 16 ≤ preamble.length) :
    ∃ version family high low, preamble =
      preamble.take 12 ++ version :: family :: high :: low :: preamble.drop 16 := by
  obtain ⟨version, family, first⟩ := take_two (preamble.drop 12) (by rw [List.length_drop]; omega)
  obtain ⟨high, low, second⟩ := take_two (preamble.drop 14) (by rw [List.length_drop]; omega)
  rw [List.drop_drop] at first second
  refine ⟨version, family, high, low, ?_⟩
  rw [← second, ← first, List.take_append_drop]

/-- Version 2 and the command `PROXY` are one byte. -/
theorem version_command {byte : UInt8} (version : byte &&& 0xf0 = kVersion2)
    (command : byte &&& 0x0f = kProxyCommand) : byte = 0x21 := by
  have upper : byte.toNat &&& 0xf0 = 0x20 := congrArg UInt8.toNat version
  have lower : byte.toNat &&& 0x0f = 0x01 := congrArg UInt8.toNat command
  have whole : byte.toNat &&& 0xff = byte.toNat :=
    Nat.and_two_pow_sub_one_of_lt_two_pow byte.toNat_lt
  have joined : byte.toNat &&& 0xff = (byte.toNat &&& 0xf0) ||| (byte.toNat &&& 0x0f) :=
    Nat.and_or_distrib_left byte.toNat 0xf0 0x0f
  rw [← UInt8.toNat_inj, ← whole, joined, upper, lower]
  rfl

theorem getD_behind {front : Bytes} (rest : Bytes) (index : Nat) :
    (front ++ rest).getD (front.length + index) 0 = rest.getD index 0 := by
  rw [List.getD_eq_getElem?_getD, List.getD_eq_getElem?_getD,
    List.getElem?_append_right (Nat.le_add_right _ _), Nat.add_sub_cancel_left]

variable {maximumBytes : Nat} {preamble : Bytes}

/-- What `proxy_protocol_v2_size` asks of the fixed part. -/
theorem proxyProtocolV2Size_ok {version family high low : UInt8} {total : Nat} {front : Bytes}
    (size : front.length = 12) :
    proxyProtocolV2Size (front ++ [version, family, high, low]) maximumBytes = .ok total ↔
      front = kSignature ∧ version &&& 0xf0 = kVersion2 ∧
        kFixedBytes + networkU16 [high, low] ≤ maximumBytes ∧
          total = kFixedBytes + networkU16 [high, low] := by
  have length : (front ++ [version, family, high, low]).length = kFixedBytes := by
    rw [List.length_append, size]
    rfl
  have twelfth : (front ++ [version, family, high, low]).getD 12 0 = version := by
    rw [← size]
    exact getD_behind _ 0
  have behind : (front ++ [version, family, high, low]).drop 14 = [high, low] := by
    rw [show 14 = front.length + 2 by rw [size], List.drop_append]
    simp
  simp only [proxyProtocolV2Size, bind_eq_ok_iff, refuseIf_ok, length, List.take_left' size, twelfth,
    behind, not_not, not_lt, true_and, exists_const, Except.ok.injEq, ne_eq]
  constructor
  · rintro ⟨signature, version, fits, rfl⟩
    exact ⟨signature, version, fits, rfl⟩
  · rintro ⟨signature, version, fits, rfl⟩
    exact ⟨signature, version, fits, rfl⟩

/-- What the parser asks of a preamble, piece by piece. -/
theorem parse_pieces {version family high low : UInt8} {front body : Bytes} (size : front.length = 12) :
    parseProxyProtocolV2 (front ++ version :: family :: high :: low :: body) maximumBytes
        allowIrohIdentity = .ok result ↔
      front = kSignature ∧ version = 0x21 ∧ kFixedBytes + networkU16 [high, low] ≤ maximumBytes ∧
        body.length = networkU16 [high, low] ∧
        ∃ addresses addressBytes,
          parseAddresses allowIrohIdentity family body = .ok (addresses, addressBytes) ∧
          parseTlvs allowIrohIdentity addresses (body.drop addressBytes) = .ok result ∧
          (result.irohEndpointId.isSome = true ↔ family = kUnspec) := by
  have length : (front ++ version :: family :: high :: low :: body).length = body.length + 16 := by
    rw [List.length_append, size, List.length_cons, List.length_cons, List.length_cons,
      List.length_cons]
    omega
  have fixed : (front ++ version :: family :: high :: low :: body).take kFixedBytes =
      front ++ [version, family, high, low] := by
    rw [show kFixedBytes = front.length + 4 by rw [size]; rfl, List.take_append]
    simp
  have behind : (front ++ version :: family :: high :: low :: body).drop kFixedBytes = body := by
    rw [show kFixedBytes = front.length + 4 by rw [size]; rfl, List.drop_append]
    simp
  have twelfth : (front ++ version :: family :: high :: low :: body).getD 12 0 = version := by
    rw [← size]
    exact getD_behind _ 0
  have next : (front ++ version :: family :: high :: low :: body).getD 13 0 = family := by
    rw [show 13 = front.length + 1 by rw [size]]
    exact getD_behind _ 1
  have enough : ¬(body.length + 16 < kFixedBytes) := Nat.not_lt.mpr (Nat.le_add_left _ _)
  simp only [parseProxyProtocolV2, bind_eq_ok_iff, refuseIf_ok, length, fixed, behind, twelfth, next,
    proxyProtocolV2Size_ok size, not_not, ne_eq, Prod.exists, Except.ok.injEq, exists_const]
  constructor
  · rintro ⟨-, total, ⟨signature, version, fits, rfl⟩, whole, command, addresses, addressBytes, block,
      collected, entries, required, forbidden, rfl⟩
    refine ⟨signature, version_command version command, fits, ?_, addresses, addressBytes, block,
      entries, ?_⟩
    · rw [kFixedBytes] at whole
      omega
    · constructor
      · intro some
        by_contra other
        exact forbidden ⟨some, other⟩
      · intro unspec
        by_contra none
        exact required ⟨unspec, by simpa using none⟩
  · rintro ⟨signature, rfl, fits, whole, addresses, addressBytes, block, entries, identity⟩
    refine ⟨enough, _, ⟨signature, by decide, fits, rfl⟩, ?_, by decide, addresses, addressBytes,
      block, result, entries, ?_, ?_, rfl⟩
    · rw [kFixedBytes]
      omega
    · rintro ⟨unspec, none⟩
      have some := identity.mpr unspec
      rw [Option.isNone_iff_eq_none] at none
      rw [none] at some
      cases some
    · rintro ⟨some, other⟩
      exact other (identity.mp some)

theorem Addresses.familyByte_unspec {block : Addresses} (unspec : block.familyByte = kUnspec) :
    block = .unspec := by
  cases block with
  | unspec => rfl
  | tcp family _ _ _ _ _ _ =>
      cases family with
      | inet => exact absurd unspec (show ¬kTcpIpv4 = kUnspec by decide)
      | inet6 => exact absurd unspec (show ¬kTcpIpv6 = kUnspec by decide)

/-- What the entries leave is what the preamble carries. -/
theorem carries_of_collects {preamble : Preamble}
    (allowed : preamble.addresses = .unspec → allowIrohIdentity = true)
    (collects : Collects allowIrohIdentity (preamble.addresses.result none) preamble.tlvs result)
    (identity : result.irohEndpointId.isSome = true ↔ preamble.addresses.familyByte = kUnspec) :
    preamble.Carries allowIrohIdentity result.irohEndpointId ∧
      result = preamble.addresses.result result.irohEndpointId := by
  have none : (preamble.addresses.result none).irohEndpointId = none := by
    cases preamble.addresses with
    | unspec => rfl
    | tcp => rfl
  have some (endpoint : Bytes) :
      { preamble.addresses.result Option.none with irohEndpointId := Option.some endpoint } =
        preamble.addresses.result (Option.some endpoint) := by
    cases preamble.addresses with
    | unspec => rfl
    | tcp => rfl
  rw [Preamble.Carries.eq_def]
  rcases collects with ⟨allow, -, endpoint, size, entries, rfl⟩ | ⟨entries, rfl⟩
  · have unspec := Addresses.familyByte_unspec (identity.mp rfl)
    refine ⟨?_, some endpoint⟩
    rw [allow, unspec]
    exact ⟨endpoint, size, entries, rfl⟩
  · have tcp : preamble.addresses ≠ .unspec := by
      intro unspec
      have isSome := identity.mpr (by rw [unspec]; rfl)
      rw [none] at isSome
      cases isSome
    refine ⟨?_, by rw [none]⟩
    rw [none]
    cases allowIrohIdentity with
    | true =>
        cases same : preamble.addresses with
        | unspec => exact absurd same tcp
        | tcp => exact ⟨entries rfl, rfl⟩
    | false =>
        cases same : preamble.addresses with
        | unspec => exact absurd same tcp
        | tcp => rfl

/-- What a preamble carries is what its entries leave. -/
theorem collects_of_carries {preamble : Preamble} {irohEndpointId : Option Bytes}
    (carries : preamble.Carries allowIrohIdentity irohEndpointId) :
    (preamble.addresses = .unspec → allowIrohIdentity = true) ∧
      Collects allowIrohIdentity (preamble.addresses.result none) preamble.tlvs
        (preamble.addresses.result irohEndpointId) ∧
      ((preamble.addresses.result irohEndpointId).irohEndpointId.isSome = true ↔
        preamble.addresses.familyByte = kUnspec) := by
  rw [Preamble.Carries.eq_def] at carries
  split at carries
  · next unspec =>
      obtain ⟨endpoint, size, entries, rfl⟩ := carries
      rw [unspec]
      exact ⟨fun _ => rfl, .inl ⟨rfl, rfl, endpoint, size, entries, rfl⟩, fun _ => rfl, fun _ => rfl⟩
  · next family _ _ _ _ _ _ tcp =>
      obtain ⟨entries, rfl⟩ := carries
      rw [tcp]
      refine ⟨nofun, .inr ⟨fun _ => entries, rfl⟩, nofun, ?_⟩
      intro unspec
      cases Addresses.familyByte_unspec unspec
  · exact carries.elim
  · next family _ _ _ _ _ _ tcp =>
      subst carries
      rw [tcp]
      refine ⟨nofun, .inr ⟨nofun, rfl⟩, nofun, ?_⟩
      intro unspec
      cases Addresses.familyByte_unspec unspec

end Steps

/-- The parser accepts exactly the preambles of the grammar that are within the limit and carry what
the option asks for, and returns what they say. -/
theorem parseProxyProtocolV2_ok {bytes : Bytes} {maximumBytes : Nat} {allowIrohIdentity : Bool}
    {result : ProxyProtocolV2Address} :
    parseProxyProtocolV2 bytes maximumBytes allowIrohIdentity = .ok result ↔
      ∃ (preamble : Preamble) (irohEndpointId : Option Bytes), bytes = preamble.encode ∧
        bytes.length ≤ maximumBytes ∧ preamble.Carries allowIrohIdentity irohEndpointId ∧
        result = preamble.addresses.result irohEndpointId := by
  constructor
  · intro parses
    have enough : 16 ≤ bytes.length := by
      simp only [parseProxyProtocolV2, bind_eq_ok_iff, refuseIf_ok, not_lt] at parses
      obtain ⟨-, long, -⟩ := parses
      exact long
    obtain ⟨version, family, high, low, shape⟩ := exists_fixed enough
    have front : (bytes.take 12).length = 12 := List.length_take_of_le (by omega)
    have total : bytes.length = (bytes.drop 16).length + 16 := by
      rw [List.length_drop]
      omega
    rw [shape, parse_pieces front] at parses
    obtain ⟨signature, rfl, fits, whole, addresses, addressBytes, blockParses, entries,
      identity⟩ := parses
    obtain ⟨block, allowed, rfl, encoded, rfl⟩ := parseAddresses_ok blockParses
    obtain ⟨tlvs, rest, collects⟩ := parseTlvs_ok entries
    rw [rest] at encoded
    have body : block.encode ++ encodeTlvs tlvs = bytes.drop 16 := encoded.symm
    let preamble : Preamble := ⟨block, tlvs, by
      rw [body, whole]
      exact networkU16_bound high low⟩
    obtain ⟨carries, same⟩ := @carries_of_collects _ _ preamble allowed collects identity
    refine ⟨preamble, result.irohEndpointId, ?_, ?_, carries, same⟩
    · have length : encodeU16 preamble.body.length = [high, low] := by
        rw [Preamble.body, body, whole, encode_networkU16]
      rw [Preamble.encode, length, Preamble.body, body, ← signature]
      exact shape
    · rw [total, whole, Nat.add_comm]
      exact fits
  · rintro ⟨preamble, irohEndpointId, rfl, within, carries, rfl⟩
    obtain ⟨allowed, collects, identity⟩ := collects_of_carries carries
    have length : networkU16 (encodeU16 preamble.body.length) = preamble.body.length := by
      have reads := networkU16_encode preamble.bound []
      rw [List.append_nil] at reads
      exact reads
    have size : preamble.encode.length = kFixedBytes + preamble.body.length := by
      rw [Preamble.encode, List.length_append, List.length_cons, List.length_cons, List.length_append,
        encodeU16_length, kFixedBytes]
      have signature : kSignature.length = 12 := rfl
      omega
    have fits : kFixedBytes + networkU16 (encodeU16 preamble.body.length) ≤ maximumBytes := by
      rw [length, ← size]
      exact within
    have entries : parseTlvs allowIrohIdentity (preamble.addresses.result none)
        (preamble.body.drop preamble.addresses.encode.length) =
          .ok (preamble.addresses.result irohEndpointId) := by
      rw [Preamble.body, List.drop_left]
      exact parseTlvs_encodeTlvs collects
    exact (@parse_pieces _ _ _ _ _ _ _ kSignature _ rfl).mpr ⟨rfl, rfl, fits, length.symm, _, _,
      parseAddresses_encode allowed, entries, identity⟩

end VgiRpc.Socket
