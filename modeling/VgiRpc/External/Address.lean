import VgiRpc.Cpp.Text
import VgiRpc.Lib.Prefixes

/-!
# Addresses that a fetch may connect to

`ipv4_public` and `ipv6_public`, and the special-purpose addresses that they keep out.
-/

namespace VgiRpc.External

/-- A `sin6_addr`. -/
abbrev Ipv6 := Vector UInt8 16

/-- An address that `getaddrinfo` returned; of IPv4 in host order. -/
inductive Address where
  | inet (address : UInt32)
  | inet6 (bytes : Ipv6)
  deriving DecidableEq

/-- `ntohl` of four bytes of the network. -/
def ntohl (first second third fourth : UInt8) : UInt32 :=
  first.toUInt32 <<< 24 ||| second.toUInt32 <<< 16 ||| third.toUInt32 <<< 8 ||| fourth.toUInt32

/-! ## Classification -/

/-- `in_ipv4_range`. -/
def inIpv4Range (address network mask : UInt32) : Bool := address &&& mask == network

/-- `ipv4_loopback`. -/
def ipv4Loopback (address : UInt32) : Bool := inIpv4Range address 0x7f000000 0xff000000

/-- `ipv4_public`. -/
def ipv4Public (address : UInt32) : Bool :=
  !(inIpv4Range address 0x00000000 0xff000000 || inIpv4Range address 0x0a000000 0xff000000 ||
    inIpv4Range address 0x64400000 0xffc00000 || ipv4Loopback address ||
    inIpv4Range address 0xa9fe0000 0xffff0000 || inIpv4Range address 0xac100000 0xfff00000 ||
    inIpv4Range address 0xc0000000 0xffffff00 || inIpv4Range address 0xc0000200 0xffffff00 ||
    inIpv4Range address 0xc0a80000 0xffff0000 || inIpv4Range address 0xc6120000 0xfffe0000 ||
    inIpv4Range address 0xc6336400 0xffffff00 || inIpv4Range address 0xcb007100 0xffffff00 ||
    inIpv4Range address 0xe0000000 0xf0000000 || inIpv4Range address 0xf0000000 0xf0000000)

/-- `bytes_all_zero` of `count` bytes behind an offset. -/
def bytesAllZero (bytes : Ipv6) (offset count : Nat) : Bool :=
  ((bytes.toList.drop offset).take count).all (· == 0)

/-- `ipv6_loopback`. -/
def ipv6Loopback (bytes : Ipv6) : Bool := bytesAllZero bytes 0 15 && bytes[15] == 1

/-- `ipv6_public`. -/
def ipv6Public (bytes : Ipv6) : Bool :=
  if bytesAllZero bytes 0 16 || ipv6Loopback bytes then false
  else if bytes[0] &&& 0xfe == 0xfc then false
  else if bytes[0] == 0xfe && bytes[1] &&& 0xc0 == 0x80 then false
  else if bytes[0] == 0xff then false
  else if bytes[0] == 0x20 && bytes[1] == 0x01 && bytes[2] == 0x0d && bytes[3] == 0xb8 then false
  else if bytesAllZero bytes 0 10 && bytes[10] == 0xff && bytes[11] == 0xff then
    ipv4Public (ntohl bytes[12] bytes[13] bytes[14] bytes[15])
  else if bytesAllZero bytes 0 12 then
    ipv4Public (ntohl bytes[12] bytes[13] bytes[14] bytes[15])
  else if bytes[0] == 0x00 && bytes[1] == 0x64 && bytes[2] == 0xff && bytes[3] == 0x9b &&
      bytesAllZero bytes 4 8 then
    ipv4Public (ntohl bytes[12] bytes[13] bytes[14] bytes[15])
  else if bytes[0] &&& 0xe0 != 0x20 then false
  else if bytes[0] == 0x20 && bytes[1] == 0x01 && bytes[2] == 0x00 && bytes[3] == 0x00 then false
  else if bytes[0] == 0x20 && bytes[1] == 0x01 && bytes[2] == 0x00 && bytes[3] == 0x02 then false
  else if bytes[0] == 0x20 && bytes[1] == 0x01 && bytes[2] == 0x00 &&
      bytes[3] &&& 0xf0 == 0x10 then
    false
  else if bytes[0] == 0x20 && bytes[1] == 0x01 && bytes[2] == 0x00 &&
      bytes[3] &&& 0xf0 == 0x20 then
    false
  else if bytes[0] == 0x20 && bytes[1] == 0x02 then
    ipv4Public (ntohl bytes[2] bytes[3] bytes[4] bytes[5])
  else true

namespace Address

def isPublic : Address → Bool
  | .inet address => ipv4Public address
  | .inet6 bytes => ipv6Public bytes

def isLoopback : Address → Bool
  | .inet address => ipv4Loopback address
  | .inet6 bytes => ipv6Loopback bytes

end Address

/-! ## Special-purpose addresses -/

/-- The value of a dotted address. -/
def dotted (first second third fourth : Nat) : Nat :=
  ((first * 256 + second) * 256 + third) * 256 + fourth

/-- What IPv4 blocks are set apart for. -/
inductive SpecialUse where
  | unspecified
  | privateUse
  | loopback
  | linkLocal
  | multicast
  | documentation
  | shared
  | benchmarking
  | reserved
  deriving DecidableEq, Repr

/-- The first and the last address of each block. -/
def SpecialUse.blocks : SpecialUse → List (Nat × Nat)
  | .unspecified => [(dotted 0 0 0 0, dotted 0 0 0 0)]
  | .privateUse => [(dotted 10 0 0 0, dotted 10 255 255 255),
      (dotted 172 16 0 0, dotted 172 31 255 255), (dotted 192 168 0 0, dotted 192 168 255 255)]
  | .loopback => [(dotted 127 0 0 0, dotted 127 255 255 255)]
  | .linkLocal => [(dotted 169 254 0 0, dotted 169 254 255 255)]
  | .multicast => [(dotted 224 0 0 0, dotted 239 255 255 255)]
  | .documentation => [(dotted 192 0 2 0, dotted 192 0 2 255),
      (dotted 198 51 100 0, dotted 198 51 100 255), (dotted 203 0 113 0, dotted 203 0 113 255)]
  | .shared => [(dotted 100 64 0 0, dotted 100 127 255 255)]
  | .benchmarking => [(dotted 198 18 0 0, dotted 198 19 255 255)]
  | .reserved => [(dotted 240 0 0 0, dotted 255 255 255 255)]

def Special (address : UInt32) : Prop :=
  ∃ use, ∃ block ∈ SpecialUse.blocks use, block.1 ≤ address.toNat ∧ address.toNat ≤ block.2

/-- An IPv6 address that embeds one of IPv4. -/
inductive Embeds : Ipv6 → UInt32 → Prop where
  | mapped (a b c d : UInt8) :
      Embeds #v[0, 0, 0, 0, 0, 0, 0, 0, 0, 0, 0xff, 0xff, a, b, c, d] (ntohl a b c d)
  | compatible (a b c d : UInt8) :
      Embeds #v[0, 0, 0, 0, 0, 0, 0, 0, 0, 0, 0, 0, a, b, c, d] (ntohl a b c d)
  | nat64 (a b c d : UInt8) :
      Embeds #v[0, 0x64, 0xff, 0x9b, 0, 0, 0, 0, 0, 0, 0, 0, a, b, c, d] (ntohl a b c d)
  | sixToFour (a b c d e f g h i j k l m n : UInt8) :
      Embeds #v[0x20, 0x02, a, b, c, d, e, f, g, h, i, j, k, l, m, n] (ntohl a b c d)

/-- An address that no public fetch may reach. -/
inductive Internal : Address → Prop where
  | inet {address : UInt32} (special : Special address) : Internal (.inet address)
  | embedded {bytes : Ipv6} {address : UInt32} (embeds : Embeds bytes address)
      (special : Special address) : Internal (.inet6 bytes)
  | unspecified {bytes : Ipv6} (zero : bytesAllZero bytes 0 16 = true) : Internal (.inet6 bytes)
  | loopback {bytes : Ipv6} (loopback : ipv6Loopback bytes = true) : Internal (.inet6 bytes)
  | uniqueLocal {bytes : Ipv6} (lead : bytes[0] &&& 0xfe = 0xfc) : Internal (.inet6 bytes)
  | linkLocal {bytes : Ipv6} (lead : bytes[0] = 0xfe) (next : bytes[1] &&& 0xc0 = 0x80) :
      Internal (.inet6 bytes)
  | multicast {bytes : Ipv6} (lead : bytes[0] = 0xff) : Internal (.inet6 bytes)
  | documentation {bytes : Ipv6}
      (lead : bytes[0] = 0x20 ∧ bytes[1] = 0x01 ∧ bytes[2] = 0x0d ∧ bytes[3] = 0xb8) :
      Internal (.inet6 bytes)

/-! ## Nothing internal is public -/

section Ranges

variable {address : UInt32}

/-- A range of the code as an interval. -/
theorem inIpv4Range_iff {network : UInt32} (mask : UInt32) (width bits : Nat)
    (size : width + bits = 32) (masks : mask.toNat = (2 ^ width - 1) <<< bits)
    (aligned : network.toNat % 2 ^ bits = 0) :
    inIpv4Range address network mask = true ↔
      network.toNat ≤ address.toNat ∧ address.toNat < network.toNat + 2 ^ bits := by
  rw [inIpv4Range, beq_iff_eq]
  exact Lib.word_and_eq_iff size masks (Nat.dvd_of_mod_eq_zero aligned)

/-- A public address is in no special block. -/
theorem ipv4Public_special (isPublic : ipv4Public address = true) : ¬Special address := by
  simp (disch := decide) only [ipv4Public, Bool.not_eq_true', ← Bool.not_eq_true, Bool.or_eq_true,
    not_or, ipv4Loopback, inIpv4Range_iff 0xf0000000 4 28 rfl rfl,
    inIpv4Range_iff 0xff000000 8 24 rfl rfl, inIpv4Range_iff 0xffc00000 10 22 rfl rfl,
    inIpv4Range_iff 0xfff00000 12 20 rfl rfl, inIpv4Range_iff 0xfffe0000 15 17 rfl rfl,
    inIpv4Range_iff 0xffff0000 16 16 rfl rfl, inIpv4Range_iff 0xffffff00 24 8 rfl rfl] at isPublic
  simp only [UInt32.reduceToNat, Nat.reducePow, Nat.reduceAdd] at isPublic
  rintro ⟨use, block, listed, lower, upper⟩
  cases use with
  | privateUse =>
      simp only [SpecialUse.blocks, dotted, List.mem_cons, List.not_mem_nil, or_false] at listed
      rcases listed with rfl | rfl | rfl <;> omega
  | documentation =>
      simp only [SpecialUse.blocks, dotted, List.mem_cons, List.not_mem_nil, or_false] at listed
      rcases listed with rfl | rfl | rfl <;> omega
  | _ =>
      simp only [SpecialUse.blocks, dotted, List.mem_singleton] at listed
      subst listed
      omega

/-- An embedded address is judged like itself. -/
theorem ipv6Public_embeds {bytes : Ipv6} (embeds : Embeds bytes address)
    (isPublic : ipv6Public bytes = true) : ipv4Public address = true := by
  cases embeds with
  | mapped a b c d => simpa [ipv6Public, bytesAllZero, ipv6Loopback] using isPublic
  | compatible a b c d =>
      by_cases outside : (bytesAllZero #v[0, 0, 0, 0, 0, 0, 0, 0, 0, 0, 0, 0, a, b, c, d] 0 16 ||
          ipv6Loopback #v[0, 0, 0, 0, 0, 0, 0, 0, 0, 0, 0, 0, a, b, c, d]) = true
      · rw [ipv6Public, if_pos outside] at isPublic
        exact absurd isPublic Bool.false_ne_true
      · rw [ipv6Public, if_neg outside] at isPublic
        simpa [bytesAllZero] using isPublic
  | nat64 a b c d => simpa [ipv6Public, bytesAllZero, ipv6Loopback] using isPublic
  | sixToFour a b c d e f g h i j k l m n =>
      simp [ipv6Public, bytesAllZero, ipv6Loopback] at isPublic
      exact isPublic.2.2

end Ranges

/-- What the policy lets through is not internal. -/
theorem isPublic_internal {address : Address} (isPublic : address.isPublic = true) :
    ¬Internal address := by
  intro internal
  cases internal with
  | inet special => exact ipv4Public_special isPublic special
  | embedded embeds special =>
      exact ipv4Public_special (ipv6Public_embeds embeds isPublic) special
  | unspecified zero => simp [Address.isPublic, ipv6Public, zero] at isPublic
  | loopback loopback => simp [Address.isPublic, ipv6Public, loopback] at isPublic
  | uniqueLocal lead => simp [Address.isPublic, ipv6Public, lead] at isPublic
  | linkLocal lead next => simp [Address.isPublic, ipv6Public, lead, next] at isPublic
  | multicast lead => simp [Address.isPublic, ipv6Public, lead] at isPublic
  | documentation lead => simp [Address.isPublic, ipv6Public, lead] at isPublic

end VgiRpc.External
