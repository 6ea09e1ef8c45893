import VgiRpc.Cpp.InetRoundTrip
import VgiRpc.Identity.Xfcc

/-!
# Addresses of peers

The address of a connected socket, the addresses that a trusted proxy asserts and the configured
addresses of proxies are compared and recorded as text.  An IPv4 address that is mapped into IPv6 is
meant to read like the IPv4 address.
-/

namespace VgiRpc.Socket

open VgiRpc.Cpp VgiRpc.Lib

/-! ## Addresses -/

/-- `AF_INET` and `AF_INET6`. -/
inductive Family where
  | inet
  | inet6
  deriving DecidableEq, Repr

/-- How many bytes an address has. -/
def Family.size : Family → Nat
  | .inet => 4
  | .inet6 => 16

/-- An address in network order. -/
structure IpAddress where
  family : Family
  bytes : Bytes
  size : bytes.length = family.size
  deriving DecidableEq

/-- What a C function reads of a `std::string`. -/
def cString (value : Bytes) : Bytes := value.takeWhile (· ≠ 0)

def inetNtop (address : IpAddress) : Bytes :=
  match address.family with
  | .inet => dotted address.bytes
  | .inet6 => inetNtop6 (wordsOf address.bytes)

def inetPton (family : Family) (value : Bytes) : Option IpAddress :=
  let parsed := match family with
    | .inet => inetPton4 (cString value)
    | .inet6 => (inetPton6 (cString value)).map bytesOf
  parsed.bind fun bytes => if size : bytes.length = family.size then some ⟨family, bytes, size⟩ else none

/-! ## The code -/

def mapped : Bytes := ascii "::ffff:"

/-- `numeric_address`; `inet_ntop` does not fail on an address of its own family. -/
def numericAddress (address : IpAddress) : Bytes :=
  let value := inetNtop address
  if mapped.length < value.length ∧
      (value.take mapped.length).map Identity.toLower = mapped.map Identity.toLower then
    value.drop mapped.length
  else
    value

/-- `text.rfind(mapped, 0) == 0` and what follows it. -/
def stripMapped (text : Bytes) : Bytes :=
  if mapped.isPrefixOf text then text.drop mapped.length else text

/-- `socket_endpoint`. -/
def socketEndpoint (address : Bytes) (port : Nat) : Bytes :=
  if 0x3a ∉ address then address ++ 0x3a :: decimal port
  else 0x5b :: (address ++ ascii "]:" ++ decimal port)

/-- `AcceptedPeer`, without its time. -/
structure AcceptedPeer where
  address : Bytes
  endpoint : Bytes

/-- `accepted_peer`; `none` is a socket of another family. -/
def acceptedPeer : Option (IpAddress × Nat) → AcceptedPeer
  | some (address, port) =>
      let text := stripMapped (inetNtop address)
      ⟨text, socketEndpoint text port⟩
  | none => ⟨[], []⟩

/-- `normalize_ip`. -/
def normalizeIp (value : Bytes) : Bytes :=
  match inetPton .inet value with
  | some address => inetNtop address
  | none =>
      match inetPton .inet6 value with
      | some address => stripMapped (inetNtop address)
      | none => []

def mappedBytes : Bytes := [0, 0, 0, 0, 0, 0, 0, 0, 0, 0, 0xff, 0xff]

/-- The address that a mapped address stands for. -/
def IpAddress.canonical (address : IpAddress) : IpAddress :=
  if isMapped : address.family = .inet6 ∧ address.bytes.take 12 = mappedBytes then
    ⟨.inet, address.bytes.drop 12, by rw [List.length_drop, address.size, isMapped.1]; rfl⟩
  else
    address

/-- `parse_exact_ip`. -/
def parseExactIp (text : Bytes) : Option IpAddress :=
  match inetPton .inet text with
  | some address => some address
  | none => (inetPton .inet6 text).map IpAddress.canonical

/-- The address that a text denotes. -/
def denoted (text : Bytes) : Option IpAddress :=
  match inetPton .inet text with
  | some address => some address
  | none => inetPton .inet6 text

/-! ## What is expected of the text -/

/-- The text of an address denotes it, in each of the three places. -/
structure Faithful (address : IpAddress) : Prop where
  numeric : denoted (numericAddress address) = some address.canonical
  accepted : ∀ port, denoted (acceptedPeer (some (address, port))).address = some address.canonical
  normalized : ∀ value, denoted value = some address →
    denoted (normalizeIp value) = some address.canonical
  exactIp : parseExactIp (numericAddress address) = some address.canonical
  idempotent : ∀ value, denoted value = some address →
    normalizeIp (normalizeIp value) = normalizeIp value

/-- The three agree with each other and with `parse_exact_ip` on which addresses are the same. -/
structure Agree (first second : IpAddress) : Prop where
  numeric : numericAddress first = numericAddress second ↔ first.canonical = second.canonical
  accepted : ∀ port, (acceptedPeer (some (first, port))).address = numericAddress first
  normalized : ∀ value, denoted value = some first → normalizeIp value = numericAddress first
  exactIp : ∀ value other, denoted value = some first → denoted other = some second →
    (normalizeIp value = normalizeIp other ↔ parseExactIp value = parseExactIp other)

/-- The longest run of zero groups begins the address, is of two to four groups, and `ffff` is next
to it: the text begins like that of a mapped address. -/
def IpAddress.LooksMapped (address : IpAddress) : Prop :=
  address.family = .inet6 ∧ (bestRun (wordsOf address.bytes)).1 = 0 ∧
    2 ≤ (bestRun (wordsOf address.bytes)).2 ∧ (bestRun (wordsOf address.bytes)).2 ≤ 4 ∧
      (wordsOf address.bytes)[(bestRun (wordsOf address.bytes)).2]? = some 0xffff

/-! ## Prefixes of printed addresses -/

section Prefixes

variable {words : List Nat}

/-- The groups of a mapped IPv4 address. -/
def MappedWords (words : List Nat) : Prop := words.take 6 = [0, 0, 0, 0, 0, 0xffff]

/-- The groups of an address that looks like one. -/
def LooksMappedWords (words : List Nat) : Prop :=
  (bestRun words).1 = 0 ∧ 2 ≤ (bestRun words).2 ∧ (bestRun words).2 ≤ 4 ∧
    words[(bestRun words).2]? = some 0xffff

theorem colons_cons {token : Bytes} {groups : List Bytes} :
    colons (token :: groups) = token ++ (if groups = [] then [] else 0x3a :: colons groups) := by
  cases groups with
  | nil => rw [colons, List.intercalate_singleton, if_pos rfl, List.append_nil]
  | cons next groups => rw [colons_cons_cons, if_neg (List.cons_ne_nil _ _)]

theorem bestRun_mapped (third fourth : Nat) :
    bestRun [0, 0, 0, 0, 0, 0xffff, third, fourth] = (0, 5) := by
  cases third with
  | zero =>
      cases fourth with
      | zero => rfl
      | succ fourth => rfl
  | succ third =>
      cases fourth with
      | zero => rfl
      | succ fourth => rfl

/-- A mapped address is printed as an IPv4 address behind the prefix. -/
theorem inetNtop6_mapped (address : IsAddress words) (isMapped : MappedWords words) :
    inetNtop6 words = mapped ++ dotted (bytesOf (words.drop 6)) := by
  obtain ⟨third, fourth, behind⟩ : ∃ third fourth, words.drop 6 = [third, fourth] := by
    apply List.length_eq_two.mp
    rw [List.length_drop, address.size]
  have whole : words = [0, 0, 0, 0, 0, 0xffff, third, fourth] := by
    rw [← List.take_append_drop 6 words, isMapped, behind]
    rfl
  have groups : groupsBehind [0, 0, 0, 0, 0, 0xffff, third, fourth] 0 5 =
      [hexWord 0xffff, dotted (bytesOf [third, fourth])] := by
    rw [groupsBehind, if_pos ⟨rfl, .inr ⟨rfl, rfl⟩⟩]
    rfl
  rw [inetNtop6, whole, bestRun_mapped, if_neg (by decide), groups, colons_cons_cons, colons_cons,
    if_pos rfl, List.append_nil]
  rfl

theorem drop_eq_cons {len : Nat} (found : words[len]? = some 0xffff) :
    words.drop len = 0xffff :: words.drop (len + 1) := by
  obtain ⟨bound, same⟩ := List.getElem?_eq_some_iff.mp found
  rw [List.drop_eq_getElem_cons bound, same]

/-- An address that looks mapped is printed with groups behind the prefix. -/
theorem inetNtop6_looksMapped (address : IsAddress words) (looks : LooksMappedWords words) :
    inetNtop6 words = mapped ++ colons ((words.drop ((bestRun words).2 + 1)).map hexWord) := by
  obtain ⟨first, lower, upper, found⟩ := looks
  have several : (words.drop ((bestRun words).2 + 1)).map hexWord ≠ [] := by
    rw [Ne, List.map_eq_nil_iff, List.drop_eq_nil_iff, address.size]
    omega
  have behind : groupsBehind words 0 (bestRun words).2 =
      hexWord 0xffff :: (words.drop ((bestRun words).2 + 1)).map hexWord := by
    rw [groupsBehind, if_neg (by omega), Nat.zero_add, drop_eq_cons found, List.map_cons]
  rw [inetNtop6, if_neg (by omega), first, behind, colons_cons, if_neg several]
  rfl

/-- Behind a run that begins the address, the prefix goes on in these two cases only. -/
theorem groupsBehind_cases (address : IsAddress words) (first : (bestRun words).1 = 0)
    (long : 2 ≤ (bestRun words).2) {rest : Bytes}
    (text : colons (groupsBehind words 0 (bestRun words).2) = ascii "ffff" ++ 0x3a :: rest) :
    MappedWords words ∨ LooksMappedWords words := by
  have split := bestRun_split words
  rw [first, List.take_zero, List.nil_append, Nat.zero_add] at split
  rw [LooksMappedWords, first]
  generalize (bestRun words).2 = len at long text split ⊢
  rw [groupsBehind] at text
  split at text
  · next mixed =>
      rcases mixed.2 with rfl | ⟨rfl, found⟩
      · have colon : (0x3a : UInt8) ∈ ascii "ffff" ++ 0x3a :: rest :=
          List.mem_append_right _ List.mem_cons_self
        rw [← text, Nat.sub_self, List.take_zero, List.map_nil, List.nil_append, colons,
          List.intercalate_singleton] at colon
        exact absurd colon (Group.dotted address.quad_length).colonless
      · left
        rw [MappedWords, split, drop_eq_cons found]
        rfl
  · next plain =>
      right
      rw [Nat.zero_add] at text
      cases behind : words.drop len with
      | nil =>
          rw [behind] at text
          cases text
      | cons word tail =>
          have bound := address.dropBound len
          rw [behind, List.forall_mem_cons] at bound
          rw [behind, List.map_cons, colons_cons] at text
          split at text
          · have colon : (0x3a : UInt8) ∈ ascii "ffff" ++ 0x3a :: rest :=
              List.mem_append_right _ List.mem_cons_self
            rw [← text, List.append_nil] at colon
            exact absurd colon (Group.hexWord bound.1).colonless
          · next several =>
              have token := ((append_cons_inj_front (Group.hexWord bound.1).colonless
                (show (0x3a : UInt8) ∉ ascii "ffff" by decide)).mp text).1
              have value := readGroup_hexWord bound.1
              rw [token] at value
              have same : word = 0xffff := (Option.some.inj value).symm
              have found : words[len]? = some 0xffff := by
                rw [← same, ← List.head?_drop, behind, List.head?_cons]
              have size : 2 ≤ (words.drop len).length := by
                rw [behind, List.length_cons]
                have positive : tail.map hexWord ≠ [] := several
                rw [Ne, List.map_eq_nil_iff] at positive
                have := List.length_pos_of_ne_nil positive
                omega
              rw [List.length_drop, address.size] at size
              refine ⟨rfl, long, ?_, found⟩
              by_contra large
              have either : len = 6 ∨ len = 5 := by omega
              rcases either with rfl | rfl
              · exact plain ⟨rfl, .inl rfl⟩
              · exact plain ⟨rfl, .inr ⟨rfl, found⟩⟩

/-- Nothing else is printed with the prefix. -/
theorem prefix_cases (address : IsAddress words) {rest : Bytes}
    (text : inetNtop6 words = mapped ++ rest) : MappedWords words ∨ LooksMappedWords words := by
  have starts (groups : List Bytes) (behind : Bytes) (all : ∀ token ∈ groups, Group token)
      (several : groups ≠ []) : colons groups ++ behind ≠ mapped ++ rest := by
    intro same
    obtain ⟨byte, tail, start, apart⟩ := colons_head all several
    rw [start] at same
    exact apart (List.head_eq_of_cons_eq same)
  have several : words ≠ [] := by
    intro empty
    have size := address.size
    rw [empty] at size
    cases size
  rw [inetNtop6] at text
  split at text
  · rw [← List.append_nil (colons _)] at text
    exact absurd text (starts _ _ (groups_hexWord address.bound) (by simpa using several))
  · next long =>
      by_cases first : (bestRun words).1 = 0
      · rw [first, List.take_zero, List.map_nil] at text
        exact groupsBehind_cases address first (Nat.not_lt.mp long)
          (List.cons.inj (List.cons.inj text).2).2
      · have front : (words.take (bestRun words).1).map hexWord ≠ [] := by
          rw [Ne, List.map_eq_nil_iff, List.take_eq_nil_iff, not_or]
          exact ⟨first, several⟩
        exact absurd text (starts _ _ (groups_hexWord (address.takeBound _)) front)

end Prefixes

/-! ## The text of an address -/

section Texts

variable {address other : IpAddress} {value : Bytes}

/-- The text that all three write. -/
def printed (address : IpAddress) : Bytes := stripMapped (inetNtop address)

theorem words_isAddress (bytes : Bytes) (size : bytes.length = 16) : IsAddress (wordsOf bytes) := by
  constructor
  · rw [wordsOf_length, size]
  · exact wordsOf_bound bytes

theorem inetNtop_printed (address : IpAddress) : ∀ byte ∈ inetNtop address, IsPrinted byte := by
  obtain ⟨family, bytes, size⟩ := address
  cases family with
  | inet => exact printed_dotted bytes
  | inet6 => exact (words_isAddress bytes size).printed

theorem toLower_printed {byte : UInt8} (printed : IsPrinted byte) : Identity.toLower byte = byte := by
  rcases printed with ⟨digit, bound, rfl⟩ | rfl | rfl
  · interval_cases digit <;> rfl
  · rfl
  · rfl

theorem ne_zero_printed {byte : UInt8} (printed : IsPrinted byte) : byte ≠ 0 := by
  rcases printed with ⟨digit, bound, rfl⟩ | rfl | rfl
  · interval_cases digit <;> decide
  · decide
  · decide

theorem cString_printed (all : ∀ byte ∈ value, IsPrinted byte) : cString value = value := by
  rw [cString, List.takeWhile_eq_self_iff]
  intro byte mem
  exact decide_eq_true (ne_zero_printed (all byte mem))

theorem stripMapped_append (rest : Bytes) : stripMapped (mapped ++ rest) = rest := by
  have starts : mapped.isPrefixOf (mapped ++ rest) = true := by
    rw [List.isPrefixOf_iff_prefix]
    exact List.prefix_append _ _
  rw [stripMapped, if_pos starts, List.drop_left]

theorem stripMapped_other (none : ∀ rest, value ≠ mapped ++ rest) : stripMapped value = value := by
  rw [stripMapped, if_neg]
  intro starts
  obtain ⟨rest, same⟩ := List.isPrefixOf_iff_prefix.mp starts
  exact none rest same.symm

theorem dotted_other (octets rest : Bytes) : dotted octets ≠ mapped ++ rest := by
  intro same
  have colon : (0x3a : UInt8) ∈ dotted octets := by
    rw [same]
    exact List.mem_append_left _ (by decide)
  rcases mem_dotted colon with digit | dot
  · exact absurd digit (by decide)
  · exact absurd dot (by decide)

/-- Something is always behind the prefix. -/
theorem behind_ne_nil {rest : Bytes} (text : inetNtop address = mapped ++ rest) : rest ≠ [] := by
  obtain ⟨family, bytes, size⟩ := address
  cases family with
  | inet => exact absurd text (dotted_other bytes rest)
  | inet6 =>
      have isAddress := words_isAddress bytes size
      change inetNtop6 (wordsOf bytes) = mapped ++ rest at text
      rcases prefix_cases isAddress text with isMapped | looks
      · rw [inetNtop6_mapped isAddress isMapped, List.append_cancel_left_eq] at text
        rw [← text]
        exact (Group.dotted isAddress.quad_length).nonempty
      · rw [inetNtop6_looksMapped isAddress looks, List.append_cancel_left_eq] at text
        obtain ⟨-, -, upper, -⟩ := looks
        have several : (wordsOf bytes).drop ((bestRun (wordsOf bytes)).2 + 1) ≠ [] := by
          rw [Ne, List.drop_eq_nil_iff, isAddress.size]
          omega
        obtain ⟨byte, tail, start, -⟩ := colons_head (groups_hexWord (isAddress.dropBound _))
          (by simpa using several)
        rw [← text, start]
        exact List.cons_ne_nil _ _

/-- The text is in lower case, so that the comparison without regard to case finds no more. -/
theorem numericAddress_printed (address : IpAddress) : numericAddress address = printed address := by
  have lower : ((inetNtop address).take mapped.length).map Identity.toLower =
      (inetNtop address).take mapped.length := by
    conv_rhs => rw [← List.map_id ((inetNtop address).take mapped.length)]
    apply List.map_congr_left
    intro byte mem
    exact toLower_printed (inetNtop_printed address byte (List.mem_of_mem_take mem))
  have prefixLower : mapped.map Identity.toLower = mapped := by decide
  rw [numericAddress, printed]
  rw [lower, prefixLower]
  by_cases found : ∃ rest, inetNtop address = mapped ++ rest
  · obtain ⟨rest, text⟩ := found
    have positive := List.length_pos_of_ne_nil (behind_ne_nil text)
    rw [text, stripMapped_append, List.take_left, List.drop_left, List.length_append,
      if_pos ⟨Nat.lt_add_of_pos_right positive, rfl⟩]
  · rw [stripMapped_other (not_exists.mp found), if_neg]
    rintro ⟨-, same⟩
    refine found ⟨(inetNtop address).drop mapped.length, ?_⟩
    conv_lhs => rw [← List.take_append_drop mapped.length (inetNtop address), same]

/-! ### What it denotes -/

theorem inetPton_dotted {octets : Bytes} (size : octets.length = Family.inet.size) :
    denoted (dotted octets) = some ⟨.inet, octets, size⟩ := by
  rw [denoted, inetPton]
  rw [cString_printed (printed_dotted octets), inetPton4_dotted size, Option.bind_some]
  rw [dif_pos size]

/-- A text with a colon is no IPv4 address. -/
theorem inetPton_inet_none (clean : cString value = value) (colon : (0x3a : UInt8) ∈ value) :
    inetPton .inet value = none := by
  rw [inetPton]
  rw [clean]
  cases reads : inetPton4 value with
  | none => rfl
  | some octets =>
      rcases mem_of_inetPton4 reads colon with digit | dot
      · exact absurd digit (by decide)
      · exact absurd dot (by decide)

theorem inetPton_inetNtop6 {bytes : Bytes} (size : bytes.length = Family.inet6.size) :
    denoted (inetNtop6 (wordsOf bytes)) = some ⟨.inet6, bytes, size⟩ := by
  have isAddress := words_isAddress bytes size
  have clean := cString_printed isAddress.printed
  have bytesEq : bytesOf (wordsOf bytes) = bytes := bytesOf_wordsOf (by rw [size]; rfl)
  rw [denoted, inetPton_inet_none clean isAddress.colon_mem, inetPton]
  rw [clean, isAddress.inetPton6_inetNtop6, Option.map_some, Option.bind_some]
  rw [bytesEq, dif_pos size]

/-- Groups alone, unless there are eight, denote nothing. -/
theorem denoted_colons {words : List Nat} (bound : ∀ word ∈ words, word < 0x10000)
    (several : 2 ≤ words.length) (few : words.length < 8) :
    denoted (colons (words.map hexWord)) = none := by
  have all := groups_hexWord bound
  have clean := cString_printed (printed_colons (printed_hexWord bound))
  have colon : (0x3a : UInt8) ∈ colons (words.map hexWord) :=
    colon_mem_colons (by rw [List.length_map]; exact several)
  have reads : inetPton6 (colons (words.map hexWord)) = none := by
    rw [inetPton6, splitGap_colons all]
    dsimp only
    rw [groupsOf_colons all, readGroups_hexWord bound]
    exact if_neg few.ne
  rw [denoted, inetPton_inet_none clean colon, inetPton]
  rw [clean, reads]
  rfl

/-! ### Mapped addresses -/

theorem bytes_split {bytes : Bytes} (size : bytes.length = 16) :
    bytes.take 12 = bytesOf ((wordsOf bytes).take 6) ∧ bytes.drop 12 = bytesOf ((wordsOf bytes).drop 6) := by
  have front : (bytesOf ((wordsOf bytes).take 6)).length = 12 := by
    rw [bytesOf_length, List.length_take, wordsOf_length, size]
    rfl
  have joined : bytesOf ((wordsOf bytes).take 6) ++ bytesOf ((wordsOf bytes).drop 6) = bytes := by
    have whole : bytesOf (wordsOf bytes) = bytes := bytesOf_wordsOf (by rw [size])
    conv_rhs => rw [← whole, ← List.take_append_drop 6 (wordsOf bytes)]
    rw [bytesOf, bytesOf, bytesOf, List.flatMap_append]
  constructor
  · conv_lhs => rw [← joined]
    exact List.take_left' front
  · conv_lhs => rw [← joined]
    exact List.drop_left' front

theorem mapped_iff {bytes : Bytes} (size : bytes.length = 16) :
    bytes.take 12 = mappedBytes ↔ MappedWords (wordsOf bytes) := by
  rw [(bytes_split size).1, MappedWords]
  constructor
  · intro same
    have words := congrArg wordsOf same
    rw [wordsOf_bytesOf ((words_isAddress bytes size).takeBound 6)] at words
    exact words
  · intro same
    rw [same]
    rfl

/-- What the text of an address denotes. -/
theorem denoted_printed (usual : ¬address.LooksMapped) :
    denoted (printed address) = some address.canonical := by
  obtain ⟨family, bytes, size⟩ := address
  cases family with
  | inet =>
      have whole : printed ⟨.inet, bytes, size⟩ = dotted bytes := stripMapped_other (dotted_other bytes)
      rw [whole, inetPton_dotted size, IpAddress.canonical, dif_neg (by simp)]
  | inet6 =>
      have isAddress := words_isAddress bytes size
      by_cases isMapped : MappedWords (wordsOf bytes)
      · have stripped : printed ⟨.inet6, bytes, size⟩ = dotted (bytes.drop 12) := by
          rw [printed, inetNtop]
          dsimp only
          rw [inetNtop6_mapped isAddress isMapped, stripMapped_append, (bytes_split size).2]
        rw [stripped, inetPton_dotted (by rw [List.length_drop, size]; rfl), IpAddress.canonical,
          dif_pos ⟨rfl, (mapped_iff size).mpr isMapped⟩]
      · have whole : printed ⟨.inet6, bytes, size⟩ = inetNtop6 (wordsOf bytes) := by
          apply stripMapped_other
          intro rest text
          rcases prefix_cases isAddress text with other | looks
          · exact isMapped other
          · exact usual ⟨rfl, looks⟩
        rw [whole, inetPton_inetNtop6 size, IpAddress.canonical,
          dif_neg fun both => isMapped ((mapped_iff size).mp both.2)]

/-- The text of an address that looks mapped is a row of three to five groups. -/
theorem printed_looksMapped (looks : address.LooksMapped) :
    printed address = colons (((wordsOf address.bytes).drop
      ((bestRun (wordsOf address.bytes)).2 + 1)).map hexWord) := by
  obtain ⟨family, bytes, size⟩ := address
  obtain ⟨rfl, looks⟩ := looks
  rw [printed, inetNtop]
  dsimp only
  rw [inetNtop6_looksMapped (words_isAddress bytes size) looks, stripMapped_append]

theorem LooksMapped.isAddress (looks : address.LooksMapped) : IsAddress (wordsOf address.bytes) :=
  words_isAddress address.bytes (by rw [address.size, looks.1]; rfl)

/-- It denotes nothing. -/
theorem denoted_looksMapped (looks : address.LooksMapped) : denoted (printed address) = none := by
  have isAddress := LooksMapped.isAddress looks
  rw [printed_looksMapped looks]
  obtain ⟨-, -, lower, upper, -⟩ := looks
  apply denoted_colons (isAddress.dropBound _)
  · rw [List.length_drop, isAddress.size]
    omega
  · rw [List.length_drop, isAddress.size]
    omega

/-! ### Which addresses have the same text -/

theorem canonical_inet (address : IpAddress) (inet : address.family = .inet) :
    address.canonical = address := by
  rw [IpAddress.canonical, dif_neg]
  rw [inet]
  simp

theorem canonical_canonical (address : IpAddress) : address.canonical.canonical = address.canonical := by
  by_cases isMapped : address.family = .inet6 ∧ address.bytes.take 12 = mappedBytes
  · apply canonical_inet
    rw [IpAddress.canonical, dif_pos isMapped]
  · have same : address.canonical = address := by rw [IpAddress.canonical, dif_neg isMapped]
    rw [same, same]

/-- The text depends on the address that is meant. -/
theorem printed_canonical (address : IpAddress) : printed address.canonical = printed address := by
  obtain ⟨family, bytes, size⟩ := address
  cases family with
  | inet => rw [canonical_inet _ rfl]
  | inet6 =>
      by_cases isMapped : bytes.take 12 = mappedBytes
      · have isAddress := words_isAddress bytes size
        rw [IpAddress.canonical, dif_pos ⟨rfl, isMapped⟩, printed, printed, inetNtop, inetNtop]
        dsimp only
        rw [inetNtop6_mapped isAddress ((mapped_iff size).mp isMapped), stripMapped_append,
          stripMapped_other (dotted_other _), (bytes_split size).2]
      · rw [IpAddress.canonical, dif_neg fun both => isMapped both.2]

theorem looksMapped_words (looks : address.LooksMapped) : wordsOf address.bytes =
    List.replicate (bestRun (wordsOf address.bytes)).2 0 ++
      0xffff :: (wordsOf address.bytes).drop ((bestRun (wordsOf address.bytes)).2 + 1) := by
  obtain ⟨-, first, -, -, found⟩ := looks
  have split := bestRun_split (wordsOf address.bytes)
  rw [first, List.take_zero, List.nil_append, Nat.zero_add, drop_eq_cons found] at split
  exact split

/-- No two addresses that look mapped have the same text. -/
theorem looksMapped_inj (looks : address.LooksMapped) (looksToo : other.LooksMapped)
    (same : printed address = printed other) : address = other := by
  have isAddress := LooksMapped.isAddress looks
  have isAddressToo := LooksMapped.isAddress looksToo
  rw [printed_looksMapped looks, printed_looksMapped looksToo] at same
  have groups := congrArg (fun text => readGroups (groupsOf text)) same
  rw [groupsOf_colons (groups_hexWord (isAddress.dropBound _)),
    groupsOf_colons (groups_hexWord (isAddressToo.dropBound _)),
    readGroups_hexWord (isAddress.dropBound _), readGroups_hexWord (isAddressToo.dropBound _),
    Option.some.injEq] at groups
  have lengths := congrArg List.length groups
  rw [List.length_drop, List.length_drop, isAddress.size, isAddressToo.size] at lengths
  have runs : (bestRun (wordsOf address.bytes)).2 = (bestRun (wordsOf other.bytes)).2 := by
    have upper := looks.2.2.2.1
    have upperToo := looksToo.2.2.2.1
    omega
  have words : wordsOf address.bytes = wordsOf other.bytes := by
    rw [looksMapped_words looks, looksMapped_words looksToo, groups, runs]
  have sixteen {address : IpAddress} (looks : address.LooksMapped) :
      bytesOf (wordsOf address.bytes) = address.bytes :=
    bytesOf_wordsOf (by rw [address.size, looks.1]; rfl)
  have bytes := congrArg bytesOf words
  rw [sixteen looks, sixteen looksToo] at bytes
  obtain ⟨family, bytesOne, size⟩ := address
  obtain ⟨familyToo, bytesTwo, sizeToo⟩ := other
  obtain ⟨rfl, -⟩ := looks
  obtain ⟨rfl, -⟩ := looksToo
  dsimp only at bytes
  subst bytes
  rfl

/-- Addresses have the same text if and only if they are the same. -/
theorem printed_iff : printed address = printed other ↔ address.canonical = other.canonical := by
  constructor
  · intro same
    have denotes := congrArg denoted same
    by_cases looks : address.LooksMapped
    · by_cases looksToo : other.LooksMapped
      · rw [looksMapped_inj looks looksToo same]
      · rw [denoted_looksMapped looks, denoted_printed looksToo] at denotes
        cases denotes
    · by_cases looksToo : other.LooksMapped
      · rw [denoted_looksMapped looksToo, denoted_printed looks] at denotes
        cases denotes
      · rw [denoted_printed looks, denoted_printed looksToo] at denotes
        exact Option.some.inj denotes
  · intro same
    rw [← printed_canonical address, same, printed_canonical]

/-! ### Texts that are read -/

theorem inetPton_family {family : Family} (reads : inetPton family value = some address) :
    address.family = family := by
  rw [inetPton.eq_def, Option.bind_eq_some_iff] at reads
  obtain ⟨bytes, -, sized⟩ := reads
  split at sized
  · rw [← Option.some.inj sized]
  · cases sized

/-- Every text of an address is normalised to the same text. -/
theorem normalizeIp_denoted (denotes : denoted value = some address) :
    normalizeIp value = printed address := by
  rw [denoted] at denotes
  rw [normalizeIp]
  cases four : inetPton .inet value with
  | some found =>
      rw [four, Option.some.injEq] at denotes
      subst denotes
      have family := inetPton_family four
      have plain : ∀ rest, inetNtop found ≠ mapped ++ rest := by
        intro rest
        rw [inetNtop, family]
        exact dotted_other found.bytes rest
      exact (stripMapped_other plain).symm
  | none =>
      rw [four] at denotes
      dsimp only at denotes
      dsimp only
      rw [denotes]
      rfl

theorem parseExactIp_denoted (denotes : denoted value = some address) :
    parseExactIp value = some address.canonical := by
  rw [denoted] at denotes
  rw [parseExactIp]
  cases four : inetPton .inet value with
  | some found =>
      rw [four, Option.some.injEq] at denotes
      subst denotes
      dsimp only
      rw [canonical_inet found (inetPton_family four)]
  | none =>
      rw [four] at denotes
      dsimp only at denotes
      dsimp only
      rw [denotes]
      rfl

theorem normalizeIp_none (denotes : denoted value = none) : normalizeIp value = [] := by
  rw [denoted] at denotes
  rw [normalizeIp]
  cases four : inetPton .inet value with
  | some found =>
      rw [four] at denotes
      cases denotes
  | none =>
      rw [four] at denotes
      dsimp only at denotes
      dsimp only
      rw [denotes]

end Texts

/-! ## Faithful texts -/

theorem faithful_iff (address : IpAddress) : Faithful address ↔ ¬address.LooksMapped := by
  constructor
  · intro faithful looks
    have denotes := faithful.numeric
    rw [numericAddress_printed, denoted_looksMapped looks] at denotes
    cases denotes
  · intro usual
    have denotes := denoted_printed usual
    constructor
    · rw [numericAddress_printed]
      exact denotes
    · intro port
      exact denotes
    · intro value reads
      rw [normalizeIp_denoted reads]
      exact denotes
    · rw [numericAddress_printed, parseExactIp_denoted denotes, canonical_canonical]
    · intro value reads
      rw [normalizeIp_denoted reads, normalizeIp_denoted denotes, printed_canonical]

theorem agree (first second : IpAddress) : Agree first second := by
  constructor
  · rw [numericAddress_printed, numericAddress_printed]
    exact printed_iff
  · intro port
    exact (numericAddress_printed first).symm
  · intro value reads
    rw [normalizeIp_denoted reads, numericAddress_printed]
  · intro value other reads readsToo
    rw [normalizeIp_denoted reads, normalizeIp_denoted readsToo, parseExactIp_denoted reads,
      parseExactIp_denoted readsToo, Option.some.injEq]
    exact printed_iff

/-- The text of an address is faithful, and stays what it is, unless the address looks mapped and is
not; the three places agree on every pair of addresses; what is no address is normalised to the
empty text. -/
theorem peerText_faithful (address : IpAddress) :
    (Faithful address ↔ ¬address.LooksMapped) ∧
    (∀ other, Agree address other) ∧
    ∀ value, denoted value = none → normalizeIp (normalizeIp value) = normalizeIp value := by
  refine ⟨faithful_iff address, agree address, ?_⟩
  intro value nothing
  rw [normalizeIp_none nothing]
  rfl

/-- `::ffff:1:2:3:4:5` loses its front, and what is left is no address. -/
theorem looksMapped_lost :
    numericAddress ⟨.inet6, [0, 0, 0, 0, 0xff, 0xff, 0, 1, 0, 2, 0, 3, 0, 4, 0, 5], rfl⟩ =
        ascii "1:2:3:4:5" ∧
      denoted (ascii "1:2:3:4:5") = none ∧
      normalizeIp (ascii "::ffff:1:2:3:4:5") = ascii "1:2:3:4:5" ∧
      normalizeIp (normalizeIp (ascii "::ffff:1:2:3:4:5")) = [] ∧
      ¬∀ address, Faithful address := by
  refine ⟨by decide, by decide, by decide, by decide, ?_⟩
  intro every
  have faithful := every ⟨.inet6, [0, 0, 0, 0, 0xff, 0xff, 0, 1, 0, 2, 0, 3, 0, 4, 0, 5], rfl⟩
  have denotes := faithful.numeric
  revert denotes
  decide

end VgiRpc.Socket
