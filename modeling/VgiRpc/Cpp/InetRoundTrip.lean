import VgiRpc.Cpp.Inet

/-!
# Reading written addresses

`inet_pton` inverts `inet_ntop`: number by number, group by group, and around the run of zero words.
-/

namespace VgiRpc.Cpp

open VgiRpc.Crypto VgiRpc.Lib

/-! ## Tokens -/

theorem mapM_written {α β : Type} {write : α → β} {read : β → Option α} {items : List α}
    (reads : ∀ item ∈ items, read (write item) = some item) :
    (items.map write).mapM read = some items := by
  induction items with
  | nil => rfl
  | cons item items inductionHypothesis =>
      rw [List.forall_mem_cons] at reads
      rw [List.map_cons, List.mapM_cons, reads.1, inductionHypothesis reads.2]
      rfl

theorem hexNibble_hexByte {value : Nat} (bound : value < 16) :
    hexNibble (hexByte value) = some value := by
  interval_cases value <;> rfl

/-- The digits of a word, most significant first. -/
theorem hexWord_digits {word : Nat} (bound : word < 0x10000) :
    ∃ digits : List Nat, hexWord word = digits.map hexByte ∧ (∀ digit ∈ digits, digit < 16) ∧
      1 ≤ digits.length ∧ digits.length ≤ 4 ∧
      digits.foldl (fun value digit => 0x10 * value + digit) 0 = word := by
  rw [hexWord]
  split
  · next tiny => exact ⟨[word], rfl, by simpa using tiny, by simp, by simp, by simp⟩
  · split
    · next small =>
        refine ⟨[word / 0x10, word % 0x10], rfl, ?_, by simp, by simp, ?_⟩
        · intro digit mem
          simp only [List.mem_cons, List.not_mem_nil, or_false] at mem
          omega
        · simp only [List.foldl_cons, List.foldl_nil]
          omega
    · split
      · next medium =>
          refine ⟨[word / 0x100, word / 0x10 % 0x10, word % 0x10], rfl, ?_, by simp, by simp, ?_⟩
          · intro digit mem
            simp only [List.mem_cons, List.not_mem_nil, or_false] at mem
            omega
          · simp only [List.foldl_cons, List.foldl_nil]
            omega
      · refine ⟨[word / 0x1000 % 0x10, word / 0x100 % 0x10, word / 0x10 % 0x10, word % 0x10], rfl,
          ?_, by simp, by simp, ?_⟩
        · intro digit mem
          simp only [List.mem_cons, List.not_mem_nil, or_false] at mem
          omega
        · simp only [List.foldl_cons, List.foldl_nil]
          omega

theorem readGroup_hexWord {word : Nat} (bound : word < 0x10000) :
    readGroup (hexWord word) = some word := by
  obtain ⟨digits, text, small, positive, short, value⟩ := hexWord_digits bound
  have nibbles : (digits.map hexByte).mapM hexNibble = some digits :=
    mapM_written fun digit mem => hexNibble_hexByte (small digit mem)
  rw [readGroup, text, List.length_map, if_pos ⟨positive, short⟩, nibbles, Option.map_some, value]

/-- The characters of a written word. -/
theorem mem_hexWord {word : Nat} (bound : word < 0x10000) {byte : UInt8}
    (mem : byte ∈ hexWord word) : ∃ value < 16, byte = hexByte value := by
  obtain ⟨digits, text, small, -⟩ := hexWord_digits bound
  rw [text, List.mem_map] at mem
  obtain ⟨digit, listed, rfl⟩ := mem
  exact ⟨digit, small digit listed, rfl⟩

/-- A token between colons: not empty, and without a colon. -/
structure Group (token : Bytes) : Prop where
  nonempty : token ≠ []
  colonless : (0x3a : UInt8) ∉ token

theorem hexByte_ne {value : Nat} (bound : value < 16) : hexByte value ≠ 0x3a ∧ hexByte value ≠ 0x2e := by
  interval_cases value <;> decide

theorem Group.hexWord {word : Nat} (bound : word < 0x10000) : Group (hexWord word) := by
  constructor
  · intro empty
    have reads := readGroup_hexWord bound
    rw [empty] at reads
    cases reads
  · intro mem
    obtain ⟨value, small, same⟩ := mem_hexWord bound mem
    exact (hexByte_ne small).1 same.symm

theorem groups_hexWord {words : List Nat} (bound : ∀ word ∈ words, word < 0x10000) :
    ∀ token ∈ words.map hexWord, Group token := by
  intro token mem
  obtain ⟨word, listed, rfl⟩ := List.mem_map.mp mem
  exact .hexWord (bound word listed)

/-! ## IPv4 -/

theorem decimalDigits_head {fuel value : Nat} (bound : value < fuel)
    (zero : (decimalDigits fuel value).head? = some 0x30) : value = 0 := by
  induction fuel generalizing value with
  | zero => omega
  | succ fuel inductionHypothesis =>
      rw [decimalDigits] at zero
      split at zero
      · next small =>
          rw [List.head?_cons, Option.some.injEq] at zero
          interval_cases value <;> first | rfl | exact absurd zero (by decide)
      · next large =>
          have front : (decimalDigits fuel (value / 10)).head? = some 0x30 := by
            obtain ⟨smaller, same⟩ : ∃ smaller, fuel = smaller + 1 := ⟨fuel - 1, by omega⟩
            rw [List.head?_append_of_ne_nil] at zero
            · exact zero
            · rw [same]
              exact decimalDigits_ne_nil _ _
          have smaller := inductionHypothesis (by omega) front
          omega

theorem readOctet_decimal (octet : UInt8) : readOctet (decimal octet.toNat) = some octet := by
  have digits : (decimal octet.toNat).all isDigit = true := by
    rw [List.all_eq_true]
    intro byte mem
    exact decimal_isDigit mem
  have leading : (decimal octet.toNat).length = 1 ∨ (decimal octet.toNat).head? ≠ some 0x30 := by
    by_cases zero : octet.toNat = 0
    · rw [zero]
      exact .inl rfl
    · exact .inr fun head => zero (decimalDigits_head (Nat.lt_succ_self _) head)
  have bound : digitsValue (decimal octet.toNat) ≤ 255 := by
    rw [digitsValue_decimal]
    exact Nat.le_of_lt_succ octet.toNat_lt
  rw [readOctet, if_pos ⟨decimal_ne_nil _, digits, leading, bound⟩, digitsValue_decimal,
    UInt8.ofNat_toNat]

theorem dot_not_mem_decimal (value : Nat) : (0x2e : UInt8) ∉ decimal value := by
  intro mem
  exact absurd (decimal_isDigit mem) (by decide)

/-- `inet_pton` reads what `inet_ntop` writes. -/
theorem inetPton4_dotted {octets : Bytes} (size : octets.length = 4) :
    inetPton4 (dotted octets) = some octets := by
  have split : (dotted octets).splitOn 0x2e = octets.map fun octet => decimal octet.toNat := by
    apply List.splitOn_intercalate
    · intro token mem
      obtain ⟨octet, -, rfl⟩ := List.mem_map.mp mem
      exact dot_not_mem_decimal _
    · intro empty
      rw [List.map_eq_nil_iff] at empty
      rw [empty] at size
      cases size
  rw [inetPton4, split, List.length_map, if_pos size]
  exact mapM_written fun octet _ => readOctet_decimal octet

theorem mem_intercalate {separator byte : UInt8} {parts : List Bytes}
    (mem : byte ∈ [separator].intercalate parts) : byte = separator ∨ ∃ part ∈ parts, byte ∈ part := by
  induction parts with
  | nil => cases mem
  | cons part rest inductionHypothesis =>
      cases rest with
      | nil =>
          rw [List.intercalate_singleton] at mem
          exact .inr ⟨part, List.mem_cons_self, mem⟩
      | cons next rest =>
          rw [List.intercalate_cons_cons, List.append_assoc, List.mem_append, List.singleton_append,
            List.mem_cons] at mem
          rcases mem with front | same | later
          · exact .inr ⟨part, List.mem_cons_self, front⟩
          · exact .inl same
          · rcases inductionHypothesis later with same | ⟨other, listed, inside⟩
            · exact .inl same
            · exact .inr ⟨other, List.mem_cons_of_mem part listed, inside⟩

theorem mem_dotted {octets : Bytes} {byte : UInt8} (mem : byte ∈ dotted octets) :
    isDigit byte = true ∨ byte = 0x2e := by
  rcases mem_intercalate mem with dot | ⟨token, listed, inside⟩
  · exact .inr dot
  · obtain ⟨octet, -, rfl⟩ := List.mem_map.mp listed
    exact .inl (decimal_isDigit inside)

theorem read_of_mapM {α β : Type} {read : α → Option β} {items : List α} {results : List β}
    (all : items.mapM read = some results) {item : α} (mem : item ∈ items) :
    ∃ result, read item = some result := by
  induction items generalizing results with
  | nil => cases mem
  | cons first rest inductionHypothesis =>
      rw [List.mapM_cons, Option.bind_eq_bind, Option.bind_eq_some_iff] at all
      obtain ⟨result, reads, others⟩ := all
      rw [Option.bind_eq_bind, Option.bind_eq_some_iff] at others
      obtain ⟨tail, later, -⟩ := others
      rcases List.mem_cons.mp mem with rfl | behind
      · exact ⟨result, reads⟩
      · exact inductionHypothesis later behind

/-- What reads as an IPv4 address has digits and dots only. -/
theorem mem_of_inetPton4 {text octets : Bytes} (reads : inetPton4 text = some octets) {byte : UInt8}
    (mem : byte ∈ text) : isDigit byte = true ∨ byte = 0x2e := by
  have joined : [0x2e].intercalate (text.splitOn 0x2e) = text := List.intercalate_splitOn 0x2e
  rw [← joined] at mem
  rw [inetPton4] at reads
  split at reads
  · rcases mem_intercalate mem with dot | ⟨token, listed, inside⟩
    · exact .inr dot
    · obtain ⟨octet, read⟩ := read_of_mapM reads listed
      rw [readOctet] at read
      split at read
      · next digits => exact .inl (List.all_eq_true.mp digits.2.1 byte inside)
      · cases read
  · cases reads

theorem Group.dotted {octets : Bytes} (size : octets.length = 4) : Group (dotted octets) := by
  constructor
  · intro empty
    have reads := inetPton4_dotted size
    rw [empty] at reads
    cases reads.symm.trans (show inetPton4 [] = none from rfl)
  · intro mem
    rcases mem_dotted mem with digit | dot
    · exact absurd digit (by decide)
    · exact absurd dot (by decide)

theorem dotted_length {octets : Bytes} (size : octets.length = 4) : 4 < (dotted octets).length := by
  match octets, size with
  | [first, second, third, fourth], _ =>
      have positive (octet : UInt8) : 1 ≤ (decimal octet.toNat).length :=
        List.length_pos_of_ne_nil (decimal_ne_nil _)
      have sizes := And.intro (positive first) (And.intro (positive second) (positive third))
      simp only [dotted, List.map_cons, List.map_nil, List.intercalate_cons_cons,
        List.intercalate_singleton, List.length_append, List.length_singleton]
      omega

/-! ## Groups -/

theorem readGroups_hexWord {words : List Nat} (bound : ∀ word ∈ words, word < 0x10000) :
    readGroups (words.map hexWord) = some words := by
  induction words with
  | nil => rfl
  | cons word rest inductionHypothesis =>
      rw [List.forall_mem_cons] at bound
      cases rest with
      | nil =>
          rw [List.map_singleton, readGroups, readGroup_hexWord bound.1]
      | cons next rest =>
          rw [List.map_cons, List.map_cons, readGroups, readGroup_hexWord bound.1]
          rw [List.map_cons] at inductionHypothesis
          rw [inductionHypothesis bound.2]
          rfl

theorem readGroups_dotted {words : List Nat} (bound : ∀ word ∈ words, word < 0x10000)
    {octets : Bytes} (size : octets.length = 4) :
    readGroups (words.map hexWord ++ [dotted octets]) = some (words ++ wordsOf octets) := by
  induction words with
  | nil =>
      have long : readGroup (dotted octets) = none := by
        rw [readGroup, if_neg]
        intro short
        exact absurd short.2 (Nat.not_le.mpr (dotted_length size))
      rw [List.map_nil, List.nil_append, readGroups, long, inetPton4_dotted size]
      rfl
  | cons word rest inductionHypothesis =>
      rw [List.forall_mem_cons] at bound
      have rests := inductionHypothesis bound.2
      rw [List.map_cons, List.cons_append]
      obtain ⟨token, tokens, same⟩ := List.exists_cons_of_ne_nil
        (List.append_ne_nil_of_right_ne_nil (rest.map hexWord) (List.cons_ne_nil (dotted octets) []))
      rw [same] at rests ⊢
      rw [readGroups, readGroup_hexWord bound.1, rests]
      rfl

section Colons

variable {groups : List Bytes}

theorem colons_cons_cons (first next : Bytes) (rest : List Bytes) :
    colons (first :: next :: rest) = first ++ 0x3a :: colons (next :: rest) := by
  rw [colons, List.intercalate_cons_cons, List.append_assoc, List.singleton_append, colons]

/-- A part begins with its first group. -/
theorem colons_head (all : ∀ token ∈ groups, Group token) (some : groups ≠ []) :
    ∃ byte rest, colons groups = byte :: rest ∧ byte ≠ 0x3a := by
  cases groups with
  | nil => exact absurd rfl some
  | cons token groups =>
      have group := all token List.mem_cons_self
      obtain ⟨byte, rest, rfl⟩ := List.exists_cons_of_ne_nil group.nonempty
      refine ⟨byte, _, List.intercalate_cons_cons_left, ?_⟩
      intro colon
      exact group.colonless (colon ▸ List.mem_cons_self)

theorem groupsOf_colons (all : ∀ token ∈ groups, Group token) :
    groupsOf (colons groups) = groups := by
  by_cases none : groups = []
  · rw [none]
    rfl
  · obtain ⟨byte, rest, text, -⟩ := colons_head all none
    rw [groupsOf, if_neg (by rw [text]; exact List.cons_ne_nil _ _)]
    exact List.splitOn_intercalate 0x3a (fun token mem => (all token mem).colonless) none

theorem splitGap_cons {byte : UInt8} (apart : byte ≠ 0x3a) (rest : Bytes) :
    splitGap (byte :: rest) = (splitGap rest).map fun parts => (byte :: parts.1, parts.2) := by
  cases rest with
  | nil => rfl
  | cons next rest => rw [splitGap, if_neg (fun both => apart both.1)]

/-- A gap is behind a text without colons. -/
theorem splitGap_append {token : Bytes} (colonless : (0x3a : UInt8) ∉ token) (rest : Bytes) :
    splitGap (token ++ rest) = (splitGap rest).map fun parts => (token ++ parts.1, parts.2) := by
  induction token with
  | nil =>
      rw [List.nil_append]
      exact Option.map_id_apply.symm
  | cons byte token inductionHypothesis =>
      rw [List.mem_cons, not_or] at colonless
      rw [List.cons_append, splitGap_cons (Ne.symm colonless.1), inductionHypothesis colonless.2,
        Option.map_map]
      rfl

/-- A single colon is no gap. -/
theorem splitGap_single {byte : UInt8} (apart : byte ≠ 0x3a) (rest : Bytes) :
    splitGap (0x3a :: byte :: rest) =
      (splitGap (byte :: rest)).map fun parts => (0x3a :: parts.1, parts.2) := by
  rw [splitGap, if_neg (fun both => apart both.2)]

/-- Groups alone have no gap. -/
theorem splitGap_colons (all : ∀ token ∈ groups, Group token) : splitGap (colons groups) = none := by
  induction groups with
  | nil => rfl
  | cons token groups inductionHypothesis =>
      have group := all token List.mem_cons_self
      have behind := fun other mem => all other (List.mem_cons_of_mem token mem)
      cases groups with
      | nil =>
          have alone := splitGap_append group.colonless []
          rw [List.append_nil] at alone
          rw [colons, List.intercalate_singleton, alone]
          rfl
      | cons next groups =>
          obtain ⟨byte, rest, text, apart⟩ := colons_head behind (List.cons_ne_nil _ _)
          have quiet := inductionHypothesis behind
          rw [text] at quiet
          rw [colons_cons_cons, splitGap_append group.colonless, text, splitGap_single apart, quiet]
          rfl

/-- Groups end at the first gap. -/
theorem splitGap_colons_gap (all : ∀ token ∈ groups, Group token) (right : Bytes) :
    splitGap (colons groups ++ 0x3a :: 0x3a :: right) = some (colons groups, right) := by
  induction groups with
  | nil => rfl
  | cons token groups inductionHypothesis =>
      have group := all token List.mem_cons_self
      have behind := fun other mem => all other (List.mem_cons_of_mem token mem)
      cases groups with
      | nil =>
          rw [colons, List.intercalate_singleton, splitGap_append group.colonless, splitGap,
            if_pos ⟨rfl, rfl⟩, Option.map_some, List.append_nil]
      | cons next groups =>
          obtain ⟨byte, rest, text, apart⟩ := colons_head behind (List.cons_ne_nil _ _)
          have gap := inductionHypothesis behind
          rw [text, List.cons_append] at gap
          rw [colons_cons_cons, List.append_assoc, List.cons_append, text, List.cons_append,
            splitGap_append group.colonless, splitGap_single apart, gap]
          rfl

end Colons

/-! ## The run of zero words -/

section Runs

variable {words : List Nat}

theorem takeWhile_zero (words : List Nat) : words =
    List.replicate (words.takeWhile (· == 0)).length 0 ++
      words.drop (words.takeWhile (· == 0)).length := by
  induction words with
  | nil => rfl
  | cons word rest inductionHypothesis =>
      by_cases zero : word = 0
      · subst zero
        rw [List.takeWhile_cons_of_pos rfl, List.length_cons, List.replicate_succ, List.drop_succ_cons,
          List.cons_append, ← inductionHypothesis]
      · rw [List.takeWhile_cons_of_neg (by simpa using zero)]
        rfl

/-- The words at the best run are zero. -/
theorem bestRun_runAt (words : List Nat) : (bestRun words).2 ≤ runAt words (bestRun words).1 := by
  rw [bestRun]
  generalize List.range words.length = indices
  have start : ((0, 0) : Nat × Nat).2 ≤ runAt words ((0, 0) : Nat × Nat).1 := Nat.zero_le _
  generalize ((0, 0) : Nat × Nat) = best at start ⊢
  induction indices generalizing best with
  | nil => exact start
  | cons index rest inductionHypothesis =>
      rw [List.foldl_cons]
      split
      · exact inductionHypothesis _ le_rfl
      · exact inductionHypothesis _ start

/-- An address is what is in front of the run, the run, and what is behind it. -/
theorem bestRun_split (words : List Nat) : words = words.take (bestRun words).1 ++
    (List.replicate (bestRun words).2 0 ++ words.drop ((bestRun words).1 + (bestRun words).2)) := by
  have zeros := takeWhile_zero (words.drop (bestRun words).1)
  have bound := bestRun_runAt words
  rw [runAt] at bound
  generalize ((words.drop (bestRun words).1).takeWhile (· == 0)).length = size at bound zeros
  obtain ⟨more, rfl⟩ := Nat.exists_eq_add_of_le bound
  have behind : List.replicate (bestRun words).2 0 ++ words.drop ((bestRun words).1 +
      (bestRun words).2) = words.drop (bestRun words).1 := by
    rw [← List.drop_drop]
    conv_lhs => rw [zeros]
    conv_rhs => rw [zeros]
    rw [List.replicate_add, List.append_assoc, List.drop_left' (List.length_replicate ..)]
  rw [behind, List.take_append_drop]

end Runs

/-! ## IPv6 -/

section Words

variable {words : List Nat}

theorem wordsOf_bytesOf (bound : ∀ word ∈ words, word < 0x10000) : wordsOf (bytesOf words) = words := by
  induction words with
  | nil => rfl
  | cons word rest inductionHypothesis =>
      rw [List.forall_mem_cons] at bound
      have high : (UInt8.ofNat (word / 0x100)).toNat = word / 0x100 := by
        rw [UInt8.toNat_ofNat']
        omega
      have low : (UInt8.ofNat (word % 0x100)).toNat = word % 0x100 := by
        rw [UInt8.toNat_ofNat']
        omega
      have same : 0x100 * (word / 0x100) + word % 0x100 = word := Nat.div_add_mod _ _
      rw [bytesOf, List.flatMap_cons, ← bytesOf, List.cons_append, List.cons_append, List.nil_append,
        wordsOf, high, low, same, inductionHypothesis bound.2]

theorem bytesOf_length (words : List Nat) : (bytesOf words).length = 2 * words.length := by
  induction words with
  | nil => rfl
  | cons word rest inductionHypothesis =>
      rw [bytesOf, List.flatMap_cons, ← bytesOf, List.length_append, inductionHypothesis,
        List.length_cons, List.length_cons, List.length_cons, List.length_nil]
      omega

theorem wordsOf_bound (bytes : Bytes) : ∀ word ∈ wordsOf bytes, word < 0x10000 := by
  fun_induction wordsOf bytes with
  | case1 high low rest inductionHypothesis =>
      rw [List.forall_mem_cons]
      have bounds := And.intro high.toNat_lt low.toNat_lt
      exact ⟨by omega, inductionHypothesis⟩
  | case2 => simp

theorem wordsOf_length (bytes : Bytes) : (wordsOf bytes).length = bytes.length / 2 := by
  fun_induction wordsOf bytes with
  | case1 high low rest inductionHypothesis =>
      rw [List.length_cons, inductionHypothesis, List.length_cons, List.length_cons]
      omega
  | case2 bytes short =>
      match bytes, short with
      | [], _ => rfl
      | [_], _ => simp
      | high :: low :: rest, short => exact absurd rfl (short high low rest)

theorem bytesOf_wordsOf {bytes : Bytes} (even : bytes.length % 2 = 0) :
    bytesOf (wordsOf bytes) = bytes := by
  fun_induction wordsOf bytes with
  | case1 high low rest inductionHypothesis =>
      rw [List.length_cons, List.length_cons] at even
      have tail := inductionHypothesis (by omega)
      have bounds := And.intro high.toNat_lt low.toNat_lt
      have upper : (0x100 * high.toNat + low.toNat) / 0x100 = high.toNat := by omega
      have lower : (0x100 * high.toNat + low.toNat) % 0x100 = low.toNat := by omega
      rw [bytesOf, List.flatMap_cons, ← bytesOf, tail, upper, lower, UInt8.ofNat_toNat,
        UInt8.ofNat_toNat]
      rfl
  | case2 bytes short =>
      match bytes, short, even with
      | [], _, _ => rfl
      | [_], _, even => cases even
      | high :: low :: rest, short, _ => exact absurd rfl (short high low rest)

/-- An address: eight words of sixteen bits. -/
structure IsAddress (words : List Nat) : Prop where
  size : words.length = 8
  bound : ∀ word ∈ words, word < 0x10000

namespace IsAddress

variable (address : IsAddress words)

include address

theorem takeBound (count : Nat) : ∀ word ∈ words.take count, word < 0x10000 :=
  fun word mem => address.bound word (List.mem_of_mem_take mem)

theorem dropBound (count : Nat) : ∀ word ∈ words.drop count, word < 0x10000 :=
  fun word mem => address.bound word (List.mem_of_mem_drop mem)

theorem quad_length : (bytesOf (words.drop 6)).length = 4 := by
  rw [bytesOf_length, List.length_drop, address.size]

theorem groupsBehind (base len : Nat) : ∀ token ∈ groupsBehind words base len, Group token := by
  rw [Cpp.groupsBehind]
  split
  · intro token mem
    rw [List.mem_append, List.mem_singleton] at mem
    rcases mem with word | rfl
    · refine groups_hexWord ?_ token word
      intro word mem
      exact address.dropBound len word (List.mem_of_mem_take mem)
    · exact .dotted address.quad_length
  · exact groups_hexWord (address.dropBound _)

theorem readGroups_behind (base len : Nat) :
    readGroups (Cpp.groupsBehind words base len) = some (words.drop (base + len)) := by
  rw [Cpp.groupsBehind]
  split
  · next mixed =>
      have middle : ∀ word ∈ (words.drop len).take (6 - len), word < 0x10000 :=
        fun word mem => address.dropBound len word (List.mem_of_mem_take mem)
      have small : len ≤ 6 := by
        rcases mixed.2 with six | five
        · exact six.le
        · omega
      have joined : (words.drop len).take (6 - len) ++ words.drop 6 = words.drop len := by
        conv_rhs => rw [← List.take_append_drop (6 - len) (words.drop len)]
        rw [List.drop_drop, Nat.add_sub_cancel' small]
      rw [readGroups_dotted middle address.quad_length, wordsOf_bytesOf (address.dropBound 6), joined,
        mixed.1, Nat.zero_add]
  · exact readGroups_hexWord (address.dropBound _)

/-- `inet_pton` reads what `inet_ntop` writes. -/
theorem inetPton6_inetNtop6 : inetPton6 (inetNtop6 words) = some words := by
  have all := groups_hexWord address.bound
  have split := bestRun_split words
  rw [inetNtop6]
  generalize bestRun words = best at split ⊢
  obtain ⟨base, len⟩ := best
  dsimp only at split ⊢
  by_cases short : len < 2
  · rw [if_pos short, inetPton6, splitGap_colons all]
    dsimp only
    rw [groupsOf_colons all, readGroups_hexWord address.bound]
    exact if_pos address.size
  · have front := groups_hexWord (address.takeBound base)
    have lengths := congrArg List.length split
    rw [List.length_append, List.length_append, List.length_replicate, address.size] at lengths
    rw [if_neg short, inetPton6, splitGap_colons_gap front]
    dsimp only
    rw [groupsOf_colons front, groupsOf_colons (address.groupsBehind base len),
      address.readGroups_behind, mapM_written fun word mem =>
        readGroup_hexWord (address.takeBound base word mem)]
    have rest : 8 - ((words.take base).length + (words.drop (base + len)).length) = len := by omega
    have fewer : (words.take base).length + (words.drop (base + len)).length < 8 := by omega
    rw [Option.bind_eq_bind, Option.bind_some, Option.bind_some, if_pos fewer, rest,
      List.append_assoc, ← split]

end IsAddress

/-! ## The characters of an address -/

/-- A character that `inet_ntop` writes. -/
def IsPrinted (byte : UInt8) : Prop := (∃ value < 16, byte = hexByte value) ∨ byte = 0x3a ∨ byte = 0x2e

theorem IsPrinted.digit {byte : UInt8} (digit : isDigit byte = true) : IsPrinted byte := by
  rw [isDigit, Bool.and_eq_true, decide_eq_true_eq, decide_eq_true_eq, UInt8.le_iff_toNat_le,
    UInt8.le_iff_toNat_le] at digit
  have lower : 0x30 ≤ byte.toNat := digit.1
  have upper : byte.toNat ≤ 0x39 := digit.2
  refine .inl ⟨byte.toNat - 0x30, by omega, ?_⟩
  have back : 0x30 + (byte.toNat - 0x30) = byte.toNat := by omega
  rw [hexByte, if_pos (by omega), digitByte, back, UInt8.ofNat_toNat]

theorem printed_dotted (octets : Bytes) : ∀ byte ∈ dotted octets, IsPrinted byte := by
  intro byte mem
  rcases mem_dotted mem with digit | dot
  · exact .digit digit
  · exact .inr (.inr dot)

theorem printed_colons {groups : List Bytes} (all : ∀ token ∈ groups, ∀ byte ∈ token, IsPrinted byte) :
    ∀ byte ∈ colons groups, IsPrinted byte := by
  intro byte mem
  rcases mem_intercalate mem with colon | ⟨token, listed, inside⟩
  · exact .inr (.inl colon)
  · exact all token listed byte inside

theorem printed_hexWord (bound : ∀ word ∈ words, word < 0x10000) :
    ∀ token ∈ words.map hexWord, ∀ byte ∈ token, IsPrinted byte := by
  intro token mem byte inside
  obtain ⟨word, listed, rfl⟩ := List.mem_map.mp mem
  exact .inl (mem_hexWord (bound word listed) inside)

theorem IsAddress.printed (address : IsAddress words) :
    ∀ byte ∈ inetNtop6 words, IsPrinted byte := by
  rw [inetNtop6]
  split
  · exact printed_colons (printed_hexWord address.bound)
  · intro byte mem
    rw [List.mem_append, List.mem_cons, List.mem_cons] at mem
    rcases mem with front | colon | colon | behind
    · exact printed_colons (printed_hexWord (address.takeBound _)) byte front
    · exact .inr (.inl colon)
    · exact .inr (.inl colon)
    · refine printed_colons ?_ byte behind
      rw [Cpp.groupsBehind]
      split
      · intro token listed
        rw [List.mem_append, List.mem_singleton] at listed
        rcases listed with word | rfl
        · refine printed_hexWord ?_ token word
          intro word mem
          exact address.dropBound _ word (List.mem_of_mem_take mem)
        · exact printed_dotted _
      · exact printed_hexWord (address.dropBound _)

/-- Two groups or more have a colon between them. -/
theorem colon_mem_colons {groups : List Bytes} (several : 2 ≤ groups.length) :
    (0x3a : UInt8) ∈ colons groups := by
  match groups, several with
  | first :: next :: rest, _ =>
      rw [colons_cons_cons]
      simp

theorem IsAddress.colon_mem (address : IsAddress words) : (0x3a : UInt8) ∈ inetNtop6 words := by
  rw [inetNtop6]
  split
  · apply colon_mem_colons
    rw [List.length_map, address.size]
    decide
  · simp

end Words

end VgiRpc.Cpp
