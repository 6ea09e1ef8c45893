import VgiRpc.Identity.Shape
import VgiRpc.Lib.Patterns
import VgiRpc.Lib.Utf8

/-!
# Padding around a credential

`Trimmed` finds the bounds of its view by index.  Padding of any length on either side
leaves the view as it is, no character of the credential is cut in two, and the shape test
behind it decides the pattern that its comment gives; so padding does not change what
`reject_jws_shaped` refuses.
-/

namespace VgiRpc.Identity

open VgiRpc.Cpp Lib

/-- The byte width of the whitespace code point at `pos`, or 0. -/
def whitespaceWidth (token : Bytes) (pos : Nat) : Nat :=
  let byte := token.getD pos 0
  if isPlainSpace byte then 1
  else if pos + 1 < token.length && isWideSpace byte (token.getD (pos + 1) 0) then 2
  else 0

/-- The byte width of the whitespace code point that ends at `stop`, or 0. -/
def trailingWhitespaceWidth (token : Bytes) (start stop : Nat) : Nat :=
  if stop - start ≥ 2 ∧ whitespaceWidth token (stop - 2) = 2 then 2
  else if isPlainSpace (token.getD (stop - 1) 0) then 1
  else 0

/-- The first loop of `Trimmed`, from `start` on. -/
def skipLeading (token : Bytes) (start : Nat) : Nat :=
  if start < token.length then
    if whitespaceWidth token start = 0 then start
    else skipLeading token (start + whitespaceWidth token start)
  else start
termination_by token.length - start

/-- The second loop of `Trimmed`, from `stop` down to `start`. -/
def skipTrailing (token : Bytes) (start stop : Nat) : Nat :=
  if start < stop then
    if trailingWhitespaceWidth token start stop = 0 then stop
    else skipTrailing token start (stop - trailingWhitespaceWidth token start stop)
  else stop
termination_by stop

/-- The bounds of the view, `begin` and `end`. -/
def viewStart (token : Bytes) : Nat := skipLeading token 0

def viewStop (token : Bytes) : Nat := skipTrailing token (viewStart token) token.length

/-- `Trimmed`. -/
def trimmedView (token : Bytes) : Bytes :=
  (token.drop (viewStart token)).take (viewStop token - viewStart token)

/-! ## The loops by index -/

variable {token : Bytes} {start stop : Nat}

theorem whitespaceWidth_drop (token : Bytes) (start pos : Nat) :
    whitespaceWidth (token.drop start) pos = whitespaceWidth token (start + pos) := by
  have bound : pos + 1 < token.length - start ↔ start + pos + 1 < token.length := by omega
  simp only [whitespaceWidth, List.getD_eq_getElem?_getD, List.getElem?_drop, List.length_drop,
    bound, Nat.add_assoc]

/-- One step of the first loop, on what is left. -/
theorem trimStart_step {text : Bytes} (present : text ≠ []) :
    whitespaceWidth text 0 ≤ text.length ∧
      trimStart text =
        if whitespaceWidth text 0 = 0 then text else trimStart (text.drop (whitespaceWidth text 0)) := by
  match text with
  | [] => exact absurd rfl present
  | [first] =>
      by_cases plain : isPlainSpace first = true
      · simp [whitespaceWidth, trimStart, plain]
      · simp [whitespaceWidth, trimStart, plain]
  | first :: second :: others =>
      by_cases plain : isPlainSpace first = true
      · simp [whitespaceWidth, trimStart_plain, plain]
      · by_cases wide : isWideSpace first second = true
        · simp [whitespaceWidth, trimStart_wide, plain, wide]
        · have kept : trimStart (first :: second :: others) = first :: second :: others := by
            rw [trimStart.eq_def]
            simp [plain, wide]
          simp [whitespaceWidth, kept, plain, wide]

/-- The first loop skips what the list loses. -/
theorem skipLeading_spec (token : Bytes) (start : Nat) (inside : start ≤ token.length) :
    (start ≤ skipLeading token start ∧ skipLeading token start ≤ token.length) ∧
      token.drop (skipLeading token start) = trimStart (token.drop start) := by
  induction start using skipLeading.induct token with
  | case1 start bound none =>
      rw [skipLeading, if_pos bound, if_pos none]
      have step := trimStart_step (List.ne_nil_of_length_pos (l := token.drop start) (by
        rw [List.length_drop]
        omega))
      rw [whitespaceWidth_drop, Nat.add_zero, if_pos none] at step
      exact ⟨⟨le_rfl, inside⟩, step.2.symm⟩
  | case2 start bound some ih =>
      rw [skipLeading, if_pos bound, if_neg some]
      have step := trimStart_step (List.ne_nil_of_length_pos (l := token.drop start) (by
        rw [List.length_drop]
        omega))
      rw [whitespaceWidth_drop, Nat.add_zero, if_neg some, List.length_drop, List.drop_drop] at step
      obtain ⟨⟨from_, upto⟩, left⟩ := ih (by omega)
      exact ⟨⟨by omega, upto⟩, by rw [left, step.2]⟩
  | case3 start past =>
      rw [skipLeading, if_neg past]
      have ended : token.drop start = [] := List.drop_eq_nil_of_le (Nat.le_of_not_lt past)
      exact ⟨⟨le_rfl, inside⟩, by rw [ended, trimStart]⟩

theorem not_plain_of_wide {first second : UInt8} (wide : isWideSpace first second = true) :
    isPlainSpace first = false ∧ isPlainSpace second = false := by
  simp only [isWideSpace, Bool.and_eq_true, Bool.or_eq_true, beq_iff_eq] at wide
  rcases wide with ⟨rfl, rfl | rfl⟩ <;> decide

theorem whitespaceWidth_eq_two_iff {pos : Nat} :
    whitespaceWidth token pos = 2 ↔
      pos + 1 < token.length ∧ isWideSpace (token.getD pos 0) (token.getD (pos + 1) 0) = true := by
  unfold whitespaceWidth
  dsimp only
  split_ifs with plain wide
  · simp only [OfNat.one_ne_ofNat, false_iff, not_and]
    intro _ wide
    rw [(not_plain_of_wide wide).1] at plain
    cases plain
  · simpa using wide
  · simpa using wide

theorem trimEnd_plain {last : UInt8} (plain : isPlainSpace last = true) (rest : Bytes) :
    trimEnd (last :: rest) = trimEnd rest := by
  cases rest with
  | nil => simp [trimEnd, plain]
  | cons before others =>
      have narrow : isWideSpace before last = false := by
        rw [Bool.eq_false_iff]
        intro wide
        rw [(not_plain_of_wide wide).2] at plain
        cases plain
      rw [trimEnd.eq_def]
      simp [narrow, plain]

theorem trimEnd_wide {first second : UInt8} (wide : isWideSpace first second = true)
    (others : Bytes) : trimEnd (second :: first :: others) = trimEnd others := by
  rw [trimEnd.eq_def]
  simp [wide]

theorem trimEnd_kept {text : Bytes} (stop : endsBlank text = false) : trimEnd text = text := by
  match text with
  | [] => rfl
  | [last] =>
      rw [endsBlank] at stop
      simp [trimEnd, stop]
  | last :: before :: others =>
      rw [endsBlank, Bool.or_eq_false_iff] at stop
      rw [trimEnd.eq_def]
      simp [stop.1, stop.2]

/-- The part of the token between two bounds. -/
theorem segment_succ (from_ : start ≤ stop) (bound : stop < token.length) :
    ((token.take (stop + 1)).drop start).reverse =
      token.getD stop 0 :: ((token.take stop).drop start).reverse := by
  rw [List.take_add_one, List.drop_append_of_le_length (by rw [List.length_take]; omega),
    List.getD_eq_getElem?_getD, List.getElem?_eq_getElem bound, Option.toList_some,
    List.reverse_append, List.reverse_singleton, List.singleton_append, Option.getD_some]

/-- One step of the second loop, on what is left. -/
theorem trimEnd_step (room : start < stop) (bound : stop ≤ token.length) :
    trailingWhitespaceWidth token start stop ≤ stop - start ∧
      trimEnd ((token.take stop).drop start).reverse =
        if trailingWhitespaceWidth token start stop = 0 then ((token.take stop).drop start).reverse
        else trimEnd ((token.take (stop - trailingWhitespaceWidth token start stop)).drop
          start).reverse := by
  obtain ⟨stop, rfl⟩ : ∃ last, stop = last + 1 := ⟨stop - 1, by omega⟩
  by_cases plain : isPlainSpace (token.getD stop 0) = true
  · have width : trailingWhitespaceWidth token start (stop + 1) = 1 := by
      rw [trailingWhitespaceWidth, if_neg, Nat.add_sub_cancel, if_pos plain]
      rintro ⟨wider, wide⟩
      rw [whitespaceWidth_eq_two_iff, show stop + 1 - 2 + 1 = stop by omega] at wide
      rw [(not_plain_of_wide wide.2).2] at plain
      cases plain
    rw [width, if_neg Nat.one_ne_zero, Nat.add_sub_cancel, segment_succ (by omega) (by omega),
      trimEnd_plain plain]
    exact ⟨by omega, rfl⟩
  · by_cases wide : stop + 1 - start ≥ 2 ∧ whitespaceWidth token (stop + 1 - 2) = 2
    · have width : trailingWhitespaceWidth token start (stop + 1) = 2 := by
        rw [trailingWhitespaceWidth, if_pos wide]
      obtain ⟨stop, rfl⟩ : ∃ before, stop = before + 1 := ⟨stop - 1, by omega⟩
      have behind : stop + 1 + 1 - 2 = stop := by omega
      rw [behind] at wide
      have shape := (whitespaceWidth_eq_two_iff.mp wide.2).2
      rw [width, if_neg (by decide), behind, segment_succ (by omega) (by omega),
        segment_succ (by omega) (by omega), trimEnd_wide shape]
      exact ⟨wide.1, rfl⟩
    · have width : trailingWhitespaceWidth token start (stop + 1) = 0 := by
        rw [trailingWhitespaceWidth, if_neg wide, Nat.add_sub_cancel, if_neg plain]
      rw [width, if_pos rfl]
      refine ⟨Nat.zero_le _, trimEnd_kept ?_⟩
      rw [segment_succ (by omega) (by omega)]
      by_cases single : stop = start
      · have none : (token.take stop).drop start = [] := by
          rw [single]
          exact List.drop_eq_nil_of_le (by rw [List.length_take]; omega)
        rw [none]
        exact Bool.eq_false_iff.mpr plain
      · obtain ⟨stop, rfl⟩ : ∃ before, stop = before + 1 := ⟨stop - 1, by omega⟩
        rw [segment_succ (by omega) (by omega), endsBlank, Bool.or_eq_false_iff]
        refine ⟨Bool.eq_false_iff.mpr plain, Bool.eq_false_iff.mpr fun shape => wide ⟨by omega, ?_⟩⟩
        exact whitespaceWidth_eq_two_iff.mpr ⟨by omega, shape⟩

/-- The second loop skips what the reversed list loses. -/
theorem skipTrailing_spec (token : Bytes) (start stop : Nat) (from_ : start ≤ stop)
    (bound : stop ≤ token.length) :
    (start ≤ skipTrailing token start stop ∧ skipTrailing token start stop ≤ stop) ∧
      ((token.take (skipTrailing token start stop)).drop start).reverse =
        trimEnd ((token.take stop).drop start).reverse := by
  induction stop using skipTrailing.induct token start with
  | case1 stop room none =>
      have step := trimEnd_step room bound
      rw [if_pos none] at step
      rw [skipTrailing, if_pos room, if_pos none]
      exact ⟨⟨from_, le_rfl⟩, step.2.symm⟩
  | case2 stop room some ih =>
      have step := trimEnd_step room bound
      rw [if_neg some] at step
      rw [skipTrailing, if_pos room, if_neg some]
      obtain ⟨⟨low, high⟩, left⟩ := ih (by omega) (by omega)
      exact ⟨⟨low, by omega⟩, by rw [left, step.2]⟩
  | case3 stop done =>
      have ended : (token.take stop).drop start = [] :=
        List.drop_eq_nil_of_le (by rw [List.length_take]; omega)
      rw [skipTrailing, if_neg done, ended]
      exact ⟨⟨from_, le_rfl⟩, by rw [List.reverse_nil, trimEnd]⟩

/-- The bounds of the view. -/
theorem view_bounds (token : Bytes) :
    viewStart token ≤ viewStop token ∧ viewStop token ≤ token.length := by
  have front := (skipLeading_spec token 0 (Nat.zero_le _)).1
  exact (skipTrailing_spec token (viewStart token) token.length front.2 le_rfl).1

/-- The view by index is the trimmed list. -/
theorem trimmedView_eq (token : Bytes) : trimmedView token = trimmed token := by
  obtain ⟨⟨-, inside⟩, front⟩ := skipLeading_spec token 0 (Nat.zero_le _)
  obtain ⟨-, back⟩ := skipTrailing_spec token (viewStart token) token.length inside le_rfl
  rw [List.take_length] at back
  rw [List.drop_zero] at front
  rw [trimmed, ← front, trimmedView, ← List.drop_take]
  exact (List.reverse_eq_iff.mp back)

/-! ## Padding -/

variable {front text back : Bytes}

theorem trimStart_whitespace (blank : Whitespace front) (rest : Bytes) :
    trimStart (front ++ rest) = trimStart rest := by
  induction blank with
  | nil => rfl
  | plain blank _ ih => rw [List.cons_append, trimStart_plain blank, ih]
  | wide blank _ ih => rw [List.cons_append, List.cons_append, trimStart_wide blank, ih]

theorem trimEnd_whitespace (blank : Whitespace back) (rest : Bytes) :
    trimEnd (back.reverse ++ rest) = trimEnd rest := by
  induction blank generalizing rest with
  | nil => rfl
  | plain blank _ ih =>
      rw [List.reverse_cons, List.append_assoc, ih, List.singleton_append, trimEnd_plain blank]
  | wide blank _ ih =>
      rw [List.reverse_cons, List.reverse_cons, List.append_assoc, List.append_assoc, ih,
        List.singleton_append, List.singleton_append, trimEnd_wide blank]

/-- Whitespace behind a byte does not complete a whitespace code point. -/
theorem startsBlank_append (start : startsBlank text = false) (present : text ≠ [])
    (blank : Whitespace back) : startsBlank (text ++ back) = false := by
  match text with
  | [] => exact absurd rfl present
  | first :: second :: others => exact start
  | [first] =>
      have narrow {second : UInt8} (plain : isPlainSpace second = true ∨ second = 0xc2) :
          isWideSpace first second = false := by
        rw [Bool.eq_false_iff]
        intro wide
        rcases plain with plain | rfl
        · rw [(not_plain_of_wide wide).2] at plain
          cases plain
        · simp [isWideSpace] at wide
      cases blank with
      | nil => exact start
      | plain blank _ => exact Bool.or_eq_false_iff.mpr ⟨start, narrow (.inl blank)⟩
      | wide blank _ =>
          rw [isWideSpace, Bool.and_eq_true, beq_iff_eq] at blank
          exact Bool.or_eq_false_iff.mpr ⟨start, narrow (.inr blank.1)⟩

theorem trimStart_kept (start : startsBlank text = false) : trimStart text = text := by
  match text with
  | [] => rw [trimStart]
  | [first] =>
      rw [startsBlank] at start
      simp [trimStart, start]
  | first :: second :: others =>
      rw [startsBlank, Bool.or_eq_false_iff] at start
      rw [trimStart.eq_def]
      simp [start.1, start.2]

/-- Padding on either side is trimmed. -/
theorem trimmed_padded (before : Whitespace front) (after : Whitespace back) (text : Bytes) :
    trimmed (front ++ text ++ back) = trimmed text := by
  obtain ⟨blanks, blank, split, start⟩ := trimStart_spec text
  have rest : trimStart (front ++ text ++ back) = trimStart (trimStart text ++ back) := by
    rw [List.append_assoc, trimStart_whitespace before]
    conv_lhs => rw [split]
    rw [List.append_assoc, trimStart_whitespace blank]
  rw [trimmed, rest, trimmed]
  by_cases empty : trimStart text = []
  · have gone := trimStart_whitespace after []
    rw [List.append_nil] at gone
    rw [empty, List.nil_append, gone, trimStart]
  · rw [trimStart_kept (startsBlank_append start empty after), List.reverse_append,
      trimEnd_whitespace after]

/-! ## Characters -/

/-- The whitespace code points, U+0009 to U+000D, U+0020, U+0085 and U+00A0. -/
def whitespacePoints : List Char :=
  [0x09, 0x0a, 0x0b, 0x0c, 0x0d, 0x20, 0x85, 0xa0].map Char.ofNat

/-- The encoding of a whitespace code point. -/
theorem whitespacePoint_cases {point : Char} (listed : point ∈ whitespacePoints) :
    (∃ byte, String.utf8EncodeChar point = [byte] ∧ isPlainSpace byte = true) ∨
      ∃ first second, String.utf8EncodeChar point = [first, second] ∧
        isWideSpace first second = true := by
  simp only [whitespacePoints, List.map_cons, List.map_nil, List.mem_cons, List.not_mem_nil,
    or_false] at listed
  rcases listed with rfl | rfl | rfl | rfl | rfl | rfl | wide
  case inr.inr.inr.inr.inr.inr =>
    rcases wide with rfl | rfl
    · exact .inr ⟨0xc2, 0x85, by decide, by decide⟩
    · exact .inr ⟨0xc2, 0xa0, by decide, by decide⟩
  all_goals exact .inl ⟨_, rfl, by decide⟩

theorem whitespace_encode {points : List Char} (listed : ∀ point ∈ points, point ∈ whitespacePoints) :
    Whitespace (Utf8.encode points) := by
  induction points with
  | nil => exact .nil
  | cons point points ih =>
      rw [List.forall_mem_cons] at listed
      rw [Utf8.encode_cons]
      rcases whitespacePoint_cases listed.1 with ⟨byte, shape, plain⟩ | ⟨first, second, shape, wide⟩
      · rw [shape]
        exact .plain plain (ih listed.2)
      · rw [shape]
        exact .wide wide (ih listed.2)

theorem startsBlank_of_prefix {point : Char} (listed : point ∈ whitespacePoints)
    (found : String.utf8EncodeChar point <+: text) : startsBlank text = true := by
  obtain ⟨rest, rfl⟩ := found
  rcases whitespacePoint_cases listed with ⟨byte, shape, plain⟩ | ⟨first, second, shape, wide⟩
  · rw [shape]
    cases rest with
    | nil => exact plain
    | cons next rest => exact Bool.or_eq_true_iff.mpr (.inl plain)
  · rw [shape]
    exact Bool.or_eq_true_iff.mpr (.inr wide)

theorem endsBlank_of_suffix {point : Char} (listed : point ∈ whitespacePoints)
    (found : String.utf8EncodeChar point <:+ text) : endsBlank text.reverse = true := by
  obtain ⟨rest, rfl⟩ := found
  rcases whitespacePoint_cases listed with ⟨byte, shape, plain⟩ | ⟨first, second, shape, wide⟩
  · rw [shape, List.reverse_append, List.reverse_singleton, List.singleton_append]
    cases rest.reverse with
    | nil => exact plain
    | cons next rest => exact Bool.or_eq_true_iff.mpr (.inl plain)
  · rw [shape, List.reverse_append]
    exact Bool.or_eq_true_iff.mpr (.inr wide)

/-- The last code point of a text of whitespace. -/
theorem Whitespace.last (blank : Whitespace text) :
    text = [] ∨ (∃ rest byte, text = rest ++ [byte] ∧ isPlainSpace byte = true) ∨
      ∃ rest first second, text = rest ++ [first, second] ∧ isWideSpace first second = true := by
  induction blank with
  | nil => exact .inl rfl
  | @plain byte rest plain _ ih =>
      rcases ih with rfl | ⟨others, last, rfl, known⟩ | ⟨others, first, second, rfl, known⟩
      · exact .inr (.inl ⟨[], byte, rfl, plain⟩)
      · exact .inr (.inl ⟨byte :: others, last, rfl, known⟩)
      · exact .inr (.inr ⟨byte :: others, first, second, rfl, known⟩)
  | @wide one two rest wide _ ih =>
      rcases ih with rfl | ⟨others, last, rfl, known⟩ | ⟨others, first, second, rfl, known⟩
      · exact .inr (.inr ⟨[], one, two, rfl, wide⟩)
      · exact .inr (.inl ⟨one :: two :: others, last, rfl, known⟩)
      · exact .inr (.inr ⟨one :: two :: others, first, second, rfl, known⟩)

theorem toNat_of_plain {byte : UInt8} (plain : isPlainSpace byte = true) : byte.toNat < 0x80 := by
  simp only [isPlainSpace, Bool.or_eq_true, Bool.and_eq_true, beq_iff_eq, decide_eq_true_eq,
    UInt8.le_iff_toNat_le] at plain
  rcases plain with rfl | ⟨-, upper⟩
  · decide
  · have bound : (0x0d : UInt8).toNat = 13 := rfl
    omega

/-- Trimming in front does not stop inside a character. -/
theorem not_cuts_front (blank : Whitespace front) : ¬Utf8.Cuts (front ++ text) front.length := by
  intro cuts
  rcases blank.last with rfl | ⟨rest, byte, rfl, plain⟩ | ⟨rest, first, second, rfl, wide⟩
  · obtain ⟨others, character, back, -, after, -⟩ := cuts
    rw [List.length_nil] at after
    omega
  · rw [List.length_append, List.length_singleton] at cuts
    have found : (rest ++ [byte] ++ text)[rest.length]? = some byte := by simp
    have small := toNat_of_plain plain
    rcases cuts.before with ⟨count, lead, standing, known⟩ | ⟨earlier, last, -, standing, known, -⟩
    · rw [found, Option.some.injEq] at standing
      have large := known.large
      rw [← standing] at large
      omega
    · rw [found, Option.some.injEq] at standing
      rw [← standing] at known
      have large := known.1
      omega
  · rw [List.length_append, show rest.length + [first, second].length = rest.length + 1 + 1 from rfl]
      at cuts
    have found : (rest ++ [first, second] ++ text)[rest.length + 1]? = some second := by simp
    have opening : (rest ++ [first, second] ++ text)[rest.length]? = some first := by simp
    simp only [isWideSpace, Bool.and_eq_true, Bool.or_eq_true, beq_iff_eq] at wide
    rcases cuts.before with ⟨count, lead, standing, known⟩ | ⟨earlier, last, place, -, -, apart⟩
    · rw [found, Option.some.injEq] at standing
      have large := known.large
      rw [← standing] at large
      rcases wide.2 with rfl | rfl <;> exact absurd large (by decide)
    · obtain rfl : rest.length = earlier := by omega
      exact apart first opening (by rw [wide.1]; decide)

/-- Nor does trimming behind. -/
theorem not_cuts_back (blank : Whitespace back) : ¬Utf8.Cuts (text ++ back) text.length := by
  intro cuts
  obtain ⟨byte, found, tail⟩ := cuts.continues
  rw [List.getElem?_append_right le_rfl, Nat.sub_self] at found
  cases blank with
  | nil => cases found
  | plain plain _ =>
      rw [List.getElem?_cons_zero, Option.some.injEq] at found
      have small := toNat_of_plain plain
      have large := tail.1
      rw [← found] at large
      omega
  | wide wide _ =>
      rw [List.getElem?_cons_zero, Option.some.injEq] at found
      rw [isWideSpace, Bool.and_eq_true, beq_iff_eq] at wide
      rw [← found, wide.1] at tail
      exact absurd tail (by decide)

/-- What the loops skip is whitespace. -/
theorem whitespace_outside (token : Bytes) :
    Whitespace (token.take (viewStart token)) ∧ Whitespace (token.drop (viewStop token)) := by
  obtain ⟨⟨-, inside⟩, left⟩ := skipLeading_spec token 0 (Nat.zero_le _)
  obtain ⟨⟨low, -⟩, right⟩ := skipTrailing_spec token (viewStart token) token.length inside le_rfl
  change token.drop (viewStart token) = _ at left
  change ((token.take (viewStop token)).drop (viewStart token)).reverse = _ at right
  change viewStart token ≤ viewStop token at low
  rw [List.drop_zero] at left
  rw [List.take_length] at right
  constructor
  · obtain ⟨front, blank, split, -⟩ := trimStart_spec token
    have whole := List.take_append_drop (viewStart token) token
    rw [left] at whole
    rw [List.append_cancel_right (whole.trans split)]
    exact blank
  · obtain ⟨back, blank, split, -⟩ := trimEnd_spec (token.drop (viewStart token)).reverse
    rw [← right] at split
    have behind := congrArg List.reverse split
    rw [List.reverse_reverse, List.reverse_append, List.reverse_reverse, List.reverse_reverse] at behind
    have whole := List.take_append_drop (viewStop token) (token)
    have rest := congrArg (List.drop (viewStart token)) whole
    rw [List.drop_append_of_le_length (by rw [List.length_take]; have := view_bounds token; omega),
      behind] at rest
    rw [List.append_cancel_left rest]
    exact blank

/-- Neither bound of the view lies inside a character. -/
theorem not_cuts_view (token : Bytes) :
    ¬Utf8.Cuts token (viewStart token) ∧ ¬Utf8.Cuts token (viewStop token) := by
  have bounds := view_bounds token
  have outside := whitespace_outside token
  have front := @not_cuts_front _ (token.drop (viewStart token)) outside.1
  have back := @not_cuts_back (token.take (viewStop token)) _ outside.2
  rw [List.take_append_drop, List.length_take, Nat.min_eq_left (by omega)] at front back
  exact ⟨front, back⟩

/-! ## The pattern -/

/-- `A-Za-z0-9_-`. -/
def base64urlSymbols : Bytes :=
  ascii "ABCDEFGHIJKLMNOPQRSTUVWXYZabcdefghijklmnopqrstuvwxyz0123456789_-"

/-- The pattern of a JWS over a whole string: two segments of at least one character, each
in front of a dot, and a third of any length. -/
def jwsPattern : RegularExpression UInt8 :=
  Patterns.someOf base64urlSymbols * .char 0x2e * (Patterns.someOf base64urlSymbols * .char 0x2e) *
    Patterns.anyOf base64urlSymbols

theorem isJwsChar_iff {byte : UInt8} : isJwsChar byte = true ↔ byte ∈ base64urlSymbols := by
  have every := forall_byte (fun byte => isJwsChar byte == base64urlSymbols.contains byte)
    (by decide) byte
  rw [beq_iff_eq.mp every, List.contains_iff_mem]

theorem jwsShape_iff_matches {view : Bytes} : JwsShape view ↔ view ∈ jwsPattern.matches' := by
  have chars {segment : Bytes} : (∀ byte ∈ segment, isJwsChar byte = true) ↔
      ∀ byte ∈ segment, byte ∈ base64urlSymbols := by
    simp only [isJwsChar_iff]
  simp only [jwsPattern, RegularExpression.matches'_mul, RegularExpression.matches'_char]
  constructor
  · rintro ⟨header, payload, signature, rfl, headed, loaded, every⟩
    simp only [List.forall_mem_append, chars] at every
    rcases every with ⟨⟨headers, payloads⟩, signatures⟩
    have first := Patterns.mem_someOf.mpr ⟨headed, headers⟩
    have second := Patterns.mem_someOf.mpr ⟨loaded, payloads⟩
    have third := Patterns.mem_anyOf.mpr signatures
    have whole := Language.append_mem_mul (Language.append_mem_mul
      (Language.append_mem_mul first (Set.mem_singleton [0x2e]))
      (Language.append_mem_mul second (Set.mem_singleton [0x2e]))) third
    rw [List.append_assoc, List.append_assoc, List.append_assoc] at whole
    exact whole
  · rintro ⟨_, ⟨_, ⟨header, first, dot, isDot, rfl⟩, _, ⟨payload, second, dot', isDot', rfl⟩, rfl⟩,
      signature, third, rfl⟩
    obtain rfl : dot = [0x2e] := isDot
    obtain rfl : dot' = [0x2e] := isDot'
    obtain ⟨headed, headers⟩ := Patterns.mem_someOf.mp first
    obtain ⟨loaded, payloads⟩ := Patterns.mem_someOf.mp second
    have signatures := Patterns.mem_anyOf.mp third
    refine ⟨header, payload, signature, by simp, headed, loaded, ?_⟩
    simp only [List.forall_mem_append, chars]
    exact ⟨⟨headers, payloads⟩, signatures⟩

/-- The guard on the shape of a credential: padding is trimmed whatever it is made of, the
view neither starts nor ends with whitespace and cuts no character, the shape test decides
its pattern, and so within the cap padding does not change what is refused. -/
theorem shape_guard (token : Bytes) (front back : List Char)
    (blank : ∀ point ∈ front ++ back, point ∈ whitespacePoints) :
    trimmedView (Utf8.encode front ++ token ++ Utf8.encode back) = trimmedView token ∧
    (∀ point ∈ whitespacePoints,
      ¬String.utf8EncodeChar point <+: trimmedView token ∧
        ¬String.utf8EncodeChar point <:+ trimmedView token) ∧
    (¬Utf8.Cuts token (viewStart token) ∧ ¬Utf8.Cuts token (viewStop token)) ∧
    (∀ view, isJwsShaped view = true ↔ view ∈ jwsPattern.matches') ∧
    (rejectJwsShaped token =
      !(trimmedView token = [] || decide (token.length > kMaxTokenBytes) ||
        isJwsShaped (trimmedView token))) ∧
    ((Utf8.encode front ++ token ++ Utf8.encode back).length ≤ kMaxTokenBytes →
      rejectJwsShaped (Utf8.encode front ++ token ++ Utf8.encode back) = rejectJwsShaped token) := by
  have padded : trimmed (Utf8.encode front ++ token ++ Utf8.encode back) = trimmed token := by
    rw [List.forall_mem_append] at blank
    exact trimmed_padded (whitespace_encode blank.1) (whitespace_encode blank.2) token
  have trims := trims_trimmed token
  refine ⟨?_, ?_, not_cuts_view token, ?_, ?_, ?_⟩
  · rw [trimmedView_eq, trimmedView_eq, padded]
  · intro point listed
    rw [trimmedView_eq]
    constructor
    · intro found
      have start := startsBlank_of_prefix listed found
      rw [trims.start] at start
      cases start
    · intro found
      have stop := endsBlank_of_suffix listed found
      rw [trims.stop] at stop
      cases stop
  · intro view
    rw [isJwsShaped_iff, jwsShape_iff_matches]
  · rw [rejectJwsShaped, trimmedView_eq]
  · intro fits
    have smaller : token.length ≤ kMaxTokenBytes := by
      rw [List.length_append, List.length_append] at fits
      omega
    rw [rejectJwsShaped, rejectJwsShaped, padded, decide_eq_false (Nat.not_lt.mpr fits),
      decide_eq_false (Nat.not_lt.mpr smaller)]

/-- An unsecured JWT behind a no-break space and in front of a line feed is refused. -/
theorem padded_jws_refused :
    rejectJwsShaped (ascii "a.b.") = false ∧
      rejectJwsShaped (Utf8.encode [Char.ofNat 0xa0] ++ ascii "a.b." ++
        Utf8.encode [Char.ofNat 0x0a]) = rejectJwsShaped (ascii "a.b.") :=
  ⟨by decide, (shape_guard (ascii "a.b.") [Char.ofNat 0xa0] [Char.ofNat 0x0a]
    (List.forall_mem_cons.mpr ⟨by decide, List.forall_mem_singleton.mpr (by decide)⟩)).2.2.2.2.2
    (by decide)⟩

end VgiRpc.Identity
