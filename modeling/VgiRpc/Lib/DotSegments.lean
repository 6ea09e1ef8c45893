import Mathlib.Data.List.TakeWhile
import VgiRpc.Lib.Separators
import VgiRpc.Lib.Spans

/-!
# Dot segments

The removal of dot segments from the path of a URI, with its input and output buffers.
It leaves a path alone exactly if none of the path's segments is a dot segment.  On a
path that begins with a slash it is a walk over the segments.
-/

namespace VgiRpc.Lib

/-! ## The removal -/

/-- An output buffer without its last segment and the slash in front of it. -/
def dropSegment (output : List UInt8) : List UInt8 :=
  (output.reverse.dropWhile (· != 0x2f)).tail.reverse

/-- The removal of dot segments, with an input and an output buffer. -/
def removeDots (input output : List UInt8) : List UInt8 :=
  if input = [] then output
  else if [0x2e, 0x2e, 0x2f] <+: input then removeDots (input.drop 3) output
  else if [0x2e, 0x2f] <+: input then removeDots (input.drop 2) output
  else if [0x2f, 0x2e, 0x2f] <+: input then removeDots (0x2f :: input.drop 3) output
  else if input = [0x2f, 0x2e] then removeDots [0x2f] output
  else if [0x2f, 0x2e, 0x2e, 0x2f] <+: input then
    removeDots (0x2f :: input.drop 4) (dropSegment output)
  else if input = [0x2f, 0x2e, 0x2e] then removeDots [0x2f] (dropSegment output)
  else if input = [0x2e] ∨ input = [0x2e, 0x2e] then output
  else
    removeDots ((input.drop 1).dropWhile (· != 0x2f))
      (output ++ (input.take 1 ++ (input.drop 1).takeWhile (· != 0x2f)))
  termination_by input.length
  decreasing_by
    · have := List.length_pos_iff.mpr ‹input ≠ []›
      rw [List.length_drop]
      omega
    · have := List.length_pos_iff.mpr ‹input ≠ []›
      rw [List.length_drop]
      omega
    · have := List.IsPrefix.length_le ‹[0x2f, 0x2e, 0x2f] <+: input›
      rw [List.length_cons, List.length_drop]
      simp only [List.length_cons, List.length_nil] at this
      omega
    · rw [‹input = [0x2f, 0x2e]›]
      decide
    · have := List.IsPrefix.length_le ‹[0x2f, 0x2e, 0x2e, 0x2f] <+: input›
      rw [List.length_cons, List.length_drop]
      simp only [List.length_cons, List.length_nil] at this
      omega
    · rw [‹input = [0x2f, 0x2e, 0x2e]›]
      decide
    · have positive := List.length_pos_iff.mpr ‹input ≠ []›
      have shorter := (@List.dropWhile_suffix _ (input.drop 1) (· != 0x2f)).length_le
      rw [List.length_drop] at shorter
      omega

/-! ## Segments -/

def segments (path : List UInt8) : List (List UInt8) := path.splitOn 0x2f

/-- A path of segments with a slash in front of each. -/
def joinSegments (segments : List (List UInt8)) : List UInt8 :=
  segments.flatMap fun segment => 0x2f :: segment

/-- `.` or `..`. -/
def IsDot (segment : List UInt8) : Prop := segment = [0x2e] ∨ segment = [0x2e, 0x2e]

instance (segment : List UInt8) : Decidable (IsDot segment) :=
  inferInstanceAs (Decidable (_ ∨ _))

/-- A path without dot segments. -/
def DotFree (path : List UInt8) : Prop := ∀ segment ∈ segments path, ¬IsDot segment

instance (path : List UInt8) : Decidable (DotFree path) :=
  inferInstanceAs (Decidable (∀ segment ∈ segments path, ¬IsDot segment))

section Segments

variable {segment path mark : List UInt8} {rest : List (List UInt8)}

theorem segments_single (plain : (0x2f : UInt8) ∉ segment) : segments segment = [segment] :=
  List.splitOn_eq_singleton plain

theorem segments_cut (plain : (0x2f : UInt8) ∉ segment) (path : List UInt8) :
    segments (segment ++ 0x2f :: path) = segment :: segments path :=
  List.splitOn_append_cons_self_of_not_mem plain path

theorem segments_slash (path : List UInt8) : segments (0x2f :: path) = [] :: segments path :=
  segments_cut List.not_mem_nil path

@[simp] theorem joinSegments_nil : joinSegments [] = [] := rfl

theorem joinSegments_cons (segment : List UInt8) (rest : List (List UInt8)) :
    joinSegments (segment :: rest) = 0x2f :: (segment ++ joinSegments rest) := rfl

theorem joinSegments_append (front back : List (List UInt8)) :
    joinSegments (front ++ back) = joinSegments front ++ joinSegments back :=
  List.flatMap_append

theorem joinSegments_head (rest : List (List UInt8)) :
    ∀ byte more, joinSegments rest = byte :: more → (byte != 0x2f) = false := by
  intro byte more starts
  cases rest with
  | nil => cases starts
  | cons segment rest =>
      rw [joinSegments_cons, List.cons.injEq] at starts
      rw [← starts.1]
      rfl

theorem plain_all (plain : (0x2f : UInt8) ∉ segment) : segment.all (· != 0x2f) = true := by
  rw [List.all_eq_true]
  intro byte mem
  rw [bne_iff_ne]
  rintro rfl
  exact plain mem

/-- A path that begins with a slash is the join of its segments. -/
theorem joinSegments_segments (path : List UInt8) : joinSegments (segments path) = 0x2f :: path := by
  have joined : ∀ segment rest, joinSegments (segment :: rest) =
      0x2f :: [0x2f].intercalate (segment :: rest) := by
    intro segment rest
    induction rest generalizing segment with
    | nil =>
        rw [joinSegments_cons, joinSegments_nil]
        simp
    | cons next rest inductionHypothesis =>
        rw [joinSegments_cons, inductionHypothesis]
        simp
  cases split : segments path with
  | nil => exact absurd split (List.splitOn_ne_nil _ _)
  | cons segment rest =>
      rw [joined, ← split, segments, List.intercalate_splitOn]

theorem segments_join {list : List (List UInt8)} (some : list ≠ [])
    (plain : ∀ segment ∈ list, (0x2f : UInt8) ∉ segment) :
    segments (joinSegments list) = [] :: list := by
  induction list with
  | nil => exact absurd rfl some
  | cons segment rest inductionHypothesis =>
      rw [List.forall_mem_cons] at plain
      rw [joinSegments_cons, segments_slash]
      cases rest with
      | nil => rw [joinSegments_nil, List.append_nil, segments_single plain.1]
      | cons next rest =>
          have later := inductionHypothesis (List.cons_ne_nil next rest) plain.2
          rw [joinSegments_cons, segments_slash, List.cons.injEq] at later
          rw [joinSegments_cons, segments_cut plain.1, later.2]

theorem segments_plain (path : List UInt8) : ∀ segment ∈ segments path, (0x2f : UInt8) ∉ segment := by
  induction path with
  | nil =>
      rw [segments_single List.not_mem_nil]
      simp
  | cons byte rest inductionHypothesis =>
      by_cases slash : byte = 0x2f
      · subst byte
        rw [segments_slash, List.forall_mem_cons]
        exact ⟨List.not_mem_nil, inductionHypothesis⟩
      · rw [segments] at inductionHypothesis
        rw [segments, List.splitOn_cons_eq_if_modifyHead, beq_false_of_ne slash, if_neg nofun]
        cases split : rest.splitOn 0x2f with
        | nil => exact absurd split (List.splitOn_ne_nil _ _)
        | cons segment more =>
            rw [split, List.forall_mem_cons] at inductionHypothesis
            rw [List.modifyHead_cons, List.forall_mem_cons, List.mem_cons, not_or]
            exact ⟨⟨Ne.symm slash, inductionHypothesis.1⟩, inductionHypothesis.2⟩

/-- The first segment of a join. -/
theorem joinSegments_prefix (plain : (0x2f : UInt8) ∉ segment) (plainMark : (0x2f : UInt8) ∉ mark) :
    0x2f :: (mark ++ [0x2f]) <+: joinSegments (segment :: rest) ↔ segment = mark ∧ rest ≠ [] := by
  rw [joinSegments_cons, List.cons_prefix_cons, eq_self, true_and]
  cases rest with
  | nil =>
      rw [joinSegments_nil, List.append_nil]
      constructor
      · intro starts
        refine absurd (starts.subset ?_) plain
        exact List.mem_append_right mark List.mem_cons_self
      · rintro ⟨-, some⟩
        exact absurd rfl some
  | cons next rest =>
      rw [joinSegments_cons]
      constructor
      · rintro ⟨more, same⟩
        rw [List.append_assoc, List.singleton_append] at same
        exact ⟨((append_cons_inj_front plainMark plain).mp same).1.symm, List.cons_ne_nil next rest⟩
      · rintro ⟨rfl, -⟩
        exact ⟨next ++ joinSegments rest, by rw [List.append_assoc, List.singleton_append]⟩

theorem joinSegments_whole (plainMark : (0x2f : UInt8) ∉ mark) :
    joinSegments (segment :: rest) = 0x2f :: mark ↔ segment = mark ∧ rest = [] := by
  rw [joinSegments_cons, List.cons.injEq, eq_self, true_and]
  constructor
  · rintro rfl
    cases rest with
    | nil => exact ⟨(List.append_nil segment).symm, rfl⟩
    | cons next rest =>
        refine absurd ?_ plainMark
        exact List.mem_append_right segment List.mem_cons_self
  · rintro ⟨rfl, rfl⟩
    exact List.append_nil segment

/-- The segments behind the first one of a join. -/
theorem joinSegments_drop (segment : List UInt8) (some : rest ≠ []) :
    0x2f :: (joinSegments (segment :: rest)).drop (segment.length + 2) = joinSegments rest := by
  cases rest with
  | nil => exact absurd rfl some
  | cons next rest =>
      rw [joinSegments_cons, joinSegments_cons, List.drop_succ_cons, List.drop_length_add_append]
      rfl

/-- The segments of a join are determined. -/
theorem joinSegments_inj {one two : List (List UInt8)}
    (plain : ∀ segment ∈ one, (0x2f : UInt8) ∉ segment)
    (plainToo : ∀ segment ∈ two, (0x2f : UInt8) ∉ segment) :
    joinSegments one = joinSegments two ↔ one = two := by
  constructor
  · intro same
    cases one with
    | nil =>
        cases two with
        | nil => rfl
        | cons segment rest => cases same
    | cons segment rest =>
        cases two with
        | nil => cases same
        | cons other more =>
            have cut := congrArg segments same
            rw [segments_join (List.cons_ne_nil _ _) plain,
              segments_join (List.cons_ne_nil _ _) plainToo] at cut
            exact (List.cons.inj cut).2
  · exact congrArg joinSegments

end Segments

/-! ## The walk over the segments -/

/-- What is left of some segments behind one more. -/
def climb (left : List (List UInt8)) (segment : List UInt8) : List (List UInt8) :=
  if segment = [0x2e] then left
  else if segment = [0x2e, 0x2e] then left.dropLast
  else left ++ [segment]

/-- The segments without the dot segments; a dot segment at the end leaves an empty one. -/
def withoutDots (segments : List (List UInt8)) : List (List UInt8) :=
  segments.foldl climb [] ++ if segments.getLast?.any (fun last => decide (IsDot last)) then [[]] else []

section Walk

variable {segment : List UInt8} {rest left : List (List UInt8)} {output : List UInt8}

theorem climb_plain (plain : (0x2f : UInt8) ∉ segment)
    (plainLeft : ∀ one ∈ left, (0x2f : UInt8) ∉ one) :
    ∀ one ∈ climb left segment, (0x2f : UInt8) ∉ one := by
  rw [climb]
  split
  · exact plainLeft
  · split
    · intro one mem
      exact plainLeft one (List.mem_of_mem_dropLast mem)
    · intro one mem
      rw [List.mem_append, List.mem_singleton] at mem
      rcases mem with mem | rfl
      · exact plainLeft one mem
      · exact plain

theorem foldl_climb_plain (plain : ∀ one ∈ rest, (0x2f : UInt8) ∉ one)
    (plainLeft : ∀ one ∈ left, (0x2f : UInt8) ∉ one) :
    ∀ one ∈ rest.foldl climb left, (0x2f : UInt8) ∉ one := by
  induction rest generalizing left with
  | nil => exact plainLeft
  | cons segment rest inductionHypothesis =>
      rw [List.forall_mem_cons] at plain
      exact inductionHypothesis plain.2 (climb_plain plain.1 plainLeft)

theorem dropSegment_join (plain : ∀ one ∈ left, (0x2f : UInt8) ∉ one) :
    dropSegment (joinSegments left) = joinSegments left.dropLast := by
  cases left using List.reverseRecOn with
  | nil => rfl
  | append_singleton front last =>
      have lastPlain := plain_all (plain last (List.mem_append_right front List.mem_cons_self))
      have stops : ∀ byte more, 0x2f :: (joinSegments front).reverse = byte :: more →
          (byte != 0x2f) = false := by
        intro byte more starts
        rw [← (List.cons.inj starts).1]
        rfl
      rw [← List.all_reverse] at lastPlain
      rw [dropSegment, joinSegments_append, joinSegments_cons, joinSegments_nil, List.append_nil,
        List.dropLast_concat, List.reverse_append, List.reverse_cons, List.append_assoc,
        List.singleton_append, (cut_eq lastPlain stops).2, List.tail_cons, List.reverse_reverse]

theorem climb_name (left : List (List UInt8)) (name : ¬IsDot segment) :
    climb left segment = left ++ [segment] := by
  rw [climb, if_neg (fun dot => name (.inl dot)), if_neg (fun dots => name (.inr dots))]

theorem withoutDots_plain {segments : List (List UInt8)}
    (plain : ∀ one ∈ segments, (0x2f : UInt8) ∉ one) :
    ∀ one ∈ withoutDots segments, (0x2f : UInt8) ∉ one := by
  intro one mem
  rw [withoutDots, List.mem_append] at mem
  rcases mem with left | last
  · exact foldl_climb_plain plain (List.forall_mem_nil _) one left
  · split at last
    · rw [List.mem_singleton.mp last]
      exact List.not_mem_nil
    · cases last

/-- Something is left of every path. -/
theorem withoutDots_ne_nil {segments : List (List UInt8)} (some : segments ≠ []) :
    withoutDots segments ≠ [] := by
  cases segments using List.reverseRecOn with
  | nil => exact absurd rfl some
  | append_singleton front last =>
      rw [withoutDots, List.getLast?_concat, Option.any_some, List.foldl_concat]
      by_cases isDot : IsDot last
      · rw [if_pos (decide_eq_true isDot)]
        exact List.append_ne_nil_of_right_ne_nil _ (List.cons_ne_nil _ _)
      · rw [climb_name _ isDot, List.append_assoc]
        exact List.append_ne_nil_of_right_ne_nil _ (List.cons_ne_nil _ _)

/-- One segment of a path that begins with a slash. -/
theorem removeDots_segment (plain : (0x2f : UInt8) ∉ segment) :
    removeDots (joinSegments (segment :: rest)) output =
      if IsDot segment then
        removeDots (if rest = [] then [0x2f] else joinSegments rest)
          (if segment = [0x2e] then output else dropSegment output)
      else removeDots (joinSegments rest) (output ++ 0x2f :: segment) := by
  have dot : (0x2f : UInt8) ∉ ([0x2e] : List UInt8) := by decide
  have dots : (0x2f : UInt8) ∉ ([0x2e, 0x2e] : List UInt8) := by decide
  have one : [0x2f, 0x2e, 0x2f] <+: joinSegments (segment :: rest) ↔ segment = [0x2e] ∧ rest ≠ [] :=
    joinSegments_prefix plain dot
  have two : [0x2f, 0x2e, 0x2e, 0x2f] <+: joinSegments (segment :: rest) ↔
      segment = [0x2e, 0x2e] ∧ rest ≠ [] := joinSegments_prefix plain dots
  have oneWhole := @joinSegments_whole segment [0x2e] rest dot
  have twoWhole := @joinSegments_whole segment [0x2e, 0x2e] rest dots
  have some : joinSegments (segment :: rest) ≠ [] := List.cons_ne_nil _ _
  have noDots : ¬[0x2e, 0x2e, 0x2f] <+: joinSegments (segment :: rest) := by
    rw [joinSegments_cons, List.cons_prefix_cons]
    rintro ⟨⟨⟩, -⟩
  have noDot : ¬[0x2e, 0x2f] <+: joinSegments (segment :: rest) := by
    rw [joinSegments_cons, List.cons_prefix_cons]
    rintro ⟨⟨⟩, -⟩
  rw [removeDots, if_neg some, if_neg noDots, if_neg noDot]
  by_cases isDot : segment = [0x2e]
  · subst isDot
    rw [if_pos (show IsDot [0x2e] from .inl rfl), if_pos rfl]
    by_cases last : rest = []
    · rw [if_neg (fun starts => (one.mp starts).2 last), if_pos (oneWhole.mpr ⟨rfl, last⟩),
        if_pos last]
    · have dropped : 0x2f :: (joinSegments ([0x2e] :: rest)).drop 3 = joinSegments rest :=
        joinSegments_drop [0x2e] last
      rw [if_pos (one.mpr ⟨rfl, last⟩), if_neg last, dropped]
  · rw [if_neg (fun starts => isDot (one.mp starts).1), if_neg (fun same => isDot (oneWhole.mp same).1)]
    by_cases isDots : segment = [0x2e, 0x2e]
    · subst isDots
      rw [if_pos (show IsDot [0x2e, 0x2e] from .inr rfl), if_neg isDot]
      by_cases last : rest = []
      · rw [if_neg (fun starts => (two.mp starts).2 last), if_pos (twoWhole.mpr ⟨rfl, last⟩),
          if_pos last]
      · have dropped : 0x2f :: (joinSegments ([0x2e, 0x2e] :: rest)).drop 4 = joinSegments rest :=
          joinSegments_drop [0x2e, 0x2e] last
        rw [if_pos (two.mpr ⟨rfl, last⟩), if_neg last, dropped]
    · have notDot : ¬IsDot segment := fun either => either.elim isDot isDots
      have relative : ¬(joinSegments (segment :: rest) = [0x2e] ∨
          joinSegments (segment :: rest) = [0x2e, 0x2e]) := by
        rw [joinSegments_cons]
        rintro (⟨⟨⟩, -⟩ | ⟨⟨⟩, -⟩)
      have parts := cut_eq (plain_all plain) (joinSegments_head rest)
      rw [if_neg (fun starts => isDots (two.mp starts).1),
        if_neg (fun same => isDots (twoWhole.mp same).1), if_neg relative, if_neg notDot,
        joinSegments_cons, List.drop_succ_cons, List.drop_zero, parts.1, parts.2]
      rfl

/-- A segment in the middle of a path. -/
theorem removeDots_climb (plain : (0x2f : UInt8) ∉ segment)
    (plainLeft : ∀ one ∈ left, (0x2f : UInt8) ∉ one) (some : rest ≠ []) :
    removeDots (joinSegments (segment :: rest)) (joinSegments left) =
      removeDots (joinSegments rest) (joinSegments (climb left segment)) := by
  rw [removeDots_segment plain, if_neg some, climb]
  by_cases isDot : segment = [0x2e]
  · rw [if_pos (.inl isDot), if_pos isDot, if_pos isDot]
  · rw [if_neg isDot, if_neg isDot]
    by_cases isDots : segment = [0x2e, 0x2e]
    · rw [if_pos (.inr isDots), if_pos isDots, dropSegment_join plainLeft]
    · rw [if_neg (fun either => either.elim isDot isDots), if_neg isDots, joinSegments_append,
        joinSegments_cons, joinSegments_nil, List.append_nil]

@[simp] theorem removeDots_nil (output : List UInt8) : removeDots [] output = output := by
  rw [removeDots, if_pos rfl]

theorem removeDots_slash (output : List UInt8) : removeDots [0x2f] output = output ++ [0x2f] := by
  have step := @removeDots_segment [] [] output List.not_mem_nil
  rw [if_neg (by decide), joinSegments_nil, removeDots_nil] at step
  exact step

/-- The last segment of a path. -/
theorem removeDots_last (plain : (0x2f : UInt8) ∉ segment)
    (plainLeft : ∀ one ∈ left, (0x2f : UInt8) ∉ one) :
    removeDots (joinSegments [segment]) (joinSegments left) =
      joinSegments (climb left segment ++ if IsDot segment then [[]] else []) := by
  rw [removeDots_segment plain, if_pos rfl, removeDots_slash, joinSegments_append, climb]
  by_cases isDot : segment = [0x2e]
  · have either : IsDot segment := .inl isDot
    rw [if_pos either, if_pos either, if_pos isDot, if_pos isDot]
    rfl
  · rw [if_neg isDot, if_neg isDot]
    by_cases isDots : segment = [0x2e, 0x2e]
    · have either : IsDot segment := .inr isDots
      rw [if_pos either, if_pos either, if_pos isDots, dropSegment_join plainLeft]
      rfl
    · have neither : ¬IsDot segment := fun either => either.elim isDot isDots
      rw [if_neg neither, if_neg neither, if_neg isDots, joinSegments_nil, removeDots_nil,
        List.append_nil, joinSegments_append, joinSegments_cons, joinSegments_nil, List.append_nil]

/-- On the join of some segments, the removal is the walk. -/
theorem removeDots_join {segments : List (List UInt8)} (some : segments ≠ [])
    (plain : ∀ one ∈ segments, (0x2f : UInt8) ∉ one) (plainLeft : ∀ one ∈ left, (0x2f : UInt8) ∉ one) :
    removeDots (joinSegments segments) (joinSegments left) =
      joinSegments (segments.foldl climb left ++
        if segments.getLast?.any (fun last => decide (IsDot last)) then [[]] else []) := by
  induction segments generalizing left with
  | nil => exact absurd rfl some
  | cons segment rest inductionHypothesis =>
      rw [List.forall_mem_cons] at plain
      cases rest with
      | nil =>
          rw [removeDots_last plain.1 plainLeft, List.foldl_cons, List.foldl_nil,
            List.getLast?_singleton, Option.any_some]
          simp only [decide_eq_true_eq]
      | cons next rest =>
          rw [removeDots_climb plain.1 plainLeft (List.cons_ne_nil next rest),
            inductionHypothesis (List.cons_ne_nil next rest) plain.2 (climb_plain plain.1 plainLeft),
            List.getLast?_cons_cons]
          rfl

/-- The removal from a path that begins with a slash. -/
theorem removeDots_rooted (path : List UInt8) :
    removeDots (0x2f :: path) [] = joinSegments (withoutDots (segments path)) := by
  rw [← joinSegments_segments, withoutDots]
  exact removeDots_join (List.splitOn_ne_nil _ _) (segments_plain path)
    (List.forall_mem_nil _)

theorem removeDots_ne_nil (path : List UInt8) : removeDots (0x2f :: path) [] ≠ [] := by
  rw [removeDots_rooted]
  cases left : withoutDots (segments path) with
  | nil => exact absurd left (withoutDots_ne_nil (List.splitOn_ne_nil _ _))
  | cons segment rest => exact List.cons_ne_nil _ _

end Walk

/-! ## Paths that are left alone -/

section DotFree

variable {segment path input output : List UInt8}

theorem dotFree_slash (path : List UInt8) : DotFree (0x2f :: path) ↔ DotFree path := by
  rw [DotFree, segments_slash, List.forall_mem_cons, DotFree]
  constructor
  · intro free
    exact free.2
  · intro free
    exact ⟨by decide, free⟩

theorem dotFree_cut (plain : (0x2f : UInt8) ∉ segment) (path : List UInt8) :
    DotFree (segment ++ 0x2f :: path) ↔ ¬IsDot segment ∧ DotFree path := by
  rw [DotFree, segments_cut plain, List.forall_mem_cons, DotFree]

theorem dotFree_single (plain : (0x2f : UInt8) ∉ segment) : DotFree segment ↔ ¬IsDot segment := by
  rw [DotFree, segments_single plain, List.forall_mem_singleton]

theorem dropSegment_length (output : List UInt8) : (dropSegment output).length ≤ output.length := by
  rw [dropSegment, List.length_reverse, List.length_tail]
  have shorter := (@List.dropWhile_suffix _ output.reverse (· != 0x2f)).length_le
  rw [List.length_reverse] at shorter
  omega

theorem removeDots_length (input output : List UInt8) :
    (removeDots input output).length ≤ input.length + output.length := by
  fun_induction removeDots input output with
  | case1 output =>
      exact Nat.le_add_left _ _
  | case2 input output _ _ inductionHypothesis =>
      rw [List.length_drop] at inductionHypothesis
      omega
  | case3 input output _ _ _ inductionHypothesis =>
      rw [List.length_drop] at inductionHypothesis
      omega
  | case4 input output _ _ _ starts inductionHypothesis =>
      have long := starts.length_le
      simp only [List.length_cons, List.length_nil, List.length_drop] at long inductionHypothesis
      omega
  | case5 output _ _ _ _ inductionHypothesis =>
      simp only [List.length_cons, List.length_nil] at inductionHypothesis ⊢
      omega
  | case6 input output _ _ _ _ _ starts inductionHypothesis =>
      have long := starts.length_le
      have shorter := dropSegment_length output
      simp only [List.length_cons, List.length_nil, List.length_drop] at long inductionHypothesis
      omega
  | case7 output _ _ _ _ _ _ inductionHypothesis =>
      have shorter := dropSegment_length output
      simp only [List.length_cons, List.length_nil] at inductionHypothesis ⊢
      omega
  | case8 => exact Nat.le_add_left _ _
  | case9 input output some _ _ _ _ _ _ _ inductionHypothesis =>
      have positive := List.length_pos_iff.mpr some
      have parts := congrArg List.length
        (@List.takeWhile_append_dropWhile _ (· != 0x2f) (input.drop 1))
      simp only [List.length_append, List.length_take, List.length_drop] at parts inductionHypothesis
      omega

theorem dotFree_span {tail : List UInt8} (plain : (0x2f : UInt8) ∉ segment)
    (head : tail = [] ∨ ∃ more, tail = 0x2f :: more) :
    DotFree (segment ++ tail) ↔ ¬IsDot segment ∧ DotFree tail := by
  rcases head with rfl | ⟨more, rfl⟩
  · have empty : DotFree [] := by decide
    rw [List.append_nil, dotFree_single plain, iff_true_intro empty, and_true]
  · rw [dotFree_cut plain, dotFree_slash]

/-- Behind a first segment that is not a dot segment. -/
theorem dotFree_behind (noDot : ∀ more, path ≠ 0x2e :: 0x2f :: more) (noLast : path ≠ [0x2e])
    (noDots : ∀ more, path ≠ 0x2e :: 0x2e :: 0x2f :: more) (noLasts : path ≠ [0x2e, 0x2e]) :
    DotFree path ↔ DotFree (path.dropWhile (· != 0x2f)) := by
  have plain : (0x2f : UInt8) ∉ path.takeWhile (· != 0x2f) := not_mem_takeWhile_ne
  have parts := @List.takeWhile_append_dropWhile _ (· != 0x2f) path
  have head : path.dropWhile (· != 0x2f) = [] ∨ ∃ more, path.dropWhile (· != 0x2f) = 0x2f :: more :=
    dropWhile_ne path
  have notDot : ¬IsDot (path.takeWhile (· != 0x2f)) := by
    rintro (dot | dots)
    · rw [dot] at parts
      rcases head with none | ⟨more, starts⟩
      · rw [none] at parts
        exact noLast parts.symm
      · rw [starts] at parts
        exact noDot more parts.symm
    · rw [dots] at parts
      rcases head with none | ⟨more, starts⟩
      · rw [none] at parts
        exact noLasts parts.symm
      · rw [starts] at parts
        exact noDots more parts.symm
  have span := dotFree_span plain head
  rw [parts, iff_true_intro notDot, true_and] at span
  exact span

/-- A removal that shortens its buffers leaves no path alone. -/
theorem ne_of_shorter {left : List UInt8} (short : left.length < input.length + output.length) :
    left ≠ output ++ input := by
  rintro rfl
  rw [List.length_append] at short
  omega

/-- The removal leaves exactly the paths without dot segments alone. -/
theorem removeDots_eq_iff (input output : List UInt8) :
    removeDots input output = output ++ input ↔ DotFree input := by
  fun_induction removeDots input output with
  | case1 output =>
      rw [List.append_nil]
      exact iff_of_true rfl (by decide)
  | case2 input output _ starts =>
      obtain ⟨more, rfl⟩ := starts
      refine iff_of_false (ne_of_shorter ?_) ?_
      · have bound := removeDots_length more output
        change (removeDots more output).length < more.length + 3 + _
        omega
      · have cut := @dotFree_cut [0x2e, 0x2e] (by decide) more
        exact fun free => (cut.mp free).1 (.inr rfl)
  | case3 input output _ _ starts =>
      obtain ⟨more, rfl⟩ := starts
      refine iff_of_false (ne_of_shorter ?_) ?_
      · have bound := removeDots_length more output
        change (removeDots more output).length < more.length + 2 + _
        omega
      · have cut := @dotFree_cut [0x2e] (by decide) more
        exact fun free => (cut.mp free).1 (.inl rfl)
  | case4 input output _ _ _ starts =>
      obtain ⟨more, rfl⟩ := starts
      refine iff_of_false (ne_of_shorter ?_) ?_
      · have bound := removeDots_length (0x2f :: more) output
        rw [List.length_cons] at bound
        change (removeDots (0x2f :: more) output).length < more.length + 3 + _
        omega
      · have cut := @dotFree_cut [0x2e] (by decide) more
        exact fun free => (cut.mp ((dotFree_slash _).mp free)).1 (.inl rfl)
  | case5 output =>
      refine iff_of_false (ne_of_shorter ?_) (by decide)
      rw [removeDots_slash, List.length_append]
      change _ + 1 < 2 + _
      omega
  | case6 input output _ _ _ _ _ starts =>
      obtain ⟨more, rfl⟩ := starts
      refine iff_of_false (ne_of_shorter ?_) ?_
      · have bound := removeDots_length (0x2f :: more) (dropSegment output)
        have dropped := dropSegment_length output
        rw [List.length_cons] at bound
        change (removeDots (0x2f :: more) (dropSegment output)).length < more.length + 4 + _
        omega
      · have cut := @dotFree_cut [0x2e, 0x2e] (by decide) more
        exact fun free => (cut.mp ((dotFree_slash _).mp free)).1 (.inr rfl)
  | case7 output =>
      refine iff_of_false (ne_of_shorter ?_) (by decide)
      have dropped := dropSegment_length output
      rw [removeDots_slash, List.length_append]
      change _ + 1 < 3 + _
      omega
  | case8 input output _ _ _ _ _ _ _ relative =>
      rcases relative with rfl | rfl
      · refine iff_of_false (ne_of_shorter ?_) (by decide)
        change _ < 1 + _
        omega
      · refine iff_of_false (ne_of_shorter ?_) (by decide)
        change _ < 2 + _
        omega
  | case9 input output some noDots noDot noMiddle noLast noMiddles noLasts relative
      inductionHypothesis =>
      obtain ⟨byte, rest, rfl⟩ := List.exists_cons_of_ne_nil some
      have first : DotFree (byte :: rest) ↔ DotFree (rest.dropWhile (· != 0x2f)) := by
        by_cases slash : byte = 0x2f
        · subst byte
          rw [dotFree_slash]
          exact dotFree_behind (fun more starts => noMiddle ⟨more, by rw [starts]; rfl⟩)
            (fun same => noLast (congrArg _ same))
            (fun more starts => noMiddles ⟨more, by rw [starts]; rfl⟩)
            (fun same => noLasts (congrArg _ same))
        · have chosen : (byte != 0x2f) = true := bne_iff_ne.mpr slash
          have same := @dotFree_behind (byte :: rest)
            (fun more starts => noDot ⟨more, starts.symm⟩) (fun same => relative (.inl same))
            (fun more starts => noDots ⟨more, starts.symm⟩) (fun same => relative (.inr same))
          rw [@List.dropWhile_cons_of_pos _ (· != 0x2f) _ _ chosen] at same
          exact same
      have later : removeDots (rest.dropWhile (· != 0x2f))
          (output ++ byte :: rest.takeWhile (· != 0x2f)) =
          output ++ byte :: rest.takeWhile (· != 0x2f) ++ rest.dropWhile (· != 0x2f) ↔
          DotFree (rest.dropWhile (· != 0x2f)) := inductionHypothesis
      rw [List.append_assoc, List.cons_append, List.takeWhile_append_dropWhile] at later
      rw [first]
      exact later

end DotFree

end VgiRpc.Lib
