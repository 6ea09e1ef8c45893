import VgiRpc.External.Redaction
import VgiRpc.Lib.DotSegments

/-!
# What `normalize_path` does to a path

Dot segments are removed from the non-empty segments only, and a slash at the end is put
back.  That is the removal of dot segments exactly where the empty segments make no
difference.
-/

namespace VgiRpc.External

open VgiRpc.Cpp VgiRpc.Identity
open VgiRpc.Lib (segments joinSegments removeDots DotFree IsDot climb withoutDots)

/-- What dot segments leave of some segments. -/
def kept (all : List Bytes) : List Bytes := all.foldl climb []

/-- What they leave of the non-empty ones. -/
def keptNames (all : List Bytes) : List Bytes := kept (all.filter (· ≠ []))

/-- The segments that `normalize_path` leaves. -/
def collapsed (all : List Bytes) : List Bytes :=
  (if keptNames all = [] then [[]] else keptNames all) ++
    if all ≠ [[]] ∧ all.getLast? = some [] then [[]] else []

/-- Segments of which dot segments leave the same with and without the empty ones; nothing is left
if the last one is a dot segment. -/
def Collapsible (all : List Bytes) : Prop :=
  if all.getLast? = some [] then
    all = [[]] ∨ kept all = (if keptNames all = [] then [[]] else keptNames all) ++ [[]]
  else if all.getLast?.any (fun last => decide (IsDot last)) = true then
    kept all = [] ∧ keptNames all = []
  else kept all = keptNames all

instance (all : List Bytes) : Decidable (Collapsible all) := by
  unfold Collapsible
  infer_instance

section Segments

variable {all left : List Bytes}

theorem foldl_visitSegment (all left : List Bytes) :
    all.foldl visitSegment left = (all.filter (· ≠ [])).foldl climb left := by
  have dot : ascii "." = [0x2e] := by decide
  have dots : ascii ".." = [0x2e, 0x2e] := by decide
  induction all generalizing left with
  | nil => rfl
  | cons segment rest inductionHypothesis =>
      rw [List.foldl_cons, inductionHypothesis, visitSegment, dot, dots]
      by_cases empty : segment = []
      · rw [if_pos (.inl empty), List.filter_cons_of_neg (by simpa using empty)]
      · rw [List.filter_cons_of_pos (by simpa using empty), List.foldl_cons, climb]
        by_cases isDot : segment = [0x2e]
        · rw [if_pos (.inr isDot), if_pos isDot]
        · rw [if_neg (fun either => either.elim empty isDot), if_neg isDot]

/-- The walk keeps segments of its own. -/
theorem mem_foldl_climb {segment : Bytes} (mem : segment ∈ all.foldl climb left) :
    segment ∈ left ∨ segment ∈ all := by
  induction all generalizing left with
  | nil => exact .inl mem
  | cons first rest inductionHypothesis =>
      rcases inductionHypothesis mem with early | late
      · rw [climb] at early
        split at early
        · exact .inl early
        · split at early
          · exact .inl (List.mem_of_mem_dropLast early)
          · rw [List.mem_append, List.mem_singleton] at early
            rcases early with early | rfl
            · exact .inl early
            · exact .inr List.mem_cons_self
      · exact .inr (List.mem_cons_of_mem _ late)

theorem mem_keptNames {segment : Bytes} (mem : segment ∈ keptNames all) :
    segment ∈ all ∧ segment ≠ [] := by
  rcases mem_foldl_climb mem with none | listed
  · cases none
  · rw [List.mem_filter, decide_eq_true_eq] at listed
    exact listed

theorem mem_collapsed {segment : Bytes} (mem : segment ∈ collapsed all) :
    segment = [] ∨ segment ∈ all := by
  rw [collapsed, List.mem_append] at mem
  rcases mem with body | tail
  · split at body
    · exact .inl (List.mem_singleton.mp body)
    · exact .inr (mem_keptNames body).1
  · split at tail
    · exact .inl (List.mem_singleton.mp tail)
    · cases tail

theorem isDot_ne_nil {segment : Bytes} (dot : IsDot segment) : segment ≠ [] := by
  rintro rfl
  cases dot with
  | inl same => cases same
  | inr same => cases same

/-- Where `normalize_path` leaves what the removal of dot segments does. -/
theorem collapsed_iff (some : all ≠ []) : collapsed all = withoutDots all ↔ Collapsible all := by
  cases all using List.reverseRecOn with
  | nil => exact absurd rfl some
  | append_singleton front last =>
      rw [collapsed, withoutDots, Collapsible, ← kept]
      simp only [List.getLast?_concat, Option.some.injEq, Option.any_some, decide_eq_true_eq]
      by_cases empty : last = []
      · have noDot : ¬IsDot last := fun dot => isDot_ne_nil dot empty
        rw [if_pos empty, if_neg noDot, List.append_nil]
        by_cases single : front ++ [last] = [[]]
        · have noSlash : ¬(front ++ [last] ≠ [[]] ∧ last = []) := fun both => both.1 single
          rw [if_neg noSlash, single]
          exact iff_of_true (by decide) (.inl rfl)
        · have slash : front ++ [last] ≠ [[]] ∧ last = [] := ⟨single, empty⟩
          rw [if_pos slash, or_iff_right single, eq_comm]
      · have noSlash : ¬(front ++ [last] ≠ [[]] ∧ last = []) := fun both => empty both.2
        rw [if_neg empty, if_neg noSlash, List.append_nil]
        by_cases dot : IsDot last
        · rw [if_pos dot, if_pos dot]
          by_cases none : keptNames (front ++ [last]) = []
          · rw [if_pos none, iff_true_intro none, and_true]
            constructor
            · intro same
              exact (List.append_eq_singleton_iff.mp same.symm).elim (fun one => one.1)
                (fun two => absurd two.2 (List.cons_ne_nil _ _))
            · intro nothing
              rw [nothing]
              rfl
          · rw [if_neg none]
            refine iff_of_false ?_ (fun both => none both.2)
            intro same
            have mem : ([] : Bytes) ∈ keptNames (front ++ [last]) := by
              rw [same]
              exact List.mem_append_right _ List.mem_cons_self
            exact (mem_keptNames mem).2 rfl
        · rw [if_neg dot, if_neg dot, List.append_nil]
          have named : keptNames (front ++ [last]) ≠ [] := by
            have passes : [last].filter (· ≠ []) = [last] := by simp [empty]
            rw [keptNames, kept, List.filter_append, passes, List.foldl_concat, Lib.climb_name _ dot]
            exact List.append_ne_nil_of_right_ne_nil _ (List.cons_ne_nil _ _)
          rw [if_neg named, eq_comm]

end Segments

/-! ## The text of a path -/

section Text

variable {path : Bytes}

theorem joinSegments_intercalate (first : Bytes) (rest : List Bytes) :
    joinSegments (first :: rest) = ascii "/" ++ [0x2f].intercalate (first :: rest) := by
  have slash : ascii "/" = [0x2f] := by decide
  rw [slash]
  induction rest generalizing first with
  | nil => simp [joinSegments]
  | cons next rest inductionHypothesis =>
      rw [Lib.joinSegments_cons, inductionHypothesis]
      simp

/-- A slash at the end of a path is an empty last segment. -/
theorem getLast?_slash (path : Bytes) :
    (0x2f :: path).getLast? = some 0x2f ↔ (segments path).getLast? = some [] := by
  have plain := Lib.segments_plain path
  rw [← Lib.joinSegments_segments]
  cases split : segments path using List.reverseRecOn with
  | nil => exact absurd split (List.splitOn_ne_nil _ _)
  | append_singleton front last =>
      rw [split] at plain
      have lastPlain := plain last (List.mem_append_right front List.mem_cons_self)
      rw [Lib.joinSegments_append, List.getLast?_concat, Lib.joinSegments_cons, Lib.joinSegments_nil,
        List.append_nil, List.getLast?_append_cons, Option.some.injEq]
      cases last using List.reverseRecOn with
      | nil => exact iff_of_true rfl rfl
      | append_singleton before byte =>
          rw [← List.cons_append, List.getLast?_concat, Option.some.injEq]
          refine iff_of_false ?_ (List.append_ne_nil_of_right_ne_nil _ (List.cons_ne_nil _ _))
          rintro rfl
          exact lastPlain (List.mem_append_right before List.mem_cons_self)

theorem normalizePath_rooted (plain : path.all isPathByte = true) :
    normalizePath (0x2f :: path) = joinSegments (collapsed (segments path)) := by
  have noQuery : ∀ byte ∈ (0x2f : UInt8) :: path, (byte != 0x3f) = true := by
    rw [List.forall_mem_cons]
    refine ⟨rfl, ?_⟩
    intro byte mem
    have chosen := List.all_eq_true.mp plain byte mem
    rw [isPathByte, Bool.and_eq_true] at chosen
    exact chosen.1
  have whole : (0x2f :: path).takeWhile (· != 0x3f) = 0x2f :: path := List.takeWhile_eq_self_iff.mpr noQuery
  have nothing : (0x2f :: path).dropWhile (· != 0x3f) = [] := List.dropWhile_eq_nil_iff.mpr noQuery
  have ends : (1 < (0x2f :: path).length ∧ (0x2f :: path).getLast? = some 0x2f) ↔
      segments path ≠ [[]] ∧ (segments path).getLast? = some [] := by
    rw [getLast?_slash]
    refine and_congr_left fun _ => ?_
    rw [List.length_cons, Nat.lt_add_left_iff_pos, List.length_pos_iff]
    apply not_congr
    constructor
    · rintro rfl
      rfl
    · intro single
      have joined := Lib.joinSegments_segments path
      rw [single] at joined
      exact (List.cons.inj joined).2.symm
  have slash : ascii "/" = joinSegments [[]] := by decide
  have names : ((0x2f :: path).splitOn 0x2f).foldl visitSegment [] = keptNames (segments path) := by
    rw [foldl_visitSegment, keptNames, kept]
    have cut := Lib.segments_slash path
    rw [segments] at cut
    rw [cut, List.filter_cons_of_neg (by decide)]
  rw [normalizePath, whole, nothing, names, List.append_nil, collapsed, Lib.joinSegments_append]
  congr 1
  · cases left : keptNames (segments path) with
    | nil => rw [if_pos rfl, ← slash]; rfl
    | cons first rest => rw [if_neg (List.cons_ne_nil first rest), joinSegments_intercalate]
  · by_cases last : segments path ≠ [[]] ∧ (segments path).getLast? = some []
    · rw [if_pos last, if_pos (ends.mpr last), slash]
    · rw [if_neg last, if_neg (fun both => last (ends.mp both))]
      rfl

/-- A path that was normalized has no other letters. -/
theorem joinSegments_plain (plain : path.all isPathByte = true) :
    (joinSegments (collapsed (segments path))).all isPathByte = true := by
  have within : ∀ segment ∈ segments path, ∀ byte ∈ segment, isPathByte byte = true := by
    intro segment listed byte mem
    have joined : byte ∈ joinSegments (segments path) :=
      List.mem_flatMap_of_mem listed (List.mem_cons_of_mem _ mem)
    rw [Lib.joinSegments_segments, List.mem_cons] at joined
    rcases joined with rfl | inside
    · rfl
    · exact List.all_eq_true.mp plain byte inside
  rw [List.all_eq_true]
  intro byte mem
  obtain ⟨segment, listed, inside⟩ := List.mem_flatMap.mp mem
  rcases List.mem_cons.mp inside with rfl | inside
  · rfl
  · rcases mem_collapsed listed with rfl | own
    · cases inside
    · exact within segment own byte inside

end Text

end VgiRpc.External
