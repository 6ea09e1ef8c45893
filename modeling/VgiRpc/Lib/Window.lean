import Mathlib.Data.List.DropRight
import Mathlib.Tactic

/-!
# Sliding windows over a timestamped log

A log of keys with arrival times, read through a window: an entry is live at a
time as long as it is at most `width` old.  Reading later only ever loses
entries, and on a log in arrival order the expired entries form a prefix, so a
queue that drops its expired front holds exactly the live entries.
-/

namespace VgiRpc.Lib

variable {κ : Type} {width now later : Int} {log : List (κ × Int)}

/-- The entries of a log that are at most `width` old. -/
def live (width now : Int) (log : List (κ × Int)) : List (κ × Int) :=
  log.filter fun entry => decide (now - entry.2 ≤ width)

/-- The log is in arrival order. -/
def Chronological (log : List (κ × Int)) : Prop :=
  log.Pairwise fun first second => first.2 ≤ second.2

theorem mem_live {entry : κ × Int} :
    entry ∈ live width now log ↔ entry ∈ log ∧ now - entry.2 ≤ width := by
  simp [live]

/-- A later reading of the live entries is a later reading of the log. -/
theorem live_live (le : now ≤ later) :
    live width later (live width now log) = live width later log := by
  rw [live, live, List.filter_filter]
  apply List.filter_congr
  intro entry _
  simp only [Bool.and_eq_left_iff_imp, decide_eq_true_eq]
  omega

theorem Chronological.live (ordered : Chronological log) :
    Chronological (live width now log) :=
  List.Pairwise.filter _ ordered

/-- Dropping the expired front of a log in arrival order leaves the live
entries. -/
theorem Chronological.dropWhile_eq_live (ordered : Chronological log) :
    log.dropWhile (fun entry => !decide (now - entry.2 ≤ width)) =
      Lib.live width now log := by
  induction log with
  | nil => rfl
  | cons entry log ih =>
      rcases List.pairwise_cons.mp ordered with ⟨older, tail⟩
      by_cases fresh : now - entry.2 ≤ width
      · have everyFresh : ∀ other ∈ log, now - other.2 ≤ width := by
          intro other member
          have order := older other member
          omega
        have kept : Lib.live width now log = log := by
          apply List.filter_eq_self.mpr
          intro other member
          exact decide_eq_true (everyFresh other member)
        rw [List.dropWhile_cons_of_neg (by simp [fresh]), Lib.live,
          List.filter_cons_of_pos (by simp [fresh])]
        exact congrArg (entry :: ·) kept.symm
      · rw [List.dropWhile_cons_of_pos (by simp [fresh]), Lib.live,
          List.filter_cons_of_neg (by simp [fresh])]
        exact ih tail

/-- Appending an arrival that is not older than anything in the log keeps it in
arrival order. -/
theorem Chronological.append (ordered : Chronological log) {key : κ}
    (newest : ∀ entry ∈ log, entry.2 ≤ now) : Chronological (log ++ [(key, now)]) := by
  refine List.pairwise_append.mpr ⟨ordered, List.pairwise_singleton _ _, ?_⟩
  intro entry member last lastMember
  rw [List.mem_singleton] at lastMember
  rw [lastMember]
  exact newest entry member

theorem live_append_now (key : κ) (nonneg : 0 ≤ width) :
    live width now (log ++ [(key, now)]) = live width now log ++ [(key, now)] := by
  simp [live, List.filter_append, nonneg]

/-! ## The newest entries -/

theorem rtake_cons {α : Type} {count : Nat} {list : List α} (room : count ≤ list.length) (head : α) :
    (head :: list).rtake count = list.rtake count := by
  rw [List.rtake, List.rtake, List.length_cons, Nat.succ_sub room, List.drop_succ_cons]

theorem rtake_of_length_le {α : Type} {count : Nat} {list : List α} (small : list.length ≤ count) :
    list.rtake count = list := by
  rw [List.rtake, Nat.sub_eq_zero_of_le small, List.drop_zero]

theorem rtake_rtake {α : Type} {count larger : Nat} {list : List α} (le : count ≤ larger) :
    (list.rtake larger).rtake count = list.rtake count := by
  simp only [List.rtake, List.drop_drop, List.length_drop]
  congr 1
  omega

/-- The newest entries are those with few enough behind them. -/
theorem mem_rtake_iff {α : Type} {count : Nat} {list : List α} {entry : α} :
    entry ∈ list.rtake count ↔
      ∃ before after, list = before ++ entry :: after ∧ after.length < count := by
  constructor
  · intro member
    obtain ⟨front, after, split⟩ := List.append_of_mem member
    refine ⟨list.take (list.length - count) ++ front, after, ?_, ?_⟩
    · rw [List.append_assoc, ← split, List.rtake, List.take_append_drop]
    · have size := congrArg List.length split
      rw [List.rtake, List.length_drop, List.length_append, List.length_cons] at size
      omega
  · rintro ⟨before, after, rfl, few⟩
    rw [List.rtake, List.drop_append_of_le_length (by rw [List.length_append, List.length_cons]; omega)]
    exact List.mem_append_right _ List.mem_cons_self

theorem Chronological.rtake (ordered : Chronological log) (count : Nat) :
    Chronological (log.rtake count) :=
  List.Pairwise.sublist (List.drop_sublist _ _) ordered

/-- On a log in arrival order the newest of the live entries are the live ones of the
newest. -/
theorem Chronological.rtake_live (ordered : Chronological log) (count : Nat) :
    (Lib.live width now log).rtake count = Lib.live width now (log.rtake count) := by
  induction log with
  | nil => simp [Lib.live, List.rtake]
  | cons entry log ih =>
      rcases List.pairwise_cons.mp ordered with ⟨older, tail⟩
      by_cases fresh : now - entry.2 ≤ width
      · have every : ∀ other ∈ entry :: log, now - other.2 ≤ width := by
          refine List.forall_mem_cons.mpr ⟨fresh, fun other member => ?_⟩
          have order := older other member
          omega
        have kept {entries : List (κ × Int)} (inside : ∀ other ∈ entries, other ∈ entry :: log) :
            Lib.live width now entries = entries :=
          List.filter_eq_self.mpr fun other member => decide_eq_true (every other (inside other member))
        have whole := kept fun _ member => member
        have newest := @kept ((entry :: log).rtake count) fun _ member => List.mem_of_mem_drop member
        rw [whole, newest]
      · have gone : Lib.live width now (entry :: log) = Lib.live width now log := by
          rw [Lib.live, Lib.live, List.filter_cons_of_neg (by simp [fresh])]
        rcases Nat.lt_or_ge log.length count with large | small
        · have fewer : (Lib.live width now log).length ≤ count :=
            (List.length_filter_le _ _).trans large.le
          have whole : (entry :: log).rtake count = entry :: log := rtake_of_length_le large
          rw [whole, gone, rtake_of_length_le fewer]
        · rw [gone, rtake_cons small, ih tail]

/-- In a list sorted by a measure, a strictly smaller measure comes first. -/
theorem rel_of_measure_lt {α : Type} {relation : α → α → Prop} {measure : α → Int}
    {list : List α} (related : list.Pairwise relation)
    (sorted : list.Pairwise fun first second => measure first ≤ measure second)
    {first second : α} (firstMem : first ∈ list) (secondMem : second ∈ list)
    (less : measure first < measure second) : relation first second := by
  rcases List.getElem_of_mem firstMem with ⟨i, iBound, rfl⟩
  rcases List.getElem_of_mem secondMem with ⟨j, jBound, rfl⟩
  rcases Nat.lt_trichotomy i j with before | rfl | after
  · exact List.pairwise_iff_getElem.mp related i j iBound jBound before
  · omega
  · have order := List.pairwise_iff_getElem.mp sorted j i jBound iBound after
    omega

end VgiRpc.Lib
