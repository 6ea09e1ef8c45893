import VgiRpc.Shm.Confined

/-!
# Segments that a peer wrote

The table of an attached segment holds anything, and the peer may write it again
between any two calls.  What a call does to a table is exact here: the first gap that
is wide enough decides where `allocate` hands out memory, and the length of the table
whether `free_alloc` leaves the header.
-/

namespace VgiRpc.Shm

open VgiRpc.Cpp VgiRpc.Lib

namespace Segment

/-! ## What makes a table harmless -/

/-- Where the table says that entry `index` may start: behind the one before it, in 64 bits. -/
def endBefore (segment : Segment) : Nat → Nat
  | 0 => kShmHeaderSize
  | index + 1 => ((segment.entry index).offset + (segment.entry index).length) % 2 ^ 64

/-- Where the gap in front of entry `index` ends. -/
def gapEnd (segment : Segment) (index : Nat) : Nat :=
  if index < segment.count then (segment.entry index).offset else segment.size

/-- The table has a gap of `size` bytes in front of entry `index`. -/
def HasRoom (segment : Segment) (size index : Nat) : Prop :=
  segment.endBefore index + size ≤ segment.gapEnd index

/-- The first gap that is wide enough is data; a table that is searched or closed up fits the
header. -/
def Harmless (segment : Segment) : Call → Prop
  | .allocate size => 0 < size → segment.count < kShmMaxAllocs → ∀ index ≤ segment.count,
      segment.HasRoom (toU64 size) index →
      (∀ earlier < index, ¬segment.HasRoom (toU64 size) earlier) →
        kShmHeaderSize ≤ segment.endBefore index ∧
          segment.endBefore index + toU64 size ≤ segment.size
  | .freeAlloc offset => segment.count ≤ kShmMaxAllocs ∨ segment.count = kShmMaxAllocs + 1 ∧
      ∀ index < kShmMaxAllocs, (segment.entry index).offset ≠ toU64 offset
  | .read _ _ => True

/-! ## The header -/

section Header

variable {segment : Segment}

theorem header_setNumAllocs (mapped : kShmHeaderSize < segment.size) (bytes : Memory) (count : Nat) :
    setNumAllocs { segment.header with bytes := bytes } count =
      .ok { segment.header with bytes := bytes.storeLE 16 4 count } := by
  apply if_pos
  change 16 + 4 ≤ segment.header.size
  rw [header_size mapped]
  decide

/-- The offset of an entry is in the header, for one entry more than the table holds. -/
theorem header_loadOffset (mapped : kShmHeaderSize < segment.size) {index : Nat} :
    segment.header.loadU64 (entryAddress index) =
      if index ≤ kShmMaxAllocs then .ok (segment.entry index).offset
      else .error ⟨entryAddress index, 8⟩ := by
  have inside : entryAddress index + 8 ≤ segment.header.size ↔ index ≤ kShmMaxAllocs := by
    rw [header_size mapped]
    simp only [entryAddress, kShmMaxAllocs, kShmHeaderSize, kShmHeaderStructSize, kShmAllocStructSize]
    omega
  by_cases within : index ≤ kShmMaxAllocs
  · rw [if_pos within]
    exact loadU64_eq (inside.mpr within)
  · rw [if_neg within]
    exact if_neg (mt inside.mp within)

theorem header_loadLength (mapped : kShmHeaderSize < segment.size) {index : Nat}
    (within : index < kShmMaxAllocs) :
    segment.header.loadU64 (entryAddress index + 8) = .ok (segment.entry index).length := by
  apply loadU64_eq
  have last := entryAddress_le (Nat.succ_le_of_lt within)
  rw [Nat.succ_eq_add_one, entryAddress_succ] at last
  rw [header_size mapped]
  exact last

theorem header_insertAt (mapped : kShmHeaderSize < segment.size) {index : Nat} (size offset : Nat)
    (room : segment.count < kShmMaxAllocs) (bound : index ≤ segment.count) :
    ∃ changed, segment.header.insertAt segment.count size index offset = .ok changed := by
  have last := entryAddress_le (Nat.succ_le_of_lt room)
  have span := entryAddress_add (index + 1) (segment.count - index)
  rw [Nat.add_right_comm, Nat.add_sub_cancel' bound] at span
  rw [Nat.succ_eq_add_one] at last
  have next := entryAddress_succ index
  have whole := header_size mapped
  rw [insertAt, kShmAllocStructSize, memmove_eq (by omega) (by omega)]
  simp only [bind, Except.bind]
  rw [storeU64_eq _ (by change _ ≤ segment.header.size; omega)]
  simp only
  rw [storeU64_eq _ (by change _ ≤ segment.header.size; omega)]
  exact ⟨_, header_setNumAllocs mapped _ _⟩

end Header

/-! ## The scan of any table -/

/-- What the scan of a table that holds anything says about the gap it stopped at. -/
def Stops (segment : Segment) (size : Nat) : Gap → Prop
  | .before position offset => position < segment.count ∧ offset = segment.endBefore position ∧
      segment.HasRoom size position ∧ ∀ earlier < position, ¬segment.HasRoom size earlier
  | .last offset => offset = segment.endBefore segment.count ∧
      ∀ earlier < segment.count, ¬segment.HasRoom size earlier

theorem header_scanGap {segment : Segment} (mapped : kShmHeaderSize < segment.size) (size : Nat)
    (few : segment.count ≤ kShmMaxAllocs) {remaining index : Nat}
    (whole : index + remaining = segment.count)
    (passed : ∀ earlier < index, ¬segment.HasRoom size earlier) :
    ∃ gap, segment.header.scanGap size remaining index (segment.endBefore index) = .ok gap ∧
      segment.Stops size gap := by
  induction remaining generalizing index with
  | zero =>
      rw [Nat.add_zero] at whole
      exact ⟨_, rfl, congrArg segment.endBefore whole, whole ▸ passed⟩
  | succ remaining inductionHypothesis =>
      have within : index < segment.count := by omega
      have room : segment.HasRoom size index ↔ (segment.entry index).offset ≥ segment.endBefore index ∧
          (segment.entry index).offset - segment.endBefore index ≥ size := by
        rw [HasRoom, gapEnd, if_pos within]
        omega
      rw [scanGap, header_loadOffset mapped, if_pos (within.le.trans few)]
      simp only [bind, Except.bind]
      by_cases wide : segment.HasRoom size index
      · rw [if_pos (room.mp wide)]
        exact ⟨_, rfl, within, rfl, wide, passed⟩
      · rw [if_neg (mt room.mpr wide), header_loadLength mapped (within.trans_le few)]
        apply inductionHypothesis (by omega)
        intro earlier before
        rcases Nat.lt_succ_iff_lt_or_eq.mp before with before | rfl
        · exact passed earlier before
        · exact wide

/-! ## Each call -/

section Calls

variable {segment : Segment}

theorem toU64_of_nonneg {value : Int64} (nonneg : 0 ≤ value.toInt) :
    (toU64 value : Int) = value.toInt := by
  rw [toU64, Int64.toNat_toUInt64_of_le (Int64.le_iff_toInt_le.mpr nonneg), ← Int64.toNat_toInt]
  exact Int.toNat_of_nonneg nonneg

theorem inside_allocated {offset : Nat} {size : Int64} (mappable : segment.size < 2 ^ 63)
    (positive : 0 < size) (wraps : offset < 2 ^ 64) :
    segment.Inside (toI64 offset, size) ↔
      kShmHeaderSize ≤ offset ∧ offset + toU64 size ≤ segment.size := by
  have sizeNonneg : 0 ≤ size.toInt := Int64.le_iff_toInt_le.mp (Int64.le_of_lt positive)
  have sizeCast := toU64_of_nonneg sizeNonneg
  constructor
  · rintro ⟨lower, -, upper⟩
    have offsetCast := toU64_of_nonneg ((Int.natCast_nonneg kShmHeaderSize).trans lower)
    rw [toU64_toI64 wraps] at offsetCast
    dsimp only at lower upper offsetCast
    constructor
    · omega
    · omega
  · rintro ⟨lower, upper⟩
    have offsetCast := toInt_toI64 (show offset < 2 ^ 63 by omega)
    refine ⟨?_, sizeNonneg, ?_⟩
    · rw [offsetCast]
      exact Int.ofNat_le.mpr lower
    · dsimp only
      omega

theorem endBefore_lt (segment : Segment) (index : Nat) : segment.endBefore index < 2 ^ 64 := by
  cases index with
  | zero => exact (by decide : kShmHeaderSize < 2 ^ 64)
  | succ index => exact Nat.mod_lt _ (by decide)

/-- A region that `allocate` hands out starts at the first gap that is wide enough. -/
theorem allocateConfined_spec (mapped : kShmHeaderSize < segment.size) {size : Int64}
    (positive : 0 < size) (room : segment.count < kShmMaxAllocs) :
    (∃ index ≤ segment.count, segment.HasRoom (toU64 size) index ∧
      (∀ earlier < index, ¬segment.HasRoom (toU64 size) earlier) ∧
      ∃ changed, segment.allocateConfined size =
        .ok (segment.withHeader changed, some (toI64 (segment.endBefore index)))) ∨
    (∀ index ≤ segment.count, ¬segment.HasRoom (toU64 size) index) ∧
      segment.allocateConfined size = .ok (segment, none) := by
  obtain ⟨gap, scans, stops⟩ := header_scanGap mapped (toU64 size) room.le (Nat.zero_add _) nofun
  rw [endBefore] at scans
  rw [allocateConfined, if_neg (Int64.not_le.mpr positive), header_numAllocs mapped]
  simp only [bind, Except.bind]
  rw [if_neg (not_le.mpr room), scans]
  cases gap with
  | before index offset =>
      obtain ⟨within, rfl, wide, first⟩ := stops
      obtain ⟨changed, inserts⟩ := header_insertAt mapped (toU64 size) (segment.endBefore index)
        room within.le
      left
      refine ⟨index, within.le, wide, first, changed, ?_⟩
      simp only [inserts]
      rfl
  | last offset =>
      obtain ⟨rfl, none⟩ := stops
      have wide : segment.HasRoom (toU64 size) segment.count ↔
          segment.size > segment.endBefore segment.count ∧
            segment.size - segment.endBefore segment.count ≥ toU64 size := by
        have some := toU64_pos positive
        rw [HasRoom, gapEnd, if_neg (lt_irrefl segment.count)]
        omega
      by_cases fits : segment.HasRoom (toU64 size) segment.count
      · obtain ⟨changed, inserts⟩ := header_insertAt mapped (toU64 size)
          (segment.endBefore segment.count) room le_rfl
        left
        refine ⟨segment.count, le_rfl, fits, none, changed, ?_⟩
        simp only [if_pos (wide.mp fits), inserts]
        rfl
      · right
        constructor
        · intro index bound
          rcases Nat.lt_or_eq_of_le bound with before | rfl
          · exact none index before
          · exact fits
        · simp only [if_neg (mt wide.mpr fits)]
          rfl

theorem allocate_confined_iff (mapped : kShmHeaderSize < segment.size)
    (mappable : segment.size < 2 ^ 63) (size : Int64) :
    segment.Confined (.allocate size) ↔ segment.Harmless (.allocate size) := by
  by_cases nonpositive : size ≤ 0
  · have refuses : segment.perform (.allocate size) = .ok (segment, none) := by
      simp only [perform, allocateConfined, if_pos nonpositive]
      rfl
    apply iff_of_true
    · exact ⟨segment, none, refuses, by rintro _ ⟨⟩⟩
    · intro positive
      exact absurd nonpositive (Int64.not_le.mpr positive)
  have positive : 0 < size := Int64.not_le.mp nonpositive
  by_cases full : segment.count ≥ kShmMaxAllocs
  · have refuses : segment.perform (.allocate size) = .ok (segment, none) := by
      simp only [perform, allocateConfined, if_neg nonpositive, header_numAllocs mapped, bind,
        Except.bind, if_pos full]
      rfl
    apply iff_of_true
    · exact ⟨segment, none, refuses, by rintro _ ⟨⟩⟩
    · intro _ room
      exact absurd full (not_le.mpr room)
  have room : segment.count < kShmMaxAllocs := not_le.mp full
  rcases allocateConfined_spec mapped positive room with
    ⟨index, bound, wide, first, changed, allocates⟩ | ⟨narrow, allocates⟩
  · have performs : segment.perform (.allocate size) =
        .ok (segment.withHeader changed, some (toI64 (segment.endBefore index), size)) := by
      rw [perform, allocates]
      rfl
    have inside := inside_allocated mappable positive (segment.endBefore_lt index)
    constructor
    · rintro ⟨next, region, performed, given⟩ _ _ other otherBound otherWide otherFirst
      have same : other = index := by
        rcases Nat.lt_trichotomy other index with before | rfl | after
        · exact absurd otherWide (first other before)
        · rfl
        · exact absurd wide (otherFirst index after)
      rw [performs] at performed
      obtain ⟨-, rfl⟩ := Prod.mk.inj (Except.ok.inj performed)
      rw [same]
      exact inside.mp (given _ rfl)
    · intro harmless
      refine ⟨_, _, performs, ?_⟩
      rintro _ ⟨⟩
      exact inside.mpr (harmless positive room index bound wide first)
  · apply iff_of_true
    · refine ⟨segment, none, ?_, by rintro _ ⟨⟩⟩
      rw [perform, allocates]
      rfl
    · intro _ _ index bound wide
      exact absurd wide (narrow index bound)

/-- The search stops at the first entry at the offset. -/
theorem header_findEntry_first (mapped : kShmHeaderSize < segment.size) {offset position : Nat}
    (found : (segment.entry position).offset = offset) (within : position ≤ kShmMaxAllocs)
    {remaining index : Nat} (lower : index ≤ position) (upper : position < index + remaining)
    (first : ∀ earlier < position, (segment.entry earlier).offset ≠ offset) :
    segment.header.findEntry offset remaining index = .ok (some position) := by
  induction remaining generalizing index with
  | zero => omega
  | succ remaining inductionHypothesis =>
      rw [findEntry, header_loadOffset mapped, if_pos (lower.trans within)]
      simp only [bind, Except.bind]
      rcases Nat.eq_or_lt_of_le lower with rfl | before
      · rw [if_pos found]
      · rw [if_neg (first index before)]
        exact inductionHypothesis before (by omega)

/-- Without one it ends with the table, where the table fits. -/
theorem header_findEntry_none (mapped : kShmHeaderSize < segment.size) {offset remaining index : Nat}
    (fits : index + remaining ≤ kShmMaxAllocs + 1)
    (none : ∀ position < index + remaining, (segment.entry position).offset ≠ offset) :
    segment.header.findEntry offset remaining index = .ok .none := by
  induction remaining generalizing index with
  | zero => rfl
  | succ remaining inductionHypothesis =>
      rw [findEntry, header_loadOffset mapped, if_pos (by omega)]
      simp only [bind, Except.bind]
      rw [if_neg (none index (by omega))]
      apply inductionHypothesis
      · omega
      · intro position bound
        exact none position (by omega)

/-- Without one in the header, a longer table leads the search out of it. -/
theorem header_findEntry_fault (mapped : kShmHeaderSize < segment.size)
    {offset remaining index : Nat} (long : kShmMaxAllocs + 1 < index + remaining)
    (start : index ≤ kShmMaxAllocs + 1)
    (none : ∀ position ≤ kShmMaxAllocs, (segment.entry position).offset ≠ offset) :
    ∃ fault, segment.header.findEntry offset remaining index = .error fault := by
  induction remaining generalizing index with
  | zero => omega
  | succ remaining inductionHypothesis =>
      rw [findEntry, header_loadOffset mapped]
      by_cases within : index ≤ kShmMaxAllocs
      · rw [if_pos within]
        simp only [bind, Except.bind]
        rw [if_neg (none index within)]
        exact inductionHypothesis (by omega) (by omega)
      · rw [if_neg within]
        exact ⟨_, rfl⟩

theorem header_closeHole (mapped : kShmHeaderSize < segment.size) {index : Nat}
    (bound : index < segment.count) :
    if segment.count ≤ kShmMaxAllocs ∨ index + 1 = segment.count then
      ∃ bytes, segment.header.closeHole (entryAddress index) (entryAddress (index + 1))
        ((segment.count - index - 1) * kShmAllocStructSize) = .ok { segment.header with bytes := bytes }
    else
      ∃ fault, segment.header.closeHole (entryAddress index) (entryAddress (index + 1))
        ((segment.count - index - 1) * kShmAllocStructSize) = .error fault := by
  have span := entryAddress_add (index + 1) (segment.count - index - 1)
  rw [show index + 1 + (segment.count - index - 1) = segment.count by omega] at span
  have next := entryAddress_succ index
  have whole := header_size mapped
  have width : kShmAllocStructSize = 16 := rfl
  have fits : entryAddress segment.count ≤ kShmHeaderSize ↔ segment.count ≤ kShmMaxAllocs := by
    simp only [entryAddress, kShmMaxAllocs, kShmHeaderSize, kShmHeaderStructSize, kShmAllocStructSize]
    omega
  rw [width]
  by_cases last : index + 1 = segment.count
  · rw [if_pos (.inr last)]
    exact ⟨segment.bytes, if_pos (by omega)⟩
  · by_cases few : segment.count ≤ kShmMaxAllocs
    · have inside := fits.mpr few
      rw [if_pos (.inl few), closeHole, if_neg (by omega), memmove_eq (by omega) (by omega)]
      exact ⟨_, rfl⟩
    · have outside := mt fits.mp few
      have spills : ¬(segment.count ≤ kShmMaxAllocs ∨ index + 1 = segment.count) := by
        rw [not_or]
        exact ⟨few, last⟩
      rw [if_neg spills, closeHole, if_neg (by omega), memmove, if_neg (by omega)]
      exact ⟨_, rfl⟩

theorem first_or_none (holds : Nat → Prop) (bound : Nat) :
    (∃ index < bound, holds index ∧ ∀ earlier < index, ¬holds earlier) ∨
      ∀ index < bound, ¬holds index := by
  classical
  by_cases some : ∃ index, index < bound ∧ holds index
  · left
    refine ⟨Nat.find some, (Nat.find_spec some).1, (Nat.find_spec some).2, ?_⟩
    intro earlier before holding
    exact Nat.find_min some before ⟨before.trans (Nat.find_spec some).1, holding⟩
  · right
    intro index below holding
    exact some ⟨index, below, holding⟩

theorem free_confined_iff (mapped : kShmHeaderSize < segment.size) (offset : Int64) :
    segment.Confined (.freeAlloc offset) ↔ segment.Harmless (.freeAlloc offset) := by
  have confined : segment.Confined (.freeAlloc offset) ↔
      ∃ next, segment.freeConfined offset = .ok next := by
    constructor
    · rintro ⟨next, region, performed, -⟩
      rw [perform] at performed
      cases frees : segment.freeConfined offset with
      | error fault =>
          rw [frees] at performed
          cases performed
      | ok freed => exact ⟨freed, rfl⟩
    · rintro ⟨next, frees⟩
      refine ⟨next, none, ?_, nofun⟩
      rw [perform, frees]
      rfl
  rw [confined, freeConfined, header_numAllocs mapped]
  simp only [bind, Except.bind]
  rcases first_or_none (fun index => (segment.entry index).offset = toU64 offset)
    (min segment.count (kShmMaxAllocs + 1)) with ⟨index, bound, found, first⟩ | none
  · have inTable : index < segment.count := bound.trans_le (Nat.min_le_left _ _)
    have inHeader : index ≤ kShmMaxAllocs :=
      Nat.le_of_lt_succ (bound.trans_le (Nat.min_le_right _ _))
    rw [header_findEntry_first mapped found inHeader (Nat.zero_le index) (by omega) first]
    simp only
    have closes := header_closeHole mapped inTable
    have harmless : segment.Harmless (.freeAlloc offset) ↔
        segment.count ≤ kShmMaxAllocs ∨ index + 1 = segment.count := by
      constructor
      · rintro (few | ⟨one, elsewhere⟩)
        · exact .inl few
        · right
          rcases Nat.lt_or_eq_of_le inHeader with before | rfl
          · exact absurd found (elsewhere index before)
          · exact one.symm
      · rintro (few | last)
        · exact .inl few
        · rcases Nat.lt_or_eq_of_le inHeader with before | rfl
          · exact .inl (by omega)
          · exact .inr ⟨last.symm, first⟩
    rw [harmless]
    split at closes
    · next fits =>
        obtain ⟨bytes, closed⟩ := closes
        apply iff_of_true _ fits
        rw [closed]
        simp only [header_setNumAllocs mapped]
        exact ⟨_, rfl⟩
    · next spills =>
        obtain ⟨fault, closed⟩ := closes
        apply iff_of_false _ spills
        rw [closed]
        rintro ⟨next, performed⟩
        cases performed
  · by_cases few : segment.count ≤ kShmMaxAllocs + 1
    · rw [header_findEntry_none mapped (by omega) (by rw [Nat.zero_add]; simpa [few] using none)]
      apply iff_of_true ⟨_, rfl⟩
      rcases Nat.lt_or_eq_of_le few with fewer | one
      · exact .inl (Nat.le_of_lt_succ fewer)
      · refine .inr ⟨one, ?_⟩
        intro index below
        exact none index (by omega)
    · have long : kShmMaxAllocs + 1 < 0 + segment.count := by omega
      obtain ⟨fault, faults⟩ := header_findEntry_fault mapped long (Nat.zero_le _)
        fun position within => none position (by omega)
      rw [faults]
      apply iff_of_false
      · rintro ⟨next, performed⟩
        cases performed
      · rintro (fewer | ⟨one, -⟩)
        · omega
        · omega

/-- Whatever the arguments, `read` stays inside. -/
theorem read_confined (offset length : Int64) : segment.Confined (.read offset length) := by
  rw [Confined, perform, readConfined]
  split
  · exact ⟨segment, none, rfl, by rintro _ ⟨⟩⟩
  · next accepted =>
      rw [not_or, not_or] at accepted
      obtain ⟨above, nonneg, within⟩ := accepted
      have lower := Int64.le_iff_toInt_le.mp (Int64.not_lt.mp above)
      rw [toInt_toI64 (by decide)] at lower
      have lengthNonneg : 0 ≤ length.toInt := Int64.le_iff_toInt_le.mp (Int64.not_lt.mp nonneg)
      have offsetCast := toU64_of_nonneg ((Int.natCast_nonneg kShmHeaderSize).trans lower)
      have lengthCast := toU64_of_nonneg lengthNonneg
      have offsetBound := offset.toInt_lt
      have lengthBound := length.toInt_lt
      have fits : toU64 offset + toU64 length ≤ segment.size := by
        rw [Nat.mod_eq_of_lt (by omega)] at within
        exact not_lt.mp within
      rw [copyOut, if_pos fits]
      refine ⟨segment, some (offset, length), rfl, ?_⟩
      rintro _ ⟨⟩
      exact ⟨lower, lengthNonneg, by dsimp only; omega⟩

theorem confined_iff (mapped : kShmHeaderSize < segment.size) (mappable : segment.size < 2 ^ 63)
    (call : Call) : segment.Confined call ↔ segment.Harmless call := by
  cases call with
  | allocate size => exact allocate_confined_iff mapped mappable size
  | freeAlloc offset => exact free_confined_iff mapped offset
  | read offset length => exact iff_of_true (read_confined offset length) trivial

end Calls

/-! ## Runs -/

/-- What the peer does to the memory, and the call after it. -/
structure Step where
  rewrite : Memory → Memory
  call : Call

/-- The segment as a call finds it. -/
def rewritten (segment : Segment) (rewrite : Memory → Memory) : Segment :=
  { segment with bytes := rewrite segment.bytes }

/-- Every call of a run is confined. -/
def RunConfined (segment : Segment) : List Step → Prop
  | [] => True
  | step :: steps => (segment.rewritten step.rewrite).Confined step.call ∧
      ∀ next region, (segment.rewritten step.rewrite).perform step.call = .ok (next, region) →
        next.RunConfined steps

/-- Every call of a run finds a harmless table. -/
def RunHarmless (segment : Segment) : List Step → Prop
  | [] => True
  | step :: steps => (segment.rewritten step.rewrite).Harmless step.call ∧
      ∀ next region, (segment.rewritten step.rewrite).perform step.call = .ok (next, region) →
        next.RunHarmless steps

theorem run_iff {segment : Segment} (mapped : kShmHeaderSize < segment.size)
    (mappable : segment.size < 2 ^ 63) (steps : List Step) :
    segment.RunConfined steps ↔ segment.RunHarmless steps := by
  induction steps generalizing segment with
  | nil => rfl
  | cons step steps inductionHypothesis =>
      rw [RunConfined, RunHarmless]
      refine and_congr (@confined_iff (segment.rewritten step.rewrite) mapped mappable step.call) ?_
      apply forall_congr'
      intro next
      apply forall_congr'
      intro region
      apply imp_congr_right
      intro performed
      have same : next.size = (segment.rewritten step.rewrite).size := perform_size performed
      apply inductionHypothesis
      · rw [same]
        exact mapped
      · rw [same]
        exact mappable

theorem attach_some {mapping : Mapping} {name : Bytes} {segment : Segment}
    (attached : attach mapping name = some segment) :
    kShmHeaderSize < segment.size ∧ segment.size < 2 ^ 63 := by
  rw [attach] at attached
  split at attached
  · cases attached
  · next large =>
      split at attached
      · cases attached
      · obtain rfl := Option.some.inj attached
        exact ⟨not_le.mp large, mapping.mappable⟩

/-- On a segment that was attached, whatever the peer writes into it before each call, the calls
stay inside and hand out data if and only if every one of them finds a harmless table. -/
theorem attached_confined_iff {mapping : Mapping} {name : Bytes} {segment : Segment}
    (attached : attach mapping name = some segment) (steps : List Step) :
    segment.RunConfined steps ↔ segment.RunHarmless steps := by
  obtain ⟨mapped, mappable⟩ := attach_some attached
  exact run_iff mapped mappable steps

/-! ## Headers that are accepted -/

/-- A mapping of 68 KiB that starts with `stored` and is empty otherwise. -/
def mappingOf (stored : Bytes) : Mapping where
  bytes := fun address => stored.getD address 0
  size := 69632
  mappable := by decide

/-- A header of such a mapping, with `count` allocations and this table. -/
def headerOf (count : Nat) (table : List Region) : Bytes :=
  kMagic ++ Memory.toBytesLE 4 kShmVersion ++ Memory.toBytesLE 8 4096 ++ Memory.toBytesLE 4 count ++
    Memory.toBytesLE 4 0 ++
    table.flatMap fun region => Memory.toBytesLE 8 region.offset ++ Memory.toBytesLE 8 region.length

/-- A table of one is closed up. -/
theorem single_confined : ∃ segment, attach (mappingOf (headerOf 1 [⟨65536, 64⟩])) [] = some segment ∧
    segment.RunConfined [⟨id, .freeAlloc 65536⟩] := by
  refine ⟨⟨_, 69632, []⟩, rfl, ?_⟩
  refine (@attached_confined_iff (mappingOf (headerOf 1 [⟨65536, 64⟩])) [] _ rfl
    [⟨id, .freeAlloc 65536⟩]).mpr ⟨.inl (by decide), ?_⟩
  intro next region performed
  trivial

/-- A count behind the table leads `free_alloc` out of the header, and an allocation whose end
wraps makes `allocate` hand out the header itself. -/
theorem accepted_header_escapes :
    (∃ segment, attach (mappingOf (headerOf 4096 [])) [] = some segment ∧
      ¬segment.RunConfined [⟨id, .freeAlloc 1⟩]) ∧
    ∃ segment, attach (mappingOf (headerOf 2 [⟨65536, 2 ^ 64 - 65536 + 8⟩, ⟨65536, 0⟩])) [] =
        some segment ∧ ¬segment.RunConfined [⟨id, .allocate 8⟩] := by
  constructor
  · refine ⟨⟨_, 69632, []⟩, rfl, ?_⟩
    intro run
    rcases (free_confined_iff (by decide) 1).mp run.1 with few | ⟨one, -⟩
    · exact absurd few (by decide)
    · exact absurd one (by decide)
  · refine ⟨⟨_, 69632, []⟩, rfl, ?_⟩
    intro run
    have harmless := (allocate_confined_iff (by decide) (by decide) 8).mp run.1
    have first : ∀ earlier < 1, ¬HasRoom ⟨(mappingOf (headerOf 2
        [⟨65536, 2 ^ 64 - 65536 + 8⟩, ⟨65536, 0⟩])).bytes, 69632, []⟩ 8 earlier := by
      intro earlier before
      rw [Nat.lt_one_iff.mp before, HasRoom, gapEnd, if_pos (by decide)]
      decide
    have wide : HasRoom ⟨(mappingOf (headerOf 2
        [⟨65536, 2 ^ 64 - 65536 + 8⟩, ⟨65536, 0⟩])).bytes, 69632, []⟩ 8 1 := by
      rw [HasRoom, gapEnd, if_pos (by decide)]
      decide
    have bound := (harmless (by decide) (by decide) 1 (by decide) wide first).1
    exact absurd bound (by decide)

end Segment

end VgiRpc.Shm
