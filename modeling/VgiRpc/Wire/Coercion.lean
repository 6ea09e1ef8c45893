import VgiRpc.Cpp.Text

/-!
# Coercion of exchange input

An inbound batch is reconciled to the declared schema: the columns are put in the order of the
schema, and cast where their types differ.  The pipe and the HTTP transport each have a copy of
the function.  What a column holds and how it is cast is Arrow's.
-/

namespace VgiRpc.Wire

open VgiRpc.Cpp

/-- `arrow::Field`, as far as `Equals` looks at it. -/
structure Field (T : Type) where
  name : Bytes
  type : T
  nullable : Bool
  deriving DecidableEq

abbrev Schema (T : Type) := List (Field T)

def Schema.names {T : Type} (schema : Schema T) : List Bytes := schema.map Field.name

/-- `arrow::Array`. -/
structure Column (T V : Type) where
  type : T
  cells : List (Option V)
  deriving DecidableEq

/-- A column for a field of a batch with so many rows. -/
def Column.Fits {T V : Type} (rows : Nat) (field : Field T) (column : Column T V) : Prop :=
  column.type = field.type ∧ column.cells.length = rows

/-- `arrow::RecordBatch`. -/
structure RecordBatch (T V : Type) where
  schema : Schema T
  rows : Nat
  columns : List (Column T V)
  fits : List.Forall₂ (Column.Fits rows) schema columns

/-- What is Arrow's: the text of a schema, and casts, which keep the nulls where they are. -/
structure ArrowCasts (T V : Type) where
  schemaText : Schema T → Bytes
  cast : Column T V → T → Option (Column T V)
  cast_type : ∀ {column type result}, cast column type = some result → result.type = type
  cast_nulls : ∀ {column type result}, cast column type = some result →
    result.cells.map Option.isNone = column.cells.map Option.isNone

variable {T V : Type}

/-- `GetColumnByName`, which finds nothing under a name of several fields. -/
def RecordBatch.getColumnByName (batch : RecordBatch T V) (name : Bytes) : Option (Column T V) :=
  match (batch.schema.zip batch.columns).filter (·.1.name = name) with
  | [found] => some found.2
  | _ => none

section Columns

variable {arrow : ArrowCasts T V} {batch : RecordBatch T V} {name : Bytes} {column : Column T V}

/-- What is found is a column of the batch, under that name. -/
theorem getColumnByName_some (found : batch.getColumnByName name = some column) :
    ∃ field, (batch.schema.zip batch.columns).filter (·.1.name = name) = [(field, column)] := by
  rw [RecordBatch.getColumnByName] at found
  split at found
  next entry single =>
      obtain rfl := Option.some.inj found
      exact ⟨entry.1, single⟩
  next => cases found

theorem length_of_getColumnByName (found : batch.getColumnByName name = some column) :
    column.cells.length = batch.rows := by
  obtain ⟨field, single⟩ := getColumnByName_some found
  have listed : (field, column) ∈ batch.schema.zip batch.columns := by
    apply List.mem_of_mem_filter
    rw [single]
    exact List.mem_singleton_self _
  exact ((List.forall₂_iff_zip.mp batch.fits).2 listed).2

theorem cast_length {result : Column T V} {type : T} (casts : arrow.cast column type = some result) :
    result.cells.length = column.cells.length := by
  have lengths := congrArg List.length (arrow.cast_nulls casts)
  rwa [List.length_map, List.length_map] at lengths

/-- A cast column has a null if the column has one. -/
theorem none_mem_cast {result : Column T V} {type : T} (casts : arrow.cast column type = some result) :
    none ∈ result.cells ↔ none ∈ column.cells := by
  have nulls : ∀ cells : List (Option V), none ∈ cells ↔ true ∈ cells.map Option.isNone := by
    intro cells
    simp
  rw [nulls, nulls, arrow.cast_nulls casts]

end Columns

section Coercion

variable [DecidableEq T] (arrow : ArrowCasts T V) (batch : RecordBatch T V)

/-- The column of a batch for one field of the target. -/
def coerceColumn (field : Field T) : Option (Column T V) :=
  match batch.getColumnByName field.name with
  | none => none
  | some column => if column.type = field.type then some column else arrow.cast column field.type

/-- The loop over the fields of the target. -/
def coerceColumns : Schema T → Option (List (Column T V))
  | [] => some []
  | field :: target => do
      let column ← coerceColumn arrow batch field
      return column :: (← coerceColumns target)

def mismatch (target : Schema T) : Bytes :=
  ascii "Input schema mismatch: expected " ++ arrow.schemaText target ++ ascii ", got " ++
    arrow.schemaText batch.schema

variable {arrow batch} {column : Column T V} {field : Field T}

theorem coerceColumn_fits (coerced : coerceColumn arrow batch field = some column) :
    column.Fits batch.rows field := by
  rw [coerceColumn] at coerced
  split at coerced
  next => cases coerced
  next source found =>
      have length := length_of_getColumnByName found
      split at coerced
      next same =>
          obtain rfl := Option.some.inj coerced
          exact ⟨same, length⟩
      next => exact ⟨arrow.cast_type coerced, (cast_length coerced).trans length⟩

theorem coerceColumns_eq_some_iff {target : Schema T} {columns : List (Column T V)} :
    coerceColumns arrow batch target = some columns ↔
      List.Forall₂ (fun field column => coerceColumn arrow batch field = some column) target columns := by
  induction target generalizing columns with
  | nil =>
      rw [coerceColumns, Option.some.injEq]
      constructor
      · rintro rfl
        exact .nil
      · intro related
        cases related
        rfl
  | cons field target inductionHypothesis =>
      rw [coerceColumns]
      constructor
      · intro coerced
        obtain ⟨column, first, coerced⟩ := Option.bind_eq_some_iff.mp coerced
        obtain ⟨rest, behind, last⟩ := Option.bind_eq_some_iff.mp coerced
        obtain rfl := Option.some.inj last
        exact .cons first (inductionHypothesis.mp behind)
      · intro related
        cases related with
        | cons first behind =>
            rw [first, inductionHypothesis.mpr behind]
            rfl

theorem coerceColumns_fits {target : Schema T} {columns : List (Column T V)}
    (coerced : coerceColumns arrow batch target = some columns) :
    List.Forall₂ (Column.Fits batch.rows) target columns :=
  (coerceColumns_eq_some_iff.mp coerced).imp fun _ _ => coerceColumn_fits

variable (arrow batch)

/-- Both copies of the function.  `RecordBatch::Make` is given columns that fit. -/
def reconcile (target : Schema T) : Except Bytes (RecordBatch T V) :=
  if batch.schema = target then .ok batch
  else if batch.schema.names.toFinset ≠ target.names.toFinset then .error (mismatch arrow batch target)
  else
    match coerced : coerceColumns arrow batch target with
    | none => .error (mismatch arrow batch target)
    | some columns => .ok ⟨target, batch.rows, columns, coerceColumns_fits coerced⟩

/-- `coerce_input_batch` of the pipe transport. -/
def coerceInputBatch (target : Schema T) : Except Bytes (RecordBatch T V) := reconcile arrow batch target

/-- `coerce_input` of the HTTP transport. -/
def coerceInput (target : Schema T) : Except Bytes (RecordBatch T V) := reconcile arrow batch target

end Coercion

/-! ## What is delivered -/

section Delivery

variable [DecidableEq T] (arrow : ArrowCasts T V) (batch : RecordBatch T V) (target : Schema T)

/-- The batch has the names of the target, each once, and every column is of the type of its field
or can be cast. -/
structure Reconcilable : Prop where
  names : batch.schema.names.Perm target.names
  columns : ∀ field ∈ target, ∃ source, batch.getColumnByName field.name = some source ∧
    (source.type = field.type ∨ (arrow.cast source field.type).isSome = true)

/-- The column of the result for a field. -/
def IsCoerced (field : Field T) (column : Column T V) : Prop :=
  ∃ source, batch.getColumnByName field.name = some source ∧
    (source.type = field.type ∧ column = source ∨
      source.type ≠ field.type ∧ arrow.cast source field.type = some column)

/-- The result has the schema of the target, the rows of the batch, its columns, and no null where
the target declares none. -/
structure Conforms (result : RecordBatch T V) : Prop where
  schema : result.schema = target
  rows : result.rows = batch.rows
  columns : List.Forall₂ (IsCoerced arrow batch) target result.columns
  nonNull : List.Forall₂ (fun field column => field.nullable = false → none ∉ column.cells) target
    result.columns

/-- Both transports answer alike, and what they accept can be reconciled and conforms. -/
def Delivers : Prop :=
  coerceInputBatch arrow batch target = coerceInput arrow batch target ∧
    ∀ result, coerceInputBatch arrow batch target = .ok result →
      Reconcilable arrow batch target ∧ Conforms arrow batch target result

/-- A column of the batch has a null, and its field may have none. -/
def NullBreach : Prop :=
  ∃ field ∈ target, field.nullable = false ∧
    ∃ source, batch.getColumnByName field.name = some source ∧ none ∈ source.cells

variable {arrow batch target} {field : Field T} {column : Column T V}

theorem coerceColumn_eq_some_iff : coerceColumn arrow batch field = some column ↔
    IsCoerced arrow batch field column := by
  rw [coerceColumn]
  constructor
  · intro coerced
    split at coerced
    next => cases coerced
    next source found =>
        refine ⟨source, found, ?_⟩
        split at coerced
        next same => exact .inl ⟨same, (Option.some.inj coerced).symm⟩
        next other => exact .inr ⟨other, coerced⟩
  · rintro ⟨source, found, kind⟩
    rw [found]
    rcases kind with ⟨same, rfl⟩ | ⟨other, casts⟩
    · exact if_pos same
    · exact (if_neg other).trans casts

/-- Under a key of a list with different keys there is one entry. -/
theorem filter_key_eq_singleton {α β : Type} [DecidableEq β] {key : α → β} {entries : List α} {entry : α}
    (distinct : (entries.map key).Nodup) (listed : entry ∈ entries) :
    entries.filter (key · = key entry) = [entry] := by
  induction entries with
  | nil => cases listed
  | cons first rest inductionHypothesis =>
      rw [List.map_cons, List.nodup_cons] at distinct
      rcases List.mem_cons.mp listed with rfl | listed
      · have others : rest.filter (key · = key entry) = [] := by
          rw [List.filter_eq_nil_iff]
          intro other otherListed same
          exact distinct.1 (List.mem_map.mpr ⟨other, otherListed, of_decide_eq_true same⟩)
        rw [List.filter_cons_of_pos (by simp), others]
      · have apart : ¬key first = key entry := by
          intro same
          exact distinct.1 (List.mem_map.mpr ⟨entry, listed, same.symm⟩)
        rw [List.filter_cons_of_neg (by simpa using apart), inductionHypothesis distinct.2 listed]

omit [DecidableEq T] in
/-- Among different names a column is found under the name of its field. -/
theorem getColumnByName_of_mem (distinct : batch.schema.names.Nodup)
    (listed : (field, column) ∈ batch.schema.zip batch.columns) :
    batch.getColumnByName field.name = some column := by
  have fields : (batch.schema.zip batch.columns).map (fun entry => entry.1.name) = batch.schema.names := by
    have first := List.map_fst_zip batch.fits.length_eq.le
    rw [Schema.names]
    conv_rhs => rw [← first, List.map_map]
    rfl
  rw [← fields] at distinct
  have single := filter_key_eq_singleton distinct listed
  dsimp only at single
  rw [RecordBatch.getColumnByName, single]

omit [DecidableEq T] in
/-- What is found under a name is the only column under that name. -/
theorem count_of_getColumnByName {name : Bytes} (found : batch.getColumnByName name = some column) :
    batch.schema.names.count name = 1 := by
  obtain ⟨field, single⟩ := getColumnByName_some found
  have first := List.map_fst_zip batch.fits.length_eq.le
  have counted := congrArg List.length single
  rw [List.length_singleton, ← List.countP_eq_length_filter] at counted
  rw [Schema.names, ← first, List.map_map, List.count_eq_countP, List.countP_map, ← counted]
  apply List.countP_congr
  intro entry _
  simp [beq_iff_eq]

/-- The shortcut for a batch that has the schema already gives what the loop would give. -/
theorem reconcile_eq (distinct : target.names.Nodup) : reconcile arrow batch target =
    if batch.schema.names.toFinset ≠ target.names.toFinset then .error (mismatch arrow batch target)
    else
      match coerced : coerceColumns arrow batch target with
      | none => .error (mismatch arrow batch target)
      | some columns => .ok ⟨target, batch.rows, columns, coerceColumns_fits coerced⟩ := by
  rw [reconcile]
  split
  next same =>
      subst same
      have looped : coerceColumns arrow batch batch.schema = some batch.columns := by
        rw [coerceColumns_eq_some_iff, List.forall₂_iff_zip]
        refine ⟨batch.fits.length_eq, ?_⟩
        intro field column listed
        have fits := (List.forall₂_iff_zip.mp batch.fits).2 listed
        exact coerceColumn_eq_some_iff.mpr
          ⟨column, getColumnByName_of_mem distinct listed, .inl ⟨fits.1, rfl⟩⟩
      rw [if_neg (not_not.mpr rfl)]
      split
      next refused =>
          rw [looped] at refused
          cases refused
      next columns accepted =>
          rw [looped, Option.some.injEq] at accepted
          subst accepted
          rfl
  next => rfl

omit [DecidableEq T] in
theorem reconcilable_of_coerced {columns : List (Column T V)} (distinct : target.names.Nodup)
    (sameNames : batch.schema.names.toFinset = target.names.toFinset)
    (related : List.Forall₂ (IsCoerced arrow batch) target columns) : Reconcilable arrow batch target := by
  have each : ∀ field ∈ target, ∃ source, batch.getColumnByName field.name = some source ∧
      (source.type = field.type ∨ (arrow.cast source field.type).isSome = true) := by
    clear distinct sameNames
    induction related with
    | nil => exact List.forall_mem_nil _
    | cons coerced _ inductionHypothesis =>
        rw [List.forall_mem_cons]
        refine ⟨?_, inductionHypothesis⟩
        obtain ⟨source, found, kind⟩ := coerced
        refine ⟨source, found, ?_⟩
        rcases kind with ⟨same, -⟩ | ⟨-, casts⟩
        · exact .inl same
        · exact .inr (Option.isSome_of_eq_some casts)
  refine ⟨?_, each⟩
  have batchDistinct : batch.schema.names.Nodup := by
    rw [List.nodup_iff_count_le_one]
    intro name
    by_cases listed : name ∈ batch.schema.names
    · rw [← List.mem_toFinset, sameNames, List.mem_toFinset] at listed
      obtain ⟨field, fieldListed, rfl⟩ := List.mem_map.mp listed
      obtain ⟨source, found, -⟩ := each field fieldListed
      exact (count_of_getColumnByName found).le
    · rw [List.count_eq_zero_of_not_mem listed]
      exact Nat.zero_le 1
  exact List.perm_of_nodup_nodup_toFinset_eq batchDistinct distinct sameNames

/-- A batch is accepted exactly if it can be reconciled. -/
theorem reconcile_ok_iff (distinct : target.names.Nodup) {result : RecordBatch T V} :
    reconcile arrow batch target = .ok result ↔ Reconcilable arrow batch target ∧
      result.schema = target ∧ result.rows = batch.rows ∧
        List.Forall₂ (IsCoerced arrow batch) target result.columns := by
  rw [reconcile_eq distinct]
  constructor
  · intro accepted
    split at accepted
    next => cases accepted
    next sameNames =>
        rw [not_not] at sameNames
        split at accepted
        next => cases accepted
        next columns coerced =>
            obtain rfl := Except.ok.inj accepted
            have related := (coerceColumns_eq_some_iff.mp coerced).imp
              fun _ _ => coerceColumn_eq_some_iff.mp
            exact ⟨reconcilable_of_coerced distinct sameNames related, rfl, rfl, related⟩
  · rintro ⟨reconcilable, schema, rows, related⟩
    have sameNames := List.toFinset_eq_of_perm _ _ reconcilable.names
    have looped := coerceColumns_eq_some_iff.mpr
      (related.imp fun _ _ => coerceColumn_eq_some_iff.mpr)
    rw [if_neg (not_not.mpr sameNames)]
    split
    next refused =>
        rw [looped] at refused
        cases refused
    next columns accepted =>
        rw [looped, Option.some.injEq] at accepted
        subst accepted
        cases result
        cases schema
        cases rows
        rfl

/-- A batch that can be reconciled is accepted. -/
theorem exists_coerced (reconcilable : Reconcilable arrow batch target) :
    ∃ columns, List.Forall₂ (IsCoerced arrow batch) target columns := by
  have each := reconcilable.columns
  clear reconcilable
  induction target with
  | nil => exact ⟨[], .nil⟩
  | cons field target inductionHypothesis =>
      rw [List.forall_mem_cons] at each
      obtain ⟨columns, rest⟩ := inductionHypothesis each.2
      obtain ⟨source, found, castable⟩ := each.1
      by_cases same : source.type = field.type
      · exact ⟨source :: columns, .cons ⟨source, found, .inl ⟨same, rfl⟩⟩ rest⟩
      · obtain ⟨result, casts⟩ := Option.isSome_iff_exists.mp (castable.resolve_left same)
        exact ⟨result :: columns, .cons ⟨source, found, .inr ⟨same, casts⟩⟩ rest⟩

omit [DecidableEq T] in
/-- The nulls of the result are those of the batch. -/
theorem nonNull_iff {columns : List (Column T V)}
    (related : List.Forall₂ (IsCoerced arrow batch) target columns) :
    List.Forall₂ (fun field column => field.nullable = false → none ∉ column.cells) target columns ↔
      ¬NullBreach batch target := by
  induction related with
  | nil => exact iff_of_true .nil (by rintro ⟨field, listed, -⟩; cases listed)
  | @cons field column target columns coerced _ inductionHypothesis =>
      obtain ⟨source, found, kind⟩ := coerced
      have nulls : none ∈ column.cells ↔ none ∈ source.cells := by
        rcases kind with ⟨-, rfl⟩ | ⟨-, casts⟩
        · rfl
        · exact none_mem_cast casts
      rw [List.forall₂_cons, inductionHypothesis, nulls]
      constructor
      · rintro ⟨here, later⟩ ⟨other, listed, strict, otherSource, otherFound, null⟩
        rcases List.mem_cons.mp listed with rfl | listed
        · rw [found, Option.some.injEq] at otherFound
          exact here strict (otherFound ▸ null)
        · exact later ⟨other, listed, strict, otherSource, otherFound, null⟩
      · intro sound
        constructor
        · intro strict null
          exact sound ⟨field, List.mem_cons_self, strict, source, found, null⟩
        · rintro ⟨other, listed, rest⟩
          exact sound ⟨other, List.mem_cons_of_mem _ listed, rest⟩

/-- A null that the schema does not declare is delivered. -/
theorem not_delivers (distinct : target.names.Nodup) (reconcilable : Reconcilable arrow batch target)
    (breach : NullBreach batch target) : ¬Delivers arrow batch target := by
  rintro ⟨-, sound⟩
  obtain ⟨columns, related⟩ := exists_coerced reconcilable
  have fits : List.Forall₂ (Column.Fits batch.rows) target columns :=
    coerceColumns_fits (coerceColumns_eq_some_iff.mpr
      (related.imp fun _ _ => coerceColumn_eq_some_iff.mpr))
  have accepted := (@reconcile_ok_iff _ _ _ arrow batch target distinct
    ⟨target, batch.rows, columns, fits⟩).mpr ⟨reconcilable, rfl, rfl, related⟩
  exact (nonNull_iff related).mp (sound _ accepted).2.nonNull breach

/-- What is delivered conforms to the declared schema, unless a column of a batch that can be
reconciled has a null where the schema declares none. -/
theorem delivers_iff (distinct : target.names.Nodup) :
    Delivers arrow batch target ↔ ¬(Reconcilable arrow batch target ∧ NullBreach batch target) := by
  constructor
  · rintro delivers ⟨reconcilable, breach⟩
    exact not_delivers distinct reconcilable breach delivers
  · intro sound
    refine ⟨rfl, ?_⟩
    intro result accepted
    obtain ⟨reconcilable, schema, rows, related⟩ := (reconcile_ok_iff distinct).mp accepted
    refine ⟨reconcilable, schema, rows, related, (nonNull_iff related).mpr ?_⟩
    exact fun breach => sound ⟨reconcilable, breach⟩

end Delivery

/-! ## Samples -/

section Samples

inductive SampleType where
  | int32
  | int64
  deriving DecidableEq

/-- Casts between the two integer types, of values that both can hold. -/
def sampleArrow : ArrowCasts SampleType Int where
  schemaText schema := (schema.map Field.name).flatten
  cast column type :=
    if ∀ cell ∈ column.cells, ∀ value ∈ cell, -2 ^ 31 ≤ value ∧ value < 2 ^ 31 then
      some ⟨type, column.cells⟩
    else none
  cast_type casts := by
    split at casts
    next => rw [← Option.some.inj casts]
    next => cases casts
  cast_nulls casts := by
    split at casts
    next => rw [← Option.some.inj casts]
    next => cases casts

/-- Two columns that no target declares in this order, and one of them narrower. -/
def sampleBatch : RecordBatch SampleType Int where
  schema := [⟨ascii "b", .int32, true⟩, ⟨ascii "a", .int64, true⟩]
  rows := 2
  columns := [⟨.int32, [some 1, some 2]⟩, ⟨.int64, [some 3, none]⟩]
  fits := .cons ⟨rfl, rfl⟩ (.cons ⟨rfl, rfl⟩ .nil)

theorem sampleBatch_delivered :
    Delivers sampleArrow sampleBatch [⟨ascii "a", .int64, true⟩, ⟨ascii "b", .int64, false⟩] := by
  apply (delivers_iff (by decide)).mpr
  rintro ⟨-, field, listed, strict, source, found, null⟩
  rcases List.mem_cons.mp listed with rfl | listed
  · cases strict
  · obtain rfl := List.mem_singleton.mp listed
    have other : sampleBatch.getColumnByName (ascii "b") = some ⟨.int32, [some 1, some 2]⟩ := by decide
    rw [other, Option.some.injEq] at found
    subst found
    exact absurd null (by decide)

/-- The same batch for a target that declares the other column non-nullable. -/
theorem sampleBatch_null : ¬Delivers sampleArrow sampleBatch
    [⟨ascii "a", .int64, false⟩, ⟨ascii "b", .int64, false⟩] := by
  have first : sampleBatch.getColumnByName (ascii "a") = some ⟨.int64, [some 3, none]⟩ := by decide
  have second : sampleBatch.getColumnByName (ascii "b") = some ⟨.int32, [some 1, some 2]⟩ := by decide
  refine not_delivers (by decide) ⟨by decide, ?_⟩ ⟨_, List.mem_cons_self, rfl, _, first, by decide⟩
  rw [List.forall_mem_cons, List.forall_mem_singleton]
  exact ⟨⟨_, first, .inl rfl⟩, ⟨_, second, .inr (by decide)⟩⟩

end Samples

end VgiRpc.Wire
