import VgiRpc.Cpp.JsonText
import VgiRpc.Evidence.Results

/-!
# Bounded JSON

`parse_bounded_json`: the handler that reads a text event by event before it is parsed for good, and
the documents that both this handler and the check of an identity's own JSON let through.
-/

namespace VgiRpc.Identity

open VgiRpc.Cpp VgiRpc.Lib VgiRpc.Evidence

/-! ## The handler -/

/-- What `sax_parse` reports of a well-formed text. -/
inductive SaxEvent where
  | null
  | boolean (value : Bool)
  | numberInteger (value : Int)
  | numberUnsigned (value : Nat)
  | numberFloat (bits : UInt64)
  | string (value : Bytes)
  | startObject
  | key (value : Bytes)
  | endObject
  | startArray
  | endArray
  deriving DecidableEq

/-- `BoundedJsonSax`.  The stack has the innermost container first: the keys that an object has had
so far, or `none` for an array. -/
@[ext]
structure BoundedJsonSax where
  maxDepth : Nat
  maxValues : Nat
  values : Nat
  stack : List (Option (List Bytes))

namespace BoundedJsonSax

/-- `value`. -/
def value (sax : BoundedJsonSax) : Option BoundedJsonSax :=
  if sax.values + 1 ≤ sax.maxValues then some { sax with values := sax.values + 1 } else none

/-- `start_object` and `start_array`. -/
def enter (sax : BoundedJsonSax) (container : Option (List Bytes)) : Option BoundedJsonSax := do
  let sax ← sax.value
  if sax.maxDepth < sax.stack.length + 1 then none
  else some { sax with stack := container :: sax.stack }

/-- `end_object` and `end_array`. -/
def leave (sax : BoundedJsonSax) : Option BoundedJsonSax :=
  match sax.stack with
  | [] => none
  | _ :: outer => some { sax with stack := outer }

/-- `key`. -/
def addKey (sax : BoundedJsonSax) (text : Bytes) : Option BoundedJsonSax :=
  if validUtf8 text = false then none
  else
    match sax.stack with
    | some keys :: outer =>
        if text ∈ keys then none else some { sax with stack := some (text :: keys) :: outer }
    | _ => none

/-- One call of the handler; `none` is an answer of `false`, at which `sax_parse` gives up. -/
def step (sax : BoundedJsonSax) : SaxEvent → Option BoundedJsonSax
  | .null | .boolean _ | .numberInteger _ | .numberUnsigned _ => sax.value
  | .numberFloat bits => if Json.isFinite bits then sax.value else none
  | .string text => if validUtf8 text then sax.value else none
  | .startObject => sax.enter (some [])
  | .key text => sax.addKey text
  | .endObject | .endArray => sax.leave
  | .startArray => sax.enter none

/-- All events of a text. -/
def run (sax : BoundedJsonSax) (events : List SaxEvent) : Option BoundedJsonSax :=
  events.foldlM step sax

@[simp] theorem run_nil (sax : BoundedJsonSax) : sax.run [] = some sax := rfl

@[simp] theorem run_cons (sax : BoundedJsonSax) (event : SaxEvent) (events : List SaxEvent) :
    sax.run (event :: events) = (sax.step event).bind fun next => next.run events := rfl

@[simp] theorem run_append (sax : BoundedJsonSax) (first second : List SaxEvent) :
    sax.run (first ++ second) = (sax.run first).bind fun next => next.run second := by
  rw [run, List.foldlM_append]
  rfl

/-- More values have been counted. -/
def counting (sax : BoundedJsonSax) (count : Nat) : BoundedJsonSax :=
  { sax with values := sax.values + count }

/-- The limits that a handler never exceeds. -/
structure Within (sax : BoundedJsonSax) : Prop where
  counted : sax.values ≤ sax.maxValues
  nested : sax.stack.length ≤ sax.maxDepth

end BoundedJsonSax

/-! ## Documents -/

/-! A document is the JSON of a text as it is written: the members of an object in the order of the
text, a key as often as it stands there. -/

namespace Document

mutual

/-- The events of a document. -/
def events : Json → List SaxEvent
  | .null => [.null]
  | .bool value => [.boolean value]
  | .integer value => [if value < 0 then .numberInteger value else .numberUnsigned value.toNat]
  | .float bits => [.numberFloat bits]
  | .string text => [.string text]
  | .array items => .startArray :: (itemEvents items ++ [.endArray])
  | .object members => .startObject :: (memberEvents members ++ [.endObject])

def itemEvents : List Json → List SaxEvent
  | [] => []
  | item :: items => events item ++ itemEvents items

def memberEvents : List (Bytes × Json) → List SaxEvent
  | [] => []
  | (key, item) :: members => .key key :: (events item ++ memberEvents members)

end

mutual

/-- What `nlohmann::json::parse` builds: of a repeated key the last value stays. -/
def assembled : Json → Json
  | .array items => .array (assembledItems items)
  | .object members => Json.make (assembledMembers members)
  | value => value

def assembledItems : List Json → List Json
  | [] => []
  | item :: items => assembled item :: assembledItems items

def assembledMembers : List (Bytes × Json) → List (Bytes × Json)
  | [] => []
  | (key, item) :: members => (key, assembled item) :: assembledMembers members

end

end Document

/-- `parse_bounded_json`, with the grammar of JSON as the library reads it. -/
def parseBoundedJson (document : Bytes → Option Json) (text : Bytes) (maxBytes : Nat)
    (maxDepth : Nat := 16) (maxValues : Nat := 4096) : Except String Json :=
  if maxBytes < text.length ∨ validUtf8 text = false then .error "invalid or oversized JSON"
  else
    match document text with
    | none => .error "invalid, duplicate-key, or over-complex JSON"
    | some written =>
        match BoundedJsonSax.run ⟨maxDepth, maxValues, 0, []⟩ (Document.events written) with
        | none => .error "invalid, duplicate-key, or over-complex JSON"
        | some _ => .ok (Document.assembled written)

/-! ## What the handler lets through -/

namespace Document

mutual

/-- The containers around the innermost place of a document. -/
def nesting : Json → Nat
  | .array items => itemNesting items + 1
  | .object members => memberNesting members + 1
  | _ => 0

def itemNesting : List Json → Nat
  | [] => 0
  | item :: items => max (nesting item) (itemNesting items)

def memberNesting : List (Bytes × Json) → Nat
  | [] => 0
  | (_, item) :: members => max (nesting item) (memberNesting members)

end

mutual

/-- The values of a document, containers included. -/
def valueCount : Json → Nat
  | .array items => itemCount items + 1
  | .object members => memberCount members + 1
  | _ => 1

def itemCount : List Json → Nat
  | [] => 0
  | item :: items => valueCount item + itemCount items

def memberCount : List (Bytes × Json) → Nat
  | [] => 0
  | (_, item) :: members => valueCount item + memberCount members

end

mutual

/-- Numbers are finite, strings and keys are UTF-8, and no object has a key twice. -/
def Sound : Json → Prop
  | .float bits => Json.isFinite bits = true
  | .string text => validUtf8 text = true
  | .array items => SoundItems items
  | .object members => SoundMembers members ∧ (members.map Prod.fst).Nodup
  | .null | .bool _ | .integer _ => True

def SoundItems : List Json → Prop
  | [] => True
  | item :: items => Sound item ∧ SoundItems items

def SoundMembers : List (Bytes × Json) → Prop
  | [] => True
  | (key, item) :: members => validUtf8 key = true ∧ Sound item ∧ SoundMembers members

end

/-- A document within the limits. -/
structure Bounded (maxDepth maxValues : Nat) (document : Json) : Prop where
  sound : Sound document
  counted : valueCount document ≤ maxValues
  nested : nesting document ≤ maxDepth

end Document

namespace BoundedJsonSax

variable {sax next : BoundedJsonSax}

theorem value_eq_some_iff :
    sax.value = some next ↔ sax.values + 1 ≤ sax.maxValues ∧ next = sax.counting 1 := by
  rw [value]
  split
  next room => simp [counting, room, eq_comm]
  next full => simp [full]

theorem addKey_eq_some_iff {text : Bytes} {keys : List Bytes} {outer : List (Option (List Bytes))}
    (inside : sax.stack = some keys :: outer) :
    sax.addKey text = some next ↔
      validUtf8 text = true ∧ text ∉ keys ∧
        next = { sax with stack := some (text :: keys) :: outer } := by
  rw [addKey, inside]
  cases validUtf8 text with
  | false => simp
  | true =>
      by_cases known : text ∈ keys
      · simp [known]
      · simp [known, eq_comm]

theorem Within.counting (within : sax.Within) {count : Nat}
    (room : sax.values + count ≤ sax.maxValues) : (sax.counting count).Within :=
  ⟨room, within.nested⟩

/-- An object that is read has one key more. -/
theorem Within.naming (within : sax.Within) {text : Bytes} {keys : List Bytes}
    {outer : List (Option (List Bytes))} (inside : sax.stack = some keys :: outer) :
    ({ sax with stack := some (text :: keys) :: outer } : BoundedJsonSax).Within := by
  have nested := within.nested
  rw [inside] at nested
  exact ⟨within.counted, nested⟩

/-- A container has been opened. -/
def holding (sax : BoundedJsonSax) (container : Option (List Bytes)) : BoundedJsonSax :=
  { sax.counting 1 with stack := container :: sax.stack }

theorem Within.holding {container : Option (List Bytes)} (room : sax.values + 1 ≤ sax.maxValues)
    (shallow : sax.stack.length + 1 ≤ sax.maxDepth) : (sax.holding container).Within :=
  ⟨room, shallow⟩

theorem enter_eq_some_iff {container : Option (List Bytes)} :
    sax.enter container = some next ↔
      sax.values + 1 ≤ sax.maxValues ∧ sax.stack.length + 1 ≤ sax.maxDepth ∧
        next = sax.holding container := by
  simp only [enter, Option.bind_eq_bind, Option.bind_eq_some_iff, value_eq_some_iff]
  constructor
  · rintro ⟨counted, ⟨room, rfl⟩, entered⟩
    split at entered
    next => cases entered
    next shallow => exact ⟨room, Nat.le_of_not_lt shallow, (Option.some.inj entered).symm⟩
  · rintro ⟨room, shallow, rfl⟩
    exact ⟨_, ⟨room, rfl⟩, if_neg (Nat.not_lt.mpr shallow)⟩

/-- A container is one value more, at one level more, than what is inside. -/
theorem run_container (left : Option (List Bytes)) {opening closing : SaxEvent}
    {inner : List SaxEvent} {container : Option (List Bytes)} {allowed : Prop} {count depth : Nat}
    (opens : sax.step opening = sax.enter container)
    (closes : ∀ inside : BoundedJsonSax, inside.step closing = inside.leave)
    (inside : sax.values + 1 ≤ sax.maxValues → sax.stack.length + 1 ≤ sax.maxDepth →
      ∀ walked, (sax.holding container).run inner = some walked ↔
        allowed ∧ sax.values + 1 + count ≤ sax.maxValues ∧
          sax.stack.length + 1 + depth ≤ sax.maxDepth ∧
          walked = { sax.counting (1 + count) with stack := left :: sax.stack }) :
    sax.run (opening :: (inner ++ [closing])) = some next ↔
      allowed ∧ sax.values + (count + 1) ≤ sax.maxValues ∧
        sax.stack.length + (depth + 1) ≤ sax.maxDepth ∧ next = sax.counting (count + 1) := by
  simp only [run_cons, run_append, run_nil, Option.bind_fun_some, Option.bind_eq_some_iff, opens,
    closes, enter_eq_some_iff]
  constructor
  · rintro ⟨entered, ⟨room, shallow, rfl⟩, walked, read, left⟩
    obtain ⟨holds, counted, nested, rfl⟩ := (inside room shallow walked).mp read
    refine ⟨holds, by omega, by omega, ?_⟩
    rw [Nat.add_comm count]
    exact (Option.some.inj left).symm
  · rintro ⟨holds, counted, nested, rfl⟩
    have room : sax.values + 1 ≤ sax.maxValues := by omega
    have shallow : sax.stack.length + 1 ≤ sax.maxDepth := by omega
    refine ⟨_, ⟨room, shallow, rfl⟩, _,
      (inside room shallow _).mpr ⟨holds, by omega, by omega, rfl⟩, ?_⟩
    rw [Nat.add_comm count]
    rfl

/-- A scalar is one event, which counts as one value. -/
theorem run_scalar (within : sax.Within) {event : SaxEvent} {allowed : Prop}
    (steps : sax.step event = some next ↔ allowed ∧ sax.value = some next) :
    sax.run [event] = some next ↔
      allowed ∧ sax.values + 1 ≤ sax.maxValues ∧ sax.stack.length + 0 ≤ sax.maxDepth ∧
        next = sax.counting 1 := by
  simp only [run_cons, run_nil, Option.bind_fun_some, steps, value_eq_some_iff, Nat.add_zero,
    within.nested, true_and]

end BoundedJsonSax

namespace Document

open BoundedJsonSax

mutual

theorem run_events (value : Json) {sax next : BoundedJsonSax} (within : sax.Within) :
    sax.run (events value) = some next ↔
      Sound value ∧ sax.values + valueCount value ≤ sax.maxValues ∧
        sax.stack.length + nesting value ≤ sax.maxDepth ∧ next = sax.counting (valueCount value) := by
  cases value with
  | null => exact run_scalar within (by rw [Sound, true_and, step])
  | bool value => exact run_scalar within (by rw [Sound, true_and, step])
  | integer value =>
      rw [events]
      split
      all_goals exact run_scalar within (by rw [Sound, true_and, step])
  | float bits =>
      refine run_scalar within ?_
      rw [step, Sound]
      split
      next finite => simp [finite]
      next other => simp [other]
  | string text =>
      refine run_scalar within ?_
      rw [step, Sound]
      split
      next valid => simp [valid]
      next other => simp [other]
  | array items =>
      refine run_container none rfl (fun _ => rfl) fun room shallow walked => ?_
      rw [run_itemEvents items (.holding room shallow)]
      simp only [Sound, holding, counting, List.length_cons, Nat.add_assoc]
  | object members =>
      refine run_container (some ((members.map Prod.fst).reverse ++ [])) rfl (fun _ => rfl)
        fun room shallow walked => ?_
      rw [run_memberEvents members (.holding room shallow) rfl]
      simp only [Sound, holding, counting, List.length_cons, Nat.add_assoc, List.not_mem_nil,
        not_false_eq_true, implies_true, true_and, and_assoc]

theorem run_itemEvents (items : List Json) {sax next : BoundedJsonSax} (within : sax.Within) :
    sax.run (itemEvents items) = some next ↔
      SoundItems items ∧ sax.values + itemCount items ≤ sax.maxValues ∧
        sax.stack.length + itemNesting items ≤ sax.maxDepth ∧
        next = sax.counting (itemCount items) := by
  cases items with
  | nil =>
      simp only [itemEvents, run_nil, SoundItems, itemCount, itemNesting, true_and, Nat.add_zero,
        within.counted, within.nested, Option.some_inj]
      exact eq_comm
  | cons item items =>
      simp only [itemEvents, run_append, Option.bind_eq_some_iff, SoundItems, itemCount, itemNesting]
      constructor
      · rintro ⟨middle, first, rest⟩
        obtain ⟨sound, counted, nested, rfl⟩ := (run_events item within).mp first
        obtain ⟨soundRest, countedRest, nestedRest, rfl⟩ :=
          (run_itemEvents items (within.counting counted)).mp rest
        simp only [counting] at countedRest nestedRest ⊢
        exact ⟨⟨sound, soundRest⟩, by omega, by omega, by congr 1; omega⟩
      · rintro ⟨⟨sound, soundRest⟩, counted, nested, rfl⟩
        have here : sax.values + valueCount item ≤ sax.maxValues := by omega
        refine ⟨_, (run_events item within).mpr ⟨sound, here, by omega, rfl⟩,
          (run_itemEvents items (within.counting here)).mpr ⟨soundRest, ?_, ?_, ?_⟩⟩
        · simp only [counting]
          omega
        · simp only [counting]
          omega
        · simp only [counting]
          congr 1
          omega

theorem run_memberEvents (members : List (Bytes × Json)) {sax next : BoundedJsonSax}
    {keys : List Bytes} {outer : List (Option (List Bytes))} (within : sax.Within)
    (inside : sax.stack = some keys :: outer) :
    sax.run (memberEvents members) = some next ↔
      SoundMembers members ∧ (members.map Prod.fst).Nodup ∧
        (∀ key ∈ members.map Prod.fst, key ∉ keys) ∧
        sax.values + memberCount members ≤ sax.maxValues ∧
        sax.stack.length + memberNesting members ≤ sax.maxDepth ∧
        next =
          { sax.counting (memberCount members) with
            stack := some ((members.map Prod.fst).reverse ++ keys) :: outer } := by
  cases members with
  | nil =>
      simp only [memberEvents, run_nil, SoundMembers, memberCount, memberNesting, true_and,
        Nat.add_zero, within.counted, within.nested, Option.some_inj, List.map_nil, List.nodup_nil,
        List.reverse_nil, List.nil_append, List.not_mem_nil, false_imp_iff, implies_true, counting,
        ← inside]
      exact eq_comm
  | cons member members =>
      obtain ⟨key, item⟩ := member
      simp only [memberEvents, run_cons, run_append, Option.bind_eq_some_iff, SoundMembers,
        memberCount, memberNesting, List.map_cons, List.nodup_cons, List.forall_mem_cons, step,
        addKey_eq_some_iff inside]
      constructor
      · rintro ⟨named, ⟨valid, fresh, rfl⟩, middle, first, rest⟩
        obtain ⟨sound, counted, nested, rfl⟩ := (run_events item (within.naming inside)).mp first
        obtain ⟨soundRest, distinct, freshRest, countedRest, nestedRest, rfl⟩ :=
          (run_memberEvents members ((within.naming inside).counting counted) rfl).mp rest
        simp only [counting, inside, List.length_cons] at counted nested countedRest nestedRest ⊢
        refine ⟨⟨valid, sound, soundRest⟩, ⟨?_, distinct⟩, ⟨fresh, ?_⟩, by omega, by omega, ?_⟩
        · exact fun again => freshRest key again List.mem_cons_self
        · exact fun other listed known => freshRest other listed (List.mem_cons_of_mem key known)
        · rw [List.reverse_cons, List.append_assoc, List.singleton_append, Nat.add_assoc]
      · rintro ⟨⟨valid, sound, soundRest⟩, ⟨once, distinct⟩, ⟨fresh, freshRest⟩, counted, nested, rfl⟩
        simp only [inside, List.length_cons] at nested
        have here : sax.values + valueCount item ≤ sax.maxValues := by omega
        refine ⟨_, ⟨valid, fresh, rfl⟩, _,
          (run_events item (within.naming inside)).mpr ⟨sound, here, ?_, rfl⟩,
          (run_memberEvents members ((within.naming inside).counting here) rfl).mpr
            ⟨soundRest, distinct, ?_, ?_, ?_, ?_⟩⟩
        · simp only [List.length_cons]
          omega
        · intro other listed known
          rcases List.mem_cons.mp known with rfl | known
          · exact once listed
          · exact freshRest other listed known
        · simp only [counting]
          omega
        · simp only [counting, List.length_cons]
          omega
        · simp only [counting, List.reverse_cons, List.append_assoc, List.singleton_append,
            Nat.add_assoc]

end

end Document

/-- A text is parsed if and only if it is within the byte limit, is UTF-8 and is the text of a
document within the limits on nesting and on the number of values, without a key that an object has
twice. -/
theorem parseBoundedJson_ok_iff {document : Bytes → Option Json} {text : Bytes} {value : Json}
    {maxBytes maxDepth maxValues : Nat} :
    parseBoundedJson document text maxBytes maxDepth maxValues = .ok value ↔
      text.length ≤ maxBytes ∧ validUtf8 text = true ∧
        ∃ written, document text = some written ∧ Document.Bounded maxDepth maxValues written ∧
          value = Document.assembled written := by
  have handled (written : Json) :
      (∃ next, BoundedJsonSax.run ⟨maxDepth, maxValues, 0, []⟩ (Document.events written) = some next) ↔
        Document.Bounded maxDepth maxValues written := by
    have within : BoundedJsonSax.Within ⟨maxDepth, maxValues, 0, []⟩ := ⟨Nat.zero_le _, Nat.zero_le _⟩
    simp only [Document.run_events written within, Nat.zero_add, List.length_nil]
    constructor
    · rintro ⟨next, sound, counted, nested, rfl⟩
      exact ⟨sound, counted, nested⟩
    · intro bounded
      exact ⟨_, bounded.sound, bounded.counted, bounded.nested, rfl⟩
  rw [parseBoundedJson]
  split
  next refused =>
    simp only [reduceCtorEq, false_iff]
    rintro ⟨small, valid, -⟩
    rcases refused with big | invalid
    · omega
    · rw [valid] at invalid
      cases invalid
  next accepted =>
    rw [not_or, Bool.not_eq_false, Nat.not_lt] at accepted
    simp only [accepted.1, accepted.2, true_and]
    cases document text with
    | none => simp
    | some written =>
        simp only [Option.some_inj, exists_eq_left', ← handled]
        cases BoundedJsonSax.run ⟨maxDepth, maxValues, 0, []⟩ (Document.events written) with
        | none => simp
        | some next => simp [eq_comm]

end VgiRpc.Identity
