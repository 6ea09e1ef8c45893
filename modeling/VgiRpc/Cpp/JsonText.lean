import VgiRpc.Cpp.Double
import VgiRpc.Lib.OrderedMap

/-!
# Printing and parsing JSON

Objects are built and searched by key.  `dump` and `parse` of the library are parameters;
what it documents of a printed value is stated here.
-/

namespace VgiRpc.Cpp

open VgiRpc.Lib

namespace Json

/-! ## Objects -/

/-- An object from a braced list of members. -/
def make (members : List (Bytes × Json)) : Json := .object (assignAll [] members)

/-- `find`. -/
def find (value : Json) (key : Bytes) : Option Json :=
  match value with
  | .object members => members.lookup key
  | _ => none

/-- `is_string`, with the text. -/
def text? : Json → Option Bytes
  | .string text => some text
  | _ => none

/-- `is_number`, with `get<double>`. -/
def number? : Json → Option UInt64
  | .integer value => some (Double.ofInt value)
  | .float bits => some bits
  | _ => none

@[simp] theorem find_object (members : List (Bytes × Json)) (key : Bytes) :
    find (.object members) key = members.lookup key := rfl

/-! ## What printing keeps -/

mutual

/-- What parsing gives back: a number that is not finite is printed as `null`. -/
def printed : Json → Json
  | .float bits => if isFinite bits then .float bits else .null
  | .array items => .array (printedItems items)
  | .object members => .object (printedMembers members)
  | value => value

def printedItems : List Json → List Json
  | [] => []
  | item :: items => printed item :: printedItems items

def printedMembers : List (Bytes × Json) → List (Bytes × Json)
  | [] => []
  | (key, item) :: members => (key, printed item) :: printedMembers members

end

mutual

/-- The strings and keys of a value. -/
def strings : Json → List Bytes
  | .string text => [text]
  | .array items => stringsItems items
  | .object members => stringsMembers members
  | _ => []

def stringsItems : List Json → List Bytes
  | [] => []
  | item :: items => strings item ++ stringsItems items

def stringsMembers : List (Bytes × Json) → List Bytes
  | [] => []
  | (key, item) :: members => key :: strings item ++ stringsMembers members

end

theorem printedItems_eq (items : List Json) : printedItems items = items.map printed := by
  induction items with
  | nil => rfl
  | cons item items ih => rw [printedItems, ih, List.map_cons]

@[simp] theorem printed_array (items : List Json) :
    printed (.array items) = .array (items.map printed) := by
  rw [printed, printedItems_eq]

theorem printedMembers_lookup (members : List (Bytes × Json)) (key : Bytes) :
    (printedMembers members).lookup key = (members.lookup key).map printed := by
  induction members with
  | nil => rfl
  | cons member members ih =>
      rw [printedMembers, lookup_cons_eq, lookup_cons_eq, ih]
      split <;> rfl

@[simp] theorem find_printed (value : Json) (key : Bytes) :
    value.printed.find key = (value.find key).map printed := by
  cases value with
  | object members => exact printedMembers_lookup members key
  | float bits =>
      rw [printed]
      split <;> rfl
  | _ => rfl

theorem isObject_printed (value : Json) : value.printed.isObject = value.isObject := by
  cases value with
  | float bits =>
      rw [printed]
      split <;> rfl
  | _ => rfl

theorem stringsMembers_eq (members : List (Bytes × Json)) :
    stringsMembers members = members.flatMap fun member => member.1 :: strings member.2 := by
  induction members with
  | nil => rfl
  | cons member members ih => rw [stringsMembers, ih, List.flatMap_cons]

/-- The strings of a built object are those of its members. -/
theorem strings_make {members : List (Bytes × Json)} {text : Bytes}
    (listed : text ∈ strings (make members)) :
    ∃ member ∈ members, text = member.1 ∨ text ∈ strings member.2 := by
  have known : ∀ entry ∈ assignAll [] members, entry ∈ members := by
    intro entry assigned
    exact (mem_assignAll assigned).resolve_left (List.not_mem_nil)
  rw [make, strings, stringsMembers_eq, List.mem_flatMap] at listed
  rcases listed with ⟨member, assigned, inside⟩
  exact ⟨member, known member assigned, List.mem_cons.mp inside⟩

end Json

/-- `dump` with strict and with replacing error handling, and `parse`.  `dump` throws on a
string that is not UTF-8, `parse` on text that is not JSON. -/
structure JsonText where
  dump : Json → Option Bytes
  dumpReplacing : Json → Bytes
  parse : Bytes → Option Json

end VgiRpc.Cpp
