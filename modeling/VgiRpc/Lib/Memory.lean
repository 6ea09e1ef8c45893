import Mathlib.Tactic

/-!
# Flat byte memory

A memory is a total map from addresses to bytes.  Bounds are the business of the
mapping that owns the memory, so the primitives here are unchecked: a
little-endian load, the matching store, a block copy out of a byte list, and
`memmove`.  Each primitive has one lemma for the addresses it writes and one
frame lemma for the addresses it leaves alone.
-/

namespace VgiRpc.Lib

/-- A total map from addresses to bytes. -/
abbrev Memory := Nat → UInt8

namespace Memory

/-- Two memories agree on the `size` bytes starting at `left` and `right`. -/
def Agree (one two : Memory) (left right size : Nat) : Prop :=
  ∀ i, i < size → one (left + i) = two (right + i)

/-- The bytes of a range, in address order. -/
def readBytes (memory : Memory) (address : Nat) : Nat → List UInt8
  | 0 => []
  | size + 1 => memory address :: readBytes memory (address + 1) size

/-- Little-endian value of a list of bytes. -/
def ofBytesLE : List UInt8 → Nat
  | [] => 0
  | byte :: bytes => byte.toNat + 256 * ofBytesLE bytes

/-- The `size` low-order bytes of a value, least significant first. -/
def toBytesLE : Nat → Nat → List UInt8
  | 0, _ => []
  | size + 1, value => UInt8.ofNat value :: toBytesLE size (value / 256)

/-- Little-endian load of `size` bytes. -/
def loadLE (memory : Memory) (address size : Nat) : Nat :=
  ofBytesLE (memory.readBytes address size)

/-- Copy a list of bytes to consecutive addresses. -/
def writeBytes (memory : Memory) (address : Nat) (bytes : List UInt8) : Memory :=
  fun query =>
    if address ≤ query ∧ query < address + bytes.length then
      bytes.getD (query - address) 0
    else
      memory query

/-- Little-endian store of the `size` low-order bytes of `value`. -/
def storeLE (memory : Memory) (address size value : Nat) : Memory :=
  memory.writeBytes address (toBytesLE size value)

/-- Copy `size` bytes between ranges that may overlap. -/
def memmove (memory : Memory) (target source size : Nat) : Memory :=
  fun query =>
    if target ≤ query ∧ query < target + size then
      memory (source + (query - target))
    else
      memory query

@[simp] theorem readBytes_length (memory : Memory) (address size : Nat) :
    (memory.readBytes address size).length = size := by
  induction size generalizing address with
  | zero => rfl
  | succ size ih => simp [readBytes, ih]

@[simp] theorem toBytesLE_length (size value : Nat) :
    (toBytesLE size value).length = size := by
  induction size generalizing value with
  | zero => rfl
  | succ size ih => simp [toBytesLE, ih]

/-- A load cannot tell apart two memories that agree on the loaded range. -/
theorem readBytes_congr {one two : Memory} {left right size : Nat}
    (agree : Agree one two left right size) :
    one.readBytes left size = two.readBytes right size := by
  induction size generalizing left right with
  | zero => rfl
  | succ size ih =>
      have head : one left = two right := by simpa using agree 0 (by omega)
      have tail : Agree one two (left + 1) (right + 1) size := by
        intro i bound
        have shifted := agree (i + 1) (by omega)
        rwa [show left + (i + 1) = left + 1 + i by omega,
          show right + (i + 1) = right + 1 + i by omega] at shifted
      simp only [readBytes, head, ih tail]

theorem loadLE_congr {one two : Memory} {left right size : Nat}
    (agree : Agree one two left right size) :
    one.loadLE left size = two.loadLE right size := by
  rw [loadLE, loadLE, readBytes_congr agree]

theorem ofBytesLE_toBytesLE (size value : Nat) :
    ofBytesLE (toBytesLE size value) = value % 256 ^ size := by
  induction size generalizing value with
  | zero => simp [toBytesLE, ofBytesLE, Nat.mod_one]
  | succ size ih =>
      have split : value % 256 ^ (size + 1) =
          value % 256 + 256 * (value / 256 % 256 ^ size) := by
        rw [pow_succ', Nat.mod_mul]
      simp only [toBytesLE, ofBytesLE, ih, split, UInt8.toNat_ofNat']

/-- The bytes of the value of some bytes are these bytes. -/
theorem toBytesLE_ofBytesLE (bytes : List UInt8) : toBytesLE bytes.length (ofBytesLE bytes) = bytes := by
  induction bytes with
  | nil => rfl
  | cons byte bytes ih =>
      have small : byte.toNat < 256 := byte.toNat_lt
      have low : UInt8.ofNat (byte.toNat + 256 * ofBytesLE bytes) = byte := by
        apply UInt8.toNat_inj.mp
        rw [UInt8.toNat_ofNat']
        omega
      have high : (byte.toNat + 256 * ofBytesLE bytes) / 256 = ofBytesLE bytes := by omega
      rw [List.length_cons, ofBytesLE, toBytesLE, low, high, ih]

theorem ofBytesLE_lt (bytes : List UInt8) :
    ofBytesLE bytes < 256 ^ bytes.length := by
  induction bytes with
  | nil => simp [ofBytesLE]
  | cons byte bytes ih =>
      have small : byte.toNat < 256 := byte.toNat_lt
      simp only [ofBytesLE, List.length_cons, pow_succ']
      omega

/-- Bytes written to a range are read back from it. -/
theorem readBytes_writeBytes (memory : Memory) (address : Nat) (bytes : List UInt8) :
    (memory.writeBytes address bytes).readBytes address bytes.length = bytes := by
  induction bytes generalizing memory address with
  | nil => rfl
  | cons byte bytes ih =>
      have head : memory.writeBytes address (byte :: bytes) address = byte := by
        simp [writeBytes]
      have tail : Agree (memory.writeBytes address (byte :: bytes))
          (memory.writeBytes (address + 1) bytes) (address + 1) (address + 1)
          bytes.length := by
        intro i bound
        have index : address + 1 + i - address = i + 1 := by omega
        have index' : address + 1 + i - (address + 1) = i := by omega
        simp only [writeBytes, List.length_cons, index, index', List.getD_cons_succ]
        rw [if_pos ⟨by omega, by omega⟩, if_pos ⟨by omega, by omega⟩]
      simp only [List.length_cons, readBytes, head, readBytes_congr tail, ih]

/-- A write leaves every disjoint range as it was. -/
theorem agree_writeBytes_of_disjoint (memory : Memory) (address : Nat)
    (bytes : List UInt8) {query size : Nat}
    (disjoint : query + size ≤ address ∨ address + bytes.length ≤ query) :
    Agree (memory.writeBytes address bytes) memory query query size := by
  intro i bound
  simp only [writeBytes]
  rw [if_neg (by omega)]

theorem writeBytes_nil (memory : Memory) (address : Nat) : memory.writeBytes address [] = memory := by
  funext query
  simp only [writeBytes, List.length_nil, Nat.add_zero]
  rw [if_neg (by omega)]

/-- Two writes in a row are one write. -/
theorem writeBytes_append (memory : Memory) (address : Nat) (first second : List UInt8) :
    (memory.writeBytes address first).writeBytes (address + first.length) second =
      memory.writeBytes address (first ++ second) := by
  funext query
  simp only [writeBytes, List.length_append]
  by_cases inSecond : address + first.length ≤ query ∧
      query < address + first.length + second.length
  · have index : query - (address + first.length) = query - address - first.length := by omega
    rw [if_pos inSecond, if_pos (by omega), List.getD_eq_getElem?_getD,
      List.getD_eq_getElem?_getD, List.getElem?_append_right (by omega), index]
  · rw [if_neg inSecond]
    by_cases inFirst : address ≤ query ∧ query < address + first.length
    · rw [if_pos inFirst, if_pos (by omega), List.getD_eq_getElem?_getD,
        List.getD_eq_getElem?_getD, List.getElem?_append_left (by omega)]
    · rw [if_neg inFirst, if_neg (by omega)]

theorem loadLE_storeLE (memory : Memory) (address size value : Nat) :
    (memory.storeLE address size value).loadLE address size = value % 256 ^ size := by
  have read := readBytes_writeBytes memory address (toBytesLE size value)
  rw [toBytesLE_length] at read
  rw [loadLE, storeLE, read, ofBytesLE_toBytesLE]

/-- A store leaves every disjoint load as it was. -/
theorem loadLE_storeLE_of_disjoint (memory : Memory) (address size value : Nat)
    {query width : Nat}
    (disjoint : query + width ≤ address ∨ address + size ≤ query) :
    (memory.storeLE address size value).loadLE query width =
      memory.loadLE query width := by
  apply loadLE_congr
  apply agree_writeBytes_of_disjoint
  simpa using disjoint

/-- A load inside the target of a move reads the matching source bytes. -/
theorem loadLE_memmove (memory : Memory) {target source size query width : Nat}
    (lower : target ≤ query) (upper : query + width ≤ target + size) :
    (memory.memmove target source size).loadLE query width =
      memory.loadLE (source + (query - target)) width := by
  apply loadLE_congr
  intro i bound
  simp only [memmove]
  rw [if_pos ⟨by omega, by omega⟩]
  congr 1
  omega

/-- A move leaves every load disjoint from its target as it was. -/
theorem loadLE_memmove_of_disjoint (memory : Memory)
    {target source size query width : Nat}
    (disjoint : query + width ≤ target ∨ target + size ≤ query) :
    (memory.memmove target source size).loadLE query width =
      memory.loadLE query width := by
  apply loadLE_congr
  intro i bound
  simp only [memmove]
  rw [if_neg (by omega)]

end Memory

end VgiRpc.Lib
