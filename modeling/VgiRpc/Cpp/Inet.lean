import VgiRpc.Crypto.Encoding
import VgiRpc.Lib.Separators

/-!
# Addresses as text

`inet_ntop` writes an IPv4 address as four decimal numbers and an IPv6 address as eight groups of
hexadecimal digits, with the longest run of zero groups left out; `inet_pton` reads them back.
-/

namespace VgiRpc.Cpp

open VgiRpc.Crypto VgiRpc.Lib

/-! ## Writing -/

/-- Numbers between dots. -/
def dotted (octets : Bytes) : Bytes := [0x2e].intercalate (octets.map fun octet => decimal octet.toNat)

/-- Groups between colons. -/
def colons (groups : List Bytes) : Bytes := [0x3a].intercalate groups

/-- The character of a hexadecimal digit. -/
def hexByte (value : Nat) : UInt8 :=
  if value < 10 then digitByte value else UInt8.ofNat (0x61 + (value - 10))

/-- `%x` of a word of sixteen bits. -/
def hexWord (word : Nat) : Bytes :=
  if word < 0x10 then [hexByte word]
  else if word < 0x100 then [hexByte (word / 0x10), hexByte (word % 0x10)]
  else if word < 0x1000 then
    [hexByte (word / 0x100), hexByte (word / 0x10 % 0x10), hexByte (word % 0x10)]
  else [hexByte (word / 0x1000 % 0x10), hexByte (word / 0x100 % 0x10), hexByte (word / 0x10 % 0x10),
    hexByte (word % 0x10)]

/-- The words of an address in network order. -/
def wordsOf : Bytes → List Nat
  | high :: low :: rest => (0x100 * high.toNat + low.toNat) :: wordsOf rest
  | _ => []

/-- The bytes of words in network order. -/
def bytesOf (words : List Nat) : Bytes :=
  words.flatMap fun word => [UInt8.ofNat (word / 0x100), UInt8.ofNat (word % 0x100)]

/-- How many zero words there are from an index on. -/
def runAt (words : List Nat) (index : Nat) : Nat :=
  ((words.drop index).takeWhile (· == 0)).length

/-- The longest run of zero words, the first of several: where it begins and its length. -/
def bestRun (words : List Nat) : Nat × Nat :=
  (List.range words.length).foldl
    (fun best index => if best.2 < runAt words index then (index, runAt words index) else best)
    (0, 0)

/-- The groups behind the run: the last two words of a mapped or compatible address are written as
an IPv4 address. -/
def groupsBehind (words : List Nat) (base len : Nat) : List Bytes :=
  if base = 0 ∧ (len = 6 ∨ len = 5 ∧ words[5]? = some 0xffff) then
    ((words.drop len).take (6 - len)).map hexWord ++ [dotted (bytesOf (words.drop 6))]
  else
    (words.drop (base + len)).map hexWord

/-- `inet_ntop` for IPv6. -/
def inetNtop6 (words : List Nat) : Bytes :=
  if (bestRun words).2 < 2 then
    colons (words.map hexWord)
  else
    colons ((words.take (bestRun words).1).map hexWord) ++ 0x3a :: 0x3a ::
      colons (groupsBehind words (bestRun words).1 (bestRun words).2)

/-! ## Reading -/

/-- A number of an IPv4 address: at most 255, without leading zeros. -/
def readOctet (token : Bytes) : Option UInt8 :=
  if token ≠ [] ∧ token.all isDigit ∧ (token.length = 1 ∨ token.head? ≠ some 0x30) ∧
      digitsValue token ≤ 255 then
    some (UInt8.ofNat (digitsValue token))
  else
    none

/-- `inet_pton` for IPv4. -/
def inetPton4 (text : Bytes) : Option Bytes :=
  let tokens := text.splitOn 0x2e
  if tokens.length = 4 then tokens.mapM readOctet else none

/-- A group of one to four hexadecimal digits. -/
def readGroup (token : Bytes) : Option Nat :=
  if 1 ≤ token.length ∧ token.length ≤ 4 then
    (token.mapM hexNibble).map fun digits => digits.foldl (fun value digit => 0x10 * value + digit) 0
  else
    none

/-- Groups, the last of which may be an IPv4 address. -/
def readGroups : List Bytes → Option (List Nat)
  | [] => some []
  | [token] =>
      match readGroup token with
      | some word => some [word]
      | none => (inetPton4 token).map wordsOf
  | token :: next :: rest => do
      let word ← readGroup token
      let words ← readGroups (next :: rest)
      some (word :: words)

/-- The parts before and behind the first `::`. -/
def splitGap : Bytes → Option (Bytes × Bytes)
  | [] => none
  | [_] => none
  | first :: second :: rest =>
      if first = 0x3a ∧ second = 0x3a then some ([], rest)
      else (splitGap (second :: rest)).map fun parts => (first :: parts.1, parts.2)

/-- The groups of a part; an empty part has none. -/
def groupsOf (part : Bytes) : List Bytes := if part = [] then [] else part.splitOn 0x3a

/-- `inet_pton` for IPv6. -/
def inetPton6 (text : Bytes) : Option (List Nat) :=
  match splitGap text with
  | none => do
      let words ← readGroups (groupsOf text)
      if words.length = 8 then some words else none
  | some (left, right) => do
      let front ← (groupsOf left).mapM readGroup
      let back ← readGroups (groupsOf right)
      if front.length + back.length < 8 then
        some (front ++ List.replicate (8 - (front.length + back.length)) 0 ++ back)
      else
        none

example : inetNtop6 [0, 0, 0, 0, 0, 0xffff, 0xc000, 0x0201] = ascii "::ffff:192.0.2.1" := by decide
example : inetPton6 (ascii "2001:db8::1") = some [0x2001, 0xdb8, 0, 0, 0, 0, 0, 1] := by decide

end VgiRpc.Cpp
