import VgiRpc.Cpp.Text

/-!
# Text encodings of binary values

The envelope encodings of `crypto.cpp`.  Digests, MACs and the AEAD are
libsodium's and stay parameters of the modules that use them.
-/

namespace VgiRpc.Crypto

open Cpp

def kB64Url : Bytes :=
  ascii "ABCDEFGHIJKLMNOPQRSTUVWXYZabcdefghijklmnopqrstuvwxyz0123456789-_"

/-- Alphabet character for the six bits of `group` above `shift`. -/
def b64urlChar (group shift : Nat) : UInt8 := kB64Url.getD (group >>> shift &&& 0x3f) 0

/-- Unpadded base64url, three bytes at a time. -/
def base64urlEncode : Bytes → Bytes
  | first :: second :: third :: rest =>
      let group := first.toNat <<< 16 ||| second.toNat <<< 8 ||| third.toNat
      b64urlChar group 18 :: b64urlChar group 12 :: b64urlChar group 6 ::
        b64urlChar group 0 :: base64urlEncode rest
  | [first] =>
      let group := first.toNat <<< 16
      [b64urlChar group 18, b64urlChar group 12]
  | [first, second] =>
      let group := first.toNat <<< 16 ||| second.toNat <<< 8
      [b64urlChar group 18, b64urlChar group 12, b64urlChar group 6]
  | [] => []

attribute [grind =] base64urlEncode

/-- Value of one base64url character. -/
def b64urlValue (byte : UInt8) : Option UInt32 :=
  if isUpper byte then some (byte - 0x41).toUInt32
  else if isLower byte then some ((byte - 0x61).toUInt32 + 26)
  else if isDigit byte then some ((byte - 0x30).toUInt32 + 52)
  else if byte = 0x2d then some 62
  else if byte = 0x5f then some 63
  else none

/-- The decoding loop: the accumulator and its number of unread bits. -/
def base64urlDecodeLoop : Bytes → (acc : UInt32) → (bits : Nat) → Option Bytes
  | [], _, _ => some []
  | byte :: rest, acc, bits => do
      let acc := acc <<< 6 ||| (← b64urlValue byte)
      if bits + 6 ≥ 8 then
        let out ← base64urlDecodeLoop rest acc (bits + 6 - 8)
        return (acc >>> UInt32.ofNat (bits + 6 - 8)).toUInt8 :: out
      else
        base64urlDecodeLoop rest acc (bits + 6)

attribute [grind =] base64urlDecodeLoop

/-- Strict base64url, with or without padding. -/
def base64urlDecode (text : Bytes) : Option Bytes :=
  let input := (text.reverse.dropWhile (· == 0x3d)).reverse
  if input.length % 4 = 1 then none else base64urlDecodeLoop input 0 0

/-- Value of one hex digit, of either case. -/
def hexNibble (byte : UInt8) : Option Nat :=
  if isDigit byte then some (byte.toNat - 0x30)
  else if 0x61 ≤ byte ∧ byte ≤ 0x66 then some (byte.toNat - 0x61 + 10)
  else if 0x41 ≤ byte ∧ byte ≤ 0x46 then some (byte.toNat - 0x41 + 10)
  else none

/-- Bytes of an even-length hex text. -/
def hexDecode : Bytes → Option Bytes
  | [] => some []
  | [_] => none
  | high :: low :: rest => do
      let high ← hexNibble high
      let low ← hexNibble low
      let rest ← hexDecode rest
      some (UInt8.ofNat (high <<< 4 ||| low) :: rest)

/-- `sodium_memcmp` behind a length check: equality, whatever its timing. -/
def constantTimeEqual (left right : Bytes) : Bool := left == right

example : base64urlDecode (base64urlEncode [1, 0xfe, 3, 0xff]) = some [1, 0xfe, 3, 0xff] := by
  decide

end VgiRpc.Crypto
