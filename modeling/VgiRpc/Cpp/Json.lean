import VgiRpc.Cpp.Text

/-!
# JSON values

The values of `nlohmann::json`.  How they are printed is a matter of that library, and a
parameter wherever it is used.
-/

namespace VgiRpc.Cpp

/-- A `nlohmann::json` value.  The two kinds of integers are one, as they compare equal; a
float is the bits of a double; the members of an object are in the order of its keys. -/
inductive Json where
  | null
  | bool (value : Bool)
  | integer (value : Int)
  | float (bits : UInt64)
  | string (value : Bytes)
  | array (items : List Json)
  | object (members : List (Bytes × Json))

namespace Json

/-- `std::isfinite`. -/
def isFinite (bits : UInt64) : Bool := (bits >>> 52) &&& 0x7ff != 0x7ff

def isObject : Json → Bool
  | .object _ => true
  | _ => false

end Json

end VgiRpc.Cpp
