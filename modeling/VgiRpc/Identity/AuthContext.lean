import VgiRpc.Cpp.Binary64
import VgiRpc.Cpp.Text

/-!
# Who a caller is

The outcome of authentication.  Claims are JSON; the model keeps the kinds of value
that the server builds or reads.
-/

namespace VgiRpc.Identity

open VgiRpc.Cpp

/-- The JSON value of a claim. -/
inductive Claim where
  | null
  | number (value : Binary64)
  | text (value : Bytes)
  | texts (values : List Bytes)
  /-- A Boolean, an object or another array. -/
  | other
  deriving DecidableEq

/-- `AuthContext`. -/
structure AuthContext where
  domain : Bytes
  authenticated : Bool
  principal : Option Bytes
  claims : List (Bytes × Claim)
  deriving DecidableEq

/-- `AuthContext::anonymous`. -/
def AuthContext.anonymous : AuthContext := ⟨[], false, none, []⟩

end VgiRpc.Identity
