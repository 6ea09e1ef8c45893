import VgiRpc.Lib.Separators
import VgiRpc.Protocol.TypeToken

/-!
# The preimage of the protocol hash

`CanonicalDescription`: the canonical JSON of a protocol, written by hand around the type
tokens.
-/

namespace VgiRpc.Protocol

open VgiRpc.Cpp VgiRpc.Lib

/-! ## Protocols -/

/-- A field of a schema. -/
structure Field where
  name : Bytes
  nullable : Bool
  type : DataType

/-- `HashMethod`.  A schema is its fields; a null schema has none. -/
structure HashMethod where
  name : Bytes
  methodType : Bytes
  hasReturn : Bool
  hasHeader : Bool
  paramsSchema : List Field
  resultSchema : List Field
  headerSchema : List Field

/-- A protocol: no two of its methods have the same name. -/
structure HashProtocol where
  protocolName : Bytes
  methods : List HashMethod
  distinct : (methods.map HashMethod.name).Nodup

/-! ## JSON -/

/-- A digit of `%x`. -/
def lowerHex (value : UInt8) : UInt8 := if value < 10 then 0x30 + value else 0x61 + (value - 10)

/-- One byte of `JsonString`. -/
def escapeByte (byte : UInt8) : Bytes :=
  if byte = 0x22 then [0x5c, 0x22]
  else if byte = 0x5c then [0x5c, 0x5c]
  else if byte = 0x08 then ascii "\\b"
  else if byte = 0x0c then ascii "\\f"
  else if byte = 0x0a then ascii "\\n"
  else if byte = 0x0d then ascii "\\r"
  else if byte = 0x09 then ascii "\\t"
  else if byte < 0x20 then ascii "\\u00" ++ [lowerHex (byte >>> 4), lowerHex (byte &&& 0x0f)]
  else [byte]

/-- `JsonString`. -/
def jsonString (value : Bytes) : Bytes := 0x22 :: (value.flatMap escapeByte ++ [0x22])

def jsonBool (value : Bool) : Bytes := if value then ascii "true" else ascii "false"

/-- One field of `FieldTokensJson`. -/
def fieldJson (field : Field) : Bytes :=
  ascii "\x7b\"name\":" ++ jsonString field.name ++ ascii ",\"nullable\":" ++
    jsonBool field.nullable ++ ascii ",\"type\":" ++ jsonString (typeToken field.type) ++
      ascii "\x7d"

/-- `FieldTokensJson`. -/
def fieldTokensJson (schema : List Field) : Bytes :=
  ascii "[" ++ joined 0x2c fieldJson true schema ++ ascii "]"

/-- `MethodEntry`. -/
def methodEntry (method : HashMethod) : Bytes :=
  ascii "\x7b\"has_header\":" ++ jsonBool method.hasHeader ++ ascii ",\"has_return\":" ++
    jsonBool method.hasReturn ++
    (if method.hasHeader then ascii ",\"header\":" ++ fieldTokensJson method.headerSchema else []) ++
    ascii ",\"name\":" ++ jsonString method.name ++ ascii ",\"params\":" ++
    fieldTokensJson method.paramsSchema ++
    (if method.hasReturn then ascii ",\"result\":" ++ fieldTokensJson method.resultSchema else []) ++
    ascii ",\"type\":" ++ jsonString method.methodType ++ ascii "\x7d"

/-- The order of the methods: by name, byte by byte. -/
def sortedMethods (methods : List HashMethod) : List HashMethod :=
  methods.mergeSort fun first second => decide (first.name ≤ second.name)

/-- `CanonicalDescription`. -/
def canonicalDescription (protocolName : Bytes) (methods : List HashMethod) : Bytes :=
  ascii "\x7b\"methods\":[" ++ joined 0x2c methodEntry true (sortedMethods methods) ++
    ascii "],\"protocol\":" ++ jsonString protocolName ++ ascii "\x7d"

/-- The description of a protocol. -/
def HashProtocol.description (protocol : HashProtocol) : Bytes :=
  canonicalDescription protocol.protocolName protocol.methods

/-! ## Equality of protocols -/

def Field.normal (field : Field) : Field := { field with type := field.type.normal }

/-- What is compared of a method: the result and the header only if it has them. -/
def HashMethod.normal (method : HashMethod) : HashMethod :=
  { method with
    paramsSchema := method.paramsSchema.map Field.normal
    resultSchema := if method.hasReturn then method.resultSchema.map Field.normal else []
    headerSchema := if method.hasHeader then method.headerSchema.map Field.normal else [] }

/-- The same methods up to their order. -/
def SameMethods (first second : List HashMethod) : Prop :=
  (first.map HashMethod.normal).Perm (second.map HashMethod.normal)

/-- The same protocol: the same name and the same methods. -/
def HashProtocol.Same (first second : HashProtocol) : Prop :=
  first.protocolName = second.protocolName ∧ SameMethods first.methods second.methods

end VgiRpc.Protocol
