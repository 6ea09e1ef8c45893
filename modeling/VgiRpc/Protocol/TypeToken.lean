import VgiRpc.Cpp.Text

/-!
# Type tokens

The Arrow types that have a canonical token, and `TypeToken`, which spells them for the
preimage of the protocol hash.  Names of struct and union children and time zones go into
a token as they are.

The other types of Arrow are an error of `TypeToken`; a protocol that uses one has no
description.
-/

namespace VgiRpc.Protocol

open VgiRpc.Cpp

/-! ## Arrow types -/

inductive TimeUnit where
  | second
  | milli
  | micro
  | nano
  deriving DecidableEq, Repr

/-- The types without parameters. -/
inductive Simple where
  | na
  | bool
  | int8
  | int16
  | int32
  | int64
  | uint8
  | uint16
  | uint32
  | uint64
  | halfFloat
  | float
  | double
  | string
  | largeString
  | stringView
  | binary
  | largeBinary
  | binaryView
  | date32
  | date64
  | intervalMonths
  | intervalDayTime
  | intervalMonthDayNano
  deriving DecidableEq, Repr

/-- The types whose only parameter is a unit. -/
inductive Timed where
  | time32
  | time64
  | duration
  deriving DecidableEq, Repr

inductive DecimalWidth where
  | decimal128
  | decimal256
  deriving DecidableEq, Repr

inductive ListSize where
  | list
  | largeList
  deriving DecidableEq, Repr

inductive UnionMode where
  | sparse
  | dense
  deriving DecidableEq, Repr

mutual

/-- `arrow::DataType`.  A child is its name, whether it is nullable, and its type. -/
inductive DataType where
  | simple (kind : Simple)
  | fixedSizeBinary (byteWidth : Int)
  | timed (kind : Timed) (unit : TimeUnit)
  | timestamp (unit : TimeUnit) (timezone : Bytes)
  | decimal (width : DecimalWidth) (precision scale : Int)
  | list (size : ListSize) (name : Bytes) (nullable : Bool) (type : DataType)
  | fixedSizeList (listSize : Int) (name : Bytes) (nullable : Bool) (type : DataType)
  | struct (fields : Fields)
  | map (keyName : Bytes) (keyNullable : Bool) (key : DataType) (itemName : Bytes)
      (itemNullable : Bool) (item : DataType) (keysSorted : Bool)
  | dictionary (index value : DataType) (ordered : Bool)
  | union (mode : UnionMode) (members : Members)

/-- The children of a struct. -/
inductive Fields where
  | nil
  | cons (name : Bytes) (nullable : Bool) (type : DataType) (rest : Fields)

/-- The children of a union, each with its type code. -/
inductive Members where
  | nil
  | cons (typeCode : Int) (name : Bytes) (nullable : Bool) (type : DataType) (rest : Members)

end

/-! ## Tokens -/

/-- `UnitToken`. -/
def unitToken : TimeUnit → Bytes
  | .second => ascii "s"
  | .milli => ascii "ms"
  | .micro => ascii "us"
  | .nano => ascii "ns"

def Simple.token : Simple → Bytes
  | .na => ascii "null"
  | .bool => ascii "bool"
  | .int8 => ascii "int8"
  | .int16 => ascii "int16"
  | .int32 => ascii "int32"
  | .int64 => ascii "int64"
  | .uint8 => ascii "uint8"
  | .uint16 => ascii "uint16"
  | .uint32 => ascii "uint32"
  | .uint64 => ascii "uint64"
  | .halfFloat => ascii "float16"
  | .float => ascii "float32"
  | .double => ascii "float64"
  | .string => ascii "utf8"
  | .largeString => ascii "large_utf8"
  | .stringView => ascii "utf8_view"
  | .binary => ascii "binary"
  | .largeBinary => ascii "large_binary"
  | .binaryView => ascii "binary_view"
  | .date32 => ascii "date32"
  | .date64 => ascii "date64"
  | .intervalMonths => ascii "interval_months"
  | .intervalDayTime => ascii "interval_day_time"
  | .intervalMonthDayNano => ascii "interval_month_day_nano"

def Timed.token : Timed → Bytes
  | .time32 => ascii "time32"
  | .time64 => ascii "time64"
  | .duration => ascii "duration"

def DecimalWidth.token : DecimalWidth → Bytes
  | .decimal128 => ascii "decimal128"
  | .decimal256 => ascii "decimal256"

def ListSize.token : ListSize → Bytes
  | .list => ascii "list"
  | .largeList => ascii "large_list"

def UnionMode.token : UnionMode → Bytes
  | .sparse => ascii "sparse_union"
  | .dense => ascii "dense_union"

/-- `AnonChild`: a child with a name that Arrow may not consider part of the type. -/
def anonChild (name : Bytes) (nullable : Bool) (token : Bytes) : Bytes :=
  name ++ (if nullable then ascii "?" else []) ++ ascii ":" ++ token

mutual

/-- `TypeToken` of a type that has one. -/
def typeToken : DataType → Bytes
  | .simple kind => kind.token
  | .fixedSizeBinary byteWidth =>
      ascii "fixed_size_binary" ++ ascii "(" ++ Cpp.toString byteWidth ++ ascii ")"
  | .timed kind unit => kind.token ++ ascii "(" ++ unitToken unit ++ ascii ")"
  | .timestamp unit timezone =>
      ascii "timestamp" ++ ascii "(" ++ unitToken unit ++
        (if timezone = [] then [] else ascii ",tz=" ++ timezone) ++ ascii ")"
  | .decimal width precision scale =>
      width.token ++ ascii "(" ++ Cpp.toString precision ++ ascii "," ++ Cpp.toString scale ++
        ascii ")"
  | .list size _ nullable type =>
      size.token ++ ascii "<" ++ anonChild (ascii "item") nullable (typeToken type) ++ ascii ">"
  | .fixedSizeList listSize _ nullable type =>
      ascii "fixed_size_list" ++ ascii "(" ++ Cpp.toString listSize ++ ascii ")<" ++
        anonChild (ascii "item") nullable (typeToken type) ++ ascii ">"
  | .struct fields => ascii "struct" ++ ascii "<" ++ fieldTokens true fields ++ ascii ">"
  | .map _ keyNullable key _ itemNullable item keysSorted =>
      ascii "map" ++ ascii "<" ++ anonChild (ascii "key") keyNullable (typeToken key) ++
        ascii "," ++ anonChild (ascii "value") itemNullable (typeToken item) ++ ascii ">" ++
          (if keysSorted then ascii ",keys_sorted" else [])
  | .dictionary index value ordered =>
      ascii "dictionary" ++ ascii "<index:" ++ typeToken index ++ ascii ",value:" ++
        typeToken value ++ ascii ">" ++ (if ordered then ascii ",ordered" else [])
  | .union mode members => mode.token ++ ascii "<" ++ memberTokens true members ++ ascii ">"

/-- The children of a struct, the first without a comma. -/
def fieldTokens (first : Bool) : Fields → Bytes
  | .nil => []
  | .cons name nullable type rest =>
      (if first then [] else ascii ",") ++ anonChild name nullable (typeToken type) ++
        fieldTokens false rest

/-- The children of a union. -/
def memberTokens (first : Bool) : Members → Bytes
  | .nil => []
  | .cons typeCode name nullable type rest =>
      (if first then [] else ascii ",") ++ Cpp.toString typeCode ++ ascii "=" ++
        anonChild name nullable (typeToken type) ++ memberTokens false rest

end

/-! ## Equality of types -/

mutual

/-- A type with the names that Arrow's equality ignores replaced: of the child of a list,
and of the key and the value of a map.  Two types are equal to Arrow if these are. -/
def DataType.normal : DataType → DataType
  | .list size _ nullable type => .list size (ascii "item") nullable type.normal
  | .fixedSizeList listSize _ nullable type =>
      .fixedSizeList listSize (ascii "item") nullable type.normal
  | .struct fields => .struct fields.normal
  | .map _ keyNullable key _ itemNullable item keysSorted =>
      .map (ascii "key") keyNullable key.normal (ascii "value") itemNullable item.normal keysSorted
  | .dictionary index value ordered => .dictionary index.normal value.normal ordered
  | .union mode members => .union mode members.normal
  | type => type

def Fields.normal : Fields → Fields
  | .nil => .nil
  | .cons name nullable type rest => .cons name nullable type.normal rest.normal

def Members.normal : Members → Members
  | .nil => .nil
  | .cons typeCode name nullable type rest =>
      .cons typeCode name nullable type.normal rest.normal

end

attribute [grind =] DataType.normal Fields.normal Members.normal

example : typeToken (.map (ascii "k") false (.simple .string) (ascii "v") true
    (.list .list (ascii "element") false (.timestamp .micro (ascii "UTC"))) true) =
      ascii "map<key:utf8,value?:list<item:timestamp(us,tz=UTC)>>,keys_sorted" := by
  decide

end VgiRpc.Protocol
