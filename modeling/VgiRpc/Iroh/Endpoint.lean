import VgiRpc.Cpp.Text

/-!
# Iroh endpoints

`IrohEndpoint::parse` reads the URI of an endpoint: a scheme, the 64 hexadecimal digits of
its id, and for `httpi://` a base path.  Every refusal is an `IrohTransportError` of the
stage PARSE, the category INVALID_INPUT and the certainty NOT_SENT; here it is the `error`
of its text.
-/

namespace VgiRpc.Iroh

open VgiRpc.Cpp

/-- The ways in which a URI is refused. -/
inductive ParseError where
  | notLowerHex
  | trailingSegment
  | emptySegment
  | dotSegment
  | invalidEscape
  | encodedSeparator
  | invalidUri
  | unknownScheme
  | pathOfIroh
  deriving DecidableEq, Repr

def ParseError.what : ParseError → Bytes
  | .notLowerHex =>
      ascii "Iroh endpoint ID must be exactly 64 lowercase hexadecimal characters"
  | .trailingSegment => ascii "httpi:// base paths cannot have a trailing empty segment"
  | .emptySegment => ascii "httpi:// base paths cannot contain empty segments"
  | .dotSegment => ascii "httpi:// base paths cannot contain dot segments"
  | .invalidEscape => ascii "httpi:// base path contains an invalid percent escape"
  | .encodedSeparator =>
      ascii "httpi:// base path contains an encoded dot, separator, or control"
  | .invalidUri => ascii "invalid VGI Iroh endpoint URI"
  | .unknownScheme => ascii "VGI Iroh endpoint scheme must be iroh:// or httpi://"
  | .pathOfIroh => ascii "iroh:// endpoints cannot contain a path"

inductive Scheme where
  | iroh
  | httpi
  deriving DecidableEq, Repr

/-- `IrohEndpoint`. -/
structure IrohEndpoint where
  scheme : Scheme
  endpointId : Bytes
  endpointIdBytes : Bytes
  basePath : Bytes
  alpn : Bytes
  deriving DecidableEq, Repr

def irohArrowMuxAlpn : Bytes := ascii "vgi-rpc/arrow-mux/1"

def irohHttpAlpn : Bytes := ascii "iroh-http/2"

/-- `hex_nibble`: digits of lower case only. -/
def hexNibble (value : UInt8) : Except ParseError UInt8 :=
  if 0x30 ≤ value ∧ value ≤ 0x39 then .ok (value - 0x30)
  else if 0x61 ≤ value ∧ value ≤ 0x66 then .ok (value - 0x61 + 10)
  else .error .notLowerHex

/-- `std::isxdigit`: digits of either case. -/
def isXDigit (byte : UInt8) : Bool :=
  isDigit byte || (0x41 ≤ byte && byte ≤ 0x46) || (0x61 ≤ byte && byte ≤ 0x66)

/-- Two digits as one byte. -/
def hexByte (high low : UInt8) : Except ParseError UInt8 := do
  let high ← hexNibble high
  let low ← hexNibble low
  return high <<< 4 ||| low

/-- `path.find("//") != npos`. -/
def hasDoubleSlash : Bytes → Bool
  | 0x2f :: 0x2f :: _ => true
  | _ :: rest => hasDoubleSlash rest
  | [] => false

/-- The segment loop of `validate_path`, from behind the slash it has reached. -/
def checkSegments (path : Bytes) : Except ParseError Unit :=
  if path.takeWhile (· != 0x2f) = ascii "." ∨ path.takeWhile (· != 0x2f) = ascii ".." then
    .error .dotSegment
  else if path.dropWhile (· != 0x2f) = [] then .ok ()
  else checkSegments ((path.dropWhile (· != 0x2f)).drop 1)
  termination_by path.length
  decreasing_by
    have shorter := (@List.dropWhile_suffix _ path (· != 0x2f)).length_le
    have positive := List.length_pos_iff.mpr ‹path.dropWhile (· != 0x2f) ≠ []›
    rw [List.length_drop]
    omega

/-- An escaped byte that would change how the path is read. -/
def isSeparator (decoded : UInt8) : Bool :=
  decoded == 0x2e || decoded == 0x2f || decoded == 0x5c || decoded ≤ 0x20 || decoded == 0x7f

/-- The escape loop of `validate_path`. -/
def checkEscapes : Bytes → Except ParseError Unit
  | [] => .ok ()
  | byte :: rest =>
      if byte = 0x25 then
        match rest with
        | high :: low :: rest =>
            if isXDigit high = false ∨ isXDigit low = false then .error .invalidEscape
            else
              match hexByte high low with
              | .error error => .error error
              | .ok decoded =>
                  if isSeparator decoded then .error .encodedSeparator else checkEscapes rest
        | _ => .error .invalidEscape
      else checkEscapes rest

/-- `validate_path`. -/
def validatePath (path : Bytes) : Except ParseError Unit :=
  if 1 < path.length ∧ path.getLast? = some 0x2f then .error .trailingSegment
  else if hasDoubleSlash path = true then .error .emptySegment
  else do
    if path ≠ [] then checkSegments (path.drop 1)
    checkEscapes path

/-- The 32 bytes of an endpoint id. -/
def decodeId : Bytes → Except ParseError Bytes
  | high :: low :: rest => do
      let byte ← hexByte high low
      return byte :: (← decodeId rest)
  | _ => .ok []

/-- A byte that no URI may contain. -/
def isForbidden (value : UInt8) : Bool :=
  value ≤ 0x20 || value == 0x7f || value == 0x5c || value == 0x3f || value == 0x23

def Scheme.text : Scheme → Bytes
  | .iroh => ascii "iroh://"
  | .httpi => ascii "httpi://"

/-- The scheme that a URI begins with. -/
def schemeOf (uri : Bytes) : Option Scheme :=
  if Scheme.iroh.text <+: uri then some .iroh
  else if Scheme.httpi.text <+: uri then some .httpi
  else none

/-- `IrohEndpoint::parse`. -/
def parse (uri : Bytes) : Except ParseError IrohEndpoint :=
  if uri.any isForbidden then .error .invalidUri
  else
    match schemeOf uri with
    | none => .error .unknownScheme
    | some scheme =>
        let id := (uri.drop scheme.text.length).takeWhile (· != 0x2f)
        let path := (uri.drop scheme.text.length).dropWhile (· != 0x2f)
        if id.length ≠ 64 then .error .notLowerHex
        else do
          let bytes ← decodeId id
          if scheme = .iroh ∧ path ≠ [] then throw .pathOfIroh
          validatePath path
          return ⟨scheme, id, bytes, if path = ascii "/" then [] else path,
            if scheme = .iroh then irohArrowMuxAlpn else irohHttpAlpn⟩

end VgiRpc.Iroh
