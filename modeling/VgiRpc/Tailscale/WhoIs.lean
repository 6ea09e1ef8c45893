import VgiRpc.Lib.Marks
import VgiRpc.Cpp.Numbers
import VgiRpc.Http.ResponseCodec

/-!
# The LocalAPI response reader

`request_whois` from where its request is written, and the `SocketReader` that it takes a body from.
-/

namespace VgiRpc.Tailscale

open VgiRpc.Cpp VgiRpc.Lib VgiRpc.Identity

/-! ## The socket -/

/-- What `wait_socket` and the `recv` behind it give. -/
inductive Received where
  /-- A positive count of bytes. -/
  | bytes (first : UInt8) (more : Bytes)
  /-- A count of zero. -/
  | closed
  /-- A negative count, with an error that `would_block` knows. -/
  | wouldBlock
  | failed
  /-- `wait_socket` throws, at the deadline or on the socket's error. -/
  | unready (what : String)
  deriving DecidableEq

/-- The exceptions of a request. -/
inductive Failure where
  /-- `Unavailable`. -/
  | unavailable (what : String)
  /-- `std::invalid_argument`. -/
  | invalid (what : String)
  /-- No exception: what `recv` gives next is still out. -/
  | waiting
  deriving DecidableEq

/-- The end of a line. -/
def crlf : Bytes := [0x0d, 0x0a]

/-- `SocketReader`, with the results that its socket gives from now on. -/
structure SocketReader where
  buffer : Bytes
  offset : Nat
  eof : Bool
  incoming : List Received
  inside : offset ≤ buffer.length

namespace SocketReader

/-- What the buffer holds behind the offset. -/
def pending (reader : SocketReader) : Bytes := reader.buffer.drop reader.offset

/-- `receive`. -/
def receive (reader : SocketReader) : Except Failure SocketReader :=
  if reader.eof = true then .error (.unavailable "truncated HTTP response")
  else
    match reader.incoming with
    | [] => .error .waiting
    | .bytes first more :: rest =>
        .ok
          { reader with
            buffer := reader.buffer ++ first :: more
            incoming := rest
            inside := List.length_append ▸ Nat.le_add_right_of_le reader.inside }
    | .closed :: rest => .ok { reader with eof := true, incoming := rest }
    | .wouldBlock :: rest => .ok { reader with incoming := rest }
    | .failed :: _ => .error (.unavailable "LocalAPI receive failed")
    | .unready what :: _ => .error (.unavailable what)

/-- `compact`. -/
def compact (reader : SocketReader) : SocketReader :=
  if 8192 < reader.offset ∧ reader.buffer.length < reader.offset * 2 then
    { reader with buffer := reader.buffer.drop reader.offset, offset := 0, inside := Nat.zero_le _ }
  else reader

/-- The offset moves over what has been taken. -/
def advance (reader : SocketReader) (count : Nat) (there : count ≤ reader.pending.length) :
    SocketReader :=
  { reader with
    offset := reader.offset + count
    inside := by
      have inside := reader.inside
      rw [pending, List.length_drop] at there
      omega }

theorem receive_shorter {reader next : SocketReader} (received : reader.receive = .ok next) :
    next.incoming.length < reader.incoming.length := by
  rw [receive] at received
  split at received
  next => cases received
  next =>
      split at received
      all_goals cases received
      all_goals simp_all

/-- The loops of `line` and of `exact`: as long as what is pending is too little, one more result is
received. -/
def receiveUntil {α : Type} (take : SocketReader → Except Failure (Option (α × SocketReader)))
    (reader : SocketReader) : Except Failure (α × SocketReader) :=
  match take reader with
  | .error failure => .error failure
  | .ok (some taken) => .ok taken
  | .ok none =>
      match _ : reader.receive with
      | .error failure => .error failure
      | .ok next => receiveUntil take next
termination_by reader.incoming.length
decreasing_by exact receive_shorter ‹_›

/-- `line`. -/
def line (limit : Nat) : SocketReader → Except Failure (Bytes × SocketReader) :=
  receiveUntil fun reader =>
    match found : cut crlf reader.pending with
    | some (text, _) =>
        .ok (some (text, (reader.advance (text.length + 2) (length_of_cut found ▸ Nat.le_add_right _ _)).compact))
    | none => if limit < reader.pending.length then .error (.invalid "oversized HTTP line") else .ok none

attribute [grind =] line

/-- `exact`. -/
def exact (size : Nat) : SocketReader → Except Failure (Bytes × SocketReader) :=
  receiveUntil fun reader =>
    if there : size ≤ reader.pending.length then
      .ok (some (reader.pending.take size, (reader.advance size there).compact))
    else .ok none

/-- The loop of `until_eof`, with the buffer cleared. -/
def untilEofLoop (limit : Nat) (out : Bytes) (reader : SocketReader) : Except Failure (Bytes × SocketReader) :=
  if reader.eof = true then .ok (out, reader)
  else
    match _ : reader.receive with
    | .error failure => .error failure
    | .ok next =>
        if limit < (out ++ next.buffer).length then .error (.invalid "oversized HTTP body")
        else
          untilEofLoop limit (out ++ next.buffer)
            { next with buffer := [], offset := 0, inside := Nat.zero_le _ }
termination_by reader.incoming.length
decreasing_by exact receive_shorter ‹_›

/-- `until_eof`. -/
def untilEof (limit : Nat) (reader : SocketReader) : Except Failure (Bytes × SocketReader) :=
  untilEofLoop limit reader.pending { reader with buffer := [], offset := 0, inside := Nat.zero_le _ }

end SocketReader

/-! ## The head -/

open SocketReader

/-- The empty line that a head ends with, and the end of the line in front of it. -/
def headEnd : Bytes := [0x0d, 0x0a, 0x0d, 0x0a]

/-- The first loop of `request_whois`: the header block, what came behind it, and the results that
are left. -/
def readHead (maxHeaderBytes : Nat) (head : Bytes) (incoming : List Received) :
    Except Failure (Bytes × Bytes × List Received) :=
  match cut headEnd head with
  | some (headerBlock, behind) => .ok (headerBlock, behind, incoming)
  | none =>
      if maxHeaderBytes < head.length then .error (.invalid "oversized HTTP headers")
      else
        match incoming with
        | [] => .error .waiting
        | .bytes first more :: rest => readHead maxHeaderBytes (head ++ first :: more) rest
        | .closed :: _ => .error (.unavailable "truncated HTTP headers")
        | .wouldBlock :: rest => readHead maxHeaderBytes head rest
        | .failed :: _ => .error (.unavailable "LocalAPI receive failed")
        | .unready what :: _ => .error (.unavailable what)

/-- The values of the headers, under their names in lower case, in the order they came in. -/
abbrev Headers := List (Bytes × Bytes)

/-- The values of one header. -/
def Headers.values (headers : Headers) (name : Bytes) : List Bytes :=
  (headers.filter (·.1 = name)).map (·.2)

structure HttpResponse where
  status : Int := 0
  headers : Headers := []
  body : Bytes := []
  deriving DecidableEq

/-- `std::from_chars` on an `int`: with a minus sign, without a plus sign. -/
def statusNumber (text : Bytes) : Option Int :=
  match text with
  | 0x2d :: digits =>
      match fromChars 10 decimalNibble digits with
      | some (value, []) => some (-value)
      | _ => none
  | digits =>
      match fromChars 10 decimalNibble digits with
      | some (value, []) => some value
      | _ => none

/-- The status of a status line. -/
def parseStatus (statusLine : Bytes) : Except Failure Int :=
  if statusLine.length < 12 ∨ ¬ascii "HTTP/1." <+: statusLine ∨ statusLine.getD 8 0 ≠ 0x20 then
    .error (.invalid "invalid HTTP status line")
  else
    match statusNumber ((statusLine.drop 9).take 3) with
    | some status => .ok status
    | none => .error (.invalid "invalid HTTP status")

/-- `valid_header_name`. -/
def validHeaderName (name : Bytes) : Bool :=
  name != [] && name.all fun byte => isAlnum byte || (ascii "!#$%&'*+-.^_`|~").contains byte

/-- One line of the headers. -/
def parseHeader (line : Bytes) : Except Failure (Bytes × Bytes) :=
  if line.head? = none ∨ line.head? = some 0x20 ∨ line.head? = some 0x09 then
    .error (.invalid "invalid folded HTTP header")
  else
    match cut [0x3a] line with
    | none => .error (.invalid "invalid HTTP header")
    | some (name, value) =>
        if validHeaderName name = false then .error (.invalid "invalid HTTP header")
        else if hasControl (Http.ResponseCodec.trimBlanks value) = true then
          .error (.invalid "invalid HTTP header value")
        else .ok (lowerAscii name, Http.ResponseCodec.trimBlanks value)

/-- The loop over the lines of the headers. -/
def parseHeaders (text : Bytes) (headers : Headers) : Except Failure Headers :=
  if text = [] then .ok headers
  else
    match _ : cut crlf text with
    | none => do return headers ++ [← parseHeader text]
    | some (line, rest) => do parseHeaders rest (headers ++ [← parseHeader line])
termination_by text.length
decreasing_by
  have size := length_of_cut ‹_›
  simp only [crlf, List.length_cons, List.length_nil] at size
  omega

/-- The response that a header block begins. -/
def parseHead (headerBlock : Bytes) : Except Failure HttpResponse :=
  match cut crlf headerBlock with
  | none => do return { status := ← parseStatus headerBlock }
  | some (statusLine, rest) => do
      let status ← parseStatus statusLine
      return { status, headers := ← parseHeaders rest [] }

/-! ## The body -/

/-- The size that the line in front of a chunk announces. -/
def chunkSize (line : Bytes) : Except Failure Nat :=
  match fromChars 16 Crypto.hexNibble (line.takeWhile (· != 0x3b)) with
  | some (size, []) => .ok size
  | _ => .error (.invalid "invalid HTTP chunk")

/-- The loop over the trailers, up to the empty line.  `room` is what is left for them. -/
def readTrailers (maxHeaderBytes room : Nat) (reader : SocketReader) : Except Failure SocketReader := do
  let (trailer, next) ← reader.line maxHeaderBytes
  if trailer = [] then return next
  else if room < trailer.length + 2 then throw (.invalid "oversized trailers")
  else readTrailers maxHeaderBytes (room - (trailer.length + 2)) next
termination_by room

/-- The loop over the chunks.  `room` is `max_body_bytes - response.body.size()`. -/
def readChunks (maxHeaderBytes room : Nat) (body : Bytes) (reader : SocketReader) :
    Except Failure (Bytes × SocketReader) := do
  let (line, behindLine) ← reader.line maxHeaderBytes
  let size ← chunkSize line
  if size = 0 then return (body, ← readTrailers maxHeaderBytes maxHeaderBytes behindLine)
  else if room < size then throw (.invalid "oversized HTTP body")
  else
    let (data, behindData) ← behindLine.exact size
    let (ending, next) ← behindData.exact 2
    if ending ≠ crlf then throw (.invalid "invalid HTTP chunk ending")
    else readChunks maxHeaderBytes (room - size) (body ++ data) next
termination_by room

def contentLength : Bytes := ascii "content-length"

def transferEncoding : Bytes := ascii "transfer-encoding"

/-- The body, as the headers frame it. -/
def readBody (maxHeaderBytes maxBodyBytes : Nat) (headers : Headers) (reader : SocketReader) :
    Except Failure (Bytes × SocketReader) :=
  match headers.values contentLength, headers.values transferEncoding with
  | [], [] => reader.untilEof maxBodyBytes
  | [], [encoding] =>
      if lowerAscii encoding ≠ ascii "chunked" then
        .error (.invalid "unsupported HTTP transfer encoding")
      else readChunks maxHeaderBytes maxBodyBytes [] reader
  | [], _ :: _ :: _ => .error (.invalid "unsupported HTTP transfer encoding")
  | [raw], [] =>
      match fromChars 10 decimalNibble raw with
      | some (length, []) =>
          if maxBodyBytes < length then .error (.invalid "invalid or oversized Content-Length")
          else reader.exact length
      | _ => .error (.invalid "invalid or oversized Content-Length")
  | _, _ => .error (.invalid "ambiguous HTTP body framing")

/-- `request_whois`, behind `write_all`. -/
def requestWhois (maxHeaderBytes maxBodyBytes : Nat) (incoming : List Received) :
    Except Failure HttpResponse := do
  let (headerBlock, behind, rest) ← readHead maxHeaderBytes [] incoming
  if maxHeaderBytes < headerBlock.length + 4 then throw (.invalid "oversized HTTP headers")
  let response ← parseHead headerBlock
  if response.status ≠ 200 then return response
  let (body, _) ←
    readBody maxHeaderBytes maxBodyBytes response.headers ⟨behind, 0, false, rest, Nat.zero_le _⟩
  return { response with body }

end VgiRpc.Tailscale
