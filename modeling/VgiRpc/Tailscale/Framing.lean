import VgiRpc.Tailscale.Head
import VgiRpc.Tailscale.Chunks

/-!
# Framing and segmentation

A response is its head and a body in one of the three framings.  Whatever the framing, and however
the bytes are cut into the results of `recv`, `request_whois` gives the body or refuses.
-/

namespace VgiRpc.Tailscale

open VgiRpc.Cpp VgiRpc.Lib VgiRpc.Identity SocketReader

/-! ## Responses -/

/-- A body in its framing. -/
inductive Framed where
  | length (body : Bytes)
  | chunked (chunks : List Chunk) (last : LastChunk)
  | close (body : Bytes)

namespace Framed

def body : Framed → Bytes
  | length body => body
  | chunked chunks _ => chunkedData chunks
  | close body => body

/-- The bytes of the body and of its framing. -/
def wire : Framed → Bytes
  | length body => body
  | chunked chunks last => chunkedWire chunks last
  | close body => body

/-- The body ends where the connection does. -/
def toClose : Framed → Bool
  | close _ => true
  | _ => false

/-- The headers announce the framing. -/
def Announced (headers : Headers) : Framed → Prop
  | length body => ∃ raw, headers.values contentLength = [raw] ∧ headers.values transferEncoding = [] ∧
      (raw ≠ [] ∧ (∀ byte ∈ raw, isDigit byte = true) ∧ body.length = numeralValue 10 decimalNibble raw ∧
        body.length < 2 ^ 64)
  | chunked _ _ => ∃ encoding, headers.values contentLength = [] ∧
      headers.values transferEncoding = [encoding] ∧ lowerAscii encoding = ascii "chunked"
  | close _ => headers.values contentLength = [] ∧ headers.values transferEncoding = []

/-- The bytes are all there, and so is the end where the body goes up to it. -/
def Arrives (stream : Bytes) (ended : Bool) : Framed → Prop
  | close body => stream = body ∧ ended = true
  | framed => framed.wire <+: stream

/-- The limits on what is around the bytes of a body, trailers in all apart. -/
def LinesFit (limit : Nat) : Framed → Prop
  | chunked chunks last => LinesBelow limit chunks last
  | _ => True

/-- Number of bytes in the trailers. -/
def trailers : Framed → Nat
  | chunked _ last => trailersSize last.trailers
  | _ => 0

end Framed

theorem decimalNibble_isSome {byte : UInt8} : (decimalNibble byte).isSome = true ↔ isDigit byte = true := by
  unfold decimalNibble
  split
  next digit => simp [digit]
  next other => simp [other]

/-! ## Bodies -/

section Bodies

variable {maxHeaderBytes maxBodyBytes : Nat} {headers : Headers} {framed other : Framed}
variable {reader next : SocketReader} {body stream : Bytes} {ended : Bool}

/-- A body that is read is framed as the headers announce, within the limits. -/
theorem readBody_ok (read : readBody maxHeaderBytes maxBodyBytes headers reader = .ok (body, next))
    (fresh : reader.eof = false) :
    ∃ framed : Framed, framed.Announced headers ∧ framed.Arrives reader.stream reader.ends ∧
      framed.body = body ∧ body.length ≤ maxBodyBytes ∧ framed.trailers ≤ maxHeaderBytes := by
  rw [readBody] at read
  split at read
  next lengths encodings =>
      obtain ⟨rfl, ended, small⟩ := untilEof_ok fresh read
      exact ⟨.close reader.stream, ⟨lengths, encodings⟩, ⟨rfl, ended⟩, rfl, small, Nat.zero_le _⟩
  next encoding lengths encodings =>
      split at read
      next => cases read
      next chunked =>
          obtain ⟨chunks, last, rfl, stream, -, small, trailers⟩ := readChunks_ok read
          refine ⟨.chunked chunks last, ⟨encoding, lengths, encodings, not_not.mp chunked⟩, ?_, rfl, small, trailers⟩
          exact ⟨next.stream, stream.symm⟩
  next => cases read
  next raw lengths encodings =>
      split at read
      next length spelled =>
          split at read
          next => cases read
          next fits =>
              obtain ⟨rfl, stream, -⟩ := exact_ok read
              obtain ⟨present, digits, size, bound⟩ := fromChars_whole.mp spelled
              refine ⟨.length body, ⟨raw, lengths, encodings, present, ?_, size, bound⟩, ⟨next.stream, stream.symm⟩,
                rfl, Nat.le_of_not_lt fits, Nat.zero_le _⟩
              exact fun byte mem => decimalNibble_isSome.mp (digits byte mem)
      next => cases read
  next => cases read

/-- A body within the limits is read. -/
theorem readBody_read (announced : framed.Announced headers) (arrives : framed.Arrives reader.stream reader.ends)
    (small : framed.body.length ≤ maxBodyBytes) (below : framed.LinesFit maxHeaderBytes)
    (smallTrailers : framed.trailers ≤ maxHeaderBytes) :
    ∃ next, readBody maxHeaderBytes maxBodyBytes headers reader = .ok (framed.body, next) := by
  cases framed with
  | length body =>
      obtain ⟨raw, lengths, encodings, present, digits, size, bound⟩ := announced
      obtain ⟨behind, stream⟩ := arrives
      have spelled : fromChars 10 decimalNibble raw = some (body.length, []) :=
        fromChars_whole.mpr ⟨present, fun byte mem => decimalNibble_isSome.mpr (digits byte mem), size, bound⟩
      obtain ⟨next, read, -, -⟩ := exact_read stream.symm
      refine ⟨next, ?_⟩
      rw [readBody, lengths, encodings]
      simp only [spelled]
      have fits : ¬maxBodyBytes < body.length := Nat.not_lt.mpr small
      rw [if_neg fits]
      exact read
  | chunked chunks last =>
      obtain ⟨encoding, lengths, encodings, chunked⟩ := announced
      obtain ⟨behind, stream⟩ := arrives
      obtain ⟨next, read⟩ := readChunks_read below stream.symm small smallTrailers
      refine ⟨next, ?_⟩
      rw [readBody, lengths, encodings]
      simp only
      rw [if_neg (not_not.mpr chunked)]
      exact read
  | close body =>
      obtain ⟨lengths, encodings⟩ := announced
      obtain ⟨rfl, ended⟩ := arrives
      obtain ⟨next, read⟩ := untilEof_read ended small
      refine ⟨next, ?_⟩
      rw [readBody, lengths, encodings]
      exact read

/-- Of two bodies in one framing none is the beginning of the other. -/
theorem Framed.unique (announced : framed.Announced headers) (announced' : other.Announced headers)
    (arrives : framed.Arrives stream ended) (arrives' : other.Arrives stream ended) : framed = other := by
  cases framed with
  | length body =>
      obtain ⟨raw, lengths, -, -, -, size, -⟩ := announced
      cases other with
      | length body' =>
          obtain ⟨raw', lengths', -, -, -, size', -⟩ := announced'
          rw [lengths] at lengths'
          cases lengths'
          have same := (List.prefix_of_prefix_length_le arrives arrives' (Nat.le_of_eq (size.trans size'.symm))).eq_of_length
            (size.trans size'.symm)
          exact congrArg Framed.length same
      | chunked chunks last =>
          obtain ⟨encoding, lengths', -⟩ := announced'
          rw [lengths] at lengths'
          cases lengths'
      | close body' =>
          obtain ⟨lengths', -⟩ := announced'
          rw [lengths] at lengths'
          cases lengths'
  | chunked chunks last =>
      obtain ⟨encoding, lengths, encodings, -⟩ := announced
      cases other with
      | length body' =>
          obtain ⟨raw', lengths', -⟩ := announced'
          rw [lengths] at lengths'
          cases lengths'
      | chunked chunks' last' =>
          obtain ⟨rest, whole⟩ := arrives
          obtain ⟨rest', whole'⟩ := arrives'
          obtain ⟨rfl, rfl, -⟩ := chunkedWire_unique (whole.trans whole'.symm)
          rfl
      | close body' =>
          obtain ⟨-, encodings'⟩ := announced'
          rw [encodings] at encodings'
          cases encodings'
  | close body =>
      obtain ⟨lengths, encodings⟩ := announced
      cases other with
      | length body' =>
          obtain ⟨raw', lengths', -⟩ := announced'
          rw [lengths] at lengths'
          cases lengths'
      | chunked chunks last =>
          obtain ⟨encoding, -, encodings', -⟩ := announced'
          rw [encodings] at encodings'
          cases encodings'
      | close body' => exact congrArg Framed.close (arrives.1.symm.trans arrives'.1)

/-- The headers say whether a body goes up to the end of the connection. -/
theorem Framed.toClose_iff (announced : framed.Announced headers) :
    framed.toClose = true ↔ headers.values contentLength = [] ∧ headers.values transferEncoding = [] := by
  cases framed with
  | length body =>
      obtain ⟨raw, lengths, -⟩ := announced
      simp [toClose, lengths]
  | chunked chunks last =>
      obtain ⟨encoding, -, encodings, -⟩ := announced
      simp [toClose, encodings]
  | close body => exact iff_of_true rfl announced

theorem Framed.arrives_iff (delimited : framed.toClose = false) :
    framed.Arrives stream ended ↔ framed.wire <+: stream := by
  cases framed with
  | length body => exact Iff.rfl
  | chunked chunks last => exact Iff.rfl
  | close body => cases delimited

theorem Framed.ended_of_arrives (toClose : framed.toClose = true) (arrives : framed.Arrives stream ended) :
    ended = true := by
  cases framed with
  | length body => cases toClose
  | chunked chunks last => cases toClose
  | close body => exact arrives.2

theorem readBody_takes {ending : Nat} :
    Takes ending (chunksPatience maxHeaderBytes maxBodyBytes) reader
      (readBody maxHeaderBytes maxBodyBytes headers reader) := by
  have enough : maxBodyBytes + 1 ≤ chunksPatience maxHeaderBytes maxBodyBytes := by
    rw [chunksPatience]
    nlinarith [Nat.zero_le (maxBodyBytes * maxHeaderBytes)]
  rw [readBody]
  split
  next => exact untilEof_takes.mono enough
  next =>
      split
      next => exact Within.of_error (by rintro ⟨⟩)
      next => exact readChunks_takes
  next => exact Within.of_error (by rintro ⟨⟩)
  next =>
      split
      next =>
          split
          next => exact Within.of_error (by rintro ⟨⟩)
          next fits => exact exact_takes.mono (by omega)
      next => exact Within.of_error (by rintro ⟨⟩)
  next => exact Within.of_error (by rintro ⟨⟩)

end Bodies

end VgiRpc.Tailscale
