import VgiRpc.Lib.Spans
import VgiRpc.Tailscale.Reader

/-!
# Chunked bodies

The chunks of a body, with the lines in front of them and the trailers behind, and what the reader
makes of them.
-/

namespace VgiRpc.Tailscale

open VgiRpc.Cpp VgiRpc.Lib VgiRpc.Crypto SocketReader

/-! ## The format -/

/-- A text that ends where a line break is put behind it. -/
def Unbroken (line : Bytes) : Prop := cut crlf (line ++ crlf) = some (line, [])

instance {line : Bytes} : Decidable (Unbroken line) :=
  inferInstanceAs (Decidable (cut crlf (line ++ crlf) = some (line, [])))

theorem Unbroken.cut {line : Bytes} (unbroken : Unbroken line) (behind : Bytes) :
    cut crlf (line ++ (crlf ++ behind)) = some (line, behind) := by
  rw [← List.append_assoc]
  exact cut_append unbroken behind

/-- The line in front of a chunk: its size in hexadecimal digits, and extensions behind a semicolon. -/
def IsSizeLine (line : Bytes) (size : Nat) : Prop :=
  ∃ digits extensions, line = digits ++ extensions ∧
    (digits ≠ [] ∧ (∀ byte ∈ digits, (hexNibble byte).isSome = true) ∧
      size = numeralValue 16 hexNibble digits ∧ size < 2 ^ 64) ∧
    (extensions = [] ∨ ∃ more, extensions = 0x3b :: more)

/-- A chunk as it is written. -/
@[ext] structure Chunk where
  line : Bytes
  data : Bytes
  sized : IsSizeLine line data.length
  unbroken : Unbroken line
  present : data ≠ []

/-- The chunk of no bytes, with the trailers. -/
@[ext] structure LastChunk where
  line : Bytes
  trailers : List Bytes
  sized : IsSizeLine line 0
  unbroken : Unbroken line
  headers : ∀ trailer ∈ trailers, trailer ≠ [] ∧ Unbroken trailer

/-- The trailers and the empty line behind them. -/
def trailersWire : List Bytes → Bytes
  | [] => crlf
  | trailer :: rest => trailer ++ (crlf ++ trailersWire rest)

/-- Number of bytes in the lines of the trailers. -/
def trailersSize (trailers : List Bytes) : Nat := (trailers.map (·.length + 2)).sum

def chunkedWire : List Chunk → LastChunk → Bytes
  | [], last => last.line ++ (crlf ++ trailersWire last.trailers)
  | chunk :: rest, last => chunk.line ++ (crlf ++ (chunk.data ++ (crlf ++ chunkedWire rest last)))

/-- The bytes of the chunks. -/
def chunkedData (chunks : List Chunk) : Bytes := chunks.flatMap Chunk.data

theorem chunkSize_ok_iff {line : Bytes} {size : Nat} : chunkSize line = .ok size ↔ IsSizeLine line size := by
  constructor
  · intro read
    rw [chunkSize] at read
    split at read
    next number spelled =>
        cases read
        refine ⟨_, _, List.takeWhile_append_dropWhile.symm, fromChars_whole.mp spelled, ?_⟩
        exact dropWhile_ne line
    next => cases read
  · rintro ⟨digits, extensions, rfl, spelled, marked⟩
    have plain : digits.all (· != (0x3b : UInt8)) = true := by
      rw [List.all_eq_true]
      intro byte mem
      rw [bne_iff_ne]
      rintro rfl
      exact absurd (spelled.2.1 _ mem) (by decide)
    have stops : ∀ byte rest, extensions = byte :: rest → (byte != (0x3b : UInt8)) = false := by
      rintro byte rest rfl
      obtain none | ⟨more, same⟩ := marked
      · cases none
      · rw [(List.cons.inj same).1]
        rfl
    rw [chunkSize, (cut_eq plain stops).1, fromChars_whole.mpr spelled]

/-- A line announces one size. -/
theorem IsSizeLine.unique {line : Bytes} {size other : Nat} (sized : IsSizeLine line size)
    (again : IsSizeLine line other) : size = other := by
  have same := (chunkSize_ok_iff.mpr sized).symm.trans (chunkSize_ok_iff.mpr again)
  exact Except.ok.inj same

/-! ## Where a chunked body ends -/

theorem trailersWire_unique {trailers others : List Bytes} {rest rest' : Bytes}
    (headers : ∀ trailer ∈ trailers, trailer ≠ [] ∧ Unbroken trailer)
    (headers' : ∀ trailer ∈ others, trailer ≠ [] ∧ Unbroken trailer)
    (same : trailersWire trailers ++ rest = trailersWire others ++ rest') :
    trailers = others ∧ rest = rest' := by
  induction trailers generalizing others with
  | nil =>
      cases others with
      | nil => exact ⟨rfl, List.append_cancel_left same⟩
      | cons other more =>
          obtain ⟨present, unbroken⟩ := headers' other List.mem_cons_self
          have left := cut_mark (List.cons_ne_nil 0x0d [0x0a]) rest
          rw [trailersWire, trailersWire, List.append_assoc, List.append_assoc] at same
          have right := unbroken.cut (trailersWire more ++ rest')
          rw [← same] at right
          have parts := Option.some.inj (left.symm.trans right)
          exact absurd (Prod.mk.inj parts).1.symm present
  | cons trailer more inductionHypothesis =>
      obtain ⟨⟨present, unbroken⟩, headersMore⟩ := List.forall_mem_cons.mp headers
      rw [trailersWire, List.append_assoc, List.append_assoc] at same
      have left := unbroken.cut (trailersWire more ++ rest)
      cases others with
      | nil =>
          rw [same] at left
          have right := cut_mark (List.cons_ne_nil 0x0d [0x0a]) rest'
          have parts := Option.some.inj (left.symm.trans right)
          exact absurd (Prod.mk.inj parts).1 present
      | cons other others =>
          obtain ⟨⟨-, unbroken'⟩, headersOthers⟩ := List.forall_mem_cons.mp headers'
          rw [trailersWire, List.append_assoc, List.append_assoc] at same
          rw [same, unbroken'.cut, Option.some.injEq, Prod.mk.injEq] at left
          obtain ⟨rfl, rfl⟩ := inductionHypothesis headersMore headersOthers left.2.symm
          exact ⟨by rw [left.1], rfl⟩

/-- One chunked body is no beginning of another. -/
theorem chunkedWire_unique {chunks others : List Chunk} {last last' : LastChunk} {rest rest' : Bytes}
    (same : chunkedWire chunks last ++ rest = chunkedWire others last' ++ rest') :
    chunks = others ∧ last = last' ∧ rest = rest' := by
  induction chunks generalizing others with
  | nil =>
      rw [chunkedWire, List.append_assoc, List.append_assoc] at same
      have left := last.unbroken.cut (trailersWire last.trailers ++ rest)
      cases others with
      | nil =>
          rw [chunkedWire, List.append_assoc, List.append_assoc] at same
          rw [same, last'.unbroken.cut, Option.some.injEq, Prod.mk.injEq] at left
          obtain ⟨trailers, behind⟩ := trailersWire_unique last.headers last'.headers left.2.symm
          exact ⟨rfl, LastChunk.ext left.1.symm trailers, behind⟩
      | cons other others =>
          simp only [chunkedWire, List.append_assoc] at same
          rw [same, other.unbroken.cut, Option.some.injEq, Prod.mk.injEq] at left
          have size := last.sized.unique (left.1 ▸ other.sized)
          exact absurd (List.length_eq_zero_iff.mp size.symm) other.present
  | cons chunk more inductionHypothesis =>
      simp only [chunkedWire, List.append_assoc] at same
      have left := chunk.unbroken.cut (chunk.data ++ (crlf ++ (chunkedWire more last ++ rest)))
      cases others with
      | nil =>
          rw [chunkedWire, List.append_assoc, List.append_assoc] at same
          rw [same, last'.unbroken.cut, Option.some.injEq, Prod.mk.injEq] at left
          have size := chunk.sized.unique (left.1 ▸ last'.sized)
          exact absurd (List.length_eq_zero_iff.mp size) chunk.present
      | cons other others =>
          simp only [chunkedWire, List.append_assoc] at same
          rw [same, other.unbroken.cut, Option.some.injEq, Prod.mk.injEq] at left
          have size := chunk.sized.unique (left.1 ▸ other.sized)
          obtain ⟨data, behind⟩ := List.append_inj left.2.symm size
          obtain ⟨rfl, rfl, rfl⟩ := inductionHypothesis (List.append_cancel_left behind)
          exact ⟨by rw [Chunk.ext left.1.symm data], rfl, rfl⟩

/-! ## Trailers -/

section Trailers

variable {maxHeaderBytes room : Nat} {reader next last : SocketReader} {trailers : List Bytes} {behind : Bytes}

theorem readTrailers_cases (read : readTrailers maxHeaderBytes room reader = .ok last) :
    ∃ trailer next, reader.line maxHeaderBytes = .ok (trailer, next) ∧
      ((trailer = [] ∧ last = next) ∨
        (trailer ≠ [] ∧ trailer.length + 2 ≤ room ∧
          readTrailers maxHeaderBytes (room - (trailer.length + 2)) next = .ok last)) := by
  rw [readTrailers, bind_eq_ok_iff] at read
  obtain ⟨⟨trailer, next⟩, line, rest⟩ := read
  refine ⟨trailer, next, line, ?_⟩
  simp only at rest
  split at rest
  next empty =>
      cases rest
      exact .inl ⟨empty, rfl⟩
  next present =>
      split at rest
      next => cases rest
      next fits => exact .inr ⟨present, Nat.le_of_not_lt fits, rest⟩

/-- Trailers that are read are trailers of the stream, and no more of them than there is room for. -/
theorem readTrailers_ok (read : readTrailers maxHeaderBytes room reader = .ok last) :
    ∃ trailers, (∀ trailer ∈ trailers, trailer ≠ [] ∧ Unbroken trailer) ∧
      reader.stream = trailersWire trailers ++ last.stream ∧ last.ends = reader.ends ∧
        trailersSize trailers ≤ room := by
  induction room using Nat.strong_induction_on generalizing reader with
  | _ room inductionHypothesis =>
      obtain ⟨trailer, next, line, rest⟩ := readTrailers_cases read
      obtain ⟨found, ends⟩ := line_ok line
      obtain ⟨rfl, rfl⟩ | ⟨present, fits, read⟩ := rest
      · refine ⟨[], List.forall_mem_nil _, ?_, ends, Nat.zero_le _⟩
        rw [append_of_cut found]
        rfl
      · obtain ⟨trailers, headers, stream, endsLast, small⟩ :=
          inductionHypothesis _ (by omega) read
        refine ⟨trailer :: trailers, List.forall_mem_cons.mpr ⟨⟨present, ?_⟩, headers⟩, ?_, ?_, ?_⟩
        · exact cut_front (List.cons_ne_nil _ _) found
        · rw [append_of_cut found, stream, trailersWire, List.append_assoc, List.append_assoc]
        · exact endsLast.trans ends
        · rw [trailersSize, List.map_cons, List.sum_cons]
          rw [trailersSize] at small
          omega

/-- Trailers that there is room for are read, line by line. -/
theorem readTrailers_read (headers : ∀ trailer ∈ trailers, trailer ≠ [] ∧ Unbroken trailer)
    (short : ∀ trailer ∈ trailers, trailer.length < maxHeaderBytes) (positive : 0 < maxHeaderBytes)
    (stream : reader.stream = trailersWire trailers ++ behind) (small : trailersSize trailers ≤ room) :
    ∃ last, readTrailers maxHeaderBytes room reader = .ok last ∧ last.stream = behind ∧
      last.ends = reader.ends := by
  induction trailers generalizing reader room with
  | nil =>
      have found : cut crlf reader.stream = some ([], behind) := by
        rw [stream]
        exact cut_mark (List.cons_ne_nil _ _) behind
      obtain ⟨next, line, rest, ends⟩ := line_read found positive
      refine ⟨next, ?_, rest, ends⟩
      rw [readTrailers, line]
      rfl
  | cons trailer more inductionHypothesis =>
      obtain ⟨⟨present, unbroken⟩, headersMore⟩ := List.forall_mem_cons.mp headers
      obtain ⟨shortLine, shortMore⟩ := List.forall_mem_cons.mp short
      rw [trailersSize, List.map_cons, List.sum_cons] at small
      have found := unbroken.cut (trailersWire more ++ behind)
      simp only [trailersWire, List.append_assoc] at stream
      rw [← stream] at found
      obtain ⟨next, line, rest, ends⟩ := line_read found shortLine
      have smallMore : trailersSize more ≤ room - (trailer.length + 2) := by
        rw [trailersSize]
        omega
      obtain ⟨last, read, streamLast, endsLast⟩ := inductionHypothesis headersMore shortMore rest smallMore
      refine ⟨last, ?_, streamLast, endsLast.trans ends⟩
      rw [readTrailers, line]
      change (if trailer = [] then _ else if room < trailer.length + 2 then _ else _) = _
      rw [if_neg present, if_neg (by omega), read]

theorem readTrailers_takes {ending : Nat} :
    Within (· = .waiting) (SocketReader.arrivals ending) (reader.arrivals ending)
      ((room + 1) * (maxHeaderBytes + 1)) (readTrailers maxHeaderBytes room reader) := by
  induction room using Nat.strong_induction_on generalizing reader with
  | _ room inductionHypothesis =>
      rw [readTrailers]
      have step : maxHeaderBytes + 1 + room * (maxHeaderBytes + 1) ≤ (room + 1) * (maxHeaderBytes + 1) := by
        rw [Nat.add_one_mul, Nat.add_comm]
      refine line_takes.bind step fun ⟨trailer, next⟩ _ => ?_
      simp only
      split
      next => exact Nat.le_add_right _ _
      next present =>
          split
          next => exact Within.of_error (by rintro ⟨⟩)
          next fits =>
              refine (inductionHypothesis (room - (trailer.length + 2)) (by omega)).mono ?_
              exact Nat.mul_le_mul_right _ (by omega)

end Trailers

/-! ## Chunks -/

section Chunks

variable {maxHeaderBytes room : Nat} {reader next : SocketReader} {body result behind : Bytes}

theorem readChunks_cases (read : readChunks maxHeaderBytes room body reader = .ok (result, next)) :
    ∃ line behindLine size, reader.line maxHeaderBytes = .ok (line, behindLine) ∧ IsSizeLine line size ∧
      ((size = 0 ∧ result = body ∧ readTrailers maxHeaderBytes maxHeaderBytes behindLine = .ok next) ∨
        (size ≠ 0 ∧ size ≤ room ∧ ∃ data behindData behindChunk,
          behindLine.exact size = .ok (data, behindData) ∧ behindData.exact 2 = .ok (crlf, behindChunk) ∧
            readChunks maxHeaderBytes (room - size) (body ++ data) behindChunk = .ok (result, next))) := by
  rw [readChunks, bind_eq_ok_iff] at read
  obtain ⟨⟨line, behindLine⟩, readLine, read⟩ := read
  rw [bind_eq_ok_iff] at read
  obtain ⟨size, sized, read⟩ := read
  refine ⟨line, behindLine, size, readLine, chunkSize_ok_iff.mp sized, ?_⟩
  split at read
  next zero =>
      rw [bind_eq_ok_iff] at read
      obtain ⟨last, trailers, same⟩ := read
      cases same
      exact .inl ⟨zero, rfl, trailers⟩
  next present =>
      split at read
      next => cases read
      next fits =>
          rw [bind_eq_ok_iff] at read
          obtain ⟨⟨data, behindData⟩, readData, read⟩ := read
          rw [bind_eq_ok_iff] at read
          obtain ⟨⟨ending, behindChunk⟩, readEnding, read⟩ := read
          simp only at readData readEnding read
          split at read
          next => cases read
          next closed =>
              rw [not_not] at closed
              rw [closed] at readEnding
              exact .inr ⟨present, Nat.le_of_not_lt fits, data, behindData, behindChunk, readData, readEnding, read⟩

/-- What is read is the data of chunks of the stream, without their framing. -/
theorem readChunks_ok (read : readChunks maxHeaderBytes room body reader = .ok (result, next)) :
    ∃ chunks last, result = body ++ chunkedData chunks ∧
      reader.stream = chunkedWire chunks last ++ next.stream ∧ next.ends = reader.ends ∧
        (chunkedData chunks).length ≤ room ∧ trailersSize last.trailers ≤ maxHeaderBytes := by
  induction room using Nat.strong_induction_on generalizing reader body with
  | _ room inductionHypothesis =>
      obtain ⟨line, behindLine, size, readLine, sized, rest⟩ := readChunks_cases read
      obtain ⟨found, ends⟩ := line_ok readLine
      have unbroken : Unbroken line := cut_front (List.cons_ne_nil _ _) found
      obtain ⟨rfl, rfl, trailers⟩ | ⟨present, fits, data, behindData, behindChunk, readData, readEnding, read⟩ := rest
      · obtain ⟨trailers, headers, stream, endsLast, small⟩ := readTrailers_ok trailers
        refine ⟨[], ⟨line, trailers, sized, unbroken, headers⟩, ?_, ?_, endsLast.trans ends, Nat.zero_le _, small⟩
        · rw [chunkedData, List.flatMap_nil, List.append_nil]
        · rw [append_of_cut found, stream, chunkedWire, List.append_assoc, List.append_assoc]
      · obtain ⟨length, streamLine, endsData⟩ := exact_ok readData
        obtain ⟨-, streamData, endsChunk⟩ := exact_ok readEnding
        obtain ⟨chunks, last, whole, stream, endsLast, small, smallTrailers⟩ :=
          inductionHypothesis _ (by omega) read
        have dataPresent : data ≠ [] := by
          rintro rfl
          exact present length.symm
        refine ⟨⟨line, data, length ▸ sized, unbroken, dataPresent⟩ :: chunks, last, ?_, ?_, ?_, ?_, smallTrailers⟩
        · rw [whole, chunkedData, chunkedData, List.flatMap_cons, List.append_assoc]
        · rw [append_of_cut found, streamLine, streamData, stream]
          simp only [chunkedWire, List.append_assoc]
        · exact endsLast.trans (endsChunk.trans (endsData.trans ends))
        · rw [chunkedData, List.flatMap_cons, List.length_append, length]
          rw [chunkedData] at small
          omega

/-- The lines in front of chunks, and those of the trailers, stay below the limit. -/
def LinesBelow (limit : Nat) (chunks : List Chunk) (last : LastChunk) : Prop :=
  (∀ chunk ∈ chunks, chunk.line.length < limit) ∧ last.line.length < limit ∧
    ∀ trailer ∈ last.trailers, trailer.length < limit

instance {limit : Nat} {chunks : List Chunk} {last : LastChunk} : Decidable (LinesBelow limit chunks last) :=
  inferInstanceAs (Decidable (_ ∧ _))

/-- Chunks that there is room for are read, whatever follows. -/
theorem readChunks_read {chunks : List Chunk} {last : LastChunk} (below : LinesBelow maxHeaderBytes chunks last)
    (stream : reader.stream = chunkedWire chunks last ++ behind) (small : (chunkedData chunks).length ≤ room)
    (smallTrailers : trailersSize last.trailers ≤ maxHeaderBytes) :
    ∃ next, readChunks maxHeaderBytes room body reader = .ok (body ++ chunkedData chunks, next) := by
  induction chunks generalizing reader room body with
  | nil =>
      have found := last.unbroken.cut (trailersWire last.trailers ++ behind)
      rw [chunkedWire, List.append_assoc, List.append_assoc] at stream
      rw [← stream] at found
      obtain ⟨-, shortLine, short⟩ := below
      obtain ⟨behindLine, line, rest, -⟩ := line_read found shortLine
      obtain ⟨next, trailers, -, -⟩ :=
        readTrailers_read last.headers short (Nat.zero_lt_of_lt shortLine) rest smallTrailers
      refine ⟨next, ?_⟩
      rw [readChunks, line]
      simp only [bind, Except.bind, chunkSize_ok_iff.mpr last.sized, if_pos, trailers]
      simp [chunkedData, pure, Except.pure]
  | cons chunk more inductionHypothesis =>
      have found := chunk.unbroken.cut (chunk.data ++ (crlf ++ (chunkedWire more last ++ behind)))
      simp only [chunkedWire, List.append_assoc] at stream
      rw [← stream] at found
      obtain ⟨shortLines, shortLast⟩ := below
      obtain ⟨shortLine, shortMore⟩ := List.forall_mem_cons.mp shortLines
      rw [chunkedData, List.flatMap_cons, List.length_append, ← chunkedData] at small
      have present : chunk.data.length ≠ 0 := fun zero => chunk.present (List.length_eq_zero_iff.mp zero)
      have smallMore : (chunkedData more).length ≤ room - chunk.data.length := by omega
      obtain ⟨behindLine, line, rest, -⟩ := line_read found shortLine
      obtain ⟨behindData, data, restData, -⟩ := exact_read rest
      obtain ⟨behindChunk, ending, restChunk, -⟩ := exact_read restData
      obtain ⟨next, read⟩ :=
        @inductionHypothesis _ behindChunk (body ++ chunk.data) ⟨shortMore, shortLast⟩ restChunk smallMore
      have closed : behindData.exact 2 = .ok (crlf, behindChunk) := ending
      have fits : ¬room < chunk.data.length := by omega
      refine ⟨next, ?_⟩
      rw [readChunks, line]
      simp only [bind, Except.bind, chunkSize_ok_iff.mpr chunk.sized, if_neg present, if_neg fits, data, closed,
        ne_eq, not_true, if_false, read]
      rw [chunkedData, chunkedData, List.flatMap_cons, List.append_assoc]

/-- Number of results that the chunks and the trailers may take. -/
def chunksPatience (maxHeaderBytes room : Nat) : Nat :=
  (maxHeaderBytes + 1) * (maxHeaderBytes + 1) + (room + 1) * (maxHeaderBytes + 6)

/-- What a chunk takes is less than what its room allows for. -/
theorem chunksPatience_step {size : Nat} (present : size ≠ 0) (fits : size ≤ room) :
    size + 1 + (3 + chunksPatience maxHeaderBytes (room - size)) ≤
      (maxHeaderBytes + 1) * (maxHeaderBytes + 1) + room * (maxHeaderBytes + 6) + 5 := by
  obtain ⟨more, rfl⟩ := Nat.exists_eq_add_of_le fits
  obtain ⟨rest, rfl⟩ := Nat.exists_eq_succ_of_ne_zero present
  rw [chunksPatience, Nat.add_sub_cancel_left]
  nlinarith [Nat.zero_le (rest * maxHeaderBytes)]

theorem readChunks_takes {ending : Nat} :
    Takes ending (chunksPatience maxHeaderBytes room) reader (readChunks maxHeaderBytes room body reader) := by
  induction room using Nat.strong_induction_on generalizing reader body with
  | _ room inductionHypothesis =>
      rw [readChunks]
      have line : maxHeaderBytes + 1 +
          ((maxHeaderBytes + 1) * (maxHeaderBytes + 1) + room * (maxHeaderBytes + 6) + 5) ≤
            chunksPatience maxHeaderBytes room := by
        rw [chunksPatience, Nat.add_one_mul room]
        omega
      refine line_takes.bind line fun ⟨line, behindLine⟩ _ => ?_
      refine Within.bind_of_decided ?_ fun size _ => ?_
      · intro failure thrown
        rw [chunkSize] at thrown
        split at thrown
        all_goals cases thrown
        exact nofun
      split
      next =>
          have trailers : (maxHeaderBytes + 1) * (maxHeaderBytes + 1) + 0 ≤
              (maxHeaderBytes + 1) * (maxHeaderBytes + 1) + room * (maxHeaderBytes + 6) + 5 := by
            omega
          exact readTrailers_takes.bind trailers fun last _ => Nat.le_add_right _ _
      next present =>
          split
          next => exact Within.of_error (by rintro ⟨⟩)
          next fits =>
              refine exact_takes.bind (chunksPatience_step present (Nat.le_of_not_lt fits)) fun ⟨data, behindData⟩ _ => ?_
              refine exact_takes.bind le_rfl fun ⟨ending, behindChunk⟩ _ => ?_
              simp only
              split
              next => exact Within.of_error (by rintro ⟨⟩)
              next => exact inductionHypothesis _ (by omega)

end Chunks

end VgiRpc.Tailscale
