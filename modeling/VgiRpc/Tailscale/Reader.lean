import VgiRpc.Lib.Results
import VgiRpc.Tailscale.WhoIs

/-!
# What the reader takes off its stream

The bytes that are pending and those that the socket delivers yet are one stream.  What a read gives
is a matter of the stream alone, however its bytes are cut into results.
-/

namespace VgiRpc.Tailscale

open VgiRpc.Cpp VgiRpc.Lib

/-! ## Streams -/

/-- The bytes that a run of results delivers, up to where it ends or fails. -/
def delivered : List Received → Bytes
  | .bytes first more :: rest => first :: more ++ delivered rest
  | .wouldBlock :: rest => delivered rest
  | _ => []

/-- The results deliver their bytes and the end of the stream behind them. -/
def closes : List Received → Bool
  | .bytes _ _ :: rest => closes rest
  | .wouldBlock :: rest => closes rest
  | .closed :: _ => true
  | _ => false

/-- Number of the results with bytes in them.  One that nothing can follow counts for `ending`. -/
def arrivals (ending : Nat) : List Received → Nat
  | [] => 0
  | .bytes _ _ :: rest => arrivals ending rest + 1
  | .wouldBlock :: rest => arrivals ending rest
  | _ => ending

attribute [grind =] arrivals

namespace SocketReader

/-- What is still to be read. -/
def stream (reader : SocketReader) : Bytes :=
  reader.pending ++ if reader.eof = true then [] else delivered reader.incoming

/-- The stream has an end. -/
def ends (reader : SocketReader) : Bool := reader.eof || closes reader.incoming

section Buffer

variable {reader next last : SocketReader} {failure : Failure}

@[simp] theorem pending_compact : reader.compact.pending = reader.pending := by
  unfold compact pending
  split
  next => exact List.drop_zero
  next => rfl

@[simp] theorem eof_compact : reader.compact.eof = reader.eof := by
  unfold compact
  split
  next => rfl
  next => rfl

@[simp] theorem incoming_compact : reader.compact.incoming = reader.incoming := by
  unfold compact
  split
  next => rfl
  next => rfl

@[simp] theorem stream_compact : reader.compact.stream = reader.stream := by simp [stream]

@[simp] theorem ends_compact : reader.compact.ends = reader.ends := by simp [ends]

section Advance

variable {count : Nat} {there : count ≤ reader.pending.length}

@[simp] theorem pending_advance : (reader.advance count there).pending = reader.pending.drop count :=
  List.drop_drop.symm

@[simp] theorem stream_advance : (reader.advance count there).stream = reader.stream.drop count := by
  rw [stream, stream, pending_advance, List.drop_append_of_le_length there]
  rfl

@[simp] theorem ends_advance : (reader.advance count there).ends = reader.ends := rfl

end Advance

/-- What one result does to a reader. -/
theorem receive_cases (received : reader.receive = .ok next) :
    reader.eof = false ∧
      ((∃ first more, reader.incoming = .bytes first more :: next.incoming ∧
          next.buffer = reader.buffer ++ first :: more ∧ next.offset = reader.offset ∧ next.eof = false) ∨
        (reader.incoming = .closed :: next.incoming ∧ next.buffer = reader.buffer ∧
          next.offset = reader.offset ∧ next.eof = true) ∨
        (reader.incoming = .wouldBlock :: next.incoming ∧ next.buffer = reader.buffer ∧
          next.offset = reader.offset ∧ next.eof = false)) := by
  rw [receive] at received
  split at received
  next => cases received
  next open' =>
      rw [Bool.not_eq_true] at open'
      refine ⟨open', ?_⟩
      split at received
      next => cases received
      next first more rest coming =>
          cases received
          exact .inl ⟨first, more, coming, rfl, rfl, open'⟩
      next rest coming =>
          cases received
          exact .inr (.inl ⟨coming, rfl, rfl, rfl⟩)
      next rest coming =>
          cases received
          exact .inr (.inr ⟨coming, rfl, rfl, open'⟩)
      next => cases received
      next => cases received

/-- Bytes behind the buffer are behind what is pending. -/
theorem pending_append {first : UInt8} {more : Bytes} (buffer : next.buffer = reader.buffer ++ first :: more)
    (offset : next.offset = reader.offset) : next.pending = reader.pending ++ first :: more := by
  rw [pending, buffer, offset, List.drop_append_of_le_length reader.inside]
  rfl

theorem receive_stream (received : reader.receive = .ok next) : next.stream = reader.stream := by
  obtain ⟨open', ⟨first, more, coming, buffer, offset, eof⟩ | ⟨coming, buffer, offset, eof⟩ |
    ⟨coming, buffer, offset, eof⟩⟩ := receive_cases received
  · have pending := pending_append buffer offset
    simp [stream, pending, open', eof, coming, delivered]
  · simp [stream, pending, buffer, offset, open', eof, coming, delivered]
  · simp [stream, pending, buffer, offset, open', eof, coming, delivered]

theorem receive_ends (received : reader.receive = .ok next) : next.ends = reader.ends := by
  obtain ⟨open', ⟨first, more, coming, -, -, eof⟩ | ⟨coming, -, -, eof⟩ | ⟨coming, -, -, eof⟩⟩ :=
    receive_cases received
  · simp [ends, open', eof, coming, closes]
  · simp [ends, open', eof, coming, closes]
  · simp [ends, open', eof, coming, closes]

/-- Behind a cleared buffer, what is received is all that is pending. -/
theorem pending_of_cleared (cleared : reader.buffer = []) (received : reader.receive = .ok next) :
    next.pending = next.buffer := by
  have start : reader.offset = 0 := Nat.le_zero.mp (by simpa [cleared] using reader.inside)
  have same : next.offset = reader.offset := by
    obtain ⟨-, ⟨-, -, -, -, offset, -⟩ | ⟨-, -, offset, -⟩ | ⟨-, -, offset, -⟩⟩ := receive_cases received
    all_goals exact offset
  rw [pending, same, start, List.drop_zero]

/-- A receive that fails leaves nothing behind what is pending, and no end that was not there. -/
theorem receive_error (received : reader.receive = .error failure) :
    reader.stream = reader.pending ∧ (reader.eof = false → reader.ends = false) := by
  rw [receive] at received
  split at received
  next eof => simp [stream, eof]
  next open' =>
      split at received
      next coming => simp [stream, ends, open', coming, delivered, closes]
      next => cases received
      next => cases received
      next => cases received
      next coming => simp [stream, ends, open', coming, delivered, closes]
      next coming => simp [stream, ends, open', coming, delivered, closes]

end Buffer

/-! ## Loops -/

section Loops

variable {α : Type} {take : SocketReader → Except Failure (Option (α × SocketReader))}
variable {reader next : SocketReader} {failure : Failure}

/-- What a loop takes it takes off the same stream, at some later moment. -/
theorem receiveUntil_ok {taken : α × SocketReader} (read : receiveUntil take reader = .ok taken) :
    ∃ last : SocketReader, last.stream = reader.stream ∧ last.ends = reader.ends ∧
      take last = .ok (some taken) := by
  fun_induction receiveUntil take reader with
  | case1 => cases read
  | case2 reader given took =>
      cases read
      exact ⟨reader, rfl, rfl, took⟩
  | case3 => cases read
  | case4 reader nothing next received inductionHypothesis =>
      obtain ⟨last, stream, ends, took⟩ := inductionHypothesis read
      exact ⟨last, stream.trans (receive_stream received), ends.trans (receive_ends received), took⟩

/-- A loop fails where its own check does, or with the whole stream before it. -/
theorem receiveUntil_error (read : receiveUntil take reader = .error failure) :
    ∃ last : SocketReader, last.stream = reader.stream ∧
      (take last = .error failure ∨ (take last = .ok none ∧ last.pending = reader.stream)) := by
  fun_induction receiveUntil take reader with
  | case1 reader thrown took =>
      cases read
      exact ⟨reader, rfl, .inl took⟩
  | case2 => cases read
  | case3 reader nothing thrown received =>
      exact ⟨reader, rfl, .inr ⟨nothing, (receive_error received).1.symm⟩⟩
  | case4 reader nothing next received inductionHypothesis =>
      obtain ⟨last, stream, failed⟩ := inductionHypothesis read
      rw [receive_stream received] at stream failed
      exact ⟨last, stream, failed⟩

end Loops

/-! ## Reads -/

section Reads

variable {reader next : SocketReader} {limit size : Nat} {text behind : Bytes} {failure : Failure}

/-- A line is what is in front of the first line break of the stream. -/
theorem line_ok (read : reader.line limit = .ok (text, next)) :
    cut crlf reader.stream = some (text, next.stream) ∧ next.ends = reader.ends := by
  obtain ⟨last, stream, ends, took⟩ := receiveUntil_ok read
  split at took
  next front rest found =>
      cases took
      rw [← stream, ← ends, stream_compact, stream_advance, ends_compact, ends_advance, SocketReader.stream]
      have whole := cut_append found (if last.eof = true then [] else delivered last.incoming)
      refine ⟨?_, rfl⟩
      rw [whole, append_of_cut whole, ← List.append_assoc]
      have size : (text ++ crlf).length = text.length + 2 := List.length_append
      rw [List.drop_left' size]
  next =>
      split at took
      next => cases took
      next => cases took

/-- A line whose length is below the limit is read. -/
theorem line_error (read : reader.line limit = .error failure)
    (found : cut crlf reader.stream = some (text, behind)) : limit ≤ text.length := by
  obtain ⟨last, stream, failed | ⟨nothing, whole⟩⟩ := receiveUntil_error read
  · split at failed
    next => cases failed
    next uncut =>
        split at failed
        next oversized =>
            rw [← stream] at found
            have short := length_lt_of_cut_append (List.cons_ne_nil _ _) found uncut
            simp only [List.length_cons, List.length_nil] at short
            omega
        next => cases failed
  · rw [← whole] at found
    split at nothing
    next => cases nothing
    next uncut =>
        rw [found] at uncut
        cases uncut

/-- A line that the stream has is read. -/
theorem line_read (found : cut crlf reader.stream = some (text, behind)) (short : text.length < limit) :
    ∃ next, reader.line limit = .ok (text, next) ∧ next.stream = behind ∧ next.ends = reader.ends := by
  cases read : reader.line limit with
  | error failure => exact absurd (line_error read found) (Nat.not_le.mpr short)
  | ok result =>
      have same := (line_ok read).1
      rw [found, Option.some.injEq, Prod.mk.injEq] at same
      exact ⟨result.2, by rw [same.1], same.2.symm, (line_ok read).2⟩

theorem exact_ok (read : reader.exact size = .ok (text, next)) :
    text.length = size ∧ reader.stream = text ++ next.stream ∧ next.ends = reader.ends := by
  obtain ⟨last, stream, ends, took⟩ := receiveUntil_ok read
  split at took
  next there =>
      cases took
      rw [← stream, ← ends, stream_compact, stream_advance, ends_compact, ends_advance]
      have front : last.pending.take size = last.stream.take size :=
        (List.take_append_of_le_length there).symm
      refine ⟨List.length_take_of_le there, ?_, rfl⟩
      rw [front, List.take_append_drop]
  next => cases took

theorem exact_error (read : reader.exact size = .error failure) : reader.stream.length < size := by
  obtain ⟨last, stream, failed | ⟨nothing, whole⟩⟩ := receiveUntil_error read
  · split at failed
    next => cases failed
    next => cases failed
  · split at nothing
    next => cases nothing
    next few =>
        rw [whole] at few
        exact Nat.lt_of_not_le few

/-- Bytes that the stream has are read. -/
theorem exact_read (whole : reader.stream = text ++ behind) :
    ∃ next, reader.exact text.length = .ok (text, next) ∧ next.stream = behind ∧ next.ends = reader.ends := by
  cases read : reader.exact text.length with
  | error failure =>
      have few := exact_error read
      rw [whole, List.length_append] at few
      omega
  | ok result =>
      obtain ⟨size, same, ends⟩ := exact_ok read
      rw [whole] at same
      obtain ⟨rfl, rest⟩ := List.append_inj same size.symm
      exact ⟨result.2, rfl, rest.symm, ends⟩

/-- What is read to the end is all there is, and the end has been seen. -/
theorem untilEofLoop_ok {out body : Bytes} (cleared : reader.buffer = [])
    (read : untilEofLoop limit out reader = .ok (body, next)) :
    body = out ++ reader.stream ∧ reader.ends = true ∧
      (reader.eof = false ∨ out.length ≤ limit → body.length ≤ limit) := by
  fun_induction untilEofLoop limit out reader with
  | case1 out reader eof =>
      cases read
      simp [stream, ends, pending, cleared, eof]
  | case2 => cases read
  | case3 => cases read
  | case4 out reader open' after received fits inductionHypothesis =>
      obtain ⟨whole, ended, bounded⟩ := inductionHypothesis rfl read
      rw [← receive_ends received, ← receive_stream received, stream, pending_of_cleared cleared received]
      exact ⟨whole.trans (List.append_assoc _ _ _), ended, fun _ => bounded (.inr (Nat.le_of_not_lt fits))⟩

/-- A stream that ends within the limit is read to its end. -/
theorem untilEofLoop_error {out : Bytes} (cleared : reader.buffer = [])
    (read : untilEofLoop limit out reader = .error failure) (ended : reader.ends = true) :
    limit < (out ++ reader.stream).length := by
  fun_induction untilEofLoop limit out reader with
  | case1 => cases read
  | case2 out reader open' thrown received =>
      rw [(receive_error received).2 (Bool.eq_false_of_not_eq_true open')] at ended
      cases ended
  | case3 out reader open' after received oversized =>
      rw [← receive_stream received, stream, pending_of_cleared cleared received, ← List.append_assoc,
        List.length_append]
      exact Nat.lt_add_right _ oversized
  | case4 out reader open' after received fits inductionHypothesis =>
      rw [← receive_ends received] at ended
      rw [← receive_stream received, stream, pending_of_cleared cleared received, ← List.append_assoc]
      exact inductionHypothesis rfl read ended

/-- What is read to the end is the stream. -/
theorem untilEof_ok (fresh : reader.eof = false) (read : reader.untilEof limit = .ok (text, next)) :
    text = reader.stream ∧ reader.ends = true ∧ text.length ≤ limit := by
  obtain ⟨whole, ended, bounded⟩ := untilEofLoop_ok rfl read
  exact ⟨whole, ended, bounded (.inl fresh)⟩

theorem untilEof_read (ended : reader.ends = true) (small : reader.stream.length ≤ limit) :
    ∃ next, reader.untilEof limit = .ok (reader.stream, next) := by
  cases read : reader.untilEof limit with
  | error failure =>
      have oversized := untilEofLoop_error rfl read ended
      exact absurd small (Nat.not_le.mpr oversized)
  | ok result =>
      have whole : result.1 = reader.stream := (untilEofLoop_ok rfl read).1
      exact ⟨result.2, by rw [← whole]⟩

end Reads

/-! ## Patience -/

section Patience

variable {α : Type} {ending limit size : Nat} {reader next : SocketReader}

/-- The results with bytes in them that are still out. -/
def arrivals (ending : Nat) (reader : SocketReader) : Nat :=
  if reader.eof = true then ending else Tailscale.arrivals ending reader.incoming

attribute [grind =] arrivals

/-- A read that takes at most so many results with bytes off the socket, and does not wait for more. -/
def Takes (ending count : Nat) (reader : SocketReader) : Except Failure (α × SocketReader) → Prop :=
  Within (· = .waiting) (fun result => result.2.arrivals ending) (reader.arrivals ending) count

/-- Number of results after which more than the limit is pending. -/
def patience (limit : Nat) (reader : SocketReader) : Nat := limit + 1 - reader.pending.length

/-- Every result with bytes is taken off the patience. -/
theorem receive_patience (received : reader.receive = .ok next) (few : reader.pending.length ≤ limit) :
    reader.arrivals ending + next.patience limit ≤ next.arrivals ending + reader.patience limit := by
  obtain ⟨open', ⟨first, more, coming, buffer, offset, eof⟩ | ⟨coming, buffer, offset, eof⟩ |
    ⟨coming, buffer, offset, eof⟩⟩ := receive_cases received
  · have pending := pending_append buffer offset
    simp [arrivals, patience, open', eof, coming, pending, Tailscale.arrivals]
    omega
  · simp [arrivals, patience, pending, buffer, offset, open', eof, coming, Tailscale.arrivals]
  · simp [arrivals, patience, pending, buffer, offset, open', eof, coming, Tailscale.arrivals]

theorem receive_waiting (received : reader.receive = .error .waiting) : reader.arrivals ending = 0 := by
  rw [receive] at received
  split at received
  next => cases received
  next open' =>
      split at received
      next coming => simp [arrivals, open', coming, Tailscale.arrivals]
      all_goals cases received

theorem receiveUntil_takes (limit : Nat) {take : SocketReader → Except Failure (Option (α × SocketReader))}
    (keeps : ∀ {reader value next}, take reader = .ok (some (value, next)) →
      next.eof = reader.eof ∧ next.incoming = reader.incoming)
    (few : ∀ {reader}, take reader = .ok none → reader.pending.length ≤ limit)
    (decides : ∀ {reader}, take reader ≠ .error .waiting) :
    Takes ending (reader.patience limit) reader (receiveUntil take reader) := by
  fun_induction receiveUntil take reader with
  | case1 reader thrown took =>
      apply Within.of_error
      rintro rfl
      exact decides took
  | case2 reader given took =>
      have same : given.2.arrivals ending = reader.arrivals ending := by
        rw [arrivals, arrivals, (keeps took).1, (keeps took).2]
      exact Nat.le_add_right_of_le (Nat.le_of_eq same.symm)
  | case3 reader nothing thrown received =>
      rintro rfl
      rw [receive_waiting received]
      exact Nat.zero_le _
  | case4 reader nothing next received inductionHypothesis =>
      exact inductionHypothesis.earlier (receive_patience received (few nothing))

theorem line_takes : Takes ending (limit + 1) reader (reader.line limit) := by
  refine (receiveUntil_takes limit ?_ ?_ ?_).mono (Nat.sub_le _ _)
  · intro reader value next took
    split at took
    next =>
        cases took
        exact ⟨eof_compact, incoming_compact⟩
    next =>
        split at took
        all_goals cases took
  · intro reader nothing
    split at nothing
    next => cases nothing
    next =>
        split at nothing
        next => cases nothing
        next fits => exact Nat.le_of_not_lt fits
  · intro reader waiting
    split at waiting
    next => cases waiting
    next =>
        split at waiting
        all_goals cases waiting

theorem exact_takes : Takes ending (size + 1) reader (reader.exact size) := by
  refine (receiveUntil_takes size ?_ ?_ ?_).mono (Nat.sub_le _ _)
  · intro reader value next took
    split at took
    next =>
        cases took
        exact ⟨eof_compact, incoming_compact⟩
    next => cases took
  · intro reader nothing
    split at nothing
    next => cases nothing
    next few => exact Nat.le_of_not_le few
  · intro reader waiting
    split at waiting
    all_goals cases waiting

theorem untilEofLoop_takes {out : Bytes} (cleared : reader.buffer = []) :
    Takes ending (limit + 1 - out.length) reader (untilEofLoop limit out reader) := by
  fun_induction untilEofLoop limit out reader with
  | case1 => exact Nat.le_add_right _ _
  | case2 out reader open' thrown received =>
      rintro rfl
      rw [receive_waiting received]
      exact Nat.zero_le _
  | case3 => exact Within.of_error (by rintro ⟨⟩)
  | case4 out reader open' after received fits inductionHypothesis =>
      refine (inductionHypothesis rfl).earlier ?_
      obtain ⟨-, ⟨first, more, coming, buffer, offset, eof⟩ | ⟨coming, buffer, offset, eof⟩ |
        ⟨coming, buffer, offset, eof⟩⟩ := receive_cases received
      · rw [buffer, cleared] at fits ⊢
        simp only [List.nil_append, List.length_append, List.length_cons] at fits
        simp [arrivals, open', eof, coming, Tailscale.arrivals]
        omega
      · simp [arrivals, open', eof, coming, buffer, cleared, Tailscale.arrivals]
      · simp [arrivals, open', eof, coming, buffer, cleared, Tailscale.arrivals]

theorem untilEof_takes : Takes ending (limit + 1) reader (reader.untilEof limit) :=
  (untilEofLoop_takes rfl).mono (Nat.sub_le _ _)

end Patience

end SocketReader

end VgiRpc.Tailscale
