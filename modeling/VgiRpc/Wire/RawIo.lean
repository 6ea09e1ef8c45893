import VgiRpc.Cpp.Text
import VgiRpc.Lib.Transfer

/-!
# Reading and writing file descriptors

`write_all_fd` and `read_full_fd` loop over the short counts of the kernel, which moves as
much as it likes of what it is asked for and may be interrupted at any time.  The answers of
the kernel are a list; where it ends, the loop is still waiting for the next one.
-/

namespace VgiRpc.Wire

open VgiRpc.Cpp VgiRpc.Lib.Transfer

/-- Largest count handed to a single system call. -/
def kMaxIoChunk : Nat := 2 ^ 30

inductive Errno where
  | eintr
  | eagain
  | ewouldblock
  | epipe
  | other (code : Nat)
  deriving DecidableEq, Repr

/-- What a system call returns: a count, or -1 with `errno`. -/
inductive Answer where
  | count (amount : Nat)
  | error (errno : Errno)
  deriving DecidableEq, Repr

/-- `arrow::Status`. -/
inductive Status where
  | ok
  | ioError (message : Bytes)
  | invalid (message : Bytes)
  deriving DecidableEq, Repr

/-- What the kernel puts into a read of `size` bytes: at least one of those that are left, and
none only at the end of the stream. -/
def delivered (source : Bytes) (size amount : Nat) : Bytes := source.take (min (max amount 1) size)

section Loops

variable (strerror : Errno → Bytes)

/-- The loop of `write_all_fd`. -/
def writeLoop (data : Bytes) (nbytes : Nat) : Nat → List Answer → Sent UInt8 Status
  | written, answers =>
      if written < nbytes then
        let chunk := Request.next kMaxIoChunk nbytes written
        match answers with
        | [] => ⟨none, [], [chunk]⟩
        | .error .eintr :: answers => (writeLoop data nbytes written answers).after [chunk] []
        | .error .epipe :: _ => .stop (.ioError (ascii "Broken pipe")) [chunk]
        | .error errno :: _ => .stop (.ioError (ascii "Write failed: " ++ strerror errno)) [chunk]
        | .count amount :: answers =>
            let piece := (data.drop written).take (min amount chunk.size)
            if piece = [] then .stop (.ioError (ascii "Write made no progress")) [chunk]
            else (writeLoop data nbytes (written + piece.length) answers).after [chunk] piece
      else .stop .ok []

/-- `write_all_fd`. -/
def writeAllFd (data : Bytes) (nbytes : Int) (answers : List Answer) : Sent UInt8 Status :=
  writeLoop strerror data nbytes.toNat 0 answers

/-- The loop of `read_full_fd`. -/
def readLoop (nbytes : Nat) : Nat → Bytes → Bytes → List Answer → Received UInt8 Status
  | total, out, source, answers =>
      if total < nbytes then
        let chunk := Request.next kMaxIoChunk nbytes total
        match answers with
        | [] => ⟨none, out, source, [chunk]⟩
        | .error .eintr :: answers => (readLoop nbytes total out source answers).after [chunk]
        | .error errno :: _ =>
            ⟨some (.error (.ioError (ascii "Read failed: " ++ strerror errno))), out, source, [chunk]⟩
        | .count amount :: answers =>
            let piece := delivered source chunk.size amount
            if piece = [] then ⟨some (.ok total), out, source, [chunk]⟩
            else
              (readLoop nbytes (total + piece.length) (place out total piece)
                (source.drop piece.length) answers).after [chunk]
      else ⟨some (.ok total), out, source, []⟩

/-- `read_full_fd`. -/
def readFullFd (nbytes : Int) (out source : Bytes) (answers : List Answer) : Received UInt8 Status :=
  readLoop strerror nbytes.toNat 0 out source answers

/-! ## Streams -/

/-- The fields of a stream over a descriptor that its calls change. -/
structure FdStream where
  closed : Bool
  position : Int64
  deriving DecidableEq, Repr

namespace FdStream

def fresh : FdStream := ⟨false, 0⟩

def close (stream : FdStream) : FdStream := { stream with closed := true }

def advance (stream : FdStream) (amount : Int) : FdStream :=
  { stream with position := stream.position + Int64.ofInt amount }

end FdStream

/-- A closed stream refuses to write; the position of an open one goes up if all is written. -/
def FdStream.write (stream : FdStream) (closedText : String) (amount : Int)
    (sent : Sent UInt8 Status) : FdStream × Sent UInt8 Status :=
  if stream.closed then (stream, .stop (.ioError (ascii closedText)) [])
  else if sent.status = some .ok then (stream.advance amount, sent)
  else (stream, sent)

/-- A closed stream refuses to read; the position of an open one goes up by what it returns. -/
def FdStream.read (stream : FdStream) (closedText : String) (out source : Bytes)
    (received : Received UInt8 Status) : FdStream × Received UInt8 Status :=
  if stream.closed then (stream, ⟨some (.error (.ioError (ascii closedText))), out, source, []⟩)
  else
    match received.status with
    | some (.ok n) => (stream.advance n, received)
    | _ => (stream, received)

/-- `FdOutputStream::Write`. -/
def FdOutputStream.write (stream : FdStream) (data : Bytes) (nbytes : Int) (answers : List Answer) :
    FdStream × Sent UInt8 Status :=
  stream.write "FdOutputStream is closed" nbytes (writeAllFd strerror data nbytes answers)

/-- `FdInputStream::Read`. -/
def FdInputStream.read (stream : FdStream) (nbytes : Int) (out source : Bytes)
    (answers : List Answer) : FdStream × Received UInt8 Status :=
  stream.read "FdInputStream is closed" out source (readFullFd strerror nbytes out source answers)

/-- A call of a stream that writes; `nbytes` is the size of the data. -/
inductive FdOutputStream.Call where
  | write (data : Bytes) (answers : List Answer)
  | close

/-- The stream after a call, and what a call that ended well handed over. -/
def FdOutputStream.call (stream : FdStream) : FdOutputStream.Call → FdStream × Nat
  | .write data answers =>
      let (next, sent) := FdOutputStream.write strerror stream data data.length answers
      (next, sent.moved .ok)
  | .close => (stream.close, 0)

/-- A call of a stream that reads; `nbytes` is the size of the buffer. -/
inductive FdInputStream.Call where
  | read (out : Bytes) (answers : List Answer)
  | close

/-- The stream and what is left of its source after a call, and what a call that ended well
took from it. -/
def FdInputStream.call (state : FdStream × Bytes) :
    FdInputStream.Call → (FdStream × Bytes) × Nat
  | .read out answers =>
      let (next, received) := FdInputStream.read strerror state.1 out.length out state.2 answers
      ((next, received.source), received.moved state.2)
  | .close => ((state.1.close, state.2), 0)

/-! ## What the loops move -/

theorem kMaxIoChunk_pos : 0 < kMaxIoChunk := by decide

theorem within_chunk {limit offset : Nat} (more : offset < limit) :
    ∀ request ∈ [Request.next kMaxIoChunk limit offset], request.Within kMaxIoChunk limit := by
  rw [List.forall_mem_singleton]
  exact Request.within_next kMaxIoChunk_pos more

theorem delivered_front (source : Bytes) (size amount : Nat) :
    delivered source size amount <+: source :=
  List.take_prefix _ _

theorem length_delivered_le (source : Bytes) (size amount : Nat) :
    (delivered source size amount).length ≤ size := by
  rw [delivered, List.length_take]
  omega

/-- A read of something comes back empty only at the end of the stream. -/
theorem delivered_eq_nil_iff {source : Bytes} {size amount : Nat} (some : 0 < size) :
    delivered source size amount = [] ↔ source = [] := by
  have asked : min (max amount 1) size ≠ 0 := by omega
  rw [delivered, List.take_eq_nil_iff, or_iff_right asked]

theorem writeLoop_sends (data : Bytes) (written : Nat) (answers : List Answer) :
    Sends .ok kMaxIoChunk data written (writeLoop strerror data data.length written answers) := by
  fun_induction writeLoop strerror data data.length written answers with
  | case1 written more chunk => exact .unfinished more (by simp) (within_chunk more)
  | case2 written more chunk answers ih =>
      exact .after List.nil_prefix ih (within_chunk more)
  | case3 written more chunk answers => exact .unfinished more (by simp) (within_chunk more)
  | case4 written more chunk errno answers => exact .unfinished more (by simp) (within_chunk more)
  | case5 written more chunk amount answers piece stuck =>
      exact .unfinished more (by simp) (within_chunk more)
  | case6 written more chunk amount answers piece moved ih =>
      exact .after (List.take_prefix _ _) ih (within_chunk more)
  | case7 written answers all => exact .done (Nat.le_of_not_lt all)

/-- What the kernel delivers for a chunk fits behind what is there. -/
theorem delivered_fits {limit offset : Nat} (source : Bytes) (amount : Nat) (more : offset < limit) :
    offset + (delivered source (Request.next kMaxIoChunk limit offset).size amount).length ≤ limit :=
  calc
    _ ≤ offset + (Request.next kMaxIoChunk limit offset).size :=
      Nat.add_le_add_left (length_delivered_le _ _ _) offset
    _ ≤ limit := (Request.within_next kMaxIoChunk_pos more).inside

theorem readLoop_receives {nbytes : Nat} (total : Nat) (out source : Bytes) (answers : List Answer)
    (sized : out.length = nbytes) (fits : total ≤ nbytes) :
    Receives kMaxIoChunk out source total (readLoop strerror nbytes total out source answers) := by
  fun_induction readLoop strerror nbytes total out source answers with
  | case1 total out source more chunk =>
      subst sized
      exact .unfinished more (by simp) (within_chunk more)
  | case2 total out source more chunk answers ih =>
      subst sized
      exact .after (ih rfl fits) (within_chunk more)
  | case3 total out source more chunk errno answers =>
      subst sized
      exact .unfinished more (by simp) (within_chunk more)
  | case4 total out source more chunk amount answers piece empty =>
      subst sized
      have asked := (Request.within_next kMaxIoChunk_pos more).positive
      obtain rfl := (delivered_eq_nil_iff asked).mp empty
      exact .ended more (within_chunk more)
  | case5 total out source more chunk amount answers piece moved ih =>
      subst sized
      have room : total + piece.length ≤ out.length := delivered_fits source amount more
      have rest := ih (length_place room) room
      exact .after (.place (delivered_front _ _ _) room rest) (within_chunk more)
  | case6 total out source answers all => exact .full (by omega)

theorem writeAllFd_sends (data : Bytes) (answers : List Answer) :
    Sends .ok kMaxIoChunk data 0 (writeAllFd strerror data data.length answers) :=
  writeLoop_sends strerror data 0 answers

theorem readFullFd_receives (out source : Bytes) (answers : List Answer) :
    Receives kMaxIoChunk out source 0 (readFullFd strerror out.length out source answers) :=
  readLoop_receives strerror 0 out source answers rfl (Nat.zero_le _)

/-! ## What the answers come to -/

/-- What an answer comes to in a loop that writes. -/
def Answer.writes : Answer → Outcome Status
  | .error .eintr => .again
  | .error .epipe => .fails (.ioError (ascii "Broken pipe"))
  | .error errno => .fails (.ioError (ascii "Write failed: " ++ strerror errno))
  | .count 0 => .fails (.ioError (ascii "Write made no progress"))
  | .count (amount + 1) => .moves (min (amount + 1) kMaxIoChunk)

/-- What an answer comes to in a loop that reads. -/
def Answer.reads : Answer → Outcome Status
  | .error .eintr => .again
  | .error errno => .fails (.ioError (ascii "Read failed: " ++ strerror errno))
  | .count amount => .moves (min (max amount 1) kMaxIoChunk)

/-- A piece of what is left is as much of it as the answer and the chunk allow. -/
theorem take_chunk (data : Bytes) (written amount : Nat) :
    (data.drop written).take (min amount (Request.next kMaxIoChunk data.length written).size) =
      (data.drop written).take (min amount kMaxIoChunk) := by
  simp only [List.take_eq_take_iff, List.length_drop, Request.next]
  omega

/-- Nothing is handed over of data that is left only if the count is zero. -/
theorem amount_eq_zero {data : Bytes} {written amount : Nat} (more : written < data.length)
    (stuck : (data.drop written).take
      (min amount (Request.next kMaxIoChunk data.length written).size) = []) : amount = 0 := by
  have asked := (Request.within_next kMaxIoChunk_pos more).positive
  rw [List.take_eq_nil_iff, List.drop_eq_nil_iff] at stuck
  omega

theorem exists_amount {data : Bytes} {amount size : Nat}
    (moved : data.take (min amount size) ≠ []) : ∃ count, amount = count + 1 := by
  refine Nat.exists_eq_succ_of_ne_zero fun zero => moved ?_
  rw [zero, Nat.zero_min, List.take_zero]

theorem writeLoop_sendsBy (data : Bytes) (written : Nat) (answers : List Answer) :
    SendsBy .ok data written (answers.map (·.writes strerror))
      (writeLoop strerror data data.length written answers) := by
  fun_induction writeLoop strerror data data.length written answers with
  | case1 written more chunk => exact .idle more
  | case2 written more chunk answers ih => exact .again ih
  | case3 written more chunk answers => exact .fails _ more
  | case4 written more chunk errno answers interrupted broken =>
      have fails : Answer.writes strerror (.error errno) =
          .fails (.ioError (ascii "Write failed: " ++ strerror errno)) := by
        cases errno <;> first | rfl | contradiction
      rw [List.map_cons, fails]
      exact .fails _ more
  | case5 written more chunk amount answers piece stuck =>
      obtain rfl := amount_eq_zero more stuck
      exact .fails _ more
  | case6 written more chunk amount answers piece moved ih =>
      obtain ⟨count, rfl⟩ := exists_amount moved
      exact .moves (take_chunk data written _) ih
  | case7 written answers all => exact .done (Nat.le_of_not_lt all)

theorem delivered_chunk (source : Bytes) (limit offset amount : Nat) :
    delivered source (Request.next kMaxIoChunk limit offset).size amount =
      source.take (min (min (max amount 1) kMaxIoChunk) (limit - offset)) := by
  rw [delivered, Request.next, Nat.min_comm (limit - offset), Nat.min_assoc]

theorem readLoop_receivesBy {nbytes : Nat} (total : Nat) (out source : Bytes)
    (answers : List Answer) (sized : out.length = nbytes) (fits : total ≤ nbytes) :
    ReceivesBy out source total (answers.map (·.reads strerror))
      (readLoop strerror nbytes total out source answers) := by
  fun_induction readLoop strerror nbytes total out source answers with
  | case1 total out source more chunk =>
      subst sized
      exact .idle more
  | case2 total out source more chunk answers ih => exact .again (ih sized fits)
  | case3 total out source more chunk errno answers interrupted =>
      subst sized
      have fails : Answer.reads strerror (.error errno) =
          .fails (.ioError (ascii "Read failed: " ++ strerror errno)) := by
        cases errno <;> first | rfl | contradiction
      rw [List.map_cons, fails]
      exact .fails _ more
  | case4 total out source more chunk amount answers piece empty =>
      subst sized
      have asked := (Request.within_next kMaxIoChunk_pos more).positive
      obtain rfl := (delivered_eq_nil_iff asked).mp empty
      exact .atEnd more
  | case5 total out source more chunk amount answers piece moved ih =>
      subst sized
      have room : total + piece.length ≤ out.length := delivered_fits source amount more
      have left : source ≠ [] := by
        rintro rfl
        exact moved List.take_nil
      exact .moves (delivered_chunk source out.length total amount) left
        (ih (length_place room) room) fits
  | case6 total out source answers all =>
      subst sized
      exact .done (by omega)

theorem writeAllFd_sendsBy (data : Bytes) (answers : List Answer) :
    SendsBy .ok data 0 (answers.map (·.writes strerror))
      (writeAllFd strerror data data.length answers) :=
  writeLoop_sendsBy strerror data 0 answers

theorem readFullFd_receivesBy (out source : Bytes) (answers : List Answer) :
    ReceivesBy out source 0 (answers.map (·.reads strerror))
      (readFullFd strerror out.length out source answers) :=
  readLoop_receivesBy strerror 0 out source answers rfl (Nat.zero_le _)

/-! ## Returning -/

/-- The answers that are no interruptions. -/
def settled (answers : List Answer) : Nat := answers.countP (· ≠ .error .eintr)

@[simp] theorem settled_eintr (answers : List Answer) :
    settled (.error .eintr :: answers) = settled answers :=
  List.countP_cons_of_neg (by simp)

@[simp] theorem settled_count (amount : Nat) (answers : List Answer) :
    settled (.count amount :: answers) = settled answers + 1 :=
  List.countP_cons_of_pos (by simp)

/-- A loop that writes has returned once it is settled as often as there are bytes. -/
theorem writeLoop_returns {nbytes : Nat} (data : Bytes) (written : Nat) (answers : List Answer)
    (enough : nbytes ≤ written + settled answers) :
    (writeLoop strerror data nbytes written answers).status ≠ none := by
  fun_induction writeLoop strerror data nbytes written answers with
  | case1 written more chunk => exact (Nat.not_le_of_lt more enough).elim
  | case2 written more chunk answers ih =>
      rw [settled_eintr] at enough
      exact ih enough
  | case3 written more chunk answers => exact Option.some_ne_none _
  | case4 written more chunk errno answers => exact Option.some_ne_none _
  | case5 written more chunk amount answers piece stuck => exact Option.some_ne_none _
  | case6 written more chunk amount answers piece moved ih =>
      have some := List.length_pos_iff.mpr moved
      rw [settled_count] at enough
      exact ih (by omega)
  | case7 written answers all => exact Option.some_ne_none _

/-- A loop that reads has returned once it is settled as often as there is room. -/
theorem readLoop_returns {nbytes : Nat} (total : Nat) (out source : Bytes) (answers : List Answer)
    (enough : nbytes ≤ total + settled answers) :
    (readLoop strerror nbytes total out source answers).status ≠ none := by
  fun_induction readLoop strerror nbytes total out source answers with
  | case1 total out source more chunk => exact (Nat.not_le_of_lt more enough).elim
  | case2 total out source more chunk answers ih =>
      rw [settled_eintr] at enough
      exact ih enough
  | case3 total out source more chunk errno answers => exact Option.some_ne_none _
  | case4 total out source more chunk amount answers piece empty => exact Option.some_ne_none _
  | case5 total out source more chunk amount answers piece moved ih =>
      have some := List.length_pos_iff.mpr moved
      rw [settled_count] at enough
      exact ih (by omega)
  | case6 total out source answers all => exact Option.some_ne_none _

theorem writeAllFd_returns {data : Bytes} {answers : List Answer}
    (enough : data.length ≤ settled answers) :
    (writeAllFd strerror data data.length answers).status ≠ none :=
  writeLoop_returns strerror data 0 answers (by rwa [Int.toNat_natCast, Nat.zero_add])

theorem readFullFd_returns {out : Bytes} (source : Bytes) {answers : List Answer}
    (enough : out.length ≤ settled answers) :
    (readFullFd strerror out.length out source answers).status ≠ none :=
  readLoop_returns strerror 0 out source answers (by rwa [Int.toNat_natCast, Nat.zero_add])

/-! ## Positions -/

@[simp] theorem FdStream.write_closed {stream : FdStream} (closed : stream.closed = true)
    (closedText : String) (amount : Int) (sent : Sent UInt8 Status) :
    stream.write closedText amount sent = (stream, .stop (.ioError (ascii closedText)) []) :=
  if_pos closed

@[simp] theorem FdStream.read_closed {stream : FdStream} (closed : stream.closed = true)
    (closedText : String) (out source : Bytes) (received : Received UInt8 Status) :
    stream.read closedText out source received =
      (stream, ⟨some (.error (.ioError (ascii closedText))), out, source, []⟩) :=
  if_pos closed

/-- An open stream returns what its transfer does. -/
theorem FdStream.write_open {stream : FdStream} (opened : ¬stream.closed = true)
    (closedText : String) (amount : Int) (sent : Sent UInt8 Status) :
    (stream.write closedText amount sent).2 = sent := by
  rw [FdStream.write, if_neg opened]
  split_ifs <;> rfl

theorem FdStream.read_open {stream : FdStream} (opened : ¬stream.closed = true)
    (closedText : String) (out source : Bytes) (received : Received UInt8 Status) :
    (stream.read closedText out source received).2 = received := by
  rw [FdStream.read, if_neg opened]
  split <;> rfl

theorem FdStream.position_advance (stream : FdStream) (amount : Nat) :
    (stream.advance amount).position = stream.position + Int64.ofNat amount := by
  rw [FdStream.advance, Int64.ofInt_eq_ofNat]

theorem FdStream.write_position (stream : FdStream) (closedText : String) {amount : Nat}
    {sent : Sent UInt8 Status} (all : sent.status = some .ok → sent.moved .ok = amount) :
    (stream.write closedText amount sent).1.position =
      stream.position + Int64.ofNat ((stream.write closedText amount sent).2.moved .ok) := by
  rw [FdStream.write]
  split_ifs with closed ended
  · exact (Int64.add_zero _).symm
  · rw [FdStream.position_advance, all ended]
  · rw [Sent.moved, if_neg ended]
    exact (Int64.add_zero _).symm

theorem FdStream.read_position (stream : FdStream) (closedText : String) {out source : Bytes}
    {received : Received UInt8 Status} (receives : Receives kMaxIoChunk out source 0 received) :
    (stream.read closedText out source received).1.position =
      stream.position +
        Int64.ofNat ((stream.read closedText out source received).2.moved source) := by
  rw [FdStream.read]
  split_ifs with closed
  · exact (Int64.add_zero _).symm
  · match ended : received.status with
    | some (.ok n) => rw [FdStream.position_advance, receives.moved_eq ended]
    | some (.error _) | none =>
        rw [Received.moved, ended]
        exact (Int64.add_zero _).symm

theorem FdOutputStream.call_position (stream : FdStream) (call : FdOutputStream.Call) :
    (FdOutputStream.call strerror stream call).1.position =
      stream.position + Int64.ofNat (FdOutputStream.call strerror stream call).2 := by
  cases call with
  | write data answers =>
      exact stream.write_position _ (writeAllFd_sends strerror data answers).moved_eq
  | close => exact (Int64.add_zero _).symm

theorem FdInputStream.call_position (state : FdStream × Bytes) (call : FdInputStream.Call) :
    (FdInputStream.call strerror state call).1.1.position =
      state.1.position + Int64.ofNat (FdInputStream.call strerror state call).2 := by
  cases call with
  | read out answers =>
      exact state.1.read_position _ (readFullFd_receives strerror out state.2 answers)
  | close => exact (Int64.add_zero _).symm

/-- The position of a new stream that writes, after any calls. -/
theorem FdOutputStream.position_calls (calls : List FdOutputStream.Call) :
    (callAll (FdOutputStream.call strerror) .fresh calls).1.position =
      Int64.ofNat (callAll (FdOutputStream.call strerror) .fresh calls).2 :=
  callAll_count_zero _ FdStream.position (FdOutputStream.call_position strerror) rfl calls

/-- The position of a new stream that reads, after any calls. -/
theorem FdInputStream.position_calls (source : Bytes) (calls : List FdInputStream.Call) :
    (callAll (FdInputStream.call strerror) (.fresh, source) calls).1.1.position =
      Int64.ofNat (callAll (FdInputStream.call strerror) (.fresh, source) calls).2 :=
  callAll_count_zero _ (fun state : FdStream × Bytes => state.1.position)
    (FdInputStream.call_position strerror) rfl calls

end Loops

end VgiRpc.Wire
