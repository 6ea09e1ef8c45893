import VgiRpc.Socket.Listener
import VgiRpc.Wire.RawIo

/-!
# Streams over a socket with deadlines

A turn of their loops reads the clock, polls, and then sends or receives without blocking.
A turn that would have blocked is made again; one that stands at the deadline is the last.
-/

namespace VgiRpc.Socket

open VgiRpc.Cpp VgiRpc.Lib.Transfer VgiRpc.Wire

/-- What one turn of a loop meets: the time, and what the kernel answers to each `poll`, given
its timeout, and to each `send` or `recv`. -/
structure Turn where
  now : Nat
  polls : List (Nat → Answer)
  transfers : List Answer

/-- The result of a system call that is made again after `EINTR`. -/
def retry : List Answer → Option Answer
  | [] => none
  | .error .eintr :: answers => retry answers
  | answer :: _ => some answer

/-- How often it has been made. -/
def tries : List Answer → Nat
  | .error .eintr :: answers => tries answers + 1
  | _ => 1

def intMax : Nat := 2 ^ 31 - 1

/-- The timeout of `poll`, in milliseconds. -/
def pollTimeout (deadline now : Nat) : Nat := max 1 (min ((deadline - now) / nanosPerMilli) intMax)

namespace Turn

def ready (turn : Turn) (deadline : Nat) : Option Answer :=
  retry (turn.polls.map (· (pollTimeout deadline turn.now)))

/-- The call that a turn makes, as often as it makes it. -/
def requests (turn : Turn) (chunk : Request) : List Request :=
  List.replicate (tries turn.transfers) chunk

end Turn

/-- `EAGAIN` and `EWOULDBLOCK`. -/
def wouldBlock (errno : Errno) : Bool := errno = .eagain || errno = .ewouldblock

section Loops

variable (strerror : Errno → Bytes) (deadline : Nat)

/-- The loop of `DeadlineFdOutputStream::Write`. -/
def sendLoop (data : Bytes) (nbytes : Nat) : Nat → List Turn → Sent UInt8 Status
  | written, turns =>
      if written < nbytes then
        match turns with
        | [] => ⟨none, [], []⟩
        | turn :: turns =>
            if turn.now ≥ deadline then
              .stop (.ioError (ascii "socket write deadline exceeded")) []
            else
              match turn.ready deadline with
              | none => ⟨none, [], []⟩
              | some (.count 0) => .stop (.ioError (ascii "socket write deadline exceeded")) []
              | some (.error errno) =>
                  .stop (.ioError (ascii "socket poll failed: " ++ strerror errno)) []
              | some (.count (_ + 1)) =>
                  let chunk := Request.next kMaxIoChunk nbytes written
                  match retry turn.transfers with
                  | none => ⟨none, [], turn.requests chunk⟩
                  | some (.error errno) =>
                      if wouldBlock errno then
                        (sendLoop data nbytes written turns).after (turn.requests chunk) []
                      else
                        .stop (.ioError (ascii "socket write failed: " ++ strerror errno))
                          (turn.requests chunk)
                  | some (.count amount) =>
                      let piece := (data.drop written).take (min amount chunk.size)
                      if piece = [] then
                        .stop (.ioError (ascii "socket write made no progress"))
                          (turn.requests chunk)
                      else
                        (sendLoop data nbytes (written + piece.length) turns).after
                          (turn.requests chunk) piece
      else .stop .ok []

/-- The loop of `DeadlineFdInputStream::Read`. -/
def recvLoop (nbytes : Nat) : Nat → Bytes → Bytes → List Turn → Received UInt8 Status
  | total, out, source, turns =>
      if total < nbytes then
        match turns with
        | [] => ⟨none, out, source, []⟩
        | turn :: turns =>
            if turn.now ≥ deadline then
              ⟨some (.error (.ioError (ascii "socket read deadline exceeded"))), out, source, []⟩
            else
              match turn.ready deadline with
              | none => ⟨none, out, source, []⟩
              | some (.count 0) =>
                  ⟨some (.error (.ioError (ascii "socket read deadline exceeded"))), out, source, []⟩
              | some (.error errno) =>
                  ⟨some (.error (.ioError (ascii "socket poll failed: " ++ strerror errno))), out,
                    source, []⟩
              | some (.count (_ + 1)) =>
                  let chunk := Request.next kMaxIoChunk nbytes total
                  match retry turn.transfers with
                  | none => ⟨none, out, source, turn.requests chunk⟩
                  | some (.error errno) =>
                      if wouldBlock errno then
                        (recvLoop nbytes total out source turns).after (turn.requests chunk)
                      else
                        ⟨some (.error (.ioError (ascii "socket read failed: " ++ strerror errno))),
                          out, source, turn.requests chunk⟩
                  | some (.count amount) =>
                      let piece := delivered source chunk.size amount
                      if piece = [] then ⟨some (.ok total), out, source, turn.requests chunk⟩
                      else
                        (recvLoop nbytes (total + piece.length) (place out total piece)
                          (source.drop piece.length) turns).after (turn.requests chunk)
      else ⟨some (.ok total), out, source, []⟩

end Loops

/-! ## The streams -/

/-- `DeadlineFdOutputStream`, its timeout in milliseconds. -/
structure DeadlineFdOutputStream extends FdStream where
  writeTimeout : Nat

/-- `DeadlineFdInputStream`, its timeout in milliseconds. -/
structure DeadlineFdInputStream extends FdStream where
  firstFrameDeadline : Nat
  idleReadTimeout : Nat
  firstFrameComplete : Bool

section Streams

variable (strerror : Errno → Bytes)

namespace DeadlineFdOutputStream

/-- A new stream. -/
def start (writeTimeout : Nat) : DeadlineFdOutputStream := ⟨.fresh, writeTimeout⟩

/-- `DeadlineFdOutputStream::Write` of an open stream, at a time. -/
def send (stream : DeadlineFdOutputStream) (data : Bytes) (nbytes : Int) (now : Nat)
    (turns : List Turn) : Sent UInt8 Status :=
  if nbytes < 0 then .stop (.invalid (ascii "negative socket write size")) []
  else sendLoop strerror (deadlineAfter now stream.writeTimeout) data nbytes.toNat 0 turns

/-- `DeadlineFdOutputStream::Write`. -/
def write (stream : DeadlineFdOutputStream) (data : Bytes) (nbytes : Int) (now : Nat)
    (turns : List Turn) : DeadlineFdOutputStream × Sent UInt8 Status :=
  let sent := stream.send strerror data nbytes now turns
  let (next, sent) := stream.toFdStream.write "socket output is closed" sent.handed.length sent
  ({ stream with toFdStream := next }, sent)

/-- A call; `nbytes` is the size of the data. -/
inductive Call where
  | write (data : Bytes) (now : Nat) (turns : List Turn)
  | close

/-- The stream after a call, and what a call that ended well handed over. -/
def call (stream : DeadlineFdOutputStream) : Call → DeadlineFdOutputStream × Nat
  | .write data now turns =>
      let (next, sent) := stream.write strerror data data.length now turns
      (next, sent.moved .ok)
  | .close => ({ stream with toFdStream := stream.toFdStream.close }, 0)

end DeadlineFdOutputStream

namespace DeadlineFdInputStream

/-- A new stream. -/
def start (firstFrameDeadline idleReadTimeout : Nat) : DeadlineFdInputStream :=
  ⟨.fresh, firstFrameDeadline, idleReadTimeout, false⟩

/-- The deadline of a read that begins at a time. -/
def deadline (stream : DeadlineFdInputStream) (now : Nat) : Nat :=
  if stream.firstFrameComplete then deadlineAfter now stream.idleReadTimeout
  else stream.firstFrameDeadline

/-- `DeadlineFdInputStream::Read` of an open stream, at a time. -/
def receive (stream : DeadlineFdInputStream) (nbytes : Int) (out source : Bytes) (now : Nat)
    (turns : List Turn) : Received UInt8 Status :=
  if nbytes < 0 then
    ⟨some (.error (.invalid (ascii "negative socket read size"))), out, source, []⟩
  else recvLoop strerror (stream.deadline now) nbytes.toNat 0 out source turns

/-- `DeadlineFdInputStream::Read`. -/
def read (stream : DeadlineFdInputStream) (nbytes : Int) (out source : Bytes) (now : Nat)
    (turns : List Turn) : DeadlineFdInputStream × Received UInt8 Status :=
  let received := stream.receive strerror nbytes out source now turns
  let (next, received) := stream.toFdStream.read "socket input is closed" out source received
  ({ stream with toFdStream := next }, received)

def markFirstFrameComplete (stream : DeadlineFdInputStream) : DeadlineFdInputStream :=
  { stream with firstFrameComplete := true }

/-- A call; `nbytes` is the size of the buffer. -/
inductive Call where
  | read (out : Bytes) (now : Nat) (turns : List Turn)
  | markFirstFrameComplete
  | close

/-- The stream and what is left of its source after a call, and what a call that ended well
took from it. -/
def call (state : DeadlineFdInputStream × Bytes) : Call → (DeadlineFdInputStream × Bytes) × Nat
  | .read out now turns =>
      let (next, received) := state.1.read strerror out.length out state.2 now turns
      ((next, received.source), received.moved state.2)
  | .markFirstFrameComplete => ((state.1.markFirstFrameComplete, state.2), 0)
  | .close => (({ state.1 with toFdStream := state.1.toFdStream.close }, state.2), 0)

end DeadlineFdInputStream

/-! ## What the loops move -/

theorem Turn.within_requests (turn : Turn) {limit offset : Nat} (more : offset < limit) :
    ∀ request ∈ turn.requests (Request.next kMaxIoChunk limit offset),
      request.Within kMaxIoChunk limit := by
  intro request asked
  rw [List.eq_of_mem_replicate asked]
  exact Request.within_next kMaxIoChunk_pos more

theorem sendLoop_sends (deadline : Nat) (data : Bytes) (written : Nat) (turns : List Turn) :
    Sends .ok kMaxIoChunk data written
      (sendLoop strerror deadline data data.length written turns) := by
  fun_induction sendLoop strerror deadline data data.length written turns with
  | case1 written more => exact .unfinished more (by simp) (by simp)
  | case2 written more turn turns late => exact .unfinished more (by simp) (by simp)
  | case3 written more turn turns early waiting => exact .unfinished more (by simp) (by simp)
  | case4 written more turn turns early expired => exact .unfinished more (by simp) (by simp)
  | case5 written more turn turns early errno failed =>
      exact .unfinished more (by simp) (by simp)
  | case6 written more turn turns early ready polled chunk waiting =>
      exact .unfinished more (by simp) (turn.within_requests more)
  | case7 written more turn turns early ready polled chunk errno blocked again ih =>
      exact .after List.nil_prefix ih (turn.within_requests more)
  | case8 written more turn turns early ready polled chunk errno failed broken =>
      exact .unfinished more (by simp) (turn.within_requests more)
  | case9 written more turn turns early ready polled chunk amount answered piece stuck =>
      exact .unfinished more (by simp) (turn.within_requests more)
  | case10 written more turn turns early ready polled chunk amount answered piece moved ih =>
      exact .after (List.take_prefix _ _) ih (turn.within_requests more)
  | case11 written turns all => exact .done (Nat.le_of_not_lt all)

theorem recvLoop_receives {nbytes : Nat} (deadline total : Nat) (out source : Bytes)
    (turns : List Turn) (sized : out.length = nbytes) (fits : total ≤ nbytes) :
    Receives kMaxIoChunk out source total
      (recvLoop strerror deadline nbytes total out source turns) := by
  fun_induction recvLoop strerror deadline nbytes total out source turns with
  | case1 total out source more =>
      subst sized
      exact .unfinished more (by simp) (by simp)
  | case2 total out source more turn turns late =>
      subst sized
      exact .unfinished more (by simp) (by simp)
  | case3 total out source more turn turns early waiting =>
      subst sized
      exact .unfinished more (by simp) (by simp)
  | case4 total out source more turn turns early expired =>
      subst sized
      exact .unfinished more (by simp) (by simp)
  | case5 total out source more turn turns early errno failed =>
      subst sized
      exact .unfinished more (by simp) (by simp)
  | case6 total out source more turn turns early ready polled chunk waiting =>
      subst sized
      exact .unfinished more (by simp) (turn.within_requests more)
  | case7 total out source more turn turns early ready polled chunk errno blocked again ih =>
      subst sized
      exact .after (ih rfl fits) (turn.within_requests more)
  | case8 total out source more turn turns early ready polled chunk errno failed broken =>
      subst sized
      exact .unfinished more (by simp) (turn.within_requests more)
  | case9 total out source more turn turns early ready polled chunk amount answered piece empty =>
      subst sized
      have asked := (Request.within_next kMaxIoChunk_pos more).positive
      obtain rfl := (delivered_eq_nil_iff asked).mp empty
      exact .ended more (turn.within_requests more)
  | case10 total out source more turn turns early ready polled chunk amount answered piece moved
      ih =>
      subst sized
      have room : total + piece.length ≤ out.length := delivered_fits source amount more
      have rest := ih (length_place room) room
      exact .after (.place (delivered_front _ _ _) room rest) (turn.within_requests more)
  | case11 total out source turns all => exact .full (by omega)

/-! ## What the turns come to -/

/-- What a turn comes to: it fails at the deadline or if the poll does, and otherwise does what
the answer to its transfer comes to. -/
def Turn.outcome (turn : Turn) (deadline : Nat) (late : Status) (transfer : Answer → Outcome Status) :
    Outcome Status :=
  if turn.now ≥ deadline then .fails late
  else
    match turn.ready deadline with
    | none => .waits
    | some (.count 0) => .fails late
    | some (.error errno) => .fails (.ioError (ascii "socket poll failed: " ++ strerror errno))
    | some (.count (_ + 1)) => ((retry turn.transfers).map transfer).getD .waits

/-- What the answer to a `send` comes to. -/
def sendOutcome : Answer → Outcome Status
  | .error errno =>
      if wouldBlock errno then .again
      else .fails (.ioError (ascii "socket write failed: " ++ strerror errno))
  | .count 0 => .fails (.ioError (ascii "socket write made no progress"))
  | .count (amount + 1) => .moves (min (amount + 1) kMaxIoChunk)

/-- What the answer to a `recv` comes to. -/
def recvOutcome : Answer → Outcome Status
  | .error errno =>
      if wouldBlock errno then .again
      else .fails (.ioError (ascii "socket read failed: " ++ strerror errno))
  | .count amount => .moves (min (max amount 1) kMaxIoChunk)

/-- What a turn of the loop of `DeadlineFdOutputStream::Write` comes to. -/
def Turn.sends (deadline : Nat) (turn : Turn) : Outcome Status :=
  turn.outcome strerror deadline (.ioError (ascii "socket write deadline exceeded")) (sendOutcome strerror)

/-- What a turn of the loop of `DeadlineFdInputStream::Read` comes to. -/
def Turn.receives (deadline : Nat) (turn : Turn) : Outcome Status :=
  turn.outcome strerror deadline (.ioError (ascii "socket read deadline exceeded"))
    (recvOutcome strerror)

section Outcomes

variable {strerror : Errno → Bytes} {turn : Turn} {deadline ready : Nat} {late : Status}
  {transfer : Answer → Outcome Status}

theorem Turn.outcome_late (due : turn.now ≥ deadline) :
    turn.outcome strerror deadline late transfer = .fails late :=
  if_pos due

theorem Turn.outcome_unpolled (early : ¬turn.now ≥ deadline) (waiting : turn.ready deadline = none) :
    turn.outcome strerror deadline late transfer = .waits := by
  rw [Turn.outcome, if_neg early, waiting]

theorem Turn.outcome_expired (early : ¬turn.now ≥ deadline)
    (expired : turn.ready deadline = some (.count 0)) :
    turn.outcome strerror deadline late transfer = .fails late := by
  rw [Turn.outcome, if_neg early, expired]

theorem Turn.outcome_failed {errno : Errno} (early : ¬turn.now ≥ deadline)
    (failed : turn.ready deadline = some (.error errno)) :
    turn.outcome strerror deadline late transfer =
      .fails (.ioError (ascii "socket poll failed: " ++ strerror errno)) := by
  rw [Turn.outcome, if_neg early, failed]

theorem Turn.outcome_waiting (early : ¬turn.now ≥ deadline)
    (polled : turn.ready deadline = some (.count (ready + 1)))
    (waiting : retry turn.transfers = none) :
    turn.outcome strerror deadline late transfer = .waits := by
  rw [Turn.outcome, if_neg early, polled, waiting]
  rfl

theorem Turn.outcome_answered {answer : Answer} (early : ¬turn.now ≥ deadline)
    (polled : turn.ready deadline = some (.count (ready + 1)))
    (answered : retry turn.transfers = some answer) :
    turn.outcome strerror deadline late transfer = transfer answer := by
  rw [Turn.outcome, if_neg early, polled, answered]
  rfl

end Outcomes

theorem sendLoop_sendsBy (deadline : Nat) (data : Bytes) (written : Nat) (turns : List Turn) :
    SendsBy .ok data written (turns.map (·.sends strerror deadline))
      (sendLoop strerror deadline data data.length written turns) := by
  fun_induction sendLoop strerror deadline data data.length written turns with
  | case1 written more => exact .idle more
  | case2 written more turn turns late =>
      rw [List.map_cons, Turn.sends, Turn.outcome_late late]
      exact .fails _ more
  | case3 written more turn turns early waiting =>
      rw [List.map_cons, Turn.sends, Turn.outcome_unpolled early waiting]
      exact .waits more
  | case4 written more turn turns early expired =>
      rw [List.map_cons, Turn.sends, Turn.outcome_expired early expired]
      exact .fails _ more
  | case5 written more turn turns early errno failed =>
      rw [List.map_cons, Turn.sends, Turn.outcome_failed early failed]
      exact .fails _ more
  | case6 written more turn turns early ready polled chunk waiting =>
      rw [List.map_cons, Turn.sends, Turn.outcome_waiting early polled waiting]
      exact .waits more
  | case7 written more turn turns early ready polled chunk errno blocked again ih =>
      rw [List.map_cons, Turn.sends, Turn.outcome_answered early polled blocked, sendOutcome,
        if_pos again]
      exact .again ih
  | case8 written more turn turns early ready polled chunk errno failed broken =>
      rw [List.map_cons, Turn.sends, Turn.outcome_answered early polled failed, sendOutcome,
        if_neg broken]
      exact .fails _ more
  | case9 written more turn turns early ready polled chunk amount answered piece stuck =>
      obtain rfl := amount_eq_zero more stuck
      rw [List.map_cons, Turn.sends, Turn.outcome_answered early polled answered, sendOutcome]
      exact .fails _ more
  | case10 written more turn turns early ready polled chunk amount answered piece moved ih =>
      obtain ⟨count, rfl⟩ := exists_amount moved
      rw [List.map_cons, Turn.sends, Turn.outcome_answered early polled answered, sendOutcome]
      exact .moves (take_chunk data written _) ih
  | case11 written turns all => exact .done (Nat.le_of_not_lt all)

theorem recvLoop_receivesBy {nbytes : Nat} (deadline total : Nat) (out source : Bytes)
    (turns : List Turn) (sized : out.length = nbytes) (fits : total ≤ nbytes) :
    ReceivesBy out source total (turns.map (·.receives strerror deadline))
      (recvLoop strerror deadline nbytes total out source turns) := by
  fun_induction recvLoop strerror deadline nbytes total out source turns with
  | case1 total out source more =>
      subst sized
      exact .idle more
  | case2 total out source more turn turns late =>
      subst sized
      rw [List.map_cons, Turn.receives, Turn.outcome_late late]
      exact .fails _ more
  | case3 total out source more turn turns early waiting =>
      subst sized
      rw [List.map_cons, Turn.receives, Turn.outcome_unpolled early waiting]
      exact .waits more
  | case4 total out source more turn turns early expired =>
      subst sized
      rw [List.map_cons, Turn.receives, Turn.outcome_expired early expired]
      exact .fails _ more
  | case5 total out source more turn turns early errno failed =>
      subst sized
      rw [List.map_cons, Turn.receives, Turn.outcome_failed early failed]
      exact .fails _ more
  | case6 total out source more turn turns early ready polled chunk waiting =>
      subst sized
      rw [List.map_cons, Turn.receives, Turn.outcome_waiting early polled waiting]
      exact .waits more
  | case7 total out source more turn turns early ready polled chunk errno blocked again ih =>
      rw [List.map_cons, Turn.receives, Turn.outcome_answered early polled blocked, recvOutcome,
        if_pos again]
      exact .again (ih sized fits)
  | case8 total out source more turn turns early ready polled chunk errno failed broken =>
      subst sized
      rw [List.map_cons, Turn.receives, Turn.outcome_answered early polled failed, recvOutcome,
        if_neg broken]
      exact .fails _ more
  | case9 total out source more turn turns early ready polled chunk amount answered piece empty =>
      subst sized
      have asked := (Request.within_next kMaxIoChunk_pos more).positive
      obtain rfl := (delivered_eq_nil_iff asked).mp empty
      rw [List.map_cons, Turn.receives, Turn.outcome_answered early polled answered, recvOutcome]
      exact .atEnd more
  | case10 total out source more turn turns early ready polled chunk amount answered piece moved
      ih =>
      subst sized
      have room : total + piece.length ≤ out.length := delivered_fits source amount more
      have left : source ≠ [] := by
        rintro rfl
        exact moved List.take_nil
      rw [List.map_cons, Turn.receives, Turn.outcome_answered early polled answered, recvOutcome]
      exact .moves (delivered_chunk source out.length total amount) left
        (ih (length_place room) room) fits
  | case11 total out source turns all =>
      subst sized
      exact .done (by omega)

/-! ## Returning -/

/-- The kernel answers the poll of a turn, and its transfer. -/
structure Turn.Answered (deadline : Nat) (turn : Turn) : Prop where
  polled : turn.ready deadline ≠ none
  transferred : retry turn.transfers ≠ none

/-- Turns that are all answered, and come to the deadline. -/
structure Due (deadline : Nat) (turns : List Turn) : Prop where
  answered : ∀ turn ∈ turns, turn.Answered deadline
  late : ∃ turn ∈ turns, deadline ≤ turn.now

theorem Due.not_nil {deadline : Nat} (due : Due deadline []) : False := by
  obtain ⟨turn, none, -⟩ := due.late
  cases none

/-- A turn before the deadline leaves what is due to those behind it. -/
theorem Due.behind {deadline : Nat} {turn : Turn} {turns : List Turn}
    (due : Due deadline (turn :: turns)) (early : ¬turn.now ≥ deadline) : Due deadline turns where
  answered := (List.forall_mem_cons.mp due.answered).2
  late := by
    obtain ⟨last, member, late⟩ := due.late
    rcases List.mem_cons.mp member with rfl | member
    · exact (early late).elim
    · exact ⟨last, member, late⟩

theorem Due.here {deadline : Nat} {turn : Turn} {turns : List Turn}
    (due : Due deadline (turn :: turns)) : turn.Answered deadline :=
  (List.forall_mem_cons.mp due.answered).1

/-- A loop that sends returns by its deadline. -/
theorem sendLoop_returns {deadline nbytes : Nat} (data : Bytes) (written : Nat) {turns : List Turn}
    (due : Due deadline turns) :
    (sendLoop strerror deadline data nbytes written turns).status ≠ none := by
  fun_induction sendLoop strerror deadline data nbytes written turns with
  | case1 written more => exact due.not_nil.elim
  | case3 written more turn turns early waiting => exact (due.here.polled waiting).elim
  | case6 written more turn turns early ready polled chunk waiting =>
      exact (due.here.transferred waiting).elim
  | case7 written more turn turns early ready polled chunk errno blocked again ih =>
      exact ih (due.behind early)
  | case10 written more turn turns early ready polled chunk amount answered piece moved ih =>
      exact ih (due.behind early)
  | _ => exact Option.some_ne_none _

/-- A loop that receives returns by its deadline. -/
theorem recvLoop_returns {deadline nbytes : Nat} (total : Nat) (out source : Bytes)
    {turns : List Turn} (due : Due deadline turns) :
    (recvLoop strerror deadline nbytes total out source turns).status ≠ none := by
  fun_induction recvLoop strerror deadline nbytes total out source turns with
  | case1 total out source more => exact due.not_nil.elim
  | case3 total out source more turn turns early waiting => exact (due.here.polled waiting).elim
  | case6 total out source more turn turns early ready polled chunk waiting =>
      exact (due.here.transferred waiting).elim
  | case7 total out source more turn turns early ready polled chunk errno blocked again ih =>
      exact ih (due.behind early)
  | case10 total out source more turn turns early ready polled chunk amount answered piece moved
      ih =>
      exact ih (due.behind early)
  | _ => exact Option.some_ne_none _

/-! ## Calls -/

theorem DeadlineFdOutputStream.send_sends (stream : DeadlineFdOutputStream) (data : Bytes)
    (now : Nat) (turns : List Turn) :
    Sends .ok kMaxIoChunk data 0 (stream.send strerror data data.length now turns) := by
  rw [send, if_neg (Int.natCast_nonneg _).not_gt]
  exact sendLoop_sends strerror _ data 0 turns

theorem DeadlineFdInputStream.receive_receives (stream : DeadlineFdInputStream)
    (out source : Bytes) (now : Nat) (turns : List Turn) :
    Receives kMaxIoChunk out source 0 (stream.receive strerror out.length out source now turns) := by
  rw [receive, if_neg (Int.natCast_nonneg _).not_gt]
  exact recvLoop_receives strerror _ 0 out source turns rfl (Nat.zero_le _)

theorem DeadlineFdOutputStream.send_sendsBy (stream : DeadlineFdOutputStream) (data : Bytes)
    (now : Nat) (turns : List Turn) :
    SendsBy .ok data 0 (turns.map (·.sends strerror (deadlineAfter now stream.writeTimeout)))
      (stream.send strerror data data.length now turns) := by
  rw [send, if_neg (Int.natCast_nonneg _).not_gt]
  exact sendLoop_sendsBy strerror _ data 0 turns

theorem DeadlineFdInputStream.receive_receivesBy (stream : DeadlineFdInputStream)
    (out source : Bytes) (now : Nat) (turns : List Turn) :
    ReceivesBy out source 0 (turns.map (·.receives strerror (stream.deadline now)))
      (stream.receive strerror out.length out source now turns) := by
  rw [receive, if_neg (Int.natCast_nonneg _).not_gt]
  exact recvLoop_receivesBy strerror _ 0 out source turns rfl (Nat.zero_le _)

theorem DeadlineFdOutputStream.call_position (stream : DeadlineFdOutputStream) (call : Call) :
    (stream.call strerror call).1.position =
      stream.position + Int64.ofNat (stream.call strerror call).2 := by
  cases call with
  | write data now turns =>
      refine stream.toFdStream.write_position _ fun ended => ?_
      rw [Sent.moved, if_pos ended]
  | close => exact (Int64.add_zero _).symm

theorem DeadlineFdInputStream.call_position (state : DeadlineFdInputStream × Bytes) (call : Call) :
    (DeadlineFdInputStream.call strerror state call).1.1.position =
      state.1.position + Int64.ofNat (DeadlineFdInputStream.call strerror state call).2 := by
  cases call with
  | read out now turns =>
      exact state.1.toFdStream.read_position _ (state.1.receive_receives strerror out state.2 now turns)
  | markFirstFrameComplete => exact (Int64.add_zero _).symm
  | close => exact (Int64.add_zero _).symm

theorem DeadlineFdOutputStream.send_returns (stream : DeadlineFdOutputStream) (data : Bytes)
    {now : Nat} {turns : List Turn} (due : Due (deadlineAfter now stream.writeTimeout) turns) :
    (stream.send strerror data data.length now turns).status ≠ none := by
  rw [send, if_neg (Int.natCast_nonneg _).not_gt]
  exact sendLoop_returns strerror data 0 due

theorem DeadlineFdInputStream.receive_returns (stream : DeadlineFdInputStream)
    (out source : Bytes) {now : Nat} {turns : List Turn} (due : Due (stream.deadline now) turns) :
    (stream.receive strerror out.length out source now turns).status ≠ none := by
  rw [receive, if_neg (Int.natCast_nonneg _).not_gt]
  exact recvLoop_returns strerror 0 out source due

/-- The position of a new stream that sends, after any calls. -/
theorem DeadlineFdOutputStream.position_calls (timeout : Nat) (calls : List Call) :
    (callAll (DeadlineFdOutputStream.call strerror) (.start timeout) calls).1.position =
      Int64.ofNat (callAll (DeadlineFdOutputStream.call strerror) (.start timeout) calls).2 :=
  callAll_count_zero _ (fun stream : DeadlineFdOutputStream => stream.position)
    (DeadlineFdOutputStream.call_position strerror) rfl calls

/-- The position of a new stream that receives, after any calls. -/
theorem DeadlineFdInputStream.position_calls (first idle : Nat) (source : Bytes)
    (calls : List Call) :
    (callAll (DeadlineFdInputStream.call strerror) (.start first idle, source) calls).1.1.position =
      Int64.ofNat
        (callAll (DeadlineFdInputStream.call strerror) (.start first idle, source) calls).2 :=
  callAll_count_zero _ (fun state : DeadlineFdInputStream × Bytes => state.1.position)
    (DeadlineFdInputStream.call_position strerror) rfl calls

end Streams

/-- No loop loses anything.  Whatever the kernel answers: a write hands over a front of its data,
all of it exactly if it returns OK; a read takes the next bytes of the stream to the buffer, and
tells how many, fewer than asked for only at the end; no request is larger than `kMaxIoChunk`;
and they return, by the deadline if there is one.  How much they move and how they end is what
their turns come to, in the order in which they make them.  The position of a stream counts what
its successful calls moved. -/
theorem raw_io_exact (strerror : Errno → Bytes) :
    (∀ data answers,
      Sends .ok kMaxIoChunk data 0 (writeAllFd strerror data data.length answers) ∧
      SendsBy .ok data 0 (answers.map (·.writes strerror))
        (writeAllFd strerror data data.length answers) ∧
      (data.length ≤ settled answers →
        (writeAllFd strerror data data.length answers).status ≠ none)) ∧
    (∀ out source answers,
      Receives kMaxIoChunk out source 0 (readFullFd strerror out.length out source answers) ∧
      ReceivesBy out source 0 (answers.map (·.reads strerror))
        (readFullFd strerror out.length out source answers) ∧
      (out.length ≤ settled answers →
        (readFullFd strerror out.length out source answers).status ≠ none)) ∧
    (∀ (stream : DeadlineFdOutputStream) data now turns,
      if stream.closed then
        (stream.write strerror data data.length now turns).2 =
          .stop (.ioError (ascii "socket output is closed")) []
      else
        Sends .ok kMaxIoChunk data 0 (stream.write strerror data data.length now turns).2 ∧
        SendsBy .ok data 0 (turns.map (·.sends strerror (deadlineAfter now stream.writeTimeout)))
          (stream.write strerror data data.length now turns).2 ∧
        (Due (deadlineAfter now stream.writeTimeout) turns →
          (stream.write strerror data data.length now turns).2.status ≠ none)) ∧
    (∀ (stream : DeadlineFdInputStream) out source now turns,
      if stream.closed then
        (stream.read strerror out.length out source now turns).2 =
          ⟨some (.error (.ioError (ascii "socket input is closed"))), out, source, []⟩
      else
        Receives kMaxIoChunk out source 0
          (stream.read strerror out.length out source now turns).2 ∧
        ReceivesBy out source 0 (turns.map (·.receives strerror (stream.deadline now)))
          (stream.read strerror out.length out source now turns).2 ∧
        (Due (stream.deadline now) turns →
          (stream.read strerror out.length out source now turns).2.status ≠ none)) ∧
    (∀ calls, (callAll (FdOutputStream.call strerror) .fresh calls).1.position =
      Int64.ofNat (callAll (FdOutputStream.call strerror) .fresh calls).2) ∧
    (∀ source calls, (callAll (FdInputStream.call strerror) (.fresh, source) calls).1.1.position =
      Int64.ofNat (callAll (FdInputStream.call strerror) (.fresh, source) calls).2) ∧
    (∀ timeout calls,
      (callAll (DeadlineFdOutputStream.call strerror) (.start timeout) calls).1.position =
        Int64.ofNat (callAll (DeadlineFdOutputStream.call strerror) (.start timeout) calls).2) ∧
    (∀ first idle source calls,
      (callAll (DeadlineFdInputStream.call strerror) (.start first idle, source) calls).1.1.position =
        Int64.ofNat
          (callAll (DeadlineFdInputStream.call strerror) (.start first idle, source) calls).2) := by
  refine ⟨?writes, ?reads, ?sends, ?receives, FdOutputStream.position_calls strerror,
    FdInputStream.position_calls strerror, DeadlineFdOutputStream.position_calls strerror,
    DeadlineFdInputStream.position_calls strerror⟩
  case writes =>
    exact fun data answers =>
      ⟨writeAllFd_sends strerror data answers, writeAllFd_sendsBy strerror data answers,
        writeAllFd_returns strerror⟩
  case reads =>
    exact fun out source answers =>
      ⟨readFullFd_receives strerror out source answers,
        readFullFd_receivesBy strerror out source answers, readFullFd_returns strerror source⟩
  case sends =>
    intro stream data now turns
    split_ifs with closed
    · rw [DeadlineFdOutputStream.write, FdStream.write_closed closed]
    · rw [DeadlineFdOutputStream.write, FdStream.write_open closed]
      exact ⟨stream.send_sends strerror data now turns, stream.send_sendsBy strerror data now turns,
        stream.send_returns strerror data⟩
  case receives =>
    intro stream out source now turns
    split_ifs with closed
    · rw [DeadlineFdInputStream.read, FdStream.read_closed closed]
    · rw [DeadlineFdInputStream.read, FdStream.read_open closed]
      exact ⟨stream.receive_receives strerror out source now turns,
        stream.receive_receivesBy strerror out source now turns,
        stream.receive_returns strerror out source⟩

end VgiRpc.Socket
