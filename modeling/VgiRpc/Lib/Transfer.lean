import Mathlib.Data.List.TakeWhile
import Mathlib.Tactic

/-!
# Transfer loops

A loop moves data in pieces, each by a request for at most so much of it from an offset
on, and ends with a status or waits for an answer.  There is a rule for each thing that a
turn of such a loop does: end, fail, wait, ask again, or move a piece and go on.  How a loop
ends and what it has moved by then is told by what its turns come to, in the order in which
it makes them.
-/

namespace VgiRpc.Lib.Transfer

variable {α σ : Type}

structure Request where
  offset : Nat
  size : Nat
  deriving DecidableEq, Repr

/-- The request asks for something, for no more than the cap, and inside the limit. -/
structure Request.Within (cap limit : Nat) (request : Request) : Prop where
  positive : 0 < request.size
  capped : request.size ≤ cap
  inside : request.offset + request.size ≤ limit

/-- The request for the rest, as much of it as the cap allows. -/
def Request.next (cap limit offset : Nat) : Request := ⟨offset, min (limit - offset) cap⟩

theorem Request.within_next {cap limit offset : Nat} (some : 0 < cap) (more : offset < limit) :
    (Request.next cap limit offset).Within cap limit := by
  constructor <;> simp only [Request.next] <;> omega

/-! ## Turns -/

/-- What a turn comes to: it is made again, moves at most so much, ends the loop with a failure,
or is not answered. -/
inductive Outcome (σ : Type) where
  | again
  | moves (amount : Nat)
  | fails (status : σ)
  | waits
  deriving DecidableEq, Repr

namespace Outcome

def goesOn : Outcome σ → Bool
  | .again | .moves _ => true
  | .fails _ | .waits => false

def amount : Outcome σ → Nat
  | .moves amount => amount
  | .again | .fails _ | .waits => 0

def failure : Outcome σ → Option σ
  | .fails status => some status
  | .again | .moves _ | .waits => none

end Outcome

/-- What the turns move at most, up to the first that does not go on. -/
def offered (turns : List (Outcome σ)) : Nat :=
  ((turns.takeWhile Outcome.goesOn).map Outcome.amount).sum

/-- The failure of the first turn that does not go on. -/
def failure (turns : List (Outcome σ)) : Option σ :=
  (turns.find? fun turn => !turn.goesOn).bind Outcome.failure

/-- A turn that would move something comes when this much has been moved. -/
def MovesBehind (moved : Nat) (turns : List (Outcome σ)) : Prop :=
  ∃ before amount behind, turns = before ++ .moves amount :: behind ∧
    (∀ turn ∈ before, turn.goesOn) ∧ moved ≤ offered before

section Turns

variable {status : σ} {amount moved : Nat} {turns : List (Outcome σ)}

@[simp] theorem offered_nil : offered ([] : List (Outcome σ)) = 0 := rfl

@[simp] theorem offered_again : offered (.again :: turns) = offered turns := by
  rw [offered, List.takeWhile_cons_of_pos rfl, List.map_cons, List.sum_cons, Outcome.amount,
    Nat.zero_add, offered]

@[simp] theorem offered_moves : offered (.moves amount :: turns) = amount + offered turns := by
  rw [offered, List.takeWhile_cons_of_pos rfl, List.map_cons, List.sum_cons, Outcome.amount, offered]

@[simp] theorem offered_fails : offered (.fails status :: turns) = 0 := by
  simp [offered, Outcome.goesOn]

@[simp] theorem offered_waits : offered (.waits :: turns) = 0 := by
  simp [offered, Outcome.goesOn]

@[simp] theorem failure_nil : failure ([] : List (Outcome σ)) = none := rfl

@[simp] theorem failure_again : failure (.again :: turns) = failure turns := by
  simp [failure, Outcome.goesOn]

@[simp] theorem failure_moves : failure (.moves amount :: turns) = failure turns := by
  simp [failure, Outcome.goesOn]

@[simp] theorem failure_fails : failure (.fails status :: turns) = some status := by
  simp [failure, Outcome.goesOn, Outcome.failure]

@[simp] theorem failure_waits : failure (.waits :: turns) = none := by
  simp [failure, Outcome.goesOn, Outcome.failure]

@[simp] theorem not_movesBehind_nil : ¬MovesBehind moved ([] : List (Outcome σ)) := by
  rintro ⟨before, amount, behind, split, -⟩
  simp at split

/-- A turn that does not go on leaves nothing to those behind it. -/
theorem not_movesBehind_stop {turn : Outcome σ} (stops : turn.goesOn = false) :
    ¬MovesBehind moved (turn :: turns) := by
  rintro ⟨before, amount, behind, split, goOn, -⟩
  cases before with
  | nil =>
      obtain ⟨rfl, -⟩ := List.cons.inj split
      cases stops
  | cons first before =>
      obtain ⟨rfl, -⟩ := List.cons.inj split
      rw [goOn turn List.mem_cons_self] at stops
      cases stops

@[simp] theorem movesBehind_again :
    MovesBehind moved (.again :: turns) ↔ MovesBehind moved turns := by
  constructor
  · rintro ⟨before, amount, behind, split, goOn, enough⟩
    cases before with
    | nil => cases split
    | cons first before =>
        obtain ⟨rfl, left⟩ := List.cons.inj split
        rw [offered_again] at enough
        exact ⟨before, amount, behind, left, (List.forall_mem_cons.mp goOn).2, enough⟩
  · rintro ⟨before, amount, behind, rfl, goOn, enough⟩
    refine ⟨.again :: before, amount, behind, rfl, List.forall_mem_cons.mpr ⟨rfl, goOn⟩, ?_⟩
    rwa [offered_again]

theorem movesBehind_moves : MovesBehind moved (.moves amount :: turns) ↔
    moved = 0 ∨ MovesBehind (moved - amount) turns := by
  constructor
  · rintro ⟨before, next, behind, split, goOn, enough⟩
    cases before with
    | nil => exact .inl (Nat.le_zero.mp enough)
    | cons first before =>
        obtain ⟨rfl, left⟩ := List.cons.inj split
        rw [offered_moves] at enough
        exact .inr ⟨before, next, behind, left, (List.forall_mem_cons.mp goOn).2, by omega⟩
  · rintro (rfl | ⟨before, next, behind, rfl, goOn, enough⟩)
    · exact ⟨[], amount, turns, rfl, by simp, Nat.zero_le _⟩
    · refine ⟨.moves amount :: before, next, behind, rfl,
        List.forall_mem_cons.mpr ⟨rfl, goOn⟩, ?_⟩
      rw [offered_moves]
      omega

end Turns

/-! ## Out of a buffer -/

/-- What a loop has handed over; there is no status while it waits for an answer. -/
structure Sent (α σ : Type) where
  status : Option σ
  handed : List α
  requests : List Request

namespace Sent

/-- What a transfer that ended well moved. -/
def moved [DecidableEq σ] (ok : σ) (sent : Sent α σ) : Nat :=
  if sent.status = some ok then sent.handed.length else 0

/-- The loop ends here. -/
def stop (status : σ) (requests : List Request) : Sent α σ := ⟨some status, [], requests⟩

/-- These requests came before, and moved this piece. -/
def after (sent : Sent α σ) (requests : List Request) (piece : List α) : Sent α σ :=
  ⟨sent.status, piece ++ sent.handed, requests ++ sent.requests⟩

end Sent

/-- From an offset on the loop hands over a front of what is left of the data, and ends well
exactly if that is all of it. -/
structure Sends (ok : σ) (cap : Nat) (data : List α) (written : Nat) (sent : Sent α σ) : Prop where
  handed : sent.handed <+: data.drop written
  complete : sent.status = some ok ↔ sent.handed = data.drop written
  within : ∀ request ∈ sent.requests, request.Within cap data.length

namespace Sends

variable {ok status : σ} {cap written : Nat} {data piece : List α} {sent : Sent α σ}
  {requests : List Request}

theorem done (all : data.length ≤ written) : Sends ok cap data written (.stop ok []) where
  handed := List.nil_prefix
  complete := by simp [Sent.stop, all]
  within := by simp [Sent.stop]

/-- The loop ends otherwise, or waits, in front of data that is left. -/
theorem unfinished (more : written < data.length) {status : Option σ} (notOk : status ≠ some ok)
    (within : ∀ request ∈ requests, request.Within cap data.length) :
    Sends ok cap data written ⟨status, [], requests⟩ where
  handed := List.nil_prefix
  complete := by
    have left : data.drop written ≠ [] := by
      rw [ne_eq, List.drop_eq_nil_iff]
      omega
    simp [notOk, left.symm]
  within := within

/-- A turn that moves a piece, or none, and goes on behind it. -/
theorem after (front : piece <+: data.drop written)
    (rest : Sends ok cap data (written + piece.length) sent)
    (within : ∀ request ∈ requests, request.Within cap data.length) :
    Sends ok cap data written (sent.after requests piece) := by
  obtain ⟨left, split⟩ := front
  have behind : data.drop (written + piece.length) = left := by
    rw [← List.drop_drop, ← split, List.drop_left]
  have handed := rest.handed
  have complete := rest.complete
  rw [behind] at handed complete
  refine ⟨?_, ?_, ?_⟩
  · rw [← split]
    exact (List.prefix_append_right_inj piece).mpr handed
  · rw [← split, Sent.after, complete]
    exact (List.append_right_inj piece).symm
  · rw [Sent.after, List.forall_mem_append]
    exact ⟨within, rest.within⟩

/-- A transfer that ended well moved all of the data. -/
theorem moved_eq [DecidableEq σ] (sends : Sends ok cap data 0 sent)
    (ended : sent.status = some ok) : sent.moved ok = data.length := by
  rw [Sent.moved, if_pos ended, sends.complete.mp ended, List.drop_zero]

end Sends

/-- From an offset on the loop hands over what its turns offer to take of the data.  It ends well
when that is all of it, and otherwise as the first turn that does not go on. -/
structure SendsBy (ok : σ) (data : List α) (written : Nat) (turns : List (Outcome σ))
    (sent : Sent α σ) : Prop where
  handed : sent.handed = (data.drop written).take (offered turns)
  status : sent.status =
    if data.length ≤ written + offered turns then some ok else failure turns

namespace SendsBy

variable {ok : σ} {written : Nat} {data : List α} {turns : List (Outcome σ)} {sent : Sent α σ}
  {requests : List Request}

theorem done (all : data.length ≤ written) : SendsBy ok data written turns (.stop ok []) where
  handed := by rw [List.drop_eq_nil_of_le all, List.take_nil, Sent.stop]
  status := by rw [if_pos (by omega), Sent.stop]

/-- The turns offer nothing, and data is left. -/
theorem unfinished (more : written < data.length) (nothing : offered turns = 0)
    {status : Option σ} (ended : status = failure turns) :
    SendsBy ok data written turns ⟨status, [], requests⟩ where
  handed := by rw [nothing, List.take_zero]
  status := by rw [nothing, if_neg (by omega), ended]

theorem idle (more : written < data.length) :
    SendsBy ok data written [] ⟨none, [], requests⟩ :=
  .unfinished more offered_nil failure_nil.symm

theorem fails (status : σ) (more : written < data.length) :
    SendsBy ok data written (.fails status :: turns) ⟨some status, [], requests⟩ :=
  .unfinished more offered_fails failure_fails.symm

theorem waits (more : written < data.length) :
    SendsBy ok data written (.waits :: turns) ⟨none, [], requests⟩ :=
  .unfinished more offered_waits failure_waits.symm

theorem again (rest : SendsBy ok data written turns sent) :
    SendsBy ok data written (.again :: turns) (sent.after requests []) where
  handed := by rw [offered_again, Sent.after, List.nil_append, rest.handed]
  status := by rw [offered_again, failure_again, Sent.after, rest.status]

/-- A turn that moves as much of what is left as it offers. -/
theorem moves {amount : Nat} {piece : List α} (front : piece = (data.drop written).take amount)
    (rest : SendsBy ok data (written + piece.length) turns sent) :
    SendsBy ok data written (.moves amount :: turns) (sent.after requests piece) := by
  have size : piece.length = min amount (data.length - written) := by
    rw [front, List.length_take, List.length_drop]
  constructor
  · rw [offered_moves, Sent.after, rest.handed, List.take_add, ← front, ← List.drop_drop]
    rcases Nat.le_total amount (data.length - written) with fits | short
    · rw [show piece.length = amount by omega]
    · have left : ∀ offset, data.length - written ≤ offset →
          (data.drop written).drop offset = [] := fun offset beyond =>
        List.drop_eq_nil_of_le (by rwa [List.length_drop])
      rw [left _ (by omega), left _ short]
  · rw [offered_moves, failure_moves, Sent.after, rest.status]
    rcases Nat.le_total amount (data.length - written) with fits | short
    · rw [show piece.length = amount by omega, Nat.add_assoc]
    · rw [if_pos (by omega), if_pos (by omega)]

end SendsBy

/-! ## Into a buffer -/

/-- What a loop has taken in: the status with the amount, the buffer and what is left of the
source. -/
structure Received (α σ : Type) where
  status : Option (Except σ Nat)
  buffer : List α
  source : List α
  requests : List Request

namespace Received

/-- What a transfer that ended well moved out of a source. -/
def moved (source : List α) (received : Received α σ) : Nat :=
  match received.status with
  | some (.ok _) => source.length - received.source.length
  | _ => 0

/-- These requests came before. -/
def after (received : Received α σ) (requests : List Request) : Received α σ :=
  { received with requests := requests ++ received.requests }

end Received

/-- The buffer with a piece over what stood at the offset. -/
def place (buffer : List α) (offset : Nat) (piece : List α) : List α :=
  buffer.take offset ++ piece ++ buffer.drop (offset + piece.length)

theorem length_place {buffer piece : List α} {offset : Nat}
    (room : offset + piece.length ≤ buffer.length) :
    (place buffer offset piece).length = buffer.length := by
  simp only [place, List.length_append, List.length_take, List.length_drop]
  omega

@[simp] theorem place_nil (buffer : List α) (offset : Nat) : place buffer offset [] = buffer := by
  rw [place, List.append_nil, List.length_nil, Nat.add_zero, List.take_append_drop]

/-- Two pieces one behind the other are one piece. -/
theorem place_place {buffer first second : List α} {offset : Nat}
    (room : offset + first.length ≤ buffer.length) :
    place (place buffer offset first) (offset + first.length) second =
      place buffer offset (first ++ second) := by
  have front : (buffer.take offset ++ first).length = offset + first.length := by
    rw [List.length_append, List.length_take]
    omega
  rw [place, place, place, List.take_left' front, List.drop_append, front,
    List.drop_eq_nil_of_le (by rw [front]; omega), List.nil_append, List.drop_drop,
    List.length_append, ← List.append_assoc]
  congr 2
  omega

/-- From an offset on the loop moves a front of the source to the buffer.  It tells how much,
which is less than the buffer only at the end of the source, and it ends when the buffer is
full. -/
structure Receives (cap : Nat) (buffer source : List α) (total : Nat) (received : Received α σ) :
    Prop where
  moved : ∃ piece, source = piece ++ received.source ∧ total + piece.length ≤ buffer.length ∧
    received.buffer = place buffer total piece ∧
    (∀ amount, received.status = some (.ok amount) →
      amount = total + piece.length ∧ (amount < buffer.length → received.source = [])) ∧
    (total + piece.length = buffer.length → received.status = some (.ok buffer.length))
  within : ∀ request ∈ received.requests, request.Within cap buffer.length

namespace Receives

variable {cap total : Nat} {buffer source piece : List α} {received : Received α σ}
  {requests : List Request}

/-- The loop ends with a full buffer. -/
theorem full (all : total = buffer.length) :
    Receives cap buffer source total (⟨some (.ok total), buffer, source, []⟩ : Received α σ) where
  moved := by
    refine ⟨[], rfl, by rw [List.length_nil]; omega, (place_nil _ _).symm, ?_, ?_⟩
    · rintro amount ⟨⟩
      exact ⟨rfl, fun less => by omega⟩
    · intro _
      rw [all]
  within := by simp

/-- The loop ends at the end of the source. -/
theorem ended (more : total < buffer.length)
    (within : ∀ request ∈ requests, request.Within cap buffer.length) :
    Receives cap buffer [] total (⟨some (.ok total), buffer, [], requests⟩ : Received α σ) where
  moved := by
    refine ⟨[], rfl, by rw [List.length_nil]; omega, (place_nil _ _).symm, ?_, ?_⟩
    · rintro amount ⟨⟩
      exact ⟨rfl, fun _ => rfl⟩
    · intro filled
      rw [List.length_nil] at filled
      omega
  within := within

/-- The loop fails, or waits, in front of room that is left. -/
theorem unfinished (more : total < buffer.length) {status : Option (Except σ Nat)}
    (notOk : ∀ amount, status ≠ some (.ok amount))
    (within : ∀ request ∈ requests, request.Within cap buffer.length) :
    Receives cap buffer source total ⟨status, buffer, source, requests⟩ where
  moved := by
    refine ⟨[], rfl, by rw [List.length_nil]; omega, (place_nil _ _).symm, ?_, ?_⟩
    · intro amount ended
      exact (notOk amount ended).elim
    · intro filled
      rw [List.length_nil] at filled
      omega
  within := within

/-- A turn that moves nothing. -/
theorem after (rest : Receives cap buffer source total received)
    (within : ∀ request ∈ requests, request.Within cap buffer.length) :
    Receives cap buffer source total (received.after requests) :=
  ⟨rest.moved, List.forall_mem_append.mpr ⟨within, rest.within⟩⟩

/-- A turn that moves a piece and goes on behind it. -/
theorem place (front : piece <+: source) (room : total + piece.length ≤ buffer.length)
    (rest : Receives cap (Transfer.place buffer total piece) (source.drop piece.length)
      (total + piece.length) received) :
    Receives cap buffer source total received := by
  obtain ⟨left, rfl⟩ := front
  rw [List.drop_left] at rest
  obtain ⟨⟨behind, split, fits, placed, amount, filled⟩, within⟩ := rest
  rw [length_place room] at fits amount filled within
  rw [place_place room] at placed
  refine ⟨⟨piece ++ behind, ?_, ?_, placed, ?_, ?_⟩, within⟩
  · rw [split, List.append_assoc]
  · rw [List.length_append]
    omega
  · rw [List.length_append, ← Nat.add_assoc]
    exact amount
  · rw [List.length_append, ← Nat.add_assoc]
    exact filled

/-- A transfer that ended well moved as much as it tells. -/
theorem moved_eq (receives : Receives cap buffer source 0 received) {amount : Nat}
    (ended : received.status = some (.ok amount)) : received.moved source = amount := by
  obtain ⟨piece, split, -, -, tells, -⟩ := receives.moved
  have told := (tells amount ended).1
  rw [Received.moved, ended, split]
  simp only [List.length_append]
  omega

end Receives

/-- From an offset on the loop takes in what its turns offer of the source.  It ends well when
the buffer is full, or when a turn comes to the end of the source, and otherwise as the first
turn that does not go on. -/
structure ReceivesBy (buffer source : List α) (total : Nat) (turns : List (Outcome σ))
    (received : Received α σ) : Prop where
  taken : received.source = source.drop (min (offered turns) (buffer.length - total))
  full : buffer.length ≤ total + min (offered turns) source.length →
    received.status = some (.ok buffer.length)
  ended : total + source.length < buffer.length → MovesBehind source.length turns →
    received.status = some (.ok (total + source.length))
  otherwise : total + min (offered turns) source.length < buffer.length →
    ¬MovesBehind source.length turns → received.status = (failure turns).map .error

namespace ReceivesBy

variable {total : Nat} {buffer source : List α} {turns : List (Outcome σ)}
  {received : Received α σ} {requests : List Request}

theorem done (all : total = buffer.length) :
    ReceivesBy buffer source total turns (⟨some (.ok total), buffer, source, []⟩ : Received α σ) where
  taken := by rw [all, Nat.sub_self, Nat.min_zero, List.drop_zero]
  full := fun _ => by rw [all]
  ended := fun short => by omega
  otherwise := fun short => by omega

/-- The turns offer nothing, and room is left. -/
theorem unfinished (more : total < buffer.length) (nothing : offered turns = 0)
    (none : ¬MovesBehind source.length turns)
    {status : Option (Except σ Nat)} (ended : status = (failure turns).map .error) :
    ReceivesBy buffer source total turns ⟨status, buffer, source, requests⟩ where
  taken := by rw [nothing, Nat.zero_min, List.drop_zero]
  full := fun filled => by omega
  ended := fun _ here => (none here).elim
  otherwise := fun _ _ => ended

theorem idle (more : total < buffer.length) :
    ReceivesBy buffer source total [] (⟨none, buffer, source, requests⟩ : Received α σ) :=
  .unfinished more offered_nil not_movesBehind_nil (by rw [failure_nil, Option.map_none])

theorem fails (status : σ) (more : total < buffer.length) :
    ReceivesBy buffer source total (.fails status :: turns)
      ⟨some (.error status), buffer, source, requests⟩ :=
  .unfinished more offered_fails (not_movesBehind_stop rfl) (by rw [failure_fails, Option.map_some])

theorem waits (more : total < buffer.length) :
    ReceivesBy buffer source total (.waits :: turns) ⟨none, buffer, source, requests⟩ :=
  .unfinished more offered_waits (not_movesBehind_stop rfl) (by rw [failure_waits, Option.map_none])

/-- A turn that would move something comes to the end of the source. -/
theorem atEnd {amount : Nat} (more : total < buffer.length) :
    ReceivesBy buffer [] total (.moves amount :: turns)
      (⟨some (.ok total), buffer, [], requests⟩ : Received α σ) where
  taken := by rw [List.drop_nil]
  full := fun filled => by
    rw [List.length_nil] at filled
    omega
  ended := fun _ _ => rfl
  otherwise := fun _ none => (none (movesBehind_moves.mpr (.inl rfl))).elim

theorem again (rest : ReceivesBy buffer source total turns received) :
    ReceivesBy buffer source total (.again :: turns) (received.after requests) where
  taken := by rw [offered_again, Received.after, rest.taken]
  full := by
    rw [offered_again]
    exact rest.full
  ended := by
    rw [movesBehind_again]
    exact rest.ended
  otherwise := by
    rw [offered_again, movesBehind_again, failure_again]
    exact rest.otherwise

/-- A turn that moves as much of the source as it offers and there is room for. -/
theorem moves {amount : Nat} {piece : List α}
    (front : piece = source.take (min amount (buffer.length - total))) (some : source ≠ [])
    (rest : ReceivesBy (place buffer total piece) (source.drop piece.length)
      (total + piece.length) turns received) (fits : total ≤ buffer.length) :
    ReceivesBy buffer source total (.moves amount :: turns) (received.after requests) := by
  have left := List.length_pos_iff.mpr some
  have size : piece.length = min (min amount (buffer.length - total)) source.length := by
    rw [front, List.length_take]
  have room : total + piece.length ≤ buffer.length := by omega
  obtain ⟨taken, full, ended, otherwise⟩ := rest
  rw [length_place room] at taken full ended otherwise
  rw [List.length_drop] at full ended otherwise
  constructor
  · rw [offered_moves, Received.after, taken, List.drop_drop]
    rcases Nat.lt_or_ge piece.length source.length with inside | all
    · congr 1
      omega
    · rw [List.drop_eq_nil_of_le (by omega), List.drop_eq_nil_of_le (by omega)]
  · rw [offered_moves]
    exact fun filled => full (by omega)
  · rw [movesBehind_moves]
    rintro short (none | behind)
    · omega
    · have := ended (by omega) (by rwa [show source.length - piece.length = source.length - amount by omega])
      rw [Received.after, this]
      congr 2
      omega
  · rw [offered_moves, movesBehind_moves, failure_moves]
    intro short none
    rw [not_or] at none
    refine otherwise (by omega) fun behind => none.2 ?_
    rwa [show source.length - amount = source.length - piece.length by omega]

end ReceivesBy

/-! ## Runs of calls -/

section Calls

variable {κ : Type} (call : σ → κ → σ × Nat)

/-- Makes the calls in order, and adds up what they move. -/
def callAll (state : σ) : List κ → σ × Nat
  | [] => (state, 0)
  | next :: rest =>
      let (final, more) := callAll (call state next).1 rest
      (final, (call state next).2 + more)

/-- A counter that goes up by what each call moves has gone up by what they all move. -/
theorem callAll_count (count : σ → Int64)
    (counts : ∀ state next,
      count (call state next).1 = count state + Int64.ofNat (call state next).2)
    (state : σ) (calls : List κ) :
    count (callAll call state calls).1 =
      count state + Int64.ofNat (callAll call state calls).2 := by
  induction calls generalizing state with
  | nil => exact (Int64.add_zero _).symm
  | cons next rest ih =>
      calc
        count (callAll call (call state next).1 rest).1
        _ = count (call state next).1 + Int64.ofNat (callAll call (call state next).1 rest).2 :=
          ih _
        _ = count state + Int64.ofNat (call state next).2 +
            Int64.ofNat (callAll call (call state next).1 rest).2 := by rw [counts]
        _ = count state + Int64.ofNat (callAll call state (next :: rest)).2 := by
          rw [Int64.add_assoc, ← Int64.ofNat_add, callAll]

/-- From zero on, such a counter is the sum of what the calls move. -/
theorem callAll_count_zero (count : σ → Int64)
    (counts : ∀ state next,
      count (call state next).1 = count state + Int64.ofNat (call state next).2)
    {state : σ} (zero : count state = 0) (calls : List κ) :
    count (callAll call state calls).1 = Int64.ofNat (callAll call state calls).2 := by
  rw [callAll_count call count counts, zero, Int64.zero_add]

end Calls

end VgiRpc.Lib.Transfer
