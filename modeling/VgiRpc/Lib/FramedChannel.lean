import Mathlib.Tactic

/-!
# Framed streams on a channel

A channel carries streams one after another.  A stream is a schema, any number of
batches and an end marker.  What is in flight of one stream is determined by how
much of it is written and how much of it is read.
-/

namespace VgiRpc.Lib

/-- The messages of a stream. -/
inductive Token (β : Type) where
  | schema
  | batch (content : β)
  | eos
  deriving DecidableEq

/-- A whole stream. -/
def framed {β : Type} (batches : List β) : List (Token β) :=
  .schema :: (batches.map .batch ++ [.eos])

/-- How far the reader of a stream is: before the schema, or with the batches read
so far. -/
inductive Reader (β : Type) where
  | start
  | body (read : List β)
  deriving DecidableEq

/-- What a reader has taken off the channel. -/
def Reader.consumed {β : Type} : Reader β → List (Token β)
  | .start => []
  | .body read => .schema :: read.map .batch

/-- How much of a stream is written. -/
inductive Phase where
  | unsent
  | unfinished
  | complete
  deriving DecidableEq

/-- How much of a stream is read. -/
inductive Progress where
  | start
  | body
  | done
  deriving DecidableEq

/-- What is in flight of one stream, given what is written and read of it. -/
inductive Carries {β : Type} : Phase → Progress → List (Token β) → Prop
  | unsent : Carries .unsent .start []
  | unfinished (batches : List β) : Carries .unfinished .start (.schema :: batches.map .batch)
  | complete (batches : List β) : Carries .complete .start (framed batches)
  | body (batches : List β) : Carries .unfinished .body (batches.map .batch)
  | rest (batches : List β) : Carries .complete .body (batches.map .batch ++ [.eos])
  | done : Carries .complete .done []

namespace Carries

variable {β : Type} {progress : Progress} {tokens : List (Token β)}

theorem write_all (carries : Carries .unfinished progress tokens) (batches : List β) :
    Carries .unfinished progress (tokens ++ batches.map .batch) := by
  cases carries with
  | unfinished written =>
      rw [List.cons_append, ← List.map_append]
      exact .unfinished (written ++ batches)
  | body written =>
      rw [← List.map_append]
      exact .body (written ++ batches)

theorem open_all (carries : Carries .unsent progress tokens) (batches : List β) :
    Carries .unfinished progress (tokens ++ .schema :: batches.map .batch) := by
  cases carries with
  | unsent => exact .unfinished batches

theorem close (carries : Carries .unfinished progress tokens) :
    Carries .complete progress (tokens ++ [.eos]) := by
  cases carries with
  | unfinished written => exact .complete written
  | body written => exact .rest written

theorem open_close (carries : Carries .unsent progress tokens) :
    Carries .complete progress (tokens ++ [.schema, .eos]) := by
  cases carries with
  | unsent => exact .complete []

theorem read_start {phase : Phase} {token : Token β}
    (carries : Carries phase .start (token :: tokens)) :
    token = .schema ∧ Carries phase .body tokens := by
  cases carries with
  | unfinished written => exact ⟨rfl, .body written⟩
  | complete written => exact ⟨rfl, .rest written⟩

/-- Reading in the middle of a stream: a batch, or the end of a complete stream. -/
theorem read_body {phase : Phase} {token : Token β}
    (carries : Carries phase .body (token :: tokens)) :
    (∃ content, token = .batch content ∧ Carries phase .body tokens) ∨
      (token = .eos ∧ phase = .complete ∧ tokens = []) := by
  generalize whole : token :: tokens = all at carries
  cases carries with
  | body written =>
      cases written with
      | nil => simp at whole
      | cons first written =>
          rw [List.map_cons, List.cons.injEq] at whole
          rw [whole.2]
          exact .inl ⟨first, whole.1, .body written⟩
  | rest written =>
      cases written with
      | nil =>
          rw [List.map_nil, List.nil_append, List.cons.injEq] at whole
          exact .inr ⟨whole.1, rfl, whole.2⟩
      | cons first written =>
          rw [List.map_cons, List.cons_append, List.cons.injEq] at whole
          rw [whole.2]
          exact .inl ⟨first, whole.1, .rest written⟩

/-- A complete stream with nothing in flight is read. -/
theorem done_of_nil (carries : Carries .complete progress ([] : List (Token β))) :
    progress = .done := by
  generalize empty : ([] : List (Token β)) = all at carries
  cases carries with
  | complete written => simp [framed] at empty
  | rest written => simp at empty
  | done => rfl

theorem not_read_done {phase : Phase} {token : Token β} :
    ¬Carries phase .done (token :: tokens) := by
  intro carries
  cases carries

end Carries

/-- A reader that collects a known stream meets its messages in order. -/
theorem Reader.next_of_framed {β : Type} {reader : Reader β} {token : Token β}
    {tokens : List (Token β)} {batches : List β}
    (whole : reader.consumed ++ token :: tokens = framed batches) :
    (reader = .start ∧ token = .schema ∧ (Reader.body []).consumed ++ tokens = framed batches) ∨
      (∃ read content, reader = .body read ∧ token = .batch content ∧
        (Reader.body (read ++ [content])).consumed ++ tokens = framed batches) ∨
      (reader = .body batches ∧ token = .eos ∧ tokens = []) := by
  cases reader with
  | start =>
      simp only [consumed, framed, List.nil_append, List.cons.injEq] at whole
      refine .inl ⟨rfl, whole.1, ?_⟩
      simp [consumed, framed, whole.2]
  | body read =>
      cases token with
      | schema =>
          exfalso
          have inside : Token.schema ∈ batches.map Token.batch ++ [Token.eos] := by
            simp only [consumed, framed, List.cons_append, List.cons.injEq, true_and] at whole
            rw [← whole]
            simp
          simp at inside
      | batch content =>
          refine .inr (.inl ⟨read, content, rfl, rfl, ?_⟩)
          rw [← whole]
          simp [consumed]
      | eos =>
          simp only [consumed, framed, List.cons_append, List.cons.injEq, true_and] at whole
          rcases tokens.eq_nil_or_concat with rfl | ⟨front, last, rfl⟩
          · have same := List.append_inj_left' whole rfl
            have readEq : read = batches := by
              apply List.map_injective_iff.mpr _ same
              intro first second equal
              exact Token.batch.inj equal
            exact .inr (.inr ⟨by rw [readEq], rfl, rfl⟩)
          · exfalso
            rw [List.concat_eq_append, ← List.cons_append, ← List.append_assoc] at whole
            have same := List.append_inj_left' whole rfl
            have inside : Token.eos ∈ batches.map Token.batch := by
              rw [← same]
              simp
            simp at inside


end VgiRpc.Lib
