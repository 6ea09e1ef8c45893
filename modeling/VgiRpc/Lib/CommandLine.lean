import Mathlib.Tactic

/-!
# Command lines

A command line is the name of a program and arguments with blanks between them.  Within
quotes a blank is a character like any other.  Backslashes stand for themselves, but in front
of a quote every two of them are one, and one that is left makes the quote a literal one.
-/

namespace VgiRpc.Lib.CommandLine

variable {α : Type*}

/-- The characters that a command line is read by. -/
structure Rules (α : Type*) where
  quote : α
  backslash : α
  blank : α → Bool
  /-- Whether two quotes within quotes are a literal one. -/
  pairs : Bool
  quote_ne_backslash : quote ≠ backslash
  blank_quote : blank quote = false
  blank_backslash : blank backslash = false

/-- An argument that is being read. -/
structure Pending (α : Type*) where
  text : List α
  backslashes : Nat
  quoted : Bool
  /-- The last character was the quote at the end of quotes. -/
  closed : Bool

variable [DecidableEq α] (rules : Rules α)

/-- The argument, if it ends here. -/
def Pending.finish (pending : Pending α) : List α :=
  pending.text ++ List.replicate pending.backslashes rules.backslash

/-- One more character of an argument. -/
def Pending.take (pending : Pending α) (character : α) : Pending α :=
  if character = rules.backslash then
    { pending with backslashes := pending.backslashes + 1, closed := false }
  else if character = rules.quote then
    let text := pending.text ++ List.replicate (pending.backslashes / 2) rules.backslash
    if pending.backslashes % 2 = 1 then ⟨text ++ [rules.quote], 0, pending.quoted, false⟩
    else if rules.pairs && pending.closed then ⟨text ++ [rules.quote], 0, true, false⟩
    else ⟨text, 0, !pending.quoted, pending.quoted⟩
  else ⟨pending.finish rules ++ [character], 0, pending.quoted, false⟩

/-- One character behind the name of the program: the argument that it ends, and the one that
is then being read. -/
def step (state : Option (Pending α)) (character : α) : Option (List α) × Option (Pending α) :=
  match state with
  | none =>
      if rules.blank character then (none, none)
      else (none, some (Pending.take rules ⟨[], 0, false, false⟩ character))
  | some pending =>
      if !pending.quoted && rules.blank character then (some (pending.finish rules), none)
      else (none, some (pending.take rules character))

attribute [grind =] step

/-- The arguments behind the name of the program. -/
def read : Option (Pending α) → List α → List (List α)
  | none, [] => []
  | some pending, [] => [pending.finish rules]
  | state, character :: rest =>
      (step rules state character).1.toList ++ read (step rules state character).2 rest

attribute [grind =] read

/-- The name of the program, without escapes, and what is behind it. -/
def programName : List α → List α × List α
  | [] => ([], [])
  | first :: rest =>
      if first = rules.quote then
        (rest.takeWhile (· != rules.quote), (rest.dropWhile (· != rules.quote)).drop 1)
      else ((first :: rest).takeWhile (! rules.blank ·), (first :: rest).dropWhile (! rules.blank ·))

/-- A command line as an argument vector. -/
def parse (line : List α) : List (List α) :=
  (programName rules line).1 :: read rules none (programName rules line).2

/-! ## Reading on -/

section Reading

variable {rules} {text rest : List α} {character : α} {quoted : Bool}

theorem read_blank (blank : rules.blank character = true) :
    read rules none (character :: rest) = read rules none rest := by
  simp only [read, step, if_pos blank, Option.toList_none, List.nil_append]

theorem read_first (dark : rules.blank character = false) : read rules none (character :: rest) =
    read rules (some ⟨[], 0, false, false⟩) (character :: rest) := by
  simp only [read, step, dark, Bool.and_false]
  rfl

theorem read_backslashes (backslashes more : Nat) :
    read rules (some ⟨text, backslashes, quoted, false⟩)
        (List.replicate more rules.backslash ++ rest) =
      read rules (some ⟨text, backslashes + more, quoted, false⟩) rest := by
  induction more generalizing backslashes with
  | zero => rfl
  | succ more inductionHypothesis =>
      rw [List.replicate_succ, List.cons_append, read]
      simp only [step, rules.blank_backslash, Bool.and_false, Bool.false_eq_true, if_false,
        Pending.take, if_true, Option.toList_none, List.nil_append]
      rw [inductionHypothesis, Nat.add_right_comm, Nat.add_assoc]

/-- Behind `2 n + 1` backslashes a quote is a literal one. -/
theorem read_literal_quote (half : Nat) :
    read rules (some ⟨text, half * 2 + 1, quoted, false⟩) (rules.quote :: rest) =
      read rules (some ⟨text ++ List.replicate half rules.backslash ++ [rules.quote], 0, quoted,
        false⟩) rest := by
  have odd : (half * 2 + 1) % 2 = 1 := by omega
  have halved : (half * 2 + 1) / 2 = half := by omega
  rw [read]
  simp only [step, rules.blank_quote, Bool.and_false, Bool.false_eq_true, if_false, Pending.take,
    if_neg rules.quote_ne_backslash, if_true, odd, halved, Option.toList_none, List.nil_append]

/-- Another character ends a run of backslashes, which then stand for themselves. -/
theorem read_plain (backslashes : Nat) (plain : character ≠ rules.backslash ∧ character ≠ rules.quote)
    (kept : quoted = true ∨ rules.blank character = false) :
    read rules (some ⟨text, backslashes, quoted, false⟩) (character :: rest) =
      read rules (some ⟨text ++ List.replicate backslashes rules.backslash ++ [character], 0, quoted,
        false⟩) rest := by
  have inside : (!quoted && rules.blank character) = false := by
    rcases kept with rfl | dark
    · rfl
    · rw [dark, Bool.and_false]
  rw [read]
  simp only [step, inside, Bool.false_eq_true, if_false, Pending.take, if_neg plain.1,
    if_neg plain.2, Pending.finish, Option.toList_none, List.nil_append]

/-- A quote at the beginning of an argument. -/
theorem read_opening_quote : read rules none (rules.quote :: rest) =
    read rules (some ⟨[], 0, true, false⟩) rest := by
  rw [read_first rules.blank_quote, read]
  simp only [step, rules.blank_quote, Bool.and_false, Bool.false_eq_true, if_false, Pending.take,
    if_neg rules.quote_ne_backslash, if_true, Option.toList_none, List.nil_append]
  rfl

end Reading

/-! ## Encodings -/

/-- Nothing or a blank comes next. -/
def Separated (rest : List α) : Prop := ∀ character ∈ rest.head?, rules.blank character = true

/-- A text that is read as one argument, wherever it stands in a command line. -/
def Encodes (code argument : List α) : Prop :=
  ∀ rest, Separated rules rest → read rules none (code ++ rest) = argument :: read rules none rest

section Encodings

variable {rules} {text rest argument : List α}

theorem read_end (separated : Separated rules rest) (backslashes : Nat) (closed : Bool) :
    read rules (some ⟨text, backslashes, false, closed⟩) rest =
      (text ++ List.replicate backslashes rules.backslash) :: read rules none rest := by
  cases rest with
  | nil => rfl
  | cons character rest =>
      have blank := separated character rfl
      rw [read_blank blank, read]
      simp only [step, Bool.not_false, Bool.true_and, if_pos blank]
      rfl

/-- Behind `2 n` backslashes a quote ends the quotes. -/
theorem read_closing_quote (separated : Separated rules rest) (half : Nat) :
    read rules (some ⟨text, half * 2, true, false⟩) (rules.quote :: rest) =
      (text ++ List.replicate half rules.backslash) :: read rules none rest := by
  have even : ¬half * 2 % 2 = 1 := by omega
  have halved : half * 2 / 2 = half := by omega
  have ended := @read_end α _ rules (text ++ List.replicate half rules.backslash) rest separated 0 true
  rw [List.replicate_zero, List.append_nil] at ended
  rw [← ended, read]
  simp only [step, Bool.not_true, Bool.false_and, Bool.false_eq_true, if_false, Pending.take,
    if_neg rules.quote_ne_backslash, if_true, if_neg even, halved, Bool.and_false,
    Option.toList_none, List.nil_append]

/-- An argument without blanks and quotes is its own encoding. -/
theorem encodes_self (present : argument ≠ [])
    (plain : ∀ character ∈ argument, rules.blank character = false ∧ character ≠ rules.quote) :
    Encodes rules argument argument := by
  intro rest separated
  have reads : ∀ (argument text : List α) (backslashes : Nat),
      (∀ character ∈ argument, rules.blank character = false ∧ character ≠ rules.quote) →
        read rules (some ⟨text, backslashes, false, false⟩) (argument ++ rest) =
          (text ++ List.replicate backslashes rules.backslash ++ argument) :: read rules none rest := by
    intro argument
    induction argument with
    | nil =>
        intro text backslashes _
        rw [List.nil_append, List.append_nil, read_end separated]
    | cons character argument inductionHypothesis =>
        intro text backslashes plain
        rw [List.forall_mem_cons] at plain
        by_cases backslash : character = rules.backslash
        · subst backslash
          have one := @read_backslashes α _ rules text (argument ++ rest) false backslashes 1
          rw [List.replicate_one, List.singleton_append] at one
          rw [List.cons_append, one, inductionHypothesis text (backslashes + 1) plain.2,
            List.replicate_succ', List.append_assoc, List.append_assoc, List.append_assoc,
            List.singleton_append]
        · rw [List.cons_append, read_plain backslashes ⟨backslash, plain.1.2⟩ (.inr plain.1.1),
            inductionHypothesis _ 0 plain.2, List.replicate_zero, List.append_nil,
            List.append_assoc, List.singleton_append]
  cases argument with
  | nil => exact absurd rfl present
  | cons character argument =>
      rw [List.cons_append, read_first (plain character List.mem_cons_self).1, ← List.cons_append,
        reads _ _ 0 plain]
      rfl

omit [DecidableEq α] in
/-- Encodings with a blank in front of each begin with a blank. -/
theorem separated_encodings {space : α} (blank : rules.blank space = true) {encode : List α → List α}
    {arguments : List (List α)} :
    Separated rules (arguments.flatMap fun argument => space :: encode argument) := by
  cases arguments with
  | nil => nofun
  | cons next arguments =>
      intro character first
      rw [List.flatMap_cons, List.cons_append, List.head?_cons, Option.mem_some_iff] at first
      rwa [← first]

/-- They are read as the arguments that they encode. -/
theorem read_encodings {space : α} (blank : rules.blank space = true) {encode : List α → List α}
    {arguments : List (List α)} (encodes : ∀ argument ∈ arguments, Encodes rules (encode argument) argument) :
    read rules none (arguments.flatMap fun argument => space :: encode argument) = arguments := by
  induction arguments with
  | nil => rfl
  | cons argument arguments inductionHypothesis =>
      rw [List.forall_mem_cons] at encodes
      rw [List.flatMap_cons, List.cons_append, read_blank blank,
        encodes.1 _ (separated_encodings blank), inductionHypothesis encodes.2]

end Encodings

/-! ## The name of the program -/

section Program

variable {rules} {name rest : List α}

theorem programName_quoted (unquoted : rules.quote ∉ name) :
    programName rules (rules.quote :: (name ++ rules.quote :: rest)) = (name, rest) := by
  have plain : ∀ character ∈ name, (character != rules.quote) = true := by
    intro character member
    rw [bne_iff_ne]
    rintro rfl
    exact unquoted member
  rw [programName, if_pos rfl, List.takeWhile_append_of_pos plain, List.dropWhile_append_of_pos plain]
  simp

theorem programName_plain (present : name ≠ []) (separated : Separated rules rest)
    (plain : ∀ character ∈ name, rules.blank character = false ∧ character ≠ rules.quote) :
    programName rules (name ++ rest) = (name, rest) := by
  have dark : ∀ character ∈ name, (! rules.blank character) = true := by
    intro character member
    rw [(plain character member).1, Bool.not_false]
  have ends : rest.takeWhile (! rules.blank ·) = [] ∧ rest.dropWhile (! rules.blank ·) = rest := by
    cases rest with
    | nil => exact ⟨rfl, rfl⟩
    | cons character rest =>
        have blank := separated character rfl
        simp [blank]
  cases name with
  | nil => exact absurd rfl present
  | cons first name =>
      rw [List.cons_append, programName, if_neg (plain first List.mem_cons_self).2, ← List.cons_append,
        List.takeWhile_append_of_pos dark, List.dropWhile_append_of_pos dark, ends.1, ends.2,
        List.append_nil]

end Program

end VgiRpc.Lib.CommandLine
