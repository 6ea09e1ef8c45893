import VgiRpc.Cpp.Text
import VgiRpc.Lib.CommandLine

/-!
# The command line of a subprocess

On Windows `ClientTransport::spawn` hands over its argument vector as one text, which the new
process cuts into arguments again.  Each argument is converted to UTF-16, quoted if it has to
be, and separated by a space.
-/

namespace VgiRpc.Client

open VgiRpc.Cpp VgiRpc.Lib

/-- `std::wstring`, of 16 bits a character. -/
abbrev Wide := List UInt16

/-! ## UTF-16 -/

/-- The UTF-16 text of a character. -/
def wideCharacter (character : Char) : Wide :=
  if character.toNat < 0x10000 then [UInt16.ofNat character.toNat]
  else
    [UInt16.ofNat (0xd800 + (character.toNat - 0x10000) / 0x400),
      UInt16.ofNat (0xdc00 + (character.toNat - 0x10000) % 0x400)]

/-- The characters of a UTF-8 text. -/
def utf8Characters (text : Bytes) : Option (List Char) :=
  text.toByteArray.utf8Decode?.map Array.toList

/-- `MultiByteToWideChar(CP_UTF8, MB_ERR_INVALID_CHARS, ...)` for a text that a NUL follows.
With the size -1 it goes on to the first NUL, and it fails for other sizes below one. -/
def multiByteToWideChar (text : Bytes) (size : Int) : Option Wide :=
  if size = -1 then
    (utf8Characters (text.takeWhile (· != 0) ++ [0])).map (·.flatMap wideCharacter)
  else if size ≤ 0 then none
  else (utf8Characters (text.take size.toNat)).map (·.flatMap wideCharacter)

/-- The characters of a UTF-16 text. -/
def wideCharacters : Wide → Option (List Char)
  | [] => some []
  | unit :: rest =>
      if 0xd800 ≤ unit ∧ unit ≤ 0xdbff then
        match rest with
        | low :: rest =>
            if 0xdc00 ≤ low ∧ low ≤ 0xdfff then
              (wideCharacters rest).map
                (Char.ofNat (0x10000 + (unit.toNat - 0xd800) * 0x400 + (low.toNat - 0xdc00)) :: ·)
            else none
        | [] => none
      else if 0xdc00 ≤ unit ∧ unit ≤ 0xdfff then none
      else (wideCharacters rest).map (Char.ofNat unit.toNat :: ·)

/-- A UTF-16 text as UTF-8. -/
def wideToUtf8 (text : Wide) : Option Bytes :=
  (wideCharacters text).map (·.flatMap String.utf8EncodeChar)

/-! ## Quoting -/

/-- What a caller of `spawn` did wrong. -/
inductive ArgvError where
  | noProgram
  | nulByte
  | negativeGrace
  | notUtf8
  deriving DecidableEq, Repr

def ArgvError.what : ArgvError → Bytes
  | .noProgram => ascii "subprocess argv must name a program"
  | .nulByte => ascii "subprocess argv must not contain NUL bytes"
  | .negativeGrace => ascii "subprocess shutdown grace periods must not be negative"
  | .notUtf8 => ascii "subprocess argv is not valid UTF-8"

/-- `static_cast<int>` of a size. -/
def intOfSize (size : Nat) : Int := (Int32.ofNat size).toInt

/-- `utf8_to_wide`. -/
def utf8ToWide (value : Bytes) : Except ArgvError Wide :=
  if value = [] then .ok []
  else
    match multiByteToWideChar value (intOfSize value.length) with
    | none => .error .notUtf8
    | some result => .ok result

/-- The characters for which an argument is quoted. -/
def quotedFor (character : UInt16) : Bool :=
  character == 0x20 || character == 0x09 || character == 0x0a || character == 0x0b || character == 0x22

/-- The loop of `quote_windows_argument`, with the backslashes it has counted. -/
def quoteLoop (backslashes : Nat) : Wide → Wide
  | [] => List.replicate (backslashes * 2) 0x5c ++ [0x22]
  | character :: rest =>
      if character = 0x5c then quoteLoop (backslashes + 1) rest
      else if character = 0x22 then
        List.replicate (backslashes * 2 + 1) 0x5c ++ 0x22 :: quoteLoop 0 rest
      else List.replicate backslashes 0x5c ++ character :: quoteLoop 0 rest

/-- `quote_windows_argument`. -/
def quoteWindowsArgument (argument : Wide) : Wide :=
  if argument ≠ [] ∧ argument.any quotedFor = false then argument
  else 0x22 :: quoteLoop 0 argument

/-- The arguments from the second one on, with a space in front of each. -/
def moreArguments : List Bytes → Except ArgvError Wide
  | [] => .ok []
  | argument :: arguments => do
      let wide ← utf8ToWide argument
      return 0x20 :: quoteWindowsArgument wide ++ (← moreArguments arguments)

/-- `windows_command_line`. -/
def windowsCommandLine : List Bytes → Except ArgvError Wide
  | [] => .ok []
  | program :: arguments => do
      let wide ← utf8ToWide program
      return quoteWindowsArgument wide ++ (← moreArguments arguments)

/-- `SubprocessTransportOptions`, as far as `spawn` checks them: milliseconds. -/
structure SubprocessTransportOptions where
  closeGrace : Int := 2000
  terminateGrace : Int := 2000

/-- What `spawn` gives to `CreateProcessW`. -/
def spawnedCommandLine (argv : List Bytes) (options : SubprocessTransportOptions) :
    Except ArgvError Wide :=
  if argv = [] ∨ argv.head? = some [] then .error .noProgram
  else if ∃ argument ∈ argv, (0 : UInt8) ∈ argument then .error .nulByte
  else if options.closeGrace < 0 ∨ options.terminateGrace < 0 then .error .negativeGrace
  else do
    let commandLine ← windowsCommandLine argv
    return commandLine ++ [0]

/-! ## Conversion -/

/-- The UTF-8 text of characters. -/
def utf8 (characters : List Char) : Bytes := characters.flatMap String.utf8EncodeChar

/-- Whether a byte string is a UTF-8 text. -/
def IsUtf8 (text : Bytes) : Prop := ∃ characters, text = utf8 characters

section Conversion

variable {characters : List Char} {character : Char} {text : Bytes} {wide : Wide}

theorem utf8Characters_eq_some_iff : utf8Characters text = some characters ↔ text = utf8 characters := by
  have bytes : ∀ list : Bytes, list.toByteArray.data.toList = list := by
    intro list
    simp
  constructor
  · intro decoded
    obtain ⟨found, decodes, rfl⟩ := Option.map_eq_some_iff.mp decoded
    have present : text.toByteArray.utf8Decode?.isSome = true := by rw [decodes]; rfl
    have whole := @ByteArray.utf8Encode_get_utf8Decode? text.toByteArray present
    simp only [decodes, Option.get_some, List.utf8Encode] at whole
    rw [utf8, ← bytes text, ← whole, bytes]
  · rintro rfl
    have decodes := @List.utf8Decode?_utf8Encode characters
    rw [List.utf8Encode] at decodes
    rw [utf8Characters, utf8, decodes]
    simp

theorem wideCharacter_ascii (small : character.toNat < 0x80) :
    wideCharacter character = [UInt16.ofNat character.toNat] ∧
      String.utf8EncodeChar character = [UInt8.ofNat character.toNat] := by
  constructor
  · rw [wideCharacter, if_pos (by omega)]
  · have value : character.val.toNat ≤ 0x7f := Nat.lt_succ_iff.mp small
    simp only [String.utf8EncodeChar, if_pos value]
    rfl

theorem toNat_unit {value : Nat} (bound : value < 0x10000) : (UInt16.ofNat value).toNat = value :=
  UInt16.toNat_ofNat_of_lt' bound

theorem toNat_not_surrogate (character : Char) :
    character.toNat < 0xd800 ∨ (0xdfff < character.toNat ∧ character.toNat < 0x110000) :=
  character.valid

/-- A unit below the surrogates is a character of its own. -/
theorem eq_of_mem_wideCharacter {unit : UInt16} (member : unit ∈ wideCharacter character)
    (low : unit.toNat < 0xd800) : unit.toNat = character.toNat ∧ wideCharacter character = [unit] := by
  have range := toNat_not_surrogate character
  rw [wideCharacter] at member ⊢
  split at member
  next basic =>
      rw [if_pos basic]
      obtain rfl := List.mem_singleton.mp member
      exact ⟨toNat_unit basic, rfl⟩
  next =>
      simp only [List.mem_cons, List.not_mem_nil, or_false] at member
      rcases member with rfl | rfl
      · rw [toNat_unit (by omega)] at low
        omega
      · rw [toNat_unit (by omega)] at low
        omega

theorem wideCharacters_cons (character : Char) (rest : Wide) :
    wideCharacters (wideCharacter character ++ rest) =
      (wideCharacters rest).map (character :: ·) := by
  have range := toNat_not_surrogate character
  rw [wideCharacter]
  split
  next basic =>
      have value : (UInt16.ofNat character.toNat).toNat = character.toNat := toNat_unit basic
      have high : ¬(0xd800 ≤ UInt16.ofNat character.toNat ∧ UInt16.ofNat character.toNat ≤ 0xdbff) := by
        simp only [UInt16.le_iff_toNat_le, value, UInt16.reduceToNat]
        omega
      have low : ¬(0xdc00 ≤ UInt16.ofNat character.toNat ∧ UInt16.ofNat character.toNat ≤ 0xdfff) := by
        simp only [UInt16.le_iff_toNat_le, value, UInt16.reduceToNat]
        omega
      rw [List.singleton_append, wideCharacters.eq_def]
      simp only [if_neg high, if_neg low, value, Char.ofNat_toNat]
  next extended =>
      have first : (UInt16.ofNat (0xd800 + (character.toNat - 0x10000) / 0x400)).toNat =
          0xd800 + (character.toNat - 0x10000) / 0x400 := toNat_unit (by omega)
      have second : (UInt16.ofNat (0xdc00 + (character.toNat - 0x10000) % 0x400)).toNat =
          0xdc00 + (character.toNat - 0x10000) % 0x400 := toNat_unit (by omega)
      have high : 0xd800 ≤ UInt16.ofNat (0xd800 + (character.toNat - 0x10000) / 0x400) ∧
          UInt16.ofNat (0xd800 + (character.toNat - 0x10000) / 0x400) ≤ 0xdbff := by
        simp only [UInt16.le_iff_toNat_le, first, UInt16.reduceToNat]
        omega
      have low : 0xdc00 ≤ UInt16.ofNat (0xdc00 + (character.toNat - 0x10000) % 0x400) ∧
          UInt16.ofNat (0xdc00 + (character.toNat - 0x10000) % 0x400) ≤ 0xdfff := by
        simp only [UInt16.le_iff_toNat_le, second, UInt16.reduceToNat]
        omega
      have value : 0x10000 + (0xd800 + (character.toNat - 0x10000) / 0x400 - 0xd800) * 0x400 +
          (0xdc00 + (character.toNat - 0x10000) % 0x400 - 0xdc00) = character.toNat := by omega
      rw [List.cons_append, List.singleton_append, wideCharacters]
      simp only [if_pos high, if_pos low, first, second, value, Char.ofNat_toNat]

/-- Converting back gives the text again. -/
theorem wideToUtf8_wide (characters : List Char) :
    wideToUtf8 (characters.flatMap wideCharacter) = some (utf8 characters) := by
  have units : wideCharacters (characters.flatMap wideCharacter) = some characters := by
    induction characters with
    | nil => rfl
    | cons character characters inductionHypothesis =>
        rw [List.flatMap_cons, wideCharacters_cons, inductionHypothesis, Option.map_some]
  rw [wideToUtf8, units, Option.map_some, utf8]

/-- An ASCII unit of the wide text is a byte of the text. -/
theorem mem_of_mem_wide {unit : UInt16} (small : unit.toNat < 0x80)
    (member : unit ∈ characters.flatMap wideCharacter) : UInt8.ofNat unit.toNat ∈ utf8 characters := by
  obtain ⟨character, listed, inside⟩ := List.mem_flatMap.mp member
  obtain ⟨same, -⟩ := eq_of_mem_wideCharacter inside (by omega)
  apply List.mem_flatMap.mpr
  refine ⟨character, listed, ?_⟩
  rw [(wideCharacter_ascii (same ▸ small)).2, same]
  exact List.mem_singleton_self _

/-- An ASCII unit at the end of the wide text is a byte at the end of the text. -/
theorem getLast?_of_getLast?_wide {unit : UInt16} (small : unit.toNat < 0x80)
    (last : (characters.flatMap wideCharacter).getLast? = some unit) :
    (utf8 characters).getLast? = some (UInt8.ofNat unit.toNat) := by
  rcases List.eq_nil_or_concat' characters with rfl | ⟨front, character, rfl⟩
  · cases last
  · rw [List.flatMap_append, List.flatMap_singleton, List.getLast?_append] at last
    have present : wideCharacter character ≠ [] := by
      rw [wideCharacter]
      split <;> exact List.cons_ne_nil _ _
    cases final : (wideCharacter character).getLast? with
    | none => exact absurd (List.getLast?_eq_none_iff.mp final) present
    | some unit' =>
        rw [final, Option.some_or, Option.some.injEq] at last
        subst last
        obtain ⟨same, -⟩ := eq_of_mem_wideCharacter (List.mem_of_mem_getLast? final) (by omega)
        rw [utf8, List.flatMap_append, List.flatMap_singleton,
          (wideCharacter_ascii (same ▸ small)).2, List.getLast?_concat, same]

/-- Texts that an `int` can hold the size of are converted, if they are UTF-8. -/
theorem utf8ToWide_ok_iff (small : text.length < 2 ^ 31) :
    utf8ToWide text = .ok wide ↔
      ∃ characters, text = utf8 characters ∧ wide = characters.flatMap wideCharacter := by
  rw [utf8ToWide]
  split
  next empty =>
      subst empty
      constructor
      · intro converted
        exact ⟨[], rfl, (Except.ok.inj converted).symm⟩
      · rintro ⟨characters, none, rfl⟩
        have decoded := utf8Characters_eq_some_iff.mpr none
        have nothing := utf8Characters_eq_some_iff.mpr (show ([] : Bytes) = utf8 [] from rfl)
        rw [nothing, Option.some.injEq] at decoded
        rw [← decoded]
        rfl
  next present =>
      have positive := List.length_pos_iff.mpr present
      have size : intOfSize text.length = text.length := by
        rw [intOfSize, Int32.toInt_ofNat_of_lt small]
      have result : multiByteToWideChar text (intOfSize text.length) =
          (utf8Characters text).map (·.flatMap wideCharacter) := by
        rw [multiByteToWideChar, size, if_neg (by omega), if_neg (by omega), Int.toNat_natCast,
          List.take_length]
      rw [result]
      cases decoded : utf8Characters text with
      | none =>
          apply iff_of_false nofun
          rintro ⟨characters, same, -⟩
          rw [utf8Characters_eq_some_iff.mpr same] at decoded
          cases decoded
      | some characters =>
          constructor
          · intro converted
            exact ⟨characters, utf8Characters_eq_some_iff.mp decoded, (Except.ok.inj converted).symm⟩
          · rintro ⟨others, same, rfl⟩
            rw [utf8Characters_eq_some_iff.mpr same, Option.some.injEq] at decoded
            rw [decoded]
            rfl

theorem utf8ToWide_error (small : text.length < 2 ^ 31) (broken : ¬IsUtf8 text) :
    utf8ToWide text = .error .notUtf8 := by
  cases converted : utf8ToWide text with
  | ok wide =>
      obtain ⟨characters, same, -⟩ := (utf8ToWide_ok_iff small).mp converted
      exact absurd ⟨characters, same⟩ broken
  | error error =>
      rw [utf8ToWide] at converted
      split at converted
      next => cases converted
      next =>
          split at converted
          next => exact converted.symm
          next => cases converted

end Conversion

/-! ## Reading back -/

/-- The rules of a Windows process, in which two quotes within quotes may be a literal one. -/
def windowsRules (pairs : Bool) : CommandLine.Rules UInt16 where
  quote := 0x22
  backslash := 0x5c
  blank character := character == 0x20 || character == 0x09
  pairs := pairs
  quote_ne_backslash := by decide
  blank_quote := by decide
  blank_backslash := by decide

/-- The argument vector of a process that has been given the line. -/
def parseCommandLine (pairs : Bool) (line : Wide) : List Wide :=
  CommandLine.parse (windowsRules pairs) (line.takeWhile (· != 0))

section Reading

variable {pairs : Bool} {argument rest : Wide}

/-- What the loop has written is read as the argument.  The backslashes it has counted are the
ones that the reader has not seen yet. -/
theorem read_quoteLoop (separated : CommandLine.Separated (windowsRules pairs) rest) (argument text : Wide)
    (backslashes : Nat) :
    CommandLine.read (windowsRules pairs) (some ⟨text, 0, true, false⟩)
        (quoteLoop backslashes argument ++ rest) =
      (text ++ List.replicate backslashes 0x5c ++ argument) ::
        CommandLine.read (windowsRules pairs) none rest := by
  have run : ∀ (text rest : Wide) (count : Nat),
      CommandLine.read (windowsRules pairs) (some ⟨text, 0, true, false⟩)
          (List.replicate count 0x5c ++ rest) =
        CommandLine.read (windowsRules pairs) (some ⟨text, count, true, false⟩) rest := by
    intro text rest count
    have counted := @CommandLine.read_backslashes _ _ (windowsRules pairs) text rest true 0 count
    rwa [Nat.zero_add] at counted
  induction argument generalizing text backslashes with
  | nil =>
      rw [quoteLoop, List.append_assoc, run, List.append_nil]
      exact CommandLine.read_closing_quote separated backslashes
  | cons character argument inductionHypothesis =>
      rw [quoteLoop]
      split
      next backslash =>
          subst backslash
          rw [inductionHypothesis, List.replicate_succ', List.append_assoc, List.append_assoc,
            List.append_assoc, List.singleton_append]
      next other =>
          split
          next quote =>
              subst quote
              rw [List.append_assoc, run, List.cons_append]
              have literal := @CommandLine.read_literal_quote _ _ (windowsRules pairs) text
                (quoteLoop 0 argument ++ rest) true backslashes
              refine Eq.trans literal ?_
              rw [inductionHypothesis, List.replicate_zero, List.append_nil, List.append_assoc _ [_],
                List.singleton_append]
              rfl
          next plain =>
              rw [List.append_assoc, run, List.cons_append,
                CommandLine.read_plain backslashes ⟨other, plain⟩ (.inl rfl), inductionHypothesis,
                List.replicate_zero, List.append_nil, List.append_assoc _ [_], List.singleton_append]
              rfl

theorem plain_of_not_quotedFor (plain : argument.any quotedFor = false) : ∀ character ∈ argument,
    (windowsRules pairs).blank character = false ∧ character ≠ (windowsRules pairs).quote := by
  intro character member
  have unmarked := (List.any_eq_false.mp plain) character member
  simp only [quotedFor, Bool.not_eq_true, Bool.or_eq_false_iff, beq_eq_false_iff_ne] at unmarked
  obtain ⟨⟨⟨⟨space, tab⟩, -⟩, -⟩, quote⟩ := unmarked
  refine ⟨?_, quote⟩
  simp [windowsRules, space, tab]

/-- A quoted argument is read as the argument, wherever it stands. -/
theorem encodes_quoteWindowsArgument (argument : Wide) :
    CommandLine.Encodes (windowsRules pairs) (quoteWindowsArgument argument) argument := by
  rw [quoteWindowsArgument]
  split
  next plain => exact CommandLine.encodes_self plain.1 (plain_of_not_quotedFor plain.2)
  next =>
      intro rest separated
      have opened := @CommandLine.read_opening_quote _ _ (windowsRules pairs)
        (quoteLoop 0 argument ++ rest)
      rw [List.cons_append]
      refine Eq.trans opened ?_
      rw [read_quoteLoop separated]
      rfl

/-- A text without quotes that ends in another character than a backslash is only wrapped. -/
theorem quoteLoop_unquoted {backslashes : Nat} (unquoted : (0x22 : UInt16) ∉ argument)
    (ends : argument.getLast? ≠ some 0x5c) (counted : argument = [] → backslashes = 0) :
    quoteLoop backslashes argument = List.replicate backslashes 0x5c ++ (argument ++ [0x22]) := by
  induction argument generalizing backslashes with
  | nil =>
      rw [counted rfl]
      rfl
  | cons character argument inductionHypothesis =>
      rw [List.mem_cons, not_or] at unquoted
      have later : argument.getLast? ≠ some 0x5c := by
        cases argument with
        | nil => nofun
        | cons next argument => rwa [List.getLast?_cons_cons] at ends
      rw [quoteLoop]
      split
      next backslash =>
          subst backslash
          have present : argument = [] → backslashes + 1 = 0 := by
            rintro rfl
            exact absurd rfl ends
          rw [inductionHypothesis unquoted.2 later present, List.replicate_succ', List.append_assoc]
          rfl
      next =>
          rw [if_neg (Ne.symm unquoted.1), inductionHypothesis unquoted.2 later (fun _ => rfl)]
          rfl

/-- The name of the program, which has no escapes. -/
theorem programName_quote (unquoted : (0x22 : UInt16) ∉ argument) (ends : argument.getLast? ≠ some 0x5c)
    (separated : CommandLine.Separated (windowsRules pairs) rest) :
    CommandLine.programName (windowsRules pairs) (quoteWindowsArgument argument ++ rest) =
      (argument, rest) := by
  rw [quoteWindowsArgument]
  split
  next plain =>
      exact CommandLine.programName_plain plain.1 separated (plain_of_not_quotedFor plain.2)
  next =>
      rw [quoteLoop_unquoted unquoted ends (fun _ => rfl), List.replicate_zero, List.nil_append,
        List.cons_append, List.append_assoc, List.singleton_append]
      exact CommandLine.programName_quoted unquoted

theorem mem_quoteLoop {character : UInt16} {backslashes : Nat}
    (member : character ∈ quoteLoop backslashes argument) :
    character = 0x5c ∨ character = 0x22 ∨ character ∈ argument := by
  fun_induction quoteLoop backslashes argument with
  | case1 backslashes =>
      rcases List.mem_append.mp member with run | quote
      · exact .inl (List.eq_of_mem_replicate run)
      · exact .inr (.inl (List.mem_singleton.mp quote))
  | case2 backslashes rest inductionHypothesis =>
      exact (inductionHypothesis member).imp_right (Or.imp_right (List.mem_cons_of_mem _))
  | case3 backslashes rest other inductionHypothesis =>
      rcases List.mem_append.mp member with run | behind
      · exact .inl (List.eq_of_mem_replicate run)
      · rcases List.mem_cons.mp behind with quote | later
        · exact .inr (.inl quote)
        · exact (inductionHypothesis later).imp_right (Or.imp_right (List.mem_cons_of_mem _))
  | case4 backslashes next rest other plain inductionHypothesis =>
      rcases List.mem_append.mp member with run | behind
      · exact .inl (List.eq_of_mem_replicate run)
      · rcases List.mem_cons.mp behind with here | later
        · exact .inr (.inr (here ▸ List.mem_cons_self))
        · exact (inductionHypothesis later).imp_right (Or.imp_right (List.mem_cons_of_mem _))

/-- The line of a program and its arguments. -/
def quotedLine (program : Wide) (arguments : List Wide) : Wide :=
  quoteWindowsArgument program ++ arguments.flatMap fun argument => 0x20 :: quoteWindowsArgument argument

/-- Quoting adds no NUL. -/
theorem nul_not_mem_quote (nulFree : (0 : UInt16) ∉ argument) :
    (0 : UInt16) ∉ quoteWindowsArgument argument := by
  rw [quoteWindowsArgument]
  split
  next => exact nulFree
  next =>
      intro member
      rcases List.mem_cons.mp member with quote | looped
      · exact absurd quote (by decide)
      · rcases mem_quoteLoop looped with backslash | quote | inside
        · exact absurd backslash (by decide)
        · exact absurd quote (by decide)
        · exact nulFree inside

section Lines

variable {program : Wide} {arguments : List Wide}

theorem nul_not_mem_quotedLine (nulFree : ∀ argument ∈ program :: arguments, (0 : UInt16) ∉ argument) :
    (0 : UInt16) ∉ quotedLine program arguments := by
  rw [List.forall_mem_cons] at nulFree
  intro member
  rcases List.mem_append.mp member with head | behind
  · exact nul_not_mem_quote nulFree.1 head
  · obtain ⟨argument, listed, inside⟩ := List.mem_flatMap.mp behind
    rcases List.mem_cons.mp inside with space | quoted
    · exact absurd space (by decide)
    · exact nul_not_mem_quote (nulFree.2 argument listed) quoted

/-- The line is read as the program and its arguments, up to a NUL behind it. -/
theorem parseCommandLine_quotedLine (nulFree : ∀ argument ∈ program :: arguments, (0 : UInt16) ∉ argument)
    (unquoted : (0x22 : UInt16) ∉ program) (ends : program.getLast? ≠ some 0x5c) {behind : Wide}
    (terminated : behind = [] ∨ behind = [0]) :
    parseCommandLine pairs (quotedLine program arguments ++ behind) = program :: arguments := by
  have lineFree : ∀ unit ∈ quotedLine program arguments, (unit != 0) = true := by
    intro unit member
    rw [bne_iff_ne]
    rintro rfl
    exact nul_not_mem_quotedLine nulFree member
  have stops : behind.takeWhile (· != 0) = [] := by
    rcases terminated with rfl | rfl
    · rfl
    · decide
  have separated : CommandLine.Separated (windowsRules pairs)
      (arguments.flatMap fun argument => 0x20 :: quoteWindowsArgument argument) :=
    CommandLine.separated_encodings (by rfl)
  rw [parseCommandLine, List.takeWhile_append_of_pos lineFree, stops, List.append_nil,
    CommandLine.parse, quotedLine, programName_quote unquoted ends separated]
  congr 1
  exact CommandLine.read_encodings (by rfl) fun argument _ => encodes_quoteWindowsArgument argument

end Lines

end Reading

/-! ## Whole vectors -/

section Vectors

variable {argv : List Bytes}

/-- The size of every argument is an `int`. -/
def Sized (argv : List Bytes) : Prop := ∀ argument ∈ argv, argument.length < 2 ^ 31

theorem exists_texts (texts : ∀ argument ∈ argv, IsUtf8 argument) :
    ∃ characters : List (List Char), argv = characters.map utf8 := by
  induction argv with
  | nil => exact ⟨[], rfl⟩
  | cons argument argv inductionHypothesis =>
      rw [List.forall_mem_cons] at texts
      obtain ⟨first, rfl⟩ := texts.1
      obtain ⟨rest, rfl⟩ := inductionHypothesis texts.2
      exact ⟨first :: rest, rfl⟩

/-- A text as the wide string that the process is to see. -/
def wideText (characters : List Char) : Wide := characters.flatMap wideCharacter

theorem utf8ToWide_utf8 {characters : List Char} (small : (utf8 characters).length < 2 ^ 31) :
    utf8ToWide (utf8 characters) = .ok (wideText characters) :=
  (utf8ToWide_ok_iff small).mpr ⟨characters, rfl, rfl⟩

theorem moreArguments_utf8 {texts : List (List Char)} (sized : Sized (texts.map utf8)) :
    moreArguments (texts.map utf8) =
      .ok ((texts.map wideText).flatMap fun argument => 0x20 :: quoteWindowsArgument argument) := by
  induction texts with
  | nil => rfl
  | cons text texts inductionHypothesis =>
      rw [List.map_cons, Sized, List.forall_mem_cons] at sized
      rw [List.map_cons, moreArguments, utf8ToWide_utf8 sized.1, inductionHypothesis sized.2]
      rfl

theorem windowsCommandLine_utf8 {program : List Char} {texts : List (List Char)}
    (sized : Sized ((program :: texts).map utf8)) :
    windowsCommandLine ((program :: texts).map utf8) =
      .ok (quotedLine (wideText program) (texts.map wideText)) := by
  rw [List.map_cons, Sized, List.forall_mem_cons] at sized
  rw [List.map_cons, windowsCommandLine, utf8ToWide_utf8 sized.1, moreArguments_utf8 sized.2]
  rfl

theorem moreArguments_broken (sized : Sized argv) (broken : ∃ argument ∈ argv, ¬IsUtf8 argument) :
    moreArguments argv = .error .notUtf8 := by
  induction argv with
  | nil => exact absurd broken.choose_spec.1 List.not_mem_nil
  | cons argument argv inductionHypothesis =>
      rw [Sized, List.forall_mem_cons] at sized
      rw [moreArguments]
      by_cases text : IsUtf8 argument
      · obtain ⟨characters, rfl⟩ := text
        have later : ∃ argument ∈ argv, ¬IsUtf8 argument := by
          obtain ⟨other, listed, unreadable⟩ := broken
          rcases List.mem_cons.mp listed with rfl | listed
          · exact absurd ⟨characters, rfl⟩ unreadable
          · exact ⟨other, listed, unreadable⟩
        rw [utf8ToWide_utf8 sized.1, inductionHypothesis sized.2 later]
        rfl
      · rw [utf8ToWide_error sized.1 text]
        rfl

/-- An argument that is not UTF-8 is refused. -/
theorem windowsCommandLine_broken (sized : Sized argv) (broken : ∃ argument ∈ argv, ¬IsUtf8 argument) :
    windowsCommandLine argv = .error .notUtf8 := by
  cases argv with
  | nil => exact absurd broken.choose_spec.1 List.not_mem_nil
  | cons program arguments =>
      have refused := moreArguments_broken sized broken
      rw [moreArguments] at refused
      rw [windowsCommandLine]
      cases converted : utf8ToWide program with
      | error error =>
          rw [converted] at refused
          exact refused
      | ok wide =>
          rw [converted] at refused
          cases behind : moreArguments arguments with
          | error error =>
              rw [behind] at refused
              exact refused
          | ok more =>
              rw [behind] at refused
              cases refused

/-- A vector that is converted is read back, also with the NUL that `spawn` adds. -/
theorem parse_windowsCommandLine {program : Bytes} {arguments : List Bytes} {line behind : Wide}
    (nulFree : ∀ argument ∈ program :: arguments, (0 : UInt8) ∉ argument)
    (unquoted : (0x22 : UInt8) ∉ program) (ends : program.getLast? ≠ some 0x5c)
    (sized : Sized (program :: arguments)) (terminated : behind = [] ∨ behind = [0])
    (written : windowsCommandLine (program :: arguments) = .ok line) (pairs : Bool) :
    (parseCommandLine pairs (line ++ behind)).map wideToUtf8 = (program :: arguments).map some := by
  have texts : ∀ argument ∈ program :: arguments, IsUtf8 argument := by
    intro argument listed
    by_contra unreadable
    rw [windowsCommandLine_broken sized ⟨argument, listed, unreadable⟩] at written
    cases written
  obtain ⟨first, rfl⟩ := texts program List.mem_cons_self
  obtain ⟨rest, rfl⟩ := exists_texts fun argument listed => texts argument (List.mem_cons_of_mem _ listed)
  rw [← List.map_cons] at sized nulFree written ⊢
  rw [windowsCommandLine_utf8 sized, Except.ok.injEq] at written
  have wideFree : ∀ wide ∈ wideText first :: rest.map wideText, (0 : UInt16) ∉ wide := by
    rw [← List.map_cons, List.forall_mem_map]
    intro text listed member
    exact nulFree (utf8 text) (List.mem_map_of_mem listed) (mem_of_mem_wide (by decide) member)
  rw [← written, parseCommandLine_quotedLine wideFree
    (fun quote => unquoted (mem_of_mem_wide (by decide) quote))
    (fun last => ends (getLast?_of_getLast?_wide (by decide) last)) terminated,
    ← List.map_cons, List.map_map, List.map_map]
  apply List.map_congr_left
  intro text _
  exact wideToUtf8_wide text

/-- What `spawn` hands over is read as the vector. -/
theorem parse_spawnedCommandLine {program : Bytes} {arguments : List Bytes} {line : Wide}
    {options : SubprocessTransportOptions} (unquoted : (0x22 : UInt8) ∉ program)
    (ends : program.getLast? ≠ some 0x5c) (sized : Sized (program :: arguments))
    (spawned : spawnedCommandLine (program :: arguments) options = .ok line) (pairs : Bool) :
    (parseCommandLine pairs line).map wideToUtf8 = (program :: arguments).map some := by
  rw [spawnedCommandLine] at spawned
  split at spawned
  next => cases spawned
  next =>
      split at spawned
      next => cases spawned
      next nulFree =>
          split at spawned
          next => cases spawned
          next =>
              cases written : windowsCommandLine (program :: arguments) with
              | error error =>
                  rw [written] at spawned
                  cases spawned
              | ok commandLine =>
                  rw [written] at spawned
                  obtain rfl := Except.ok.inj spawned
                  exact parse_windowsCommandLine (by simpa using nulFree) unquoted ends sized
                    (.inr rfl) written pairs

/-- A vector of UTF-8 texts is what the process reads, whichever reading of two quotes it has.
Any other vector is refused. -/
theorem commandLine_faithful (pairs : Bool) {program : Bytes} {arguments : List Bytes}
    (nulFree : ∀ argument ∈ program :: arguments, (0 : UInt8) ∉ argument)
    (unquoted : (0x22 : UInt8) ∉ program) (ends : program.getLast? ≠ some 0x5c)
    (sized : Sized (program :: arguments)) :
    ((∀ argument ∈ program :: arguments, IsUtf8 argument) →
      ∃ line, windowsCommandLine (program :: arguments) = .ok line ∧
        (parseCommandLine pairs line).map wideToUtf8 = (program :: arguments).map some) ∧
      ((∃ argument ∈ program :: arguments, ¬IsUtf8 argument) →
        windowsCommandLine (program :: arguments) = .error .notUtf8) := by
  refine ⟨?_, windowsCommandLine_broken sized⟩
  intro texts
  obtain ⟨characters, same⟩ := exists_texts texts
  cases characters with
  | nil => cases same
  | cons first rest =>
      have written := windowsCommandLine_utf8 (same ▸ sized)
      rw [← same] at written
      refine ⟨_, written, ?_⟩
      have read := parse_windowsCommandLine nulFree unquoted ends sized (.inl rfl) written pairs
      rwa [List.append_nil] at read

/-- Blanks in the name of the program, a quote and backslashes, and no characters at all. -/
theorem awkward_read_back :
    ∃ line, windowsCommandLine [ascii "C:\\My Apps\\w.exe", ascii "a\\\"b c\\", []] = .ok line ∧
      (parseCommandLine true line).map wideToUtf8 =
        [ascii "C:\\My Apps\\w.exe", ascii "a\\\"b c\\", []].map some := by
  refine (commandLine_faithful true (by decide) (by decide) (by decide) (by simp [Sized, ascii])).1 ?_
  rw [List.forall_mem_cons, List.forall_mem_cons, List.forall_mem_singleton]
  exact ⟨⟨"C:\\My Apps\\w.exe".toList, by decide⟩, ⟨"a\\\"b c\\".toList, by decide⟩, ⟨[], rfl⟩⟩

/-- The size of a text is cut to an `int`, and the text with it. -/
theorem utf8ToWide_oversized : utf8ToWide (List.replicate (2 ^ 32 + 1) 0x61) = .ok [0x61] := by
  have size : intOfSize (2 ^ 32 + 1) = 1 := by decide
  have first : (List.replicate (2 ^ 32 + 1) (0x61 : UInt8)).take 1 = [0x61] := by
    rw [List.take_replicate, Nat.min_eq_left (by decide), List.replicate_one]
  have decoded : (utf8Characters [0x61]).map (·.flatMap wideCharacter) = some [0x61] := by
    decide
  have converted : multiByteToWideChar (List.replicate (2 ^ 32 + 1) 0x61) 1 = some [0x61] := by
    rw [multiByteToWideChar, if_neg (by decide), if_neg (by decide), Int.toNat_one, first, decoded]
  rw [utf8ToWide, if_neg (by rw [List.replicate_succ]; exact List.cons_ne_nil _ _), List.length_replicate,
    size, converted]

/-- A byte that is in no UTF-8 text is refused, and a text of 4 GiB and a byte is cut to one. -/
theorem unreadable_refused :
    (((0 : UInt8) ∉ [0xff] ∧ (0x22 : UInt8) ∉ [0xff] ∧ ([0xff] : Bytes).getLast? ≠ some 0x5c) ∧
        windowsCommandLine [[0xff]] = .error .notUtf8) ∧
      windowsCommandLine [List.replicate (2 ^ 32 + 1) 0x61] = .ok [0x61] := by
  refine ⟨by decide, ?_⟩
  rw [windowsCommandLine, utf8ToWide_oversized]
  rfl

end Vectors

end VgiRpc.Client
