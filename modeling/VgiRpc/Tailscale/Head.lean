import VgiRpc.Tailscale.Reader

/-!
# The head of a response

How the header block is found, and that every head of a properly written response is read.
-/

namespace VgiRpc.Tailscale

open VgiRpc.Cpp VgiRpc.Lib VgiRpc.Identity VgiRpc.Http.ResponseCodec

/-! ## Finding the block -/

section Block

variable {maxHeaderBytes : Nat} {head headerBlock behind : Bytes} {incoming rest : List Received}

/-- The block is what is in front of the first empty line. -/
theorem readHead_ok (read : readHead maxHeaderBytes head incoming = .ok (headerBlock, behind, rest)) :
    cut headEnd (head ++ delivered incoming) = some (headerBlock, behind ++ delivered rest) ∧
      closes rest = closes incoming := by
  fun_induction readHead maxHeaderBytes head incoming with
  | case1 incoming head block tail found =>
      cases read
      exact ⟨cut_append found _, rfl⟩
  | case2 => cases read
  | case3 => cases read
  | case4 head uncut fits first more rest inductionHypothesis =>
      have later := inductionHypothesis read
      rw [List.append_assoc] at later
      exact later
  | case5 => cases read
  | case6 head uncut fits rest inductionHypothesis => exact inductionHypothesis read
  | case7 => cases read
  | case8 => cases read

/-- A block that fits is found. -/
theorem readHead_error {failure : Failure} (read : readHead maxHeaderBytes head incoming = .error failure)
    (found : cut headEnd (head ++ delivered incoming) = some (headerBlock, behind)) :
    maxHeaderBytes < headerBlock.length + 4 := by
  fun_induction readHead maxHeaderBytes head incoming with
  | case1 => cases read
  | case2 incoming head uncut oversized =>
      exact oversized.trans (length_lt_of_cut_append (List.cons_ne_nil _ _) found uncut)
  | case4 head uncut fits first more rest inductionHypothesis =>
      rw [delivered, ← List.append_assoc] at found
      exact inductionHypothesis read found
  | case6 head uncut fits rest inductionHypothesis => exact inductionHypothesis read found
  | _ =>
      change cut headEnd (_ ++ []) = _ at found
      rw [List.append_nil] at found
      simp_all

/-- The head is read, or refused, after as many results as there may be bytes in it. -/
theorem readHead_takes {ending : Nat} :
    Within (· = .waiting) (fun result => arrivals ending result.2.2) (arrivals ending incoming)
      (maxHeaderBytes + 1 - head.length) (readHead maxHeaderBytes head incoming) := by
  fun_induction readHead maxHeaderBytes head incoming with
  | case1 => exact Nat.le_add_right _ _
  | case3 => exact fun _ => Nat.zero_le _
  | case4 head uncut fits first more rest inductionHypothesis =>
      refine inductionHypothesis.earlier ?_
      simp only [arrivals, List.length_append, List.length_cons]
      omega
  | case6 head uncut fits rest inductionHypothesis => exact inductionHypothesis
  | _ => exact Within.of_error (by rintro ⟨⟩)

end Block

/-! ## Written heads -/

/-- A header as it is written, its value between blanks. -/
structure HeaderField where
  name : Bytes
  before : Bytes
  value : Bytes
  after : Bytes
  token : validHeaderName name = true
  blank : ∀ byte ∈ before ++ after, isBlank byte = true
  plain : hasControl value = false
  first : ∀ byte, value.head? = some byte → isBlank byte = false
  last : ∀ byte, value.getLast? = some byte → isBlank byte = false

namespace HeaderField

/-- The line of a header. -/
def line (field : HeaderField) : Bytes :=
  field.name ++ 0x3a :: (field.before ++ field.value ++ field.after)

/-- The header as the reader keeps it. -/
def entry (field : HeaderField) : Bytes × Bytes := (lowerAscii field.name, field.value)

/-- The bytes of a name. -/
theorem token_byte {name : Bytes} (token : validHeaderName name = true) {byte : UInt8} (mem : byte ∈ name) :
    byte ≠ 0x3a ∧ byte ≠ 0x0d ∧ byte ≠ 0x20 ∧ byte ≠ 0x09 := by
  have every := forall_byte (fun byte =>
    !(isAlnum byte || (ascii "!#$%&'*+-.^_`|~").contains byte) ||
      decide (byte ≠ 0x3a ∧ byte ≠ 0x0d ∧ byte ≠ 0x20 ∧ byte ≠ 0x09)) (by decide) byte
  rw [validHeaderName, Bool.and_eq_true, List.all_eq_true] at token
  rw [token.2 byte mem, Bool.not_true, Bool.false_or, decide_eq_true_eq] at every
  exact every

theorem trimBlanks_padded (field : HeaderField) :
    trimBlanks (field.before ++ field.value ++ field.after) = field.value := by
  obtain ⟨blankBefore, blankAfter⟩ := List.forall_mem_append.mp field.blank
  rw [trimBlanks, List.append_assoc, List.dropWhile_append_of_pos blankBefore]
  cases value : field.value with
  | nil => simp [List.dropWhile_eq_nil_iff.mpr blankAfter]
  | cons byte rest =>
      have first := field.first byte (by rw [value]; rfl)
      have reversed : ∀ byte ∈ field.after.reverse, isBlank byte = true := fun byte mem =>
        blankAfter byte (List.mem_reverse.mp mem)
      rw [List.cons_append, List.dropWhile_cons_of_neg (by rw [first]; decide), ← List.cons_append,
        List.reverse_append, List.dropWhile_append_of_pos reversed, ← value]
      cases last : field.value.reverse with
      | nil => rw [List.reverse_eq_nil_iff.mp last]; rfl
      | cons final front =>
          have stops := field.last final (by rw [List.getLast?_eq_head?_reverse, last]; rfl)
          rw [List.dropWhile_cons_of_neg (by rw [stops]; decide), ← last, List.reverse_reverse]

/-- A written header is read. -/
theorem parseHeader_line (field : HeaderField) : parseHeader field.line = .ok field.entry := by
  have present : field.name ≠ [] := by
    have token := field.token
    rw [validHeaderName, Bool.and_eq_true, bne_iff_ne] at token
    exact token.1
  obtain ⟨letter, more, name⟩ := List.exists_cons_of_ne_nil present
  have head : field.line.head? = some letter := by
    rw [line, name]
    rfl
  have mem : letter ∈ field.name := by
    rw [name]
    exact List.mem_cons_self
  have bytes := token_byte field.token mem
  have notFolded : ¬(field.line.head? = none ∨ field.line.head? = some 0x20 ∨ field.line.head? = some 0x09) := by
    simp [head, bytes]
  have split : cut [0x3a] field.line = some (field.name, field.before ++ field.value ++ field.after) :=
    cut_append_mark (fun mem => (token_byte field.token mem).1 rfl) _
  rw [parseHeader, if_neg notFolded, split]
  simp only [field.token, trimBlanks_padded, field.plain]
  rfl

/-- A line without a line break in it, and not empty. -/
theorem line_unbroken (field : HeaderField) : 0x0d ∉ field.line ∧ field.line ≠ [] := by
  obtain ⟨blankBefore, blankAfter⟩ := List.forall_mem_append.mp field.blank
  have noBlank : isBlank 0x0d = false := by decide
  refine ⟨?_, by simp [line]⟩
  rw [line, List.mem_append, List.mem_cons, List.mem_append, List.mem_append]
  rintro (inName | colon | (inBefore | inValue) | inAfter)
  · exact (token_byte field.token inName).2.1 rfl
  · cases colon
  · exact Bool.false_ne_true (noBlank.symm.trans (blankBefore _ inBefore))
  · have plain := field.plain
    rw [hasControl, List.any_eq_false] at plain
    exact plain 0x0d inValue (by decide)
  · exact Bool.false_ne_true (noBlank.symm.trans (blankAfter _ inAfter))

end HeaderField

/-- A head as it is written. -/
structure Head where
  version : UInt8
  reason : Bytes
  fields : List HeaderField
  unbroken : 0x0d ∉ version :: reason

namespace Head

def statusLine (head : Head) : Bytes := ascii "HTTP/1." ++ head.version :: (ascii " 200" ++ head.reason)

/-- The header block. -/
def block (head : Head) : Bytes :=
  crlf.intercalate (head.statusLine :: head.fields.map HeaderField.line)

end Head

/-- A line break in front of a line that is not empty is no end of the head. -/
theorem cut_headEnd_crlf {letter : UInt8} {tail : Bytes} (text : letter ≠ 0x0d) :
    cut headEnd (crlf ++ letter :: tail) =
      (cut headEnd (letter :: tail)).map fun parts => (crlf ++ parts.1, parts.2) := by
  have noEnd : ¬headEnd <+: 0x0d :: 0x0a :: letter :: tail := fun starts =>
    text (List.cons_prefix_cons.mp (List.cons_prefix_cons.mp (List.cons_prefix_cons.mp starts).2).2).1.symm
  have noStart : ¬headEnd <+: 0x0a :: letter :: tail := fun starts =>
    absurd (List.cons_prefix_cons.mp starts).1 (by decide)
  change cut headEnd (0x0d :: 0x0a :: letter :: tail) = _
  rw [cut, if_neg noEnd, cut, if_neg noStart, Option.map_map]
  rfl

/-- Lines with line breaks between them end at the first empty line. -/
theorem cut_headEnd_lines {lines : List Bytes} (present : lines ≠ [])
    (unbroken : ∀ line ∈ lines, 0x0d ∉ line ∧ line ≠ []) :
    cut headEnd (crlf.intercalate lines ++ headEnd) = some (crlf.intercalate lines, []) := by
  induction lines with
  | nil => exact absurd rfl present
  | cons line rest inductionHypothesis =>
      obtain ⟨unbrokenLine, unbrokenRest⟩ := List.forall_mem_cons.mp unbroken
      cases rest with
      | nil =>
          rw [List.intercalate_singleton]
          exact cut_append_mark unbrokenLine.1 []
      | cons next rest =>
          have behind := inductionHypothesis (List.cons_ne_nil _ _) unbrokenRest
          have nextLine := unbrokenRest next List.mem_cons_self
          obtain ⟨letter, more, word⟩ := List.exists_cons_of_ne_nil nextLine.2
          have start : letter ≠ 0x0d := by
            rintro rfl
            exact nextLine.1 (by rw [word]; exact List.mem_cons_self)
          obtain ⟨tail, text⟩ : ∃ tail, crlf.intercalate (next :: rest) ++ headEnd = letter :: tail := by
            cases rest with
            | nil => exact ⟨more ++ headEnd, by rw [List.intercalate_singleton, word, List.cons_append]⟩
            | cons line rest =>
                rw [List.intercalate_cons_cons, word]
                exact ⟨_, rfl⟩
          rw [text] at behind
          rw [List.intercalate_cons_cons, List.append_assoc, List.append_assoc, text, headEnd,
            cut_append_of_not_mem unbrokenLine.1, ← headEnd, cut_headEnd_crlf start, behind]
          simp

theorem parseHeaders_lines (fields : List HeaderField) (headers : Headers) :
    parseHeaders (crlf.intercalate (fields.map HeaderField.line)) headers =
      .ok (headers ++ fields.map HeaderField.entry) := by
  induction fields generalizing headers with
  | nil => simp [parseHeaders]
  | cons field rest inductionHypothesis =>
      have unbroken := field.line_unbroken
      cases rest with
      | nil =>
          rw [List.map_singleton, List.intercalate_singleton, parseHeaders, if_neg unbroken.2]
          have uncut : cut crlf field.line = none := cut_eq_none_of_not_mem unbroken.1
          split
          next => simp [field.parseHeader_line, bind, Except.bind, pure, Except.pure]
          next found =>
              rw [uncut] at found
              cases found
      | cons next rest =>
          rw [List.map_cons, List.map_cons, List.intercalate_cons_cons, ← List.map_cons, List.append_assoc,
            parseHeaders, if_neg (by simp [unbroken.2])]
          have found : cut crlf (field.line ++ (crlf ++ crlf.intercalate ((next :: rest).map HeaderField.line))) =
              some (field.line, crlf.intercalate ((next :: rest).map HeaderField.line)) :=
            cut_append_mark unbroken.1 _
          split
          next uncut =>
              rw [found] at uncut
              cases uncut
          next line text split =>
              rw [found] at split
              cases split
              rw [field.parseHeader_line]
              change parseHeaders _ (headers ++ [field.entry]) = _
              rw [inductionHypothesis, List.append_assoc]
              rfl

namespace Head

variable (head : Head)

theorem parseStatus_statusLine : parseStatus head.statusLine = .ok 200 := by
  have long : ¬head.statusLine.length < 12 := by simp [statusLine, ascii]
  have start : ascii "HTTP/1." <+: head.statusLine := List.prefix_append _ _
  have blank : head.statusLine.getD 8 0 = 0x20 := by rfl
  have digits : (head.statusLine.drop 9).take 3 = ascii "200" := by rfl
  have wellFormed : ¬(head.statusLine.length < 12 ∨ ¬ascii "HTTP/1." <+: head.statusLine ∨
      head.statusLine.getD 8 0 ≠ 0x20) := by
    rintro (short | other | other)
    · exact long short
    · exact other start
    · exact other blank
  rw [parseStatus, if_neg wellFormed, digits]
  rfl

theorem statusLine_unbroken : 0x0d ∉ head.statusLine ∧ head.statusLine ≠ [] := by
  have unbroken := head.unbroken
  rw [List.mem_cons, not_or] at unbroken
  refine ⟨?_, List.append_ne_nil_of_left_ne_nil (List.cons_ne_nil _ _) _⟩
  rw [statusLine, List.mem_append, List.mem_cons, List.mem_append]
  rintro (inProtocol | version | inStatus | inReason)
  · exact absurd inProtocol (by decide)
  · exact unbroken.1 version
  · exact absurd inStatus (by decide)
  · exact unbroken.2 inReason

/-- The block ends at the empty line behind it. -/
theorem cut_headEnd_block : cut headEnd (head.block ++ headEnd) = some (head.block, []) := by
  apply cut_headEnd_lines (List.cons_ne_nil _ _)
  intro line mem
  rw [List.mem_cons, List.mem_map] at mem
  obtain rfl | ⟨field, -, rfl⟩ := mem
  · exact head.statusLine_unbroken
  · exact field.line_unbroken

/-- Every properly written head is read. -/
theorem parseHead_block :
    parseHead head.block = .ok { status := 200, headers := head.fields.map HeaderField.entry } := by
  have unbroken := head.statusLine_unbroken.1
  cases fields : head.fields with
  | nil =>
      rw [block, fields, List.map_nil, List.intercalate_singleton, parseHead, crlf,
        cut_eq_none_of_not_mem unbroken]
      simp [parseStatus_statusLine, bind, Except.bind, pure, Except.pure]
  | cons field rest =>
      have found : cut crlf head.block =
          some (head.statusLine, crlf.intercalate ((field :: rest).map HeaderField.line)) := by
        rw [block, fields, List.map_cons, List.intercalate_cons_cons, List.append_assoc]
        exact cut_append_mark unbroken _
      rw [parseHead, found]
      simp only [parseStatus_statusLine, parseHeaders_lines, bind, Except.bind, pure, Except.pure,
        List.nil_append]

end Head

end VgiRpc.Tailscale
