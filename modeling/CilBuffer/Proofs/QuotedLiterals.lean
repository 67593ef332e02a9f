import CilBuffer.Proofs.NamesInLines

/-!
# Literals that can be read back

In a literal a backslash is put before each quote, and backslashes stay as they are. So a backslash
of the text can stand before one that was put in, but never before a quote. Whoever reads the
literal from left to right and drops each backslash before a quote has the text again. The line of a
string ends with the closing quote, so no white space of the literal is lost with that of the line.
-/

namespace CilBuffer

namespace Text

/-- From left to right, each pair of a backslash and a quote becomes a quote. -/
def unescape : List Char → List Char
  | [] => []
  | [c] => [c]
  | c :: d :: cs => if c = '\\' ∧ d = quote then quote :: unescape cs else c :: unescape (d :: cs)

/-- The text of the literal that ends the line: what stands between the first quote and the last
character, unescaped. -/
def literal (line : List Char) : List Char :=
  unescape ((line.dropWhile (· ≠ quote)).drop 1).dropLast

/-- What is escaped begins with no quote, so a character before it is no part of a pair. -/
theorem head?_escape (cs : List Char) : (escape cs).head? ≠ some quote := by
  cases cs with
  | nil => simp [escape]
  | cons c cs =>
    by_cases h : c = quote
    · subst h
      rw [escape_cons_quote, List.head?_cons]
      decide
    · rw [escape_cons_of_ne h]
      simpa using h

theorem unescape_pair (cs : List Char) : unescape ('\\' :: quote :: cs) = quote :: unescape cs := by
  simp [unescape]

theorem unescape_cons {c : Char} {cs : List Char} (h : cs.head? ≠ some quote) :
    unescape (c :: cs) = c :: unescape cs := by
  cases cs with
  | nil => rfl
  | cons d cs =>
    have apart : d ≠ quote := by simpa using h
    simp [unescape, apart]

theorem unescape_escape (cs : List Char) : unescape (escape cs) = cs := by
  induction cs with
  | nil => rfl
  | cons c cs ih =>
    by_cases h : c = quote
    · subst h
      rw [escape_cons_quote, unescape_pair, ih]
    · rw [escape_cons_of_ne h, unescape_cons (head?_escape cs), ih]

theorem backslash_before_quote {cs : List Char} {i : Nat} (h : (escape cs)[i]? = some quote) :
    ∃ j, i = j + 1 ∧ (escape cs)[j]? = some '\\' := by
  induction cs generalizing i with
  | nil => cases h
  | cons c cs ih =>
    by_cases own : c = quote
    · subst own
      rw [escape_cons_quote] at h ⊢
      match i, h with
      | 0, h => exact absurd (Option.some.inj h) (by decide)
      | 1, _ => exact ⟨0, rfl, rfl⟩
      | i + 2, h =>
        obtain ⟨j, rfl, before⟩ := ih h
        exact ⟨j + 2, rfl, before⟩
    · rw [escape_cons_of_ne own] at h ⊢
      match i, h with
      | 0, h => exact absurd (Option.some.inj h) own
      | i + 1, h =>
        obtain ⟨j, rfl, before⟩ := ih h
        exact ⟨j + 1, rfl, before⟩

end Text

/-- The characters of mnemonics come after the dash, and the quote before it. -/
theorem Opcode.ne_quote_of_mem_mnemonic {op : Opcode} {c : Char} (h : c ∈ op.mnemonic.toList) :
    c ≠ Text.quote := by
  rintro rfl
  exact absurd (op.range_mnemonic _ h).1 (by decide)

namespace Step

variable {op : Opcode} {text : String} {current : Opcodes}

theorem text_string (op : Opcode) (text : String) (current : Opcodes) :
    (Step.instruction op (.string text)).text current = operandLine op (Text.quoted text) := by
  simp [Step.text, instructionText, Immediate.isShort, Immediate.text]

/-- The closing quote keeps the white space of the literal from the end of the line. -/
theorem line_string (op : Opcode) (text : String) (current : Opcodes) :
    (Step.instruction op (.string text)).line current
      = op.mnemonic ++ " '" ++ String.ofList (Text.escape text.toList) ++ "'" := by
  have ends : (operandLine op (Text.quoted text)).toList
      = ((op.mnemonic ++ " '" ++ String.ofList (Text.escape text.toList)).toList
          ++ [Text.quote]) ++ ['\n'] := by
    unfold operandLine
    simp [Text.quoted, Text.quote]
  rw [line, text_string, ends, Text.trimEnd_append_of_isBlank _ (by decide),
    Text.trimEnd_append_of_not_isBlank _ (by decide), String.ofList_append, String.ofList_toList]
  rfl

theorem literal_line (op : Opcode) (text : String) (current : Opcodes) :
    Text.literal ((Step.instruction op (.string text)).line current).toList = text.toList := by
  have parts : ((Step.instruction op (.string text)).line current).toList
      = (op.mnemonic.toList ++ [' '])
        ++ Text.quote :: (Text.escape text.toList ++ [Text.quote]) := by
    rw [line_string]
    simp [Text.quote]
  have before : ∀ c ∈ op.mnemonic.toList ++ [' '], decide (c ≠ Text.quote) = true := by
    intro c hc
    rw [decide_eq_true_eq]
    rcases List.mem_append.mp hc with own | space
    · exact Opcode.ne_quote_of_mem_mnemonic own
    · rw [List.mem_singleton.mp space]
      decide
  have rest : (((Step.instruction op (.string text)).line current).toList.dropWhile
        (· ≠ Text.quote)).drop 1 = Text.escape text.toList ++ [Text.quote] := by
    rw [parts, List.dropWhile_append_of_pos before]
    simp
  rw [Text.literal, rest, List.dropLast_concat, Text.unescape_escape]

end Step

namespace Buffer

/-- A string can be read back from its line, whatever quotes, backslashes and white space it has: to
unescape the literal gives the string, and the line has all of the literal. In the literal each quote
follows a backslash. So two strings with the same line, after the same opcode, are the same. -/
theorem literals_read_back (op : Opcode) (text : String) (current : Opcodes) :
    Text.unescape (Text.escape text.toList) = text.toList ∧
      (∀ i, (Text.escape text.toList)[i]? = some Text.quote →
        ∃ j, i = j + 1 ∧ (Text.escape text.toList)[j]? = some '\\') ∧
      (∀ (b : Buffer) (index : Nat), b.steps[index]? = some (Step.instruction op (.string text)) →
        (b.lines current)[index]?
          = some (op.mnemonic ++ " '" ++ String.ofList (Text.escape text.toList) ++ "'")) ∧
      Text.literal ((Step.instruction op (.string text)).line current).toList = text.toList ∧
      ∀ other : String, (Step.instruction op (.string text)).line current
          = (Step.instruction op (.string other)).line current ↔ text = other := by
  refine ⟨Text.unescape_escape _, fun i => Text.backslash_before_quote, ?_,
    Step.literal_line op text current, ?_⟩
  · intro b index at_index
    rw [getElem?_lines at_index, Step.line_string]
  · intro other
    constructor
    · intro same
      have own := Step.literal_line op text current
      rw [same, Step.literal_line] at own
      exact String.toList_injective own.symm
    · rintro rfl
      rfl

/-- A backslash before a quote, and white space at the end. -/
example :
    (Step.instruction .ldstr (.string "a\\' ")).line .initial = "ldstr 'a\\\\' '" := by
  decide +kernel

end Buffer

end CilBuffer
