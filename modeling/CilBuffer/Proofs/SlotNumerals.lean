import CilBuffer.Proofs.NamesInLines

/-!
# Numerals of slots

After an opcode that takes its slot from an operand, two rules decide what the second word of a line
is. By one it looks like a number, if a digit follows its signs, however many there are and of
whichever kind. By the other it is a number, if it is digits with one plus sign at most. What is a
number also looks like one, so each word is a slot, a number that is refused, or left alone. The
opcodes that fix their slot are not spoken of here: whatever follows them is not read.
-/

namespace CilBuffer

namespace Text

/-- One or more ASCII digits, of which the first can be zeros, and the number they denote. -/
inductive Digits : List Char → Nat → Prop where
  | first {c : Char} : c.isDigit = true → Digits [c] (c.toNat - '0'.toNat)
  | next {cs : List Char} {n : Nat} {c : Char} :
    Digits cs n → c.isDigit = true → Digits (cs ++ [c]) (10 * n + (c.toNat - '0'.toNat))

/-- Digits, with a plus sign before them or none. -/
inductive Numeral : List Char → Nat → Prop where
  | plain {cs : List Char} {n : Nat} : Digits cs n → Numeral cs n
  | plus {cs : List Char} {n : Nat} : Digits cs n → Numeral ('+' :: cs) n

/-- Without the signs at its beginning the word begins with an ASCII digit. -/
inductive DigitAfterSigns : List Char → Prop where
  | digit {c : Char} {cs : List Char} : c.isDigit = true → DigitAfterSigns (c :: cs)
  | sign {c : Char} {cs : List Char} :
    c = '-' ∨ c = '+' → DigitAfterSigns cs → DigitAfterSigns (c :: cs)

/-- The word is the numeral of a number that 16 bits can hold. -/
def NamesSlot (word : List Char) : Prop := ∃ n ≤ 65535, Numeral word n

variable {cs : List Char} {n : Nat}

/-- The grammar of digits and their value by a fold. From the fold to the grammar by induction from
the end, where the last digit is. -/
theorem digits_iff :
    Digits cs n ↔ cs ≠ [] ∧ (∀ c ∈ cs, c.isDigit = true) ∧ Nat.ofDigitChars 10 cs 0 = n := by
  constructor
  · intro h
    induction h with
    | first digit => simp [digit, Nat.ofDigitChars_cons]
    | @next cs n c _ digit ih =>
      obtain ⟨-, digits, value⟩ := ih
      refine ⟨by simp, ?_, ?_⟩
      · intro d hd
        rcases List.mem_append.mp hd with old | new
        · exact digits d old
        · rw [List.mem_singleton.mp new]
          exact digit
      · rw [Nat.ofDigitChars_append, value]
        rfl
  · intro h
    induction cs using List.reverseRecOn generalizing n with
    | nil => exact absurd rfl h.1
    | append_singleton cs c ih =>
      obtain ⟨-, digits, rfl⟩ := h
      have digit : c.isDigit = true := digits c (by simp)
      rw [Nat.ofDigitChars_append]
      by_cases none_before : cs = []
      · subst none_before
        simpa [Nat.ofDigitChars_cons] using Digits.first digit
      · have before := ih ⟨none_before, fun d hd => digits d (by simp [hd]), rfl⟩
        exact before.next digit

theorem Digits.exists_cons (h : Digits cs n) : ∃ c rest, cs = c :: rest ∧ c.isDigit = true := by
  obtain ⟨some_digit, digits, -⟩ := digits_iff.mp h
  obtain ⟨c, rest, rfl⟩ := List.exists_cons_of_ne_nil some_digit
  exact ⟨c, rest, rfl, digits c (List.mem_cons_self ..)⟩

theorem numeral_iff : Numeral cs n ↔ Digits (dropPlus cs) n := by
  constructor
  · intro h
    cases h with
    | plain digits =>
      obtain ⟨c, rest, rfl, digit⟩ := digits.exists_cons
      rw [dropPlus_of_isDigit digit]
      exact digits
    | plus digits => exact digits
  · intro h
    unfold dropPlus at h
    split at h
    · exact .plus h
    · exact .plain h

/-- The number that is read off a word is the one that its numeral denotes. -/
theorem slotNumber?_eq_some_iff {number : UInt16} :
    slotNumber? cs = some number ↔ Numeral cs number.toNat := by
  rw [numeral_iff, digits_iff, slotNumber?]
  constructor
  · intro h
    split at h
    · rename_i numeral
      obtain ⟨some_digit, digits, below⟩ := numeral
      cases h
      refine ⟨some_digit, List.all_eq_true.mp digits, ?_⟩
      rw [UInt16.toNat_ofNat_of_lt' below]
    · cases h
  · intro h
    obtain ⟨some_digit, digits, value⟩ := h
    have below : Nat.ofDigitChars 10 (dropPlus cs) 0 < UInt16.size := by
      rw [value]
      exact number.toNat_lt_size
    rw [if_pos ⟨some_digit, List.all_eq_true.mpr digits, below⟩, value, UInt16.ofNat_toNat]

theorem namesSlot_iff : NamesSlot cs ↔ (slotNumber? cs).isSome = true := by
  rw [Option.isSome_iff_exists]
  constructor
  · intro h
    obtain ⟨n, le, numeral⟩ := h
    refine ⟨.ofNat n, slotNumber?_eq_some_iff.mpr ?_⟩
    rw [UInt16.toNat_ofNat_of_lt' (Nat.lt_succ_of_le le)]
    exact numeral
  · intro h
    obtain ⟨number, found⟩ := h
    exact ⟨number.toNat, Nat.le_of_lt_succ number.toNat_lt, slotNumber?_eq_some_iff.mp found⟩

instance (word : List Char) : Decidable (NamesSlot word) := decidable_of_iff _ namesSlot_iff.symm

/-- By induction on the word, one sign after the other. -/
theorem isNumeric_iff : isNumeric cs = true ↔ DigitAfterSigns cs := by
  induction cs with
  | nil =>
    constructor
    · intro h
      cases h
    · intro h
      cases h
  | cons c cs ih =>
    cases sign : (c = '-' || c = '+' : Bool) with
    | true =>
      have is_sign : c = '-' ∨ c = '+' := by simpa using sign
      rw [isNumeric_of_sign sign, ih]
      constructor
      · exact .sign is_sign
      · intro h
        cases h with
        | digit digit => rcases is_sign with rfl | rfl <;> cases digit
        | sign _ rest => exact rest
    | false =>
      have no_sign : ¬ (c = '-' ∨ c = '+') := by simpa using sign
      rw [isNumeric_of_not_sign sign]
      constructor
      · exact .digit
      · intro h
        cases h with
        | digit digit => exact digit
        | sign is_sign _ => exact absurd is_sign no_sign

instance (word : List Char) : Decidable (DigitAfterSigns word) := decidable_of_iff _ isNumeric_iff

/-- What is a number looks like one: after a plus sign or none it begins with a digit. -/
theorem Numeral.digitAfterSigns (h : Numeral cs n) : DigitAfterSigns cs := by
  cases h with
  | plain digits =>
    obtain ⟨c, rest, rfl, digit⟩ := digits.exists_cons
    exact .digit digit
  | plus digits =>
    obtain ⟨c, rest, rfl, digit⟩ := digits.exists_cons
    exact .sign (.inr rfl) (.digit digit)

end Text

namespace Reading

variable {word : List Char} {number : UInt16} {operand : String} {reading : Reading}
  {scopes : List LocalScope} {index place : Nat} {line : String}

theorem ofOperand_eq_slot_iff : ofOperand word = .slot number ↔ Text.Numeral word number.toNat := by
  rw [← Text.slotNumber?_eq_some_iff, ofOperand]
  constructor
  · intro h
    split at h
    · split at h
      · rename_i found
        cases h
        exact found
      · cases h
    · cases h
  · intro found
    have numeric : Text.isNumeric word = true :=
      Text.isNumeric_iff.mpr (Text.slotNumber?_eq_some_iff.mp found).digitAfterSigns
    rw [if_pos numeric, found]

theorem ofOperand_eq_invalid_iff :
    ofOperand word = .invalid operand ↔
      operand = String.ofList word ∧ ¬ Text.NamesSlot word ∧ Text.DigitAfterSigns word := by
  rw [Text.namesSlot_iff, ← Text.isNumeric_iff, ofOperand]
  cases Text.isNumeric word with
  | false => simp
  | true => cases Text.slotNumber? word <;> simp [eq_comm]

theorem ofOperand_eq_nothing_iff_names :
    ofOperand word = .nothing ↔ ¬ Text.NamesSlot word ∧ ¬ Text.DigitAfterSigns word := by
  rw [ofOperand_eq_nothing_iff, ← Text.isNumeric_iff, Bool.not_eq_true]
  constructor
  · intro plain
    refine ⟨?_, plain⟩
    intro slot
    obtain ⟨n, -, numeral⟩ := slot
    rw [Text.isNumeric_iff.mpr numeral.digitAfterSigns] at plain
    cases plain
  · exact And.right

/-- No other reading leads to the error. -/
theorem annotate_eq_invalidSlot_iff :
    reading.annotate scopes index line = .error (.invalidSlot operand place) ↔
      reading = .invalid operand ∧ place = index := by
  rw [annotate_eq_error_iff]
  constructor
  · intro h
    cases h
    exact ⟨rfl, rfl⟩
  · rintro ⟨rfl, rfl⟩
    exact .invalid

/-- A name that is added makes the line longer. -/
theorem Described.eq_nothing {active : List LocalScope} {text : String}
    (h : reading.Described active line text) (same : text = line) : reading = .nothing := by
  cases h with
  | nothing => rfl
  | slot _ _ =>
    have longer := congrArg String.length same
    simp only [String.length_append] at longer
    have separator : (" // " : String).length = 4 := rfl
    omega

theorem annotate_eq_self_iff :
    reading.annotate scopes index line = .ok line ↔ reading = .nothing := by
  rw [annotate_eq_ok_iff]
  constructor
  · intro h
    exact h.eq_nothing rfl
  · rintro rfl
    exact .nothing

end Reading

namespace Step

variable {step : Step} {current : Opcodes} {op : Opcode}

/-- The mnemonic of the opcode in effect is the first word of the line. -/
theorem words_line_of_opcode? (own : step.opcode? current = some op) (plain : op.isPrefix = false) :
    ∃ operands, Text.words (step.line current).toList = op.mnemonic.toList :: operands := by
  rw [words_line]
  cases step with
  | instruction _ operand =>
    cases own
    apply Reading.words_instructionText
    rw [plain, Bool.false_and]
  | access _ localVar =>
    cases own
    exact ⟨_, Reading.words_operandLine op localVar.name⟩
  | branch slot target =>
    cases own
    exact ⟨_, Reading.words_operandLine (current slot) target.name⟩
  | switch slot targets =>
    cases own
    exact ⟨_, Reading.words_operandLine (current slot) _⟩
  | _ => cases own

/-- The second word of the line decides, if the opcode takes its slot from an operand. -/
theorem ofLine_line_of_operand (own : step.opcode? current = some op)
    (address : op.slotAddress? = some .operand) :
    Reading.ofLine (step.line current)
      = ((Text.words (step.line current).toList)[1]?.map Reading.ofOperand).getD .nothing := by
  have plain : op.isPrefix = false := by
    cases prefixed : op.isPrefix with
    | false => rfl
    | true =>
      rw [Opcode.slotAddress?_of_isPrefix prefixed] at address
      cases address
  obtain ⟨operands, words⟩ := words_line_of_opcode? own plain
  rw [Reading.ofLine_of_mnemonic words, words]
  cases operands with
  | nil => simp [Reading.ofOpcode, address]
  | cons word rest => simp [Reading.ofOpcode, address]

end Step

/-- What an opcode that takes its slot from an operand makes of the second word of its line. A
numeral is taken for the slot of that number; a word that is none, but has a digit after its signs,
is an error over that word; any other line is left as it is, and so is one without a second word. -/
theorem annotate_by_second_word {step : Step} {current : Opcodes} {op : Opcode}
    (own : step.opcode? current = some op)
    (addressed : op ∈ ([.ldloc, .ldlocS, .stloc, .stlocS] : List Opcode))
    (scopes : List LocalScope) (index : Nat) :
    let line := step.line current
    let second := (Text.words line.toList)[1]?
    (∀ number : UInt16, Reading.ofLine line = .slot number ↔
        ∃ word, second = some word ∧ Text.Numeral word number.toNat) ∧
      (∀ operand place,
        annotate scopes index line = .error (.invalidSlot operand place) ↔
          place = index ∧ ∃ word, second = some word ∧ operand = String.ofList word ∧
            ¬ Text.NamesSlot word ∧ Text.DigitAfterSigns word) ∧
      (annotate scopes index line = .ok line ↔
        ∀ word, second = some word → ¬ Text.NamesSlot word ∧ ¬ Text.DigitAfterSigns word) := by
  intro line second
  have address : op.slotAddress? = some .operand := by
    simp only [List.mem_cons, List.not_mem_nil, or_false] at addressed
    rcases addressed with rfl | rfl | rfl | rfl <;> rfl
  have reading : Reading.ofLine line = (second.map Reading.ofOperand).getD .nothing :=
    Step.ofLine_line_of_operand own address
  simp only [annotate, Reading.annotate_eq_invalidSlot_iff, Reading.annotate_eq_self_iff, reading]
  cases second with
  | none => simp
  | some word =>
    simp [Reading.ofOperand_eq_slot_iff, Reading.ofOperand_eq_invalid_iff,
      Reading.ofOperand_eq_nothing_iff_names, and_comm]

/-- Of locals that are stored to by name, the first is taken for a slot. The next two begin like
numbers, one too large and one with signs that are too many. The last is a digit, but none of
ASCII. -/
theorem signedNames_annotated :
    let store (name : String) : Step := .access .stlocS ⟨0, name, 0, .value "System.Int32"⟩
    let line (name : String) : String := (store name).line .initial
    Opcode.stlocS ∈ ([.ldloc, .ldlocS, .stloc, .stlocS] : List Opcode) ∧
      (∀ name, (store name).opcode? .initial = some .stlocS) ∧
      Reading.ofLine (line "+0065535 5") = .slot 65535 ∧
      annotate [] 7 (line "65536") = .error (.invalidSlot "65536" 7) ∧
      annotate [] 7 (line "-+-4") = .error (.invalidSlot "-+-4" 7) ∧
      annotate [] 7 (line "\u0664") = .ok (line "\u0664") := by
  intro store line
  have addressed : Opcode.stlocS ∈ ([.ldloc, .ldlocS, .stloc, .stlocS] : List Opcode) := by decide
  have own : ∀ name, (store name).opcode? .initial = some .stlocS := fun _ => rfl
  have second : ∀ name word, (Text.words name.toList)[0]? = some word →
      (Text.words (line name).toList)[1]? = some word := by
    intro name word first
    have words := (store name).words_line .initial
    rw [Step.text, Reading.words_operandLine] at words
    rw [words, List.getElem?_cons_succ, first]
  have numeral : Text.Numeral "+0065535".toList (65535 : UInt16).toNat :=
    Text.slotNumber?_eq_some_iff.mp (by decide)
  have outcome := fun name => annotate_by_second_word (own name) addressed [] 7
  refine ⟨addressed, own, ?_, ?_, ?_, ?_⟩
  · obtain ⟨slots, -, -⟩ := outcome "+0065535 5"
    exact (slots 65535).mpr ⟨_, second "+0065535 5" _ (by decide), numeral⟩
  · obtain ⟨-, errors, -⟩ := outcome "65536"
    exact (errors "65536" 7).mpr
      ⟨rfl, _, second "65536" _ (by decide), rfl, by decide, by decide⟩
  · obtain ⟨-, errors, -⟩ := outcome "-+-4"
    exact (errors "-+-4" 7).mpr
      ⟨rfl, _, second "-+-4" _ (by decide), rfl, by decide, by decide⟩
  · obtain ⟨-, -, unchanged⟩ := outcome "\u0664"
    refine unchanged.mpr ?_
    intro word found
    rw [second "\u0664" "\u0664".toList (by decide)] at found
    obtain rfl := Option.some.inj found
    decide

end CilBuffer
