import CilBuffer.Proofs.DescribedLines
import CilBuffer.Proofs.StepReading

/-!
# Names that are taken for slots

A description reads lines and not steps, so it cannot tell the name of a local from an operand, nor
a label from an opcode. A step that loads or stores a local by name is left alone, with any records,
exactly if the first word of the name does not look like a number. A placed label is left alone
exactly if its name does not begin with the words of a load or store by slot. A label without white
space never does, since the colon after it belongs to its word.
-/

namespace CilBuffer

/-- The words of a load or store by slot: a mnemonic that fixes the slot, or one that takes it from
an operand, with a second word that looks like a number. What follows makes no difference. -/
inductive AddressesSlot : List (List Char) → Prop where
  | fixed {op : Opcode} {number : UInt16} {rest : List (List Char)} :
      op.slotAddress? = some (.fixed number) → AddressesSlot (op.mnemonic.toList :: rest)
  | operand {op : Opcode} {word : List Char} {rest : List (List Char)} :
      op.slotAddress? = some .operand → Text.isNumeric word = true →
      AddressesSlot (op.mnemonic.toList :: word :: rest)

namespace Reading

theorem ofOperand_eq_nothing_iff {word : List Char} :
    ofOperand word = .nothing ↔ Text.isNumeric word = false := by
  unfold ofOperand
  cases numeric : Text.isNumeric word with
  | false => simp
  | true => cases slot : Text.slotNumber? word <;> simp

/-- After an opcode that takes its slot from an operand, the first word of a text decides. -/
theorem ofOpcode_eq_nothing_iff {op : Opcode} (h : op.slotAddress? = some .operand)
    (cs : List Char) : ofOpcode op (Text.words cs) = .nothing ↔ Text.leadsNumeric cs = false := by
  cases words : Text.words cs with
  | nil => simp [ofOpcode, h, Text.leadsNumeric, words]
  | cons word rest => simp [ofOpcode, h, Text.leadsNumeric, words, ofOperand_eq_nothing_iff]

theorem ofLine_ne_nothing {line : String} (h : AddressesSlot (Text.words line.toList)) :
    ofLine line ≠ .nothing := by
  generalize words : Text.words line.toList = ws at h
  cases h with
  | fixed address =>
    rw [ofLine_of_mnemonic words]
    simp [ofOpcode, address]
  | operand address numeric =>
    rw [ofLine_of_mnemonic words]
    simp [ofOpcode, address, ofOperand_eq_nothing_iff, numeric]

theorem addressesSlot_of_ofLine {line : String} (h : ofLine line ≠ .nothing) :
    AddressesSlot (Text.words line.toList) := by
  cases words : Text.words line.toList with
  | nil => exact absurd (by simp only [ofLine, words]) h
  | cons word rest =>
    cases found : Opcode.ofMnemonic? (String.ofList word) with
    | none => exact absurd (by simp only [ofLine, words, found]) h
    | some op =>
      have own : op.mnemonic.toList = word := by
        rw [Opcode.ofMnemonic?_eq_some_iff.mp found, String.toList_ofList]
      subst own
      rw [ofLine_of_mnemonic words] at h
      cases address : op.slotAddress? with
      | none => exact absurd (ofOpcode_of_none address rest) h
      | some address' =>
        cases address' with
        | fixed number => exact .fixed address
        | operand =>
          cases rest with
          | nil => exact absurd (by simp only [ofOpcode, address]) h
          | cons operand rest =>
            have numeric : Text.isNumeric operand ≠ false := by
              simpa [ofOpcode, address, ofOperand_eq_nothing_iff] using h
            exact .operand address (by simpa using numeric)

/-- A line says nothing exactly if its words are not those of a load or store by slot. -/
theorem ofLine_eq_nothing_iff {line : String} :
    ofLine line = .nothing ↔ ¬ AddressesSlot (Text.words line.toList) := by
  constructor
  · intro h addresses
    exact ofLine_ne_nothing addresses h
  · intro h
    by_contra other
    exact h (addressesSlot_of_ofLine other)

end Reading

theorem Reading.ofLine_access_eq_nothing_iff {op : Opcode} (h : op.slotAddress? = some .operand)
    (localVar : Local) (current : Opcodes) :
    Reading.ofLine ((Step.access op localVar).line current) = .nothing
      ↔ Text.leadsNumeric localVar.name.toList = false := by
  rw [Step.ofLine_line, Step.text, Reading.ofLine_operandLine]
  exact Reading.ofOpcode_eq_nothing_iff h _

theorem Reading.ofLine_placed_eq_nothing_iff {step : Step} {label : Label}
    (h : step = .markLabel label ∨ step = .anchor label) (current : Opcodes) :
    Reading.ofLine (step.line current) = .nothing
      ↔ ¬ AddressesSlot (Text.words (label.name.toList ++ [':'])) := by
  have text : step.text current = placedLabelText label := by
    obtain rfl | rfl := h <;> rfl
  rw [Step.ofLine_line, text, Reading.ofLine_eq_nothing_iff, Reading.words_placedLabelText]

/-- The colon belongs to the word before it, and no mnemonic has a colon. -/
theorem not_addressesSlot_of_unbroken {name : List Char} (h : ∀ c ∈ name, Text.isBlank c = false) :
    ¬ AddressesSlot (Text.words (name ++ [':'])) := by
  rw [Text.words_of_forall_not (by simp) (Text.letters_concat h (by decide))]
  intro addresses
  generalize words : [name ++ [':']] = ws at addresses
  cases addresses with
  | @fixed op _ _ _ => exact op.mnemonic_ne_append_colon name (List.cons.inj words).1.symm
  | @operand op _ _ _ _ => exact op.mnemonic_ne_append_colon name (List.cons.inj words).1.symm

/-- The step that the error is about. -/
def BufferError.index : BufferError → Nat
  | .indexOutOfRange _ index _ | .missingScope _ index | .invalidSlot _ index
  | .conflictingScopes _ index _ _ => index

theorem Reading.Faulty.index_eq {reading : Reading} {active : List LocalScope} {index : Nat}
    {e : BufferError} (h : reading.Faulty active index e) : e.index = index := by
  cases h <;> rfl

namespace Buffer

variable {b : Buffer} {current : Opcodes} {index : Nat} {step : Step}

/-- With any records, a description has the line of the step as it is, or fails over another
step. -/
structure LeavesAlone (b : Buffer) (current : Opcodes) (index : Nat) : Prop where
  line : ∀ scopes out, b.describe current scopes = .ok out → out[index]? = (b.lines current)[index]?
  error : ∀ scopes e, b.describe current scopes = .error e → e.index ≠ index

theorem getElem?_lines (h : b.steps[index]? = some step) (current : Opcodes) :
    (b.lines current)[index]? = some (step.line current) := by
  rw [lines, List.getElem?_map, h, Option.map_some]

theorem leavesAlone_of_nothing (h : b.steps[index]? = some step)
    (silent : Reading.ofLine (step.line current) = .nothing) : b.LeavesAlone current index := by
  have at_index := getElem?_lines h current
  constructor
  · intro scopes out described
    obtain ⟨text, at_out, own⟩ :=
      (describe_eq_ok_iff.mp described).2 index (step.line current) at_index
    rw [silent] at own
    cases own
    rw [at_out, at_index]
  · intro scopes e fails same
    obtain ⟨i, line, at_i, faulty, -⟩ := describe_eq_error_iff.mp fails
    rw [faulty.index_eq] at same
    subst same
    rw [at_index] at at_i
    cases at_i
    rw [silent] at faulty
    cases faulty

/-- A line that says something cannot be described without records, since no name is there to be
added. -/
theorem nothing_of_leavesAlone (h : (ofSteps [step]).LeavesAlone current 0) :
    Reading.ofLine (step.line current) = .nothing := by
  have at_zero : ((ofSteps [step]).lines current)[0]? = some (step.line current) := rfl
  cases outcome : (ofSteps [step]).describe current [] with
  | ok out =>
    obtain ⟨text, -, own⟩ := (describe_eq_ok_iff.mp outcome).2 0 (step.line current) at_zero
    generalize Reading.ofLine (step.line current) = reading at own
    cases own with
    | nothing => rfl
    | slot _ only => cases only
  | error e =>
    obtain ⟨i, line, at_i, faulty, -⟩ := describe_eq_error_iff.mp outcome
    have inside := (List.getElem?_eq_some_iff.mp at_i).1
    rw [length_lines] at inside
    have first : i = 0 := Nat.lt_one_iff.mp inside
    rw [first] at faulty
    exact absurd faulty.index_eq (h.error [] e outcome)

/-- Wherever the step stands, it is left alone, if and only if its line says nothing. -/
theorem forall_leavesAlone_iff {silent : Prop}
    (h : ∀ current, Reading.ofLine (step.line current) = .nothing ↔ silent) :
    (∀ (b : Buffer) current index, b.steps[index]? = some step → b.LeavesAlone current index)
      ↔ silent := by
  constructor
  · intro always
    exact (h .initial).mp (nothing_of_leavesAlone (always (ofSteps [step]) .initial 0 rfl))
  · intro quiet b current index at_index
    exact leavesAlone_of_nothing at_index ((h current).mpr quiet)

/-- When a name is not taken for a slot. A load or store of a local by name is left alone if and
only if the name does not lead with a number, and a placed label if and only if the label, with its
colon, does not read like a load or store by slot. A label without white space does not. -/
theorem names_left_alone {op : Opcode} (address : op.slotAddress? = some .operand)
    (localVar : Local) (label : Label) {step : Step}
    (placed : step = .markLabel label ∨ step = .anchor label) :
    ((∀ (b : Buffer) current index, b.steps[index]? = some (.access op localVar) →
        b.LeavesAlone current index)
      ↔ Text.leadsNumeric localVar.name.toList = false) ∧
    ((∀ (b : Buffer) current index, b.steps[index]? = some step → b.LeavesAlone current index)
      ↔ ¬ AddressesSlot (Text.words (label.name.toList ++ [':']))) ∧
    ((∀ c ∈ label.name.toList, Text.isBlank c = false) →
      ¬ AddressesSlot (Text.words (label.name.toList ++ [':']))) := by
  refine ⟨?_, ?_, not_addressesSlot_of_unbroken⟩
  · exact forall_leavesAlone_iff (Reading.ofLine_access_eq_nothing_iff address localVar)
  · exact forall_leavesAlone_iff (Reading.ofLine_placed_eq_nothing_iff placed)

/-- A number in the second word of a local, and a mnemonic in the first word of a label. -/
theorem harmlessNames_left_alone :
    let byName : Step := .access .stlocS ⟨0, "x 5", 0, .value "System.Int32"⟩
    let placed : Step := .anchor ⟨1, "ldloc x 5", .plain⟩
    Opcode.stlocS.slotAddress? = some .operand ∧
      (ofSteps [byName, placed]).LeavesAlone .initial 0 ∧
      (ofSteps [byName, placed]).LeavesAlone .initial 1 ∧
      ¬ AddressesSlot (Text.words (("ldloc.0" : String).toList ++ [':'])) := by
  intro byName placed
  have address : Opcode.stlocS.slotAddress? = some .operand := rfl
  obtain ⟨locals, labels, -⟩ := names_left_alone address ⟨0, "x 5", 0, .value "System.Int32"⟩
    ⟨1, "ldloc x 5", .plain⟩ (.inr rfl)
  obtain ⟨-, -, unbroken⟩ := names_left_alone address ⟨0, "x 5", 0, .value "System.Int32"⟩
    ⟨1, "ldloc.0", .plain⟩ (.inl rfl)
  refine ⟨address, ?_, ?_, unbroken ?_⟩
  · exact locals.mpr (by decide +kernel) _ _ 0 rfl
  · refine labels.mpr ?_ _ _ 1 rfl
    rw [← String.toList_ofList (l := ("ldloc x 5" : String).toList ++ [':']),
      ← Reading.ofLine_eq_nothing_iff]
    decide +kernel
  · intro c hc
    exact (Opcode.ldloc_0.letters_mnemonic c hc).1

/-- A local whose name is a number, and a label whose name begins with a load, are taken for
slots. -/
theorem numericName_annotated :
    let byName : Buffer := ofSteps [.access .ldloc ⟨0, "5", 0, .value "System.Int32"⟩]
    let placed : Buffer := ofSteps [.markLabel ⟨1, "ldloc.0 loop", .plain⟩]
    byName.lines .initial = ["ldloc 5"] ∧
      byName.describe .initial [] = .error (.missingScope 5 0) ∧
      byName.describe .initial [⟨⟨2, "other", 5, .value "System.Int32"⟩, 0, none⟩]
        = .ok ["ldloc 5 // other"] ∧
      placed.lines .initial = ["\nldloc.0 loop:"] ∧
      placed.describe .initial [] = .error (.missingScope 0 0) := by
  decide +kernel

end Buffer

end CilBuffer
