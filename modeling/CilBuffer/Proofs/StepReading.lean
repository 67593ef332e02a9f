import CilBuffer.Session.Operation
import CilBuffer.Proofs.Mnemonics

/-!
# Descriptions without reading

A line says the same about a slot as the opcode and the operand of its step do, if the names in it
are words that do not look like numbers. So a description can be made from the steps, and no line
has to be taken apart. Of steps with other names nothing is said here, and neither is it of a float
or a signature that stands where a slot is expected: their text is read as a number.
-/

namespace CilBuffer

/-- The value of a whole number. -/
def Immediate.value? : Immediate → Option Int
  | .byte v => some v.toNat
  | .int16 v => some v.toInt
  | .int32 v => some v.toInt
  | .uint32 v => some v.toNat
  | .int64 v => some v.toInt
  | .uint64 v => some v.toNat
  | _ => .none

/-- What a number says about a slot. -/
def Reading.ofValue (v : Int) : Reading :=
  if 0 ≤ v ∧ v < UInt16.size then .slot (.ofNat v.toNat) else .invalid (Text.ofInt v)

/-- What an opcode and its operand say about a slot. -/
def Reading.ofAddress : Option SlotAddress → Immediate → Reading
  | some (.fixed number), _ => .slot number
  | some .operand, operand => (operand.value?.map ofValue).getD .nothing
  | none, _ => .nothing

namespace Step

/-- The operand of an instruction. Other steps have none. -/
def operand : Step → Immediate
  | .instruction _ operand => operand
  | _ => .none

/-- How the step addresses the local that it loads or stores. -/
def slotAddress? (current : Opcodes) (step : Step) : Option SlotAddress :=
  (step.opcode? current).bind (·.slotAddress?)

/-- The slot that the step loads or stores, by its opcode and its operand. -/
def reading (current : Opcodes) (step : Step) : Reading :=
  .ofAddress (step.slotAddress? current) step.operand

end Step

/-- The steps described in order, the first at the given index. -/
def describeFrom (current : Opcodes) (scopes : List LocalScope) (index : Nat) :
    List Step → Except BufferError (List String)
  | [] => .ok []
  | step :: steps => do
    let first ← (step.reading current).annotate scopes index (step.line current)
    let rest ← describeFrom current scopes (index + 1) steps
    return first :: rest

/-- The names of types in the text of the operand. -/
def Immediate.typeNames : Immediate → List String
  | .method m => m.returnType.name :: m.parameters.map (·.name)
  | .constructor c => c.parameters.map (·.name)
  | .type t => [t.name]
  | .field f => [f.fieldType.name]
  | .signature s => s.returnType.name :: s.parameters.map (·.name)
  | _ => []

/-- Floats, and signatures, whose conventions can be written as a zero. -/
def Immediate.resemblesNumber : Immediate → Bool
  | .single _ | .double _ | .signature _ => true
  | _ => false

/-- The names of labels, locals and types in the text of the step. -/
def Step.names : Step → List String
  | .instruction _ operand => operand.typeNames
  | .access _ localVar => [localVar.name]
  | .branch _ target => [target.name]
  | .switch _ targets => targets.map (·.name)
  | .beginCatch exception => [exception.name]
  | .markLabel label | .anchor label => [label.name]
  | _ => []

/-- The names in the text are words that do not look like numbers, and no float or signature stands
where a slot is expected. -/
structure Step.Legible (current : Opcodes) (step : Step) : Prop where
  names : ∀ name ∈ step.names, Text.IsName name
  operand : step.operand.resemblesNumber = true → step.slotAddress? current ≠ some .operand

namespace Reading

theorem ofOpcode_of_none {op : Opcode} (h : op.slotAddress? = none)
    (operands : List (List Char)) : ofOpcode op operands = .nothing := by
  simp [ofOpcode, h]

theorem ofLine_of_mnemonic {line : String} {op : Opcode} {operands : List (List Char)}
    (h : Text.words line.toList = op.mnemonic.toList :: operands) :
    ofLine line = ofOpcode op operands := by
  simp only [ofLine, h, String.ofList_toList, Opcode.ofMnemonic?_mnemonic]

/-- A line says nothing if its first word is no opcode that loads or stores a local. -/
theorem ofLine_of_word {line : String} {w : List Char} {ws : List (List Char)}
    (h : Text.words line.toList = w :: ws)
    (other : ∀ op : Opcode, op.mnemonic.toList = w → op.slotAddress? = none) :
    ofLine line = .nothing := by
  simp only [ofLine, h]
  cases found : Opcode.ofMnemonic? (String.ofList w) with
  | none => rfl
  | some op =>
    have own : op.mnemonic.toList = w := by
      rw [Opcode.ofMnemonic?_eq_some_iff.mp found, String.toList_ofList]
    exact ofOpcode_of_none (other op own) ws

theorem ofLine_of_head {line : String} {c : Char} (h : line.toList.head? = some c)
    (solid : Text.isBlank c = false) (notL : c ≠ 'l') (notS : c ≠ 's') :
    ofLine line = .nothing := by
  obtain ⟨cs, eq⟩ := List.head?_eq_some_iff.mp h
  obtain ⟨w, ws, first⟩ := Text.words_cons_of_not_isBlank solid cs
  refine ofLine_of_word (eq ▸ first) ?_
  intro op own
  by_contra slot
  have head := Opcode.head?_mnemonic_of_slotAddress? slot
  rw [own] at head
  rcases head with head | head
  · exact notL (Option.some.inj head)
  · exact notS (Option.some.inj head)

/-- The markers of regions begin with a dash. -/
theorem ofLine_of_dash {line : String} (h : line.toList.head? = some '-') :
    ofLine line = .nothing :=
  ofLine_of_head h (by decide) (by decide) (by decide)

/-- The mnemonic is the first word, whatever the operand is. -/
theorem words_operandLine (op : Opcode) (operand : String) :
    Text.words (operandLine op operand).toList
      = op.mnemonic.toList :: Text.words operand.toList := by
  have text : (operandLine op operand).toList
      = op.mnemonic.toList ++ ' ' :: (operand.toList ++ ['\n']) := by
    unfold operandLine
    simp
  rw [text, Text.words_word_cons op.mnemonic_ne_nil (fun c hc => (op.letters_mnemonic c hc).1)
    (by decide), Text.words_append_blank _ (by decide)]

/-- The mnemonic is the first word, unless a number is glued to it. -/
theorem words_instructionText {op : Opcode} {operand : Immediate}
    (apart : (op.isPrefix && operand.isShort) = false) :
    ∃ operands, Text.words (instructionText op operand).toList = op.mnemonic.toList :: operands := by
  unfold instructionText
  split
  · split
    · exact ⟨[], op.words_mnemonic⟩
    · refine ⟨[], ?_⟩
      rw [String.toList_append]
      exact (Text.words_append_blank _ (by decide)).trans op.words_mnemonic
  · simp only [apart, Bool.false_eq_true, ↓reduceIte]
    exact ⟨_, words_operandLine op operand.text⟩

theorem ofLine_operandLine (op : Opcode) (operand : String) :
    ofLine (operandLine op operand) = ofOpcode op (Text.words operand.toList) :=
  ofLine_of_mnemonic (words_operandLine op operand)

/-- The words of a placed label are those of its name with the colon after it. -/
theorem words_placedLabelText (label : Label) :
    Text.words (placedLabelText label).toList = Text.words (label.name.toList ++ [':']) := by
  have text : (placedLabelText label).toList
      = '\n' :: ((label.name.toList ++ [':']) ++ ['\n']) := by
    unfold placedLabelText
    simp
  rw [text, Text.words_cons_of_isBlank (by decide), Text.words_append_blank _ (by decide)]

theorem ofLine_placedLabelText {label : Label} (h : Text.IsName label.name) :
    ofLine (placedLabelText label) = .nothing := by
  have letters : ∀ c ∈ label.name.toList ++ [':'], Text.isBlank c = false :=
    Text.letters_concat h.letters (by decide)
  have word : Text.words (placedLabelText label).toList = [label.name.toList ++ [':']] := by
    rw [words_placedLabelText, Text.words_of_forall_not (by simp) letters]
  refine ofLine_of_word word ?_
  intro op own
  exact absurd own (op.mnemonic_ne_append_colon label.name.toList)

theorem ofOperand_ofInt (v : Int) : ofOperand (Text.ofInt v).toList = ofValue v := by
  rw [ofOperand, if_pos (Text.isNumeric_ofInt v), Text.slotNumber?_ofInt, ofValue]
  by_cases range : 0 ≤ v ∧ v < UInt16.size
  · simp only [if_pos range]
  · simp only [if_neg range, String.ofList_toList]

theorem ofOpcode_ofInt {op : Opcode} {operand : Immediate} {v : Int}
    (h : operand.value? = some v) :
    ofOpcode op (Text.words (Text.ofInt v).toList) = ofAddress op.slotAddress? operand := by
  rw [Text.words_ofInt]
  cases address : op.slotAddress? with
  | none => exact ofOpcode_of_none address _
  | some address' =>
    cases address' with
    | fixed number => simp [ofOpcode, ofAddress, address]
    | operand => simp [ofOpcode, ofAddress, address, h, ofOperand_ofInt]

/-- Any other operand says nothing, if its first word does not look like a number. -/
theorem ofOpcode_of_not_leadsNumeric {op : Opcode} {operand : Immediate} {cs : List Char}
    (h : operand.value? = none)
    (plain : op.slotAddress? = some .operand → Text.leadsNumeric cs = false) :
    ofOpcode op (Text.words cs) = ofAddress op.slotAddress? operand := by
  cases address : op.slotAddress? with
  | none => exact ofOpcode_of_none address _
  | some address' =>
    cases address' with
    | fixed number => simp [ofOpcode, ofAddress, address]
    | operand =>
      have first := plain address
      cases words : Text.words cs with
      | nil => simp [ofOpcode, ofAddress, address, h]
      | cons word rest =>
        have other : Text.isNumeric word = false := by
          simpa [Text.leadsNumeric, words] using first
        simp [ofOpcode, ofAddress, address, h, ofOperand, other]

end Reading

namespace Immediate

theorem text_of_value? {operand : Immediate} {v : Int} (h : operand.value? = some v) :
    operand.text = Text.ofInt v := by
  cases operand <;> cases h <;> rfl

theorem leadsNumeric_text {operand : Immediate} (h : operand.value? = .none)
    (names : ∀ name ∈ operand.typeNames, Text.IsName name)
    (other : operand.resemblesNumber = false) :
    Text.leadsNumeric operand.text.toList = false := by
  cases operand with
  | none => rfl
  | method m =>
    have first : Text.IsName m.returnType.name := names _ (List.mem_cons_self ..)
    simpa [text, MethodRef.text] using first.leadsNumeric_space _
  | constructor c =>
    have first : Text.IsName TypeRef.void.name := by decide
    simpa [text, ConstructorRef.text] using first.leadsNumeric_space _
  | type t => exact (names _ (List.mem_singleton_self _)).leadsNumeric
  | field f =>
    have first : Text.IsName f.fieldType.name := names _ (List.mem_singleton_self _)
    simpa [text, FieldRef.text] using first.leadsNumeric_space _
  | string s =>
    have quoted : (Immediate.string s).text.toList
        = Text.quote :: (Text.escape s.toList ++ ['\'']) := by
      simp [text, Text.quoted, Text.quote]
    rw [quoted]
    exact Text.leadsNumeric_cons (by decide) (by decide) (by decide) _
  | single _ | double _ | signature _ => cases other
  | byte _ | int16 _ | int32 _ | uint32 _ | int64 _ | uint64 _ => cases h

end Immediate

namespace Reading

theorem ofLine_of_bare {line : String} {op : Opcode}
    (h : Text.words line.toList = [op.mnemonic.toList]) :
    ofLine line = ofAddress op.slotAddress? .none := by
  have plain : op.slotAddress? = some .operand → Text.leadsNumeric [] = false := fun _ => rfl
  rw [ofLine_of_mnemonic h]
  exact ofOpcode_of_not_leadsNumeric rfl plain

theorem ofLine_operandLine_text {op : Opcode} {operand : Immediate}
    (names : ∀ name ∈ operand.typeNames, Text.IsName name)
    (other : operand.resemblesNumber = true → op.slotAddress? ≠ some .operand) :
    ofLine (operandLine op operand.text) = ofAddress op.slotAddress? operand := by
  rw [ofLine_operandLine]
  cases value : operand.value? with
  | some v => rw [Immediate.text_of_value? value, ofOpcode_ofInt value]
  | none =>
    refine ofOpcode_of_not_leadsNumeric value ?_
    intro address
    refine Immediate.leadsNumeric_text value names ?_
    cases resembles : operand.resemblesNumber with
    | false => rfl
    | true => exact absurd address (other resembles)

theorem ofLine_instructionText {op : Opcode} {operand : Immediate}
    (names : ∀ name ∈ operand.typeNames, Text.IsName name)
    (other : operand.resemblesNumber = true → op.slotAddress? ≠ some .operand) :
    ofLine (instructionText op operand) = ofAddress op.slotAddress? operand := by
  unfold instructionText
  split
  · rename_i bare
    rw [bare]
    split
    · exact ofLine_of_bare op.words_mnemonic
    · refine ofLine_of_bare ?_
      rw [String.toList_append]
      exact (Text.words_append_blank _ (by decide)).trans op.words_mnemonic
  · split
    · -- The operand is glued to a prefix, and the word that results is no opcode of a local.
      rename_i glued
      obtain ⟨leads, -⟩ := Bool.and_eq_true_iff.mp glued
      obtain ⟨c, cs, eq, solid, notL, notS⟩ := Opcode.mnemonic_of_isPrefix leads
      have first : (op.mnemonic ++ operand.text ++ ".").toList.head? = some c := by simp [eq]
      rw [ofLine_of_head first solid notL notS, Opcode.slotAddress?_of_isPrefix leads]
      rfl
    · exact ofLine_operandLine_text names other

end Reading

theorem head?_catchText (exception : TypeRef) : (catchText exception).toList.head? = some '-' := by
  unfold catchText
  simp

/-- The line of a step says what its opcode and its operand say. -/
theorem Step.Legible.ofLine_text {current : Opcodes} {step : Step} (h : step.Legible current) :
    Reading.ofLine (step.text current) = step.reading current := by
  have plainLine : ∀ (op : Opcode) (operand : String), Text.leadsNumeric operand.toList = false →
      Reading.ofLine (operandLine op operand) = .ofAddress op.slotAddress? .none := by
    intro op operand plain
    rw [Reading.ofLine_operandLine]
    exact Reading.ofOpcode_of_not_leadsNumeric rfl fun _ => plain
  cases step with
  | instruction op operand => exact Reading.ofLine_instructionText h.names h.operand
  | access op localVar =>
    exact plainLine op localVar.name (h.names _ (List.mem_singleton_self _)).leadsNumeric
  | branch slot target =>
    exact plainLine (current slot) target.name
      (h.names _ (List.mem_singleton_self _)).leadsNumeric
  | switch slot targets =>
    exact plainLine (current slot) _ (Text.leadsNumeric_intercalate h.names)
  | beginCatch exception =>
    exact Reading.ofLine_of_dash (head?_catchText exception)
  | beginException _ | endException | endCatch | beginFinally | endFinally =>
    exact Reading.ofLine_of_dash (by simp [text])
  | markLabel label | anchor label =>
    exact Reading.ofLine_placedLabelText (h.names _ (List.mem_singleton_self _))
  | defineLabel _ | declareLocal _ => rfl

/-- The white space at the end of a line makes no difference. -/
theorem Step.words_line (step : Step) (current : Opcodes) :
    Text.words (step.line current).toList = Text.words (step.text current).toList := by
  rw [line, String.toList_ofList, Text.words_trimEnd]

theorem Step.ofLine_line (current : Opcodes) (step : Step) :
    Reading.ofLine (step.line current) = Reading.ofLine (step.text current) := by
  simp only [Reading.ofLine, Step.words_line]

theorem Step.Legible.ofLine_line {current : Opcodes} {step : Step} (h : step.Legible current) :
    Reading.ofLine (step.line current) = step.reading current := by
  rw [Step.ofLine_line, h.ofLine_text]

theorem annotateFrom_eq_describeFrom {current : Opcodes} {steps : List Step}
    (h : ∀ step ∈ steps, step.Legible current) (scopes : List LocalScope) (index : Nat) :
    annotateFrom scopes index (steps.map (·.line current))
      = describeFrom current scopes index steps := by
  induction steps generalizing index with
  | nil => rfl
  | cons step steps ih =>
    have own := (h step (List.mem_cons_self ..)).ofLine_line
    have rest := ih (fun s hs => h s (List.mem_cons_of_mem _ hs)) (index + 1)
    simp only [List.map_cons, annotateFrom, describeFrom, annotate, own, rest]

namespace Buffer

/-- One line a step, and the name of each local that the opcode and operand of a step address. -/
def describeByStep (b : Buffer) (current : Opcodes) (scopes : List LocalScope) :
    Except BufferError (List String) :=
  describeFrom current scopes 0 b.steps

/-- A description reads off the lines what the steps say, if they are legible: the names it adds,
and the first error, are those that the opcodes and operands call for. -/
theorem describe_eq_describeByStep {b : Buffer} {current : Opcodes}
    (h : ∀ step ∈ b.steps, step.Legible current) (scopes : List LocalScope) :
    b.describe current scopes = b.describeByStep current scopes :=
  annotateFrom_eq_describeFrom h scopes 0

end Buffer

namespace Session

/-- A branch whose opcode is replaced by a load among lines that look like one. -/
def replacedLoad : List Operation :=
  [.newBuffer (some "entry"), .emit 0 (.step (.instruction .ldstr (.string "ldloc 7"))),
    .emit 0 (.step (.instruction .stlocS (.byte 3))), .emit 0 (.branch .brS ⟨1, "entry", .plain⟩),
    .setOpcode ⟨⟨2, .brS⟩, 0⟩ .ldloc, .emit 0 (.step (.instruction .unaligned (.byte 1))),
    .emit 0 (.step (.instruction .ldloc_1 .none))]

theorem replacedLoad_described :
    (∀ step ∈ ((new.run replacedLoad).2.buffers 0).steps,
        step.Legible (new.run replacedLoad).2.opcodes) ∧
      ((new.run replacedLoad).2.buffers 0).describe (new.run replacedLoad).2.opcodes
          [⟨⟨8, "total", 1, .value "System.Int32"⟩, 0, none⟩,
            ⟨⟨9, "count", 3, .value "System.Int32"⟩, 2, some 3⟩]
        = .ok ["\nentry:", "ldstr 'ldloc 7'", "stloc.s 3 // count", "ldloc entry", "unaligned.1.",
            "ldloc.1 // total"] := by
  have only : ∀ step ∈ ((new.run replacedLoad).2.buffers 0).steps,
      ∀ name ∈ step.names, name = "entry" := by decide
  have whole : ∀ step ∈ ((new.run replacedLoad).2.buffers 0).steps,
      step.operand.resemblesNumber = false := by decide
  have legible : ∀ step ∈ ((new.run replacedLoad).2.buffers 0).steps,
      step.Legible (new.run replacedLoad).2.opcodes := by
    intro step hs
    refine ⟨?_, ?_⟩
    · intro name hn
      rw [only step hs name hn]
      decide
    · intro resembles
      rw [whole step hs] at resembles
      cases resembles
  refine ⟨legible, ?_⟩
  rw [Buffer.describe_eq_describeByStep legible]
  decide +kernel

end Session

end CilBuffer
