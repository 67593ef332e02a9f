import CilBuffer.Proofs.DescribedLines
import CilBuffer.Proofs.FlushedCalls
import CilBuffer.Proofs.StepReading

/-!
# The mnemonics that lines and calls show

The line of a step with an opcode begins with its mnemonic, and no other line begins with one. So
the first words of a description, where they are mnemonics, are those of the instructions that a
flush sends, in the same order. Two kinds of steps are left out: a prefix with a number glued to it,
whose line begins with no mnemonic, and a placed label with white space in its name, which can begin
like an instruction.
-/

namespace CilBuffer

/-- The first word of the line, if it is a mnemonic. -/
def leadingMnemonic? (line : String) : Option String :=
  ((Text.words line.toList).head?.map String.ofList).filter fun word =>
    (Opcode.ofMnemonic? word).isSome

section Words

variable {line : String} {w : List Char} {ws : List (List Char)}

theorem leadingMnemonic?_congr {other : String}
    (h : (Text.words line.toList).head? = (Text.words other.toList).head?) :
    leadingMnemonic? line = leadingMnemonic? other := by
  rw [leadingMnemonic?, h, leadingMnemonic?]

theorem leadingMnemonic?_of_mnemonic {op : Opcode}
    (h : Text.words line.toList = op.mnemonic.toList :: ws) :
    leadingMnemonic? line = some op.mnemonic := by
  simp [leadingMnemonic?, h, Opcode.ofMnemonic?_mnemonic]

theorem leadingMnemonic?_of_word (h : Text.words line.toList = w :: ws)
    (other : ∀ op : Opcode, op.mnemonic.toList ≠ w) : leadingMnemonic? line = none := by
  have unknown : Opcode.ofMnemonic? (String.ofList w) = none := by
    cases found : Opcode.ofMnemonic? (String.ofList w) with
    | none => rfl
    | some op =>
      have own : op.mnemonic.toList = w := by
        rw [Opcode.ofMnemonic?_eq_some_iff.mp found, String.toList_ofList]
      exact absurd own (other op)
  simp [leadingMnemonic?, h, unknown]

/-- The markers of regions begin with a dash, and no mnemonic does. -/
theorem leadingMnemonic?_of_dash (h : line.toList.head? = some '-') :
    leadingMnemonic? line = none := by
  obtain ⟨cs, eq⟩ := List.head?_eq_some_iff.mp h
  obtain ⟨w, ws, first⟩ := Text.words_cons_of_not_isBlank (by decide : Text.isBlank '-' = false) cs
  refine leadingMnemonic?_of_word (eq ▸ first) ?_
  intro op own
  exact op.head?_mnemonic_ne_dash (by rw [own]; rfl)

theorem leadingMnemonic?_operandLine (op : Opcode) (operand : String) :
    leadingMnemonic? (operandLine op operand) = some op.mnemonic :=
  leadingMnemonic?_of_mnemonic (Reading.words_operandLine op operand)

theorem leadingMnemonic?_instructionText {op : Opcode} {operand : Immediate}
    (apart : (op.isPrefix && operand.isShort) = false) :
    leadingMnemonic? (instructionText op operand) = some op.mnemonic := by
  obtain ⟨operands, words⟩ := Reading.words_instructionText apart
  exact leadingMnemonic?_of_mnemonic words

theorem leadingMnemonic?_placedLabelText {label : Label}
    (letters : ∀ c ∈ label.name.toList, Text.isBlank c = false) :
    leadingMnemonic? (placedLabelText label) = none := by
  have word : Text.words (placedLabelText label).toList = [label.name.toList ++ [':']] := by
    rw [Reading.words_placedLabelText,
      Text.words_of_forall_not (by simp) (Text.letters_concat letters (by decide))]
  refine leadingMnemonic?_of_word word ?_
  intro op
  exact op.mnemonic_ne_append_colon label.name.toList

end Words

namespace Step

variable {step : Step} {current : Opcodes}

/-- The first word of the line tells whether the step has an opcode: no number is glued to a prefix,
and no name that is placed has white space in it. -/
def showsOpcode : Step → Bool
  | .instruction op operand => !(op.isPrefix && operand.isShort)
  | .markLabel label | .anchor label => label.name.toList.all (!Text.isBlank ·)
  | _ => true

/-- The mnemonic of the opcode in effect. -/
def mnemonic? (current : Opcodes) (step : Step) : Option String :=
  (step.opcode? current).map (·.mnemonic)

theorem leadingMnemonic?_text (h : step.showsOpcode = true) :
    leadingMnemonic? (step.text current) = step.mnemonic? current := by
  cases step with
  | instruction op operand =>
    exact leadingMnemonic?_instructionText (by simpa only [showsOpcode, Bool.not_eq_true'] using h)
  | access op localVar => exact leadingMnemonic?_operandLine op localVar.name
  | branch slot target => exact leadingMnemonic?_operandLine (current slot) target.name
  | switch slot targets => exact leadingMnemonic?_operandLine (current slot) _
  | beginCatch exception =>
    exact leadingMnemonic?_of_dash (head?_catchText exception)
  | beginException _ | endException | endCatch | beginFinally | endFinally =>
    exact leadingMnemonic?_of_dash (by simp [text])
  | markLabel label | anchor label =>
    exact leadingMnemonic?_placedLabelText (by simpa [showsOpcode] using h)
  | defineLabel _ | declareLocal _ => rfl

theorem leadingMnemonic?_line (h : step.showsOpcode = true) :
    leadingMnemonic? (step.line current) = step.mnemonic? current := by
  rw [← leadingMnemonic?_text h]
  apply leadingMnemonic?_congr
  rw [words_line]

end Step

section Annotations

variable {scopes : List LocalScope} {index : Nat} {line text : String} {lines out : List String}

/-- A name is added after a space, and only to a line that has a word. -/
theorem leadingMnemonic?_annotate (h : annotate scopes index line = .ok text) :
    leadingMnemonic? text = leadingMnemonic? line := by
  have described := Reading.annotate_eq_ok_iff.mp h
  generalize reading : Reading.ofLine line = r at described
  cases described with
  | nothing => rfl
  | @slot number scope _ _ =>
    cases words : Text.words line.toList with
    | nil =>
      rw [Reading.ofLine, words] at reading
      cases reading
    | cons w ws =>
      have longer : (line ++ " // " ++ scope.localVar.name).toList
          = line.toList ++ ' ' :: ("// " ++ scope.localVar.name).toList := by simp
      apply leadingMnemonic?_congr
      rw [longer, Text.words_append_cons _ (by decide), words]
      rfl

theorem leadingMnemonics_annotateFrom (h : annotateFrom scopes index lines = .ok out) :
    out.filterMap leadingMnemonic? = lines.filterMap leadingMnemonic? := by
  induction lines generalizing index out with
  | nil =>
    cases h
    rfl
  | cons line lines ih =>
    obtain ⟨first, rest, rfl, here, later⟩ := annotateFrom_cons_eq_ok_iff.mp h
    rw [List.filterMap_cons, List.filterMap_cons, leadingMnemonic?_annotate here, ih later]

end Annotations

theorem Reference.opcode?_creation (r : Reference) (number : Handle r.isLabel) :
    (r.creation number).opcode? = none := by
  obtain ⟨serial, name, origin⟩ | localVar := r
  · cases origin <;> rfl
  · rfl

theorem Step.opcode?_ownCall? (current : Opcodes) (number : Numbering) (step : Step) :
    (step.ownCall? current number).bind (·.opcode?) = step.opcode? current := by
  cases step <;> rfl

/-- The mnemonic of the opcode in the call. -/
def Call.mnemonic? (call : Call) : Option String := call.opcode?.map (·.mnemonic)

theorem Recorder.mnemonics_eq (r : Recorder) : r.mnemonics = r.calls.filterMap (·.mnemonic?) := rfl

theorem Step.mnemonics_ownCall? (current : Opcodes) (number : Numbering) (step : Step) :
    (step.ownCall? current number).toList.filterMap (·.mnemonic?)
      = (step.mnemonic? current).toList := by
  rw [mnemonic?, ← step.opcode?_ownCall? current number]
  cases step.ownCall? current number with
  | none => rfl
  | some call => cases op : call.opcode? <;> simp [Call.mnemonic?, op]

/-- Creations have no opcode, and the own call of a step has the one in effect. -/
theorem Linker.mnemonics_directCalls (k : Linker) (current : Opcodes) (number : Numbering)
    (before : List Reference) (steps : List Step) :
    (k.directCalls current number before steps).filterMap (·.mnemonic?)
      = steps.filterMap (·.mnemonic? current) := by
  induction steps generalizing before with
  | nil => rfl
  | cons step steps ih =>
    have creations : ((k.firstUses before step.references).map
        fun r => r.creation (number r)).filterMap (·.mnemonic?) = [] := by
      simp [Call.mnemonic?, Reference.opcode?_creation]
    have first : (step :: steps).filterMap (·.mnemonic? current)
        = (step.mnemonic? current).toList ++ steps.filterMap (·.mnemonic? current) := by
      simp only [List.filterMap_eq_flatMap_toList, List.flatMap_cons]
    rw [directCalls, List.filterMap_append, List.filterMap_append, creations,
      step.mnemonics_ownCall?, ih, first]
    rfl

theorem Buffer.leadingMnemonics_lines {b : Buffer} (current : Opcodes)
    (h : ∀ step ∈ b.steps, step.showsOpcode = true) :
    (b.lines current).filterMap leadingMnemonic? = b.steps.filterMap (·.mnemonic? current) := by
  have each : ∀ step ∈ b.steps,
      (leadingMnemonic? ∘ fun step => step.line current) step = step.mnemonic? current := by
    intro step hs
    rw [Function.comp_apply]
    exact Step.leadingMnemonic?_line (h step hs)
  rw [lines, List.filterMap_map]
  exact List.filterMap_congr each

namespace Session

variable {s : Session} {id : Nat}

/-- The mnemonics of the opcodes in effect, of the steps that have one, are the first words of the
lines as far as these are mnemonics, in a description without annotations and in one with them that
succeeds, and they are what a flush adds to the mnemonics of any target. -/
theorem shown_mnemonics (h : ∀ step ∈ (s.buffers id).steps, step.showsOpcode = true) :
    let b := s.buffers id
    let shown := b.steps.filterMap (·.mnemonic? s.opcodes)
    (b.lines s.opcodes).filterMap leadingMnemonic? = shown ∧
      (∀ scopes out, b.describe s.opcodes scopes = .ok out →
        out.filterMap leadingMnemonic? = shown) ∧
      ∀ target, ((s.flush id target).2.recorders target).mnemonics
        = (s.recorders target).mnemonics ++ shown := by
  intro b shown
  have lines : (b.lines s.opcodes).filterMap leadingMnemonic? = shown :=
    Buffer.leadingMnemonics_lines s.opcodes h
  refine ⟨lines, ?_, ?_⟩
  · intro scopes out described
    exact (leadingMnemonics_annotateFrom described).trans lines
  · intro target
    rw [Recorder.mnemonics_eq, (s.after_flush id target).2, List.filterMap_append]
    congr 1
    exact Linker.mnemonics_directCalls ..

/-- Names, a string and a type that look like instructions, beside a prefix, a replaced branch and a
load by slot. The target has an instruction by then. -/
def disguisedNames : List Operation :=
  [.newBuffer (some "ret"), .newRecorder, .request 2 (.instruction .nop .none),
    .append 0 (.instruction .ldstr (.string "pop\ndup")),
    .emit 0 (.branch .brS ⟨1, "ret", .plain⟩),
    .setOpcode ⟨⟨3, .brS⟩, 0⟩ .brfalse, .emit 0 .beginException,
    .append 0 (.instruction .volatile .none),
    .emit 0 (.declareLocal "7" 1 (.value "System.Int32")),
    .append 0 (.access .ldloc ⟨5, "7", 1, .value "System.Int32"⟩),
    .append 0 (.instruction .ldlocS (.byte 1)), .append 0 (.beginCatch (.value "add")),
    .append 0 .endException, .append 0 (.markLabel ⟨6, "ldloc.1", .plain⟩)]

theorem disguisedNames_shown :
    let s := (new.run disguisedNames).2
    let shown := ["ldstr", "brfalse", "volatile.", "ldloc", "ldloc.s"]
    (∀ step ∈ (s.buffers 0).steps, step.showsOpcode = true) ∧
      ((s.buffers 0).lines s.opcodes).filterMap leadingMnemonic? = shown ∧
      (∃ out, (s.buffers 0).describe s.opcodes
          [.new ⟨5, "7", 1, .value "System.Int32"⟩ 0, .new ⟨8, "add", 7, .value "System.Int32"⟩ 0]
            = .ok out ∧ out.filterMap leadingMnemonic? = shown) ∧
      (s.recorders 2).mnemonics = ["nop"] ∧
      ((s.flush 0 2).2.recorders 2).mnemonics = "nop" :: shown := by
  intro s shown
  have shows : ∀ step ∈ (s.buffers 0).steps, step.showsOpcode = true := by decide
  have opcodes : (s.buffers 0).steps.filterMap (·.mnemonic? s.opcodes) = shown := by decide
  have earlier : (s.recorders 2).mnemonics = ["nop"] := by decide
  have described : ∃ out, (s.buffers 0).describe s.opcodes
      [.new ⟨5, "7", 1, .value "System.Int32"⟩ 0, .new ⟨8, "add", 7, .value "System.Int32"⟩ 0]
        = .ok out := ⟨["\nret:", "ldstr 'pop\ndup'", "brfalse ret", "--BeginExceptionBlock--",
          "volatile.", "", "ldloc 7 // add", "ldloc.s 1 // 7", "--BeginCatchBlock(add)--",
          "--EndExceptionBlock--", "\nldloc.1:"], by decide +kernel⟩
  obtain ⟨lines, annotated, sent⟩ := shown_mnemonics shows
  obtain ⟨out, ok⟩ := described
  refine ⟨shows, lines.trans opcodes, ⟨out, ok, (annotated _ out ok).trans opcodes⟩, earlier, ?_⟩
  rw [sent 2, earlier, opcodes]
  rfl

end Session

end CilBuffer
