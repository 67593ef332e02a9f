import Mathlib.Data.List.Forall2
import CilBuffer.Proofs.Activities
import CilBuffer.Proofs.StepReading

/-!
# The pieces of a trace

The piece of text that a step adds to a trace is told by the step and the opcodes in effect, and is
the same on every target and on none. A flush replays the steps in order into an empty trace, so its
text is made of their pieces. A description without annotations has the same pieces, one a line,
without the white space at their ends. A description with annotations can fail, but neither kind
changes what the rest of a run replies.
-/

namespace CilBuffer

namespace Text

/-- The line is the text without the white space at its end. -/
structure Trimmed (text line : List Char) : Prop where
  rest : ∃ blanks, text = line ++ blanks ∧ ∀ c ∈ blanks, isBlank c = true
  solid : ∀ c, line.getLast? = some c → isBlank c = false

/-- By induction from the end, as white space is taken off there. -/
theorem trimmed_trimEnd (cs : List Char) : Trimmed cs (trimEnd cs) := by
  induction cs using List.reverseRecOn with
  | nil => exact ⟨⟨[], rfl, by simp⟩, by simp [trimEnd]⟩
  | append_singleton cs c ih =>
    cases hc : isBlank c with
    | true =>
      obtain ⟨blanks, split, blank⟩ := ih.rest
      rw [trimEnd_append_of_isBlank cs hc]
      refine ⟨⟨blanks ++ [c], by rw [← List.append_assoc, ← split], ?_⟩, ih.solid⟩
      intro b hb
      rcases List.mem_append.mp hb with old | new
      · exact blank b old
      · rw [List.mem_singleton.mp new]
        exact hc
    | false =>
      rw [trimEnd_append_of_not_isBlank cs hc]
      refine ⟨⟨[], by simp, by simp⟩, ?_⟩
      intro b last
      rw [List.getLast?_concat] at last
      cases last
      exact hc

end Text

namespace Step

/-- The step defines a label or declares a local. -/
def isDefinition : Step → Bool
  | .defineLabel _ | .declareLocal _ => true
  | _ => false

/-- The next instruction goes on the line of the step: a prefix that has no operand, or an operand
of the kinds that belong to prefixes. -/
def isGlued : Step → Bool
  | .instruction op operand => op.isPrefix && (operand = .none || operand.isShort)
  | _ => false

variable {current : Opcodes} {step : Step}

theorem text_eq_empty_iff_isDefinition : step.text current = "" ↔ step.isDefinition = true := by
  rw [text_eq_empty_iff]
  cases step <;> simp [isDefinition]

end Step

theorem Immediate.value?_of_isShort {operand : Immediate} (h : operand.isShort = true) :
    ∃ v, operand.value? = some v := by
  cases operand with
  | byte v => exact ⟨v.toNat, rfl⟩
  | int16 v => exact ⟨v.toInt, rfl⟩
  | int32 v => exact ⟨v.toInt, rfl⟩
  | _ => cases h

/-- Neither the mnemonic of a prefix nor a number has a newline in it. -/
theorem newline_notMem_instructionText {op : Opcode} {operand : Immediate} (h : op.isPrefix = true)
    (short : operand = .none ∨ operand.isShort = true) :
    '\n' ∉ (instructionText op operand).toList := by
  have newline : Text.isBlank '\n' = true := by decide
  have mnemonic : '\n' ∉ op.mnemonic.toList := by
    intro inside
    rw [(op.letters_mnemonic _ inside).1] at newline
    cases newline
  unfold instructionText
  rcases short with rfl | short
  · simpa [h] using mnemonic
  · obtain ⟨v, value⟩ := Immediate.value?_of_isShort short
    have number : '\n' ∉ operand.text.toList := by
      rw [Immediate.text_of_value? value]
      intro inside
      rw [Text.letters_ofInt v _ inside] at newline
      cases newline
    have some_operand : operand ≠ .none := by
      rintro rfl
      cases short
    simp [h, short, some_operand, mnemonic, number]

theorem instructionText_ends {op : Opcode} {operand : Immediate}
    (h : (op.isPrefix && (operand = .none || operand.isShort)) = false) :
    ∃ line, instructionText op operand = line ++ "\n" := by
  unfold instructionText
  split
  · rename_i bare
    have plain : op.isPrefix = false := by simpa [bare] using h
    exact ⟨op.mnemonic, by simp [plain]⟩
  · rename_i some_operand
    have plain : (op.isPrefix && operand.isShort) = false := by simpa [some_operand] using h
    rw [plain]
    unfold operandLine
    exact ⟨op.mnemonic ++ " " ++ operand.text, rfl⟩

theorem operandLine_ends (op : Opcode) (operand : String) :
    ∃ line, operandLine op operand = line ++ "\n" := by
  unfold operandLine
  exact ⟨op.mnemonic ++ " " ++ operand, rfl⟩

namespace Step

variable {current : Opcodes} {step : Step}

theorem newline_notMem_of_isGlued (h : step.isGlued = true) :
    '\n' ∉ (step.text current).toList := by
  cases step with
  | instruction op operand =>
    simp only [isGlued, Bool.and_eq_true, Bool.or_eq_true, decide_eq_true_eq] at h
    exact newline_notMem_instructionText h.1 h.2
  | _ => cases h

theorem text_ends (other : step.isDefinition = false) (h : step.isGlued = false) :
    ∃ line, step.text current = line ++ "\n" := by
  cases step with
  | instruction op operand => exact instructionText_ends h
  | access op localVar => exact operandLine_ends op localVar.name
  | branch slot target => exact operandLine_ends (current slot) target.name
  | switch slot targets => exact operandLine_ends (current slot) _
  | beginException _ => exact ⟨"--BeginExceptionBlock--", rfl⟩
  | beginCatch exception =>
    simp only [text, catchText]
    exact ⟨"--BeginCatchBlock(" ++ exception.name ++ ")--", by simp [← String.toList_inj]⟩
  | endException => exact ⟨"--EndExceptionBlock--", rfl⟩
  | endCatch => exact ⟨"--EndCatchBlock--", rfl⟩
  | beginFinally => exact ⟨"--BeginFinallyBlock--", rfl⟩
  | endFinally => exact ⟨"--EndFinallyBlock--", rfl⟩
  | defineLabel _ | declareLocal _ => cases other
  | markLabel label | anchor label =>
    simp only [text, placedLabelText]
    exact ⟨"\n" ++ label.name ++ ":", by simp [← String.toList_inj]⟩

/-- The text of a step ends its line, unless there is none or the next instruction goes on it. -/
theorem text_ends_iff :
    (∃ line, step.text current = line ++ "\n") ↔
      step.isDefinition = false ∧ step.isGlued = false := by
  constructor
  · intro h
    obtain ⟨line, ends⟩ := h
    constructor
    · by_contra definition
      have empty : step.text current = "" := by
        simpa [text_eq_empty_iff_isDefinition] using definition
      exact line_ne_empty line (ends ▸ empty)
    · by_contra glued
      have inside : '\n' ∈ (step.text current).toList := by simp [ends]
      exact newline_notMem_of_isGlued (by simpa using glued) inside
  · intro h
    exact text_ends h.1 h.2

end Step

/-- The text that each step adds to a trace. -/
def Buffer.pieces (b : Buffer) (current : Opcodes) : List String := b.steps.map (·.text current)

/-- Each line of a description without annotations is a piece without the white space at its end. -/
theorem Buffer.trimmed_lines (b : Buffer) (current : Opcodes) :
    List.Forall₂ (fun piece line => Text.Trimmed piece.toList line.toList) (b.pieces current)
      (b.lines current) := by
  rw [pieces, lines, List.forall₂_map_left_iff, List.forall₂_map_right_iff, List.forall₂_same]
  intro step _
  rw [Step.line, String.toList_ofList]
  exact Text.trimmed_trimEnd _

namespace Session

/-- The steps replayed in order. -/
def replayAll (s : Session) (target : Option Nat) (steps : List Step) : Session :=
  steps.foldl (fun s step => s.replay step target) s

theorem trace_replay (s : Session) (step : Step) (target : Option Nat) :
    (s.replay step target).trace = s.trace ++ step.text s.opcodes := by
  cases target <;> rfl

/-- To replay a step on no target adds to the trace, and does nothing else. -/
theorem replay_none (s : Session) (step : Step) :
    s.replay step none = { s with trace := s.trace ++ step.text s.opcodes } :=
  rfl

theorem replayAll_cons (s : Session) (target : Option Nat) (step : Step) (steps : List Step) :
    s.replayAll target (step :: steps) = (s.replay step target).replayAll target steps :=
  rfl

theorem setLinker_linker (s : Session) (target : Nat) : s.setLinker (s.linker target) = s := by
  simp only [setLinker, linker, assign_self]

theorem setLinker_setLinker (s : Session) {k k' : Linker} (h : k'.target = k.target) :
    (s.setLinker k).setLinker k' = s.setLinker k' := by
  simp only [setLinker, h, assign_assign]

/-- What the steps have sent to the target, and their pieces added to the trace. -/
def sent (s : Session) (target : Nat) (steps : List Step) : Session :=
  { s.setLinker ((s.linker target).linkAll s.opcodes steps) with
    trace := s.trace ++ String.join (steps.map (·.text s.opcodes)) }

theorem sent_nil (s : Session) (target : Nat) : s.sent target [] = s := by
  simp [sent, Linker.linkAll_nil, setLinker_linker]

theorem sent_cons (s : Session) (target : Nat) (step : Step) (steps : List Step) :
    s.sent target (step :: steps) = (s.replay step (some target)).sent target steps := by
  let k := (s.linker target).link s.opcodes step
  have home : k.target = target := (Linker.staysOn_link s.opcodes (s.linker target) step).target
  have first : (s.replay step (some target)).linker target = k :=
    linker_setLinker_of_target _ home
  have rest : (s.replay step (some target)).sent target steps
      = { (s.setLinker k).setLinker (k.linkAll s.opcodes steps) with
          trace := s.trace ++ step.text s.opcodes
            ++ String.join (steps.map (·.text s.opcodes)) } := by
    rw [sent, first]
    rfl
  have taken := s.setLinker_setLinker (k.target_linkAll s.opcodes steps)
  rw [rest, taken, sent, Linker.linkAll_cons, List.map_cons, String.join_cons,
    String.append_assoc]

/-- To replay steps one by one is to send them all. -/
theorem replayAll_some (s : Session) (target : Nat) (steps : List Step) :
    s.replayAll (some target) steps = s.sent target steps := by
  induction steps generalizing s with
  | nil => rw [sent_nil, replayAll, List.foldl_nil]
  | cons step steps ih => rw [replayAll_cons, ih, sent_cons]

/-- A flush is the replay of the steps of the buffer into an empty trace. -/
theorem flush_eq_replayAll (s : Session) (id target : Nat) :
    s.flush id target =
      let replayed := { s with trace := "" }.replayAll (some target) (s.buffers id).steps
      (replayed.trace, { replayed with trace := s.trace }) := by
  simp only [replayAll_some, sent, String.empty_append]
  rfl

end Session

/-- A description that is asked for in the midst of a run. -/
structure Inspection where
  buffer : Nat
  scopes : List LocalScope
  annotated : Bool

def Inspection.operation (i : Inspection) : Operation := .describe i.buffer i.scopes i.annotated

namespace Session

/-- The run with its inspections. -/
def inspected (plan : List (Operation ⊕ Inspection)) : List Operation :=
  plan.map (Sum.elim id Inspection.operation)

/-- The run without its inspections. -/
def uninspected (plan : List (Operation ⊕ Inspection)) : List Operation :=
  plan.filterMap Sum.getLeft?

/-- Of the replies to the run with its inspections, those that are not to an inspection. -/
def ownReplies (plan : List (Operation ⊕ Inspection)) (replies : List Reply) : List Reply :=
  ((plan.zip replies).filter (·.1.isLeft)).map (·.2)

/-- Inspections change no other reply of a run, and not the session at its end. -/
theorem run_inspected (s : Session) (plan : List (Operation ⊕ Inspection)) :
    ownReplies plan (s.run (inspected plan)).1 = (s.run (uninspected plan)).1 ∧
      (s.run (inspected plan)).2 = (s.run (uninspected plan)).2 := by
  induction plan generalizing s with
  | nil => exact ⟨rfl, rfl⟩
  | cons entry plan ih =>
    cases entry with
    | inl operation =>
      obtain ⟨replies, last⟩ := ih (s.perform operation).2
      exact ⟨congrArg ((s.perform operation).1 :: ·) replies, last⟩
    | inr inspection =>
      have quiet : (s.perform inspection.operation).2 = s := perform_describe ..
      have own : s.run (inspected (.inr inspection :: plan))
          = ((s.perform inspection.operation).1 :: (s.run (inspected plan)).1,
            (s.run (inspected plan)).2) := by
        rw [inspected, List.map_cons, Sum.elim_inr, run_cons, quiet]
        rfl
      rw [own]
      exact ih s

/-- To replay a step adds the same text to the trace on every target and on none, and on none it
does nothing else. A flush gives the pieces of the steps in order, as the replay of the steps into an
empty trace does; a description without annotations gives each piece without the white space at its
end. A piece is empty exactly for a definition; it ends with a newline except for a definition and
for a prefix that the next instruction is glued to, which has no newline at all. And descriptions of
either kind, wherever they are inserted in a run, change no other reply. -/
theorem replay_flush_describe (s : Session) :
    (∀ step target,
      (s.replay step (some target)).trace = s.trace ++ step.text s.opcodes ∧
        s.replay step none = { s with trace := s.trace ++ step.text s.opcodes }) ∧
      (∀ id target, (s.flush id target).1 = String.join ((s.buffers id).pieces s.opcodes) ∧
        s.flush id target =
          let replayed := { s with trace := "" }.replayAll (some target) (s.buffers id).steps
          (replayed.trace, { replayed with trace := s.trace })) ∧
      (∀ id scopes, ∃ lines, s.perform (.describe id scopes false) = (.lines lines, s) ∧
        List.Forall₂ (fun piece line => Text.Trimmed piece.toList line.toList)
          ((s.buffers id).pieces s.opcodes) lines) ∧
      (∀ step : Step, (step.text s.opcodes = "" ↔ step.isDefinition = true) ∧
        ((∃ line, step.text s.opcodes = line ++ "\n")
          ↔ step.isDefinition = false ∧ step.isGlued = false) ∧
        (step.isGlued = true → '\n' ∉ (step.text s.opcodes).toList)) ∧
      ∀ plan, ownReplies plan (s.run (inspected plan)).1 = (s.run (uninspected plan)).1 ∧
        (s.run (inspected plan)).2 = (s.run (uninspected plan)).2 := by
  refine ⟨?_, ?_, ?_, ?_, s.run_inspected⟩
  · intro step target
    exact ⟨s.trace_replay step (some target), s.replay_none step⟩
  · intro id target
    exact ⟨rfl, s.flush_eq_replayAll id target⟩
  · intro id scopes
    exact ⟨_, rfl, (s.buffers id).trimmed_lines s.opcodes⟩
  · intro step
    exact ⟨Step.text_eq_empty_iff_isDefinition, Step.text_ends_iff,
      Step.newline_notMem_of_isGlued⟩

end Session

end CilBuffer
