import CilBuffer.Proofs.References

/-!
# A step resolves and then calls

To send a step is to resolve its references and then to make one call, or none. The call is given
by the kind of the step, the opcode in effect, the operand and the numbers that the references are
bound to by then. It changes neither bindings nor counters.
-/

namespace CilBuffer

/-- The operand in the width that a target takes. Of the signed numbers of a width, an unsigned one
is congruent to exactly one. -/
def Immediate.sent : Immediate → Operand
  | .none => .none
  | .byte v => .byte v
  | .int16 v => .int16 v
  | .int32 v => .int32 v
  | .uint32 v => .int32 (.ofInt ((v.toNat : Int).bmod (2 ^ 32)))
  | .int64 v => .int64 v
  | .uint64 v => .int64 (.ofInt ((v.toNat : Int).bmod (2 ^ 64)))
  | .single v => .single v
  | .double v => .double v
  | .method m => .method m
  | .constructor c => .constructor c
  | .type t => .type t
  | .field f => .field f
  | .string s => .string s
  | .signature s => .signature s

theorem Immediate.operand_eq_sent (operand : Immediate) : operand.operand = operand.sent := by
  cases operand with
  | uint32 v =>
    have wrap : (Int32.ofInt ((v.toNat : Int).bmod (2 ^ 32))) = v.toInt32 := by
      rw [Int32.ofInt_eq_iff_bmod_eq_toInt, Int.bmod_bmod]
      exact (BitVec.toInt_eq_toNat_bmod v.toBitVec).symm
    simp only [operand, sent, wrap]
  | uint64 v =>
    have wrap : (Int64.ofInt ((v.toNat : Int).bmod (2 ^ 64))) = v.toInt64 := by
      rw [Int64.ofInt_eq_iff_bmod_eq_toInt, Int.bmod_bmod]
      exact (BitVec.toInt_eq_toNat_bmod v.toBitVec).symm
    simp only [operand, sent, wrap]
  | _ => rfl

namespace Step

/-- The call that the step makes of its own, with the numbers of its references. A definition and
the beginning of a region are made by the resolution, and the end of a handler makes no call. -/
def ownCall? (current : Opcodes) (number : Numbering) : Step → Option Call
  | .instruction op operand => some (.instruction op operand.sent)
  | .access op localVar => some (.instruction op (.localVar (number (.localVar localVar))))
  | .branch slot target => some (.instruction (current slot) (.label (number (.label target))))
  | .switch slot targets =>
    some (.instruction (current slot) (.labels (targets.map fun label => number (.label label))))
  | .beginCatch exception => some (.beginCatch exception)
  | .endException => some .endException
  | .beginFinally => some .beginFinally
  | .markLabel label => some (.markLabel (number (.label label)))
  | _ => none

/-- The bytes that a target counts for the own call of the step, in its open regions. -/
def ownSize (current : Opcodes) (openRegions : List Bool) : Step → Nat
  | .endException => Recorder.endSize openRegions
  | .endFinally => 0
  | step => step.size current

/-- The open regions after the own call of the step. -/
def ownRegions (openRegions : List Bool) : Step → List Bool
  | .beginCatch _ => Recorder.setHandler false openRegions
  | .beginFinally => Recorder.setHandler true openRegions
  | .endException => openRegions.tail
  | _ => openRegions

theorem ownCall?_congr {current : Opcodes} {f g : Numbering} {step : Step}
    (h : ∀ r ∈ step.references, f r = g r) :
    step.ownCall? current f = step.ownCall? current g := by
  cases step with
  | access op localVar => simp only [ownCall?, h (.localVar localVar) (List.mem_singleton_self _)]
  | branch slot target => simp only [ownCall?, h (.label target) (List.mem_singleton_self _)]
  | switch slot targets =>
    simp only [ownCall?, Option.some.injEq, Call.instruction.injEq, Operand.labels.injEq, true_and]
    apply List.map_congr_left
    intro label hl
    exact h (.label label) (List.mem_map_of_mem hl)
  | markLabel label => simp only [ownCall?, h (.label label) (List.mem_singleton_self _)]
  | _ => rfl

end Step

namespace Linker

/-- The own call of the step has been made, with the numbers that its references are bound to. -/
structure Sends (current : Opcodes) (k : Linker) (step : Step) (k' : Linker) : Prop where
  target : k'.target = k.target
  bound : ∀ r, k'.bound? r = k.bound? r
  next : ∀ kind, k'.recorder.next kind = k.recorder.next kind
  calls : k'.recorder.calls
    = k.recorder.calls ++ (step.ownCall? current fun r => (k.bound? r).getD 0).toList
  codeSize : k'.recorder.codeSize
    = k.recorder.codeSize + step.ownSize current k.recorder.openRegions
  openRegions : k'.recorder.openRegions = step.ownRegions k.recorder.openRegions

/-- To send a step is to resolve its references and to make its own call. -/
theorem link_sends (current : Opcodes) (k : Linker) (step : Step) :
    Sends current (k.resolveAll step.references) step (k.link current step) := by
  cases step with
  | instruction op operand =>
    refine ⟨rfl, fun _ => rfl, by rintro (_ | _) <;> rfl, ?_, ?_, rfl⟩
    · rw [Step.ownCall?, ← Immediate.operand_eq_sent]
      rfl
    · cases operand <;> rfl
  | access op localVar =>
    have number := bound?_resolve k (.localVar localVar)
    refine ⟨rfl, fun _ => rfl, by rintro (_ | _) <;> rfl, ?_, rfl, rfl⟩
    simp only [Step.ownCall?, Step.references, resolveAll_cons, resolveAll_nil, number]
    rfl
  | branch slot target =>
    have number := bound?_resolve k (.label target)
    refine ⟨rfl, fun _ => rfl, by rintro (_ | _) <;> rfl, ?_, rfl, rfl⟩
    simp only [Step.ownCall?, Step.references, resolveAll_cons, resolveAll_nil, number]
    rfl
  | switch slot targets =>
    simp only [link, resolveLabels_eq]
    refine ⟨rfl, fun _ => rfl, by rintro (_ | _) <;> rfl, rfl, ?_, rfl⟩
    simp only [call, Recorder.instruction, Recorder.codeSize_record, instructionSize,
      List.length_map]
    rfl
  | markLabel label =>
    have number := bound?_resolve k (.label label)
    refine ⟨rfl, fun _ => rfl, by rintro (_ | _) <;> rfl, ?_, rfl, rfl⟩
    simp only [Step.ownCall?, Step.references, resolveAll_cons, resolveAll_nil, number]
    rfl
  | _ =>
    refine ⟨rfl, fun _ => rfl, by rintro (_ | _) <;> rfl, ?_, rfl, rfl⟩
    first
      | rfl
      | exact (List.append_nil _).symm

end Linker

end CilBuffer
