import CilBuffer.Proofs.FlushedBytes
import CilBuffer.Proofs.Renumbering

/-!
# What calls add up to

The bytes that a target has counted and the regions that it has open follow from its calls, in
whatever way they came about. The numbers in the calls make no difference, and neither do calls that
define a label or declare a local. That the calls of one target are those of a sensible program is
not asked.
-/

namespace CilBuffer

namespace Call

/-- What a target has counted after one more call, and its open regions. -/
def tally (counted : Nat × List Bool) : Call → Nat × List Bool
  | .instruction op operand => (counted.1 + instructionSize op operand, counted.2)
  | .beginException _ => (counted.1 + Marker.beginException.size, false :: counted.2)
  | .beginCatch _ =>
    (counted.1 + Marker.beginCatch.size, Recorder.setHandler false counted.2)
  | .beginFinally =>
    (counted.1 + Marker.beginFinally.size, Recorder.setHandler true counted.2)
  | .endException => (counted.1 + Recorder.endSize counted.2, counted.2.tail)
  | .defineLabel _ => (counted.1 + Marker.defineLabel.size, counted.2)
  | .markLabel _ => (counted.1 + Marker.markLabel.size, counted.2)
  | .declareLocal _ _ => (counted.1 + Marker.declareLocal.size, counted.2)

/-- What a target has counted after the calls in order, and its open regions. -/
def tallyAll (counted : Nat × List Bool) (calls : List Call) : Nat × List Bool :=
  calls.foldl tally counted

theorem tallyAll_append (counted : Nat × List Bool) (xs ys : List Call) :
    tallyAll counted (xs ++ ys) = tallyAll (tallyAll counted xs) ys :=
  List.foldl_append

end Call

theorem Reference.tally_creation (r : Reference) (number : Handle r.isLabel)
    (counted : Nat × List Bool) :
    Call.tally counted (r.creation number) = (counted.1, r.regions ++ counted.2) := by
  obtain ⟨serial, name, origin⟩ | localVar := r
  · cases origin <;> rfl
  · rfl

/-- The own call of a step adds what the step has of its own. -/
theorem Step.tally_ownCall? (current : Opcodes) (number : Numbering) (step : Step)
    (counted : Nat × List Bool) :
    Call.tallyAll counted (step.ownCall? current number).toList
      = (counted.1 + step.ownSize current counted.2, step.ownRegions counted.2) := by
  cases step with
  | instruction op operand => cases operand <;> rfl
  | switch slot targets =>
    have size : instructionSize (current slot)
        (.labels (targets.map fun label => number (.label label)))
          = (Step.switch slot targets).size current := by
      simp only [instructionSize, List.length_map, Step.size]
    simp only [ownCall?, Option.toList_some, Call.tallyAll, List.foldl_cons, List.foldl_nil,
      Call.tally, size, ownSize, ownRegions]
  | _ => rfl

namespace Recorder

variable {r r' : Recorder}

/-- The recorder has counted what its calls add up to. -/
def Tallied (r : Recorder) : Prop := r.counted = Call.tallyAll (0, []) r.calls

theorem tallied_new : new.Tallied := rfl

theorem Tallied.extend (h : r.Tallied) {more : List Call} (calls : r'.calls = r.calls ++ more)
    (counted : r'.counted = Call.tallyAll r.counted more) : r'.Tallied := by
  rw [Tallied, calls, Call.tallyAll_append, ← h, counted]

end Recorder

namespace Linker

variable {k : Linker}

theorem tallied_resolve (h : k.recorder.Tallied) (r : Reference) :
    (k.resolve r).2.recorder.Tallied := by
  cases known : k.bound? r with
  | some handle =>
    rw [resolve_of_bound known]
    exact h
  | none =>
    obtain ⟨-, creates⟩ := resolve_of_not_bound known
    apply h.extend creates.calls
    rw [Recorder.counted, creates.codeSize, creates.openRegions]
    exact (r.tally_creation _ k.recorder.counted).symm

theorem tallied_link (current : Opcodes) (h : k.recorder.Tallied) (step : Step) :
    (k.link current step).recorder.Tallied := by
  have resolved : (k.resolveAll step.references).recorder.Tallied :=
    resolveAll_preserves (P := fun k => k.recorder.Tallied)
      (fun _ r tallied => tallied_resolve tallied r) h step.references
  have sends := link_sends current k step
  apply resolved.extend sends.calls
  rw [Recorder.counted, sends.codeSize, sends.openRegions]
  exact (step.tally_ownCall? current _ (k.resolveAll step.references).recorder.counted).symm

theorem tallied_linkAll (current : Opcodes) (h : k.recorder.Tallied) (steps : List Step) :
    (k.linkAll current steps).recorder.Tallied :=
  linkAll_preserves (P := fun k => k.recorder.Tallied)
    (fun _ step tallied => tallied_link current tallied step) h steps

end Linker

end CilBuffer
