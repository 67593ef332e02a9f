import CilBuffer.Proofs.FirstUse
import CilBuffer.Session.Basic

/-!
# The calls of a flush

A flush makes the calls that direct emission would have made: each step its own, after the creation
of what it is the first to mention. Bindings from earlier flushes can be of any kind, and what is
bound to the target by then is not created again.
-/

namespace CilBuffer

/-- What the steps mention, in order. -/
def Step.allReferences (steps : List Step) : List Reference := steps.flatMap (·.references)

theorem Step.allReferences_cons (step : Step) (steps : List Step) :
    allReferences (step :: steps) = step.references ++ allReferences steps :=
  List.flatMap_cons

namespace Linker

variable {k₀ k : Linker} {done all : List Reference}

/-- The calls of the steps one by one: first the creation of each reference that is neither bound
at the beginning nor mentioned before, then the own call. -/
def directCalls (k₀ : Linker) (current : Opcodes) (number : Numbering)
    (before : List Reference) : List Step → List Call
  | [] => []
  | step :: steps =>
    (k₀.firstUses before step.references).map (fun r => r.creation (number r))
      ++ (step.ownCall? current number).toList
      ++ k₀.directCalls current number (before ++ step.references) steps

/-- One more step is sent. -/
theorem After.link {step : Step} (h : k₀.After done k) (current : Opcodes)
    (sub : done ++ step.references <+: all) :
    k₀.After (done ++ step.references) (k.link current step) ∧
      (k.link current step).recorder.calls = k.recorder.calls
        ++ (k₀.firstUses done step.references).map (fun r => r.creation (k₀.number all r))
        ++ (step.ownCall? current (k₀.number all)).toList := by
  obtain ⟨after, calls⟩ := h.resolveAll sub
  have sends := link_sends current k step
  refine ⟨⟨sends.target.trans after.target, fun r => ?_, fun kind => ?_⟩, ?_⟩
  · rw [sends.bound, after.bound]
  · rw [sends.next, after.next]
  · have own : (step.ownCall? current fun r => ((k.resolveAll step.references).bound? r).getD 0)
        = step.ownCall? current (k₀.number all) := by
      apply Step.ownCall?_congr
      intro r hr
      have mentioned : r ∈ done ++ step.references := List.mem_append_right done hr
      rw [after.bound, if_pos mentioned, number_of_prefix sub mentioned]
      rfl
    rw [sends.calls, calls, own]

theorem linkAll_nil (current : Opcodes) (k : Linker) : k.linkAll current [] = k := rfl

theorem linkAll_cons (current : Opcodes) (k : Linker) (step : Step) (steps : List Step) :
    k.linkAll current (step :: steps) = (k.link current step).linkAll current steps :=
  rfl

theorem After.linkAll {steps : List Step} (h : k₀.After done k) (current : Opcodes)
    (sub : done ++ Step.allReferences steps <+: all) :
    k₀.After (done ++ Step.allReferences steps) (k.linkAll current steps) ∧
      (k.linkAll current steps).recorder.calls =
        k.recorder.calls ++ k₀.directCalls current (k₀.number all) done steps := by
  induction steps generalizing done k with
  | nil =>
    exact ⟨by simpa [Step.allReferences, linkAll_nil] using h, by simp [directCalls, linkAll_nil]⟩
  | cons step steps ih =>
    have same : done ++ Step.allReferences (step :: steps)
        = done ++ step.references ++ Step.allReferences steps := by
      simp [Step.allReferences]
    rw [same] at sub
    obtain ⟨after, calls⟩ := h.link current ((List.prefix_append _ _).trans sub)
    obtain ⟨after', calls'⟩ := ih after sub
    rw [same, linkAll_cons, calls', calls]
    exact ⟨after', by simp [directCalls]⟩

end Linker

namespace Session

theorem linker_setLinker (s : Session) (k : Linker) : (s.setLinker k).linker k.target = k := by
  simp only [linker, setLinker, assign_same]

theorem linker_setLinker_of_target (s : Session) {k : Linker} {target : Nat}
    (h : k.target = target) : (s.setLinker k).linker target = k := by
  rw [← h]
  exact s.linker_setLinker k

/-- To flush a buffer is to send its steps to the target. -/
theorem linker_flush (s : Session) (id target : Nat) :
    (s.flush id target).2.linker target
      = (s.linker target).linkAll s.opcodes (s.buffers id).steps := by
  obtain ⟨after, -⟩ := (Linker.after_nil (s.linker target)).linkAll s.opcodes
    (List.prefix_refl ([] ++ Step.allReferences (s.buffers id).steps))
  exact s.linker_setLinker_of_target after.target

/-- A flush resolves what the steps of the buffer mention, and makes their calls. -/
theorem after_flush (s : Session) (id target : Nat) :
    let steps := (s.buffers id).steps
    let number := (s.linker target).number (Step.allReferences steps)
    (s.linker target).After (Step.allReferences steps) ((s.flush id target).2.linker target) ∧
      ((s.flush id target).2.recorders target).calls
        = (s.recorders target).calls
          ++ (s.linker target).directCalls s.opcodes number [] steps := by
  have sent := (Linker.after_nil (s.linker target)).linkAll s.opcodes
    (List.prefix_refl ([] ++ Step.allReferences (s.buffers id).steps))
  rw [← linker_flush] at sent
  exact sent

/-- What a flush into a target appends to its calls, and what is bound to the target afterwards. The
numbers are those that the references are bound to at the beginning, and for the others the next
ones of the target in the order of first use. -/
theorem flush_calls (s : Session) (id target : Nat) :
    let steps := (s.buffers id).steps
    let number := (s.linker target).number (Step.allReferences steps)
    ((s.flush id target).2.recorders target).calls
        = (s.recorders target).calls
          ++ (s.linker target).directCalls s.opcodes number [] steps ∧
      ∀ r, ((s.flush id target).2.linker target).bound? r
        = if r ∈ Step.allReferences steps then some (number r) else (s.linker target).bound? r := by
  obtain ⟨after, calls⟩ := (Linker.after_nil (s.linker target)).linkAll s.opcodes
    (List.prefix_refl ([] ++ Step.allReferences (s.buffers id).steps))
  rw [← linker_flush] at after calls
  exact ⟨calls, after.bound⟩

end Session

end CilBuffer
