import CilBuffer.Proofs.Handles
import CilBuffer.Proofs.Pieces

/-!
# Calls are only added

Whatever a target does, the calls that it has received by then stay the first of its calls, in their
order. So what a target is called in the midst of a run can be found among its calls at the end. This
says nothing of its open regions and its numbers, which follow from the calls.
-/

namespace CilBuffer

namespace Linker

theorem calls_resolve (k : Linker) (r : Reference) :
    k.recorder.calls <+: (k.resolve r).2.recorder.calls := by
  cases known : k.bound? r with
  | some handle => exact ⟨[], by rw [resolve_of_bound known, List.append_nil]⟩
  | none =>
    rw [(resolve_of_not_bound known).2.calls]
    exact List.prefix_append _ _

theorem calls_resolveAll (k : Linker) (references : List Reference) :
    k.recorder.calls <+: (k.resolveAll references).recorder.calls :=
  resolveAll_preserves (P := fun k' => k.recorder.calls <+: k'.recorder.calls)
    (fun k' r so_far => so_far.trans (k'.calls_resolve r)) (List.prefix_refl _) references

theorem calls_link (current : Opcodes) (k : Linker) (step : Step) :
    k.recorder.calls <+: (k.link current step).recorder.calls := by
  rw [(link_sends current k step).calls]
  exact (k.calls_resolveAll step.references).trans (List.prefix_append _ _)

theorem calls_linkAll (current : Opcodes) (k : Linker) (steps : List Step) :
    k.recorder.calls <+: (k.linkAll current steps).recorder.calls :=
  linkAll_preserves (P := fun k' => k.recorder.calls <+: k'.recorder.calls)
    (fun k' step so_far => so_far.trans (calls_link current k' step)) (List.prefix_refl _) steps

/-- A target loses no call in its activities. -/
theorem calls_act (k : Linker) (a : Activity) :
    k.recorder.calls <+: (k.act a).recorder.calls := by
  cases a with
  | resolve r => exact k.calls_resolve r
  | send current steps => exact calls_linkAll current k steps
  | receive request =>
    show k.recorder.calls <+: (k.recorder.perform request).2.calls
    rw [(k.recorder.records_perform request).calls]
    exact List.prefix_append _ _

end Linker

namespace Session

variable {s : Session}

/-- No target has lost a call, and what it has been called since comes after. -/
def CallsGrow (s s' : Session) : Prop :=
  ∀ target, (s.recorders target).calls <+: (s'.recorders target).calls

theorem CallsGrow.refl (s : Session) : s.CallsGrow s := fun _ => List.prefix_refl _

theorem CallsGrow.trans {s₁ s₂ s₃ : Session} (h : s₁.CallsGrow s₂) (h' : s₂.CallsGrow s₃) :
    s₁.CallsGrow s₃ :=
  fun target => (h target).trans (h' target)

theorem callsGrow_setLinker (s : Session) {k k' : Linker} (same : k'.target = k.target)
    (h : k.recorder.calls <+: k'.recorder.calls) : (s.setLinker k).CallsGrow (s.setLinker k') := by
  intro target
  by_cases own : target = k.target
  · subst own
    have first : (s.setLinker k).recorders k.target = k.recorder := assign_same ..
    have second : (s.setLinker k').recorders k.target = k'.recorder := by
      rw [← same]
      exact assign_same ..
    rw [first, second]
    exact h
  · have first : (s.setLinker k).recorders target = s.recorders target := assign_of_ne _ _ own
    have second : (s.setLinker k').recorders target = s.recorders target := by
      rw [← same] at own
      exact assign_of_ne _ _ own
    exact ⟨[], by rw [first, second, List.append_nil]⟩

theorem recorders_perform_of_none {o : Operation} (h : s.activity? o = none) :
    (s.perform o).2.recorders = s.recorders :=
  funext fun other => congrArg Linker.recorder (linker_perform_of_none h other)

theorem recorders_perform_of_some {o : Operation} {target : Nat} {a : Activity}
    (h : s.activity? o = some (target, a)) :
    (s.perform o).2.recorders = (s.setLinker ((s.linker target).act a)).recorders :=
  funext fun other => congrArg Linker.recorder (linker_perform_of_some h other)

theorem callsGrow_perform (s : Session) (o : Operation) : s.CallsGrow (s.perform o).2 := by
  cases concerned : s.activity? o with
  | none =>
    intro other
    exact ⟨[], by rw [recorders_perform_of_none concerned, List.append_nil]⟩
  | some activity =>
    obtain ⟨target, a⟩ := activity
    have stays := Linker.staysOn_act (s.linker target) a
    have grow := s.callsGrow_setLinker stays.target ((s.linker target).calls_act a)
    rw [setLinker_linker] at grow
    unfold CallsGrow
    rw [recorders_perform_of_some concerned]
    exact grow

/-- What a target has been called at any time of a run stays the beginning of its calls. -/
theorem callsGrow_run (s : Session) (operations : List Operation) :
    s.CallsGrow (s.run operations).2 := by
  induction operations generalizing s with
  | nil => exact .refl s
  | cons o operations ih => exact (callsGrow_perform s o).trans (ih _)

end Session

end CilBuffer
