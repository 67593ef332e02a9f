import CilBuffer.Proofs.RegionMatching

/-!
# Where a flush and its steps count apart

The steps of a flush need not be well formed, and what is bound to the target and open on it can be
anything. The steps count an `endfinally` where a finally handler ends, and the target counts one
where it ends a region whose latest handler is a finally. Apart from that the two agree step by
step, whatever the references open and whatever the ends and handlers belong to.
-/

namespace CilBuffer

namespace Call

/-- After the calls, the latest handler of the innermost open region is a finally. -/
def InFinally (calls : List Call) : Prop :=
  ∃ Matched i, IsMatching calls Matched ∧ Innermost calls Matched calls.length i ∧
    LatestIsFinally calls Matched calls.length i

theorem inFinally_iff {calls : List Call} :
    InFinally calls ↔ (tallyAll (0, []) calls).2.head? = some true := by
  rw [head?_openRegions_tallyAll]
  constructor
  · rintro ⟨Matched, i, matching, innermost, latest⟩
    obtain rfl := matching.unique (isMatching_partner calls)
    exact ⟨i, innermost, latest⟩
  · rintro ⟨i, innermost, latest⟩
    exact ⟨Partner calls, i, isMatching_partner calls, innermost, latest⟩

end Call

namespace Recorder

/-- The latest handler of the innermost open region is a finally. -/
def inFinally (r : Recorder) : Bool := r.openRegions.head? = some true

theorem endSize_eq (r : Recorder) :
    endSize r.openRegions = Marker.endException.size + if r.inFinally = true then 1 else 0 := by
  unfold inFinally
  match r.openRegions with
  | [] | true :: _ | false :: _ => rfl

/-- A target that has counted what its calls add up to knows whether it is in a finally handler. -/
theorem Tallied.inFinally_iff {r : Recorder} (h : r.Tallied) :
    r.inFinally = true ↔ Call.InFinally r.calls := by
  rw [Call.inFinally_iff, ← h, inFinally, decide_eq_true_iff]
  rfl

end Recorder

namespace Linker

/-- How many ends of regions are sent while the latest handler of the innermost open region is a
finally. -/
def finallyEnds (current : Opcodes) (k : Linker) : List Step → Nat
  | [] => 0
  | step :: steps =>
    (if step = .endException ∧ k.recorder.inFinally = true then 1 else 0)
      + (k.link current step).finallyEnds current steps

theorem codeSize_resolveAll (k : Linker) (references : List Reference) :
    (k.resolveAll references).recorder.codeSize = k.recorder.codeSize := by
  apply resolveAll_preserves (P := fun k' => k'.recorder.codeSize = k.recorder.codeSize)
  · intro k' r same
    cases known : k'.bound? r with
    | some handle =>
      rw [resolve_of_bound known]
      exact same
    | none => rw [(resolve_of_not_bound known).2.codeSize, same]
  · rfl

/-- One step is counted by its size, except for the ends of finally handlers and of regions. -/
theorem codeSize_link (current : Opcodes) (k : Linker) (step : Step) :
    (k.link current step).recorder.codeSize + (if step = .endFinally then 1 else 0)
      = k.recorder.codeSize + step.size current
        + if step = .endException ∧ k.recorder.inFinally = true then 1 else 0 := by
  rw [(link_sends current k step).codeSize, codeSize_resolveAll]
  cases step with
  | endException =>
    have own := k.recorder.endSize_eq
    simp [Step.references, resolveAll_nil, Step.ownSize, Step.size, own, Nat.add_assoc]
  | endFinally => rfl
  | _ => simp [Step.ownSize]

/-- By induction on the steps: the differences add up, and nothing else does. -/
theorem codeSize_linkAll (current : Opcodes) (k : Linker) (steps : List Step) :
    (k.linkAll current steps).recorder.codeSize + steps.count .endFinally
      = k.recorder.codeSize + Step.totalSize current steps + k.finallyEnds current steps := by
  induction steps generalizing k with
  | nil => rfl
  | cons step steps ih =>
    have first := codeSize_link current k step
    have rest := ih (k.link current step)
    rw [linkAll_cons, List.count_cons, Step.totalSize_cons, finallyEnds]
    simp only [beq_iff_eq]
    omega

theorem tallied_act {k : Linker} (h : k.recorder.Tallied) (a : Activity) :
    (k.act a).recorder.Tallied := by
  cases a with
  | resolve r => exact tallied_resolve h r
  | send current steps => exact tallied_linkAll current h steps
  | receive request => exact h.perform request

end Linker

namespace Session

theorem tallied_run (operations : List Operation) (target : Nat) :
    ((new.run operations).2.recorders target).Tallied := by
  revert target
  apply run_preserves_of_forall (C := fun _ => True)
    (P := fun s => ∀ target, (s.linker target).recorder.Tallied)
  · intro o s _ h
    apply linkers_perform (P := fun k => k.recorder.Tallied) (Q := fun _ => True)
    · intro k a _ tallied
      exact Linker.tallied_act tallied a
    · intro k b _ tallied
      exact tallied
    · intro _ _ _
      trivial
    · exact h
  · intro _ _
    trivial
  · intro _
    exact Recorder.tallied_new

/-- What a flush writes, and the ends of finally handlers among the steps, are together the sizes of
the steps and the ends of regions that are sent while the latest handler of the innermost open
region is a finally. So the target and the steps count apart by the difference of these two numbers.
In a session that a run has reached, the calls of the target tell at each step whether that is so. -/
theorem flush_drift (s : Session) (id target : Nat) :
    let steps := (s.buffers id).steps
    let k := s.linker target
    let before := (s.recorders target).codeSize
    let after := ((s.flush id target).2.recorders target).codeSize
    let total := Step.totalSize s.opcodes steps
    after + steps.count .endFinally = before + total + k.finallyEnds s.opcodes steps ∧
      ((after : Int) - before) - total
        = (k.finallyEnds s.opcodes steps : Int) - steps.count .endFinally ∧
      ∀ operations, s = (new.run operations).2 → ∀ front rest, steps = front ++ rest →
        let r := (k.linkAll s.opcodes front).recorder
        (r.inFinally = true ↔ Call.InFinally r.calls) := by
  intro steps k before after total
  have written : after = (k.linkAll s.opcodes steps).recorder.codeSize :=
    congrArg (fun k => k.recorder.codeSize) (s.linker_flush id target)
  have counted := Linker.codeSize_linkAll s.opcodes k steps
  have sum : after + steps.count .endFinally
      = before + total + k.finallyEnds s.opcodes steps := by
    rw [written]
    exact counted
  refine ⟨sum, by omega, ?_⟩
  rintro operations reached front rest -
  have start : k.recorder.Tallied := by
    show (s.recorders target).Tallied
    rw [reached]
    exact tallied_run operations target
  exact (Linker.tallied_linkAll s.opcodes start front).inFinally_iff

/-- A leave opens a region early. The handlers are out of order, one end too many is sent, and an
`endfinally` stands where no handler is open. -/
def strayHandlers : List Operation :=
  [.newBuffer none, .newRecorder, .newBlock "end", .emit 0 (.branch .leaveS ⟨2, "end", .blockEnd⟩),
    .append 0 .beginFinally, .append 0 (.beginCatch (.value "System.Exception")),
    .append 0 .endFinally, .append 0 .beginFinally, .append 0 .endException,
    .append 0 .endException, .append 0 .endFinally]

theorem strayHandlers_drift :
    let s := (new.run strayHandlers).2
    let steps := (s.buffers 0).steps
    let after := ((s.flush 0 1).2.recorders 1).codeSize
    let calls := ((s.linker 1).linkAll s.opcodes (steps.take 5)).recorder.calls
    Step.totalSize s.opcodes steps = 29 ∧ steps.count .endFinally = 2 ∧
      (s.linker 1).finallyEnds s.opcodes steps = 1 ∧ after = 28 ∧
      calls = [.beginException 0, .instruction .leaveS (.label 0), .beginFinally,
        .beginCatch (.value "System.Exception"), .beginFinally] ∧
      Call.InFinally calls := by
  intro s steps after calls
  obtain ⟨-, difference, told⟩ := flush_drift s 0 1
  have total : Step.totalSize s.opcodes steps = 29 := by decide
  have ends : steps.count .endFinally = 2 := by decide
  have closed : (s.linker 1).finallyEnds s.opcodes steps = 1 := by decide
  have before : (s.recorders 1).codeSize = 0 := by decide
  have inside := told strayHandlers rfl (steps.take 5) (steps.drop 5)
    (List.take_append_drop 5 steps).symm
  refine ⟨total, ends, closed, ?_, by decide, inside.mp (by decide)⟩
  change (after : Int) - (s.recorders 1).codeSize - Step.totalSize s.opcodes steps
    = (s.linker 1).finallyEnds s.opcodes steps - steps.count .endFinally at difference
  rw [total, ends, closed, before] at difference
  omega

end Session

end CilBuffer
