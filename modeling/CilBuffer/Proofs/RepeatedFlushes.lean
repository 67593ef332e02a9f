import Mathlib.Data.List.Basic
import CilBuffer.Proofs.BufferAgreement
import CilBuffer.Proofs.CommutingFlushes

/-!
# Flushing again into the same target

After a flush all that the buffer mentions is bound to the target. As long as it is resolved on no
other one, it stays bound with the same numbers, and a further flush creates nothing: the steps make
their own calls alone. So no region is opened again, although its end is sent each time. What the
target does otherwise in the meantime makes no difference.
-/

namespace CilBuffer

namespace Call

/-- The call creates a label, a local, or a region with the label at its end. -/
def creates : Call → Bool
  | .defineLabel _ | .declareLocal _ _ | .beginException _ => true
  | _ => false

/-- The calls that create nothing. -/
def withoutCreations (calls : List Call) : List Call := calls.filter (!·.creates)

end Call

theorem Reference.creates_creation (r : Reference) (number : Handle r.isLabel) :
    (r.creation number).creates = true := by
  obtain ⟨serial, name, origin⟩ | localVar := r
  · cases origin <;> rfl
  · rfl

namespace Step

variable {f g : Opcodes} {number : Numbering} {step : Step} {call : Call}

theorem creates_of_ownCall? (own : step.ownCall? f number = some call) : call.creates = false := by
  cases step <;> cases own <;> rfl

theorem ownCall?_congr_opcodes (h : ∀ slot, step.slot? = some slot → f slot = g slot) :
    step.ownCall? f number = step.ownCall? g number := by
  cases step with
  | branch slot target | switch slot targets => simp only [ownCall?, h slot rfl]
  | _ => rfl

theorem text_congr_opcodes (h : ∀ slot, step.slot? = some slot → f slot = g slot) :
    step.text f = step.text g := by
  cases step with
  | branch slot target | switch slot targets => simp only [text, h slot rfl]
  | _ => rfl

end Step

/-- The references that the activity resolves. -/
def Activity.references : Activity → List Reference
  | .resolve r => [r]
  | .send _ steps => Step.allReferences steps
  | .receive _ => []

/-- The operation resolves none of the references on another target. -/
def Operation.KeepsOn (target : Nat) (references : List Reference) (o : Operation) (s : Session) :
    Prop :=
  ∀ other a, s.activity? o = some (other, a) → other ≠ target →
    ∀ r ∈ references, r ∉ a.references

namespace Linker

variable {k : Linker} {r : Reference} {a : Activity} {handle : Handle r.isLabel}

theorem bound?_act_of_bound (h : k.bound? r = some handle) (a : Activity) :
    (k.act a).bound? r = some handle := by
  cases a with
  | resolve other => exact bound?_resolve_of_bound h other
  | send current steps =>
    refine linkAll_preserves (P := fun k => k.bound? r = some handle) ?_ h steps
    intro k step bound
    rw [(link_sends current k step).bound]
    exact bound?_resolveAll_of_bound bound step.references
  | receive request => exact h

theorem of_act_of_notMem (h : r ∉ a.references) :
    (k.act a).bindings.of r = k.bindings.of r := by
  cases a with
  | resolve other => exact of_resolve_of_ne (by simpa [Activity.references] using h)
  | send current steps => exact of_linkAll_of_notMem current h
  | receive request => rfl

theorem firstUses_of_bound {references : List Reference}
    (h : ∀ r ∈ references, k.bound? r ≠ none) (before : List Reference) :
    k.firstUses before references = [] := by
  apply List.eq_nil_iff_forall_not_mem.mpr
  intro r first
  obtain ⟨mentioned, free, -⟩ := mem_firstUses.mp first
  exact h r mentioned free

/-- What is bound to the target is not created. -/
theorem resolveAll_of_bound {references : List Reference}
    (h : ∀ r ∈ references, k.bound? r ≠ none) : k.resolveAll references = k := by
  induction references with
  | nil => rfl
  | cons r references ih =>
    obtain ⟨first, rest⟩ := List.forall_mem_cons.mp h
    obtain ⟨handle, bound⟩ := Option.ne_none_iff_exists'.mp first
    rw [resolveAll_cons, resolve_of_bound bound]
    exact ih rest

theorem bindings_linkAll_of_bound {steps : List Step} (current : Opcodes)
    (h : ∀ r ∈ Step.allReferences steps, k.bound? r ≠ none) :
    (k.linkAll current steps).bindings = k.bindings := by
  induction steps generalizing k with
  | nil => rfl
  | cons step steps ih =>
    rw [Step.allReferences_cons] at h
    obtain ⟨own, rest⟩ := List.forall_mem_append.mp h
    have same : (k.link current step).bindings = k.bindings := by
      rw [bindings_link, resolveAll_of_bound own]
    have target : (k.link current step).target = k.target := (staysOn_link current k step).target
    have rest' : ∀ r ∈ Step.allReferences steps, (k.link current step).bound? r ≠ none := by
      intro r mentioned
      rw [bound?_eq, same, target, ← bound?_eq]
      exact rest r mentioned
    rw [linkAll_cons, ih rest', same]

/-- With the creations left out, the calls of steps are their own. -/
theorem withoutCreations_directCalls (k : Linker) (current : Opcodes) (number : Numbering)
    (before : List Reference) (steps : List Step) :
    Call.withoutCreations (k.directCalls current number before steps)
      = steps.filterMap (·.ownCall? current number) := by
  induction steps generalizing before with
  | nil => rfl
  | cons step steps ih =>
    have creations : Call.withoutCreations
        ((k.firstUses before step.references).map fun r => r.creation (number r)) = [] := by
      simp [Call.withoutCreations, Reference.creates_creation]
    have own : Call.withoutCreations (step.ownCall? current number).toList
        = (step.ownCall? current number).toList := by
      cases call : step.ownCall? current number with
      | none => rfl
      | some call' => simp [Call.withoutCreations, Step.creates_of_ownCall? call]
    have rest := ih (before ++ step.references)
    unfold Call.withoutCreations at creations own rest ⊢
    rw [directCalls, List.filter_append, List.filter_append, creations, own, rest,
      List.filterMap_cons]
    cases step.ownCall? current number <;> rfl

/-- If all that the steps mention is bound, there is nothing to leave out. -/
theorem directCalls_of_bound {steps : List Step} (current : Opcodes) (number : Numbering)
    (before : List Reference) (h : ∀ r ∈ Step.allReferences steps, k.bound? r ≠ none) :
    k.directCalls current number before steps = steps.filterMap (·.ownCall? current number) := by
  induction steps generalizing before with
  | nil => rfl
  | cons step steps ih =>
    rw [Step.allReferences_cons] at h
    obtain ⟨own, rest⟩ := List.forall_mem_append.mp h
    have settled : k.firstUses before step.references = [] := firstUses_of_bound own before
    rw [directCalls, settled, ih _ rest, List.filterMap_cons]
    cases step.ownCall? current number <;> rfl

end Linker

namespace Session

variable {s t : Session} {o : Operation} {id target : Nat} {references : List Reference}
  {r : Reference} {handle : Handle r.isLabel}

/-- A reference that is resolved on no other target stays bound to its own, with its number. -/
theorem of_perform_of_keepsOn (keeps : o.KeepsOn target references s) (mentioned : r ∈ references)
    (bound : s.bindings.of r = some ⟨target, handle⟩) :
    (s.perform o).2.bindings.of r = some ⟨target, handle⟩ := by
  cases concerned : s.activity? o with
  | none =>
    have same : (s.perform o).2.bindings = s.bindings :=
      congrArg Linker.bindings (linker_perform_of_none concerned 0)
    rw [same]
    exact bound
  | some activity =>
    obtain ⟨other, a⟩ := activity
    have taken : (s.perform o).2.bindings = ((s.linker other).act a).bindings :=
      congrArg Linker.bindings (linker_perform_of_some concerned other)
    rw [taken]
    by_cases same : other = target
    · subst same
      have before : (s.linker other).bound? r = some handle :=
        Linker.bound?_eq_some_iff.mpr bound
      have after := Linker.bound?_act_of_bound before a
      rw [Linker.bound?_eq_some_iff, (Linker.staysOn_act (s.linker other) a).target] at after
      exact after
    · have untouched := keeps other a concerned same r mentioned
      rw [Linker.of_act_of_notMem untouched]
      exact bound

/-- A flush of which all is bound by now makes the own calls of the steps, and nothing else. -/
theorem flush_of_bound (number : Numbering)
    (h : ∀ r ∈ t.mentioned id, (t.linker target).bound? r = some (number r)) :
    ((t.flush id target).2.recorders target).calls
        = (t.recorders target).calls
          ++ (t.buffers id).steps.filterMap (·.ownCall? t.opcodes number) ∧
      (t.flush id target).2.bindings = t.bindings ∧
      ∀ other kind, ((t.flush id target).2.recorders other).next kind
        = (t.recorders other).next kind := by
  have bound : ∀ r ∈ t.mentioned id, (t.linker target).bound? r ≠ none := by
    intro r mentioned
    rw [h r mentioned]
    exact Option.some_ne_none _
  obtain ⟨after, calls⟩ := t.after_flush id target
  refine ⟨?_, ?_, ?_⟩
  · rw [calls, Linker.directCalls_of_bound t.opcodes _ [] bound]
    congr 1
    apply List.filterMap_congr
    intro step inside
    apply Step.ownCall?_congr
    intro r own
    have mentioned : r ∈ t.mentioned id := List.mem_flatMap.mpr ⟨step, inside, own⟩
    simp only [Linker.number, h r mentioned]
  · rw [bindings_flush, Linker.bindings_linkAll_of_bound t.opcodes bound]
    rfl
  · intro other kind
    by_cases same : target = other
    · subst same
      have next := after.next kind
      have settled := Linker.firstUses_of_bound bound []
      rw [Session.mentioned] at settled
      rw [Linker.created, settled] at next
      exact next.trans (BitVec.add_zero _)
    · rw [recorders_flush_of_ne t id same]

/-- A buffer is flushed into a target. Then anything can be done, but what the buffer mentions is
resolved on no other target; and the buffer has the same steps again with the same opcodes. Each
further flush into the target gives the same text. It makes the calls of the first flush, with the
same numbers, without those that create a label, a local or a region. It binds nothing, and gives out
no number on any target. -/
theorem flush_again {between : List Operation}
    (kept : (s.flush id target).2.Along (Operation.KeepsOn target (s.mentioned id)) between)
    (reached : ((s.flush id target).2.run between).2 = t)
    (steps : (t.buffers id).steps = (s.buffers id).steps)
    (opcodes : ∀ slot, (s.buffers id).Holds slot → t.opcodes slot = s.opcodes slot) :
    let first := s.flush id target
    let again := t.flush id target
    again.1 = first.1 ∧
      (∃ calls, (first.2.recorders target).calls = (s.recorders target).calls ++ calls ∧
        (again.2.recorders target).calls
          = (t.recorders target).calls ++ Call.withoutCreations calls) ∧
      again.2.bindings = t.bindings ∧
      ∀ other kind, (again.2.recorders other).next kind = (t.recorders other).next kind := by
  intro first again
  let number := (s.linker target).number (s.mentioned id)
  obtain ⟨calls, bound⟩ := s.flush_calls id target
  have current : ∀ step ∈ (s.buffers id).steps, ∀ slot, step.slot? = some slot →
      t.opcodes slot = s.opcodes slot := by
    intro step inside slot own
    exact opcodes slot ⟨step, inside, own⟩
  have same : t.mentioned id = s.mentioned id := congrArg Step.allReferences steps
  have still : ∀ r ∈ t.mentioned id, (t.linker target).bound? r = some (number r) := by
    intro r mentioned
    rw [same] at mentioned
    have start : first.2.bindings.of r = some ⟨target, number r⟩ :=
      Linker.bound?_eq_some_iff.mp ((bound r).trans (if_pos mentioned))
    have each : ∀ o s', Operation.KeepsOn target (s.mentioned id) o s' →
        s'.bindings.of r = some ⟨target, number r⟩ →
        (s'.perform o).2.bindings.of r = some ⟨target, number r⟩ :=
      fun o s' keeps before => of_perform_of_keepsOn keeps mentioned before
    have last : (first.2.run between).2.bindings.of r = some ⟨target, number r⟩ :=
      kept.run_preserves each start
    rw [reached] at last
    exact Linker.bound?_eq_some_iff.mpr last
  obtain ⟨calls', bindings, next⟩ := flush_of_bound number still
  refine ⟨?_, ⟨_, calls, ?_⟩, bindings, next⟩
  · have texts : (t.buffers id).steps.map (·.text t.opcodes)
        = (s.buffers id).steps.map (·.text s.opcodes) := by
      rw [steps]
      apply List.map_congr_left
      intro step inside
      exact Step.text_congr_opcodes (current step inside)
    exact congrArg String.join texts
  · rw [calls', Linker.withoutCreations_directCalls, steps]
    congr 1
    apply List.filterMap_congr
    intro step inside
    exact Step.ownCall?_congr_opcodes (current step inside)

/-- A label of the buffer is resolved once more on its target, and another one on another target. A
region of no buffer is opened. A step comes and goes, and so does an opcode. The buffer is flushed. -/
def betweenFlushes : List Operation :=
  [.resolveLabel ⟨5, "exit", .plain⟩ 1, .newLabel "other", .resolveLabel ⟨8, "other", .plain⟩ 2,
    .request 1 .beginException, .append 0 (.instruction .ret .none), .remove 0 7,
    .setOpcode ⟨⟨7, .switch⟩, 0⟩ .nop, .setOpcode ⟨⟨7, .switch⟩, 0⟩ .switch, .flush 0 1]

/-- The region is not opened again, but it is ended. -/
theorem startedTarget_flushedAgain :
    let s := (new.run startedTarget).2
    let t := ((s.flush 0 1).2.run betweenFlushes).2
    (s.flush 0 1).2.Along (Operation.KeepsOn 1 (s.mentioned 0)) betweenFlushes ∧
      (t.buffers 0).steps = (s.buffers 0).steps ∧
      (∀ slot, (s.buffers 0).Holds slot → t.opcodes slot = s.opcodes slot) ∧
      (t.flush 0 1).1 = (s.flush 0 1).1 ∧
      ((s.flush 0 1).2.recorders 1).calls = (s.recorders 1).calls ++ tableCalls 2 1 ∧
      ((t.flush 0 1).2.recorders 1).calls = (t.recorders 1).calls ++
        [.instruction .switch (.labels [3, 2, 3]), .instruction .stloc (.localVar 1),
          .endException, .markLabel 3] ∧
      ((t.flush 0 1).2.recorders 1).nextLabel = 5 := by
  intro s t
  have kept : (s.flush 0 1).2.Along (Operation.KeepsOn 1 (s.mentioned 0)) betweenFlushes := by
    have other : Reference.label ⟨8, "other", .plain⟩ ∉ s.mentioned 0 := by decide
    refine ⟨?_, ?_, ?_, ?_, ?_, ?_, ?_, ?_, ?_, trivial⟩
    all_goals intro target a concerned apart r mentioned
    all_goals cases concerned
    case refine_3 =>
      intro own
      obtain rfl := List.mem_singleton.mp own
      exact other mentioned
    all_goals exact absurd rfl apart
  have steps : (t.buffers 0).steps = (s.buffers 0).steps := by decide
  have opcodes : ∀ slot, (s.buffers 0).Holds slot → t.opcodes slot = s.opcodes slot := by
    have each : ∀ step ∈ (s.buffers 0).steps, ∀ slot ∈ step.slot?,
        t.opcodes slot = s.opcodes slot := by decide
    rintro slot ⟨step, inside, own⟩
    exact each step inside slot own
  have sent : ((s.flush 0 1).2.recorders 1).calls = (s.recorders 1).calls ++ tableCalls 2 1 := by
    decide
  have given : (t.recorders 1).next true = 5 := by decide
  have left : Call.withoutCreations (tableCalls 2 1)
      = [.instruction .switch (.labels [3, 2, 3]), .instruction .stloc (.localVar 1),
          .endException, .markLabel 3] := by decide
  have reached : ((s.flush 0 1).2.run betweenFlushes).2 = t := rfl
  obtain ⟨text, ⟨calls, first, again⟩, -, next⟩ := flush_again kept reached steps opcodes
  obtain rfl := List.append_cancel_left (first.symm.trans sent)
  rw [left] at again
  have labels := next 1 true
  rw [given] at labels
  exact ⟨kept, steps, opcodes, text, sent, again, labels⟩

end Session

end CilBuffer
