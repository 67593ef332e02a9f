import CilBuffer.Proofs.Renumbering

/-!
# Flushes into different targets commute

A flush binds what its buffer mentions and no other reference. So of two flushes into different
targets, the second meets the target as it was, and what it mentions bound to this target or not as
before, if the references that both buffers mention are bound to neither target. The order then
shows in the last bindings of these references alone. Nothing is said here of a shared reference that
is bound to one of the targets at the beginning: the other flush takes it away, and it is created
anew.
-/

namespace CilBuffer

namespace Linker

variable {k : Linker} {r : Reference}

/-- To resolve a reference leaves the bindings of the others as they are. -/
theorem of_resolve_of_ne {other : Reference} (h : r ≠ other) :
    (k.resolve other).2.bindings.of r = k.bindings.of r := by
  cases known : k.bound? other with
  | some handle => rw [resolve_of_bound known]
  | none => rw [of_resolve_of_not_bound known, if_neg h]

theorem of_resolveAll_of_notMem {references : List Reference} (h : r ∉ references) :
    (k.resolveAll references).bindings.of r = k.bindings.of r := by
  induction references generalizing k with
  | nil => rfl
  | cons other references ih =>
    obtain ⟨ne, rest⟩ := List.ne_and_not_mem_of_not_mem_cons h
    rw [resolveAll_cons, ih rest, of_resolve_of_ne ne]

theorem of_linkAll_of_notMem {steps : List Step} (current : Opcodes)
    (h : r ∉ Step.allReferences steps) :
    (k.linkAll current steps).bindings.of r = k.bindings.of r := by
  induction steps generalizing k with
  | nil => rfl
  | cons step steps ih =>
    rw [Step.allReferences_cons, List.mem_append, not_or] at h
    obtain ⟨own, rest⟩ := h
    rw [linkAll_cons, ih rest, bindings_link, of_resolveAll_of_notMem own]

end Linker

namespace Session

variable {s : Session} {p q a b : Nat} {r : Reference}

/-- What the buffer in question mentions. -/
def mentioned (s : Session) (id : Nat) : List Reference :=
  Step.allReferences (s.buffers id).steps

theorem bindings_flush (s : Session) (id target : Nat) :
    (s.flush id target).2.bindings
      = ((s.linker target).linkAll s.opcodes (s.buffers id).steps).bindings :=
  rfl

/-- A flush leaves what its buffer does not mention bound as it is. -/
theorem of_flush_of_notMem (target : Nat) (h : r ∉ s.mentioned p) :
    (s.flush p target).2.bindings.of r = s.bindings.of r := by
  rw [bindings_flush]
  exact Linker.of_linkAll_of_notMem s.opcodes h

/-- A flush leaves what its buffer mentions bound to its target. -/
theorem of_flush_of_mem (target : Nat) (h : r ∈ s.mentioned p) :
    ∃ handle, (s.flush p target).2.bindings.of r = some ⟨target, handle⟩ := by
  have bound := ((s.after_flush p target).1.bound r).trans (if_pos h)
  exact ⟨_, Linker.bound?_eq_some_iff.mp bound⟩

/-- A flush into one target makes no difference to what the other buffer can tell of the other
target: what both mention is bound there neither before nor after. -/
theorem alikeOn_flush (apart : a ≠ b)
    (unbound : ∀ r ∈ s.mentioned p, r ∈ s.mentioned q → (s.linker b).bound? r = none) :
    Linker.AlikeOn (s.mentioned q) ((s.flush p a).2.linker b) (s.linker b) := by
  constructor
  · exact s.recorders_flush_of_ne p apart
  · intro r own
    by_cases shared : r ∈ s.mentioned p
    · have before : (s.linker b).Unbound [r] := by
        intro x hx
        rw [List.mem_singleton.mp hx]
        exact unbound r shared own
      have after : ((s.flush p a).2.linker b).Unbound [r] := unbound_flush_of_ne apart before
      rw [after r (List.mem_singleton_self r), unbound r shared own]
    · rw [Linker.bound?_eq, Linker.bound?_eq]
      exact congrArg (Binding.on? b) (of_flush_of_notMem a shared)

/-- So the flush of the other buffer ends alike, whether it comes second or is the only one. -/
theorem alikeOn_flush_flush (apart : a ≠ b)
    (unbound : ∀ r ∈ s.mentioned p, r ∈ s.mentioned q → (s.linker b).bound? r = none) :
    Linker.AlikeOn (s.mentioned q) (((s.flush p a).2.flush q b).2.linker b)
      ((s.flush q b).2.linker b) := by
  rw [linker_flush, linker_flush]
  exact (alikeOn_flush apart unbound).linkAll s.opcodes (List.Subset.refl _)

/-- What the second buffer alone mentions ends bound as it does without the first flush. -/
theorem of_flush_flush_of_mem (apart : a ≠ b)
    (unbound : ∀ r ∈ s.mentioned p, r ∈ s.mentioned q → (s.linker b).bound? r = none)
    (own : r ∈ s.mentioned q) :
    ((s.flush p a).2.flush q b).2.bindings.of r = (s.flush q b).2.bindings.of r := by
  have same := (alikeOn_flush_flush apart unbound).bound r own
  obtain ⟨handle, bound⟩ := of_flush_of_mem b own
  rw [bound]
  exact Linker.bound?_eq_some_iff.mp (same.trans (Linker.bound?_eq_some_iff.mpr bound))

/-- On each target the flush into it ends with the same record in either order. -/
theorem recorders_flush_flush (apart : a ≠ b)
    (freeA : ∀ r ∈ s.mentioned q, r ∈ s.mentioned p → (s.linker a).bound? r = none)
    (freeB : ∀ r ∈ s.mentioned p, r ∈ s.mentioned q → (s.linker b).bound? r = none) :
    ((s.flush p a).2.flush q b).2.recorders = ((s.flush q b).2.flush p a).2.recorders := by
  funext target
  by_cases first : a = target
  · subst first
    rw [recorders_flush_of_ne _ q apart.symm]
    exact (alikeOn_flush_flush apart.symm freeA).recorder.symm
  · by_cases second : b = target
    · subst second
      rw [recorders_flush_of_ne _ p apart]
      exact (alikeOn_flush_flush apart freeB).recorder
    · rw [recorders_flush_of_ne _ q second, recorders_flush_of_ne _ p first,
        recorders_flush_of_ne _ p first, recorders_flush_of_ne _ q second]

/-- Only a reference that both buffers mention can tell the order from its binding. -/
theorem of_flush_flush_of_notBoth (apart : a ≠ b)
    (freeA : ∀ r ∈ s.mentioned q, r ∈ s.mentioned p → (s.linker a).bound? r = none)
    (freeB : ∀ r ∈ s.mentioned p, r ∈ s.mentioned q → (s.linker b).bound? r = none)
    (notBoth : ¬ (r ∈ s.mentioned p ∧ r ∈ s.mentioned q)) :
    ((s.flush p a).2.flush q b).2.bindings.of r
      = ((s.flush q b).2.flush p a).2.bindings.of r := by
  have late_q : r ∉ s.mentioned q →
      ((s.flush p a).2.flush q b).2.bindings.of r = (s.flush p a).2.bindings.of r :=
    of_flush_of_notMem (s := (s.flush p a).2) b
  have late_p : r ∉ s.mentioned p →
      ((s.flush q b).2.flush p a).2.bindings.of r = (s.flush q b).2.bindings.of r :=
    of_flush_of_notMem (s := (s.flush q b).2) a
  by_cases inP : r ∈ s.mentioned p
  · have notQ : r ∉ s.mentioned q := fun inQ => notBoth ⟨inP, inQ⟩
    rw [late_q notQ, of_flush_flush_of_mem apart.symm freeA inP]
  · by_cases inQ : r ∈ s.mentioned q
    · rw [late_p inP, of_flush_flush_of_mem apart freeB inQ]
    · rw [late_q inQ, late_p inP, of_flush_of_notMem a inP, of_flush_of_notMem b inQ]

/-- Two buffers are flushed into two targets, one into each, and what both mention is bound to
neither target at the beginning. In either order the two texts are the same, and the sessions at the
end are the same but for bindings: each target has recorded the same calls, bytes, next numbers and
open regions. A reference that is not mentioned by both ends with the same binding, and one that is
ends bound to the target of the last flush. -/
theorem flushes_commute (apart : a ≠ b)
    (unbound : ∀ r ∈ s.mentioned p, r ∈ s.mentioned q →
      (s.linker a).bound? r = none ∧ (s.linker b).bound? r = none) :
    let pThenQ := (s.flush p a).2.flush q b
    let qThenP := (s.flush q b).2.flush p a
    (pThenQ.1 = (s.flush q b).1 ∧ qThenP.1 = (s.flush p a).1) ∧
      pThenQ.2 = { qThenP.2 with bindings := pThenQ.2.bindings } ∧
      (∀ r, ¬ (r ∈ s.mentioned p ∧ r ∈ s.mentioned q) →
        pThenQ.2.bindings.of r = qThenP.2.bindings.of r) ∧
      ∀ r ∈ s.mentioned p, r ∈ s.mentioned q →
        (∃ handle, pThenQ.2.bindings.of r = some ⟨b, handle⟩) ∧
          ∃ handle, qThenP.2.bindings.of r = some ⟨a, handle⟩ := by
  intro pThenQ qThenP
  have freeA : ∀ r ∈ s.mentioned q, r ∈ s.mentioned p → (s.linker a).bound? r = none :=
    fun r inQ inP => (unbound r inP inQ).1
  have freeB : ∀ r ∈ s.mentioned p, r ∈ s.mentioned q → (s.linker b).bound? r = none :=
    fun r inP inQ => (unbound r inP inQ).2
  refine ⟨⟨rfl, rfl⟩, ?_, ?_, ?_⟩
  · have whole : pThenQ.2 = { qThenP.2 with
        bindings := pThenQ.2.bindings, recorders := pThenQ.2.recorders } := rfl
    rw [whole, recorders_flush_flush apart freeA freeB]
  · intro r notBoth
    exact of_flush_flush_of_notBoth apart freeA freeB notBoth
  · intro r inP inQ
    exact ⟨of_flush_of_mem b inQ, of_flush_of_mem a inP⟩

/-- Two buffers share a branch whose opcode has been replaced, and the end of a region that is left
in the one and begun in the other. The label of the branch is bound to a third target, and one of
the two targets has given out a label by then. -/
def sharedBranches : List Operation :=
  [.newBuffer none, .newBuffer none, .newRecorder, .newRecorder, .newRecorder, .newLabel "exit",
    .newLocal "n" 0 (.value "System.Int32"), .emit 0 .beginException,
    .emit 0 (.branch .brS ⟨5, "exit", .plain⟩), .append 1 (.branch ⟨8, .brS⟩ ⟨5, "exit", .plain⟩),
    .setOpcode ⟨⟨8, .brS⟩, 0⟩ .br, .append 1 (.access .stloc ⟨6, "n", 0, .value "System.Int32"⟩),
    .emit 1 (.branch .leave ⟨7, "block_end_0", .blockEnd⟩),
    .append 0 (.markLabel ⟨5, "exit", .plain⟩), .resolveLabel ⟨5, "exit", .plain⟩ 4,
    .request 3 .defineLabel]

theorem sharedBranches_commute :
    let s := (new.run sharedBranches).2
    let pThenQ := ((s.flush 0 2).2.flush 1 3).2
    let qThenP := ((s.flush 1 3).2.flush 0 2).2
    (∀ r ∈ s.mentioned 0, r ∈ s.mentioned 1 →
      (s.linker 2).bound? r = none ∧ (s.linker 3).bound? r = none) ∧
      (pThenQ.recorders 2).calls = [.beginException 0, .defineLabel 1, .instruction .br (.label 1),
        .markLabel 1] ∧
      (qThenP.recorders 2).calls = (pThenQ.recorders 2).calls ∧
      (pThenQ.recorders 3).calls = [.defineLabel 0, .defineLabel 1, .instruction .br (.label 1),
        .declareLocal (.value "System.Int32") 0, .instruction .stloc (.localVar 0),
        .beginException 2, .instruction .leave (.label 2)] ∧
      (qThenP.recorders 3).calls = (pThenQ.recorders 3).calls ∧
      ∃ handle handle', pThenQ.bindings.labels ⟨5, "exit", .plain⟩ = some ⟨3, handle⟩ ∧
        qThenP.bindings.labels ⟨5, "exit", .plain⟩ = some ⟨2, handle'⟩ := by
  intro s pThenQ qThenP
  have unbound : ∀ r ∈ s.mentioned 0, r ∈ s.mentioned 1 →
      (s.linker 2).bound? r = none ∧ (s.linker 3).bound? r = none := by decide
  obtain ⟨-, whole, -, last⟩ := flushes_commute (by decide : 2 ≠ 3) unbound
  have same := congrArg Session.recorders whole
  change pThenQ.recorders = qThenP.recorders at same
  obtain ⟨⟨handle, first⟩, handle', second⟩ :=
    last (.label ⟨5, "exit", .plain⟩) (by decide) (by decide)
  refine ⟨unbound, by decide, ?_, by decide, ?_, handle, handle', first, second⟩
  · rw [same]
  · rw [same]

end Session

end CilBuffer
