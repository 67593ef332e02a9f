import CilBuffer.Proofs.CacheFreeRuns
import CilBuffer.Proofs.FlushedCalls
import CilBuffer.Proofs.Regions

/-!
# The bytes of a flush

A list of steps is well formed if its regions are nested and distinct, and if the label at the end
of a region is mentioned only after the beginning of the region. Then a flush opens each region at
its own step, so the target counts the sizes of the steps. Well-formedness is not checked when steps
are recorded, and of other lists nothing is said here.
-/

namespace CilBuffer

/-- The reference is the label at the end of a region. -/
def Reference.endsRegion : Reference → Bool
  | .label ⟨_, _, origin⟩ => origin = .blockEnd
  | .localVar _ => false

/-- The region that the step begins. -/
def Step.block? : Step → Option ExceptionBlock
  | .beginException block => some block
  | _ => none

/-- The regions that the steps begin. -/
def Step.blocks (steps : List Step) : List ExceptionBlock := steps.filterMap (·.block?)

theorem Step.eq_of_block? {step : Step} {block : ExceptionBlock} (h : step.block? = some block) :
    step = .beginException block := by
  cases step <;> cases h
  rfl

/-- Nested regions that are pairwise distinct, and whose ends are mentioned by the other steps only
after the beginning. -/
structure WellFormed (steps : List Step) : Prop where
  nested : Nested .body steps
  distinct : (Step.blocks steps).Nodup
  follows : ∀ i (hi : i < steps.length), steps[i].block? = none →
    ∀ r ∈ steps[i].references, r.endsRegion = true →
      ∃ block ∈ Step.blocks (steps.take i), r = .label block.endLabel

theorem Reference.regions_of_not_endsRegion {r : Reference} (h : r.endsRegion = false) :
    r.regions = [] := by
  obtain ⟨serial, name, origin⟩ | localVar := r
  · cases origin with
    | plain => rfl
    | blockEnd => simp [endsRegion] at h
  · rfl

theorem ExceptionBlock.endLabel_injective {b c : ExceptionBlock} (h : b.endLabel = c.endLabel) :
    b = c := by
  cases b
  cases c
  cases h
  rfl

/-- The bytes counted so far, and the open regions. -/
def Recorder.counted (r : Recorder) : Nat × List Bool := (r.codeSize, r.openRegions)

namespace Linker

/-- To resolve a reference writes no bytes, and opens a region only for an end that is not bound. -/
theorem counted_resolve {k : Linker} {r : Reference}
    (h : r.endsRegion = true → k.bound? r ≠ none) :
    (k.resolve r).2.recorder.counted = k.recorder.counted := by
  cases known : k.bound? r with
  | some handle => rw [resolve_of_bound known]
  | none =>
    obtain ⟨-, creates⟩ := resolve_of_not_bound known
    have plain : r.endsRegion = false := by
      cases ends : r.endsRegion with
      | false => rfl
      | true => exact absurd known (h ends)
    rw [Recorder.counted, creates.codeSize, creates.openRegions,
      Reference.regions_of_not_endsRegion plain]
    rfl

theorem counted_resolveAll {k : Linker} {references : List Reference}
    (h : ∀ r ∈ references, r.endsRegion = true → k.bound? r ≠ none) :
    (k.resolveAll references).recorder.counted = k.recorder.counted := by
  induction references generalizing k with
  | nil => rfl
  | cons r references ih =>
    have first := counted_resolve (h r (List.mem_cons_self ..))
    have rest : ∀ x ∈ references, x.endsRegion = true → (k.resolve r).2.bound? x ≠ none := by
      intro x hx ends
      obtain ⟨handle, bound⟩ := Option.ne_none_iff_exists'.mp
        (h x (List.mem_cons_of_mem r hx) ends)
      rw [bound?_resolve_of_bound bound r]
      exact Option.some_ne_none handle
    rw [resolveAll_cons, ih rest, first]

/-- A step that opens no region but its own is counted by its account. -/
theorem counted_link {k : Linker} {step : Step} (current : Opcodes)
    (begins : ∀ block, step = .beginException block → k.bound? (.label block.endLabel) = none)
    (others : step.block? = none →
      ∀ r ∈ step.references, r.endsRegion = true → k.bound? r ≠ none) :
    (k.link current step).recorder.counted = step.account current k.recorder.counted := by
  have sends := link_sends current k step
  rw [Recorder.counted, sends.codeSize, sends.openRegions]
  cases own : step.block? with
  | some block =>
    obtain rfl := Step.eq_of_block? own
    obtain ⟨-, creates⟩ := resolve_of_not_bound (begins block rfl)
    have resolved : k.resolveAll (Step.beginException block).references
        = (k.resolve (.label block.endLabel)).2 := rfl
    rw [resolved, creates.codeSize, creates.openRegions]
    rfl
  | none =>
    have quiet := counted_resolveAll (others own)
    have size := congrArg Prod.fst quiet
    have regions := congrArg Prod.snd quiet
    simp only [Recorder.counted] at size regions
    rw [size, regions]
    cases step with
    | beginException block => cases own
    | _ => rfl

end Linker

theorem Step.mem_blocks {block : ExceptionBlock} {steps : List Step} :
    block ∈ blocks steps ↔ .beginException block ∈ steps := by
  simp only [blocks, List.mem_filterMap]
  constructor
  · rintro ⟨step, hs, own⟩
    obtain rfl := Step.eq_of_block? own
    exact hs
  · intro hb
    exact ⟨_, hb, rfl⟩

namespace WellFormed

variable {steps before after : List Step} {step : Step}

/-- A step that begins no region mentions the ends of earlier regions alone. -/
theorem mem_before (h : WellFormed steps) (split : steps = before ++ step :: after)
    (other : step.block? = none) {r : Reference} (hr : r ∈ step.references)
    (ends : r.endsRegion = true) :
    ∃ block, .beginException block ∈ before ∧ r = .label block.endLabel := by
  subst split
  have hi : before.length < (before ++ step :: after).length := by simp
  have at_i : (before ++ step :: after)[before.length] = step := by simp
  obtain ⟨block, hb, eq⟩ := h.follows before.length hi (by rw [at_i]; exact other) r
    (by rw [at_i]; exact hr) ends
  rw [List.take_left' rfl, Step.mem_blocks] at hb
  exact ⟨block, hb, eq⟩

/-- No earlier step mentions the end of a region that begins here. -/
theorem not_mem_before {block : ExceptionBlock} (h : WellFormed steps)
    (split : steps = before ++ .beginException block :: after) :
    .label block.endLabel ∉ Step.allReferences before := by
  intro mentioned
  obtain ⟨step, hs, hr⟩ := List.mem_flatMap.mp mentioned
  have earlier : .beginException block ∈ before := by
    obtain ⟨front, back, rfl⟩ := List.append_of_mem hs
    cases own : step.block? with
    | some first =>
      obtain rfl := Step.eq_of_block? own
      have same : block = first :=
        ExceptionBlock.endLabel_injective (by simpa [Step.references] using hr)
      rw [same]
      exact hs
    | none =>
      obtain ⟨first, hb, eq⟩ := h.mem_before (by simpa using split) own hr rfl
      have same : block = first := ExceptionBlock.endLabel_injective (by simpa using eq)
      rw [same]
      exact List.mem_append_left _ hb
  -- The same region would begin twice.
  have twice := h.distinct
  rw [split, Step.blocks, List.filterMap_append, List.nodup_append] at twice
  exact twice.2.2 block (Step.mem_blocks.mpr earlier) block (by simp [Step.block?]) rfl

/-- From a linker that has sent the steps before, the other steps are counted by their accounts. -/
theorem counted_linkAll {k₀ k : Linker} (h : WellFormed steps) (split : steps = before ++ after)
    (unbound : ∀ block, .beginException block ∈ steps →
      k₀.bound? (.label block.endLabel) = none)
    (reached : k₀.After (Step.allReferences before) k) (current : Opcodes) :
    (k.linkAll current after).recorder.counted
      = Step.accountAll current k.recorder.counted after := by
  induction after generalizing before k with
  | nil => rfl
  | cons step after ih =>
    have begins : ∀ block, step = .beginException block →
        k.bound? (.label block.endLabel) = none := by
      rintro block rfl
      rw [reached.bound?_eq_none_iff]
      exact ⟨unbound block (by simp [split]), h.not_mem_before split⟩
    have others : step.block? = none →
        ∀ r ∈ step.references, r.endsRegion = true → k.bound? r ≠ none := by
      intro other r hr ends
      obtain ⟨block, hb, rfl⟩ := h.mem_before split other hr ends
      rw [Ne, reached.bound?_eq_none_iff]
      exact fun new => new.2 (List.mem_flatMap.mpr ⟨_, hb, by simp [Step.references]⟩)
    have next : k₀.After (Step.allReferences (before ++ [step])) (k.link current step) := by
      have sent := (reached.link current (List.prefix_refl (_ ++ step.references))).1
      simpa [Step.allReferences] using sent
    rw [Linker.linkAll_cons, Step.accountAll_cons, ← Linker.counted_link current begins others]
    exact ih (by simpa using split) next

end WellFormed

namespace Session

/-- A flush of well-formed steps, none of whose regions is bound to the target, writes as many bytes
as the steps have, and leaves the regions that were open on the target. These bytes are the length
of the buffer in a run that replaces no opcode behind its back. -/
theorem flush_codeSize_of_wellFormed {s : Session} {id target : Nat}
    (h : WellFormed (s.buffers id).steps)
    (unbound : ∀ block, .beginException block ∈ (s.buffers id).steps →
      (s.linker target).bound? (.label block.endLabel) = none) :
    let total := Step.totalSize s.opcodes (s.buffers id).steps
    ((s.flush id target).2.recorders target).codeSize = (s.recorders target).codeSize + total ∧
      ((s.flush id target).2.recorders target).openRegions = (s.recorders target).openRegions ∧
      ∀ operations, s = (new.run operations).2 → new.Along (Operation.Spares id) operations →
        (s.perform (.cumulativeLength id (s.buffers id).length)).1 = .length total := by
  have counted : ((s.flush id target).2.recorders target).counted
      = ((s.recorders target).codeSize + Step.totalSize s.opcodes (s.buffers id).steps,
        (s.recorders target).openRegions) := by
    have all : (s.buffers id).steps = [] ++ (s.buffers id).steps := rfl
    have recorder : ((s.flush id target).2.recorders target)
        = ((s.linker target).linkAll s.opcodes (s.buffers id).steps).recorder :=
      congrArg Linker.recorder (s.linker_flush id target)
    rw [recorder, h.counted_linkAll all unbound (Linker.after_nil _)]
    exact h.nested.counted s.opcodes _ _
  refine ⟨congrArg Prod.fst counted, congrArg Prod.snd counted, ?_⟩
  rintro operations rfl spared
  have agrees := agrees_run spared (agrees_new id)
  obtain ⟨answer, -⟩ := Buffer.Agrees.cumulativeLength agrees
    (((new.run operations).2.buffers id).length)
  have all : ((new.run operations).2.buffers id).plainLength (new.run operations).2.opcodes
        ((new.run operations).2.buffers id).length
      = .ok (Step.totalSize (new.run operations).2.opcodes
          ((new.run operations).2.buffers id).steps) := by
    rw [Buffer.plainLength, if_pos (Nat.le_refl _), List.take_of_length_le (by simp)]
    rfl
  rw [all] at answer
  simp only [perform]
  split <;> rename_i hc <;> rw [hc] at answer <;> cases answer
  rfl

/-- A region with both handlers, whose body leaves to its own end and whose finally handler holds
another region. The target has a region open already, and the branch is made long at the end. -/
def guardedLeave : List Operation :=
  [.newBuffer none, .newRecorder, .request 1 .beginException,
    .emit 0 .beginException, .emit 0 (.branch .leaveS ⟨2, "block_end_0", .blockEnd⟩),
    .emit 0 (.step (.beginCatch ⟨"Exception", false⟩)), .emit 0 (.step .endCatch),
    .emit 0 (.step .beginFinally), .emit 0 .beginException, .emit 0 (.step .endException),
    .emit 0 (.step .endFinally), .emit 0 (.step .endException), .setOpcode ⟨⟨3, .leaveS⟩, 0⟩ .leave]

def guardedSteps : List Step :=
  [.beginException ⟨2, "block_end_0"⟩, .branch ⟨3, .leaveS⟩ ⟨2, "block_end_0", .blockEnd⟩,
    .beginCatch ⟨"Exception", false⟩, .endCatch, .beginFinally,
    .beginException ⟨4, "block_end_5"⟩, .endException, .endFinally, .endException]

theorem guardedSteps_wellFormed : WellFormed guardedSteps where
  nested := by
    have inner : Nested .body [.beginException ⟨4, "block_end_5"⟩, .endException] :=
      .region .nil .unhandled .nil
    have body : Nested .body [.branch ⟨3, .leaveS⟩ ⟨2, "block_end_0", .blockEnd⟩] :=
      .cons rfl .nil
    exact .region body (.catchHandler .nil (.finallyHandler inner)) .nil
  distinct := by decide
  follows := by
    intro i hi other r hr _
    match i, hi with
    | 1, _ =>
      obtain rfl : r = .label ⟨2, "block_end_0", .blockEnd⟩ := List.mem_singleton.mp hr
      exact ⟨⟨2, "block_end_0"⟩, List.mem_singleton.mpr rfl, rfl⟩
    | 0, _ | 5, _ => cases other
    | 2, _ | 3, _ | 4, _ | 6, _ | 7, _ | 8, _ => cases hr

theorem guardedLeave_codeSize :
    WellFormed ((new.run guardedLeave).2.buffers 0).steps ∧
      (∀ block, .beginException block ∈ ((new.run guardedLeave).2.buffers 0).steps →
        ((new.run guardedLeave).2.linker 1).bound? (.label block.endLabel) = none) ∧
      (((new.run guardedLeave).2.flush 0 1).2.recorders 1).codeSize = 26 ∧
      (((new.run guardedLeave).2.flush 0 1).2.recorders 1).openRegions = [false] ∧
      ((new.run guardedLeave).2.perform (.cumulativeLength 0 9)).1 = .length 26 := by
  have recorded : ((new.run guardedLeave).2.buffers 0).steps = guardedSteps := by decide
  have wellFormed : WellFormed ((new.run guardedLeave).2.buffers 0).steps :=
    recorded ▸ guardedSteps_wellFormed
  have unbound : ∀ block, .beginException block ∈ ((new.run guardedLeave).2.buffers 0).steps →
      ((new.run guardedLeave).2.linker 1).bound? (.label block.endLabel) = none :=
    fun _ _ => rfl
  -- No other buffer is there, so none is changed behind its back.
  have spared : new.Along (Operation.Spares 0) guardedLeave := by
    refine ⟨?_, ?_, ?_, ?_, ?_, ?_, ?_, ?_, ?_, ?_, ?_, ?_, ?_, trivial⟩
    all_goals intro handle op h
    all_goals cases h
    intro ne
    exact absurd rfl ne
  obtain ⟨size, regions, length⟩ := flush_codeSize_of_wellFormed wellFormed unbound
  exact ⟨wellFormed, unbound, size, regions, length guardedLeave rfl spared⟩

end Session

end CilBuffer
