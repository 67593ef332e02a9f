import CilBuffer.Proofs.FoundedCalls

/-!
# Numbers counted from where a target stands

If nothing that the steps of a buffer mention is bound to a target, a flush into it makes the calls
that it would make on a new target, with each number counted on from the next number of its kind at
the beginning. So flushes into two targets make the same calls, once each is counted from where its
target stood. The first of two flushes binds what the second has to create anew. After its last
number a target goes on with zero, so numbers are subtracted as the target adds them, modulo the
width; where they do not run out, that is to subtract natural numbers.
-/

namespace CilBuffer

/-- New numbers in place of the old ones, for labels and for locals. -/
abbrev Renumbering : Type := (isLabel : Bool) → Handle isLabel → Handle isLabel

/-- The operand with its numbers replaced. Labels and locals are numbered apart. -/
def Operand.renumber (f : Renumbering) : Operand → Operand
  | .label handle => .label (f true handle)
  | .labels handles => .labels (handles.map (f true))
  | .localVar handle => .localVar (f false handle)
  | operand => operand

/-- The call with its numbers replaced. -/
def Call.renumber (f : Renumbering) : Call → Call
  | .instruction op operand => .instruction op (operand.renumber f)
  | .beginException handle => .beginException (f true handle)
  | .defineLabel handle => .defineLabel (f true handle)
  | .markLabel handle => .markLabel (f true handle)
  | .declareLocal type handle => .declareLocal type (f false handle)
  | call => call

/-- The numbers of the given kind in the call. -/
def Call.handles (isLabel : Bool) (call : Call) : List (Handle isLabel) :=
  (call.created? isLabel).toList ++ call.operands isLabel

namespace Recorder

/-- The next numbers of the recorder subtracted from those of a call. -/
def lower (r : Recorder) : Call → Call :=
  Call.renumber fun isLabel handle => handle - r.next isLabel

/-- Unless the numbers of a kind run out, none in the calls is below the next one of the recorder,
and the subtraction is that of natural numbers. -/
def CountsUp (r : Recorder) (calls : List Call) : Prop :=
  ∀ isLabel,
    (r.next isLabel).toNat + (calls.filterMap (·.created? isLabel)).length
        ≤ 2 ^ handleWidth isLabel →
      ∀ handle ∈ calls.flatMap (·.handles isLabel),
        (handle - r.next isLabel).toNat + (r.next isLabel).toNat = handle.toNat

end Recorder

theorem Reference.renumber_creation (f : Renumbering) (r : Reference) (number : Handle r.isLabel) :
    (r.creation number).renumber f = r.creation (f r.isLabel number) := by
  obtain ⟨serial, name, origin⟩ | localVar := r
  · cases origin <;> rfl
  · rfl

/-- The numbers that creations create are those of the references of the kind. -/
theorem Reference.created_creations (number : Numbering) (references : List Reference)
    (kind : Bool) :
    ((references.map fun r => r.creation (number r)).filterMap (·.created? kind)).map BitVec.toNat
      = (references.filter (·.isLabel = kind)).map fun r => (number r).toNat := by
  induction references with
  | nil => rfl
  | cons r references ih =>
    rw [List.map_cons]
    by_cases own : r.isLabel = kind
    · subst own
      rw [List.filterMap_cons_some (r.created?_creation (number r)),
        List.filter_cons_of_pos (by simp), List.map_cons, List.map_cons, ih]
    · rw [List.filterMap_cons_none (created?_creation_of_ne own (number r)), ih,
        List.filter_cons_of_neg (by simpa using own)]

theorem Immediate.renumber_sent (f : Renumbering) (operand : Immediate) :
    operand.sent.renumber f = operand.sent := by
  cases operand <;> rfl

theorem Step.renumber_ownCall? (current : Opcodes) (f : Renumbering)
    (number : Numbering) (step : Step) :
    (step.ownCall? current number).map (·.renumber f)
      = step.ownCall? current fun r => f r.isLabel (number r) := by
  cases step with
  | instruction op operand => simp [ownCall?, Call.renumber, Immediate.renumber_sent]
  | switch slot targets =>
    simp [ownCall?, Call.renumber, Operand.renumber, Function.comp_def]
  | _ => rfl

namespace Linker

variable {k k' : Linker} {references : List Reference} {r : Reference} {steps : List Step}

/-- To replace the numbers in the calls is to number otherwise. -/
theorem renumber_directCalls (k : Linker) (current : Opcodes) (f : Renumbering)
    (number : Numbering) (before : List Reference) (steps : List Step) :
    (k.directCalls current number before steps).map (·.renumber f)
      = k.directCalls current (fun r => f r.isLabel (number r)) before steps := by
  induction steps generalizing before with
  | nil => rfl
  | cons step steps ih =>
    have creations : ((k.firstUses before step.references).map
          fun r => r.creation (number r)).map (·.renumber f)
        = (k.firstUses before step.references).map
            fun r => r.creation (f r.isLabel (number r)) := by
      rw [List.map_map]
      exact List.map_congr_left fun r _ => r.renumber_creation f (number r)
    rw [directCalls, directCalls, List.map_append, List.map_append, creations, ih,
      ← Step.renumber_ownCall?, Option.toList_map]

/-- The numbers that direct emission creates are those of the first uses, in order. -/
theorem created_directCalls (k : Linker) (current : Opcodes) (number : Numbering)
    (before : List Reference) (steps : List Step) (kind : Bool) :
    ((k.directCalls current number before steps).filterMap (·.created? kind)).map BitVec.toNat
      = ((k.firstUses before (Step.allReferences steps)).filter (·.isLabel = kind)).map
          fun r => (number r).toNat := by
  induction steps generalizing before with
  | nil => rfl
  | cons step steps ih =>
    have own : (step.ownCall? current number).toList.filterMap (·.created? kind) = [] := by
      cases call : step.ownCall? current number with
      | none => rfl
      | some call => simp [Step.created?_ownCall? call]
    rw [directCalls, List.filterMap_append, List.filterMap_append, own, List.append_nil,
      List.map_append, Reference.created_creations, ih, Step.allReferences_cons, firstUses_append,
      List.filter_append, List.map_append]

/-- Direct emission creates as many numbers of a kind as there are references to create. -/
theorem length_created_directCalls (k : Linker) (current : Opcodes) (number : Numbering)
    (steps : List Step) (kind : Bool) :
    ((k.directCalls current number [] steps).filterMap (·.created? kind)).length
      = (k.created (Step.allReferences steps) kind).length := by
  have same := congrArg List.length (k.created_directCalls current number [] steps kind)
  rw [List.length_map, List.length_map] at same
  exact same

/-- Each number in the calls is that of a reference that the steps mention. -/
theorem exists_of_mem_handles {current : Opcodes} {number : Numbering} {kind : Bool}
    {handle : Handle kind}
    (used : handle ∈ (k.directCalls current number [] steps).flatMap (·.handles kind)) :
    ∃ r ∈ Step.allReferences steps, r.isLabel = kind ∧ (number r).toNat = handle.toNat := by
  obtain ⟨call, made, own⟩ := List.mem_flatMap.mp used
  obtain created | operand := List.mem_append.mp own
  · have among : handle ∈ (k.directCalls current number [] steps).filterMap (·.created? kind) :=
      List.mem_filterMap.mpr ⟨call, made, Option.mem_toList.mp created⟩
    have value := List.mem_map_of_mem among (f := BitVec.toNat)
    rw [created_directCalls] at value
    obtain ⟨r, hr, same⟩ := List.mem_map.mp value
    obtain ⟨first, own⟩ := List.mem_filter.mp hr
    exact ⟨r, (mem_firstUses.mp first).1, of_decide_eq_true own, same⟩
  · have among : handle ∈ (k.directCalls current number [] steps).flatMap (·.operands kind) :=
      List.mem_flatMap.mpr ⟨call, made, operand⟩
    have value := List.mem_map_of_mem among (f := BitVec.toNat)
    rw [operands_directCalls] at value
    obtain ⟨r, hr, same⟩ := List.mem_map.mp value
    obtain ⟨mentioned, own⟩ := Step.mem_allReferences_of_operand hr
    exact ⟨r, mentioned, own, same⟩

/-- None of the references is bound to the target. -/
def Unbound (k : Linker) (references : List Reference) : Prop := ∀ r ∈ references, k.bound? r = none

/-- A new target to which nothing is bound. -/
def fresh : Linker := ⟨0, .empty, .new⟩

theorem bound?_fresh (r : Reference) : fresh.bound? r = none := by
  cases r <;> rfl

theorem unbound_fresh (references : List Reference) : fresh.Unbound references :=
  fun r _ => bound?_fresh r

/-- What is created for references that are not bound does not depend on the target. -/
theorem Unbound.firstUses (h : k.Unbound references) (before : List Reference) :
    k.firstUses before references = fresh.firstUses before references := by
  induction references generalizing before with
  | nil => rfl
  | cons r references ih =>
    obtain ⟨first, rest⟩ := List.forall_mem_cons.mp h
    simp only [Linker.firstUses, first, bound?_fresh, ih rest]

/-- The number of a reference is the one on a new target, counted from where the target stands. -/
theorem Unbound.number (h : k.Unbound references) (mentioned : r ∈ references) :
    k.number references r = k.recorder.next r.isLabel + fresh.number references r := by
  have start : fresh.recorder.next r.isLabel = 0#(handleWidth r.isLabel) := by cases r <;> rfl
  simp only [Linker.number, h r mentioned, bound?_fresh, created, h.firstUses, start,
    BitVec.zero_add]

/-- While the numbers last, that of a reference is the next one of the target and as many more as
there are references of the kind before it. -/
theorem Unbound.toNat_number (h : k.Unbound references) (mentioned : r ∈ references)
    (lasts : (k.recorder.next r.isLabel).toNat + (k.created references r.isLabel).length
      ≤ 2 ^ handleWidth r.isLabel) :
    (k.number references r).toNat
      = (k.recorder.next r.isLabel).toNat + (k.created references r.isLabel).idxOf r := by
  have made : r ∈ k.created references r.isLabel := by
    simp [created, mem_firstUses, mentioned, h r mentioned]
  have before := List.idxOf_lt_length_of_mem made
  simp only [Linker.number, h r mentioned]
  rw [BitVec.toNat_add, BitVec.toNat_ofNat, Nat.add_mod_mod]
  apply Nat.mod_eq_of_lt
  omega

/-- By induction on the steps: what is created is the same on a new target. -/
theorem Unbound.directCalls (h : k.Unbound (Step.allReferences steps)) {number number' : Numbering}
    (same : ∀ r ∈ Step.allReferences steps, number r = number' r) (current : Opcodes)
    (before : List Reference) :
    k.directCalls current number before steps = fresh.directCalls current number' before steps := by
  induction steps generalizing before with
  | nil => rfl
  | cons step steps ih =>
    rw [Step.allReferences_cons] at h same
    obtain ⟨own, rest⟩ := List.forall_mem_append.mp h
    obtain ⟨own_same, rest_same⟩ := List.forall_mem_append.mp same
    have uses : k.firstUses before step.references = fresh.firstUses before step.references :=
      Unbound.firstUses own before
    have creations : (fresh.firstUses before step.references).map (fun r => r.creation (number r))
        = (fresh.firstUses before step.references).map fun r => r.creation (number' r) := by
      apply List.map_congr_left
      intro r hr
      rw [own_same r (mem_firstUses.mp hr).1]
    rw [Linker.directCalls, Linker.directCalls, uses, creations, Step.ownCall?_congr own_same,
      ih rest rest_same]

/-- The calls of the steps on a new target to which nothing is bound. -/
def relativeCalls (current : Opcodes) (steps : List Step) : List Call :=
  fresh.directCalls current (fresh.number (Step.allReferences steps)) [] steps

/-- Counted from where the target stands, the calls are those on a new target. -/
theorem Unbound.lower_directCalls (h : k.Unbound (Step.allReferences steps)) (current : Opcodes) :
    (k.directCalls current (k.number (Step.allReferences steps)) [] steps).map k.recorder.lower
      = relativeCalls current steps := by
  unfold Recorder.lower
  rw [renumber_directCalls]
  apply h.directCalls
  intro r mentioned
  rw [Unbound.number h mentioned, BitVec.add_comm, BitVec.add_sub_cancel]

theorem Unbound.countsUp (h : k.Unbound (Step.allReferences steps)) (current : Opcodes) :
    k.recorder.CountsUp
      (k.directCalls current (k.number (Step.allReferences steps)) [] steps) := by
  intro isLabel lasts handle used
  rw [length_created_directCalls] at lasts
  obtain ⟨r, mentioned, rfl, value⟩ := exists_of_mem_handles used
  rw [Unbound.toNat_number h mentioned lasts] at value
  have above : (k.recorder.next r.isLabel).toNat ≤ handle.toNat := by
    rw [← value]
    exact Nat.le_add_right _ _
  rw [BitVec.toNat_sub_of_le above, Nat.sub_add_cancel above]

/-- Two targets are alike for the references: they have recorded the same, and each reference is
bound on both to one number, or on neither. -/
structure AlikeOn (references : List Reference) (k k' : Linker) : Prop where
  recorder : k.recorder = k'.recorder
  bound : ∀ r ∈ references, k.bound? r = k'.bound? r

end Linker

theorem Recorder.eq_of_next {r r' : Recorder} (calls : r.calls = r'.calls)
    (codeSize : r.codeSize = r'.codeSize) (openRegions : r.openRegions = r'.openRegions)
    (next : ∀ kind, r.next kind = r'.next kind) : r = r' := by
  have labels : r.nextLabel = r'.nextLabel := next true
  have locals : r.nextLocal = r'.nextLocal := next false
  cases r
  cases r'
  simp_all only

namespace Linker

variable {k k' : Linker} {references : List Reference} {r : Reference}

theorem AlikeOn.resolve (h : AlikeOn references k k') (mentioned : r ∈ references) :
    AlikeOn references (k.resolve r).2 (k'.resolve r).2 := by
  have same := h.bound r mentioned
  cases known : k.bound? r with
  | some handle =>
    rw [known] at same
    rw [resolve_of_bound known, resolve_of_bound same.symm]
    exact h
  | none =>
    rw [known] at same
    have creates := (resolve_of_not_bound known).2
    have creates' := (resolve_of_not_bound same.symm).2
    constructor
    · apply Recorder.eq_of_next
      · rw [creates.calls, creates'.calls, h.recorder]
      · rw [creates.codeSize, creates'.codeSize, h.recorder]
      · rw [creates.openRegions, creates'.openRegions, h.recorder]
      · intro kind
        rw [creates.next, creates'.next, h.recorder]
    · intro other hr
      rw [creates.bound, creates'.bound, h.recorder, h.bound other hr]

theorem AlikeOn.resolveAll (h : AlikeOn references k k') {mentioned : List Reference}
    (inside : mentioned ⊆ references) :
    AlikeOn references (k.resolveAll mentioned) (k'.resolveAll mentioned) := by
  induction mentioned generalizing k k' with
  | nil => exact h
  | cons r mentioned ih =>
    obtain ⟨first, rest⟩ := List.cons_subset.mp inside
    exact ih (h.resolve first) rest

/-- The own call of a step has the same numbers on both. -/
theorem AlikeOn.link (h : AlikeOn references k k') {step : Step} (current : Opcodes)
    (inside : step.references ⊆ references) :
    AlikeOn references (k.link current step) (k'.link current step) := by
  have resolved := h.resolveAll inside
  have sends := link_sends current k step
  have sends' := link_sends current k' step
  have own : (step.ownCall? current fun r => ((k.resolveAll step.references).bound? r).getD 0)
      = step.ownCall? current fun r => ((k'.resolveAll step.references).bound? r).getD 0 := by
    apply Step.ownCall?_congr
    intro r hr
    rw [resolved.bound r (inside hr)]
  constructor
  · apply Recorder.eq_of_next
    · rw [sends.calls, sends'.calls, resolved.recorder, own]
    · rw [sends.codeSize, sends'.codeSize, resolved.recorder]
    · rw [sends.openRegions, sends'.openRegions, resolved.recorder]
    · intro kind
      rw [sends.next, sends'.next, resolved.recorder]
  · intro r hr
    rw [sends.bound, sends'.bound, resolved.bound r hr]

theorem AlikeOn.linkAll {steps : List Step} (h : AlikeOn references k k') (current : Opcodes)
    (inside : Step.allReferences steps ⊆ references) :
    AlikeOn references (k.linkAll current steps) (k'.linkAll current steps) := by
  induction steps generalizing k k' with
  | nil => exact h
  | cons step steps ih =>
    have both : step.references ⊆ references ∧ Step.allReferences steps ⊆ references := by
      rw [← List.append_subset]
      exact inside
    exact ih (h.link current both.1) both.2

/-- What is not bound to another target is not bound to it later. -/
theorem StaysOn.on?_eq_none (h : k.StaysOn k') {other : Nat} (apart : other ≠ k.target)
    (unbound : Binding.on? other (k.bindings.of r) = none) :
    Binding.on? other (k'.bindings.of r) = none := by
  cases known : Binding.on? other (k'.bindings.of r) with
  | none => rfl
  | some handle =>
    have before := h.others r ⟨other, handle⟩ apart (on?_eq_some known)
    rw [before, on?_same] at unbound
    cases unbound

end Linker

namespace Session

variable {s : Session} {id a b : Nat}

/-- A flush leaves the recorder of another target alone, and takes over the bindings. -/
theorem linker_flush_of_ne (s : Session) (id : Nat) (apart : a ≠ b) :
    (s.flush id a).2.linker b
      = ⟨b, ((s.linker a).linkAll s.opcodes (s.buffers id).steps).bindings, s.recorders b⟩ := by
  apply s.linker_setLinker_of_ne
  rw [Linker.target_linkAll]
  exact apart.symm

theorem recorders_flush_of_ne (s : Session) (id : Nat) (apart : a ≠ b) :
    (s.flush id a).2.recorders b = s.recorders b :=
  congrArg Linker.recorder (s.linker_flush_of_ne id apart)

/-- A flush binds nothing to another target. -/
theorem unbound_flush_of_ne (apart : a ≠ b) {references : List Reference}
    (h : (s.linker b).Unbound references) :
    ((s.flush id a).2.linker b).Unbound references := by
  have stays := Linker.staysOn_act (s.linker a) (.send s.opcodes (s.buffers id).steps)
  intro r mentioned
  have before := h r mentioned
  rw [Linker.bound?_eq] at before
  rw [linker_flush_of_ne s id apart, Linker.bound?_eq]
  exact stays.on?_eq_none apart.symm before

/-- Flushes into targets that are alike for what the buffer mentions leave the same record. -/
theorem recorders_flush_of_alike {t : Session} (opcodes : t.opcodes = s.opcodes)
    (steps : (t.buffers id).steps = (s.buffers id).steps)
    (h : Linker.AlikeOn (Step.allReferences (s.buffers id).steps) (s.linker a) (t.linker b)) :
    (s.flush id a).2.recorders a = (t.flush id b).2.recorders b := by
  have sent := h.linkAll s.opcodes (List.Subset.refl _)
  have first := s.linker_flush id a
  have second := t.linker_flush id b
  rw [opcodes, steps] at second
  calc (s.flush id a).2.recorders a
      = ((s.linker a).linkAll s.opcodes (s.buffers id).steps).recorder :=
        congrArg Linker.recorder first
    _ = ((t.linker b).linkAll s.opcodes (s.buffers id).steps).recorder := sent.recorder
    _ = (t.flush id b).2.recorders b := (congrArg Linker.recorder second).symm

/-- A buffer is flushed into a target and then into another one, and what it mentions is bound to
neither at the beginning. The text is the same both times, and so are the calls, once the next
numbers that each target had at the beginning are subtracted; that is to subtract natural numbers,
unless the numbers of a target run out. Two targets that have recorded the same, as new ones have,
end with the same calls, bytes, next numbers and open regions. -/
theorem flush_twice_renumbered (apart : a ≠ b)
    (unbound : ∀ r ∈ Step.allReferences (s.buffers id).steps,
      (s.linker a).bound? r = none ∧ (s.linker b).bound? r = none) :
    let between := (s.flush id a).2
    let after := (between.flush id b).2
    (between.flush id b).1 = (s.flush id a).1 ∧
      (∃ first second,
        (after.recorders a).calls = (s.recorders a).calls ++ first ∧
          (after.recorders b).calls = (s.recorders b).calls ++ second ∧
          first.map (s.recorders a).lower = second.map (s.recorders b).lower ∧
          (s.recorders a).CountsUp first ∧ (s.recorders b).CountsUp second) ∧
      (s.recorders a = s.recorders b → after.recorders a = after.recorders b) := by
  intro between after
  have unbound_a : (s.linker a).Unbound (Step.allReferences (s.buffers id).steps) :=
    fun r mentioned => (unbound r mentioned).1
  have unbound_b : (between.linker b).Unbound (Step.allReferences (s.buffers id).steps) :=
    unbound_flush_of_ne apart fun r mentioned => (unbound r mentioned).2
  have kept_a : after.recorders a = between.recorders a :=
    between.recorders_flush_of_ne id apart.symm
  have kept_b : between.recorders b = s.recorders b := s.recorders_flush_of_ne id apart
  refine ⟨rfl, ?_, ?_⟩
  · have lower_a := unbound_a.lower_directCalls s.opcodes
    have lower_b := unbound_b.lower_directCalls s.opcodes
    have up_a := unbound_a.countsUp s.opcodes
    have up_b := unbound_b.countsUp s.opcodes
    change List.map (between.recorders b).lower _ = _ at lower_b
    change (between.recorders b).CountsUp _ at up_b
    rw [kept_b] at lower_b up_b
    refine ⟨_, _, ?_, ?_, lower_a.trans lower_b.symm, up_a, up_b⟩
    · rw [kept_a]
      exact (s.after_flush id a).2
    · rw [← kept_b]
      exact (between.after_flush id b).2
  · intro same
    have start : Linker.AlikeOn (Step.allReferences (s.buffers id).steps) (s.linker a)
        (between.linker b) := by
      constructor
      · exact same.trans kept_b.symm
      · intro r mentioned
        rw [unbound_a r mentioned, unbound_b r mentioned]
    rw [kept_a]
    exact recorders_flush_of_alike rfl rfl start

/-- A region, a label and a local are mentioned by a table and by other steps, and are all bound to
a third target. One target has given out two labels and a local by then, and has a region open. -/
def startedTarget : List Operation :=
  [.newBuffer none, .newRecorder, .newRecorder, .newRecorder, .request 1 .defineLabel,
    .request 1 (.declareLocal (.value "System.Int32")), .request 1 .beginException,
    .emit 0 .beginException, .emit 0 (.defineLabel "exit"),
    .emit 0 (.declareLocal "n" 0 (.value "System.Int32")),
    .emit 0 (.switch .switch
      [⟨5, "exit", .plain⟩, ⟨4, "block_end_0", .blockEnd⟩, ⟨5, "exit", .plain⟩]),
    .emit 0 (.step (.access .stloc ⟨6, "n", 0, .value "System.Int32"⟩)),
    .emit 0 (.step .endException), .emit 0 (.step (.markLabel ⟨5, "exit", .plain⟩)), .flush 0 3]

/-- The calls on a target that goes on with these numbers. -/
def tableCalls (label : LabelHandle) (localVar : LocalHandle) : List Call :=
  [.beginException label, .defineLabel (label + 1),
    .declareLocal (.value "System.Int32") localVar,
    .instruction .switch (.labels [label + 1, label, label + 1]),
    .instruction .stloc (.localVar localVar), .endException, .markLabel (label + 1)]

theorem startedTarget_renumbered :
    let s := (new.run startedTarget).2
    let after := ((s.flush 0 1).2.flush 0 2).2
    (∀ r ∈ Step.allReferences (s.buffers 0).steps,
      (s.linker 1).bound? r = none ∧ (s.linker 2).bound? r = none) ∧
      ((s.flush 0 1).2.flush 0 2).1 = (s.flush 0 1).1 ∧
      (after.recorders 1).calls = (s.recorders 1).calls ++ tableCalls 2 1 ∧
      (after.recorders 2).calls = (s.recorders 2).calls ++ tableCalls 0 0 ∧
      (tableCalls 2 1).map (s.recorders 1).lower = (tableCalls 0 0).map (s.recorders 2).lower ∧
      (s.recorders 1).CountsUp (tableCalls 2 1) := by
  intro s after
  have unbound : ∀ r ∈ Step.allReferences (s.buffers 0).steps,
      (s.linker 1).bound? r = none ∧ (s.linker 2).bound? r = none := by decide
  have sent : (after.recorders 1).calls = (s.recorders 1).calls ++ tableCalls 2 1 := by decide
  have sent' : (after.recorders 2).calls = (s.recorders 2).calls ++ tableCalls 0 0 := by decide
  obtain ⟨text, ⟨first, second, calls, calls', lowered, up, -⟩, -⟩ :=
    flush_twice_renumbered (by decide : 1 ≠ 2) unbound
  obtain rfl := List.append_cancel_left (calls.symm.trans sent)
  obtain rfl := List.append_cancel_left (calls'.symm.trans sent')
  exact ⟨unbound, text, sent, sent', lowered, up⟩

end Session

end CilBuffer
