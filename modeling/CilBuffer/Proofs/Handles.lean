import CilBuffer.Proofs.Activities

/-!
# The numbers that a target gives out

A target numbers its labels from zero without a gap, the ends of regions among them, and its locals
likewise. A reference that is bound to a target has been created there, by a call of its own kind.
This holds after every run, however often references are bound to other targets and back, and
whatever is asked of the targets directly. After the last number of a kind a target goes on with
zero; until then no two references of the kind share a number.
-/

namespace CilBuffer

/-- The number of the given kind that the call creates. The end of a region is a label. -/
def Call.created? : (isLabel : Bool) → Call → Option (Handle isLabel)
  | true, .defineLabel handle | true, .beginException handle => some handle
  | false, .declareLocal _ handle => some handle
  | _, _ => none

theorem Reference.created?_creation (r : Reference) (number : Handle r.isLabel) :
    (r.creation number).created? r.isLabel = some number := by
  obtain ⟨serial, name, origin⟩ | localVar := r
  · cases origin <;> rfl
  · rfl

theorem Reference.created?_creation_of_ne {r : Reference} {kind : Bool} (h : r.isLabel ≠ kind)
    (number : Handle r.isLabel) : (r.creation number).created? kind = none := by
  obtain ⟨serial, name, origin⟩ | localVar := r
  · cases origin <;> cases kind <;> first | rfl | exact absurd rfl h
  · cases kind <;> first | rfl | exact absurd rfl h

theorem Step.created?_ownCall? {current : Opcodes} {number : Numbering} {step : Step}
    {call : Call} (h : step.ownCall? current number = some call) (kind : Bool) :
    call.created? kind = none := by
  cases step <;> cases h <;> cases kind <;> rfl

/-- Words count like natural numbers as far as their width goes. -/
theorem map_toNat_range {width count : Nat} (fits : count ≤ 2 ^ width) :
    ((List.range count).map (BitVec.ofNat width)).map BitVec.toNat = List.range count := by
  have small : ∀ i ∈ List.range count, (BitVec.ofNat width i).toNat = i := by
    intro i before
    rw [BitVec.toNat_ofNat]
    exact Nat.mod_eq_of_lt (Nat.lt_of_lt_of_le (List.mem_range.mp before) fits)
  rw [List.map_map]
  exact (List.map_congr_left small).trans (List.map_id _)

namespace Recorder

variable {r r' : Recorder} {call : Call} {kind : Bool}

/-- The numbers of one kind that have been created, in the order of the calls. -/
def numbers (r : Recorder) (isLabel : Bool) : List (Handle isLabel) :=
  r.calls.filterMap (·.created? isLabel)

/-- No more numbers of the kind have been given out than there are. -/
def Fits (r : Recorder) (isLabel : Bool) : Prop :=
  (r.numbers isLabel).length ≤ 2 ^ handleWidth isLabel

/-- The numbers count up from zero and start over after the last, and the next one is yet to
come. -/
structure Numbered (r : Recorder) : Prop where
  numbers : ∀ isLabel,
    r.numbers isLabel = (List.range (r.numbers isLabel).length).map (BitVec.ofNat _)
  next : ∀ isLabel, r.next isLabel = .ofNat _ (r.numbers isLabel).length

/-- One call has been recorded. What it creates has the next number of its kind. -/
structure Records (r : Recorder) (call : Call) (r' : Recorder) : Prop where
  calls : r'.calls = r.calls ++ [call]
  next : ∀ kind, (call.created? kind = none ∧ r'.next kind = r.next kind) ∨
    (call.created? kind = some (r.next kind) ∧ r'.next kind = r.next kind + 1)

/-- The call that is recorded for a request. -/
def callFor (r : Recorder) : Request → Call
  | .instruction op operand => .instruction op operand
  | .beginException => .beginException r.nextLabel
  | .beginCatch exception => .beginCatch exception
  | .beginFinally => .beginFinally
  | .endException => .endException
  | .defineLabel => .defineLabel r.nextLabel
  | .markLabel handle => .markLabel handle
  | .declareLocal type => .declareLocal type r.nextLocal

theorem records_perform (r : Recorder) (request : Request) :
    r.Records (r.callFor request) (r.perform request).2 := by
  cases request <;> refine ⟨rfl, ?_⟩ <;> intro kind <;> cases kind <;>
    first
      | exact .inl ⟨rfl, rfl⟩
      | exact .inr ⟨rfl, rfl⟩

theorem Records.numbers (h : r.Records call r') (kind : Bool) :
    r'.numbers kind = r.numbers kind ++ (call.created? kind).toList := by
  unfold Recorder.numbers
  rw [h.calls, List.filterMap_append]
  cases created : call.created? kind <;> simp [created]

theorem numbered_new : new.Numbered := by
  constructor <;> intro kind <;> cases kind <;> rfl

theorem Numbered.records (h : r.Numbered) (records : r.Records call r') : r'.Numbered := by
  constructor
  · intro kind
    rw [records.numbers]
    obtain ⟨created, -⟩ | ⟨created, -⟩ := records.next kind
    · rw [created, Option.toList_none, List.append_nil]
      exact h.numbers kind
    · rw [created, Option.toList_some, List.length_append, List.length_singleton, List.range_succ,
        List.map_append, ← h.numbers kind, h.next kind]
      rfl
  · intro kind
    rw [records.numbers]
    obtain ⟨created, next⟩ | ⟨created, next⟩ := records.next kind
    · rw [created, next, Option.toList_none, List.append_nil]
      exact h.next kind
    · rw [created, next, Option.toList_some, List.length_append, List.length_singleton,
        BitVec.ofNat_add, h.next kind]
      rfl

/-- While there are numbers left, those that have been given out are below the next one. -/
theorem Numbered.lt_next (h : r.Numbered)
    (left : (r.numbers kind).length < 2 ^ handleWidth kind) {handle : Handle kind}
    (given : handle ∈ r.numbers kind) : handle.toNat < (r.next kind).toNat := by
  rw [h.numbers kind] at given
  obtain ⟨i, before, rfl⟩ := List.mem_map.mp given
  have inside : i < (r.numbers kind).length := List.mem_range.mp before
  rw [h.next kind, BitVec.toNat_ofNat, BitVec.toNat_ofNat, Nat.mod_eq_of_lt left,
    Nat.mod_eq_of_lt (Nat.lt_trans inside left)]
  exact inside

/-- Exactly as long as the numbers last, they are the natural numbers from zero. -/
theorem Numbered.toNat_numbers_iff (h : r.Numbered) :
    (r.numbers kind).map BitVec.toNat = List.range (r.numbers kind).length ↔ r.Fits kind := by
  constructor
  · intro counted
    refine Nat.le_of_not_lt fun exceeds => ?_
    have reached : 2 ^ handleWidth kind ∈ (r.numbers kind).map BitVec.toNat := by
      rw [counted]
      exact List.mem_range.mpr exceeds
    obtain ⟨handle, -, beyond⟩ := List.mem_map.mp reached
    exact absurd handle.isLt (Nat.not_lt.mpr (Nat.le_of_eq beyond.symm))
  · intro fits
    exact (congrArg (List.map BitVec.toNat) (h.numbers kind)).trans (map_toNat_range fits)

theorem Fits.of_calls (fits : r'.Fits kind) (grow : r.calls <+: r'.calls) : r.Fits kind :=
  Nat.le_trans (grow.filterMap _).length_le fits

/-- If the numbers last when one is created, there was one left. -/
theorem Records.left (h : r.Records call r') {handle : Handle kind}
    (creates : call.created? kind = some handle) (fits : r'.Fits kind) :
    (r.numbers kind).length < 2 ^ handleWidth kind := by
  unfold Fits at fits
  rw [h.numbers, creates, Option.toList_some, List.length_append, List.length_singleton] at fits
  exact fits

end Recorder

namespace Linker

variable {k k' : Linker} {r : Reference}

theorem Creates.records (h : k.Creates r k') :
    k.recorder.Records (r.creation (k.recorder.next r.isLabel)) k'.recorder := by
  constructor
  · exact h.calls
  · intro kind
    rw [h.next]
    by_cases same : r.isLabel = kind
    · subst same
      right
      exact ⟨r.created?_creation _, if_pos rfl⟩
    · left
      exact ⟨Reference.created?_creation_of_ne same _, if_neg same⟩

/-- The target numbers without a gap, and each reference that is bound to it has been created by a
call of its own kind. As long as the numbers last, each has one of its own. -/
structure Accounted (k : Linker) : Prop where
  numbered : k.recorder.Numbered
  made : ∀ r handle, k.bound? r = some handle → r.creation handle ∈ k.recorder.calls
  apart : ∀ r other, r.isLabel = other.isLabel → k.recorder.Fits r.isLabel →
    ∀ handle handle', k.bound? r = some handle → k.bound? other = some handle' →
      handle.toNat = handle'.toNat → r = other

/-- A number that is bound has been given out. -/
theorem Accounted.given (h : k.Accounted) {handle : Handle r.isLabel}
    (bound : k.bound? r = some handle) : handle ∈ k.recorder.numbers r.isLabel :=
  List.mem_filterMap.mpr ⟨_, h.made r handle bound, r.created?_creation handle⟩

/-- More calls do no harm, as long as the numbering goes on, and neither does it to bind less. -/
theorem Accounted.extend (h : k.Accounted) (numbered : k'.recorder.Numbered)
    (calls : k.recorder.calls <+: k'.recorder.calls)
    (fewer : ∀ r handle, k'.bound? r = some handle → k.bound? r = some handle) :
    k'.Accounted := by
  refine ⟨numbered, ?_, ?_⟩
  · intro r handle bound
    exact calls.subset (h.made r handle (fewer r handle bound))
  · intro r other kind fits handle handle' first second
    exact h.apart r other kind (fits.of_calls calls) handle handle' (fewer r handle first)
      (fewer other handle' second)

/-- If there was a number left for what is created, it is that of no reference before. -/
theorem Accounted.ne_next (h : k.Accounted) (creates : k.Creates r k')
    (fits : k'.recorder.Fits r.isLabel) {x : Reference} (kind : x.isLabel = r.isLabel)
    {handle : Handle x.isLabel} (bound : k.bound? x = some handle) :
    handle.toNat ≠ (k.recorder.next r.isLabel).toNat := by
  have left := creates.records.left (r.created?_creation _) fits
  rw [← kind] at left ⊢
  exact Nat.ne_of_lt (h.numbered.lt_next left (h.given bound))

theorem Accounted.create (h : k.Accounted) (creates : k.Creates r k') : k'.Accounted := by
  have records := creates.records
  refine ⟨h.numbered.records records, ?_, ?_⟩
  · intro x handle bound
    rw [creates.bound] at bound
    rw [records.calls]
    split at bound
    · rename_i same
      subst same
      cases bound
      exact List.mem_append_right _ (List.mem_singleton_self _)
    · exact List.mem_append_left _ (h.made x handle bound)
  · intro x y kind fits handle handle' first second same
    rw [creates.bound] at first second
    split at first <;> split at second
    · rename_i hx hy
      rw [hx, hy]
    · rename_i hx hy
      subst hx
      cases first
      exact absurd same.symm (h.ne_next creates fits kind.symm second)
    · rename_i hx hy
      subst hy
      cases second
      exact absurd same (h.ne_next creates (kind ▸ fits) kind first)
    · have calls : k.recorder.calls <+: k'.recorder.calls := ⟨_, records.calls.symm⟩
      exact h.apart x y kind (fits.of_calls calls) handle handle' first second same

theorem Accounted.resolve (h : k.Accounted) (r : Reference) : (k.resolve r).2.Accounted := by
  cases known : k.bound? r with
  | some handle =>
    rw [resolve_of_bound known]
    exact h
  | none => exact h.create (resolve_of_not_bound known).2

theorem Accounted.resolveAll (h : k.Accounted) (references : List Reference) :
    (k.resolveAll references).Accounted :=
  resolveAll_preserves (fun _ r accounted => accounted.resolve r) h references

/-- The own call of a step creates nothing. -/
theorem Accounted.send {current : Opcodes} {step : Step} (h : k.Accounted)
    (sends : Sends current k step k') : k'.Accounted := by
  have same : ∀ kind, k'.recorder.numbers kind = k.recorder.numbers kind := by
    intro kind
    unfold Recorder.numbers
    rw [sends.calls, List.filterMap_append]
    cases own : step.ownCall? current fun r => (k.bound? r).getD 0 with
    | none => simp
    | some call => simp [Step.created?_ownCall? own]
  apply h.extend
  · constructor
    · intro kind
      rw [same]
      exact h.numbered.numbers kind
    · intro kind
      rw [sends.next, same]
      exact h.numbered.next kind
  · rw [sends.calls]
    exact List.prefix_append _ _
  · intro r handle bound
    rw [← sends.bound]
    exact bound

theorem Accounted.link (h : k.Accounted) (current : Opcodes) (step : Step) :
    (k.link current step).Accounted :=
  (h.resolveAll step.references).send (link_sends current k step)

theorem Accounted.linkAll (h : k.Accounted) (current : Opcodes) (steps : List Step) :
    (k.linkAll current steps).Accounted :=
  linkAll_preserves (fun _ step accounted => accounted.link current step) h steps

theorem Accounted.act (h : k.Accounted) (a : Activity) : (k.act a).Accounted := by
  cases a with
  | resolve r => exact h.resolve r
  | send current steps => exact h.linkAll current steps
  | receive request =>
    have records := k.recorder.records_perform request
    apply h.extend
    · exact h.numbered.records records
    · show k.recorder.calls <+: (k.recorder.perform request).2.calls
      rw [records.calls]
      exact List.prefix_append _ _
    · intro r handle bound
      cases r <;> exact bound

/-- A target stays accounted for when a reference is bound to another one instead. -/
theorem Accounted.lose (h : k.Accounted) {b : Bindings}
    (fewer : ∀ r handle, b.of r = some ⟨k.target, handle⟩ →
      k.bindings.of r = some ⟨k.target, handle⟩) : Accounted { k with bindings := b } := by
  apply h.extend
  · exact h.numbered
  · exact List.prefix_refl _
  · intro r handle bound
    rw [bound?_eq_some_iff] at bound ⊢
    exact fewer r handle bound

end Linker

namespace Session

theorem accounted_new (target : Nat) : (new.linker target).Accounted := by
  refine ⟨Recorder.numbered_new, ?_, ?_⟩
  · intro r handle bound
    cases r <;> cases bound
  · intro r other _ _ handle _ bound
    cases r <;> cases bound

theorem accounted_perform {s : Session} (h : ∀ target, (s.linker target).Accounted)
    (o : Operation) (target : Nat) : ((s.perform o).2.linker target).Accounted := by
  apply linkers_perform (P := Linker.Accounted) (Q := fun _ => True)
  · intro k a _ accounted
    exact accounted.act a
  · intro k b fewer accounted
    exact accounted.lose fewer
  · intro _ _ _
    trivial
  · exact h

theorem accounted_run (operations : List Operation) (target : Nat) :
    ((new.run operations).2.linker target).Accounted := by
  revert target
  apply run_preserves_of_forall (C := fun _ => True)
    (P := fun s => ∀ target, (s.linker target).Accounted)
  · intro o s _ h
    exact accounted_perform h o
  · intro _ _
    trivial
  · exact accounted_new

/-- After every run, a target has given out the numbers of each kind from zero without a gap, and has
started over only if there were no more. What is bound to it has been created there, by a call of its
own kind. As long as the numbers of a kind last, no two labels and no two locals that are bound to
the target have one number. -/
theorem run_handles (operations : List Operation) (target : Nat) :
    let s := (new.run operations).2
    let calls := (s.recorders target).calls
    (∀ isLabel,
      let numbers := calls.filterMap (·.created? isLabel)
      numbers = (List.range numbers.length).map (BitVec.ofNat _) ∧
        (s.recorders target).next isLabel = .ofNat _ numbers.length ∧
        (numbers.map BitVec.toNat = List.range numbers.length ↔
          (s.recorders target).Fits isLabel)) ∧
      (∀ r handle, s.bindings.of r = some ⟨target, handle⟩ → r.creation handle ∈ calls) ∧
      ∀ r other handle handle', r ≠ other → r.isLabel = other.isLabel →
        (s.recorders target).Fits r.isLabel →
        s.bindings.of r = some ⟨target, handle⟩ → s.bindings.of other = some ⟨target, handle'⟩ →
        handle.toNat ≠ handle'.toNat := by
  have accounted := accounted_run operations target
  have numbered := accounted.numbered
  refine ⟨?_, ?_, ?_⟩
  · intro isLabel
    exact ⟨numbered.numbers isLabel, numbered.next isLabel, numbered.toNat_numbers_iff⟩
  · intro r handle bound
    exact accounted.made r handle (Linker.bound?_eq_some_iff.mpr bound)
  · intro r other handle handle' ne kind fits first second same
    exact ne (accounted.apart r other kind fits handle handle'
      (Linker.bound?_eq_some_iff.mpr first) (Linker.bound?_eq_some_iff.mpr second) same)

/-- A label is bound to one target, to another, and to the first again, where a label without an
owner, the end of a region and a local are created too. -/
def returningLabel : List Operation :=
  [.newLabel "exit", .newBlock "end", .newLocal "n" 0 (.value "System.Int32"), .newRecorder,
    .newRecorder, .request 3 .defineLabel, .resolveLabel ⟨0, "exit", .plain⟩ 3,
    .resolveLabel ⟨0, "exit", .plain⟩ 4, .resolveLabel ⟨1, "end", .blockEnd⟩ 3,
    .resolveLabel ⟨0, "exit", .plain⟩ 3,
    .replay (.declareLocal ⟨2, "n", 0, .value "System.Int32"⟩) (some 3)]

theorem returningLabel_handles :
    ((new.run returningLabel).2.recorders 3).calls
        = [.defineLabel 0, .defineLabel 1, .beginException 2, .defineLabel 3,
          .declareLocal (.value "System.Int32") 0] ∧
      ((new.run returningLabel).2.recorders 3).Fits true ∧
      Call.beginException 2 ∈ ((new.run returningLabel).2.recorders 3).calls ∧
      (∀ handle handle',
        (new.run returningLabel).2.bindings.of (.label ⟨0, "exit", .plain⟩) = some ⟨3, handle⟩ →
        (new.run returningLabel).2.bindings.of (.label ⟨1, "end", .blockEnd⟩) = some ⟨3, handle'⟩ →
        handle.toNat ≠ handle'.toNat) ∧
      (new.run returningLabel).2.bindings.of (.label ⟨0, "exit", .plain⟩) = some ⟨3, 3⟩ := by
  have calls : ((new.run returningLabel).2.recorders 3).calls
      = [.defineLabel 0, .defineLabel 1, .beginException 2, .defineLabel 3,
        .declareLocal (.value "System.Int32") 0] := by decide
  have fits : ((new.run returningLabel).2.recorders 3).Fits true := by
    unfold Recorder.Fits Recorder.numbers
    rw [calls]
    decide
  obtain ⟨-, made, apart⟩ := run_handles returningLabel 3
  refine ⟨calls, fits, ?_, ?_, by decide⟩
  · exact made (.label ⟨1, "end", .blockEnd⟩) 2 (by decide)
  · intro handle handle' first second
    exact apart (.label ⟨0, "exit", .plain⟩) (.label ⟨1, "end", .blockEnd⟩) handle handle'
      (by decide) rfl fits first second

end Session

end CilBuffer
