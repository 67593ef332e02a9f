import CilBuffer.Proofs.CommutingFlushes
import CilBuffer.Proofs.GrowingCalls

/-!
# The resolutions of a run

A reference is resolved when it is asked for, and when a step that mentions it is sent to a target.
The targets of its resolutions fall into stretches of equal ones. The first resolution of a stretch
creates the reference on the target, and the others return the number that it was created with,
whatever else the targets are asked in the meantime. The end of a region is resolved as a label, be
it through the region or by itself. A number is new to the target as long as the numbers last.
-/

namespace CilBuffer

/-- A reference is resolved on a target. -/
structure Resolution where
  reference : Reference
  target : Nat
  /-- The session that the resolution meets. -/
  before : Session

namespace Resolution

variable {x : Resolution} {r : Reference} {handle : Handle r.isLabel}

/-- The number of a reference that is resolved there. The resolution returns that of its own. -/
def number (x : Resolution) (r : Reference) : Handle r.isLabel :=
  ((x.before.linker x.target).resolve r).1

def after (x : Resolution) : Session :=
  x.before.setLinker ((x.before.linker x.target).resolve x.reference).2

/-- What a reference that is resolved there is bound to afterwards. -/
def binding (x : Resolution) (r : Reference) : Binding r.isLabel := ⟨x.target, x.number r⟩

/-- The reference has been created, by one call on the target. As long as the numbers last, the
target has given the number to nothing of the kind before. No other target has been called. -/
structure Creates (x : Resolution) : Prop where
  calls : (x.after.recorders x.target).calls
    = (x.before.recorders x.target).calls ++ [x.reference.creation (x.number x.reference)]
  others : ∀ other, other ≠ x.target → x.after.recorders other = x.before.recorders other
  fresh : (x.after.recorders x.target).Fits x.reference.isLabel →
    ∀ call ∈ (x.before.recorders x.target).calls,
      call.created? x.reference.isLabel ≠ some (x.number x.reference)

theorem target_resolve (x : Resolution) :
    ((x.before.linker x.target).resolve x.reference).2.target = x.target :=
  (Linker.staysOn_resolve (x.before.linker x.target) x.reference).target

theorem linker_after (x : Resolution) :
    x.after.linker x.target = ((x.before.linker x.target).resolve x.reference).2 :=
  x.before.linker_setLinker_of_target x.target_resolve

theorem of_after (x : Resolution) :
    x.after.bindings.of x.reference = some (x.binding x.reference) := by
  have bound := Linker.bound?_resolve (x.before.linker x.target) x.reference
  rw [Linker.bound?_eq_some_iff, x.target_resolve] at bound
  exact bound

/-- A resolution on the target that the reference is bound to returns the number, and does nothing
else. -/
theorem of_bound (own : x.reference = r)
    (h : x.before.bindings.of r = some ⟨x.target, handle⟩) :
    x.number r = handle ∧ x.after = x.before := by
  subst own
  have bound : (x.before.linker x.target).bound? x.reference = some handle :=
    Linker.bound?_eq_some_iff.mpr h
  have resolved := Linker.resolve_of_bound bound
  constructor
  · rw [number, resolved]
  · rw [after, resolved, Session.setLinker_linker]

/-- Any other resolution creates the reference. -/
theorem creates_of_not_bound (numbered : (x.before.recorders x.target).Numbered)
    (h : ∀ handle, x.before.bindings.of x.reference ≠ some ⟨x.target, handle⟩) : x.Creates := by
  have free : (x.before.linker x.target).bound? x.reference = none := by
    rw [Option.eq_none_iff_forall_ne_some]
    intro handle bound
    exact h handle (Linker.bound?_eq_some_iff.mp bound)
  obtain ⟨number, creates⟩ := Linker.resolve_of_not_bound free
  have recorder : x.after.recorders x.target
      = ((x.before.linker x.target).resolve x.reference).2.recorder :=
    congrArg Linker.recorder x.linker_after
  have next : x.number x.reference
      = (x.before.recorders x.target).next x.reference.isLabel := number
  constructor
  · rw [recorder, creates.calls, next]
    rfl
  · intro other ne
    rw [← x.target_resolve] at ne
    exact assign_of_ne _ _ ne
  · intro fits call made created
    have given : x.number x.reference
        ∈ (x.before.recorders x.target).numbers x.reference.isLabel :=
      List.mem_filterMap.mpr ⟨call, made, created⟩
    rw [recorder] at fits
    have left := creates.records.left (x.reference.created?_creation _) fits
    have below := numbered.lt_next left given
    rw [next] at below
    exact Nat.lt_irrefl _ below

end Resolution

namespace Session

/-- The references are resolved on the target one after the other. -/
def resolutions (s : Session) (target : Nat) : List Reference → List Resolution
  | [] => []
  | r :: references =>
    let x : Resolution := ⟨r, target, s⟩
    x :: x.after.resolutions target references

/-- The steps are sent to the target one after the other. -/
def stepResolutions (s : Session) (current : Opcodes) (target : Nat) :
    List Step → List Resolution
  | [] => []
  | step :: steps =>
    s.resolutions target step.references
      ++ (s.setLinker ((s.linker target).link current step)).stepResolutions current target steps

/-- The resolutions of one operation, in order. -/
def resolutionsIn (s : Session) (o : Operation) : List Resolution :=
  match s.activity? o with
  | some (target, .resolve r) => s.resolutions target [r]
  | some (target, .send current steps) => s.stepResolutions current target steps
  | _ => []

/-- The resolutions of all operations of a run, in order. -/
def runResolutions (s : Session) : List Operation → List Resolution
  | [] => []
  | o :: operations => s.resolutionsIn o ++ (s.perform o).2.runResolutions operations

/-- The resolutions of one reference in a run, in order. -/
def resolutionsOf (s : Session) (r : Reference) (operations : List Operation) : List Resolution :=
  (s.runResolutions operations).filter (·.reference = r)

end Session

/-- The resolutions of the reference from one binding of it to another. Each meets the binding that
the one before it has left. -/
inductive Settles (r : Reference) :
    Option (Binding r.isLabel) → List Resolution → Option (Binding r.isLabel) → Prop
  | nil (b : Option (Binding r.isLabel)) : Settles r b [] b
  | cons {x : Resolution} {xs : List Resolution} {b : Option (Binding r.isLabel)}
      (own : x.reference = r) (accounted : ∀ target, (x.before.linker target).Accounted)
      (rest : Settles r (some (x.binding r)) xs b) : Settles r (x.before.bindings.of r) (x :: xs) b

namespace Settles

variable {r : Reference} {b b' b'' : Option (Binding r.isLabel)} {xs ys : List Resolution}
  {x y : Resolution} {n : Nat}

theorem append (h : Settles r b xs b') (h' : Settles r b' ys b'') :
    Settles r b (xs ++ ys) b'' := by
  induction h with
  | nil b => exact h'
  | cons own accounted rest ih => exact .cons own accounted (ih h')

theorem getElem? (h : Settles r b xs b') (at_n : xs[n]? = some x) :
    x.reference = r ∧ ∀ target, (x.before.linker target).Accounted := by
  induction h generalizing n with
  | nil b => cases at_n
  | cons own accounted rest ih =>
    cases n with
    | zero =>
      cases at_n
      exact ⟨own, accounted⟩
    | succ n => exact ih at_n

theorem getElem?_zero (h : Settles r b xs b') (first : xs[0]? = some x) :
    x.before.bindings.of r = b := by
  cases h with
  | nil b => cases first
  | cons own accounted rest =>
    cases first
    rfl

/-- By induction on the resolutions, as the binding that one leaves is met by the next. -/
theorem getElem?_succ (h : Settles r b xs b') (at_n : xs[n]? = some x)
    (next : xs[n + 1]? = some y) : y.before.bindings.of r = some (x.binding r) := by
  induction h generalizing n with
  | nil b => cases at_n
  | cons own accounted rest ih =>
    cases n with
    | zero =>
      cases at_n
      exact rest.getElem?_zero next
    | succ n => exact ih at_n next

theorem last (h : Settles r b xs b') : b' = (xs.getLast?.map (·.binding r)).or b := by
  induction h with
  | nil b => rfl
  | @cons x xs b own accounted rest ih =>
    rw [ih, List.getLast?_cons]
    cases xs.getLast? <;> rfl

end Settles

/-! ### Stretches of equal targets -/

/-- The target at the position is the first, or differs from the one before it. -/
def StartsStretch (targets : List Nat) (n : Nat) : Prop :=
  n = 0 ∨ targets[n - 1]? ≠ targets[n]?

/-- The stretch of equal targets that the position belongs to starts at `start`. -/
structure InStretch (targets : List Nat) (start n : Nat) : Prop where
  le : start ≤ n
  starts : StartsStretch targets start
  equal : ∀ m, start ≤ m → m ≤ n → targets[m]? = targets[n]?

namespace Settles

variable {r : Reference} {b' : Option (Binding r.isLabel)} {xs : List Resolution}
  {x y : Resolution} {n : Nat}

theorem of_starts (h : Settles r none xs b') (at_n : xs[n]? = some x)
    (starts : StartsStretch (xs.map (·.target)) n) : x.Creates := by
  obtain ⟨rfl, accounted⟩ := h.getElem? at_n
  apply Resolution.creates_of_not_bound (accounted x.target).numbered
  intro handle bound
  cases n with
  | zero =>
    rw [h.getElem?_zero at_n] at bound
    cases bound
  | succ n =>
    have inside := (List.getElem?_eq_some_iff.mp at_n).1
    have before : xs[n]? = some xs[n] := List.getElem?_eq_getElem (by omega)
    rw [h.getElem?_succ before at_n, Option.some.injEq] at bound
    have same : xs[n].target = x.target := congrArg Binding.target bound
    obtain zero | differs := starts
    · cases zero
    · simp [at_n, before, same] at differs

/-- Within a stretch a resolution meets what the one before it has left bound to the target. -/
theorem of_not_starts (h : Settles r none xs b') (at_n : xs[n]? = some x)
    (inner : ¬ StartsStretch (xs.map (·.target)) n) :
    ∃ m y, m + 1 = n ∧ xs[m]? = some y ∧ y.target = x.target ∧ x.number r = y.number r ∧
      x.after = x.before := by
  obtain ⟨own, -⟩ := h.getElem? at_n
  cases n with
  | zero => exact absurd (.inl rfl) inner
  | succ n =>
    have inside := (List.getElem?_eq_some_iff.mp at_n).1
    have before : xs[n]? = some xs[n] := List.getElem?_eq_getElem (by omega)
    have same : xs[n].target = x.target := by
      by_contra ne
      refine inner (.inr ?_)
      simpa [at_n, before] using ne
    have bound : x.before.bindings.of r = some ⟨x.target, xs[n].number r⟩ := by
      rw [h.getElem?_succ before at_n, ← same]
      rfl
    exact ⟨n, xs[n], rfl, before, same, Resolution.of_bound own bound⟩

/-- By induction on the position, back to the start of the stretch. -/
theorem exists_start (h : Settles r none xs b') (at_n : xs[n]? = some x) :
    ∃ start y, InStretch (xs.map (·.target)) start n ∧ xs[start]? = some y ∧
      x.number r = y.number r := by
  induction n generalizing x with
  | zero =>
    refine ⟨0, x, ⟨Nat.le_refl 0, .inl rfl, ?_⟩, at_n, rfl⟩
    intro m _ le
    rw [Nat.le_zero.mp le]
  | succ n ih =>
    by_cases starts : StartsStretch (xs.map (·.target)) (n + 1)
    · refine ⟨n + 1, x, ⟨Nat.le_refl _, starts, ?_⟩, at_n, rfl⟩
      intro m after before
      rw [Nat.le_antisymm before after]
    · obtain ⟨m, y, position, at_m, same, number, -⟩ := h.of_not_starts at_n starts
      obtain rfl : m = n := Nat.succ.inj position
      obtain ⟨start, z, stretch, at_start, earlier⟩ := ih at_m
      refine ⟨start, z, ⟨Nat.le_succ_of_le stretch.le, stretch.starts, ?_⟩, at_start,
        number.trans earlier⟩
      have equal : (xs.map (·.target))[m]? = (xs.map (·.target))[m + 1]? := by
        simp [at_n, at_m, same]
      intro l after before
      obtain last | rfl := Nat.le_succ_iff.mp before
      · exact (stretch.equal l after last).trans equal
      · rfl

end Settles

/-! ### The resolutions of a run settle -/

namespace Session

variable {s : Session}

theorem accounted_setLinker {k : Linker} {target : Nat} (h : ∀ target, (s.linker target).Accounted)
    (stays : (s.linker target).StaysOn k) (own : k.Accounted) (other : Nat) :
    ((s.setLinker k).linker other).Accounted :=
  linkers_setLinker (fun _ _ fewer accounted => accounted.lose fewer) stays own h other

theorem accounted_after {x : Resolution} (h : ∀ target, (x.before.linker target).Accounted)
    (target : Nat) : (x.after.linker target).Accounted :=
  accounted_setLinker h (Linker.staysOn_resolve _ x.reference) ((h x.target).resolve x.reference)
    target

/-- By induction on the references: only resolutions of the reference itself change what it is bound
to. -/
theorem settles_resolutions (h : ∀ target, (s.linker target).Accounted) (r : Reference)
    (target : Nat) (references : List Reference) :
    Settles r (s.bindings.of r) ((s.resolutions target references).filter (·.reference = r))
      (((s.linker target).resolveAll references).bindings.of r) := by
  induction references generalizing s with
  | nil => exact .nil _
  | cons other references ih =>
    let x : Resolution := ⟨other, target, s⟩
    have rest := ih (accounted_after h : ∀ target, (x.after.linker target).Accounted)
    rw [x.linker_after] at rest
    rw [resolutions, Linker.resolveAll_cons]
    by_cases own : other = r
    · subst own
      rw [List.filter_cons_of_pos (by simp)]
      rw [x.of_after] at rest
      exact .cons (x := x) rfl h rest
    · rw [List.filter_cons_of_neg (by simpa using own)]
      have same : x.after.bindings.of r = s.bindings.of r :=
        Linker.of_resolve_of_ne (fun e => own e.symm)
      rw [same] at rest
      exact rest

theorem settles_stepResolutions (h : ∀ target, (s.linker target).Accounted) (r : Reference)
    (current : Opcodes) (target : Nat) (steps : List Step) :
    Settles r (s.bindings.of r)
      ((s.stepResolutions current target steps).filter (·.reference = r))
      (((s.linker target).linkAll current steps).bindings.of r) := by
  induction steps generalizing s with
  | nil => exact .nil _
  | cons step steps ih =>
    have stays := Linker.staysOn_link current (s.linker target) step
    have home : ((s.linker target).link current step).target = target := stays.target
    have first := settles_resolutions h r target step.references
    have rest := ih (accounted_setLinker h stays ((h target).link current step))
    rw [linker_setLinker_of_target s home] at rest
    rw [stepResolutions, List.filter_append, Linker.linkAll_cons]
    rw [← Linker.bindings_link current] at first
    exact first.append rest

theorem settles_resolutionsIn (h : ∀ target, (s.linker target).Accounted) (r : Reference)
    (o : Operation) :
    Settles r (s.bindings.of r) ((s.resolutionsIn o).filter (·.reference = r))
      ((s.perform o).2.bindings.of r) := by
  unfold resolutionsIn
  cases concerned : s.activity? o with
  | none =>
    have same : (s.perform o).2.bindings = s.bindings :=
      congrArg Linker.bindings (linker_perform_of_none concerned 0)
    rw [same]
    exact .nil _
  | some activity =>
    obtain ⟨target, a⟩ := activity
    have taken : (s.perform o).2.bindings = ((s.linker target).act a).bindings :=
      congrArg Linker.bindings (linker_perform_of_some concerned target)
    rw [taken]
    cases a with
    | resolve other => exact settles_resolutions h r target [other]
    | send current steps => exact settles_stepResolutions h r current target steps
    | receive request => exact .nil _

/-- By induction on the operations of the run. -/
theorem settles_resolutionsOf (h : ∀ target, (s.linker target).Accounted) (r : Reference)
    (operations : List Operation) :
    Settles r (s.bindings.of r) (s.resolutionsOf r operations)
      ((s.run operations).2.bindings.of r) := by
  induction operations generalizing s with
  | nil => exact .nil _
  | cons o operations ih =>
    rw [resolutionsOf, runResolutions, List.filter_append]
    exact (settles_resolutionsIn h r o).append (ih (accounted_perform h o))

/-! ### The calls of the resolutions are calls of the run -/

/-- By induction on the references, as the calls of a resolution are kept by the later ones. -/
theorem callsGrow_of_mem_resolutions {x : Resolution} {target : Nat} {references : List Reference}
    (h : x ∈ s.resolutions target references) :
    x.after.CallsGrow (s.setLinker ((s.linker target).resolveAll references)) := by
  induction references generalizing s with
  | nil => cases h
  | cons r references ih =>
    let first : Resolution := ⟨r, target, s⟩
    have stays := Linker.staysOn_resolveAll ((s.linker target).resolve r).2 references
    rw [Linker.resolveAll_cons]
    obtain rfl | later := List.mem_cons.mp h
    · exact s.callsGrow_setLinker stays.target (Linker.calls_resolveAll _ references)
    · have rest := ih later
      rw [first.linker_after] at rest
      have taken := s.setLinker_setLinker stays.target
      rw [← taken]
      exact rest

theorem callsGrow_of_mem_stepResolutions {x : Resolution} {current : Opcodes} {target : Nat}
    {steps : List Step} (h : x ∈ s.stepResolutions current target steps) :
    x.after.CallsGrow (s.setLinker ((s.linker target).linkAll current steps)) := by
  induction steps generalizing s with
  | nil => cases h
  | cons step steps ih =>
    let k := (s.linker target).link current step
    have home : k.target = target := (Linker.staysOn_link current (s.linker target) step).target
    have grow := Linker.calls_linkAll current k steps
    have stays := k.target_linkAll current steps
    rw [Linker.linkAll_cons]
    obtain own | later := List.mem_append.mp h
    · have sends := Linker.link_sends current (s.linker target) step
      have sent : ((s.linker target).resolveAll step.references).recorder.calls
          <+: k.recorder.calls := by
        rw [sends.calls]
        exact List.prefix_append _ _
      exact (callsGrow_of_mem_resolutions own).trans
        ((s.callsGrow_setLinker sends.target sent).trans (s.callsGrow_setLinker stays grow))
    · have rest := ih later
      rw [linker_setLinker_of_target s home] at rest
      rw [← s.setLinker_setLinker stays]
      exact rest

theorem callsGrow_of_mem_resolutionsIn {x : Resolution} {o : Operation}
    (h : x ∈ s.resolutionsIn o) : x.after.CallsGrow (s.perform o).2 := by
  unfold resolutionsIn at h
  split at h
  · rename_i target r concerned
    unfold CallsGrow
    rw [recorders_perform_of_some concerned]
    exact callsGrow_of_mem_resolutions h
  · rename_i target current steps concerned
    unfold CallsGrow
    rw [recorders_perform_of_some concerned]
    exact callsGrow_of_mem_stepResolutions h
  · cases h

/-- The calls of a resolution stay calls of its target to the end of the run. -/
theorem callsGrow_of_mem_runResolutions {x : Resolution} {operations : List Operation}
    (h : x ∈ s.runResolutions operations) : x.after.CallsGrow (s.run operations).2 := by
  induction operations generalizing s with
  | nil => cases h
  | cons o operations ih =>
    obtain own | later := List.mem_append.mp h
    · exact (callsGrow_of_mem_resolutionsIn own).trans (callsGrow_run _ operations)
    · exact ih later

/-- In every run, the first of the resolutions of a reference and each on another target than the
one before it create the reference, by one call on the target. As long as the numbers last, the
target has given that number to nothing of the kind before. Every other resolution makes no call.
Each returns the number from the start of its stretch of equal targets and leaves the reference bound
to it on its target, and nothing but these resolutions changes what the reference is bound to. The
calls that they make are calls of the run. -/
theorem resolutions_create_once_per_stretch (operations : List Operation) (r : Reference) :
    let all := new.resolutionsOf r operations
    let targets := all.map (·.target)
    (∀ n x, all[n]? = some x →
      x.reference = r ∧
        (StartsStretch targets n → x.Creates) ∧
        (¬ StartsStretch targets n → x.after = x.before) ∧
        (∃ start y, InStretch targets start n ∧ all[start]? = some y ∧
          x.number r = y.number r) ∧
        x.after.bindings.of r = some ⟨x.target, x.number r⟩ ∧
        x.after.CallsGrow (new.run operations).2) ∧
      (new.run operations).2.bindings.of r
        = all.getLast?.map fun x => ⟨x.target, x.number r⟩ := by
  intro all targets
  have unbound : new.bindings.of r = none := by cases r <;> rfl
  have settles : Settles r none all ((new.run operations).2.bindings.of r) := by
    rw [← unbound]
    exact settles_resolutionsOf accounted_new r operations
  constructor
  · intro n x at_n
    obtain ⟨own, -⟩ := settles.getElem? at_n
    refine ⟨own, settles.of_starts at_n, ?_, settles.exists_start at_n, ?_, ?_⟩
    · intro inner
      obtain ⟨m, y, -, -, -, -, same⟩ := settles.of_not_starts at_n inner
      exact same
    · rw [← own]
      exact x.of_after
    · exact callsGrow_of_mem_runResolutions (List.mem_of_mem_filter (List.mem_of_getElem? at_n))
  · rw [settles.last, Option.or_none]
    rfl

/-- A region is resolved by its end on one target, by a flush on another, and by its beginning on
the first again, which has been asked for a label in the meantime. -/
def returningRegion : List Operation :=
  [.newLabel "exit", .newBlock "end", .newRecorder, .newRecorder, .newBuffer none,
    .append 4 (.markLabel ⟨0, "exit", .plain⟩), .append 4 (.beginException ⟨1, "end"⟩),
    .resolveLabel ⟨1, "end", .blockEnd⟩ 2, .flush 4 3, .request 2 .defineLabel,
    .replay (.beginException ⟨1, "end"⟩) (some 2), .resolveLabel ⟨0, "exit", .plain⟩ 2,
    .resolveLabel ⟨1, "end", .blockEnd⟩ 2]

theorem returningRegion_resolutions :
    let r : Reference := .label ⟨1, "end", .blockEnd⟩
    let all := new.resolutionsOf r returningRegion
    all.map (·.target) = [2, 3, 2, 2] ∧ all.map (·.number r) = [0, 1, 2, 2] ∧
      (∃ x, all[2]? = some x ∧ x.Creates) ∧ (∃ x, all[3]? = some x ∧ x.after = x.before) ∧
      (new.run returningRegion).2.bindings.of r = some ⟨2, 2⟩ ∧
      ((new.run returningRegion).2.recorders 2).calls
        = [.beginException 0, .defineLabel 1, .beginException 2, .defineLabel 3] := by
  intro r all
  have targets : all.map (·.target) = [2, 3, 2, 2] := by decide
  have length : all.length = 4 := by
    have mapped := congrArg List.length targets
    rwa [List.length_map] at mapped
  obtain ⟨each, -⟩ := resolutions_create_once_per_stretch returningRegion r
  have third : all[2]? = some all[2] := List.getElem?_eq_getElem (by omega)
  have fourth : all[3]? = some all[3] := List.getElem?_eq_getElem (by omega)
  obtain ⟨-, creates, -⟩ := each 2 _ third
  obtain ⟨-, -, keeps, -⟩ := each 3 _ fourth
  refine ⟨targets, by decide, ⟨_, third, creates ?_⟩, ⟨_, fourth, keeps ?_⟩, by decide, by decide⟩
  · show StartsStretch (all.map (·.target)) 2
    rw [targets]
    exact .inr (by decide)
  · show ¬ StartsStretch (all.map (·.target)) 3
    rw [targets]
    rintro (zero | differs)
    · cases zero
    · exact differs rfl

end Session

end CilBuffer
