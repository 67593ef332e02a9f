import Mathlib.Algebra.GroupWithZero.Nat
import CilBuffer.Step.Link

/-!
# References

The labels and locals that a step mentions are resolved one after the other before the step makes a
call of its own. A reference that is bound to the target is left alone, and any other is created by
one call. Once bound, a reference keeps its number for as long as the target is the same. Labels and
locals have numbers of different widths, so the type of a number depends on the reference.
-/

namespace CilBuffer

/-- A label or local that a step mentions. -/
inductive Reference where
  | label (label : Label)
  | localVar (localVar : Local)
  deriving DecidableEq, Repr

namespace Reference

/-- Labels and locals are numbered apart. -/
abbrev isLabel : Reference → Bool
  | .label _ => true
  | .localVar _ => false

/-- The call that creates the reference with the given number. -/
def creation : (r : Reference) → Handle r.isLabel → Call
  | .label ⟨_, _, .plain⟩, number => .defineLabel number
  | .label ⟨_, _, .blockEnd⟩, number => .beginException number
  | .localVar ⟨_, _, _, type⟩, number => .declareLocal type number

/-- The regions that the creation opens. -/
def regions : Reference → List Bool
  | .label ⟨_, _, .blockEnd⟩ => [false]
  | _ => []

end Reference

/-- A number for each label and each local. -/
abbrev Numbering : Type := (r : Reference) → Handle r.isLabel

/-- What the step mentions, in the order of resolution. A table mentions a label as often as it
has it for a target. -/
def Step.references : Step → List Reference
  | .access _ localVar | .declareLocal localVar => [.localVar localVar]
  | .branch _ target => [.label target]
  | .switch _ targets => targets.map .label
  | .beginException block => [.label block.endLabel]
  | .defineLabel label | .markLabel label => [.label label]
  | _ => []

/-- The next number of the labels or of the locals. -/
def Recorder.next (r : Recorder) : (isLabel : Bool) → Handle isLabel
  | true => r.nextLabel
  | false => r.nextLocal

namespace Linker

/-- The number of the reference on the target, if it is bound to it. -/
def bound? (k : Linker) : (r : Reference) → Option (Handle r.isLabel)
  | .label label => Binding.on? k.target (k.bindings.labels label)
  | .localVar localVar => Binding.on? k.target (k.bindings.locals localVar)

/-- The number of the reference, created if it is not bound to the target. -/
def resolve (k : Linker) : (r : Reference) → Handle r.isLabel × Linker
  | .label label => k.resolveLabel label
  | .localVar localVar => k.resolveLocal localVar

/-- The linker after the references have been resolved in order. -/
def resolveAll (k : Linker) (references : List Reference) : Linker :=
  references.foldl (fun k r => (k.resolve r).2) k

theorem resolveAll_nil (k : Linker) : k.resolveAll [] = k := rfl

theorem resolveAll_cons (k : Linker) (r : Reference) (references : List Reference) :
    k.resolveAll (r :: references) = (k.resolve r).2.resolveAll references :=
  rfl

/-- One reference has been created, with the next number of its kind. -/
structure Creates (k : Linker) (r : Reference) (k' : Linker) : Prop where
  target : k'.target = k.target
  calls : k'.recorder.calls = k.recorder.calls ++ [r.creation (k.recorder.next r.isLabel)]
  codeSize : k'.recorder.codeSize = k.recorder.codeSize
  openRegions : k'.recorder.openRegions = r.regions ++ k.recorder.openRegions
  next : ∀ kind, k'.recorder.next kind
    = if r.isLabel = kind then k.recorder.next kind + 1 else k.recorder.next kind
  bound : ∀ other, k'.bound? other
    = if other = r then some (k.recorder.next other.isLabel) else k.bound? other

section

variable {isLabel : Bool} {target : Nat} {handle : Handle isLabel} {b : Option (Binding isLabel)}

theorem on?_same (target : Nat) (handle : Handle isLabel) :
    Binding.on? target (some ⟨target, handle⟩) = some handle :=
  if_pos rfl

theorem on?_eq_some (h : Binding.on? target b = some handle) : b = some ⟨target, handle⟩ := by
  cases b with
  | none => cases h
  | some b =>
    simp only [Binding.on?] at h
    split at h
    · rename_i same
      cases h
      rw [← same]
    · cases h

theorem not_bound_of_on? (h : Binding.on? target b = none) :
    ¬ ∃ handle, b = some ⟨target, handle⟩ := by
  rintro ⟨handle, rfl⟩
  rw [on?_same] at h
  cases h

end

theorem resolve_of_bound {k : Linker} {r : Reference} {handle : Handle r.isLabel}
    (h : k.bound? r = some handle) : k.resolve r = (handle, k) := by
  cases r with
  | label label => exact resolveLabel_of_bound (on?_eq_some h)
  | localVar localVar => exact resolveLocal_of_bound (on?_eq_some h)

theorem bound?_bindLabel (k : Linker) (label : Label) (number : Numbering) (recorder : Recorder)
    (other : Reference) :
    bound? ⟨k.target, k.bindings.bindLabel label ⟨k.target, number (.label label)⟩, recorder⟩ other
      = if other = .label label then some (number other) else k.bound? other := by
  cases other with
  | label own =>
    by_cases same : own = label
    · subst same
      simp only [bound?, Bindings.bindLabel, assign_same, on?_same, ↓reduceIte]
    · simp only [bound?, Bindings.bindLabel, assign_of_ne _ _ same, Reference.label.injEq, same,
        ↓reduceIte]
  | localVar own => rfl

theorem bound?_bindLocal (k : Linker) (localVar : Local) (number : Numbering) (recorder : Recorder)
    (other : Reference) :
    bound? ⟨k.target, k.bindings.bindLocal localVar ⟨k.target, number (.localVar localVar)⟩,
        recorder⟩ other
      = if other = .localVar localVar then some (number other) else k.bound? other := by
  cases other with
  | label own => rfl
  | localVar own =>
    by_cases same : own = localVar
    · subst same
      simp only [bound?, Bindings.bindLocal, assign_same, on?_same, ↓reduceIte]
    · simp only [bound?, Bindings.bindLocal, assign_of_ne _ _ same, Reference.localVar.injEq, same,
        ↓reduceIte]

/-- A reference that is not bound is created, and the number is that of the creation. -/
theorem resolve_of_not_bound {k : Linker} {r : Reference} (h : k.bound? r = none) :
    (k.resolve r).1 = k.recorder.next r.isLabel ∧ k.Creates r (k.resolve r).2 := by
  cases r with
  | label label =>
    rw [resolve, resolveLabel_of_not_bound (not_bound_of_on? h)]
    obtain ⟨serial, name, origin⟩ := label
    cases origin <;>
      exact ⟨rfl, rfl, rfl, rfl, rfl, by rintro (_ | _) <;> rfl,
        bound?_bindLabel k _ (fun r => k.recorder.next r.isLabel) _⟩
  | localVar localVar =>
    rw [resolve, resolveLocal_of_not_bound (not_bound_of_on? h)]
    exact ⟨rfl, rfl, rfl, rfl, rfl, by rintro (_ | _) <;> rfl,
      bound?_bindLocal k _ (fun r => k.recorder.next r.isLabel) _⟩

theorem bound?_resolve (k : Linker) (r : Reference) :
    (k.resolve r).2.bound? r = some (k.resolve r).1 := by
  cases h : k.bound? r with
  | some handle => rw [resolve_of_bound h, h]
  | none =>
    obtain ⟨number, creates⟩ := resolve_of_not_bound h
    rw [creates.bound, if_pos rfl, number]

theorem bound?_resolve_of_bound {k : Linker} {r : Reference} {handle : Handle r.isLabel}
    (h : k.bound? r = some handle) (other : Reference) :
    (k.resolve other).2.bound? r = some handle := by
  cases ho : k.bound? other with
  | some bound => rw [resolve_of_bound ho, h]
  | none =>
    have ne : r ≠ other := by
      rintro rfl
      rw [h] at ho
      cases ho
    rw [(resolve_of_not_bound ho).2.bound, if_neg ne, h]

theorem bound?_resolveAll_of_bound {k : Linker} {r : Reference} {handle : Handle r.isLabel}
    (h : k.bound? r = some handle) (references : List Reference) :
    (k.resolveAll references).bound? r = some handle := by
  induction references generalizing k with
  | nil => exact h
  | cons other references ih => exact ih (bound?_resolve_of_bound h other)

/-- The numbers of a table of labels are those that the labels are bound to in the end. -/
theorem resolveLabels_eq (k : Linker) (labels : List Label) :
    k.resolveLabels labels =
      (labels.map fun label =>
          ((k.resolveAll (labels.map .label)).bound? (.label label)).getD 0,
        k.resolveAll (labels.map .label)) := by
  induction labels generalizing k with
  | nil => rfl
  | cons label labels ih =>
    have first : ((k.resolveLabel label).2.resolveAll (labels.map .label)).bound? (.label label)
        = some (k.resolveLabel label).1 :=
      bound?_resolveAll_of_bound (bound?_resolve k (.label label)) _
    simp only [resolveLabels, ih, List.map_cons, resolveAll_cons, resolve, first, Option.getD_some]

end Linker

end CilBuffer
