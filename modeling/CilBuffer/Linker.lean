import CilBuffer.Assignment
import CilBuffer.Identity
import CilBuffer.Recorder.Basic

/-!
# Linking identities to a target

A label or local is bound to the number that a target gave it, and remembers the latest target
only. Resolving it on that target returns the number, and on any other creates a new one. The main
statements say what a resolution returns and when it changes nothing.
-/

namespace CilBuffer

/-- A number of a label or local, and the target that gave it. -/
structure Binding (isLabel : Bool) where
  target : Nat
  handle : Handle isLabel
  deriving DecidableEq, Repr

/-- The latest binding of each label and local. -/
structure Bindings where
  labels : Label → Option (Binding true)
  locals : Local → Option (Binding false)

/-- The number of a binding, if the given target gave it. -/
def Binding.on? {isLabel : Bool} (target : Nat) :
    Option (Binding isLabel) → Option (Handle isLabel)
  | some b => if b.target = target then some b.handle else none
  | none => none

namespace Bindings

def empty : Bindings := ⟨fun _ => none, fun _ => none⟩

def bindLabel (b : Bindings) (label : Label) (binding : Binding true) : Bindings :=
  { b with labels := assign b.labels label (some binding) }

def bindLocal (b : Bindings) (localVar : Local) (binding : Binding false) : Bindings :=
  { b with locals := assign b.locals localVar (some binding) }

end Bindings

/-- The bindings, and the recorder of the target that they are resolved on. -/
structure Linker where
  target : Nat
  bindings : Bindings
  recorder : Recorder

namespace Linker

def createLabel (k : Linker) : LabelOrigin → LabelHandle × Recorder
  | .plain => k.recorder.defineLabel
  | .blockEnd => k.recorder.beginException

/-- The number of the label on the target, created there if the label is not bound to it. -/
def resolveLabel (k : Linker) (label : Label) : LabelHandle × Linker :=
  match Binding.on? k.target (k.bindings.labels label) with
  | some handle => (handle, k)
  | none =>
    let (handle, recorder) := k.createLabel label.origin
    (handle, { k with bindings := k.bindings.bindLabel label ⟨k.target, handle⟩, recorder })

def resolveLabels (k : Linker) : List Label → List LabelHandle × Linker
  | [] => ([], k)
  | label :: labels =>
    let (handle, k) := k.resolveLabel label
    let (handles, k) := k.resolveLabels labels
    (handle :: handles, k)

/-- The number of the local on the target, created there if the local is not bound to it. -/
def resolveLocal (k : Linker) (localVar : Local) : LocalHandle × Linker :=
  match Binding.on? k.target (k.bindings.locals localVar) with
  | some handle => (handle, k)
  | none =>
    let (handle, recorder) := k.recorder.declareLocal localVar.valueType
    (handle, { k with bindings := k.bindings.bindLocal localVar ⟨k.target, handle⟩, recorder })

theorem resolveLabel_of_bound {k : Linker} {label : Label} {handle : LabelHandle}
    (h : k.bindings.labels label = some ⟨k.target, handle⟩) :
    k.resolveLabel label = (handle, k) := by
  simp [resolveLabel, Binding.on?, h]

theorem resolveLocal_of_bound {k : Linker} {localVar : Local} {handle : LocalHandle}
    (h : k.bindings.locals localVar = some ⟨k.target, handle⟩) :
    k.resolveLocal localVar = (handle, k) := by
  simp [resolveLocal, Binding.on?, h]

theorem on?_eq_none {isLabel : Bool} {target : Nat} {b : Option (Binding isLabel)}
    (h : ¬ ∃ handle, b = some ⟨target, handle⟩) : Binding.on? target b = none := by
  cases b with
  | none => rfl
  | some b => exact if_neg fun same => h ⟨b.handle, by rw [← same]⟩

theorem resolveLabel_of_not_bound {k : Linker} {label : Label}
    (h : ¬ ∃ handle, k.bindings.labels label = some ⟨k.target, handle⟩) :
    k.resolveLabel label =
      ((k.createLabel label.origin).1,
        { k with
          bindings := k.bindings.bindLabel label ⟨k.target, (k.createLabel label.origin).1⟩
          recorder := (k.createLabel label.origin).2 }) := by
  simp [resolveLabel, on?_eq_none h]

theorem resolveLocal_of_not_bound {k : Linker} {localVar : Local}
    (h : ¬ ∃ handle, k.bindings.locals localVar = some ⟨k.target, handle⟩) :
    k.resolveLocal localVar =
      (k.recorder.nextLocal,
        { k with
          bindings := k.bindings.bindLocal localVar ⟨k.target, k.recorder.nextLocal⟩
          recorder := (k.recorder.declareLocal localVar.valueType).2 }) := by
  simp [resolveLocal, on?_eq_none h, Recorder.declareLocal]

end Linker

end CilBuffer
