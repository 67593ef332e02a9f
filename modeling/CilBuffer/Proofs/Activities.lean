import CilBuffer.Proofs.FlushedCalls
import CilBuffer.Proofs.Runs

/-!
# What an operation has a target do

Of the operations of a session a few concern a target: it resolves a reference, is sent steps, or
receives a request. Such an operation changes the recorder of that target alone. It can take a
reference away from another target, but binds none there. All other operations leave bindings and
recorders as they are. So what every target keeps, in its own activities and when it loses
references to others, is an invariant of sessions.
-/

namespace CilBuffer

/-- The latest binding of the reference, on whatever target. -/
def Bindings.of (b : Bindings) : (r : Reference) → Option (Binding r.isLabel)
  | .label label => b.labels label
  | .localVar localVar => b.locals localVar

/-- What a target does in one operation. -/
inductive Activity where
  | resolve (r : Reference)
  | send (current : Opcodes) (steps : List Step)
  | receive (request : Request)

namespace Bindings

theorem of_bindLabel (b : Bindings) (label : Label) (binding : (r : Reference) → Binding r.isLabel)
    (other : Reference) :
    (b.bindLabel label (binding (.label label))).of other
      = if other = .label label then some (binding other) else b.of other := by
  cases other with
  | label own =>
    by_cases same : own = label
    · subst same
      simp only [of, bindLabel, assign_same, ↓reduceIte]
    · simp only [of, bindLabel, assign_of_ne _ _ same, Reference.label.injEq, same, ↓reduceIte]
  | localVar own => rfl

theorem of_bindLocal (b : Bindings) (localVar : Local)
    (binding : (r : Reference) → Binding r.isLabel) (other : Reference) :
    (b.bindLocal localVar (binding (.localVar localVar))).of other
      = if other = .localVar localVar then some (binding other) else b.of other := by
  cases other with
  | label own => rfl
  | localVar own =>
    by_cases same : own = localVar
    · subst same
      simp only [of, bindLocal, assign_same, ↓reduceIte]
    · simp only [of, bindLocal, assign_of_ne _ _ same, Reference.localVar.injEq, same, ↓reduceIte]

end Bindings

namespace Linker

variable {k : Linker} {r : Reference}

theorem bound?_eq (k : Linker) (r : Reference) :
    k.bound? r = Binding.on? k.target (k.bindings.of r) := by
  cases r <;> rfl

theorem bound?_eq_some_iff {handle : Handle r.isLabel} :
    k.bound? r = some handle ↔ k.bindings.of r = some ⟨k.target, handle⟩ := by
  rw [bound?_eq]
  constructor
  · intro h
    exact on?_eq_some h
  · intro h
    rw [h, on?_same]

/-- To resolve a reference that is not bound binds it to the target, and no other to anything. -/
theorem of_resolve_of_not_bound (h : k.bound? r = none) (other : Reference) :
    (k.resolve r).2.bindings.of other
      = if other = r then some ⟨k.target, (k.resolve other).1⟩ else k.bindings.of other := by
  cases r with
  | label label =>
    have created := resolveLabel_of_not_bound (not_bound_of_on? h)
    rw [resolve, created]
    have bound := k.bindings.of_bindLabel label (fun r => ⟨k.target, (k.resolve r).1⟩) other
    rw [resolve, created] at bound
    exact bound
  | localVar localVar =>
    have created := resolveLocal_of_not_bound (not_bound_of_on? h)
    rw [resolve, created]
    have bound := k.bindings.of_bindLocal localVar (fun r => ⟨k.target, (k.resolve r).1⟩) other
    rw [resolve, created] at bound
    exact bound

/-- What each resolution keeps, all of them keep. -/
theorem resolveAll_preserves {P : Linker → Prop} (step : ∀ k r, P k → P (k.resolve r).2)
    (h : P k) (references : List Reference) : P (k.resolveAll references) := by
  induction references generalizing k with
  | nil => exact h
  | cons r references ih => exact ih (step k r h)

/-- What each step keeps when it is sent, all of them keep. -/
theorem linkAll_preserves {P : Linker → Prop} {current : Opcodes}
    (each : ∀ k step, P k → P (k.link current step)) (h : P k) (steps : List Step) :
    P (k.linkAll current steps) := by
  induction steps generalizing k with
  | nil => exact h
  | cons step steps ih => exact ih (each k step h)

/-- The linker after the activity of its target. -/
def act (k : Linker) : Activity → Linker
  | .resolve r => (k.resolve r).2
  | .send current steps => k.linkAll current steps
  | .receive request => { k with recorder := (k.recorder.perform request).2 }

/-- The target stays the same, and nothing has been bound to another one. -/
structure StaysOn (k k' : Linker) : Prop where
  target : k'.target = k.target
  others : ∀ r b, b.target ≠ k.target → k'.bindings.of r = some b → k.bindings.of r = some b

theorem StaysOn.refl (k : Linker) : k.StaysOn k := by
  constructor
  · rfl
  · intro r b _ h
    exact h

theorem StaysOn.trans {k₁ k₂ k₃ : Linker} (h : k₁.StaysOn k₂) (h' : k₂.StaysOn k₃) :
    k₁.StaysOn k₃ := by
  constructor
  · exact h'.target.trans h.target
  · intro r b ne bound
    have ne' : b.target ≠ k₂.target := by rw [h.target]; exact ne
    exact h.others r b ne (h'.others r b ne' bound)

theorem staysOn_resolve (k : Linker) (r : Reference) : k.StaysOn (k.resolve r).2 := by
  cases known : k.bound? r with
  | some handle =>
    rw [resolve_of_bound known]
    exact .refl k
  | none =>
    constructor
    · exact (resolve_of_not_bound known).2.target
    · intro other b ne bound
      rw [of_resolve_of_not_bound known] at bound
      split at bound
      · cases bound
        exact absurd rfl ne
      · exact bound

theorem staysOn_resolveAll (k : Linker) (references : List Reference) :
    k.StaysOn (k.resolveAll references) := by
  apply resolveAll_preserves (P := k.StaysOn)
  · intro k' r so_far
    exact so_far.trans (staysOn_resolve k' r)
  · exact .refl k

/-- The call that a step makes of its own binds nothing. -/
theorem bindings_link (current : Opcodes) (k : Linker) (step : Step) :
    (k.link current step).bindings = (k.resolveAll step.references).bindings := by
  cases step with
  | switch slot targets =>
    simp only [link, resolveLabels_eq]
    rfl
  | _ => rfl

theorem staysOn_link (current : Opcodes) (k : Linker) (step : Step) :
    k.StaysOn (k.link current step) := by
  have resolved := staysOn_resolveAll k step.references
  constructor
  · exact (link_sends current k step).target.trans resolved.target
  · rw [bindings_link]
    exact resolved.others

theorem staysOn_act (k : Linker) (a : Activity) : k.StaysOn (k.act a) := by
  cases a with
  | resolve r => exact staysOn_resolve k r
  | send current steps =>
    apply linkAll_preserves (P := k.StaysOn)
    · intro k' step so_far
      exact so_far.trans (staysOn_link current k' step)
    · exact .refl k
  | receive request => exact ⟨rfl, fun _ _ _ h => h⟩

theorem target_linkAll (k : Linker) (current : Opcodes) (steps : List Step) :
    (k.linkAll current steps).target = k.target :=
  (staysOn_act k (.send current steps)).target

end Linker

namespace Session

/-- The target that the operation concerns, and what it does. -/
def activity? (s : Session) : Operation → Option (Nat × Activity)
  | .resolveLabel label target => some (target, .resolve (.label label))
  | .resolveLocal localVar target => some (target, .resolve (.localVar localVar))
  | .request target request => some (target, .receive request)
  | .replay step (some target) => some (target, .send s.opcodes [step])
  | .flush buffer target => some (target, .send s.opcodes (s.buffers buffer).steps)
  | _ => none

variable {s : Session} {o : Operation} {target other : Nat} {a : Activity}

theorem linker_setLinker_of_ne (s : Session) {k : Linker} (h : other ≠ k.target) :
    (s.setLinker k).linker other = ⟨other, k.bindings, s.recorders other⟩ := by
  simp only [linker, setLinker, assign_of_ne _ _ h]

/-- An operation that concerns no target leaves bindings and recorders as they are. -/
theorem linker_perform_of_none (h : s.activity? o = none) (other : Nat) :
    (s.perform o).2.linker other = s.linker other := by
  cases o with
  | resolveLabel _ _ | resolveLocal _ _ | request _ _ | flush _ _ => cases h
  | newBuffer anchor => cases anchor <;> rfl
  | insert _ _ _ | remove _ _ | cumulativeLength _ _ | byteDistance _ _ _ =>
    simp only [perform]
    split <;> rfl
  | emit _ emission => cases emission <;> rfl
  | replay step destination =>
    cases destination with
    | none => rfl
    | some _ => cases h
  | describe buffer scopes annotated => rw [perform_describe]
  | _ => rfl

/-- An operation that concerns a target has the bindings and the recorder of its activity taken
over. -/
theorem linker_perform_of_some (h : s.activity? o = some (target, a)) (other : Nat) :
    (s.perform o).2.linker other = (s.setLinker ((s.linker target).act a)).linker other := by
  cases o with
  | resolveLabel _ _ | resolveLocal _ _ | request _ _ | flush _ _ =>
    cases h
    rfl
  | replay step destination =>
    cases destination with
    | none => cases h
    | some _ =>
      cases h
      rfl
  | _ => cases h

/-- What a target keeps when it loses references to others, all of them keep when one of them takes
over what it has become. -/
theorem linkers_setLinker {P : Linker → Prop}
    (loses : ∀ k (b : Bindings), (∀ r handle, b.of r = some ⟨k.target, handle⟩ →
      k.bindings.of r = some ⟨k.target, handle⟩) → P k → P { k with bindings := b })
    {k : Linker} (stays : (s.linker target).StaysOn k) (own : P k)
    (h : ∀ target, P (s.linker target)) (other : Nat) : P ((s.setLinker k).linker other) := by
  by_cases same : other = k.target
  · subst same
    rw [linker_setLinker]
    exact own
  · rw [linker_setLinker_of_ne s same]
    rw [stays.target] at same
    apply loses (s.linker other) k.bindings
    · intro r handle bound
      exact stays.others r ⟨other, handle⟩ same bound
    · exact h other

/-- What each target keeps in its activities, and keeps when it loses references to other targets,
an operation keeps for all of them. -/
theorem linkers_perform {P : Linker → Prop} {Q : Activity → Prop}
    (acts : ∀ k a, Q a → P k → P (k.act a))
    (loses : ∀ k (b : Bindings), (∀ r handle, b.of r = some ⟨k.target, handle⟩ →
      k.bindings.of r = some ⟨k.target, handle⟩) → P k → P { k with bindings := b })
    (allowed : ∀ target a, s.activity? o = some (target, a) → Q a)
    (h : ∀ target, P (s.linker target)) (other : Nat) : P ((s.perform o).2.linker other) := by
  cases concerned : s.activity? o with
  | none =>
    rw [linker_perform_of_none concerned]
    exact h other
  | some activity =>
    obtain ⟨target, a⟩ := activity
    have own := acts (s.linker target) a (allowed target a concerned) (h target)
    rw [linker_perform_of_some concerned]
    exact linkers_setLinker loses (Linker.staysOn_act (s.linker target) a) own h other

end Session

end CilBuffer
