import CilBuffer.Proofs.Handles

/-!
# Calls that use what has been created

A list of calls is founded if each number that a call uses is created by an earlier call of the
list. The calls of a target are founded as long as it is not asked directly for more than to create:
a step is sent with numbers that its references are bound to, and what is bound has been created.
Within one flush the numbers tell the references apart, unless they run out.
-/

namespace CilBuffer

/-- The numbers of the given kind that the call uses, those of a table in order. -/
def Call.operands : (isLabel : Bool) → Call → List (Handle isLabel)
  | true, .instruction _ (.label handle) | true, .markLabel handle => [handle]
  | true, .instruction _ (.labels handles) => handles
  | false, .instruction _ (.localVar handle) => [handle]
  | _, _ => []

/-- The references of the given kind whose numbers the call of the step uses. -/
def Step.operands (isLabel : Bool) : Step → List Reference
  | .branch _ label | .markLabel label => if isLabel then [.label label] else []
  | .switch _ targets => if isLabel then targets.map .label else []
  | .access _ localVar => if isLabel then [] else [.localVar localVar]
  | _ => []

/-- Each number that a call uses is created by an earlier call, as a label or as a local. -/
def Call.Founded (calls : List Call) : Prop :=
  ∀ (i : Nat) (call : Call), calls[i]? = some call →
    ∀ isLabel, ∀ handle ∈ call.operands isLabel,
      ∃ j < i, ∃ creation : Call, calls[j]? = some creation ∧
        creation.created? isLabel = some handle

/-- The request is for a new label, local or region. -/
def Request.creates : Request → Bool
  | .beginException | .defineLabel | .declareLocal _ => true
  | _ => false

/-- If the operation asks a target directly, it asks for something new. -/
def Operation.asksToCreate : Operation → Bool
  | .request _ asked => asked.creates
  | _ => true

/-- If the target is asked directly, it is asked for something new. -/
def Activity.asksToCreate : Activity → Bool
  | .receive request => request.creates
  | _ => true

theorem Reference.operands_creation (r : Reference) (number : Handle r.isLabel) (kind : Bool) :
    (r.creation number).operands kind = [] := by
  obtain ⟨serial, name, origin⟩ | localVar := r
  · cases origin <;> cases kind <;> rfl
  · cases kind <;> rfl

theorem Recorder.operands_callFor {request : Request} (h : request.creates = true) (r : Recorder)
    (kind : Bool) : (r.callFor request).operands kind = [] := by
  cases request with
  | beginException | defineLabel | declareLocal _ => cases kind <;> rfl
  | _ => cases h

namespace Step

variable {step : Step} {r : Reference} {kind : Bool}

theorem isLabel_of_mem_operands (h : r ∈ step.operands kind) : r.isLabel = kind := by
  cases step <;> cases kind <;> simp [operands] at h
  case access.false => rw [h]
  case branch.true => rw [h]
  case switch.true =>
    obtain ⟨label, -, rfl⟩ := h
    rfl
  case markLabel.true => rw [h]

theorem mem_references_of_mem_operands (h : r ∈ step.operands kind) : r ∈ step.references := by
  cases step <;> cases kind <;> simp [operands] at h <;> simpa [references] using h

theorem mem_allReferences_of_operand {steps : List Step}
    (h : r ∈ steps.flatMap (·.operands kind)) : r ∈ allReferences steps ∧ r.isLabel = kind := by
  obtain ⟨step, inside, operand⟩ := List.mem_flatMap.mp h
  exact ⟨List.mem_flatMap.mpr ⟨step, inside, mem_references_of_mem_operands operand⟩,
    isLabel_of_mem_operands operand⟩

/-- The call of a step uses the numbers of the operands of the step. -/
theorem operands_ownCall? (current : Opcodes) (number : Numbering) (step : Step)
    (kind : Bool) :
    ((step.ownCall? current number).toList.flatMap (·.operands kind)).map BitVec.toNat
      = (step.operands kind).map fun r => (number r).toNat := by
  cases step with
  | instruction op operand => cases operand <;> cases kind <;> rfl
  | switch slot targets => cases kind <;> simp [ownCall?, Call.operands, operands]
  | _ => cases kind <;> rfl

end Step

namespace Call

variable {calls : List Call} {call : Call}

/-- One more call that uses numbers created by the others. -/
theorem Founded.snoc (h : Founded calls)
    (created : ∀ isLabel, ∀ handle ∈ call.operands isLabel,
      ∃ creation ∈ calls, creation.created? isLabel = some handle) :
    Founded (calls ++ [call]) := by
  intro i own at_i isLabel handle used
  have bound := (List.getElem?_eq_some_iff.mp at_i).1
  rw [List.length_append, List.length_singleton] at bound
  have within : ∀ j < calls.length, (calls ++ [call])[j]? = calls[j]? :=
    fun j hj => List.getElem?_append_left hj
  by_cases old : i < calls.length
  · rw [within i old] at at_i
    obtain ⟨j, earlier, creation, at_j, makes⟩ := h i own at_i isLabel handle used
    refine ⟨j, earlier, creation, ?_, makes⟩
    rw [within j (by omega)]
    exact at_j
  · have last : i = calls.length := by omega
    subst last
    rw [List.getElem?_append_right (Nat.le_refl _), Nat.sub_self] at at_i
    cases at_i
    obtain ⟨creation, member, makes⟩ := created isLabel handle used
    obtain ⟨j, earlier, at_j⟩ := List.getElem_of_mem member
    refine ⟨j, earlier, creation, ?_, makes⟩
    rw [within j earlier, List.getElem?_eq_getElem earlier, at_j]

end Call

namespace Linker

variable {k : Linker} {r : Reference}

theorem bound?_resolveAll_of_mem {references : List Reference} (h : r ∈ references) :
    ∃ handle, (k.resolveAll references).bound? r = some handle := by
  induction references generalizing k with
  | nil => cases h
  | cons other references ih =>
    rw [resolveAll_cons]
    obtain rfl | later := List.mem_cons.mp h
    · exact ⟨_, bound?_resolveAll_of_bound (bound?_resolve k r) references⟩
    · exact ih later

/-- What the own call of a step uses are numbers that operands of the step are bound to by then. -/
theorem bound?_of_mem_operands {current : Opcodes} {step : Step} {call : Call}
    (own : step.ownCall? current (fun r => ((k.resolveAll step.references).bound? r).getD 0)
      = some call)
    {isLabel : Bool} {handle : Handle isLabel} (used : handle ∈ call.operands isLabel) :
    ∃ r bound, (k.resolveAll step.references).bound? r = some bound ∧
      (r.creation bound).created? isLabel = some handle := by
  have numbers := step.operands_ownCall? current
    (fun r => ((k.resolveAll step.references).bound? r).getD 0) isLabel
  rw [own, Option.toList_some, List.flatMap_singleton] at numbers
  have among := List.mem_map_of_mem used (f := BitVec.toNat)
  rw [numbers] at among
  obtain ⟨r, member, number⟩ := List.mem_map.mp among
  obtain ⟨bound, known⟩ := bound?_resolveAll_of_mem (k := k)
    (Step.mem_references_of_mem_operands member)
  obtain rfl := Step.isLabel_of_mem_operands member
  rw [known, Option.getD_some] at number
  refine ⟨r, bound, known, ?_⟩
  rw [r.created?_creation, BitVec.eq_of_toNat_eq number]

/-- The target is accounted for, and its calls use what they have created. -/
structure Founded (k : Linker) : Prop where
  accounted : k.Accounted
  calls : Call.Founded k.recorder.calls

theorem Founded.resolve (h : k.Founded) (r : Reference) : (k.resolve r).2.Founded := by
  constructor
  · exact h.accounted.resolve r
  · cases known : k.bound? r with
    | some handle =>
      rw [resolve_of_bound known]
      exact h.calls
    | none =>
      rw [(resolve_of_not_bound known).2.calls]
      apply h.calls.snoc
      intro isLabel handle used
      rw [r.operands_creation] at used
      cases used

theorem Founded.resolveAll (h : k.Founded) (references : List Reference) :
    (k.resolveAll references).Founded :=
  resolveAll_preserves (fun _ r founded => founded.resolve r) h references

/-- The own call of a step uses numbers that its references are bound to by then. -/
theorem Founded.link (h : k.Founded) (current : Opcodes) (step : Step) :
    (k.link current step).Founded := by
  have resolved := h.resolveAll step.references
  constructor
  · exact h.accounted.link current step
  · rw [(link_sends current k step).calls]
    cases own : step.ownCall? current fun r => ((k.resolveAll step.references).bound? r).getD 0 with
    | none => simpa using resolved.calls
    | some call =>
      apply resolved.calls.snoc
      intro isLabel handle used
      obtain ⟨r, bound, known, creates⟩ := bound?_of_mem_operands own used
      exact ⟨r.creation bound, resolved.accounted.made r bound known, creates⟩

theorem Founded.linkAll (h : k.Founded) (current : Opcodes) (steps : List Step) :
    (k.linkAll current steps).Founded :=
  linkAll_preserves (fun _ step founded => founded.link current step) h steps

theorem Founded.act {a : Activity} (h : k.Founded) (creates : a.asksToCreate = true) :
    (k.act a).Founded := by
  cases a with
  | resolve r => exact h.resolve r
  | send current steps => exact h.linkAll current steps
  | receive request =>
    constructor
    · exact h.accounted.act (.receive request)
    · show Call.Founded (k.recorder.perform request).2.calls
      rw [(k.recorder.records_perform request).calls]
      apply h.calls.snoc
      intro isLabel handle used
      rw [k.recorder.operands_callFor creates] at used
      cases used

/-- The numbers that direct emission uses are those of the operands of the steps, in order. -/
theorem operands_directCalls (k : Linker) (current : Opcodes) (number : Numbering)
    (before : List Reference) (steps : List Step) (kind : Bool) :
    ((k.directCalls current number before steps).flatMap (·.operands kind)).map BitVec.toNat
      = (steps.flatMap (·.operands kind)).map fun r => (number r).toNat := by
  induction steps generalizing before with
  | nil => rfl
  | cons step steps ih =>
    have creations : ((k.firstUses before step.references).map
        fun r => r.creation (number r)).flatMap (·.operands kind) = [] := by
      simp [List.flatMap_map, Reference.operands_creation]
    rw [directCalls, List.flatMap_append, List.flatMap_append, creations, List.nil_append,
      List.map_append, Step.operands_ownCall?, ih, List.flatMap_cons, List.map_append]

end Linker

namespace Session

end Session

end CilBuffer
