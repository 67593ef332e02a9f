import CilBuffer.Proofs.MovedSteps
import CilBuffer.Proofs.Regions
import CilBuffer.Step.Tags

/-!
# What the replacement of an opcode changes

A replaced opcode shows in the steps that have it, wherever they and their copies are by now, and in
no other. The steps themselves stay, and with them their tags. The first steps of the buffer become
longer or shorter by the difference of the two sizes, for each of them that has the opcode. A long
form is longer than its short form: as long as the steps of a buffer stay, the replacement of short
forms by long ones brings no two places closer together, and no target back into reach.
-/

namespace CilBuffer

/-- No opcode is shorter than it was. -/
def Opcodes.GrowTo (f g : Opcodes) : Prop := ∀ slot, (f slot).size ≤ (g slot).size

/-- The distance fits in a displacement of eight bits. -/
def InShortReach (distance : Int) : Prop := -128 ≤ distance ∧ distance ≤ 127

namespace Opcodes

variable {f g h : Opcodes}

theorem GrowTo.refl (f : Opcodes) : f.GrowTo f := fun _ => Nat.le_refl _

theorem GrowTo.trans (first : f.GrowTo g) (second : g.GrowTo h) : f.GrowTo h :=
  fun slot => Nat.le_trans (first slot) (second slot)

theorem growTo_assign {slot : OpcodeSlot} {op : Opcode} (longer : (f slot).size ≤ op.size) :
    f.GrowTo (assign f slot op) := by
  intro other
  by_cases same : other = slot
  · subst same
    rw [assign_same]
    exact longer
  · exact Nat.le_of_eq (congrArg Opcode.size (assign_of_ne f op same).symm)

end Opcodes

namespace Step

variable {current f g : Opcodes}

theorem opcode?_assign (current : Opcodes) (slot : OpcodeSlot) (op : Opcode) (step : Step) :
    step.opcode? (assign current slot op)
      = if step.slot? = some slot then some op else step.opcode? current := by
  cases step with
  | branch own _ | switch own _ =>
    by_cases same : own = slot
    · subst same
      simp only [opcode?, slot?, assign_same, ↓reduceIte]
    · simp only [opcode?, slot?, assign_of_ne _ _ same, Option.some.injEq, same, ↓reduceIte]
  | _ => rfl

/-- A step that has the opcode changes its size by the difference, a table with all its targets. -/
theorem size_assign_of_slot? {slot : OpcodeSlot} {step : Step} (h : step.slot? = some slot)
    (op : Opcode) :
    (step.size (assign current slot op) : Int)
      = step.size current + ((op.size : Int) - (current slot).size) := by
  cases step with
  | branch own _ | switch own _ =>
    cases h
    simp only [size, assign_same]
    omega
  | _ => cases h

/-- By induction on the steps: each that has the opcode counts once. -/
theorem totalSize_assign (current : Opcodes) (slot : OpcodeSlot) (op : Opcode)
    (steps : List Step) :
    (totalSize (assign current slot op) steps : Int)
      = totalSize current steps
        + ((op.size : Int) - (current slot).size) * steps.countP (·.slot? = some slot) := by
  induction steps with
  | nil => simp
  | cons step steps ih =>
    rw [totalSize_cons, totalSize_cons, List.countP_cons, Int.natCast_add, Int.natCast_add, ih]
    by_cases own : step.slot? = some slot
    · rw [size_assign_of_slot? own]
      simp only [own, decide_true, ↓reduceIte, Int.natCast_add, Int.mul_add, Int.natCast_one,
        Int.mul_one]
      omega
    · rw [size_assign own]
      simp only [own, decide_false, Bool.false_eq_true, ↓reduceIte, Nat.add_zero]
      omega

theorem size_le_of_growTo (grow : f.GrowTo g) (step : Step) : step.size f ≤ step.size g := by
  cases step with
  | branch slot _ => exact grow slot
  | switch slot _ => exact Nat.add_le_add_right (grow slot) _
  | _ => exact Nat.le_refl _

theorem totalSize_le_of_growTo (grow : f.GrowTo g) (steps : List Step) :
    totalSize f steps ≤ totalSize g steps := by
  induction steps with
  | nil => exact Nat.le_refl _
  | cons step steps ih => exact Nat.add_le_add (size_le_of_growTo grow step) ih

/-- The bytes from the beginning of one step to the beginning of another, negative if the second
comes first. -/
def span (current : Opcodes) (steps : List Step) (start stop : Nat) : Int :=
  totalSize current (steps.take stop) - totalSize current (steps.take start)

theorem span_of_le (current : Opcodes) (steps : List Step) {start stop : Nat}
    (le : start ≤ stop) :
    span current steps start stop = totalSize current ((steps.take stop).drop start) := by
  have parts := List.take_append_drop start (steps.take stop)
  rw [List.take_take, Nat.min_eq_left le] at parts
  have sum := congrArg (totalSize current) parts
  rw [totalSize_append] at sum
  unfold span
  omega

theorem span_swap (current : Opcodes) (steps : List Step) (start stop : Nat) :
    span current steps stop start = -span current steps start stop := by
  unfold span
  omega

/-- A distance grows in its own direction. -/
theorem span_growTo (grow : f.GrowTo g) (steps : List Step) (start stop : Nat) :
    (0 ≤ span f steps start stop ∧ span f steps start stop ≤ span g steps start stop) ∨
      (span g steps start stop ≤ span f steps start stop ∧ span f steps start stop ≤ 0) := by
  rcases Nat.le_total start stop with le | le
  · left
    rw [span_of_le f steps le, span_of_le g steps le]
    have longer := totalSize_le_of_growTo grow ((steps.take stop).drop start)
    omega
  · right
    rw [span_swap f steps stop start, span_swap g steps stop start, span_of_le f steps le,
      span_of_le g steps le]
    have longer := totalSize_le_of_growTo grow ((steps.take start).drop stop)
    omega

end Step

namespace Operation

/-- The operation replies with the handle, which belongs to the buffer that it was obtained from. A
handle that is obtained with its step has the opcode that the step is made with. -/
inductive Obtains (handle : OpcodeHandle) : Operation → Prop
  | branch (target : Label) :
    Obtains handle (.emit handle.buffer (.branch handle.slot.initial target))
  | switch (targets : List Label) :
    Obtains handle (.emit handle.buffer (.switch handle.slot.initial targets))
  | find (index : Nat) : Obtains handle (.opcodeHandle handle.buffer index)

/-- The operation leaves the steps of the buffer as they are. If it replaces an opcode, it does so
by the long form, and not behind the back of the buffer. -/
structure Upgrades (id : Nat) (o : Operation) (s : Session) : Prop where
  spares : o.Spares id s
  steps : ((s.perform o).2.buffers id).steps = (s.buffers id).steps
  longForm : ∀ handle op, o = .setOpcode handle op →
    (s.opcodes handle.slot).longForm? = some op

end Operation

namespace Session

variable {s : Session} {handle : OpcodeHandle} {o : Operation} {id : Nat}

/-- The opcode of the handle has been replaced. Of the steps it shows in those that have it, in what
the opcode is and not in the tags. Each of them that is in the buffer of the handle changes all
lengths beyond it by the difference of the two sizes. -/
structure Replaces (s : Session) (handle : OpcodeHandle) (op : Opcode) (s' : Session) : Prop where
  steps : ∀ id, (s'.buffers id).steps = (s.buffers id).steps
  current : ∀ step : Step, step.opcode? s'.opcodes
    = if step.slot? = some handle.slot then some op else step.opcode? s.opcodes
  tags : ∀ id, ∀ step ∈ (s'.buffers id).steps, step.slot? = some handle.slot →
    step.tags.instruction = some handle.slot.initial
  lengths : ∀ position, position ≤ (s.buffers handle.buffer).length →
    ∃ before after : Nat,
      (s.perform (.cumulativeLength handle.buffer position)).1 = .length before ∧
      (s'.perform (.cumulativeLength handle.buffer position)).1 = .length after ∧
      (after : Int) - before = ((op.size : Int) - (s.opcodes handle.slot).size)
        * ((s.buffers handle.buffer).steps.take position).countP (·.slot? = some handle.slot)

/-! ### Where a handle comes from -/

theorem holds_append (s : Session) {step : Step} {slot : OpcodeSlot}
    (own : step.slot? = some slot) : ((s.append id step).buffers id).Holds slot := by
  unfold append
  rw [buffers_setBuffer_same]
  exact ⟨step, List.mem_append_right _ (List.mem_singleton_self step), own⟩

/-- The buffer that a handle is obtained from holds the opcode at that time. -/
theorem obtains_of_reply (h : (s.perform o).1 = .opcodeHandle (some handle)) :
    o.Obtains handle ∧ ((s.perform o).2.buffers handle.buffer).Holds handle.slot := by
  cases o with
  | newBuffer anchor => cases anchor <;> cases h
  | insert _ _ _ | remove _ _ | cumulativeLength _ _ | byteDistance _ _ _ =>
    simp only [perform] at h
    split at h <;> cases h
  | describe buffer scopes annotated =>
    simp only [perform] at h
    split at h
    · split at h <;> cases h
    · cases h
  | emit buffer emission =>
    cases emission with
    | branch op target =>
      cases h
      exact ⟨.branch target, holds_append (s.newSlot op).2 rfl⟩
    | switch op targets =>
      cases h
      exact ⟨.switch targets, holds_append (s.newSlot op).2 rfl⟩
    | _ => cases h
  | opcodeHandle buffer index =>
    simp only [perform, Reply.opcodeHandle.injEq, Option.map_eq_some_iff] at h
    obtain ⟨slot, found, rfl⟩ := h
    exact ⟨.find index, Buffer.holds_iff_slotAt?.mpr ⟨index, found⟩⟩
  | _ => cases h

theorem run_obtains {operations : List Operation} {i : Nat}
    (h : (s.run operations).1[i]? = some (.opcodeHandle (some handle))) :
    ∃ before o after, operations = before ++ o :: after ∧ before.length = i ∧
      o.Obtains handle ∧ ((s.run (before ++ [o])).2.buffers handle.buffer).Holds handle.slot := by
  induction operations generalizing s i with
  | nil => cases h
  | cons o operations ih =>
    cases i with
    | zero =>
      have reply : (s.perform o).1 = .opcodeHandle (some handle) := Option.some.inj h
      obtain ⟨obtains, holds⟩ := obtains_of_reply reply
      exact ⟨[], o, operations, rfl, rfl, obtains, holds⟩
    | succ i =>
      obtain ⟨before, last, after, rfl, rfl, obtains, holds⟩ := ih h
      exact ⟨o :: before, last, after, rfl, rfl, obtains, holds⟩

/-! ### Lengths and distances of a buffer that agrees -/

theorem Agrees.perform_cumulativeLength (h : s.Agrees id) {position : Nat}
    (within : position ≤ (s.buffers id).length) :
    (s.perform (.cumulativeLength id position)).1
      = .length (Step.totalSize s.opcodes ((s.buffers id).steps.take position)) := by
  rw [h.answersPlainly position, Buffer.plainLength, if_pos within, Step.totalSize, Buffer.sizes,
    List.map_take]

theorem Agrees.perform_byteDistance (h : s.Agrees id) {start stop : Nat}
    (first : start ≤ (s.buffers id).length) (second : stop ≤ (s.buffers id).length) :
    (s.perform (.byteDistance id start stop)).1
      = .distance (Step.span s.opcodes (s.buffers id).steps start stop) := by
  obtain ⟨answer, -⟩ := Buffer.Agrees.byteDistance h start stop
  have plain : (s.buffers id).plainDistance s.opcodes start stop
      = .ok (Step.span s.opcodes (s.buffers id).steps start stop) := by
    simp only [Buffer.plainDistance, Buffer.plainLength, if_pos first, if_pos second, Step.span,
      Step.totalSize, Buffer.sizes, List.map_take]
  rw [plain] at answer
  simp only [perform]
  split <;> rename_i given <;> rw [given] at answer <;> cases answer
  rfl

/-- A buffer that is exchanged for one with the same steps leaves the steps of all as they are. -/
theorem steps_setBuffer {b : Buffer} (h : b.steps = (s.buffers id).steps) (other : Nat) :
    ((s.setBuffer id b).buffers other).steps = (s.buffers other).steps := by
  by_cases same : other = id
  · subst same
    rw [buffers_setBuffer_same]
    exact h
  · rw [buffers_setBuffer_of_ne s b same]

/-- A set edits no buffer. -/
theorem steps_setOpcode (s : Session) (handle : OpcodeHandle) (op : Opcode) (id : Nat) :
    ((s.setOpcode handle op).buffers id).steps = (s.buffers id).steps := by
  unfold setOpcode
  rw [steps_setBuffer (by rfl)]

/-- The buffer of a handle need not hold the opcode, and need not be the only one that does. -/
theorem replaces_setOpcode (h : s.Agrees handle.buffer) (op : Opcode) :
    s.Replaces handle op (s.setOpcode handle op) := by
  have steps := s.steps_setOpcode handle op
  constructor
  · exact steps
  · exact Step.opcode?_assign s.opcodes handle.slot op
  · intro id step _ own
    cases step <;> cases own <;> rfl
  · intro position within
    have agrees : (s.setOpcode handle op).Agrees handle.buffer :=
      agrees_setOpcode h handle op fun ne => absurd rfl ne
    have within' : position ≤ ((s.setOpcode handle op).buffers handle.buffer).length := by
      rw [Buffer.length, steps]
      exact within
    refine ⟨_, _, h.perform_cumulativeLength within, agrees.perform_cumulativeLength within', ?_⟩
    have total := Step.totalSize_assign s.opcodes handle.slot op
      ((s.buffers handle.buffer).steps.take position)
    rw [steps]
    change (Step.totalSize (assign s.opcodes handle.slot op) _ : Int) - _ = _
    omega

/-! ### Upgrades -/

/-- Only a set changes the opcodes in effect. -/
theorem opcodes_perform_of_ne (h : ∀ handle op, o ≠ .setOpcode handle op) :
    (s.perform o).2.opcodes = s.opcodes := by
  cases o with
  | setOpcode handle op => exact absurd rfl (h handle op)
  | newBuffer anchor => cases anchor <;> rfl
  | insert _ _ _ | remove _ _ | cumulativeLength _ _ | byteDistance _ _ _ =>
    simp only [perform]
    split <;> rfl
  | emit _ emission => cases emission <;> rfl
  | replay step target => cases target <;> rfl
  | describe buffer scopes annotated => rw [perform_describe]
  | _ => rfl

theorem growTo_perform (upgrades : o.Upgrades id s) : s.opcodes.GrowTo (s.perform o).2.opcodes := by
  cases o with
  | setOpcode handle op =>
    apply Opcodes.growTo_assign
    have longer := Opcode.size_of_longForm? (upgrades.longForm handle op rfl)
    omega
  | _ =>
    rw [opcodes_perform_of_ne (by rintro _ _ ⟨⟩)]
    exact .refl _

/-- The buffer has the same steps, its opcodes are no shorter, and its offsets agree with them. -/
structure Upgraded (s : Session) (id : Nat) (s' : Session) : Prop where
  agrees : s'.Agrees id
  steps : (s'.buffers id).steps = (s.buffers id).steps
  grow : s.opcodes.GrowTo s'.opcodes

/-- By induction on the run, one upgrade after the other. -/
theorem upgraded_run {later : List Operation} (agrees : s.Agrees id)
    (upgrades : s.Along (Operation.Upgrades id) later) : s.Upgraded id (s.run later).2 := by
  have each : ∀ o s', Operation.Upgrades id o s' → s.Upgraded id s' →
      s.Upgraded id (s'.perform o).2 := by
    intro o s' own upgraded
    exact ⟨agrees_perform upgraded.agrees own.spares, own.steps.trans upgraded.steps,
      upgraded.grow.trans (growTo_perform own)⟩
  exact upgrades.run_preserves each ⟨agrees, rfl, .refl _⟩

/-- A run has replaced no opcode behind the back of a buffer. Then a handle that it has obtained
belongs to the buffer that it was obtained from, which has held the opcode. To replace the opcode of
any handle changes the opcode of exactly the steps that have it, no tags, and the lengths of the
buffer by the difference of the two sizes for each of these steps. And however many short forms are
replaced by long ones while the steps of a buffer stay, no distance in it becomes smaller, and none
that is out of reach of a short form comes back into it. -/
theorem opcode_replacements (operations : List Operation)
    (spared : new.Along (fun operation s => ∀ id, operation.Spares id s) operations) :
    let s := (new.run operations).2
    (∀ i handle, (new.run operations).1[i]? = some (.opcodeHandle (some handle)) →
      ∃ before o after, operations = before ++ o :: after ∧ before.length = i ∧
        o.Obtains handle ∧
          ((new.run (before ++ [o])).2.buffers handle.buffer).Holds handle.slot) ∧
      (∀ handle op, s.Replaces handle op (s.perform (.setOpcode handle op)).2) ∧
      ∀ id later, s.Along (Operation.Upgrades id) later →
        ∀ start stop, start ≤ (s.buffers id).length → stop ≤ (s.buffers id).length →
          ∃ before after : Int,
            (s.perform (.byteDistance id start stop)).1 = .distance before ∧
            ((s.run later).2.perform (.byteDistance id start stop)).1 = .distance after ∧
            before.natAbs ≤ after.natAbs ∧ (¬ InShortReach before → ¬ InShortReach after) := by
  intro s
  have agrees : ∀ id, s.Agrees id := by
    intro id
    have own : new.Along (Operation.Spares id) operations := spared.imp fun _ _ all => all id
    exact agrees_run own (agrees_new id)
  refine ⟨fun i handle => run_obtains, fun handle op => ?_, ?_⟩
  · exact replaces_setOpcode (agrees handle.buffer) op
  · intro id later upgrades start stop first second
    have upgraded := upgraded_run (agrees id) upgrades
    have length : ((s.run later).2.buffers id).length = (s.buffers id).length :=
      congrArg List.length upgraded.steps
    have before := (agrees id).perform_byteDistance first second
    have after := upgraded.agrees.perform_byteDistance (length ▸ first) (length ▸ second)
    rw [upgraded.steps] at after
    refine ⟨_, _, before, after, ?_⟩
    have direction := Step.span_growTo upgraded.grow (s.buffers id).steps start stop
    unfold InShortReach
    omega

/-- A branch and its copy lead over a table of forty targets. Both have moved since, and lead out of
a region by now. -/
def coupledLeaves : List Operation :=
  [.newBuffer none, .newLabel "end", .emit 0 (.branch .brS ⟨1, "end", .plain⟩),
    .append 0 (.branch ⟨2, .brS⟩ ⟨1, "end", .plain⟩),
    .emit 0 (.switch .switch (List.replicate 40 ⟨1, "end", .plain⟩)), .cumulativeLength 0 2,
    .insert 0 0 (.instruction .nop .none), .opcodeHandle 0 2, .setOpcode ⟨⟨2, .brS⟩, 0⟩ .leaveS]

/-- The leaves become long, and the other buffers go on. -/
def lengthenedLeaves : List Operation :=
  [.byteDistance 0 1 4, .setOpcode ⟨⟨2, .brS⟩, 0⟩ .leave, .newBuffer (some "top")]

theorem coupledLeaves_replacements :
    let s := (new.run coupledLeaves).2
    let handle : OpcodeHandle := ⟨⟨2, .brS⟩, 0⟩
    new.Along (fun operation s => ∀ id, operation.Spares id s) coupledLeaves ∧
      (new.run coupledLeaves).1[7]? = some (.opcodeHandle (some handle)) ∧
      s.Along (Operation.Upgrades 0) lengthenedLeaves ∧
      (∃ before after : Nat, (s.perform (.cumulativeLength 0 3)).1 = .length before ∧
        ((s.setOpcode handle .leave).perform (.cumulativeLength 0 3)).1 = .length after ∧
        (after : Int) - before = 6) ∧
      (s.perform (.byteDistance 0 4 1)).1 = .distance (-169) ∧
      ∃ after : Int,
        ((s.run lengthenedLeaves).2.perform (.byteDistance 0 4 1)).1 = .distance after ∧
        169 ≤ after.natAbs ∧ ¬ InShortReach after := by
  intro s handle
  have spared : new.Along (fun operation s => ∀ id, operation.Spares id s) coupledLeaves := by
    refine ⟨?_, ?_, ?_, ?_, ?_, ?_, ?_, ?_, ?_, trivial⟩
    all_goals intro id handle op h
    all_goals cases h
    -- All buffers but the first are empty.
    rintro ne ⟨step, mem, own⟩
    match id, ne, mem with
    | 0, ne, _ => exact absurd rfl ne
    | n + 1, _, mem => cases mem
  have upgrades : s.Along (Operation.Upgrades 0) lengthenedLeaves := by
    refine ⟨⟨?_, rfl, ?_⟩, ⟨?_, rfl, ?_⟩, ⟨?_, rfl, ?_⟩, trivial⟩
    all_goals intro handle op h
    all_goals cases h
    · exact fun ne => absurd rfl ne
    · rfl
  have reply : (new.run coupledLeaves).1[7]? = some (.opcodeHandle (some handle)) := by decide
  have length : (s.buffers 0).length = 4 := by decide
  obtain ⟨-, replaces, distances⟩ := opcode_replacements coupledLeaves spared
  obtain ⟨before, after, first, second, difference⟩ :=
    (replaces handle .leave).lengths 3 (length ▸ by decide)
  have pair : ((s.buffers 0).steps.take 3).countP (·.slot? = some handle.slot) = 2 := by decide
  have short : (s.opcodes handle.slot).size = 2 := by decide
  have long : Opcode.leave.size = 5 := by decide
  obtain ⟨near, far, asked, later, grown, out⟩ :=
    distances 0 lengthenedLeaves upgrades 4 1 (length ▸ by decide) (length ▸ by decide)
  have backward : (s.perform (.byteDistance 0 4 1)).1 = .distance (-169) := by decide
  obtain rfl : near = -169 := by
    rw [backward] at asked
    exact (Reply.distance.inj asked).symm
  refine ⟨spared, reply, upgrades, ⟨before, after, first, second, ?_⟩, backward, far, later, grown,
    out (by unfold InShortReach; omega)⟩
  calc (after : Int) - before
      = ((Opcode.leave.size : Int) - (s.opcodes handle.slot).size)
          * ((s.buffers 0).steps.take 3).countP (·.slot? = some handle.slot) := difference
    _ = 6 := by rw [pair, short, long]; rfl

end Session

end CilBuffer
