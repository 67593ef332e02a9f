import CilBuffer.Proofs.CacheFreeRuns

/-!
# Steps that change buffers

A handle makes stale the offsets of the buffer that it was obtained from, also when its step has
been moved to another buffer since. So a set keeps opcodes and offsets together if the step is in
no buffer but that one, and the buffer that holds the step later answers with the sizes in effect,
wherever the step has been moved by then. A set through a handle that the step has left behind does
not: what the buffer that holds the step has added up before, it goes on to answer.
-/

namespace CilBuffer

namespace OffsetTable

/-- An entry that is known is not looked up again, whatever the sizes are by now. -/
theorem lengthTo_of_known {t : OffsetTable} {position : Nat} (fresh : t.stale = false)
    (known : position < t.sums.length) (sizes others : List Nat) :
    (t.lengthTo position sizes).1 = (t.lengthTo position others).1 := by
  have kept : t.known = t.sums := by
    have some_known : t.sums ≠ [] := List.ne_nil_of_length_pos (by omega)
    simp [OffsetTable.known, fresh, some_known]
  have entry : ∀ sizes, (t.fill position sizes).sums[position]? = t.sums[position]? := by
    intro sizes
    rw [fill_known (by rw [kept]; exact known), kept]
  unfold lengthTo
  split
  · rfl
  · simp only [List.getD_eq_getElem?_getD, entry]

end OffsetTable

namespace Session

variable {s : Session} {handle : OpcodeHandle} {op : Opcode} {id : Nat}

/-- No replaceable opcode is in two places, be it in one buffer or in two. -/
def Unshared (s : Session) : Prop :=
  ∀ id other i j slot, (s.buffers id).slotAt? i = some slot →
    (s.buffers other).slotAt? j = some slot → id = other ∧ i = j

/-- No buffer holds the opcode of the handle, but for the one that the handle was obtained from. -/
def AtHome (s : Session) (handle : OpcodeHandle) : Prop :=
  ∀ id, id ≠ handle.buffer → ¬ (s.buffers id).Holds handle.slot

/-- The buffer answers with the sum of the sizes in effect, or refuses the index. -/
def AnswersPlainly (s : Session) (id : Nat) : Prop :=
  ∀ position, (s.perform (.cumulativeLength id position)).1
    = match (s.buffers id).plainLength s.opcodes position with
      | .ok bytes => .length bytes
      | .error cause => .refused cause

theorem Agrees.answersPlainly (h : s.Agrees id) : s.AnswersPlainly id := by
  intro position
  obtain ⟨answer, -⟩ := Buffer.Agrees.cumulativeLength h position
  simp only [perform]
  rw [← answer]
  rcases (s.buffers id).cumulativeLength s.opcodes position with ⟨reply, b⟩
  cases reply <;> rfl

/-- The steps of the buffer are still the same, or its offsets agree with the new ones. -/
def KeepsOrAgrees (s s' : Session) (id : Nat) : Prop :=
  (s'.buffers id).steps = (s.buffers id).steps ∨ s'.Agrees id

theorem keepsOrAgrees_setBuffer (s : Session) {other : Nat} {b : Buffer}
    (h : other = id → b.steps = (s.buffers id).steps ∨ b.Agrees s.opcodes) :
    s.KeepsOrAgrees (s.setBuffer other b) id := by
  unfold KeepsOrAgrees Agrees
  by_cases same : id = other
  · subst same
    rw [buffers_setBuffer_same]
    exact h rfl
  · rw [buffers_setBuffer_of_ne s b same]
    exact .inl rfl

theorem keepsOrAgrees_append (s : Session) (other : Nat) (step : Step) :
    s.KeepsOrAgrees (s.append other step) id :=
  keepsOrAgrees_setBuffer s fun _ => .inr (Buffer.agrees_ofSteps _ _)

/-- An operation that changes the steps of a buffer leaves its offsets in agreement with them,
whatever they were before. -/
theorem keepsOrAgrees_perform (s : Session) (o : Operation) (id : Nat) :
    s.KeepsOrAgrees (s.perform o).2 id := by
  cases o with
  | newBuffer anchor =>
    cases anchor with
    | none => exact .inl rfl
    | some name => exact keepsOrAgrees_append (s.fresh.2.newLabel name).2 _ _
  | append buffer step => exact keepsOrAgrees_append s buffer step
  | insert buffer index step =>
    simp only [perform]
    split
    · rename_i b inserted
      exact keepsOrAgrees_setBuffer s fun _ => .inr (Buffer.agrees_of_insert inserted _)
    · exact .inl rfl
  | remove buffer index =>
    simp only [perform]
    split
    · rename_i step b removed
      exact keepsOrAgrees_setBuffer s fun _ => .inr (Buffer.agrees_of_remove removed _)
    · exact .inl rfl
  | emit buffer emission => cases emission <;> exact keepsOrAgrees_append _ buffer _
  | setOpcode handle op =>
    apply keepsOrAgrees_setBuffer
    rintro rfl
    exact .inl rfl
  | cumulativeLength buffer position =>
    have same := (s.buffers buffer).steps_cumulativeLength s.opcodes position
    simp only [perform]
    split <;> rename_i asked <;> rw [asked] at same <;> apply keepsOrAgrees_setBuffer <;>
      rintro rfl <;> exact .inl same
  | byteDistance buffer start stop =>
    have same := (s.buffers buffer).steps_byteDistance s.opcodes start stop
    simp only [perform]
    split <;> rename_i asked <;> rw [asked] at same <;> apply keepsOrAgrees_setBuffer <;>
      rintro rfl <;> exact .inl same
  | replay step target => cases target <;> exact .inl rfl
  | describe buffer scopes annotated =>
    rw [perform_describe]
    exact .inl rfl
  | _ => exact .inl rfl

/-- The offsets of the buffer agree with the sizes if it holds the opcode. -/
def AgreesIfHolds (s : Session) (slot : OpcodeSlot) (id : Nat) : Prop :=
  (s.buffers id).Holds slot → s.Agrees id

/-- A set at home leaves no buffer with the opcode and with offsets that are relied on: the one has
stale offsets, and the others do not hold the opcode. -/
theorem agreesIfHolds_setOpcode (home : s.AtHome handle) (op : Opcode) (id : Nat) :
    (s.setOpcode handle op).AgreesIfHolds handle.slot id := by
  intro holds
  by_cases same : id = handle.buffer
  · subst same
    exact agrees_setOpcode_self s handle op
  · unfold setOpcode at holds
    rw [buffers_setBuffer_of_ne _ _ same] at holds
    exact absurd holds (home id same)

/-- If the step has come into the buffer by the operation, the operation has emptied the table. -/
theorem agreesIfHolds_perform {slot : OpcodeSlot} {o : Operation} (h : s.AgreesIfHolds slot id)
    (spared : o.Spares id s) : (s.perform o).2.AgreesIfHolds slot id := by
  intro holds
  obtain kept | agrees := keepsOrAgrees_perform s o id
  · have before : (s.buffers id).Holds slot := by
      unfold Buffer.Holds at holds ⊢
      rw [kept] at holds
      exact holds
    exact agrees_perform (h before) spared
  · exact agrees

/-- After a set at home the buffer that holds the step answers with the sizes in effect, be it the
buffer of the handle or one that the step has been moved to since, as long as no opcode of the
buffer is set through a handle of another one. A set through a handle of another buffer shows in no
answer that the buffer has added up before. -/
theorem lengths_after_setOpcode (s : Session) (handle : OpcodeHandle) (op : Opcode) (id : Nat) :
    (s.AtHome handle →
      ∀ operations, (s.setOpcode handle op).Along (Operation.Spares id) operations →
        (((s.setOpcode handle op).run operations).2.buffers id).Holds handle.slot →
          ((s.setOpcode handle op).run operations).2.AnswersPlainly id) ∧
    (id ≠ handle.buffer → (s.buffers id).offsets.stale = false →
      ∀ position, position < (s.buffers id).offsets.sums.length →
        ((s.setOpcode handle op).perform (.cumulativeLength id position)).1
          = (s.perform (.cumulativeLength id position)).1) := by
  constructor
  · intro home operations later holds
    have start := agreesIfHolds_setOpcode home op id
    have each : ∀ o (s : Session), Operation.Spares id o s → s.AgreesIfHolds handle.slot id →
        (s.perform o).2.AgreesIfHolds handle.slot id :=
      fun _ _ spared h => agreesIfHolds_perform h spared
    exact (later.run_preserves each start holds).answersPlainly
  · intro foreign fresh position known
    have kept : (s.setOpcode handle op).buffers id = s.buffers id :=
      buffers_setBuffer_of_ne _ _ foreign
    simp only [perform, kept]
    rcases Nat.lt_or_ge (s.buffers id).length position with out | within
    · simp only [Buffer.cumulativeLength_of_gt out]
    · simp only [Buffer.cumulativeLength_of_le within,
        OffsetTable.lengthTo_of_known fresh known _ ((s.buffers id).sizes s.opcodes)]

/-- If no step is in two places, a handle is at home as long as its step is in its buffer. -/
theorem Unshared.atHome (h : s.Unshared) (holds : (s.buffers handle.buffer).Holds handle.slot) :
    s.AtHome handle := by
  intro id ne other
  obtain ⟨i, here⟩ := Buffer.holds_iff_slotAt?.mp other
  obtain ⟨j, there⟩ := Buffer.holds_iff_slotAt?.mp holds
  exact ne (h id handle.buffer i j handle.slot here there).1

theorem unshared_of_single (id : Nat)
    (others : ∀ other, other ≠ id → (s.buffers other).steps = [])
    (one : (s.buffers id).steps.length ≤ 1) : s.Unshared := by
  have place : ∀ other i slot, (s.buffers other).slotAt? i = some slot → other = id ∧ i = 0 := by
    intro other i slot found
    obtain ⟨step, at_i, -⟩ := Option.bind_eq_some_iff.mp found
    have inside : i < (s.buffers other).steps.length := (List.getElem?_eq_some_iff.mp at_i).1
    by_cases same : other = id
    · subst same
      exact ⟨rfl, by omega⟩
    · rw [others other same] at inside
      exact absurd inside (Nat.not_lt_zero i)
  intro other another i j slot here there
  obtain ⟨rfl, rfl⟩ := place other i slot here
  obtain ⟨rfl, rfl⟩ := place another j slot there
  exact ⟨rfl, rfl⟩

/-- A branch is moved to a second buffer, which adds its size up. -/
def movedAway : List Operation :=
  [.newLabel "exit", .newBuffer none, .newBuffer none,
    .emit 1 (.branch .brS ⟨0, "exit", .plain⟩), .remove 1 0,
    .append 2 (.branch ⟨3, .brS⟩ ⟨0, "exit", .plain⟩), .cumulativeLength 2 1]

/-- The branch is moved back to the first buffer. -/
def movedBack : List Operation :=
  [.cumulativeLength 2 1, .remove 2 0, .append 1 (.branch ⟨3, .brS⟩ ⟨0, "exit", .plain⟩)]

theorem unshared_movedAway : (new.run movedAway).2.Unshared := by
  apply unshared_of_single 2
  · intro other ne
    match other, ne with
    | 0, _ => rfl
    | 1, _ => rfl
    | 2, ne => exact absurd rfl ne
    | n + 3, _ => rfl
  · decide

theorem holds_movedAway : ((new.run movedAway).2.buffers 2).Holds ⟨3, .brS⟩ :=
  ⟨.branch ⟨3, .brS⟩ ⟨0, "exit", .plain⟩, by decide, rfl⟩

/-- The branch is made long through a handle of the second buffer, and moved back. Through the
handle that it was recorded with it would be made long behind the back of the second buffer. -/
theorem movedBack_lengths :
    let s := (new.run movedAway).2
    let s' := s.setOpcode ⟨⟨3, .brS⟩, 2⟩ .br
    s.AtHome ⟨⟨3, .brS⟩, 2⟩ ∧ s'.Along (Operation.Spares 1) movedBack ∧
      ((s'.run movedBack).2.buffers 1).Holds ⟨3, .brS⟩ ∧ (s'.run movedBack).2.AnswersPlainly 1 ∧
      ((s.setOpcode ⟨⟨3, .brS⟩, 1⟩ .br).perform (.cumulativeLength 2 1)).1
        = (s.perform (.cumulativeLength 2 1)).1 := by
  intro s s'
  have home : s.AtHome ⟨⟨3, .brS⟩, 2⟩ := unshared_movedAway.atHome holds_movedAway
  have later : s'.Along (Operation.Spares 1) movedBack := by
    refine ⟨?_, ?_, ?_, trivial⟩
    all_goals intro handle op h
    all_goals cases h
  have holds : ((s'.run movedBack).2.buffers 1).Holds ⟨3, .brS⟩ :=
    ⟨.branch ⟨3, .brS⟩ ⟨0, "exit", .plain⟩, by decide, rfl⟩
  refine ⟨home, later, holds, ?_, ?_⟩
  · exact (lengths_after_setOpcode s ⟨⟨3, .brS⟩, 2⟩ .br 1).1 home movedBack later holds
  · exact (lengths_after_setOpcode s ⟨⟨3, .brS⟩, 1⟩ .br 2).2 (by decide) (by decide) 1 (by decide)

/-- No step is ever in two places. Yet once the branch is made long through the handle that it was
recorded with, the buffer that holds it goes on to count two bytes for it, where it takes five. -/
theorem leftBehind_drifts :
    let s := (new.run (movedAway ++ [.setOpcode ⟨⟨3, .brS⟩, 1⟩ .br])).2
    new.Along (fun _ s => s.Unshared) (movedAway ++ [.setOpcode ⟨⟨3, .brS⟩, 1⟩ .br]) ∧
      s.Unshared ∧ (new.run movedAway).1[3]? = some (.opcodeHandle (some ⟨⟨3, .brS⟩, 1⟩)) ∧
      (s.buffers 2).Holds ⟨3, .brS⟩ ∧
      (s.perform (.cumulativeLength 2 1)).1 = .length 2 ∧
      (s.buffers 2).plainLength s.opcodes 1 = .ok 5 := by
  refine ⟨⟨?_, ?_, ?_, ?_, ?_, ?_, ?_, ?_, trivial⟩, ?_, rfl, holds_movedAway, rfl, rfl⟩
  -- The branch is in the first buffer until it is removed, and in the second from then on.
  iterate 6
    · apply unshared_of_single 1
      · intro other ne
        match other, ne with
        | 0, _ => rfl
        | 1, ne => exact absurd rfl ne
        | n + 2, _ => rfl
      · decide
  all_goals
    apply unshared_of_single 2
    · intro other ne
      match other, ne with
      | 0, _ => rfl
      | 1, _ => rfl
      | 2, ne => exact absurd rfl ne
      | n + 3, _ => rfl
    · decide

end Session

end CilBuffer
