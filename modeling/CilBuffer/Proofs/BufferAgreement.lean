import CilBuffer.Assignment
import CilBuffer.Proofs.TableAgreement

/-!
# Buffers that answer with plain sums

The offsets of a buffer without a table are sums of sizes, and a question is refused exactly if its
index lies beyond the end. A buffer whose table agrees with its sizes gives the same answers, and
its table agrees afterwards. Of the two questions behind a distance the second meets the table that
the first has filled.
-/

namespace CilBuffer

theorem Step.size_assign {current : Opcodes} {slot : OpcodeSlot} {step : Step}
    (h : step.slot? ≠ some slot) (op : Opcode) :
    step.size (assign current slot op) = step.size current := by
  cases step with
  | branch own target =>
    have ne : own ≠ slot := fun same => h (congrArg some same)
    simp only [Step.size, assign_of_ne _ _ ne]
  | switch own targets =>
    have ne : own ≠ slot := fun same => h (congrArg some same)
    simp only [Step.size, assign_of_ne _ _ ne]
  | _ => rfl

namespace Buffer

/-- A step of the buffer has the replaceable opcode. -/
def Holds (b : Buffer) (slot : OpcodeSlot) : Prop := ∃ step ∈ b.steps, step.slot? = some slot

theorem holds_iff_slotAt? {b : Buffer} {slot : OpcodeSlot} :
    b.Holds slot ↔ ∃ i, b.slotAt? i = some slot := by
  constructor
  · rintro ⟨step, mem, own⟩
    obtain ⟨i, at_i⟩ := List.getElem?_of_mem mem
    exact ⟨i, by rw [slotAt?, at_i, Option.bind_some, own]⟩
  · rintro ⟨i, found⟩
    obtain ⟨step, at_i, own⟩ := Option.bind_eq_some_iff.mp found
    exact ⟨step, List.mem_of_getElem? at_i, own⟩

/-- The table of the buffer agrees with the sizes now in effect. -/
def Agrees (b : Buffer) (current : Opcodes) : Prop := b.offsets.Agrees (b.sizes current)

/-- The size of the first steps, added up anew. -/
def plainLength (b : Buffer) (current : Opcodes) (position : Nat) : Except BufferError Nat :=
  if position ≤ b.length then .ok ((b.sizes current).take position).sum
  else .error (.indexOutOfRange .offsetQuery position (.positions b.length))

/-- The difference of two sums. The first index is looked at before the second. -/
def plainDistance (b : Buffer) (current : Opcodes) (start stop : Nat) : Except BufferError Int :=
  match b.plainLength current start, b.plainLength current stop with
  | .error e, _ => .error e
  | .ok _, .error e => .error e
  | .ok below, .ok above => .ok (above - below)

theorem agrees_ofSteps (steps : List Step) (current : Opcodes) :
    (ofSteps steps).Agrees current :=
  OffsetTable.agrees_empty _

theorem agrees_markStale (b : Buffer) (current : Opcodes) : b.markStale.Agrees current :=
  OffsetTable.agrees_of_stale rfl _

theorem sizes_assign {b : Buffer} {slot : OpcodeSlot} (h : ¬ b.Holds slot) (current : Opcodes)
    (op : Opcode) : b.sizes (assign current slot op) = b.sizes current := by
  apply List.map_congr_left
  intro step hs
  exact Step.size_assign (fun own => h ⟨step, hs, own⟩) op

@[simp] theorem length_sizes (b : Buffer) (current : Opcodes) :
    (b.sizes current).length = b.length :=
  List.length_map ..

theorem insert_of_gt {b : Buffer} {index : Nat} (h : b.length < index) (step : Step) :
    b.insert index step = .error (.indexOutOfRange .insert index (.positions b.length)) := by
  have out : ¬ (ValidRange.positions b.length).contains index = true := by
    rw [ValidRange.contains_positions]
    omega
  simp only [insert, BufferError.checkIndex, if_neg out, bind, Except.bind]

/-- An edit leaves nothing in the table. -/
theorem agrees_of_insert {b c : Buffer} {index : Nat} {step : Step}
    (h : b.insert index step = .ok c) (current : Opcodes) : c.Agrees current := by
  rcases Nat.lt_or_ge b.length index with out | within
  · rw [insert_of_gt out] at h
    cases h
  · rw [insert_of_le within] at h
    cases h
    exact agrees_ofSteps _ _

theorem agrees_of_remove {b c : Buffer} {index : Nat} {step : Step}
    (h : b.remove index = .ok (step, c)) (current : Opcodes) : c.Agrees current := by
  rcases Nat.lt_or_ge index b.length with within | out
  · rw [remove_of_lt within] at h
    cases h
    exact agrees_ofSteps _ _
  · rw [remove_of_ge out] at h
    cases h

theorem steps_cumulativeLength (b : Buffer) (current : Opcodes) (position : Nat) :
    (b.cumulativeLength current position).2.steps = b.steps := by
  rcases Nat.lt_or_ge b.length position with out | within
  · rw [cumulativeLength_of_gt out]
  · rw [cumulativeLength_of_le within]

/-- A table that agrees gives the answer of a plain sum, and agrees afterwards. -/
theorem Agrees.cumulativeLength {b : Buffer} {current : Opcodes} (h : b.Agrees current)
    (position : Nat) :
    (b.cumulativeLength current position).1 = b.plainLength current position ∧
      (b.cumulativeLength current position).2.Agrees current := by
  rcases Nat.lt_or_ge b.length position with out | within
  · rw [cumulativeLength_of_gt out]
    exact ⟨by rw [plainLength, if_neg (by omega)], h⟩
  · have reach : position ≤ (b.sizes current).length := by simpa using within
    have answer := OffsetTable.Agrees.lengthTo h reach
    rw [cumulativeLength_of_le within]
    exact ⟨by rw [plainLength, if_pos within, answer.1], answer.2⟩

theorem plainLength_congr {b c : Buffer} (h : b.steps = c.steps) (current : Opcodes)
    (position : Nat) : b.plainLength current position = c.plainLength current position := by
  cases b
  cases h
  rfl

theorem plainDistance_congr {b c : Buffer} (h : b.steps = c.steps) (current : Opcodes)
    (start stop : Nat) :
    b.plainDistance current start stop = c.plainDistance current start stop := by
  simp only [plainDistance, plainLength_congr h]

theorem steps_byteDistance (b : Buffer) (current : Opcodes) (start stop : Nat) :
    (b.byteDistance current start stop).2.steps = b.steps := by
  have first := b.steps_cumulativeLength current start
  unfold byteDistance
  split
  · rename_i he
    rw [he] at first
    exact first
  · rename_i below c hc
    rw [hc] at first
    have second := c.steps_cumulativeLength current stop
    split <;> rename_i hd <;> rw [hd] at second <;> exact second.trans first

/-- Two questions in a row give the difference of two sums. The second one meets the table that the
first has filled. -/
theorem Agrees.byteDistance {b : Buffer} {current : Opcodes} (h : b.Agrees current)
    (start stop : Nat) :
    (b.byteDistance current start stop).1 = b.plainDistance current start stop ∧
      (b.byteDistance current start stop).2.Agrees current := by
  obtain ⟨answer, agrees⟩ := h.cumulativeLength start
  have same := b.steps_cumulativeLength current start
  unfold Buffer.byteDistance
  split
  · rename_i e c hc
    rw [hc] at answer agrees
    exact ⟨by simp only [plainDistance, ← answer], agrees⟩
  · rename_i below c hc
    rw [hc] at answer agrees same
    obtain ⟨answer', agrees'⟩ := Agrees.cumulativeLength agrees stop
    rw [plainLength_congr same] at answer'
    split
    · rename_i e d hd
      rw [hd] at answer' agrees'
      exact ⟨by simp only [plainDistance, ← answer, ← answer'], agrees'⟩
    · rename_i above d hd
      rw [hd] at answer' agrees'
      exact ⟨by simp only [plainDistance, ← answer, ← answer'], agrees'⟩

end Buffer

end CilBuffer
