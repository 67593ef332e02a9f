import Mathlib.Algebra.Order.BigOperators.Group.List
import Mathlib.Algebra.Order.Group.Nat
import CilBuffer.Proofs.Refusals
import CilBuffer.Proofs.RememberedOffsets
import CilBuffer.Proofs.ReplacedOpcodes

/-!
# Questions about offsets in any order

As long as a buffer is not edited and no opcode is replaced, each question about its offsets has one
answer, whatever has been asked before. A question changes what the table holds, but what it fills in
are the sizes now in effect, and these do not change. So to each table belongs a list of sizes that
all its answers are sums of: those that it has added up by now, and behind them the current ones. The
first need not be current, if an opcode has been set behind the back of the buffer.
-/

namespace CilBuffer

namespace OffsetTable

variable {t : OffsetTable} {sizes seen : List Nat} {position : Nat}

/-- What the table knows are sums of the given sizes, and what it does not know yet is to be filled
in from the same numbers. -/
structure Continues (t : OffsetTable) (sizes seen : List Nat) : Prop where
  length : seen.length = sizes.length
  agrees : t.Agrees seen
  rest : ∀ i, t.known.length - 1 ≤ i → sizes[i]? = seen[i]?

theorem Continues.fill_eq (h : t.Continues sizes seen) (position : Nat) :
    t.fill position sizes = t.fill position seen := by
  have same : sizes.drop (t.known.length - 1) = seen.drop (t.known.length - 1) := by
    apply List.ext_getElem?
    intro i
    rw [List.getElem?_drop, List.getElem?_drop]
    exact h.rest _ (Nat.le_add_right _ i)
  rw [fill, fill, same]

/-- A table that has been filled knows no less than before. -/
theorem known_fill (t : OffsetTable) (position : Nat) (sizes : List Nat) :
    t.known.length ≤ (t.fill position sizes).known.length := by
  have pos := t.known_length_pos
  have len := t.length_fill position sizes
  have fresh : (t.fill position sizes).stale = false := rfl
  have nonempty : (t.fill position sizes).sums ≠ [] := List.ne_nil_of_length_pos (by omega)
  have all : (t.fill position sizes).known = (t.fill position sizes).sums := by
    rw [known, if_neg]
    simpa [fresh] using nonempty
  rw [all, len]
  omega

/-- A question is answered from the sizes of the table, and keeps them. -/
theorem Continues.lengthTo (h : t.Continues sizes seen) (le : position ≤ sizes.length) :
    (t.lengthTo position sizes).1 = (seen.take position).sum ∧
      (t.lengthTo position sizes).2.Continues sizes seen := by
  have le' : position ≤ seen.length := by rw [h.length]; exact le
  by_cases zero : position = 0
  · subst zero
    exact ⟨by simp [OffsetTable.lengthTo], by simpa [OffsetTable.lengthTo] using h⟩
  · have same : t.lengthTo position sizes = t.lengthTo position seen := by
      simp only [OffsetTable.lengthTo, h.fill_eq]
    obtain ⟨answer, agrees⟩ := h.agrees.lengthTo le'
    rw [same]
    refine ⟨answer, h.length, agrees, ?_⟩
    intro i behind
    have more := t.known_fill position seen
    simp only [OffsetTable.lengthTo, zero, ↓reduceIte] at behind
    exact h.rest i (by omega)

/-- To a table that goes with a history belong sizes that its steps have had: now, if the table is
stale, and otherwise when a question first reached them, or now if none has. -/
theorem Remembers.continues {history : OffsetHistory} {steps : List Step}
    (h : t.Remembers history steps) (current : Opcodes) :
    ∃ view : Nat → Opcodes, t.Continues (steps.map (·.size current))
      (steps.mapIdx fun i step => step.size (view i)) := by
  cases stale : t.stale with
  | true =>
    refine ⟨fun _ => current, by simp, agrees_of_stale stale _, ?_⟩
    intro i _
    simp
  | false =>
    refine ⟨fun i => (history.seen? i).getD current, by simp, h.agrees current, ?_⟩
    intro i behind
    have unseen : history.seen? i = none := by
      have reached := (lt_known_iff stale i).trans (h.reach stale i).symm
      cases seen : history.seen? i with
      | none => rfl
      | some before =>
        have inside := reached.mpr (by rw [seen]; rfl)
        omega
    simp [unseen]

end OffsetTable

namespace Buffer

variable {b : Buffer} {current : Opcodes} {seen : List Nat} {position start stop : Nat}

/-- The table of the buffer continues to the sums of the given sizes. -/
def Continues (b : Buffer) (current : Opcodes) (seen : List Nat) : Prop :=
  b.offsets.Continues (b.sizes current) seen

theorem Continues.cumulativeLength (h : b.Continues current seen) (le : position ≤ b.length) :
    ∃ c, b.cumulativeLength current position = (.ok (seen.take position).sum, c) ∧
      c.steps = b.steps ∧ c.Continues current seen := by
  obtain ⟨answer, continues⟩ := OffsetTable.Continues.lengthTo h (by simpa using le)
  refine ⟨{ b with offsets := (b.offsets.lengthTo position (b.sizes current)).2 }, ?_, rfl,
    continues⟩
  rw [cumulativeLength_of_le le, answer]

theorem Continues.byteDistance (h : b.Continues current seen) (first : start ≤ b.length)
    (second : stop ≤ b.length) :
    ∃ c, b.byteDistance current start stop
        = (.ok ((seen.take stop).sum - (seen.take start).sum), c) ∧
      c.steps = b.steps ∧ c.Continues current seen := by
  obtain ⟨c, answer, steps, continues⟩ := h.cumulativeLength first
  have second' : stop ≤ c.length := by
    rw [length, steps]
    exact second
  obtain ⟨d, answer', steps', continues'⟩ := Continues.cumulativeLength continues second'
  refine ⟨d, ?_, steps'.trans steps, continues'⟩
  simp only [Buffer.byteDistance, answer, answer']

/-- A refused question changes nothing that the answers depend on. -/
theorem Continues.after_cumulativeLength (h : b.Continues current seen) (position : Nat) :
    (b.cumulativeLength current position).2.Continues current seen := by
  rcases Nat.lt_or_ge b.length position with out | within
  · rw [cumulativeLength_of_gt out]
    exact h
  · obtain ⟨c, answer, -, continues⟩ := h.cumulativeLength within
    rw [answer]
    exact continues

theorem Continues.after_byteDistance (h : b.Continues current seen) (start stop : Nat) :
    (b.byteDistance current start stop).2.Continues current seen := by
  rcases Nat.lt_or_ge b.length start with out | first
  · rw [byteDistance_of_start_gt out]
    exact h
  · rcases Nat.lt_or_ge b.length stop with out | second
    · rw [byteDistance_of_stop_gt first out]
      exact h.after_cumulativeLength start
    · obtain ⟨c, answer, -, continues⟩ := h.byteDistance first second
      rw [answer]
      exact continues

end Buffer

/-- A question about the offsets of a buffer: for the size of its first steps, or for the distance
from one step to another. -/
inductive OffsetQuestion where
  | length (position : Nat)
  | distance (start stop : Nat)

namespace OffsetQuestion

/-- The operation that asks a buffer the question. -/
def operation (id : Nat) : OffsetQuestion → Operation
  | .length position => .cumulativeLength id position
  | .distance start stop => .byteDistance id start stop

/-- The question is about places of a buffer of the given length. -/
def Within (length : Nat) : OffsetQuestion → Prop
  | .length position => position ≤ length
  | .distance start stop => start ≤ length ∧ stop ≤ length

/-- The reply, given the offset of each place and the distance of each two. -/
def reply (offset : Nat → Nat) (distance : Nat → Nat → Int) : OffsetQuestion → Reply
  | .length position => .length (offset position)
  | .distance start stop => .distance (distance start stop)

end OffsetQuestion

/-- Whether a step has an opcode does not depend on the opcodes in effect. -/
theorem Step.size_pos_of_isSome {f : Opcodes} (g : Opcodes) {step : Step}
    (h : (step.opcode? f).isSome = true) : 0 < step.size g := by
  have same : (step.opcode? g).isSome = (step.opcode? f).isSome := by cases step <;> rfl
  rw [← same] at h
  obtain ⟨op, own⟩ := Option.isSome_iff_exists.mp h
  exact size_pos_of_opcode? own

/-- The operation replaces no opcode and does not edit the buffer. It can be a question about the
buffer, also one that is refused. -/
structure Operation.LeavesOffsets (id : Nat) (o : Operation) (s : Session) : Prop where
  opcodes : ∀ handle op, o ≠ .setOpcode handle op
  buffer : s.subject? o = some id → ∃ q : OffsetQuestion, o = q.operation id

theorem OffsetQuestion.leavesOffsets (q : OffsetQuestion) (id : Nat) (s : Session) :
    (q.operation id).LeavesOffsets id s := by
  constructor
  · cases q <;> rintro _ _ ⟨⟩
  · intro _
    exact ⟨q, rfl⟩

/-- The size of the first steps, if the steps have the given sizes. -/
def offsetIn (seen : List Nat) (position : Nat) : Nat := (seen.take position).sum

/-- The distance from one step to another, if the steps have the given sizes. -/
def distanceIn (seen : List Nat) (start stop : Nat) : Int := offsetIn seen stop - offsetIn seen start

theorem offsetIn_succ {seen : List Nat} {position size : Nat} (h : seen[position]? = some size) :
    offsetIn seen (position + 1) = offsetIn seen position + size := by
  obtain ⟨inside, own⟩ := List.getElem?_eq_some_iff.mp h
  rw [offsetIn, List.sum_take_succ seen position inside, own]
  rfl

namespace Session

variable {s s' : Session} {id : Nat} {o : Operation} {seen : List Nat}

/-- The buffer has the same steps, no opcode has been replaced, and the table continues to the sums
of the given sizes. -/
structure Settled (s : Session) (id : Nat) (seen : List Nat) (s' : Session) : Prop where
  opcodes : s'.opcodes = s.opcodes
  steps : (s'.buffers id).steps = (s.buffers id).steps
  continues : (s'.buffers id).Continues s.opcodes seen

theorem Settled.perform (h : s.Settled id seen s') (leaves : o.LeavesOffsets id s') :
    s.Settled id seen (s'.perform o).2 := by
  have opcodes := (opcodes_perform_of_ne leaves.opcodes).trans h.opcodes
  by_cases concerned : s'.subject? o = some id
  · obtain ⟨q, rfl⟩ := leaves.buffer concerned
    cases q with
    | length position =>
      refine ⟨opcodes, ?_, ?_⟩
      · rw [OffsetQuestion.operation, buffers_perform_cumulativeLength,
          Buffer.steps_cumulativeLength, h.steps]
      · rw [OffsetQuestion.operation, buffers_perform_cumulativeLength, h.opcodes]
        exact h.continues.after_cumulativeLength position
    | distance start stop =>
      refine ⟨opcodes, ?_, ?_⟩
      · rw [OffsetQuestion.operation, buffers_perform_byteDistance, Buffer.steps_byteDistance,
          h.steps]
      · rw [OffsetQuestion.operation, buffers_perform_byteDistance, h.opcodes]
        exact h.continues.after_byteDistance start stop
  · have same := buffers_perform_of_ne concerned
    exact ⟨opcodes, by rw [same, h.steps], by rw [same]; exact h.continues⟩

/-- While the buffer is settled, a question about places of it has the answer that the sizes tell. -/
theorem Settled.reply (h : s.Settled id seen s') {q : OffsetQuestion}
    (within : q.Within (s.buffers id).length) :
    (s'.perform (q.operation id)).1 = q.reply (offsetIn seen) (distanceIn seen) := by
  have length : (s'.buffers id).length = (s.buffers id).length := congrArg List.length h.steps
  rw [← length] at within
  cases q with
  | length position =>
    obtain ⟨c, answer, -⟩ := h.continues.cumulativeLength within
    rw [← h.opcodes] at answer
    simp only [OffsetQuestion.operation, Session.perform, answer]
    rfl
  | distance start stop =>
    obtain ⟨c, answer, -⟩ := h.continues.byteDistance within.1 within.2
    rw [← h.opcodes] at answer
    simp only [OffsetQuestion.operation, Session.perform, answer]
    rfl

/-- By induction on the run, each question meets a settled buffer. -/
theorem Settled.run (h : s.Settled id seen s') {later : List Operation}
    (leaves : s'.Along (Operation.LeavesOffsets id) later) {i : Nat} {q : OffsetQuestion}
    (asked : later[i]? = some (q.operation id)) (within : q.Within (s.buffers id).length) :
    (s'.run later).1[i]? = some (q.reply (offsetIn seen) (distanceIn seen)) := by
  induction later generalizing s' i with
  | nil => cases asked
  | cons o later ih =>
    rw [run_cons]
    cases i with
    | zero =>
      obtain rfl := Option.some.inj asked
      exact congrArg some (h.reply within)
    | succ i => exact ih (h.perform leaves.1) leaves.2 asked

/-- In every session that a run can lead to, whatever its offsets have become stale by, the offset of
each place of a buffer and the distance of each two are settled as long as the buffer is not edited
and no opcode is replaced. Each question about them has the same answer, at whatever point and after
whatever other questions it is asked. The offsets begin with zero, do not decrease, and increase
across each step with an opcode; the distances are their differences, so they add up and change
their sign with the direction. -/
theorem answers_in_any_order (operations : List Operation) (id : Nat) :
    let s := (new.run operations).2
    let b := s.buffers id
    ∃ (offset : Nat → Nat) (distance : Nat → Nat → Int),
      (∀ later : List Operation, s.Along (Operation.LeavesOffsets id) later →
        ∀ (i : Nat) (q : OffsetQuestion), later[i]? = some (q.operation id) → q.Within b.length →
          (s.run later).1[i]? = some (q.reply offset distance)) ∧
      (offset 0 = 0 ∧ Monotone offset ∧
        ∀ i step, b.steps[i]? = some step → (step.opcode? s.opcodes).isSome = true →
          offset i < offset (i + 1)) ∧
      (∀ x y, distance x y = offset y - offset x) ∧
      (∀ x y, distance x y = -distance y x) ∧
      ∀ x y z, distance x y + distance y z = distance x z := by
  intro s b
  have remembers : b.Remembers (new.history id [] operations) :=
    remembers_run (remembers_new id) operations
  obtain ⟨view, continues⟩ := OffsetTable.Remembers.continues remembers s.opcodes
  let seen := b.steps.mapIdx fun i step => step.size (view i)
  have settled : s.Settled id seen s := ⟨rfl, rfl, continues⟩
  refine ⟨offsetIn seen, distanceIn seen, ?_, ⟨rfl, List.monotone_sum_take seen, ?_⟩,
    fun _ _ => rfl, ?_, ?_⟩
  · intro later leaves i q asked within
    exact settled.run leaves asked within
  · intro i step at_i has_opcode
    have own : seen[i]? = some (step.size (view i)) := by
      rw [List.getElem?_mapIdx, at_i, Option.map_some]
    have pos := Step.size_pos_of_isSome (view i) has_opcode
    rw [offsetIn_succ own]
    omega
  · intro x y
    unfold distanceIn
    omega
  · intro x y z
    unfold distanceIn
    omega

/-- Where the first of two copies of a branch was seen short and the second is long by now, the same
questions in another order, with a refused one and other operations between them. -/
theorem sharedBranch_questions :
    let s := (new.run sharedBranch).2
    let once : List Operation := [.cumulativeLength 1 2, .byteDistance 1 2 0]
    let again : List Operation :=
      [.byteDistance 1 2 0, .newLabel "exit", .byteDistance 1 1 5, .cumulativeLength 0 1,
        .cumulativeLength 1 2]
    s.Along (Operation.LeavesOffsets 1) once ∧ s.Along (Operation.LeavesOffsets 1) again ∧
      (s.run once).1[0]? = (s.run again).1[4]? ∧ (s.run once).1[1]? = (s.run again).1[0]? ∧
      (s.run once).1 = [.length (2 + 5), .distance (-7)] := by
  intro s once again
  have question : ∀ (q : OffsetQuestion) s, (q.operation 1).LeavesOffsets 1 s :=
    fun q s => q.leavesOffsets 1 s
  have leaves : s.Along (Operation.LeavesOffsets 1) once :=
    ⟨question (.length 2) _, question (.distance 2 0) _, trivial⟩
  have leaves' : s.Along (Operation.LeavesOffsets 1) again :=
    ⟨question (.distance 2 0) _, ⟨by rintro _ _ ⟨⟩, by rintro ⟨⟩⟩, question (.distance 1 5) _,
      ⟨by rintro _ _ ⟨⟩, by rintro ⟨⟩⟩, question (.length 2) _, trivial⟩
  obtain ⟨offset, distance, answers, -⟩ := answers_in_any_order sharedBranch 1
  have whole : (OffsetQuestion.length 2).Within (s.buffers 1).length := Nat.le_refl 2
  have back : (OffsetQuestion.distance 2 0).Within (s.buffers 1).length :=
    ⟨Nat.le_refl 2, Nat.zero_le 2⟩
  have first := answers once leaves 0 (.length 2) rfl whole
  have first' := answers again leaves' 4 (.length 2) rfl whole
  have second := answers once leaves 1 (.distance 2 0) rfl back
  have second' := answers again leaves' 0 (.distance 2 0) rfl back
  exact ⟨leaves, leaves', first.trans first'.symm, second.trans second'.symm, by decide⟩

end Session

end CilBuffer
