import Mathlib.Data.List.InsertIdx
import CilBuffer.Proofs.RememberedOffsets
import CilBuffer.Proofs.ReplacedOpcodes

/-!
# Edits that are undone

A step that is inserted and removed again leaves the steps of the buffer as they were, and so does a
step that is removed and put back. What the two edits change is the table of offsets: it is empty
afterwards, even if it held sizes that steps had before an opcode was set behind the back of the
buffer. A handle knows the buffer by its number and not by its table, so it works after the edits as
it did before.
-/

namespace CilBuffer

namespace Buffer

variable {b : Buffer} {index : Nat}

theorem insert_remove (within : index ≤ b.length) (step : Step) :
    ∃ c, b.insert index step = .ok c ∧ c.remove index = .ok (step, ofSteps b.steps) := by
  have inside : index < (b.steps.insertIdx index step).length := by
    rw [List.length_insertIdx_of_le_length within]
    exact Nat.lt_succ_of_le within
  refine ⟨_, insert_of_le within step, ?_⟩
  rw [remove_of_lt inside]
  simp only [ofSteps, List.getElem_insertIdx_self, List.eraseIdx_insertIdx_self]

theorem remove_insert (inside : index < b.length) :
    ∃ removed c, b.steps[index]? = some removed ∧ b.remove index = .ok (removed, c) ∧
      c.insert index removed = .ok (ofSteps b.steps) := by
  have within : index ≤ (b.steps.eraseIdx index).length := by
    rw [List.length_eraseIdx_of_lt inside]
    exact Nat.le_sub_one_of_lt inside
  refine ⟨b.steps[index], _, List.getElem?_eq_getElem inside, remove_of_lt inside, ?_⟩
  rw [insert_of_le within]
  simp only [ofSteps, List.insertIdx_eraseIdx_getElem inside]

end Buffer

namespace Session

variable {s : Session} {id index : Nat} {handle : OpcodeHandle}

/-- The session with the table of one buffer emptied, and all else as it is. -/
def forgetOffsetsOf (s : Session) (id : Nat) : Session :=
  s.setBuffer id (.ofSteps (s.buffers id).steps)

/-- The opcode of the handle has been set. It shows in the steps that have it, and in no others; no
buffer has other steps; and the one buffer computes its offsets anew. -/
structure TakesEffect (s : Session) (id : Nat) (handle : OpcodeHandle) (op : Opcode)
    (s' : Session) : Prop where
  steps : ∀ id, (s'.buffers id).steps = (s.buffers id).steps
  current : ∀ step : Step, step.opcode? s'.opcodes
    = if step.slot? = some handle.slot then some op else step.opcode? s.opcodes
  stale : (s'.buffers id).offsets.stale = true
  answers : s'.AnswersPlainly id

theorem setBuffer_setBuffer (s : Session) (id : Nat) (b c : Buffer) :
    (s.setBuffer id b).setBuffer id c = s.setBuffer id c := by
  simp only [setBuffer, assign_assign]

theorem perform_insert_of_ok {b : Buffer} {step : Step}
    (h : (s.buffers id).insert index step = .ok b) :
    s.perform (.insert id index step) = (.done, s.setBuffer id b) := by
  simp only [perform, h]

theorem perform_remove_of_ok {b : Buffer} {step : Step}
    (h : (s.buffers id).remove index = .ok (step, b)) :
    s.perform (.remove id index) = (.step step, s.setBuffer id b) := by
  simp only [perform, h]

theorem run_insert_remove (within : index ≤ (s.buffers id).length) (step : Step) :
    s.run [.insert id index step, .remove id index]
      = ([.done, .step step], s.forgetOffsetsOf id) := by
  obtain ⟨c, inserted, removed⟩ := Buffer.insert_remove within step
  have again : ((s.setBuffer id c).buffers id).remove index
      = .ok (step, .ofSteps (s.buffers id).steps) := by
    rw [buffers_setBuffer_same]
    exact removed
  simp only [run, perform_insert_of_ok inserted, perform_remove_of_ok again, setBuffer_setBuffer,
    forgetOffsetsOf]

theorem run_remove_insert (inside : index < (s.buffers id).length) :
    ∃ removed, (s.buffers id).steps[index]? = some removed ∧
      s.run [.remove id index, .insert id index removed]
        = ([.step removed, .done], s.forgetOffsetsOf id) := by
  obtain ⟨step, c, own, removed, inserted⟩ := Buffer.remove_insert inside
  have again : ((s.setBuffer id c).buffers id).insert index step
      = .ok (.ofSteps (s.buffers id).steps) := by
    rw [buffers_setBuffer_same]
    exact inserted
  refine ⟨step, own, ?_⟩
  simp only [run, perform_remove_of_ok removed, perform_insert_of_ok again, setBuffer_setBuffer,
    forgetOffsetsOf]

theorem steps_forgetOffsetsOf (s : Session) (id other : Nat) :
    ((s.forgetOffsetsOf id).buffers other).steps = (s.buffers other).steps := by
  unfold forgetOffsetsOf
  rw [steps_setBuffer (by rfl)]

theorem agrees_forgetOffsetsOf (s : Session) (id : Nat) : (s.forgetOffsetsOf id).Agrees id := by
  unfold forgetOffsetsOf Agrees
  rw [buffers_setBuffer_same]
  exact Buffer.agrees_ofSteps _ _

/-- A set takes effect in every session, whatever has happened to the buffer of the handle. -/
theorem takesEffect_setOpcode (own : handle.buffer = id) (s : Session) (op : Opcode) :
    s.TakesEffect id handle op (s.setOpcode handle op) := by
  subst own
  constructor
  · exact s.steps_setOpcode handle op
  · exact Step.opcode?_assign s.opcodes handle.slot op
  · unfold setOpcode
    rw [buffers_setBuffer_same]
    rfl
  · exact (s.agrees_setOpcode_self handle op).answersPlainly

/-- Whatever the table of a buffer holds, a step that is inserted can be removed again, and one that
is removed can be put back. It is the same step, with its opcode and its tags, and nothing differs
from before but that the table is empty. From then on the buffer answers with the sizes in effect,
as long as no opcode of it is set through a handle of another buffer. And a set through any handle
that belongs to the buffer, however old it is, takes effect at any later time. -/
theorem undone_edits (s : Session) (id index : Nat) (step : Step) :
    let restored := s.forgetOffsetsOf id
    (index ≤ (s.buffers id).length →
        s.run [.insert id index step, .remove id index] = ([.done, .step step], restored)) ∧
      (index < (s.buffers id).length →
        ∃ removed, (s.buffers id).steps[index]? = some removed ∧
          s.run [.remove id index, .insert id index removed]
            = ([.step removed, .done], restored)) ∧
      (∀ other, (restored.buffers other).steps = (s.buffers other).steps) ∧
      (∀ later, restored.Along (Operation.Spares id) later →
        (restored.run later).2.AnswersPlainly id) ∧
      ∀ handle : OpcodeHandle, handle.buffer = id → ∀ later op,
        (restored.run later).2.TakesEffect id handle op
          ((restored.run later).2.perform (.setOpcode handle op)).2 := by
  intro restored
  refine ⟨?_, run_remove_insert, s.steps_forgetOffsetsOf id, ?_, ?_⟩
  · intro within
    exact run_insert_remove within step
  · intro later spared
    exact (agrees_run spared (s.agrees_forgetOffsetsOf id)).answersPlainly
  · intro handle own later op
    exact takesEffect_setOpcode own _ op

/-- A buffer counts one of two copies of a branch short, which both are long by now. An edit that is
undone makes it count both of them long. A handle that was obtained before makes them short, after
the table has been filled again. -/
theorem sharedBranch_undone :
    let past := sharedBranch ++ [.opcodeHandle 1 0]
    let s := (new.run past).2
    let handle : OpcodeHandle := ⟨⟨3, .brS⟩, 1⟩
    let nop : Step := .instruction .nop .none
    let edited := (s.run [.insert 1 1 nop, .remove 1 1]).2
    (new.run past).1[8]? = some (.opcodeHandle (some handle)) ∧ handle.buffer = 1 ∧
      1 ≤ (s.buffers 1).length ∧
      (s.perform (.cumulativeLength 1 2)).1 = .length (2 + 5) ∧
      (s.run [.insert 1 1 nop, .remove 1 1]).1 = [.done, .step nop] ∧
      (edited.perform (.cumulativeLength 1 2)).1 = .length (5 + 5) ∧
      (((edited.perform (.cumulativeLength 1 2)).2.setOpcode handle .brS).perform
        (.cumulativeLength 1 2)).1 = .length (2 + 2) := by
  intro past s handle nop edited
  have within : 1 ≤ (s.buffers 1).length := by decide
  obtain ⟨undone, -, -, answers, effects⟩ := undone_edits s 1 1 nop
  have pair := undone within
  have same : edited = s.forgetOffsetsOf 1 := congrArg Prod.snd pair
  have plain : edited.AnswersPlainly 1 := by
    rw [same]
    exact answers [] trivial
  have effect := effects handle rfl [.cumulativeLength 1 2] .brS
  rw [← same] at effect
  exact ⟨by decide, rfl, within, by decide, congrArg Prod.fst pair, plain 2, effect.answers 2⟩

end Session

end CilBuffer
