import CilBuffer.Proofs.BufferAgreement
import CilBuffer.Proofs.Runs

/-!
# Runs that keep no offsets

A session without tables answers each question about offsets by adding sizes up. A session with
tables gives the same replies, as long as no opcode is replaced through the handle of one buffer
while another buffer holds a step with it: such a replacement makes the table of the first buffer
stale, and leaves the second with entries that are no longer true. Nothing is said here of runs
with such replacements.
-/

namespace CilBuffer

/-- If the operation replaces an opcode that the buffer holds, it does so by a handle of the
buffer. -/
def Operation.Spares (id : Nat) (operation : Operation) (s : Session) : Prop :=
  ∀ handle op, operation = .setOpcode handle op → handle.buffer ≠ id →
    ¬ (s.buffers id).Holds handle.slot

namespace Session

/-- The table of the buffer agrees with the sizes now in effect. -/
def Agrees (s : Session) (id : Nat) : Prop := (s.buffers id).Agrees s.opcodes

theorem agrees_new (id : Nat) : new.Agrees id := Buffer.agrees_ofSteps [] _

theorem agrees_setBuffer {s : Session} {id : Nat} (h : s.Agrees id) (other : Nat) {b : Buffer}
    (hb : other = id → b.Agrees s.opcodes) : (s.setBuffer other b).Agrees id := by
  unfold Agrees
  by_cases same : id = other
  · subst same
    rw [buffers_setBuffer_same]
    exact hb rfl
  · rw [buffers_setBuffer_of_ne s b same]
    exact h

theorem agrees_append {s : Session} {id : Nat} (h : s.Agrees id) (other : Nat) (step : Step) :
    (s.append other step).Agrees id :=
  agrees_setBuffer h other fun _ => Buffer.agrees_ofSteps _ _

theorem agrees_emit {s : Session} {id : Nat} (h : s.Agrees id) (other : Nat)
    (emission : Emission) : (s.emit other emission).2.Agrees id := by
  cases emission <;> exact agrees_append (by exact h) other _

theorem agrees_newBuffer {s : Session} {id : Nat} (h : s.Agrees id) (anchor : Option String) :
    (s.newBuffer anchor).2.Agrees id := by
  cases anchor with
  | none => exact h
  | some name => exact agrees_append (by exact h) _ _

theorem agrees_setOpcode_self (s : Session) (handle : OpcodeHandle) (op : Opcode) :
    (s.setOpcode handle op).Agrees handle.buffer := by
  unfold setOpcode Agrees
  rw [buffers_setBuffer_same]
  exact Buffer.agrees_markStale _ _

/-- A replaced opcode makes the table of its buffer stale, and is in no step of the others. -/
theorem agrees_setOpcode {s : Session} {id : Nat} (h : s.Agrees id) (handle : OpcodeHandle)
    (op : Opcode) (spared : handle.buffer ≠ id → ¬ (s.buffers id).Holds handle.slot) :
    (s.setOpcode handle op).Agrees id := by
  by_cases same : handle.buffer = id
  · subst same
    exact agrees_setOpcode_self s handle op
  · unfold setOpcode Agrees
    rw [buffers_setBuffer_of_ne _ _ (Ne.symm same)]
    change (s.buffers id).offsets.Agrees ((s.buffers id).sizes (assign s.opcodes handle.slot op))
    rw [Buffer.sizes_assign (spared same)]
    exact h

/-- Every operation that spares a buffer leaves its table in agreement. -/
theorem agrees_perform {s : Session} {id : Nat} {operation : Operation} (h : s.Agrees id)
    (spared : operation.Spares id s) : (s.perform operation).2.Agrees id := by
  cases operation with
  | newBuffer anchor => exact agrees_newBuffer h anchor
  | append buffer step => exact agrees_append h buffer step
  | insert buffer index step =>
    simp only [perform]
    split
    · rename_i b hb
      exact agrees_setBuffer h buffer fun _ => Buffer.agrees_of_insert hb _
    · exact h
  | remove buffer index =>
    simp only [perform]
    split
    · rename_i step b hb
      exact agrees_setBuffer h buffer fun _ => Buffer.agrees_of_remove hb _
    · exact h
  | emit buffer emission => exact agrees_emit h buffer emission
  | setOpcode handle op => exact agrees_setOpcode h handle op (spared handle op rfl)
  | cumulativeLength buffer position =>
    have after : buffer = id →
        ((s.buffers buffer).cumulativeLength s.opcodes position).2.Agrees s.opcodes := by
      rintro rfl
      exact (Buffer.Agrees.cumulativeLength h position).2
    simp only [perform]
    split <;> rename_i hc <;> rw [hc] at after <;> exact agrees_setBuffer h buffer after
  | byteDistance buffer start stop =>
    have after : buffer = id →
        ((s.buffers buffer).byteDistance s.opcodes start stop).2.Agrees s.opcodes := by
      rintro rfl
      exact (Buffer.Agrees.byteDistance h start stop).2
    simp only [perform]
    split <;> rename_i hc <;> rw [hc] at after <;> exact agrees_setBuffer h buffer after
  | replay step target =>
    cases target with
    | none => exact h
    | some target => exact h
  | describe buffer scopes annotated => rw [perform_describe]; exact h
  | _ => exact h

theorem agrees_run {s : Session} {id : Nat} {operations : List Operation}
    (h : s.Along (Operation.Spares id) operations) (start : s.Agrees id) :
    (s.run operations).2.Agrees id := by
  have step : ∀ o (s : Session), Operation.Spares id o s → s.Agrees id →
      (s.perform o).2.Agrees id :=
    fun _ _ spared agrees => agrees_perform agrees spared
  exact h.run_preserves step start

/-- The session with the same steps and no table. -/
def forgetOffsets (s : Session) : Session :=
  { s with buffers := fun id => .ofSteps (s.buffers id).steps }

/-- Carries out one operation without tables: a question about offsets is answered by adding up,
and a table that an operation leaves behind is thrown away. -/
def performPlain (s : Session) : Operation → Reply × Session
  | .cumulativeLength buffer position =>
    match (s.buffers buffer).plainLength s.opcodes position with
    | .ok bytes => (.length bytes, s)
    | .error cause => (.refused cause, s)
  | .byteDistance buffer start stop =>
    match (s.buffers buffer).plainDistance s.opcodes start stop with
    | .ok bytes => (.distance bytes, s)
    | .error cause => (.refused cause, s)
  | operation => (s.perform operation).map id forgetOffsets

/-- Carries out the operations in order, without tables. -/
def runPlain (s : Session) : List Operation → List Reply × Session
  | [] => ([], s)
  | operation :: operations =>
    let (reply, s) := s.performPlain operation
    let (replies, s) := s.runPlain operations
    (reply :: replies, s)

theorem runPlain_cons (s : Session) (operation : Operation) (operations : List Operation) :
    s.runPlain (operation :: operations) =
      ((s.performPlain operation).1 :: ((s.performPlain operation).2.runPlain operations).1,
        ((s.performPlain operation).2.runPlain operations).2) :=
  rfl

theorem forgetOffsets_setBuffer (s : Session) (id : Nat) (b : Buffer) :
    (s.setBuffer id b).forgetOffsets = s.forgetOffsets.setBuffer id (.ofSteps b.steps) := by
  have same : (fun other => Buffer.ofSteps (assign s.buffers id b other).steps)
      = assign (fun other => .ofSteps (s.buffers other).steps) id (.ofSteps b.steps) := by
    funext other
    by_cases ho : other = id
    · subst ho
      simp only [assign_same]
    · simp only [assign_of_ne _ _ ho]
  simp only [forgetOffsets, setBuffer, same]

/-- To put back the steps that a buffer has changes no more than its table. -/
theorem forgetOffsets_setBuffer_of_steps {s : Session} {id : Nat} {b : Buffer}
    (h : b.steps = (s.buffers id).steps) : (s.setBuffer id b).forgetOffsets = s.forgetOffsets := by
  rw [forgetOffsets_setBuffer, h]
  have same : assign s.forgetOffsets.buffers id (.ofSteps (s.buffers id).steps)
      = s.forgetOffsets.buffers := assign_self _ id
  simp only [setBuffer, same]

theorem forgetOffsets_append (s : Session) (id : Nat) (step : Step) :
    (s.forgetOffsets.append id step).forgetOffsets = (s.append id step).forgetOffsets := by
  simp only [append, forgetOffsets_setBuffer]
  rfl

theorem forgetOffsets_emit (s : Session) (id : Nat) (emission : Emission) :
    (s.forgetOffsets.emit id emission).1 = (s.emit id emission).1 ∧
      (s.forgetOffsets.emit id emission).2.forgetOffsets
        = (s.emit id emission).2.forgetOffsets := by
  cases emission with
  | step step => exact ⟨rfl, forgetOffsets_append s id step⟩
  | branch op target => exact ⟨rfl, forgetOffsets_append (s.newSlot op).2 id _⟩
  | switch op targets => exact ⟨rfl, forgetOffsets_append (s.newSlot op).2 id _⟩
  | beginException =>
    exact ⟨rfl, forgetOffsets_append (s.newBlock (blockEndName (s.buffers id))).2 id _⟩
  | defineLabel name => exact ⟨rfl, forgetOffsets_append (s.newLabel name).2 id _⟩
  | declareLocal name slot type =>
    exact ⟨rfl, forgetOffsets_append (s.newLocal name slot type).2 id _⟩

/-- The operation without tables replies like the one with tables, and reaches the same session but
for the tables. -/
def PlainlyPerforms (s : Session) (operation : Operation) : Prop :=
  (s.forgetOffsets.performPlain operation).1 = (s.perform operation).1 ∧
    (s.forgetOffsets.performPlain operation).2 = (s.perform operation).2.forgetOffsets

theorem plainly_insert (s : Session) (buffer index : Nat) (step : Step) :
    s.PlainlyPerforms (.insert buffer index step) := by
  have same : (s.forgetOffsets.buffers buffer).insert index step
      = (s.buffers buffer).insert index step := rfl
  simp only [PlainlyPerforms, performPlain, perform, same]
  cases (s.buffers buffer).insert index step with
  | error cause => exact ⟨rfl, rfl⟩
  | ok b => exact ⟨rfl, by simp only [Prod.map, forgetOffsets_setBuffer]; rfl⟩

theorem plainly_remove (s : Session) (buffer index : Nat) :
    s.PlainlyPerforms (.remove buffer index) := by
  have same : (s.forgetOffsets.buffers buffer).remove index
      = (s.buffers buffer).remove index := rfl
  simp only [PlainlyPerforms, performPlain, perform, same]
  cases (s.buffers buffer).remove index with
  | error cause => exact ⟨rfl, rfl⟩
  | ok removed => exact ⟨rfl, by simp only [Prod.map, forgetOffsets_setBuffer]; rfl⟩

theorem plainly_setOpcode (s : Session) (handle : OpcodeHandle) (op : Opcode) :
    s.PlainlyPerforms (.setOpcode handle op) := by
  refine ⟨rfl, ?_⟩
  simp only [performPlain, perform, Prod.map, setOpcode, forgetOffsets_setBuffer]
  rfl

/-- The answer is a plain sum, since the table agrees, and the steps stay as they are. -/
theorem plainly_cumulativeLength {s : Session} {buffer : Nat} (h : s.Agrees buffer)
    (position : Nat) : s.PlainlyPerforms (.cumulativeLength buffer position) := by
  obtain ⟨answer, -⟩ := Buffer.Agrees.cumulativeLength h position
  have steps := (s.buffers buffer).steps_cumulativeLength s.opcodes position
  have same : (s.forgetOffsets.buffers buffer).plainLength s.forgetOffsets.opcodes position
      = ((s.buffers buffer).cumulativeLength s.opcodes position).1 :=
    answer ▸ Buffer.plainLength_congr rfl _ _
  simp only [PlainlyPerforms, performPlain, perform, same]
  rcases hc : (s.buffers buffer).cumulativeLength s.opcodes position with ⟨reply, b⟩
  rw [hc] at steps
  have kept := forgetOffsets_setBuffer_of_steps steps
  cases reply <;> exact ⟨rfl, kept.symm⟩

theorem plainly_byteDistance {s : Session} {buffer : Nat} (h : s.Agrees buffer)
    (start stop : Nat) : s.PlainlyPerforms (.byteDistance buffer start stop) := by
  obtain ⟨answer, -⟩ := Buffer.Agrees.byteDistance h start stop
  have steps := (s.buffers buffer).steps_byteDistance s.opcodes start stop
  have same : (s.forgetOffsets.buffers buffer).plainDistance s.forgetOffsets.opcodes start stop
      = ((s.buffers buffer).byteDistance s.opcodes start stop).1 :=
    answer ▸ Buffer.plainDistance_congr rfl _ _ _
  simp only [PlainlyPerforms, performPlain, perform, same]
  rcases hc : (s.buffers buffer).byteDistance s.opcodes start stop with ⟨reply, b⟩
  rw [hc] at steps
  have kept := forgetOffsets_setBuffer_of_steps steps
  cases reply <;> exact ⟨rfl, kept.symm⟩

theorem plainly_describe (s : Session) (buffer : Nat) (scopes : List LocalScope)
    (annotated : Bool) : s.PlainlyPerforms (.describe buffer scopes annotated) := by
  cases annotated with
  | false => exact ⟨rfl, rfl⟩
  | true =>
    have same : (s.forgetOffsets.buffers buffer).describe s.forgetOffsets.opcodes scopes
        = (s.buffers buffer).describe s.opcodes scopes := rfl
    simp only [PlainlyPerforms, performPlain, perform, same]
    cases (s.buffers buffer).describe s.opcodes scopes <;> exact ⟨rfl, rfl⟩

/-- Only the two questions about offsets look at a table, so only they need it to agree. -/
theorem plainly_performs {s : Session} (h : ∀ id, s.Agrees id) (operation : Operation) :
    s.PlainlyPerforms operation := by
  cases operation with
  | newBuffer anchor =>
    cases anchor with
    | none => exact ⟨rfl, rfl⟩
    | some name => exact ⟨rfl, forgetOffsets_append (s.fresh.2.newLabel name).2 _ _⟩
  | append buffer step => exact ⟨rfl, forgetOffsets_append s buffer step⟩
  | insert buffer index step => exact plainly_insert s buffer index step
  | remove buffer index => exact plainly_remove s buffer index
  | emit buffer emission => exact forgetOffsets_emit s buffer emission
  | setOpcode handle op => exact plainly_setOpcode s handle op
  | cumulativeLength buffer position => exact plainly_cumulativeLength (h buffer) position
  | byteDistance buffer start stop => exact plainly_byteDistance (h buffer) start stop
  | replay step target => cases target <;> exact ⟨rfl, rfl⟩
  | describe buffer scopes annotated => exact plainly_describe s buffer scopes annotated
  | _ => exact ⟨rfl, rfl⟩

/-- A run without tables replies like a run with tables from a session in which they agree, if no
opcode is replaced behind the back of a buffer. -/
theorem runPlain_forgetOffsets {s : Session} {operations : List Operation}
    (agrees : ∀ id, s.Agrees id)
    (spared : s.Along (fun operation s => ∀ id, operation.Spares id s) operations) :
    (s.forgetOffsets.runPlain operations).1 = (s.run operations).1 ∧
      (s.forgetOffsets.runPlain operations).2 = (s.run operations).2.forgetOffsets := by
  induction operations generalizing s with
  | nil => exact ⟨rfl, rfl⟩
  | cons operation operations ih =>
    obtain ⟨reply, next⟩ := plainly_performs agrees operation
    obtain ⟨replies, last⟩ := ih (fun id => agrees_perform (agrees id) (spared.1 id)) spared.2
    rw [runPlain_cons, run_cons, reply, next, replies, last]
    exact ⟨rfl, rfl⟩

/-- From the beginning, tables show in no reply: not in the sums and differences, nor in the causes
of refusal. Only the buffer that a handle was obtained from can hold the opcode it replaces. -/
theorem run_corresponds_plain (operations : List Operation)
    (spared : new.Along (fun operation s => ∀ id, operation.Spares id s) operations) :
    (new.run operations).1 = (new.runPlain operations).1 ∧
      (new.run operations).2.forgetOffsets = (new.runPlain operations).2 := by
  obtain ⟨replies, last⟩ := runPlain_forgetOffsets agrees_new spared
  exact ⟨replies.symm, last.symm⟩

/-- A branch is made longer, moved to another buffer, and made short again through a handle of that
buffer. -/
def movedBranch : List Operation :=
  [.newLabel "exit", .newBuffer none, .newBuffer none,
    .emit 1 (.branch .brS ⟨0, "exit", .plain⟩), .emit 1 (.step (.instruction .nop .none)),
    .byteDistance 1 0 2, .setOpcode ⟨⟨3, .brS⟩, 1⟩ .br, .cumulativeLength 1 1, .remove 1 0,
    .append 2 (.branch ⟨3, .brS⟩ ⟨0, "exit", .plain⟩), .cumulativeLength 2 1,
    .setOpcode ⟨⟨3, .brS⟩, 2⟩ .leaveS, .cumulativeLength 2 1, .byteDistance 1 1 2]

theorem movedBranch_corresponds_plain :
    new.Along (fun operation s => ∀ id, operation.Spares id s) movedBranch ∧
      (new.run movedBranch).1 = (new.runPlain movedBranch).1 ∧
      (new.run movedBranch).2.forgetOffsets = (new.runPlain movedBranch).2 := by
  have spared : new.Along (fun operation s => ∀ id, operation.Spares id s) movedBranch := by
    refine ⟨?_, ?_, ?_, ?_, ?_, ?_, ?_, ?_, ?_, ?_, ?_, ?_, ?_, ?_, trivial⟩
    all_goals intro id handle op h
    all_goals cases h
    -- Before the first replacement the second buffer is empty.
    · rintro ne ⟨step, mem, own⟩
      match id, ne, mem with
      | 0, _, mem => cases mem
      | 1, ne, _ => exact ne rfl
      | n + 2, _, mem => cases mem
    -- Before the second one the first buffer is left with an instruction.
    · rintro ne ⟨step, mem, own⟩
      match id, ne, mem with
      | 0, _, mem => cases mem
      | 1, _, mem =>
        cases mem with
        | head => cases own
        | tail _ mem => cases mem
      | 2, ne, _ => exact ne rfl
      | n + 3, _, mem => cases mem
  exact ⟨spared, run_corresponds_plain movedBranch spared⟩

end Session

end CilBuffer
