import CilBuffer.Proofs.BufferAgreement
import CilBuffer.Proofs.Runs

/-!
# Refused operations leave no trace

An operation that is refused has changed nothing, so a run without it goes on as it did. One kind of
refusal is apart: a distance whose second index alone is out of range has filled in offsets up to
the first, as a question for the first alone would have done.
-/

namespace CilBuffer

/-- The reply is a refusal, and that of a distance is about its first index. The second index is
looked at only if the first is in range, so an error about the second names another number. -/
def Operation.refusedAtOnce : Operation → Reply → Bool
  | .byteDistance _ start _, .refused (.indexOutOfRange _ index _) => index = start
  | .byteDistance _ _ _, _ => false
  | _, .refused _ => true
  | _, _ => false

/-- A reply that is a refusal under one condition, and then with one cause. -/
theorem Reply.refused_iff {reply : Reply} {own : BufferError} {out : Prop}
    (refused : out → reply = .refused own) (answered : ¬ out → ∀ cause, reply ≠ .refused cause)
    (cause : BufferError) : reply = .refused cause ↔ out ∧ cause = own := by
  by_cases h : out
  · simp [refused h, h, eq_comm]
  · simp [answered h cause, h]

namespace Buffer

variable {b : Buffer} {current : Opcodes} {start stop : Nat}

/-- The first question is answered, and what it has filled in stays. -/
theorem byteDistance_of_stop_gt (first : start ≤ b.length) (second : b.length < stop)
    (current : Opcodes) :
    b.byteDistance current start stop
      = (.error (.indexOutOfRange .offsetQuery stop (.positions b.length)),
        (b.cumulativeLength current start).2) := by
  have length : (b.cumulativeLength current start).2.length = b.length :=
    congrArg List.length (b.steps_cumulativeLength current start)
  have out : (b.cumulativeLength current start).2.length < stop := by
    rw [length]
    exact second
  rw [← length]
  rw [cumulativeLength_of_le first] at out ⊢
  simp only [byteDistance, cumulativeLength_of_le first, cumulativeLength_of_gt out]

theorem byteDistance_of_le (first : start ≤ b.length) (second : stop ≤ b.length)
    (current : Opcodes) : ∃ bytes, (b.byteDistance current start stop).1 = .ok bytes := by
  have length : (b.cumulativeLength current start).2.length = b.length :=
    congrArg List.length (b.steps_cumulativeLength current start)
  have within : stop ≤ (b.cumulativeLength current start).2.length := by
    rw [length]
    exact second
  rw [cumulativeLength_of_le first] at within
  simp only [byteDistance, cumulativeLength_of_le first, cumulativeLength_of_le within]
  exact ⟨_, rfl⟩

end Buffer

namespace Session

variable {s : Session} {o : Operation} {buffer start stop : Nat}

theorem setBuffer_self (s : Session) (id : Nat) : s.setBuffer id (s.buffers id) = s := by
  simp only [setBuffer, assign_self]

theorem perform_insert_of_gt {index : Nat} (h : (s.buffers buffer).length < index) (step : Step) :
    s.perform (.insert buffer index step)
      = (.refused (.indexOutOfRange .insert index (.positions (s.buffers buffer).length)), s) := by
  simp only [perform, Buffer.insert_of_gt h]

theorem perform_remove_of_ge {index : Nat} (h : (s.buffers buffer).length ≤ index) :
    s.perform (.remove buffer index)
      = (.refused (.indexOutOfRange .remove index (.elements (s.buffers buffer).length)), s) := by
  simp only [perform, Buffer.remove_of_ge h]

theorem perform_cumulativeLength_of_gt {position : Nat}
    (h : (s.buffers buffer).length < position) :
    s.perform (.cumulativeLength buffer position)
      = (.refused (.indexOutOfRange .offsetQuery position
          (.positions (s.buffers buffer).length)), s) := by
  simp only [perform, Buffer.cumulativeLength_of_gt h, setBuffer_self]

theorem perform_byteDistance_of_start_gt (h : (s.buffers buffer).length < start) (stop : Nat) :
    s.perform (.byteDistance buffer start stop)
      = (.refused (.indexOutOfRange .offsetQuery start
          (.positions (s.buffers buffer).length)), s) := by
  simp only [perform, Buffer.byteDistance_of_start_gt h, setBuffer_self]

/-- Apart from the reply, a distance that is refused for its second index is a question for its
first. -/
theorem perform_byteDistance_of_stop_gt (first : start ≤ (s.buffers buffer).length)
    (second : (s.buffers buffer).length < stop) :
    s.perform (.byteDistance buffer start stop)
      = (.refused (.indexOutOfRange .offsetQuery stop (.positions (s.buffers buffer).length)),
        (s.perform (.cumulativeLength buffer start)).2) := by
  simp only [perform, Buffer.byteDistance_of_stop_gt first second,
    Buffer.cumulativeLength_of_le first]

theorem perform_byteDistance_of_le (first : start ≤ (s.buffers buffer).length)
    (second : stop ≤ (s.buffers buffer).length) :
    ∃ bytes, (s.perform (.byteDistance buffer start stop)).1 = .distance bytes := by
  obtain ⟨bytes, answer⟩ := Buffer.byteDistance_of_le first second s.opcodes
  refine ⟨bytes, ?_⟩
  simp only [perform]
  split
  · rename_i own c given
    rw [given] at answer
    cases answer
    rfl
  · rename_i e c given
    rw [given] at answer
    cases answer

/-- Which indices the operations on a buffer refuse, and with which causes. -/
structure RefusesIndices (s : Session) (buffer : Nat) : Prop where
  insert : ∀ index step cause, (s.perform (.insert buffer index step)).1 = .refused cause ↔
    (s.buffers buffer).length < index ∧
      cause = .indexOutOfRange .insert index (.positions (s.buffers buffer).length)
  remove : ∀ index cause, (s.perform (.remove buffer index)).1 = .refused cause ↔
    (s.buffers buffer).length ≤ index ∧
      cause = .indexOutOfRange .remove index (.elements (s.buffers buffer).length)
  cumulativeLength : ∀ position cause,
    (s.perform (.cumulativeLength buffer position)).1 = .refused cause ↔
      (s.buffers buffer).length < position ∧
        cause = .indexOutOfRange .offsetQuery position (.positions (s.buffers buffer).length)
  byteDistance : ∀ start stop cause,
    (s.perform (.byteDistance buffer start stop)).1 = .refused cause ↔
      ((s.buffers buffer).length < start ∧
        cause = .indexOutOfRange .offsetQuery start (.positions (s.buffers buffer).length)) ∨
      (start ≤ (s.buffers buffer).length ∧ (s.buffers buffer).length < stop ∧
        cause = .indexOutOfRange .offsetQuery stop (.positions (s.buffers buffer).length))

theorem refusesIndices (s : Session) (buffer : Nat) : s.RefusesIndices buffer where
  insert := by
    intro index step
    apply Reply.refused_iff
    · intro out
      rw [perform_insert_of_gt out]
    · intro within
      simp [perform, Buffer.insert_of_le (Nat.le_of_not_lt within)]
  remove := by
    intro index
    apply Reply.refused_iff
    · intro out
      rw [perform_remove_of_ge out]
    · intro within
      simp [perform, Buffer.remove_of_lt (Nat.lt_of_not_le within)]
  cumulativeLength := by
    intro position
    apply Reply.refused_iff
    · intro out
      rw [perform_cumulativeLength_of_gt out]
    · intro within
      simp [perform, Buffer.cumulativeLength_of_le (Nat.le_of_not_lt within)]
  byteDistance := by
    intro start stop cause
    rcases Nat.lt_or_ge (s.buffers buffer).length start with out | first
    · rw [perform_byteDistance_of_start_gt out]
      simp [out, Nat.not_le_of_lt out, eq_comm]
    · have second : (s.perform (.byteDistance buffer start stop)).1 = .refused cause ↔
          (s.buffers buffer).length < stop ∧
            cause = .indexOutOfRange .offsetQuery stop (.positions (s.buffers buffer).length) := by
        apply Reply.refused_iff
        · intro out
          rw [perform_byteDistance_of_stop_gt first out]
        · intro within
          obtain ⟨bytes, answer⟩ := perform_byteDistance_of_le first (Nat.le_of_not_lt within)
          simp [answer]
      rw [second]
      simp [first, Nat.not_lt_of_le first]

/-- An operation that is refused at once has changed nothing. -/
theorem perform_of_refusedAtOnce (h : o.refusedAtOnce (s.perform o).1 = true) :
    (s.perform o).2 = s := by
  cases o with
  | insert buffer index step =>
    rcases Nat.lt_or_ge (s.buffers buffer).length index with out | within
    · rw [perform_insert_of_gt out]
    · simp [Operation.refusedAtOnce, perform, Buffer.insert_of_le within] at h
  | remove buffer index =>
    rcases Nat.lt_or_ge index (s.buffers buffer).length with within | out
    · simp [Operation.refusedAtOnce, perform, Buffer.remove_of_lt within] at h
    · rw [perform_remove_of_ge out]
  | cumulativeLength buffer position =>
    rcases Nat.lt_or_ge (s.buffers buffer).length position with out | within
    · rw [perform_cumulativeLength_of_gt out]
    · simp [Operation.refusedAtOnce, perform, Buffer.cumulativeLength_of_le within] at h
  | byteDistance buffer start stop =>
    rcases Nat.lt_or_ge (s.buffers buffer).length start with out | first
    · rw [perform_byteDistance_of_start_gt out]
    · rcases Nat.lt_or_ge (s.buffers buffer).length stop with out | second
      · -- The error names the second index, which is not the first.
        have apart : stop ≠ start := by omega
        simp [Operation.refusedAtOnce, perform_byteDistance_of_stop_gt first out, apart] at h
      · obtain ⟨bytes, answer⟩ := perform_byteDistance_of_le first second
        simp [Operation.refusedAtOnce, answer] at h
  | describe buffer scopes annotated => exact s.perform_describe buffer scopes annotated
  | emit buffer emission => cases emission <;> cases h
  | _ => cases h

/-- The operations of a run with their replies, but for those refused at once. -/
def unrefused (s : Session) (operations : List Operation) : List (Operation × Reply) :=
  (operations.zip (s.run operations).1).filter fun own => !own.1.refusedAtOnce own.2

theorem unrefused_cons (s : Session) (o : Operation) (operations : List Operation) :
    s.unrefused (o :: operations)
      = (if o.refusedAtOnce (s.perform o).1 then [] else [(o, (s.perform o).1)])
        ++ (s.perform o).2.unrefused operations := by
  rw [unrefused, run_cons, List.zip_cons_cons, List.filter_cons]
  cases refused : o.refusedAtOnce (s.perform o).1 <;> simp [unrefused]

/-- By induction on the run: what follows a refused operation meets the session that it met. -/
theorem run_unrefused (s : Session) (operations : List Operation) :
    s.run ((s.unrefused operations).map Prod.fst)
      = ((s.unrefused operations).map Prod.snd, (s.run operations).2) := by
  induction operations generalizing s with
  | nil => rfl
  | cons o operations ih =>
    have rest := ih (s.perform o).2
    rw [unrefused_cons, run_cons]
    cases refused : o.refusedAtOnce (s.perform o).1 with
    | true =>
      rw [perform_of_refusedAtOnce refused] at rest ⊢
      exact rest
    | false =>
      simp only [Bool.false_eq_true, ↓reduceIte, List.cons_append, List.nil_append, List.map_cons,
        run_cons, rest]

/-- A distance that is refused for its second index leaves what the question for its first would
have left, and so what comes after it is the same. -/
theorem run_byteDistance_of_stop_gt (s : Session) (before : List Operation)
    (first : start ≤ ((s.run before).2.buffers buffer).length)
    (second : ((s.run before).2.buffers buffer).length < stop) (after : List Operation) :
    ∃ cause bytes later last,
      s.run (before ++ .byteDistance buffer start stop :: after)
          = ((s.run before).1 ++ .refused cause :: later, last) ∧
        s.run (before ++ .cumulativeLength buffer start :: after)
          = ((s.run before).1 ++ .length bytes :: later, last) := by
  let next := ((s.run before).2.perform (.cumulativeLength buffer start)).2
  have answer : ∃ bytes, (s.run before).2.perform (.cumulativeLength buffer start)
      = (.length bytes, next) := by
    simp only [next, perform, Buffer.cumulativeLength_of_le first]
    exact ⟨_, rfl⟩
  obtain ⟨bytes, answer⟩ := answer
  refine ⟨.indexOutOfRange .offsetQuery stop (.positions ((s.run before).2.buffers buffer).length),
    bytes, (next.run after).1, (next.run after).2, ?_, ?_⟩
  · rw [run_append, run_cons, perform_byteDistance_of_stop_gt first second]
  · rw [run_append, run_cons, answer]

/-- From any session on, a run without the operations that are refused at once has the replies that
the remaining operations had, and ends in the same session. A distance that is refused for its
second index can be replaced, wherever it stands, by the question for its first: the replies before
and after it and the session at the end are the same. And indices are refused exactly if they are
out of range, with an error that names the operation, the first such index and the range then
admitted. -/
theorem refusals_leave_no_trace (s : Session) :
    (∀ operations, s.run ((s.unrefused operations).map Prod.fst)
        = ((s.unrefused operations).map Prod.snd, (s.run operations).2)) ∧
      (∀ before buffer start stop after,
        start ≤ ((s.run before).2.buffers buffer).length →
        ((s.run before).2.buffers buffer).length < stop →
        ∃ cause bytes later last,
          s.run (before ++ .byteDistance buffer start stop :: after)
              = ((s.run before).1 ++ .refused cause :: later, last) ∧
            s.run (before ++ .cumulativeLength buffer start :: after)
              = ((s.run before).1 ++ .length bytes :: later, last)) ∧
      ∀ operations buffer, (s.run operations).2.RefusesIndices buffer := by
  refine ⟨s.run_unrefused, ?_, ?_⟩
  · intro before buffer start stop after first second
    exact s.run_byteDistance_of_stop_gt before first second after
  · intro operations buffer
    exact refusesIndices (s.run operations).2 buffer

/-- Two buffers share a branch, and one of them goes on with a load. -/
def branchedLoad : List Operation :=
  [.newBuffer (some "top"), .newBuffer none, .emit 0 (.branch .br ⟨1, "top", .plain⟩),
    .append 2 (.branch ⟨3, .br⟩ ⟨1, "top", .plain⟩), .append 0 (.instruction .ldloc_0 .none)]

/-- An operation of each kind that is refused at once. -/
def outOfRange : List Operation :=
  [.insert 0 4 (.instruction .nop .none), .remove 2 1, .cumulativeLength 0 4, .byteDistance 0 4 0,
    .describe 0 [] true]

/-- The branch is shortened through the other buffer, so the offsets filled in by then stay. -/
def shortenedLater : List Operation := [.setOpcode ⟨⟨3, .br⟩, 2⟩ .brS, .cumulativeLength 0 3]

theorem branchedLoad_refusals :
    let whole := branchedLoad ++ outOfRange ++ .byteDistance 0 2 4 :: shortenedLater
    let kept := branchedLoad ++ .byteDistance 0 2 4 :: shortenedLater
    let asked := branchedLoad ++ .cumulativeLength 0 2 :: shortenedLater
    (new.unrefused whole).map Prod.fst = kept ∧
      (new.run kept).2 = (new.run whole).2 ∧ (new.run asked).2 = (new.run whole).2 ∧
      (new.run whole).1.getLast? = some (.length 6) ∧
      (new.run asked).1.getLast? = some (.length 6) ∧
      (new.run (branchedLoad ++ shortenedLater)).1.getLast? = some (.length 3) := by
  intro whole kept asked
  obtain ⟨erased, replaced, -⟩ := refusals_leave_no_trace new
  have operations : (new.unrefused whole).map Prod.fst = kept := by decide +kernel
  have length : ((new.run branchedLoad).2.buffers 0).length = 3 := by decide
  have same : (new.run kept).2 = (new.run whole).2 := by
    have last := congrArg Prod.snd (erased whole)
    rw [operations] at last
    exact last
  obtain ⟨cause, bytes, later, last, distance, question⟩ :=
    replaced branchedLoad 0 2 4 shortenedLater (by omega) (by omega)
  refine ⟨operations, same, ?_, by decide +kernel, by decide +kernel, by decide +kernel⟩
  calc (new.run asked).2
      = last := congrArg Prod.snd question
    _ = (new.run kept).2 := (congrArg Prod.snd distance).symm
    _ = (new.run whole).2 := same

end Session

end CilBuffer
