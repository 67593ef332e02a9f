import CilBuffer.Session.Operation

/-!
# Properties of runs

A condition on operations is asked of each operation of a run in the session that it meets. What
every operation under the condition preserves holds at the end of the run.
-/

namespace CilBuffer.Session

/-- The condition holds of each operation of the run, in the session that the operation meets. -/
def Along (P : Operation → Session → Prop) (s : Session) : List Operation → Prop
  | [] => True
  | operation :: operations => P operation s ∧ (s.perform operation).2.Along P operations

/-- A weaker condition holds along the same run. -/
theorem Along.imp {P Q : Operation → Session → Prop} (weaker : ∀ o s, P o s → Q o s) {s : Session}
    {operations : List Operation} (h : s.Along P operations) : s.Along Q operations := by
  induction operations generalizing s with
  | nil => trivial
  | cons operation operations ih => exact ⟨weaker operation s h.1, ih h.2⟩

theorem run_cons (s : Session) (operation : Operation) (operations : List Operation) :
    s.run (operation :: operations) =
      ((s.perform operation).1 :: ((s.perform operation).2.run operations).1,
        ((s.perform operation).2.run operations).2) :=
  rfl

/-- An invariant of the operations holds at the end of a run. -/
theorem Along.run_preserves {P : Operation → Session → Prop} {Inv : Session → Prop}
    (step : ∀ o s, P o s → Inv s → Inv (s.perform o).2) {s : Session}
    {operations : List Operation} (h : s.Along P operations) (start : Inv s) :
    Inv (s.run operations).2 := by
  induction operations generalizing s with
  | nil => exact start
  | cons operation operations ih => exact ih h.2 (step _ _ h.1 start)

/-- A condition that does not depend on the session is asked of the operations at once. -/
theorem run_preserves_of_forall {C : Operation → Prop} {P : Session → Prop}
    (step : ∀ o s, C o → P s → P (s.perform o).2) {s : Session} {operations : List Operation}
    (h : ∀ o ∈ operations, C o) (start : P s) : P (s.run operations).2 := by
  induction operations generalizing s with
  | nil => exact start
  | cons operation operations ih =>
    apply ih
    · intro o later
      exact h o (List.mem_cons_of_mem operation later)
    · exact step operation s (h operation (List.mem_cons_self ..)) start

end CilBuffer.Session
