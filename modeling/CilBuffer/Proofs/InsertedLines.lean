import Mathlib.Data.List.InsertIdx
import CilBuffer.Proofs.DescribedLines

/-!
# Inserted lines

When a step is put into a buffer, the steps behind it move up by one. The records of a scope move
with them: a beginning at or behind the place, and an end behind it, as the end is the first step at
which the slot is free again. If the new step says nothing of slots, the description is the old one
with one more line, and it fails where the old one does. Nothing is said of a step that loads or
stores by slot.
-/

namespace CilBuffer

/-- The index of a step after one more step has been put at the place. -/
def shiftIndex (place index : Nat) : Nat := if place ≤ index then index + 1 else index

namespace LocalScope

/-- The first step at which the slot is free, after one more step has been put at the place. At the
place itself it stays, so the new step does not belong to the scope. -/
def shiftEnd (place index : Nat) : Nat := if place < index then index + 1 else index

/-- The scope of the same steps, after one more has been put at the place. -/
def shift (place : Nat) (scope : LocalScope) : LocalScope :=
  { scope with
    declaredAt := shiftIndex place scope.declaredAt
    releasedAt := scope.releasedAt.map (shiftEnd place) }

end LocalScope

/-- The same error, after one more step has been put at the place. -/
def BufferError.shift (place : Nat) : BufferError → BufferError
  | .indexOutOfRange operation index valid => .indexOutOfRange operation index valid
  | .missingScope slot index => .missingScope slot (shiftIndex place index)
  | .invalidSlot operand index => .invalidSlot operand (shiftIndex place index)
  | .conflictingScopes slot index first second =>
    .conflictingScopes slot (shiftIndex place index) first second

namespace LocalScope

/-- A scope that has moved is active at the steps that it was active at before they moved. -/
theorem isActiveAt_shift (place : Nat) (scope : LocalScope) (index : Nat) :
    (scope.shift place).isActiveAt (shiftIndex place index) = scope.isActiveAt index := by
  have begins : shiftIndex place scope.declaredAt ≤ shiftIndex place index
      ↔ scope.declaredAt ≤ index := by
    unfold shiftIndex
    split <;> split <;> omega
  have ends : ∀ released, shiftIndex place index < shiftEnd place released ↔ index < released := by
    intro released
    unfold shiftIndex shiftEnd
    split <;> split <;> omega
  cases released : scope.releasedAt with
  | none => simp [isActiveAt, shift, released, begins]
  | some released' => simp [isActiveAt, shift, released, begins, ends]

theorem activeAt_shift (place : Nat) (scopes : List LocalScope) (index : Nat) :
    activeAt (scopes.map (·.shift place)) (shiftIndex place index)
      = (activeAt scopes index).map (·.shift place) := by
  simp only [activeAt, List.filter_map, Function.comp_def, isActiveAt_shift]

theorem find?_shift (place : Nat) (active : List LocalScope) (number : UInt16) :
    (active.map (·.shift place)).find? (·.slot = number)
      = (active.find? (·.slot = number)).map (·.shift place) := by
  rw [List.find?_map]
  rfl

theorem conflictAfter?_shift (place : Nat) (seen scopes : List LocalScope) :
    conflictAfter? (seen.map (·.shift place)) (scopes.map (·.shift place))
      = (conflictAfter? seen scopes).map (Prod.map (·.shift place) (·.shift place)) := by
  induction scopes generalizing seen with
  | nil => rfl
  | cons scope scopes ih =>
    have found : (seen.map (·.shift place)).find? (·.slot = (scope.shift place).slot)
        = (seen.find? (·.slot = scope.slot)).map (·.shift place) :=
      find?_shift place seen scope.slot
    simp only [List.map_cons, conflictAfter?, found]
    cases seen.find? (·.slot = scope.slot) with
    | some first => rfl
    | none => exact ih (scope :: seen)

/-- The search for a conflict looks at slots alone. -/
theorem conflict?_shift (place : Nat) (active : List LocalScope) :
    conflict? (active.map (·.shift place))
      = (conflict? active).map (Prod.map (·.shift place) (·.shift place)) :=
  conflictAfter?_shift place [] active

end LocalScope

section Lines

variable {scopes : List LocalScope} {place index : Nat} {line : String}

/-- A line that has moved is annotated as it was before, or fails as it did. -/
theorem annotate_shift (place : Nat) (scopes : List LocalScope) (index : Nat) (line : String) :
    annotate (scopes.map (·.shift place)) (shiftIndex place index) line
      = (annotate scopes index line).mapError (·.shift place) := by
  unfold annotate Reading.annotate
  cases Reading.ofLine line with
  | nothing => rfl
  | invalid operand => rfl
  | slot number =>
    simp only [LocalScope.activeAt_shift, LocalScope.conflict?_shift, LocalScope.find?_shift]
    cases LocalScope.conflict? (LocalScope.activeAt scopes index) with
    | some pair => rfl
    | none =>
      cases (LocalScope.activeAt scopes index).find? (·.slot = number) with
      | some scope => rfl
      | none => rfl

theorem annotate_of_nothing (silent : Reading.ofLine line = .nothing) (scopes : List LocalScope)
    (index : Nat) : annotate scopes index line = .ok line := by
  rw [annotate, silent, Reading.annotate]

/-- Behind the place all lines have moved. -/
theorem annotateFrom_shift (behind : place ≤ index) (lines : List String) :
    annotateFrom (scopes.map (·.shift place)) (index + 1) lines
      = (annotateFrom scopes index lines).mapError (·.shift place) := by
  induction lines generalizing index with
  | nil => rfl
  | cons own lines ih =>
    have first := annotate_shift place scopes index own
    rw [shiftIndex, if_pos behind] at first
    have rest := ih (Nat.le_succ_of_le behind)
    simp only [annotateFrom, first, rest]
    cases annotate scopes index own with
    | error e => rfl
    | ok text => cases annotateFrom scopes (index + 1) lines <;> rfl

/-- By induction on the lines before the place, which have not moved. -/
theorem annotateFrom_insertIdx (silent : Reading.ofLine line = .nothing) {before : Nat}
    (lines : List String) (within : before ≤ lines.length) (at_place : index + before = place) :
    annotateFrom (scopes.map (·.shift place)) index (lines.insertIdx before line)
      = ((annotateFrom scopes index lines).map (·.insertIdx before line)).mapError
          (·.shift place) := by
  induction before generalizing index lines with
  | zero =>
    have rest : annotateFrom (scopes.map (·.shift place)) (index + 1) lines
        = (annotateFrom scopes index lines).mapError (·.shift place) :=
      annotateFrom_shift (Nat.le_of_eq at_place.symm) lines
    simp only [List.insertIdx_zero, annotateFrom, annotate_of_nothing silent, rest]
    cases annotateFrom scopes index lines <;> rfl
  | succ before ih =>
    cases lines with
    | nil => cases within
    | cons own lines =>
      have first := annotate_shift place scopes index own
      rw [shiftIndex, if_neg (by omega)] at first
      have next : index + 1 + before = place := by omega
      have rest := ih lines (Nat.le_of_succ_le_succ within) next
      simp only [List.insertIdx_succ_cons, annotateFrom, first, rest]
      cases annotate scopes index own with
      | error e => rfl
      | ok text => cases annotateFrom scopes (index + 1) lines <;> rfl

end Lines

namespace Buffer

variable {b : Buffer} {place : Nat} {step : Step}

theorem lines_insertIdx (b : Buffer) (current : Opcodes) (place : Nat) (step : Step) :
    (ofSteps (b.steps.insertIdx place step)).lines current
      = (b.lines current).insertIdx place (step.line current) :=
  List.map_insertIdx (Step.line current) b.steps place step

/-- A step whose line says nothing of a slot is put into a buffer, and the records move with the
steps that they are about. The description has the old lines with that of the new step at its place,
if there was one; and if there was none, the error is the same, over the step that has it now. -/
theorem describe_insert (within : place ≤ b.length) (current : Opcodes)
    (silent : Reading.ofLine (step.line current) = .nothing) (scopes : List LocalScope) :
    ∃ c, b.insert place step = .ok c ∧
      c.describe current (scopes.map (·.shift place))
        = match b.describe current scopes with
          | .ok lines => .ok (lines.insertIdx place (step.line current))
          | .error e => .error (e.shift place) := by
  refine ⟨_, insert_of_le within step, ?_⟩
  have inside : place ≤ (b.lines current).length := by
    rw [length_lines]
    exact within
  rw [describe, describe, lines_insertIdx,
    annotateFrom_insertIdx silent (b.lines current) inside (Nat.zero_add place)]
  cases annotateFrom scopes 0 (b.lines current) <;> rfl

/-- Two locals that hold one slot after each other, one for the whole time, and one for no step. The
second begins at the step with the index 1, where the first ends, and ends at the given step. -/
def successiveScopes (released : Nat) : List LocalScope :=
  let type : TypeRef := .value "System.Int32"
  [⟨⟨0, "total", 0, type⟩, 0, none⟩, ⟨⟨1, "old", 1, type⟩, 0, some 1⟩,
    ⟨⟨2, "new", 1, type⟩, 1, some released⟩, ⟨⟨3, "never", 0, type⟩, 1, some 1⟩]

/-- The second local ends behind the load of its slot, or just before it. -/
theorem nopInserted_described :
    let loads : Buffer := ofSteps [.instruction .stloc_0 .none, .instruction .ldloc_0 .none,
      .instruction .ldlocS (.byte 1)]
    let nop : Step := .instruction .nop .none
    1 ≤ loads.length ∧ Reading.ofLine (nop.line .initial) = .nothing ∧
      (∃ c, loads.insert 1 nop = .ok c ∧
        c.describe .initial ((successiveScopes 3).map (·.shift 1))
          = .ok ["stloc.0 // total", "nop", "ldloc.0 // total", "ldloc.s 1 // new"]) ∧
      ∃ c, loads.insert 1 nop = .ok c ∧
        c.describe .initial ((successiveScopes 2).map (·.shift 1)) = .error (.missingScope 1 3) := by
  intro loads nop
  have within : 1 ≤ loads.length := by decide
  have silent : Reading.ofLine (nop.line .initial) = .nothing := by decide +kernel
  obtain ⟨c, inserted, described⟩ := describe_insert within .initial silent (successiveScopes 3)
  obtain ⟨c', inserted', fails⟩ := describe_insert within .initial silent (successiveScopes 2)
  have old : loads.describe .initial (successiveScopes 3)
      = .ok ["stloc.0 // total", "ldloc.0 // total", "ldloc.s 1 // new"] := by decide +kernel
  have old' : loads.describe .initial (successiveScopes 2) = .error (.missingScope 1 2) := by
    decide +kernel
  have line : nop.line .initial = "nop" := by decide +kernel
  rw [old, line] at described
  rw [old'] at fails
  exact ⟨within, silent, ⟨c, inserted, described⟩, c', inserted', fails⟩

end Buffer

end CilBuffer
