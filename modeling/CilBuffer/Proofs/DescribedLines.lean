import Mathlib.Data.List.Nodup
import CilBuffer.Buffer.Describe

/-!
# When a description succeeds

A line that says a slot is described with the name of the record that has the slot, if exactly one
active record has it and the active records have no other slot in common either. A description
fails at the first line for which this does not hold. What is wrong there is told in a fixed order:
a number that is no slot, then two records with one slot, whichever slot it is, then no record.
-/

namespace CilBuffer

namespace Reading

/-- The line can be described: if it says a slot, the active records have different slots, and one
of them has this one. -/
def Resolves (active : List LocalScope) : Reading → Prop
  | .nothing => True
  | .invalid _ => False
  | .slot number => (active.map (·.slot)).Nodup ∧ ∃ scope ∈ active, scope.slot = number

/-- How the line is described. -/
inductive Described (active : List LocalScope) (line : String) : Reading → String → Prop where
  | nothing : Described active line .nothing line
  | slot {number : UInt16} {scope : LocalScope} :
      (active.map (·.slot)).Nodup → active.filter (·.slot = number) = [scope] →
      Described active line (.slot number) (line ++ " // " ++ scope.localVar.name)

/-- Why the line cannot be described. Of the records with a slot in common, the second is the first
whose slot repeats that of an earlier one. -/
inductive Faulty (active : List LocalScope) (index : Nat) : Reading → BufferError → Prop where
  | invalid {operand : String} :
      Faulty active index (.invalid operand) (.invalidSlot operand index)
  | conflict {number : UInt16} {before after : List LocalScope} {first second : LocalScope} :
      active = before ++ second :: after → (before.map (·.slot)).Nodup → first ∈ before →
      first.slot = second.slot →
      Faulty active index (.slot number)
        (.conflictingScopes second.slot index first.localVar.name second.localVar.name)
  | missing {number : UInt16} :
      (active.map (·.slot)).Nodup → (∀ scope ∈ active, scope.slot ≠ number) →
      Faulty active index (.slot number) (.missingScope number index)

end Reading

namespace LocalScope

variable {seen scopes active : List LocalScope} {first second scope : LocalScope}

/-- The search goes on as long as the slots differ, and ends at the first that repeats. -/
theorem conflictAfter?_eq_some_iff (distinct : (seen.map slot).Nodup) :
    conflictAfter? seen scopes = some (first, second) ↔
      ∃ before after, scopes = before ++ second :: after ∧ ((seen ++ before).map slot).Nodup ∧
        first ∈ seen ++ before ∧ first.slot = second.slot := by
  induction scopes generalizing seen with
  | nil => simp [conflictAfter?]
  | cons scope scopes ih =>
    unfold conflictAfter?
    cases found : seen.find? (·.slot = scope.slot) with
    | some own =>
      have same : own.slot = scope.slot := by simpa using List.find?_some found
      have member := List.mem_of_find?_eq_some found
      simp only [Option.some.injEq, Prod.mk.injEq]
      constructor
      · intro h
        obtain ⟨rfl, rfl⟩ := h
        exact ⟨[], scopes, rfl, by simpa using distinct, by simpa using member, same⟩
      · intro h
        obtain ⟨before, after, split, nodup, inside, repeats⟩ := h
        cases before with
        | nil =>
          obtain ⟨rfl, -⟩ := List.cons.inj split
          rw [List.append_nil] at inside
          exact ⟨List.inj_on_of_nodup_map distinct member inside (same.trans repeats.symm), rfl⟩
        | cons a before =>
          -- The search would have gone on past a record that repeats a slot.
          obtain ⟨rfl, -⟩ := List.cons.inj split
          rw [List.map_append, List.nodup_append] at nodup
          exact absurd same (nodup.2.2 own.slot (List.mem_map_of_mem member) scope.slot
            (List.mem_map_of_mem (List.mem_cons_self ..)))
    | none =>
      have apart : ∀ s ∈ seen, s.slot ≠ scope.slot := by simpa using found
      have wider : ((scope :: seen).map slot).Nodup := by
        rw [List.map_cons, List.nodup_cons]
        refine ⟨?_, distinct⟩
        intro member
        obtain ⟨s, hs, equal⟩ := List.mem_map.mp member
        exact apart s hs equal
      have moved : ∀ before, (seen ++ scope :: before).Perm (scope :: seen ++ before) :=
        fun before => List.perm_middle
      simp only [ih wider]
      constructor
      · intro h
        obtain ⟨before, after, split, nodup, inside, repeats⟩ := h
        refine ⟨scope :: before, after, by rw [split]; rfl, ?_, ?_, repeats⟩
        · exact ((moved before).map slot).nodup_iff.mpr nodup
        · exact (moved before).mem_iff.mpr inside
      · intro h
        obtain ⟨before, after, split, nodup, inside, repeats⟩ := h
        cases before with
        | nil =>
          obtain ⟨rfl, -⟩ := List.cons.inj split
          rw [List.append_nil] at inside
          exact absurd repeats (apart first inside)
        | cons a before =>
          obtain ⟨rfl, rest⟩ := List.cons.inj split
          refine ⟨before, after, rest, ?_, ?_, repeats⟩
          · exact ((moved before).map slot).nodup_iff.mp nodup
          · exact (moved before).mem_iff.mp inside

/-- A conflict is between the first record whose slot repeats that of an earlier one, and that
one. -/
theorem conflict?_eq_some_iff :
    conflict? scopes = some (first, second) ↔
      ∃ before after, scopes = before ++ second :: after ∧ (before.map slot).Nodup ∧
        first ∈ before ∧ first.slot = second.slot := by
  have nothing_seen : (([] : List LocalScope).map slot).Nodup := List.nodup_nil
  rw [conflict?, conflictAfter?_eq_some_iff nothing_seen]
  simp only [List.nil_append]

/-- Among records with different slots, the one that is found is the only one. -/
theorem find?_eq_some_iff_filter (distinct : (active.map slot).Nodup) {number : UInt16} :
    active.find? (·.slot = number) = some scope ↔ active.filter (·.slot = number) = [scope] := by
  induction active with
  | nil => simp
  | cons a active ih =>
    obtain ⟨new, rest⟩ := List.nodup_cons.mp distinct
    by_cases same : a.slot = number
    · have none_left : active.filter (·.slot = number) = [] := by
        apply List.filter_eq_nil_iff.mpr
        intro other member equal
        have equal' : other.slot = number := by simpa using equal
        exact new (List.mem_map.mpr ⟨other, member, equal'.trans same.symm⟩)
      simp [same, none_left]
    · simp [same, ih rest]

end LocalScope

namespace Reading

variable {reading : Reading} {scopes active : List LocalScope} {index : Nat}
  {line text : String} {e : BufferError}

theorem Described.annotate (h : reading.Described (LocalScope.activeAt scopes index) line text) :
    reading.annotate scopes index line = .ok text := by
  cases h with
  | nothing => rfl
  | slot distinct only =>
    have found := (LocalScope.find?_eq_some_iff_filter distinct).mpr only
    simp only [Reading.annotate, LocalScope.conflict?_eq_none_iff.mpr distinct, found]

theorem Faulty.annotate (h : reading.Faulty (LocalScope.activeAt scopes index) index e)
    (line : String) : reading.annotate scopes index line = .error e := by
  cases h with
  | invalid => rfl
  | conflict split nodup inside repeats =>
    have conflict := LocalScope.conflict?_eq_some_iff.mpr ⟨_, _, split, nodup, inside, repeats⟩
    simp only [Reading.annotate, conflict]
  | @missing number distinct absent =>
    have nothing : (LocalScope.activeAt scopes index).find? (·.slot = number) = none := by
      simpa using absent
    simp only [Reading.annotate, LocalScope.conflict?_eq_none_iff.mpr distinct, nothing]

/-- Of the two, one is always the case. -/
theorem described_or_faulty (reading : Reading) (active : List LocalScope) (index : Nat)
    (line : String) :
    (∃ text, reading.Described active line text) ∨ ∃ e, reading.Faulty active index e := by
  cases reading with
  | nothing => exact .inl ⟨line, .nothing⟩
  | invalid operand => exact .inr ⟨_, .invalid⟩
  | slot number =>
    cases conflict : LocalScope.conflict? active with
    | some pair =>
      right
      obtain ⟨before, after, split, nodup, inside, repeats⟩ :=
        LocalScope.conflict?_eq_some_iff.mp conflict
      exact ⟨_, .conflict split nodup inside repeats⟩
    | none =>
      have distinct := LocalScope.conflict?_eq_none_iff.mp conflict
      cases found : active.find? (·.slot = number) with
      | some scope =>
        exact .inl ⟨_, .slot distinct ((LocalScope.find?_eq_some_iff_filter distinct).mp found)⟩
      | none => exact .inr ⟨_, .missing distinct (by simpa using found)⟩

theorem annotate_eq_ok_iff :
    reading.annotate scopes index line = .ok text ↔
      reading.Described (LocalScope.activeAt scopes index) line text := by
  constructor
  · intro h
    obtain ⟨own, described⟩ | ⟨e, faulty⟩ :=
      described_or_faulty reading (LocalScope.activeAt scopes index) index line
    · rw [described.annotate] at h
      cases h
      exact described
    · rw [faulty.annotate] at h
      cases h
  · exact Described.annotate

theorem annotate_eq_error_iff :
    reading.annotate scopes index line = .error e ↔
      reading.Faulty (LocalScope.activeAt scopes index) index e := by
  constructor
  · intro h
    obtain ⟨text, described⟩ | ⟨own, faulty⟩ :=
      described_or_faulty reading (LocalScope.activeAt scopes index) index line
    · rw [described.annotate] at h
      cases h
    · rw [faulty.annotate] at h
      cases h
      exact faulty
  · intro faulty
    exact faulty.annotate line

theorem Faulty.not_resolves (h : reading.Faulty active index e) : ¬ reading.Resolves active := by
  intro resolves
  cases h with
  | invalid => exact resolves
  | conflict split nodup inside repeats =>
    have conflict := LocalScope.conflict?_eq_some_iff.mpr ⟨_, _, split, nodup, inside, repeats⟩
    rw [LocalScope.conflict?_eq_none_iff.mpr resolves.1] at conflict
    cases conflict
  | missing _ absent =>
    obtain ⟨-, scope, member, own⟩ := resolves
    exact absent scope member own

theorem Described.resolves (h : reading.Described active line text) : reading.Resolves active := by
  cases h with
  | nothing => trivial
  | @slot number scope distinct only =>
    have member : scope ∈ active.filter (·.slot = number) := by
      rw [only]
      exact List.mem_singleton_self scope
    obtain ⟨inside, own⟩ := List.mem_filter.mp member
    exact ⟨distinct, scope, inside, by simpa using own⟩

theorem resolves_iff : reading.Resolves active ↔ ∃ text, reading.Described active line text := by
  constructor
  · intro h
    obtain described | ⟨e, faulty⟩ := described_or_faulty reading active 0 line
    · exact described
    · exact absurd h faulty.not_resolves
  · intro h
    obtain ⟨text, described⟩ := h
    exact described.resolves

end Reading

section Lines

variable {scopes : List LocalScope} {index : Nat} {line : String} {lines out : List String}
  {e : BufferError}

theorem annotateFrom_cons_eq_ok_iff :
    annotateFrom scopes index (line :: lines) = .ok out ↔
      ∃ first rest, out = first :: rest ∧ annotate scopes index line = .ok first ∧
        annotateFrom scopes (index + 1) lines = .ok rest := by
  simp only [annotateFrom, bind, Except.bind, pure, Except.pure]
  cases annotate scopes index line with
  | error own => simp
  | ok first =>
    cases annotateFrom scopes (index + 1) lines with
    | error own => simp
    | ok rest => simp [eq_comm]

theorem annotateFrom_cons_eq_error_iff :
    annotateFrom scopes index (line :: lines) = .error e ↔
      annotate scopes index line = .error e ∨
        (∃ first, annotate scopes index line = .ok first) ∧
          annotateFrom scopes (index + 1) lines = .error e := by
  simp only [annotateFrom, bind, Except.bind, pure, Except.pure]
  cases annotate scopes index line with
  | error own => simp
  | ok first =>
    cases annotateFrom scopes (index + 1) lines with
    | error own => simp
    | ok rest => simp

theorem annotateFrom_eq_ok_iff :
    annotateFrom scopes index lines = .ok out ↔
      out.length = lines.length ∧ ∀ i line, lines[i]? = some line →
        ∃ text, out[i]? = some text ∧ annotate scopes (index + i) line = .ok text := by
  induction lines generalizing index out with
  | nil => simp [annotateFrom, eq_comm]
  | cons line lines ih =>
    rw [annotateFrom_cons_eq_ok_iff]
    constructor
    · intro h
      obtain ⟨first, rest, rfl, here, later⟩ := h
      obtain ⟨length, each⟩ := ih.mp later
      refine ⟨by simp [length], ?_⟩
      intro i own at_i
      cases i with
      | zero =>
        cases at_i
        exact ⟨first, rfl, here⟩
      | succ i =>
        obtain ⟨text, own_text, annotated⟩ := each i own at_i
        refine ⟨text, own_text, ?_⟩
        rwa [Nat.add_right_comm, Nat.add_assoc] at annotated
    · intro h
      obtain ⟨length, each⟩ := h
      obtain ⟨first, at_zero, here⟩ := each 0 line rfl
      cases out with
      | nil => cases at_zero
      | cons a rest =>
        cases at_zero
        refine ⟨first, rest, rfl, here, ih.mpr ⟨by simpa using length, ?_⟩⟩
        intro i own at_i
        obtain ⟨text, own_text, annotated⟩ := each (i + 1) own at_i
        refine ⟨text, own_text, ?_⟩
        rwa [Nat.add_right_comm, Nat.add_assoc]

/-- The first line that cannot be annotated decides. -/
theorem annotateFrom_eq_error_iff :
    annotateFrom scopes index lines = .error e ↔
      ∃ i line, lines[i]? = some line ∧ annotate scopes (index + i) line = .error e ∧
        ∀ j < i, ∀ earlier, lines[j]? = some earlier →
          ∃ text, annotate scopes (index + j) earlier = .ok text := by
  induction lines generalizing index with
  | nil => simp [annotateFrom]
  | cons line lines ih =>
    rw [annotateFrom_cons_eq_error_iff, ih]
    have shift : ∀ i, index + 1 + i = index + (i + 1) := fun i => by omega
    constructor
    · intro h
      obtain here | ⟨⟨first, fine⟩, i, own, at_i, fails, before⟩ := h
      · exact ⟨0, line, rfl, here, fun j small => absurd small (Nat.not_lt_zero j)⟩
      · refine ⟨i + 1, own, at_i, shift i ▸ fails, ?_⟩
        intro j small earlier at_j
        cases j with
        | zero =>
          cases at_j
          exact ⟨first, fine⟩
        | succ j => exact shift j ▸ before j (Nat.lt_of_succ_lt_succ small) earlier at_j
    · intro h
      obtain ⟨i, own, at_i, fails, before⟩ := h
      cases i with
      | zero =>
        cases at_i
        exact .inl fails
      | succ i =>
        refine .inr ⟨before 0 (Nat.succ_pos i) line rfl, i, own, at_i, (shift i).symm ▸ fails, ?_⟩
        intro j small earlier at_j
        exact (shift j).symm ▸ before (j + 1) (Nat.succ_lt_succ small) earlier at_j

end Lines

namespace Buffer

variable {b : Buffer} {current : Opcodes} {scopes : List LocalScope} {out : List String}
  {e : BufferError}

theorem describe_eq_ok_iff :
    b.describe current scopes = .ok out ↔
      out.length = b.length ∧ ∀ i line, (b.lines current)[i]? = some line →
        ∃ text, out[i]? = some text ∧
          (Reading.ofLine line).Described (LocalScope.activeAt scopes i) line text := by
  rw [describe, annotateFrom_eq_ok_iff, length_lines]
  simp only [Nat.zero_add, annotate, Reading.annotate_eq_ok_iff]

theorem describe_eq_error_iff :
    b.describe current scopes = .error e ↔
      ∃ i line, (b.lines current)[i]? = some line ∧
        (Reading.ofLine line).Faulty (LocalScope.activeAt scopes i) i e ∧
        ∀ j < i, ∀ earlier, (b.lines current)[j]? = some earlier →
          (Reading.ofLine earlier).Resolves (LocalScope.activeAt scopes j) := by
  rw [describe, annotateFrom_eq_error_iff]
  simp only [Nat.zero_add, annotate, Reading.annotate_eq_ok_iff, Reading.annotate_eq_error_iff,
    ← Reading.resolves_iff]

/-- A description succeeds exactly if each line that says a slot can be given the name of its
record. It then has one line for each step. Otherwise the first line that cannot be given a name
decides what the error is. -/
theorem describe_outcome (b : Buffer) (current : Opcodes) (scopes : List LocalScope) :
    ((∃ out, b.describe current scopes = .ok out) ↔
      ∀ i line, (b.lines current)[i]? = some line →
        (Reading.ofLine line).Resolves (LocalScope.activeAt scopes i)) ∧
    (∀ out, b.describe current scopes = .ok out ↔
      out.length = b.length ∧ ∀ i line, (b.lines current)[i]? = some line →
        ∃ text, out[i]? = some text ∧
          (Reading.ofLine line).Described (LocalScope.activeAt scopes i) line text) ∧
    ∀ e, b.describe current scopes = .error e ↔
      ∃ i line, (b.lines current)[i]? = some line ∧
        (Reading.ofLine line).Faulty (LocalScope.activeAt scopes i) i e ∧
        ∀ j < i, ∀ earlier, (b.lines current)[j]? = some earlier →
          (Reading.ofLine earlier).Resolves (LocalScope.activeAt scopes j) := by
  refine ⟨?_, fun out => describe_eq_ok_iff, fun e => describe_eq_error_iff⟩
  constructor
  · intro h i line at_i
    obtain ⟨out, described⟩ := h
    obtain ⟨text, -, own⟩ := (describe_eq_ok_iff.mp described).2 i line at_i
    exact own.resolves
  · intro h
    cases outcome : b.describe current scopes with
    | ok out => exact ⟨out, rfl⟩
    | error e =>
      obtain ⟨i, line, at_i, faulty, -⟩ := describe_eq_error_iff.mp outcome
      exact absurd (h i line at_i) faulty.not_resolves

/-- Two records in conflict over a slot that the line does not mention. -/
example :
    (ofSteps [.instruction .ldloc_1 .none]).describe .initial
        [⟨⟨0, "total", 1, .value "System.Int32"⟩, 0, none⟩,
          ⟨⟨1, "left", 3, .value "System.Int32"⟩, 0, none⟩,
          ⟨⟨2, "right", 3, .value "System.Int32"⟩, 0, none⟩]
      = .error (.conflictingScopes 3 0 "left" "right") := by
  decide +kernel

end Buffer

end CilBuffer
