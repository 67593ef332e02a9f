import CilBuffer.Proofs.DescribedLines

/-!
# The order of scope records

To a description the records are a collection: whether it succeeds, with which lines, and over which
step it fails, is the same in every order of the records. The search for a conflict goes through them
one by one and ends at the first slot that repeats, so with more than one conflict the order decides
which slot and which two records the error names.
-/

namespace CilBuffer

/-- Both records hold the slot at the step. They are at two places of the list, the first one
earlier. -/
structure LocalScope.Rivals (scopes : List LocalScope) (index : Nat) (slot : UInt16)
    (first second : LocalScope) : Prop where
  inside : [first, second].Sublist scopes
  active : first.isActiveAt index = true ∧ second.isActiveAt index = true
  slots : first.slot = slot ∧ second.slot = slot

/-- Two causes of one kind over one step, the first from the first list of records and the second
from the second list. They are equal but for the slot of a conflict and the records that claim it. -/
inductive BufferError.Alike (scopes scopes' : List LocalScope) : BufferError → BufferError → Prop where
  | invalidSlot (operand : String) (index : Nat) :
      Alike scopes scopes' (.invalidSlot operand index) (.invalidSlot operand index)
  | missingScope (slot : UInt16) (index : Nat) :
      Alike scopes scopes' (.missingScope slot index) (.missingScope slot index)
  | conflictingScopes {slot slot' : UInt16} {index : Nat}
      {first second first' second' : LocalScope} :
      LocalScope.Rivals scopes index slot first second →
      LocalScope.Rivals scopes' index slot' first' second' →
      Alike scopes scopes'
        (.conflictingScopes slot index first.localVar.name second.localVar.name)
        (.conflictingScopes slot' index first'.localVar.name second'.localVar.name)

namespace LocalScope

variable {scopes scopes' : List LocalScope} {first second : LocalScope} {index : Nat}

theorem activeAt_perm (perm : scopes.Perm scopes') (index : Nat) :
    (activeAt scopes index).Perm (activeAt scopes' index) :=
  perm.filter _

/-- The two records of a conflict among the active ones are rivals in the whole list. -/
theorem rivals_of_conflict? (h : conflict? (activeAt scopes index) = some (first, second)) :
    Rivals scopes index second.slot first second := by
  obtain ⟨before, after, split, -, inside, repeats⟩ := conflict?_eq_some_iff.mp h
  have pair : [first, second].Sublist (activeAt scopes index) := by
    rw [split]
    exact (List.singleton_sublist.mpr inside).append
      (List.singleton_sublist.mpr (List.mem_cons_self ..))
  have active : ∀ scope ∈ [first, second], scope.isActiveAt index = true := by
    intro scope member
    exact (List.mem_filter.mp (pair.subset member)).2
  refine ⟨pair.trans List.filter_sublist, ⟨?_, ?_⟩, repeats, rfl⟩
  · exact active first (by simp)
  · exact active second (by simp)

/-- There is a conflict in every order of the records or in none. -/
theorem exists_conflict?_of_perm {active active' : List LocalScope} (perm : active.Perm active')
    (h : conflict? active = some (first, second)) :
    ∃ first' second', conflict? active' = some (first', second') := by
  cases conflict : conflict? active' with
  | some pair => exact ⟨pair.1, pair.2, rfl⟩
  | none =>
    have distinct := (perm.map slot).nodup_iff.mpr (conflict?_eq_none_iff.mp conflict)
    rw [conflict?_eq_none_iff.mpr distinct] at h
    cases h

end LocalScope

namespace Reading

variable {reading : Reading} {active active' scopes scopes' : List LocalScope} {index : Nat}
  {line text : String} {e : BufferError}

theorem Resolves.perm (perm : active.Perm active') (h : reading.Resolves active) :
    reading.Resolves active' := by
  cases reading with
  | nothing => trivial
  | invalid operand => exact h
  | slot number =>
    obtain ⟨distinct, scope, member, own⟩ := h
    exact ⟨(perm.map (·.slot)).nodup_iff.mp distinct, scope, perm.mem_iff.mp member, own⟩

/-- The only record with the slot is the only one in every order. -/
theorem Described.perm (perm : active.Perm active') (h : reading.Described active line text) :
    reading.Described active' line text := by
  cases h with
  | nothing => exact .nothing
  | @slot number scope distinct only =>
    have only' : active'.filter (·.slot = number) = [scope] := by
      apply List.perm_singleton.mp
      rw [← only]
      exact (perm.filter _).symm
    exact .slot ((perm.map (·.slot)).nodup_iff.mp distinct) only'

/-- A fault over one order of the records is a fault over every other, and of the same kind. -/
theorem Faulty.alike (perm : scopes.Perm scopes')
    (h : reading.Faulty (LocalScope.activeAt scopes index) index e) :
    ∃ e', reading.Faulty (LocalScope.activeAt scopes' index) index e' ∧
      e.Alike scopes scopes' e' := by
  have active := LocalScope.activeAt_perm perm index
  cases h with
  | @invalid operand => exact ⟨_, .invalid, .invalidSlot operand index⟩
  | conflict split nodup inside repeats =>
    have conflict := LocalScope.conflict?_eq_some_iff.mpr ⟨_, _, split, nodup, inside, repeats⟩
    obtain ⟨first', second', conflict'⟩ := LocalScope.exists_conflict?_of_perm active conflict
    obtain ⟨before', after', split', nodup', inside', repeats'⟩ :=
      LocalScope.conflict?_eq_some_iff.mp conflict'
    exact ⟨_, .conflict split' nodup' inside' repeats',
      .conflictingScopes (LocalScope.rivals_of_conflict? conflict)
        (LocalScope.rivals_of_conflict? conflict')⟩
  | @missing number distinct absent =>
    refine ⟨_, .missing ((active.map (·.slot)).nodup_iff.mp distinct) ?_,
      .missingScope number index⟩
    intro scope member
    exact absent scope (active.mem_iff.mpr member)

end Reading

namespace Buffer

variable {scopes scopes' : List LocalScope} {out : List String}

theorem describe_eq_ok_of_perm {b : Buffer} {current : Opcodes} (perm : scopes.Perm scopes')
    (h : b.describe current scopes = .ok out) : b.describe current scopes' = .ok out := by
  obtain ⟨length, each⟩ := describe_eq_ok_iff.mp h
  refine describe_eq_ok_iff.mpr ⟨length, ?_⟩
  intro i line at_i
  obtain ⟨text, at_out, described⟩ := each i line at_i
  exact ⟨text, at_out, described.perm (LocalScope.activeAt_perm perm i)⟩

/-- With the same records in another order, a description succeeds if and only if it does in the
first, with the same lines. Otherwise it fails over the same step with an error of the same kind. The
errors are equal, but for a conflict: there each names a slot and two records of its own list that
both hold the slot at that step. -/
theorem describe_perm (perm : scopes.Perm scopes') (b : Buffer) (current : Opcodes) :
    (∀ out, b.describe current scopes = .ok out ↔ b.describe current scopes' = .ok out) ∧
      ∀ e, b.describe current scopes = .error e →
        ∃ e', b.describe current scopes' = .error e' ∧ e.Alike scopes scopes' e' := by
  constructor
  · intro out
    exact ⟨describe_eq_ok_of_perm perm, describe_eq_ok_of_perm perm.symm⟩
  · intro e fails
    obtain ⟨i, line, at_i, faulty, before⟩ := describe_eq_error_iff.mp fails
    obtain ⟨e', faulty', alike⟩ := faulty.alike perm
    refine ⟨e', describe_eq_error_iff.mpr ⟨i, line, at_i, faulty', ?_⟩, alike⟩
    intro j small earlier at_j
    exact (before j small earlier at_j).perm (LocalScope.activeAt_perm perm j)

/-- Records of three slots. At the first two steps only one of them is active, and at the third two
slots are claimed twice. -/
def crowdedScopes : List LocalScope :=
  let type : TypeRef := .value "System.Int32"
  [⟨⟨0, "left", 3, type⟩, 2, none⟩, ⟨⟨1, "right", 3, type⟩, 2, none⟩,
    ⟨⟨2, "low", 1, type⟩, 0, some 2⟩, ⟨⟨3, "top", 2, type⟩, 2, none⟩,
    ⟨⟨4, "end", 2, type⟩, 2, some 3⟩]

theorem crowdedScopes_reversed :
    let loads : Buffer := ofSteps [.instruction .ldloc_1 .none, .instruction .ldlocS (.byte 1)]
    let more : Buffer := loads.append (.instruction .stloc_1 .none)
    crowdedScopes.Perm crowdedScopes.reverse ∧
      loads.describe .initial crowdedScopes.reverse = .ok ["ldloc.1 // low", "ldloc.s 1 // low"] ∧
      ∃ e', more.describe .initial crowdedScopes.reverse = .error e' ∧
        (BufferError.conflictingScopes 3 2 "left" "right").Alike crowdedScopes
          crowdedScopes.reverse e' ∧
        e' = .conflictingScopes 2 2 "end" "top" := by
  intro loads more
  have perm : crowdedScopes.Perm crowdedScopes.reverse := (List.reverse_perm _).symm
  obtain ⟨same, -⟩ := describe_perm perm loads .initial
  obtain ⟨-, failing⟩ := describe_perm perm more .initial
  obtain ⟨e', fails, alike⟩ := failing (.conflictingScopes 3 2 "left" "right") (by decide +kernel)
  have own : more.describe .initial crowdedScopes.reverse
      = .error (.conflictingScopes 2 2 "end" "top") := by decide +kernel
  refine ⟨perm, (same _).mp (by decide +kernel), e', fails, alike, ?_⟩
  rw [own] at fails
  cases fails
  rfl

end Buffer

end CilBuffer
