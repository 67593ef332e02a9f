import CilBuffer.Identity

/-!
# Scopes of locals

A local holds its slot from the step at which it is declared until the one at which it is released.
Two active records can claim one slot; the main statement says when there are none.
-/

namespace CilBuffer

/-- The steps during which a local holds its slot: for ever, if it is not released. -/
structure LocalScope where
  localVar : Local
  declaredAt : Nat
  releasedAt : Option Nat
  deriving DecidableEq, Repr

namespace LocalScope

def new (localVar : Local) (declaredAt : Nat) : LocalScope := ⟨localVar, declaredAt, none⟩

/-- The scope with an end, in place of any end it had. -/
def release (scope : LocalScope) (index : Nat) : LocalScope :=
  { scope with releasedAt := some index }

def slot (scope : LocalScope) : UInt16 := scope.localVar.slot

/-- The local holds its slot at the step: its release is later. -/
def isActiveAt (scope : LocalScope) (index : Nat) : Bool :=
  scope.declaredAt ≤ index && scope.releasedAt.all (index < ·)

def activeAt (scopes : List LocalScope) (index : Nat) : List LocalScope :=
  scopes.filter (·.isActiveAt index)

/-- The first record with the slot of an earlier one, after that one. `seen` holds the records
before the list. -/
def conflictAfter? (seen : List LocalScope) : List LocalScope → Option (LocalScope × LocalScope)
  | [] => none
  | scope :: scopes =>
    match seen.find? (·.slot = scope.slot) with
    | some first => some (first, scope)
    | none => conflictAfter? (scope :: seen) scopes

/-- The first record with the slot of an earlier one, after that one. -/
def conflict? (scopes : List LocalScope) : Option (LocalScope × LocalScope) :=
  conflictAfter? [] scopes

theorem conflictAfter?_eq_none_iff {seen scopes : List LocalScope} :
    conflictAfter? seen scopes = none ↔
      (scopes.map slot).Nodup ∧ ∀ s ∈ seen, ∀ t ∈ scopes, s.slot ≠ t.slot := by
  induction scopes generalizing seen with
  | nil => simp [conflictAfter?]
  | cons scope scopes ih =>
    unfold conflictAfter?
    cases found : seen.find? (·.slot = scope.slot) with
    | some first =>
      have hs : first.slot = scope.slot := by simpa using List.find?_some found
      have hm := List.mem_of_find?_eq_some found
      simp only [reduceCtorEq, false_iff]
      exact fun h => h.2 first hm scope (List.mem_cons_self ..) hs
    | none =>
      have apart : ∀ s ∈ seen, s.slot ≠ scope.slot := by simpa using found
      simp only [ih, List.map_cons, List.nodup_cons, List.mem_map, List.mem_cons]
      constructor
      · rintro ⟨nodup, h⟩
        refine ⟨⟨?_, nodup⟩, ?_⟩
        · rintro ⟨t, ht, same⟩
          exact h scope (Or.inl rfl) t ht same.symm
        · rintro s hs t (rfl | ht)
          · exact apart s hs
          · exact h s (Or.inr hs) t ht
      · rintro ⟨⟨new, nodup⟩, h⟩
        refine ⟨nodup, ?_⟩
        rintro s (rfl | hs) t ht
        · exact fun same => new ⟨t, ht, same.symm⟩
        · exact h s hs t (Or.inr ht)

/-- There is no conflict exactly if no two records have one slot. -/
theorem conflict?_eq_none_iff {scopes : List LocalScope} :
    conflict? scopes = none ↔ (scopes.map slot).Nodup := by
  simp [conflict?, conflictAfter?_eq_none_iff]

end LocalScope

end CilBuffer
