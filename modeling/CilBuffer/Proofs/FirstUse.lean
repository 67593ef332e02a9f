import CilBuffer.Proofs.OwnCalls

/-!
# Numbers by first use

Which references are created, and with which numbers, is told by the list of references alone: those
that are not bound at the beginning are created where they stand first, and are numbered in the
order of their creation, labels and locals apart. There is no last number: the count starts over.
`After` relates a linker to the references that it has resolved since a beginning, in whatever
portions.
-/

namespace CilBuffer.Linker

variable {k₀ k : Linker} {done references all : List Reference} {r : Reference}

/-- The references that are created, those mentioned before being settled: not bound at the
beginning, and mentioned for the first time. -/
def firstUses (k₀ : Linker) (before : List Reference) : List Reference → List Reference
  | [] => []
  | r :: references =>
    (if k₀.bound? r = none ∧ r ∉ before then [r] else [])
      ++ k₀.firstUses (before ++ [r]) references

/-- The references of one kind that are created. -/
def created (k₀ : Linker) (references : List Reference) (isLabel : Bool) : List Reference :=
  (k₀.firstUses [] references).filter (·.isLabel = isLabel)

/-- The number of a reference: the one that it is bound to at the beginning, or the next number
then, counted on for each reference of its kind that is created earlier. -/
def number (k₀ : Linker) (references : List Reference) : Numbering := fun r =>
  match k₀.bound? r with
  | some number => number
  | none => k₀.recorder.next r.isLabel + .ofNat _ ((k₀.created references r.isLabel).idxOf r)

theorem firstUses_append (k₀ : Linker) (before xs ys : List Reference) :
    k₀.firstUses before (xs ++ ys) =
      k₀.firstUses before xs ++ k₀.firstUses (before ++ xs) ys := by
  induction xs generalizing before with
  | nil => simp [firstUses]
  | cons x xs ih => simp [firstUses, ih]

theorem mem_firstUses {before : List Reference} :
    r ∈ k₀.firstUses before references ↔ r ∈ references ∧ k₀.bound? r = none ∧ r ∉ before := by
  induction references generalizing before with
  | nil => simp [firstUses]
  | cons x xs ih =>
    simp only [firstUses, List.mem_append, ih, List.mem_cons]
    by_cases same : r = x
    · subst same
      by_cases new : k₀.bound? r = none ∧ r ∉ before
      · simp [new]
      · simp [new]
    · by_cases new : k₀.bound? x = none ∧ x ∉ before
      · simp [new, same]
      · simp [new, same]

theorem nodup_firstUses (k₀ : Linker) (before references : List Reference) :
    (k₀.firstUses before references).Nodup := by
  induction references generalizing before with
  | nil => exact List.nodup_nil
  | cons r references ih =>
    have later : r ∉ k₀.firstUses (before ++ [r]) references := by simp [mem_firstUses]
    unfold firstUses
    split
    · exact List.nodup_cons.mpr ⟨later, ih _⟩
    · exact ih _

theorem firstUses_single (k₀ : Linker) (before : List Reference) (r : Reference) :
    k₀.firstUses before [r] = if k₀.bound? r = none ∧ r ∉ before then [r] else [] := by
  simp [firstUses]

theorem created_append (k₀ : Linker) (xs ys : List Reference) (isLabel : Bool) :
    k₀.created (xs ++ ys) isLabel =
      k₀.created xs isLabel ++ (k₀.firstUses xs ys).filter (·.isLabel = isLabel) := by
  simp [created, firstUses_append]

/-- What is mentioned later does not change the number of a reference. -/
theorem number_append_of_mem (h : r ∈ done) (more : List Reference) :
    k₀.number (done ++ more) r = k₀.number done r := by
  unfold number
  cases bound : k₀.bound? r with
  | some number => rfl
  | none =>
    have made : r ∈ k₀.created done r.isLabel := by
      simp [created, mem_firstUses, h, bound]
    simp only [created_append, List.idxOf_append, if_pos made]

theorem number_of_prefix (sub : done <+: all) (h : r ∈ done) :
    k₀.number all r = k₀.number done r := by
  obtain ⟨more, rfl⟩ := sub
  exact number_append_of_mem h more

theorem number_of_new (bound : k₀.bound? r = none) (new : r ∉ done) :
    k₀.number (done ++ [r]) r =
      k₀.recorder.next r.isLabel + .ofNat _ (k₀.created done r.isLabel).length := by
  have missing : r ∉ k₀.created done r.isLabel := by
    simp [created, mem_firstUses, new]
  simp [number, bound, created_append, List.idxOf_append, missing, firstUses_single, new]

/-- The linker after the references have been resolved, and calls have been made that create
nothing. -/
structure After (k₀ : Linker) (done : List Reference) (k : Linker) : Prop where
  target : k.target = k₀.target
  bound : ∀ r, k.bound? r = if r ∈ done then some (k₀.number done r) else k₀.bound? r
  next : ∀ kind,
    k.recorder.next kind = k₀.recorder.next kind + .ofNat _ (k₀.created done kind).length

theorem after_nil (k : Linker) : k.After [] k := by
  refine ⟨rfl, fun r => by simp, fun kind => by simp [created, firstUses]⟩

theorem After.bound?_eq_none_iff (h : k₀.After done k) :
    k.bound? r = none ↔ k₀.bound? r = none ∧ r ∉ done := by
  rw [h.bound]
  by_cases mentioned : r ∈ done
  · simp [mentioned]
  · simp [mentioned]

theorem After.bound_of_ne (h : k₀.After done k) {other : Reference} (ne : other ≠ r) :
    k.bound? other
      = if other ∈ done ++ [r] then some (k₀.number (done ++ [r]) other)
        else k₀.bound? other := by
  rw [h.bound]
  by_cases mentioned : other ∈ done
  · simp [mentioned, number_append_of_mem mentioned]
  · simp [mentioned, ne]

/-- A reference that is bound by now is settled: it is not created, and keeps its number. -/
theorem After.mention (h : k₀.After done k) {handle : Handle r.isLabel}
    (known : k.bound? r = some handle) :
    k₀.firstUses done [r] = [] ∧ k₀.After (done ++ [r]) k := by
  have settled : ¬ (k₀.bound? r = none ∧ r ∉ done) := by
    rw [← h.bound?_eq_none_iff, known]
    exact Option.some_ne_none handle
  have none_new : k₀.firstUses done [r] = [] := by rw [firstUses_single, if_neg settled]
  refine ⟨none_new, h.target, fun other => ?_, fun kind => ?_⟩
  · by_cases same : other = r
    · subst same
      by_cases mentioned : other ∈ done
      · rw [h.bound]
        simp [mentioned, number_append_of_mem mentioned]
      · have first : k₀.bound? other = some handle := by
          rw [← known, h.bound, if_neg mentioned]
        rw [known]
        simp [number, first]
    · exact h.bound_of_ne same
  · rw [h.next, created_append, none_new]
    simp

/-- A reference that is not bound by now is at its first use, and takes its number there. -/
theorem After.create (h : k₀.After done k) (known : k.bound? r = none) {k' : Linker}
    (creates : k.Creates r k') :
    k₀.firstUses done [r] = [r] ∧ k.recorder.next r.isLabel = k₀.number (done ++ [r]) r ∧
      k₀.After (done ++ [r]) k' := by
  obtain ⟨start, new⟩ := h.bound?_eq_none_iff.mp known
  have next : k.recorder.next r.isLabel = k₀.number (done ++ [r]) r := by
    rw [h.next, number_of_new start new]
  have one_new : k₀.firstUses done [r] = [r] := by rw [firstUses_single, if_pos ⟨start, new⟩]
  refine ⟨one_new, next, creates.target.trans h.target, fun other => ?_, fun kind => ?_⟩
  · rw [creates.bound]
    by_cases same : other = r
    · subst same
      simp [next]
    · rw [if_neg same]
      exact h.bound_of_ne same
  · rw [creates.next, h.next, created_append, one_new]
    by_cases same : r.isLabel = kind
    · simp [same, BitVec.ofNat_add, BitVec.add_assoc]
    · simp [same]

/-- One more reference is resolved: created at its first use, and otherwise left alone. -/
theorem After.resolve (h : k₀.After done k) (sub : done ++ [r] <+: all) :
    k₀.After (done ++ [r]) (k.resolve r).2 ∧
      (k.resolve r).2.recorder.calls = k.recorder.calls
        ++ (k₀.firstUses done [r]).map fun x => x.creation (k₀.number all x) := by
  cases known : k.bound? r with
  | some handle =>
    obtain ⟨none_new, after⟩ := h.mention known
    rw [resolve_of_bound known]
    exact ⟨after, by simp [none_new]⟩
  | none =>
    obtain ⟨-, creates⟩ := resolve_of_not_bound known
    obtain ⟨one_new, next, after⟩ := h.create known creates
    have last : r ∈ done ++ [r] := by simp
    refine ⟨after, ?_⟩
    rw [creates.calls, one_new, next, ← number_of_prefix sub last]
    rfl

/-- All references of a portion are resolved, each created at its first use. -/
theorem After.resolveAll (h : k₀.After done k) (sub : done ++ references <+: all) :
    k₀.After (done ++ references) (k.resolveAll references) ∧
      (k.resolveAll references).recorder.calls = k.recorder.calls
        ++ (k₀.firstUses done references).map fun x => x.creation (k₀.number all x) := by
  induction references generalizing done k with
  | nil => exact ⟨by simpa [resolveAll_nil] using h, by simp [firstUses, resolveAll_nil]⟩
  | cons r references ih =>
    have same : done ++ r :: references = done ++ [r] ++ references := by simp
    rw [same] at sub
    obtain ⟨after, calls⟩ := h.resolve ((List.prefix_append _ _).trans sub)
    obtain ⟨after', calls'⟩ := ih after sub
    have split : k₀.firstUses done (r :: references)
        = k₀.firstUses done [r] ++ k₀.firstUses (done ++ [r]) references :=
      firstUses_append k₀ done [r] references
    rw [same, resolveAll_cons, calls', calls, split]
    exact ⟨after', by simp⟩

end CilBuffer.Linker
