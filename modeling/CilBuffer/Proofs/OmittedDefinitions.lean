import Mathlib.Data.List.Perm.Subperm
import Mathlib.Logic.Equiv.Fintype
import CilBuffer.Proofs.CallTallies
import CilBuffer.Proofs.CommutingFlushes

/-!
# Definitions only number

A plain label or a local is created on a target where it is first mentioned, so to define it ahead
does no more than fix its number. Without some of these definitions the numbers are permuted, those
of the ends of regions with those of the plain labels, and all else that a flush does is the same.
The definitions can use up the numbers of their kind, and then some of these are given out again, so
the permutation is found where the numbers last. The definition of a label that ends a region is
another matter, as it opens the region.
-/

namespace CilBuffer

namespace Step

variable {step : Step} {steps rest : List Step} {current : Opcodes}

/-- The step defines a label that ends no region, or declares a local. -/
def isPlainDefinition : Step → Bool
  | .defineLabel label => label.origin = .plain
  | .declareLocal _ => true
  | _ => false

/-- The second list is the first without some of its plain definitions. -/
inductive Thinned : List Step → List Step → Prop where
  | nil : Thinned [] []
  | keep {step : Step} {steps rest : List Step} :
    Thinned steps rest → Thinned (step :: steps) (step :: rest)
  | drop {step : Step} {steps rest : List Step} :
    step.isPlainDefinition = true → Thinned steps rest → Thinned (step :: steps) rest

theorem Thinned.refl (steps : List Step) : Thinned steps steps := by
  induction steps with
  | nil => exact .nil
  | cons step steps ih => exact .keep ih

end Step

namespace Call

end Call

namespace Linker

variable {k : Linker} {steps rest : List Step} {before before' : List Reference}

/-- The two lists mention the same ends of regions. -/
def SameRegions (before before' : List Reference) : Prop :=
  ∀ r : Reference, r.endsRegion = true → (r ∈ before ↔ r ∈ before')

theorem SameRegions.refl (before : List Reference) : SameRegions before before :=
  fun _ _ => Iff.rfl

theorem SameRegions.append (h : SameRegions before before') (more : List Reference) :
    SameRegions (before ++ more) (before' ++ more) := by
  intro r ends
  rw [List.mem_append, List.mem_append, h r ends]

/-- Which regions are opened depends only on those opened before. -/
theorem SameRegions.firstUses (h : SameRegions before before') (references : List Reference) :
    (k.firstUses before references).filter (·.endsRegion)
      = (k.firstUses before' references).filter (·.endsRegion) := by
  induction references generalizing before before' with
  | nil => rfl
  | cons r references ih =>
    rw [Linker.firstUses, Linker.firstUses, List.filter_append, List.filter_append,
      ih (h.append [r])]
    congr 1
    cases ends : r.endsRegion with
    | true => simp only [h r ends]
    | false => split <;> split <;> simp [ends]

/-- A new target has enough numbers for what the references have it create. -/
def Lasts (references : List Reference) : Prop :=
  ∀ isLabel, (fresh.created references isLabel).length ≤ 2 ^ handleWidth isLabel

/-- Fewer references need fewer numbers. -/
theorem Lasts.subset {all : List Reference} (h : Lasts all) {references : List Reference}
    (sub : references ⊆ all) : Lasts references := by
  intro isLabel
  have inside : fresh.created references isLabel ⊆ fresh.created all isLabel := by
    intro r hr
    obtain ⟨first, kind⟩ := List.mem_filter.mp hr
    obtain ⟨mentioned, unbound, before⟩ := mem_firstUses.mp first
    exact List.mem_filter.mpr ⟨mem_firstUses.mpr ⟨sub mentioned, unbound, before⟩, kind⟩
  have distinct : (fresh.created references isLabel).Nodup :=
    (fresh.nodup_firstUses [] references).filter _
  exact Nat.le_trans (List.subperm_of_subset distinct inside).length_le (h isLabel)

/-- While the numbers last, a new target counts them as natural numbers from zero. -/
theorem Lasts.toNat_number {references : List Reference} (h : Lasts references) {r : Reference}
    (mentioned : r ∈ references) :
    (fresh.number references r).toNat = (fresh.created references r.isLabel).idxOf r := by
  have start : (fresh.recorder.next r.isLabel).toNat = 0 := by cases r <;> rfl
  have lasts := h r.isLabel
  rw [← Nat.zero_add (List.length _), ← start] at lasts
  rw [(unbound_fresh references).toNat_number mentioned lasts, start, Nat.zero_add]

end Linker

namespace Session

variable {s t : Session} {p q a b : Nat}

end Session

end CilBuffer
