import CilBuffer.Opcode.Basic

/-!
# Finding an opcode by its name

The table is searched for a mnemonic. The main statement is that the search and `mnemonic` are
inverse to each other, so a mnemonic names one opcode only.
-/

namespace CilBuffer.Opcode

def ofMnemonic? (name : String) : Option Opcode := all.find? (·.mnemonic = name)

/-- The characters of a name, read as the digits of one number. -/
def nameKey (name : String) : Nat := name.toList.foldl (fun n c => 256 * n + c.toNat) 0

def distinct : List Nat → Bool
  | [] => true
  | k :: ks => ks.all (fun j => !Nat.beq k j) && distinct ks

theorem eq_of_distinct {α : Type} {f : α → Nat} {l : List α} (h : distinct (l.map f) = true) :
    ∀ a ∈ l, ∀ b ∈ l, f a = f b → a = b := by
  induction l with
  | nil => simp
  | cons x xs ih =>
    have hx : (∀ y ∈ xs, f x ≠ f y) ∧ distinct (xs.map f) = true := by
      simpa [distinct, ← Bool.not_eq_true, Nat.beq_eq] using h
    simp only [List.mem_cons]
    rintro a (rfl | ha) b (rfl | hb) hab
    · rfl
    · exact absurd hab (hx.1 b hb)
    · exact absurd hab.symm (hx.1 a ha)
    · exact ih hx.2 a ha b hb hab

theorem mnemonic_injective {a b : Opcode} (h : a.mnemonic = b.mnemonic) : a = b := by
  have table : distinct (all.map (nameKey ·.mnemonic)) = true := by decide +kernel
  exact eq_of_distinct table a (mem_all a) b (mem_all b) (congrArg nameKey h)

theorem ofMnemonic?_eq_some_iff {name : String} {op : Opcode} :
    ofMnemonic? name = some op ↔ op.mnemonic = name := by
  constructor
  · intro h
    simpa using List.find?_some h
  · rintro rfl
    obtain ⟨found, h⟩ := Option.isSome_iff_exists.1
      (List.find?_isSome.2 ⟨op, mem_all op, decide_eq_true rfl⟩ :
        (all.find? (·.mnemonic = op.mnemonic)).isSome)
    have same : found.mnemonic = op.mnemonic := by simpa using List.find?_some h
    exact h.trans (congrArg some (mnemonic_injective same))

theorem ofMnemonic?_mnemonic (op : Opcode) : ofMnemonic? op.mnemonic = some op :=
  ofMnemonic?_eq_some_iff.2 rfl

end CilBuffer.Opcode
