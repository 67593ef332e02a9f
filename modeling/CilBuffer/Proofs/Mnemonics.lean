import CilBuffer.Opcode.Forms
import CilBuffer.Proofs.Words

/-!
# The letters of mnemonics

A mnemonic is one word without a colon, so it can be told from a label that is placed. An opcode
that loads or stores a local begins with another letter than the prefixes do, so a prefix with its
operand glued to it is never taken for such an opcode.
-/

namespace CilBuffer.Opcode

/-- The characters of mnemonics are visible, come after the dash, and are no colons. -/
theorem range_mnemonic (op : Opcode) :
    ∀ c ∈ op.mnemonic.toList, '-'.toNat < c.toNat ∧ c.toNat ≤ 0x7E ∧ c ≠ ':' := by
  have table : (all.all fun op => op.mnemonic.toList.all fun c =>
      Nat.ble 0x2E c.toNat && Nat.ble c.toNat 0x7E && !Nat.beq c.toNat 0x3A) = true := by
    decide +kernel
  intro c hc
  have own := List.all_eq_true.mp (List.all_eq_true.mp table op (mem_all op)) c hc
  simp only [Bool.and_eq_true, Nat.ble_eq, Bool.not_eq_true'] at own
  obtain ⟨⟨low, high⟩, other⟩ := own
  refine ⟨low, high, ?_⟩
  rintro rfl
  cases other

/-- No mnemonic has white space or a colon in it. -/
theorem letters_mnemonic (op : Opcode) :
    ∀ c ∈ op.mnemonic.toList, Text.isBlank c = false ∧ c ≠ ':' := by
  intro c hc
  obtain ⟨low, high, other⟩ := op.range_mnemonic c hc
  have visible : 0x21 ≤ c.toNat := Nat.le_trans (by decide) low
  exact ⟨Text.not_isBlank_of_visible visible high, other⟩

/-- A label with the colon after it is no mnemonic. -/
theorem mnemonic_ne_append_colon (op : Opcode) (name : List Char) :
    op.mnemonic.toList ≠ name ++ [':'] := by
  intro own
  have colon : ':' ∈ op.mnemonic.toList := by simp [own]
  exact absurd rfl (op.letters_mnemonic ':' colon).2

theorem mnemonic_ne_nil (op : Opcode) : op.mnemonic.toList ≠ [] := by
  simpa using op.mnemonic_ne_empty

/-- A mnemonic is one word. -/
theorem words_mnemonic (op : Opcode) : Text.words op.mnemonic.toList = [op.mnemonic.toList] :=
  Text.words_of_forall_not op.mnemonic_ne_nil fun c hc => (op.letters_mnemonic c hc).1

/-- The marker of a region is no mnemonic. -/
theorem head?_mnemonic_ne_dash (op : Opcode) : op.mnemonic.toList.head? ≠ some '-' := by
  intro dash
  exact absurd (op.range_mnemonic '-' (List.mem_of_mem_head? dash)).1 (Nat.lt_irrefl _)

theorem slotAddress?_of_isPrefix {op : Opcode} (h : op.isPrefix = true) :
    op.slotAddress? = none := by
  cases op <;> cases h <;> rfl

/-- The opcodes that load or store a local begin with one of two letters. -/
theorem head?_mnemonic_of_slotAddress? {op : Opcode} (h : op.slotAddress? ≠ none) :
    op.mnemonic.toList.head? = some 'l' ∨ op.mnemonic.toList.head? = some 's' := by
  cases op <;> first | exact absurd rfl h | exact .inl rfl | exact .inr rfl

/-- A prefix begins with another letter. -/
theorem mnemonic_of_isPrefix {op : Opcode} (h : op.isPrefix = true) :
    ∃ c cs, op.mnemonic.toList = c :: cs ∧ Text.isBlank c = false ∧ c ≠ 'l' ∧ c ≠ 's' := by
  cases op <;> cases h <;> exact ⟨_, _, rfl, by decide⟩

end CilBuffer.Opcode
