import Mathlib.Data.List.Induction
import CilBuffer.Text.Blank
import CilBuffer.Text.Numeral

/-!
# Words, numerals and names

The words of a text are the same without the white space at its end. The decimal text of a whole
number is one word that looks like a number, and it denotes a slot if the number is below `2 ^ 16`.
A name is a word that does not look like a number; what follows it changes nothing about that, as
long as it does not begin with a sign or a digit.
-/

namespace CilBuffer.Text

theorem words_append_blank (cs : List Char) {b : Char} (hb : isBlank b = true) :
    words (cs ++ [b]) = words cs :=
  (words_append_cons cs hb []).trans (List.append_nil _)

/-- By induction from the end: a blank at the end belongs to no word. -/
theorem words_trimEnd (cs : List Char) : words (trimEnd cs) = words cs := by
  induction cs using List.reverseRecOn with
  | nil => rfl
  | append_singleton cs c ih =>
    cases hc : isBlank c with
    | true =>
      rw [trimEnd_append_of_isBlank cs hc, ih, words_append_blank cs hc]
    | false => rw [trimEnd_append_of_not_isBlank cs hc]

theorem words_cons_of_not_isBlank {c : Char} (h : isBlank c = false) (cs : List Char) :
    ∃ w ws, words (c :: cs) = (c :: w) :: ws := by
  obtain ⟨w, ws, split⟩ := List.exists_cons_of_ne_nil (List.splitOnP_ne_nil isBlank cs)
  refine ⟨w, ws.filter (· ≠ []), ?_⟩
  simp [words, List.splitOnP_cons_eq_if_modifyHead, h, split]

theorem words_word_cons {w : List Char} (hw : w ≠ []) (h : ∀ c ∈ w, isBlank c = false) {b : Char}
    (hb : isBlank b = true) (cs : List Char) : words (w ++ b :: cs) = w :: words cs := by
  rw [words_append_cons w hb cs, words_of_forall_not hw h]
  rfl

/-- One more character of a word. -/
theorem letters_concat {w : List Char} (h : ∀ c ∈ w, isBlank c = false) {last : Char}
    (solid : isBlank last = false) : ∀ c ∈ w ++ [last], isBlank c = false := by
  intro c hc
  rcases List.mem_append.mp hc with hc | hc
  · exact h c hc
  · rw [List.mem_singleton.mp hc]
    exact solid

theorem not_isBlank_of_visible {c : Char} (low : 0x21 ≤ c.toNat) (high : c.toNat ≤ 0x7E) :
    isBlank c = false := by
  simp only [isBlank, blankRanges, List.any_cons, List.any_nil, Bool.or_false, Bool.or_eq_false_iff,
    Bool.and_eq_false_iff, decide_eq_false_iff_not]
  omega

theorem not_isBlank_of_isDigit {c : Char} (h : c.isDigit = true) : isBlank c = false := by
  have range : 48 ≤ c.toNat ∧ c.toNat ≤ 57 := by
    simpa [Char.isDigit, UInt32.le_iff_toNat_le] using h
  exact not_isBlank_of_visible (by omega) (by omega)

theorem isNumeric_minus (cs : List Char) : isNumeric ('-' :: cs) = isNumeric cs := rfl

theorem isNumeric_of_not_sign {c : Char} (h : (c = '-' || c = '+') = false) (cs : List Char) :
    isNumeric (c :: cs) = c.isDigit := by
  simp [isNumeric, h]

theorem isNumeric_of_sign {c : Char} (h : (c = '-' || c = '+') = true) (cs : List Char) :
    isNumeric (c :: cs) = isNumeric cs := by
  simp [isNumeric, h]

theorem isNumeric_toDigits (n : Nat) : isNumeric (Nat.toDigits 10 n) = true := by
  obtain ⟨c, cs, eq⟩ := List.exists_cons_of_ne_nil (Nat.toDigits_ne_nil (n := n) (b := 10))
  have head : c ∈ Nat.toDigits 10 n := by simp [eq]
  have digit : c.isDigit = true := Nat.isDigit_of_mem_toDigits (by decide) (by decide) head
  have unsigned : (c = '-' || c = '+') = false := by
    cases sign : (c = '-' || c = '+' : Bool) with
    | false => rfl
    | true =>
      simp only [Bool.or_eq_true, decide_eq_true_eq] at sign
      rcases sign with rfl | rfl <;> cases digit
  rw [eq, isNumeric_of_not_sign unsigned, digit]

/-- By induction on the first part: what decides is the first character that is no sign. -/
theorem isNumeric_append {w rest : List Char} (hw : isNumeric w = false)
    (hr : isNumeric rest = false) : isNumeric (w ++ rest) = false := by
  induction w with
  | nil => exact hr
  | cons c w ih =>
    cases sign : (c = '-' || c = '+' : Bool) with
    | true =>
      rw [isNumeric_of_sign sign] at hw
      rw [List.cons_append, isNumeric_of_sign sign]
      exact ih hw
    | false =>
      rw [isNumeric_of_not_sign sign] at hw
      rw [List.cons_append, isNumeric_of_not_sign sign, hw]

theorem slotNumber?_minus (cs : List Char) : slotNumber? ('-' :: cs) = none := by
  have digits : ('-' :: cs).all Char.isDigit = false := rfl
  simp [slotNumber?, dropPlus, digits]

theorem toList_ofInt (v : Int) :
    (ofInt v).toList = if v < 0 then '-' :: Nat.toDigits 10 v.natAbs
      else Nat.toDigits 10 v.natAbs := by
  cases v with
  | ofNat n => simp [ofInt]
  | negSucc n => simp [ofInt]

theorem letters_ofInt (v : Int) : ∀ c ∈ (ofInt v).toList, isBlank c = false := by
  have digits : ∀ c ∈ Nat.toDigits 10 v.natAbs, isBlank c = false := fun c hc =>
    not_isBlank_of_isDigit (Nat.isDigit_of_mem_toDigits (by decide) (by decide) hc)
  intro c hc
  rw [toList_ofInt] at hc
  split at hc
  · rcases List.mem_cons.mp hc with rfl | hc
    · decide
    · exact digits c hc
  · exact digits c hc

theorem isNumeric_ofInt (v : Int) : isNumeric (ofInt v).toList = true := by
  rw [toList_ofInt]
  split
  · rw [isNumeric_minus, isNumeric_toDigits]
  · exact isNumeric_toDigits _

/-- The text of a whole number denotes that number if it is a slot. -/
theorem slotNumber?_ofInt (v : Int) :
    slotNumber? (ofInt v).toList
      = if 0 ≤ v ∧ v < UInt16.size then some (.ofNat v.toNat) else none := by
  rw [toList_ofInt]
  by_cases negative : v < 0
  · rw [if_pos negative, slotNumber?_minus, if_neg (by omega)]
  · have same : v.natAbs = v.toNat := by omega
    have below : v.toNat < UInt16.size ↔ 0 ≤ v ∧ v < UInt16.size := by omega
    rw [if_neg negative, slotNumber?_toDigits, same]
    simp only [below]

theorem words_ofInt (v : Int) : words (ofInt v).toList = [(ofInt v).toList] := by
  have numeric := isNumeric_ofInt v
  have ne_nil : (ofInt v).toList ≠ [] := by
    intro empty
    rw [empty] at numeric
    cases numeric
  exact words_of_forall_not ne_nil (letters_ofInt v)

/-- A name that is one word and does not look like a number. -/
structure IsName (name : String) : Prop where
  ne_empty : name ≠ ""
  letters : ∀ c ∈ name.toList, isBlank c = false
  not_numeric : isNumeric name.toList = false

theorem isName_iff {name : String} :
    IsName name ↔
      (name ≠ "" && name.toList.all (!isBlank ·) && !isNumeric name.toList) = true := by
  simp only [Bool.and_eq_true, decide_eq_true_eq, List.all_eq_true, Bool.not_eq_true', and_assoc]
  exact ⟨fun h => ⟨h.1, h.2, h.3⟩, fun ⟨h₁, h₂, h₃⟩ => ⟨h₁, h₂, h₃⟩⟩

instance (name : String) : Decidable (IsName name) := decidable_of_iff _ isName_iff.symm

/-- The first word of the text looks like a number. -/
def leadsNumeric (cs : List Char) : Bool := (words cs).head?.any isNumeric

theorem leadsNumeric_word {w : List Char} (h : ∀ c ∈ w, isBlank c = false)
    (hn : isNumeric w = false) : leadsNumeric w = false := by
  by_cases empty : w = []
  · subst empty
    rfl
  · simp [leadsNumeric, words_of_forall_not empty h, hn]

theorem leadsNumeric_word_cons {w : List Char} (hw : w ≠ []) (h : ∀ c ∈ w, isBlank c = false)
    (hn : isNumeric w = false) {b : Char} (hb : isBlank b = true) (cs : List Char) :
    leadsNumeric (w ++ b :: cs) = false := by
  simp [leadsNumeric, words_word_cons hw h hb, hn]

theorem leadsNumeric_cons {c : Char} (solid : isBlank c = false)
    (unsigned : (c = '-' || c = '+') = false) (other : c.isDigit = false) (cs : List Char) :
    leadsNumeric (c :: cs) = false := by
  obtain ⟨w, ws, first⟩ := words_cons_of_not_isBlank solid cs
  simp [leadsNumeric, first, isNumeric_of_not_sign unsigned, other]

theorem IsName.ne_nil {name : String} (h : IsName name) : name.toList ≠ [] := by
  simpa using h.ne_empty

theorem IsName.leadsNumeric {name : String} (h : IsName name) :
    Text.leadsNumeric name.toList = false :=
  leadsNumeric_word h.letters h.not_numeric

theorem IsName.leadsNumeric_space {name : String} (h : IsName name) (cs : List Char) :
    Text.leadsNumeric (name.toList ++ ' ' :: cs) = false :=
  leadsNumeric_word_cons h.ne_nil h.letters h.not_numeric (by decide) cs

/-- Names between commas: the first word is the first name, with the comma after it. -/
theorem leadsNumeric_intercalate {names : List String} (h : ∀ name ∈ names, IsName name) :
    leadsNumeric (", ".intercalate names).toList = false := by
  match names with
  | [] => rfl
  | [name] =>
    rw [String.intercalate_singleton]
    exact (h name (List.mem_singleton_self _)).leadsNumeric
  | name :: next :: names =>
    have own := h name (List.mem_cons_self ..)
    have text : (", ".intercalate (name :: next :: names)).toList
        = (name.toList ++ [',']) ++ ' ' :: (", ".intercalate (next :: names)).toList := by
      simp [String.intercalate_cons_cons]
    have letters : ∀ c ∈ name.toList ++ [','], isBlank c = false :=
      letters_concat own.letters (by decide)
    have plain : isNumeric (name.toList ++ [',']) = false :=
      isNumeric_append own.not_numeric (by decide)
    rw [text]
    exact leadsNumeric_word_cons (by simp) letters plain (by decide) _

end CilBuffer.Text
