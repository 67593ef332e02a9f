/-!
# Decimal numerals

The text of a whole number, and the slot numbers that a text denotes. The main statement is that
the digits of a number below `2 ^ 16` denote that number, and those of any other number no slot.
-/

namespace CilBuffer.Text

/-- Decimal digits, after a minus sign if the number is negative. -/
def ofInt : Int → String
  | .ofNat n => n.repr
  | .negSucc n => "-" ++ (n + 1).repr

/-- The text looks like a number: an ASCII digit follows its leading signs. -/
def isNumeric (cs : List Char) : Bool :=
  (cs.dropWhile fun c => c = '-' || c = '+').head?.any Char.isDigit

/-- The text after one leading plus sign, if it has one. -/
def dropPlus : List Char → List Char
  | '+' :: cs => cs
  | cs => cs

/-- A slot number is an optional plus sign and one or more ASCII digits, of a value below
`2 ^ 16`. -/
def slotNumber? (cs : List Char) : Option UInt16 :=
  let digits := dropPlus cs
  let value := Nat.ofDigitChars 10 digits 0
  if digits ≠ [] ∧ digits.all Char.isDigit ∧ value < UInt16.size then some (.ofNat value) else none

theorem dropPlus_of_isDigit {c : Char} (h : c.isDigit = true) (cs : List Char) :
    dropPlus (c :: cs) = c :: cs := by
  have hc : c ≠ '+' := by rintro rfl; exact absurd h (by decide)
  unfold dropPlus
  split
  · rename_i heq
    exact absurd (List.cons.inj heq).1 hc
  · rfl

theorem slotNumber?_toDigits (n : Nat) :
    slotNumber? (Nat.toDigits 10 n) = if n < UInt16.size then some (.ofNat n) else none := by
  have digits : ∀ c ∈ Nat.toDigits 10 n, c.isDigit = true := fun c hc =>
    Nat.isDigit_of_mem_toDigits (by decide) (by decide) hc
  have keep : dropPlus (Nat.toDigits 10 n) = Nat.toDigits 10 n := by
    cases hd : Nat.toDigits 10 n with
    | nil => rfl
    | cons c cs => exact dropPlus_of_isDigit (digits c (by simp [hd])) cs
  have value : Nat.ofDigitChars 10 (Nat.toDigits 10 n) 0 = n :=
    Nat.ofDigitChars_toDigits (by decide) (by decide)
  have all : (Nat.toDigits 10 n).all Char.isDigit = true := List.all_eq_true.2 digits
  simp only [slotNumber?, keep, value, ne_eq, Nat.toDigits_ne_nil, not_false_eq_true, all,
    true_and]

end CilBuffer.Text
