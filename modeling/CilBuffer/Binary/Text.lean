import CilBuffer.Decimal.Shortest

/-!
# The text of a floating-point number

The shortest decimal in positional notation, whatever its size: no exponent is ever written, and a
whole number has no point.
-/

namespace CilBuffer

/-- The digits with the point that many places from the right, and one digit before it at least. -/
def placed (digits : List Char) (places : Nat) : List Char :=
  let padded := List.replicate (places + 1 - digits.length) '0' ++ digits
  padded.take (padded.length - places) ++ '.' :: padded.drop (padded.length - places)

/-- Positional notation: zeros up to the point, or a point between the digits. -/
def Decimal.positional (d : Decimal) : String :=
  let digits := Nat.toDigits 10 d.digits
  match d.exponent with
  | .ofNat zeros => String.ofList (digits ++ List.replicate zeros '0')
  | .negSucc n => String.ofList (placed digits (n + 1))

/-- A minus sign stands before a negative number, zero and infinity included. -/
def signText (negative : Bool) : String := if negative then "-" else ""

/-- The text of a number of the given format. -/
def Number.text (f : Format) : Number → String
  | .notANumber => "NaN"
  | .infinite negative => signText negative ++ "inf"
  | .finite negative x =>
    signText negative ++ if x.significand = 0 then "0" else (x.shortest f).positional

def Float32Bits.text (x : Float32Bits) : String := x.number.text .single

def Float64Bits.text (x : Float64Bits) : String := x.number.text .double

end CilBuffer
