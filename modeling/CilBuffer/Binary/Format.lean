/-!
# Binary floating-point numbers

Numbers of 32 and 64 bits are kept as their bits and decoded into sign, significand and exponent.
Numeric equality is separate from equality of the bits: zero equals its negative, and what is not a
number equals nothing.
-/

namespace CilBuffer

/-- A binary interchange format: a sign bit, an exponent and a fraction. -/
structure Format where
  exponentBits : Nat
  fractionBits : Nat
  deriving DecidableEq, Repr

namespace Format

def single : Format := ⟨8, 23⟩

def double : Format := ⟨11, 52⟩

end Format

/-- A finite number `significand * 2 ^ exponent`, less its sign. -/
structure Magnitude where
  significand : Nat
  exponent : Int
  deriving DecidableEq, Repr

/-- What the bits of a floating-point number stand for. -/
inductive Number where
  | notANumber
  | infinite (negative : Bool)
  | finite (negative : Bool) (magnitude : Magnitude)
  deriving DecidableEq, Repr

namespace Format

/-- The exponent of the last place of the smallest numbers. -/
def minExponent (f : Format) : Int := 2 - Nat.pow 2 (f.exponentBits - 1) - f.fractionBits

/-- An exponent of ones marks the infinities and what is not a number; an exponent of zero leaves
out the leading one of the significand. -/
def decode (f : Format) (bits : Nat) : Number :=
  let fraction := bits % Nat.pow 2 f.fractionBits
  let exponent := bits / Nat.pow 2 f.fractionBits % Nat.pow 2 f.exponentBits
  let negative := bits / Nat.pow 2 (f.fractionBits + f.exponentBits) % 2 = 1
  if exponent = Nat.pow 2 f.exponentBits - 1 then
    if fraction = 0 then .infinite negative else .notANumber
  else if exponent = 0 then
    .finite negative ⟨fraction, f.minExponent⟩
  else
    .finite negative ⟨Nat.pow 2 f.fractionBits + fraction, f.minExponent + (exponent - 1)⟩

end Format

/-- Numeric equality of decoded numbers: each finite magnitude but zero is decoded in one way. -/
def Number.equals : Number → Number → Bool
  | .infinite s, .infinite t => s = t
  | .finite s x, .finite t y => (x.significand = 0 ∧ y.significand = 0) ∨ (s = t ∧ x = y)
  | _, _ => false

structure Float32Bits where
  bits : UInt32
  deriving DecidableEq, Repr

structure Float64Bits where
  bits : UInt64
  deriving DecidableEq, Repr

def Float32Bits.number (x : Float32Bits) : Number := Format.single.decode x.bits.toNat

def Float64Bits.number (x : Float64Bits) : Number := Format.double.decode x.bits.toNat

end CilBuffer
