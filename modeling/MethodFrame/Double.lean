-- Binary64 numbers as the words that hold them, taken apart without rounding. Powers are `Nat.pow`
-- by name: what `^` stands for depends on the imports.
namespace MethodFrame

-- Decidable equality is identity of words. It tells 0 from -0 and makes a NaN
-- equal to itself; the comparison of numbers is `Double.equals`.
structure Double where
  bits : UInt64
deriving DecidableEq, Repr

namespace Double

def zero : Double := ⟨0⟩

def isNegative (x : Double) : Bool := Nat.pow 2 63 ≤ x.bits.toNat

def exponentField (x : Double) : Nat := x.bits.toNat / Nat.pow 2 52 % Nat.pow 2 11

def fraction (x : Double) : Nat := x.bits.toNat % Nat.pow 2 52

def isNaN (x : Double) : Bool := x.exponentField = 2047 && x.fraction ≠ 0

def isInfinite (x : Double) : Bool := x.exponentField = 2047 && x.fraction = 0

def isZero (x : Double) : Bool := x.exponentField = 0 && x.fraction = 0

-- The significand, with the leading bit that a normal number does not store.
def significand (x : Double) : Nat :=
  if x.exponentField = 0 then x.fraction else Nat.pow 2 52 + x.fraction

-- Distances and magnitudes are counted in steps of `2 ^ -1074`.
def gap (x : Double) : Nat := Nat.pow 2 (x.exponentField - 1)

def steps (x : Double) : Nat := x.significand * x.gap

-- Equality of numbers: a NaN differs from everything, and the two zeros are equal.
def equals (x y : Double) : Bool :=
  !x.isNaN && !y.isNaN && (x = y || (x.isZero && y.isZero))

end Double
end MethodFrame
