import MethodFrame.Double

-- The shortest decimal that reads back. Among all decimals that round to a given double, the ones
-- on the coarsest decimal grid have the fewest digits, and of these the nearest is taken.
namespace MethodFrame

-- `digits` counts units of `10 ^ (place - 1074)`. At place 0 the unit is so small
-- that every double is a whole number of it.
structure Decimal where
  digits : Nat
  place : Nat
deriving DecidableEq, Repr

namespace Double

-- The magnitude as a whole number of `10 ^ -1074`: one step is `5 ^ 1074` of these units.
def exactDigits (x : Double) : Nat := x.steps * Nat.pow 5 1074

-- The gap below is half the gap above at the foot of a binade, save the lowest.
def narrowBelow (x : Double) : Bool := x.fraction = 0 && 1 < x.exponentField

-- The ends of the interval around the number, each in steps and four times over.
def lowEnd (x : Double) : Nat :=
  4 * x.steps - (if x.narrowBelow then x.gap else 2 * x.gap)

def highEnd (x : Double) : Nat := 4 * x.steps + 2 * x.gap

-- A tie between neighbours goes to the even significand, so the ends of the
-- interval belong to it just when the significand is even.
def readsBack (x : Double) (decimal : Decimal) : Bool :=
  let value := 4 * (decimal.digits * Nat.pow 10 decimal.place)
  let low := x.lowEnd * Nat.pow 5 1074
  let high := x.highEnd * Nat.pow 5 1074
  if x.significand % 2 = 0 then low ≤ value && value ≤ high else low < value && value < high

-- Any other point of the grid that reads back has one of these two between itself and the number.
-- Halfway between them the larger is taken.
def onGrid (x : Double) (place : Nat) : Option Decimal :=
  let below : Decimal := ⟨x.exactDigits / Nat.pow 10 place, place⟩
  let above : Decimal := ⟨x.exactDigits / Nat.pow 10 place + 1, place⟩
  match x.readsBack below, x.readsBack above with
  | true, true =>
    if 2 * x.exactDigits < (below.digits + above.digits) * Nat.pow 10 place then some below
    else some above
  | true, false => some below
  | false, true => some above
  | false, false => none

-- No double reaches `10 ^ 309`, so no grid coarser than this one has a point to offer.
def coarsestPlace : Nat := 1383

def searchFrom (x : Double) : Nat → Option Decimal
  | 0 => x.onGrid 0
  | place + 1 => match x.onGrid (place + 1) with
    | some decimal => some decimal
    | none => searchFrom x place

def shortest (x : Double) : Option Decimal := x.searchFrom coarsestPlace

end Double
end MethodFrame
