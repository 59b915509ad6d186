import MethodFrame.Double.Shortest

-- Doubles as text: the shortest digits in plain decimal notation, never with an exponent.
namespace MethodFrame

def Decimal.display (decimal : Decimal) : String :=
  if 1074 ≤ decimal.place then
    (decimal.digits * Nat.pow 10 (decimal.place - 1074)).repr
  else
    let places := 1074 - decimal.place
    let whole := decimal.digits / Nat.pow 10 places
    let behind := Nat.toDigits 10 (decimal.digits % Nat.pow 10 places)
    whole.repr ++ "." ++
      String.ofList (List.replicate (places - behind.length) '0' ++ behind)

namespace Double

def magnitudeText (x : Double) : String :=
  if x.isInfinite then "inf"
  else if x.isZero then "0"
  else match x.shortest with
    | some decimal => decimal.display
    | none => (⟨x.exactDigits, 0⟩ : Decimal).display

-- A NaN is written without its sign; zero and infinity are written with theirs.
def display (x : Double) : String :=
  if x.isNaN then "NaN"
  else if x.isNegative then "-" ++ x.magnitudeText
  else x.magnitudeText

end Double
end MethodFrame
