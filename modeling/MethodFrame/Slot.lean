import MethodFrame.Limit

-- The local variable slots of a method. A slot is in range by construction.
namespace MethodFrame

structure Slot where
  index : Nat
  bounded : index < frameLimit
deriving DecidableEq, Repr

namespace Slot

-- Nothing wraps around: a number too large is refused and never taken for a small one.
def ofNat? (index : Nat) : Option Slot :=
  if bounded : index < frameLimit then some ⟨index, bounded⟩ else none

def display (slot : Slot) : String := slot.index.repr

def dump (slot : Slot) : String := "Slot(" ++ slot.index.repr ++ ")"

def compare (left right : Slot) : Ordering := Ord.compare left.index right.index

theorem ofNat_exact {index : Nat} {slot : Slot} :
    ofNat? index = some slot ↔ slot.index = index := by
  constructor
  · intro made
    unfold ofNat? at made
    split at made
    · cases made; rfl
    · cases made
  · rintro rfl
    simp [ofNat?, slot.bounded]

theorem ofNat_none {index : Nat} : ofNat? index = none ↔ frameLimit ≤ index := by
  simp [ofNat?]

end Slot
end MethodFrame
