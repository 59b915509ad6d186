import MethodFrame.Slot

-- An index from names to slots. The order in which names came is no part of what it says.
namespace MethodFrame

structure NameIndex where
  entries : List (String × Slot)
deriving Repr

namespace NameIndex

def empty : NameIndex := ⟨[]⟩

def find? (index : NameIndex) (name : String) : Option Slot := index.entries.lookup name

def contains (index : NameIndex) (name : String) : Bool := (index.find? name).isSome

def erase (index : NameIndex) (name : String) : NameIndex :=
  ⟨index.entries.filter (fun entry => entry.1 ≠ name)⟩

def insert (index : NameIndex) (name : String) (slot : Slot) : NameIndex :=
  ⟨(name, slot) :: (index.erase name).entries⟩

def names (index : NameIndex) : List String := index.entries.map Prod.fst

def agrees (left right : NameIndex) : Bool :=
  (left.names ++ right.names).all (fun name => left.find? name = right.find? name)

theorem find_empty (name : String) : empty.find? name = none := rfl

theorem find_erase (index : NameIndex) (erased name : String) :
    (index.erase erased).find? name = if name = erased then none else index.find? name := by
  cases index with
  | mk entries =>
    simp only [find?, erase]
    induction entries with
    | nil => simp
    | cons entry rest ih =>
      obtain ⟨key, slot⟩ := entry
      by_cases dropped : key = erased
      · subst dropped
        by_cases asked : name = key
        · subst asked
          simpa using ih
        · simpa [List.filter_cons, List.lookup_cons, asked, beq_false_of_ne asked] using ih
      · by_cases asked : name = key
        · subst asked
          simp [dropped]
        · simpa [List.filter_cons, List.lookup_cons, dropped, beq_false_of_ne asked] using ih

theorem find_insert (index : NameIndex) (added name : String) (slot : Slot) :
    (index.insert added slot).find? name =
      if name = added then some slot else index.find? name := by
  by_cases asked : name = added
  · subst asked
    simp [find?, insert]
  · have rest := find_erase index added name
    simp only [asked, if_false] at rest ⊢
    simpa [find?, insert, List.lookup_cons, beq_false_of_ne asked] using rest

theorem find_none_of_names {index : NameIndex} {name : String} (absent : name ∉ index.names) :
    index.find? name = none := by
  cases index with
  | mk entries =>
    simp only [find?, names] at absent ⊢
    exact List.lookup_eq_none_iff.mpr (fun entry member => by
      simp only [List.mem_map, not_exists, not_and] at absent
      exact bne_iff_ne.mpr (fun same => absent entry member same.symm))

theorem agrees_exact {left right : NameIndex} :
    left.agrees right = true ↔ ∀ name, left.find? name = right.find? name := by
  constructor
  · intro checked name
    simp only [agrees, List.all_eq_true, decide_eq_true_eq] at checked
    by_cases known : name ∈ left.names ++ right.names
    · exact checked name known
    · rw [List.mem_append, not_or] at known
      rw [find_none_of_names known.1, find_none_of_names known.2]
  · intro same
    simp [agrees, same]

end NameIndex
end MethodFrame
