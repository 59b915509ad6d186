import MethodFrame.Proofs.Journal.Reading
import MethodFrame.Text.Quoted

-- Texts that can be told from whatever follows them. A quoted text is one: it ends at the first
-- bare quote, and each of its characters can be read off the escapes before the next one begins.
namespace MethodFrame.Text

theorem mark_unique {mark : Char} {front other behind beyond : List Char} (absent : mark ∉ front)
    (without : mark ∉ other) (same : front ++ mark :: behind = other ++ mark :: beyond) :
    front = other ∧ behind = beyond := by
  have split := congrArg (splitFirst mark) same
  rw [splitFirst_append absent, splitFirst_append without] at split
  exact Prod.mk.inj split

theorem digitChar_injective : ∀ digit < 16, ∀ other < 16,
    Nat.digitChar digit = Nat.digitChar other → digit = other := by
  decide

theorem digits_last {base : Nat} (more : 1 < base) (number : Nat) : Nat.toDigits base number =
    (if number < base then [] else Nat.toDigits base (number / base)) ++
      [Nat.digitChar (number % base)] := by
  rw [Nat.toDigits_eq_if more]
  split
  · rename_i small
    rw [Nat.mod_eq_of_lt small, List.nil_append]
  · rfl

theorem digits_injective {base : Nat} (more : 1 < base) (few : base ≤ 16) {number other : Nat}
    (same : Nat.toDigits base number = Nat.toDigits base other) : number = other := by
  induction number using Nat.strongRecOn generalizing other with
  | ind number ih =>
    rw [digits_last more number, digits_last more other, List.append_singleton_inj] at same
    obtain ⟨front, last⟩ := same
    have below (number : Nat) : number % base < 16 :=
      Nat.lt_of_lt_of_le (Nat.mod_lt _ (Nat.lt_of_succ_lt more)) few
    have digit := digitChar_injective _ (below number) _ (below other) last
    split at front <;> split at front
    · rename_i small little
      rwa [Nat.mod_eq_of_lt small, Nat.mod_eq_of_lt little] at digit
    · exact absurd front.symm Nat.toDigits_ne_nil
    · exact absurd front Nat.toDigits_ne_nil
    · rename_i large _
      have smaller := Nat.div_lt_self (by omega : 0 < number) more
      have high := ih (number / base) smaller front
      rw [← Nat.div_add_mod number base, high, digit, Nat.div_add_mod]

theorem decimal_injective {number other : Nat} (same : number.repr = other.repr) :
    number = other := by
  have digits := congrArg String.toList same
  rw [Nat.toList_repr, Nat.toList_repr] at digits
  exact digits_injective (by decide) (by decide) digits

theorem decimal_unique {mark : Char} (solid : mark.isDigit = false) {number other : Nat}
    {behind beyond : List Char} (same : Nat.toDigits 10 number ++ mark :: behind =
      Nat.toDigits 10 other ++ mark :: beyond) : number = other ∧ behind = beyond := by
  have absent (number : Nat) : mark ∉ Nat.toDigits 10 number := by
    simpa using digits_solid solid number
  obtain ⟨digits, rest⟩ := mark_unique (absent number) (absent other) same
  exact ⟨digits_injective (by decide) (by decide) digits, rest⟩

theorem digitChar_closed {digit : Nat} (small : digit < 16) : Nat.digitChar digit ≠ '\x7d' := by
  revert digit
  decide

theorem hexDigits_closed (number : Nat) : '\x7d' ∉ Nat.toDigits 16 number := by
  induction number using Nat.strongRecOn with
  | ind number ih =>
    have last := digitChar_closed (Nat.mod_lt number (by decide : 0 < 16))
    rw [digits_last (by decide)]
    split
    · simp [last.symm]
    · simp [ih (number / 16) (by omega), last.symm]

theorem shortForms_exact {c letter : Char} (short : shortForms.lookup c = some letter) :
    (c, letter) ∈ shortForms := by
  obtain ⟨front, behind, parts, _⟩ := List.lookup_eq_some_iff.mp short
  simp [parts]

theorem shortForms_injective : ∀ form ∈ shortForms,
    form.2 ≠ 'u' ∧ ∀ other ∈ shortForms, form.2 = other.2 → form.1 = other.1 := by
  decide

variable {coded : Char → Bool}

theorem escape_cases (coded : Char → Bool) (c : Char) :
    (∃ letter, (c, letter) ∈ shortForms ∧ escape coded c = ['\\', letter]) ∨
    escape coded c = '\\' :: 'u' :: '\x7b' :: (Nat.toDigits 16 c.toNat ++ ['\x7d']) ∨
    (escape coded c = [c] ∧ c ≠ '\\' ∧ c ≠ '"') := by
  unfold escape
  cases short : shortForms.lookup c with
  | some letter => exact .inl ⟨letter, shortForms_exact short, rfl⟩
  | none =>
    have solid : c ≠ '\\' ∧ c ≠ '"' := by
      constructor <;> rintro rfl <;> exact absurd short (by decide)
    cases coded c with
    | true => exact .inr (.inl rfl)
    | false => exact .inr (.inr ⟨rfl, solid⟩)

theorem escape_unique {c d : Char} {behind beyond : List Char}
    (same : escape coded c ++ behind = escape coded d ++ beyond) : c = d ∧ behind = beyond := by
  rcases escape_cases coded c with ⟨letter, short, form⟩ | form | ⟨form, solid, _⟩ <;>
    rcases escape_cases coded d with ⟨other, brief, shape⟩ | shape | ⟨shape, plain, _⟩ <;>
    rw [form, shape] at same <;>
    simp only [List.cons_append, List.nil_append, List.append_assoc, List.cons.injEq] at same
  · exact ⟨(shortForms_injective _ short).2 _ brief same.2.1, same.2.2⟩
  · exact absurd same.2.1 (shortForms_injective _ short).1
  · exact absurd same.1.symm plain
  · exact absurd same.2.1.symm (shortForms_injective _ brief).1
  · obtain ⟨digits, rest⟩ := mark_unique (hexDigits_closed _) (hexDigits_closed _) same.2.2.2
    exact ⟨Char.toNat_inj.mp (digits_injective (by decide) (by decide) digits), rest⟩
  · exact absurd same.1.symm plain
  · exact absurd same.1 solid
  · exact absurd same.1 solid
  · exact same

theorem escape_open (c : Char) (behind beyond : List Char) :
    escape coded c ++ behind ≠ '"' :: beyond := by
  rcases escape_cases coded c with ⟨letter, short, form⟩ | form | ⟨form, plain⟩
  · simp [form]
  · simp [form]
  · simp [form, plain.2]

theorem letters_unique {letters others behind beyond : List Char}
    (same : letters.flatMap (escape coded) ++ '"' :: behind =
      others.flatMap (escape coded) ++ '"' :: beyond) : letters = others ∧ behind = beyond := by
  induction letters generalizing others with
  | nil =>
    cases others with
    | nil => simpa using same
    | cons d others =>
      rw [List.flatMap_cons, List.append_assoc] at same
      exact absurd same.symm (escape_open d _ _)
  | cons c letters ih =>
    cases others with
    | nil =>
      rw [List.flatMap_cons, List.append_assoc] at same
      exact absurd same (escape_open c _ _)
    | cons d others =>
      simp only [List.flatMap_cons, List.append_assoc] at same
      obtain ⟨rfl, later⟩ := escape_unique same
      obtain ⟨rfl, rest⟩ := ih later
      exact ⟨rfl, rest⟩

-- A way of writing texts that can be undone whatever stands behind them.
def Delimits (quote : String → String) : Prop :=
  ∀ text other behind beyond, (quote text).toList ++ behind = (quote other).toList ++ beyond →
    text = other ∧ behind = beyond

theorem Delimits.injective {quote : String → String} (delimits : Delimits quote)
    {text other : String} (same : quote text = quote other) : text = other :=
  (delimits text other [] [] (by rw [same])).1

theorem quotedWith_delimits (coded : Char → Bool) : Delimits (quotedWith coded) := by
  intro text other behind beyond same
  simp only [quotedWith, String.toList_append, String.toList_ofList, List.append_assoc] at same
  obtain ⟨letters, rest⟩ := letters_unique (List.append_cancel_left same)
  exact ⟨String.toList_inj.mp letters, rest⟩

end MethodFrame.Text
