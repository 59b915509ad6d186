import MethodFrame.Proofs.Arguments.Scanning
import MethodFrame.Proofs.Options.Occurrence
import MethodFrame.Shell

-- The argument lists that a lawful parser accepts are those of a grammar of items.
namespace MethodFrame
open Arguments

theorem once_middle {first second : List Item} {item : Item} :
    Once (first ++ item :: second) ↔
      item.name ∉ (first ++ second).map Item.name ∧ Once (first ++ second) := by
  rw [Once, List.map_append, List.map_cons, List.nodup_middle, ← List.map_append, List.nodup_cons,
    Once]

theorem Listed.plain (items : List Item) : Listed items (items.map Item.argument) := by
  induction items with
  | nil => exact .nil
  | cons item items ih => exact .cons item.spelling_argument ih

theorem Written.plain (items : List Item) : Written items (items.map Item.argument) := by
  have written := Written.behind (.plain items) .nil
  rwa [List.append_nil, List.append_nil] at written

namespace Options
variable {parser : Parser} {options : Options} {items : List Item} {item : Item}
  {arguments rest : List String} {text : String} {entries : List Found}

theorem proper_declared : Proper declared :=
  ⟨by decide, by decide, by simp [declared], by decide⟩

theorem declared_flag (flag : Flag) :
    ∃ option ∈ declared, option.name = flag.name ∧ option.valued = false :=
  (by decide : ∀ flag ∈ Flag.all, ∃ option ∈ declared,
    option.name = flag.name ∧ option.valued = false) flag flag.mem_all

theorem declared_check : { name := "check", valued := true } ∈ declared := by decide

theorem declared_verbose : { name := "verbose", letter := some 'v' } ∈ declared := by decide

theorem declared_name {name : String} (known : name ∈ declared.map Declared.name) :
    name = "check" ∨ ∃ flag : Flag, name = flag.name :=
  (by decide : ∀ name ∈ declared.map Declared.name,
    name = "check" ∨ ∃ flag ∈ Flag.all, name = flag.name) name known |>.imp_right
    fun ⟨flag, _, same⟩ => ⟨flag, same⟩

theorem declared_letter {letter : Char} :
    letter ∈ declared.filterMap Declared.letter ↔ letter = 'v' := by
  have letters : declared.filterMap Declared.letter = ['v'] := by decide
  rw [letters, List.mem_singleton]

theorem read_exact : read parser arguments = .ok options ↔
    ∃ entries, parser declared arguments = .ok entries ∧ ofFound entries = options := by
  unfold read
  cases parser declared arguments <;> simp [Except.map]

section
variable (regular : Regular parser declared)
include regular

theorem parse_item (spelling : item.Spelling arguments) :
    parser declared (arguments ++ rest) = .ok entries ↔
      Adds parser declared item.found rest entries := by
  cases spelling with
  | long flag =>
    obtain ⟨option, member, name, plain⟩ := declared_flag flag
    have called := regular.flag member plain .long rest entries
    rwa [name] at called
  | short => exact regular.flag declared_verbose rfl (.short rfl) rest entries
  | joined text => exact regular.joined declared_check rfl text rest entries
  | apart value => exact regular.apart declared_check rfl value rest entries

theorem parse_written (written : Written items arguments) :
    parser declared arguments = .ok entries ↔ Once items ∧ entries = items.map Item.found := by
  induction written generalizing entries with
  | nil => simp [regular.nothing, Once, eq_comm]
  | closed => simp [regular.closed, Once, eq_comm]
  | @cons item items arguments rest spelling written ih =>
    have names : (items.map Item.found).map Found.name = items.map Item.name := by
      rw [List.map_map]
      exact List.map_congr_left fun item _ => item.found_name
    rw [parse_item regular spelling, Once, List.map_cons, List.nodup_cons]
    constructor
    · rintro ⟨others, accepted, fresh, rfl⟩
      obtain ⟨once, rfl⟩ := ih.mp accepted
      rw [names, item.found_name] at fresh
      exact ⟨⟨fresh, once⟩, rfl⟩
    · rintro ⟨⟨fresh, once⟩, rfl⟩
      refine ⟨_, ih.mpr ⟨once, rfl⟩, ?_, rfl⟩
      rwa [names, item.found_name]

-- The letter of a flag stands alone: a second one behind it would give the flag again.
theorem parse_letters {letters : List Char} (same : ∀ letter ∈ letters, letter = 'v')
    (accepted : parser declared (String.ofList ('-' :: 'v' :: letters) :: rest) = .ok entries) :
    letters = [] ∧ "verbose" ∈ entries.map Found.name := by
  have called : ∀ {rest entries}, parser declared (String.ofList ['-', 'v'] :: rest) = .ok entries →
      Adds parser declared ⟨"verbose", none⟩ rest entries :=
    (regular.flag declared_verbose rfl (.short rfl) _ _).mp
  induction letters generalizing entries with
  | nil =>
    obtain ⟨others, _, _, rfl⟩ := called accepted
    exact ⟨rfl, List.mem_cons_self⟩
  | cons letter letters ih =>
    obtain ⟨first, further⟩ := List.forall_mem_cons.mp same
    have known : ∀ each ∈ 'v' :: letter :: letters, each ∈ declared.filterMap Declared.letter := by
      intro each member
      rcases List.mem_cons.mp member with front | inside
      · exact declared_letter.mpr front
      · exact declared_letter.mpr (same each inside)
    obtain ⟨others, later, fresh, rfl⟩ := called ((regular.cluster known rest entries).mp accepted)
    rw [first] at later
    exact absurd (ih further later).2 fresh

theorem parse_cluster {letters : List Char} (some_letter : letters ≠ [])
    (dashless : letters.head? ≠ some '-')
    (accepted : parser declared (String.ofList ('-' :: letters) :: rest) = .ok entries) :
    letters = ['v'] := by
  have same : ∀ letter ∈ letters, letter = 'v' := fun letter member => by
    by_contra other
    exact regular.unlettered dashless letter member (mt declared_letter.mp other) rest _ accepted
  cases letters with
  | nil => exact absurd rfl some_letter
  | cons first others =>
    obtain ⟨rfl, further⟩ := List.forall_mem_cons.mp same
    rw [(parse_letters regular further accepted).1]

theorem parse_opened (accepted : parser declared ("--check" :: rest) = .ok entries) :
    ∃ value behind, IsValue value ∧ rest = value :: behind := by
  by_contra missing
  refine regular.awaited declared_check rfl (fun value front form => missing ?_) _ accepted
  exact ⟨value, rest.tail, form, (List.cons_head?_tail front).symm⟩

theorem parse_first (accepted : parser declared (text :: rest) = .ok entries) :
    (text = "--" ∧ rest = []) ∨ ∃ (item : Item) (arguments behind : List String),
      item.Spelling arguments ∧ text :: rest = arguments ++ behind := by
  cases form : Argument.ofString text with
  | separator =>
    obtain rfl := Argument.separator_exact.mp form
    cases rest with
    | nil => exact .inl ⟨rfl, rfl⟩
    | cons next others => exact absurd accepted (regular.behind next others _)
  | plain body =>
    obtain rfl := Argument.text_plain form
    exact absurd accepted (regular.stray (Argument.plain_exact.mp form) rest _)
  | long name value =>
    have bare := Argument.long_bare form
    by_cases known : name ∈ declared.map Declared.name
    · cases value with
      | none =>
        obtain rfl := Argument.text_long form
        obtain rfl | ⟨flag, rfl⟩ := declared_name known
        · obtain ⟨value, behind, valued, rfl⟩ := parse_opened regular accepted
          exact .inr ⟨_, _, behind, .apart valued, rfl⟩
        · exact .inr ⟨_, _, rest, .long flag, rfl⟩
      | some value =>
        obtain rfl := Argument.text_assigned form
        obtain rfl | ⟨flag, rfl⟩ := declared_name known
        · exact .inr ⟨_, _, rest, .joined value, rfl⟩
        · obtain ⟨option, member, same, plain⟩ := declared_flag flag
          exact absurd accepted (same ▸ regular.assigned member plain value rest _)
    · have unnamed := regular.unnamed bare known
      cases value with
      | none =>
        obtain rfl := Argument.text_long form
        exact absurd accepted (unnamed.1 (Argument.long_some form) rest _)
      | some value =>
        obtain rfl := Argument.text_assigned form
        exact absurd accepted (unnamed.2 value rest _)
  | cluster letters =>
    obtain ⟨some_letter, dashless⟩ := Argument.cluster_letters form
    obtain rfl := Argument.text_of_form form
    obtain rfl := parse_cluster regular some_letter dashless accepted
    exact .inr ⟨_, _, rest, .short, rfl⟩

theorem parse_writes (accepted : parser declared arguments = .ok entries) :
    ∃ items, Written items arguments := by
  induction size : arguments.length using Nat.strong_induction_on generalizing arguments entries with
  | _ count ih =>
    cases arguments with
    | nil => exact ⟨[], .nil⟩
    | cons text rest =>
      obtain ⟨rfl, rfl⟩ | ⟨item, front, behind, spelling, whole⟩ := parse_first regular accepted
      · exact ⟨[], .closed⟩
      · rw [whole] at accepted size ⊢
        obtain ⟨others, later, _⟩ := (parse_item regular spelling).mp accepted
        have shorter : behind.length < count := by
          rw [← size, List.length_append]
          exact Nat.lt_add_of_pos_left spelling.length_pos
        obtain ⟨items, written⟩ := ih _ shorter later rfl
        exact ⟨_, .cons spelling written⟩

theorem read_meaning (written : Written items arguments) :
    read parser arguments = .ok options ↔ Once items ∧ Describes items options := by
  rw [read_exact]
  constructor
  · rintro ⟨entries, accepted, rfl⟩
    obtain ⟨once, rfl⟩ := (parse_written regular written).mp accepted
    exact ⟨once, .found once⟩
  · rintro ⟨once, described⟩
    exact ⟨_, (parse_written regular written).mpr ⟨once, rfl⟩, (Describes.found once).unique described⟩

theorem read_written (accepted : read parser arguments = .ok options) :
    ∃ items, Written items arguments := by
  obtain ⟨entries, parsed, _⟩ := read_exact.mp accepted
  exact parse_writes regular parsed

theorem opened_check {before after : List String}
    (accepted : read parser (before ++ "--check" :: text :: after) = .ok options) :
    IsValue text ∧ options.check = some text := by
  obtain ⟨items, written⟩ := read_written regular accepted
  have meaning := ((read_meaning regular written).mp accepted).2
  obtain ⟨value, first, second, rfl, _, _⟩ := written.role.opened
  exact ⟨value, (meaning.check text).mpr (List.mem_append_right _ List.mem_cons_self)⟩

end

theorem read_items (lawful : Lawful parser) :
    (∀ arguments, (∃ options, read parser arguments = .ok options) ↔
      ∃ items, Written items arguments ∧ Once items) ∧
    (∀ arguments items options, Written items arguments →
      (read parser arguments = .ok options ↔ Once items ∧ Describes items options)) ∧
    (∀ options, ∃ arguments, read parser arguments = .ok options) ∧
    (∀ text, read parser ["--check", text] = .ok { check := some text } ↔ IsValue text) ∧
    ∀ before text after options,
      read parser (before ++ "--check" :: text :: after) = .ok options →
        IsValue text ∧ options.check = some text := by
  have regular := lawful declared proper_declared
  refine ⟨fun arguments => ⟨?_, ?_⟩, fun _ _ _ => read_meaning regular, fun options => ?_,
    fun text => ⟨?_, ?_⟩, fun before text after options accepted => opened_check regular accepted⟩
  · rintro ⟨options, accepted⟩
    obtain ⟨items, written⟩ := read_written regular accepted
    exact ⟨items, written, ((read_meaning regular written).mp accepted).1⟩
  · rintro ⟨items, written, once⟩
    exact ⟨_, (read_meaning regular written).mpr ⟨once, .found once⟩⟩
  · exact ⟨_, (read_meaning regular (.plain _)).mpr ⟨options.once_items, options.describes_items⟩⟩
  · intro accepted
    exact (@opened_check _ _ _ regular [] _ accepted).1
  · intro value
    have written : Written [.check text] ["--check", text] := .cons (.apart value) .nil
    exact (read_meaning regular written).mpr ⟨by simp [Once], .found (by simp [Once])⟩

-- A lone dash is the text of a check, and a separator closes the list.
theorem read_items_closed :
    Lawful Toolkit.standard.parser ∧
    read Toolkit.standard.parser ["--check", "-", "-v", "--types", "--"] =
      .ok { types := true, check := some "-", verbose := true } := by
  have lawful : Lawful Toolkit.standard.parser := Scan.lawful UsageFault.transcript
  have written : Written [.check "-", .flag .verbose, .flag (.table .types)]
      ["--check", "-", "-v", "--types", "--"] :=
    .cons (.apart (by decide)) (.cons .short (.cons (.long (.table .types)) .closed))
  obtain ⟨_, meaning, _⟩ := read_items lawful
  exact ⟨lawful, (meaning _ _ _ written).mpr ⟨by decide, .found (by decide)⟩⟩

end Options
end MethodFrame
