import Mathlib.Data.List.Nodup
import MethodFrame.Options
import MethodFrame.Proofs.Arguments.Form

-- What options are asked for with: items, how each is written, and the options they add up to.
namespace MethodFrame
open Arguments

theorem Table.mem_all (table : Table) : table ∈ all := by
  cases table <;> decide

inductive Flag where
  | table (table : Table)
  | verbose
deriving DecidableEq

namespace Flag

def name : Flag → String
  | .table .types => "types"
  | .table .operators => "operators"
  | .table .commands => "commands"
  | .table .limits => "limits"
  | .verbose => "verbose"

def all : List Flag := Table.all.map .table ++ [.verbose]

theorem mem_all (flag : Flag) : flag ∈ all := by
  cases flag with
  | table table => exact List.mem_append_left _ (List.mem_map_of_mem table.mem_all)
  | verbose => decide

theorem name_injective {one other : Flag} (same : one.name = other.name) : one = other :=
  List.inj_on_of_nodup_map (by decide : (all.map name).Nodup) (mem_all _) (mem_all _) same

theorem name_other (flag : Flag) : flag.name ≠ "check" :=
  (by decide : ∀ flag ∈ all, name flag ≠ "check") flag flag.mem_all

end Flag

def Options.isOn (options : Options) : Flag → Bool
  | .table table => options.selects table
  | .verbose => options.verbose

inductive Item where
  | flag (flag : Flag)
  | check (text : String)
deriving DecidableEq

namespace Item

def name : Item → String
  | .flag option => option.name
  | .check _ => "check"

inductive Spelling : Item → List String → Prop where
  | long (flag : Flag) : Spelling (.flag flag) ["--" ++ flag.name]
  | short : Spelling (.flag .verbose) ["-v"]
  | joined (text : String) : Spelling (.check text) ["--check=" ++ text]
  | apart {text : String} (value : IsValue text) : Spelling (.check text) ["--check", text]

def argument : Item → String
  | .flag option => "--" ++ option.name
  | .check text => "--check=" ++ text

def found : Item → Found
  | .flag option => ⟨option.name, none⟩
  | .check text => ⟨"check", some text⟩

variable {item other : Item} {text : String}

theorem found_name (item : Item) : item.found.name = item.name := by
  cases item <;> rfl

theorem name_flag {flag : Flag} : item.name = flag.name ↔ item = .flag flag := by
  cases item with
  | flag option => exact ⟨fun same => congrArg _ (Flag.name_injective same), fun same => same ▸ rfl⟩
  | check text => exact ⟨fun same => absurd same.symm flag.name_other, fun same => same ▸ rfl⟩

theorem spelling_argument (item : Item) : item.Spelling [item.argument] := by
  cases item with
  | flag option => exact .long option
  | check text => exact .joined text

theorem Spelling.length_pos {arguments : List String} (spelling : item.Spelling arguments) :
    0 < arguments.length := by
  cases spelling <;> exact Nat.succ_pos _

inductive Form : Item → Argument → Prop where
  | long (flag : Flag) : Form (.flag flag) (.long flag.name none)
  | short : Form (.flag .verbose) (.cluster ['v'])
  | joined (text : String) : Form (.check text) (.long "check" (some text))

theorem Spelling.form (spelling : item.Spelling [text]) : item.Form (Argument.ofString text) := by
  cases spelling with
  | long flag =>
    have form : ∀ flag ∈ Flag.all, Argument.ofString ("--" ++ flag.name) = .long flag.name none := by
      decide
    exact form flag flag.mem_all ▸ .long flag
  | short => exact .short
  | joined text =>
    have form := Argument.ofString_assignment (by decide : '=' ∉ "check".toList) text
    exact (form : Argument.ofString ("--check=" ++ text) = _) ▸ .joined text

theorem opened_form : Argument.ofString "--check" = .long "check" none := by decide

theorem Form.unique {argument : Argument} (one : item.Form argument) (two : other.Form argument) :
    item = other := by
  cases one with
  | long flag =>
    generalize same : flag.name = name at two
    cases two with
    | long other => rw [Flag.name_injective same]
  | short =>
    cases two
    rfl
  | joined text =>
    generalize "check" = name at two
    cases two
    rfl

theorem Spelling.unique (one : item.Spelling [text]) (two : other.Spelling [text]) : item = other :=
  one.form.unique two.form

theorem Spelling.not_value (spelling : item.Spelling [text]) : ¬IsValue text := by
  intro value
  have form := spelling.form
  rw [Argument.plain_exact.mpr value] at form
  cases form

theorem Spelling.not_separator (spelling : item.Spelling [text]) : text ≠ "--" := by
  rintro rfl
  exact nomatch spelling.form

theorem Spelling.not_opened (spelling : item.Spelling [text]) : text ≠ "--check" := by
  rintro rfl
  have form := spelling.form
  rw [opened_form] at form
  generalize same : "check" = name at form
  cases form with
  | long flag => exact absurd same.symm flag.name_other

end Item

inductive Listed : List Item → List String → Prop where
  | nil : Listed [] []
  | cons {item : Item} {items : List Item} {arguments rest : List String}
      (spelling : item.Spelling arguments) (listed : Listed items rest) :
      Listed (item :: items) (arguments ++ rest)

-- Items, and perhaps a separator with nothing behind it.
inductive Written : List Item → List String → Prop where
  | nil : Written [] []
  | closed : Written [] ["--"]
  | cons {item : Item} {items : List Item} {arguments rest : List String}
      (spelling : item.Spelling arguments) (written : Written items rest) :
      Written (item :: items) (arguments ++ rest)

def Once (items : List Item) : Prop := (items.map Item.name).Nodup

instance (items : List Item) : Decidable (Once items) :=
  inferInstanceAs (Decidable (items.map Item.name).Nodup)

structure Describes (items : List Item) (options : Options) : Prop where
  flags : ∀ flag, options.isOn flag = true ↔ .flag flag ∈ items
  check : ∀ text, options.check = some text ↔ .check text ∈ items

theorem Listed.append {first second : List Item} {before after : List String}
    (one : Listed first before) (two : Listed second after) :
    Listed (first ++ second) (before ++ after) := by
  induction one with
  | nil => exact two
  | cons spelling _ ih =>
    rw [List.append_assoc]
    exact .cons spelling ih

theorem Written.behind {first second : List Item} {before after : List String}
    (one : Listed first before) (two : Written second after) :
    Written (first ++ second) (before ++ after) := by
  induction one with
  | nil => exact two
  | cons spelling _ ih =>
    rw [List.append_assoc]
    exact .cons spelling ih

namespace Options
variable {options : Options}

theorem eq_of_parts {other : Options} (flags : ∀ flag, options.isOn flag = other.isOn flag)
    (check : options.check = other.check) : options = other := by
  have types := flags (.table .types)
  have operators := flags (.table .operators)
  have commands := flags (.table .commands)
  have limits := flags (.table .limits)
  have verbose := flags .verbose
  cases options
  cases other
  simp only [isOn, selects] at types operators commands limits verbose check
  simp only [types, operators, commands, limits, verbose, check]

theorem isOn_ofFound (entries : List Found) (flag : Flag) :
    (ofFound entries).isOn flag = given entries flag.name := by
  cases flag with
  | table table => cases table <;> rfl
  | verbose => rfl

theorem check_ofFound {items : List Item} (once : Once items) (text : String) :
    (ofFound (items.map Item.found)).check = some text ↔ .check text ∈ items := by
  induction items with
  | nil => simp [ofFound]
  | cons item items ih =>
    obtain ⟨unseen, rest⟩ := List.nodup_cons.mp once
    cases item with
    | flag option =>
      have later : (ofFound (((.flag option : Item) :: items).map Item.found)).check =
          (ofFound (items.map Item.found)).check := by
        simp [ofFound, Item.found, option.name_other]
      rw [later, ih rest]
      simp
    | check first =>
      have absent : .check text ∉ items := fun member =>
        unseen (List.mem_map.mpr ⟨_, member, rfl⟩)
      simp [ofFound, Item.found, absent, eq_comm]

def selections (options : Options) : List Item :=
  (Table.all.filter options.selects).map (fun table => .flag (.table table)) ++
    options.check.toList.map .check

def items (options : Options) : List Item :=
  options.selections ++ if options.verbose then [.flag .verbose] else []

theorem describes_items (options : Options) : Describes options.items options := by
  refine ⟨fun flag => ?_, fun text => ?_⟩
  · cases flag with
    | table table => simp [items, selections, isOn, Table.mem_all]
    | verbose => simp [items, selections, isOn]
  · simp [items, selections]

theorem once_items (options : Options) : Once options.items := by
  have all : (Table.all.map (fun table => Flag.name (.table table)) ++ ["check"] ++
      [Flag.name .verbose]).Nodup := by decide
  have checks : (options.check.toList.map (fun _ => "check")).Sublist ["check"] := by
    cases options.check <;> simp
  have verbose : (if options.verbose then [Flag.name .verbose] else []).Sublist
        [Flag.name .verbose] := by
    split <;> simp
  have names : options.items.map Item.name =
      (Table.all.filter options.selects).map (fun table => Flag.name (.table table)) ++
        options.check.toList.map (fun _ => "check") ++
        if options.verbose then [Flag.name .verbose] else [] := by
    simp only [items, selections, List.map_append, List.map_map, apply_ite (List.map Item.name)]
    rfl
  rw [Once, names]
  exact all.sublist (((List.filter_sublist.map _).append checks).append verbose)

end Options

namespace Describes
variable {options other : Options} {items : List Item}

theorem unique (one : Describes items options) (two : Describes items other) : options = other := by
  refine Options.eq_of_parts (fun flag => ?_) (Option.ext fun text => ?_)
  · exact Bool.eq_iff_iff.mpr ((one.flags flag).trans (two.flags flag).symm)
  · exact (one.check text).trans (two.check text).symm

theorem found (once : Once items) : Describes items (.ofFound (items.map Item.found)) := by
  refine ⟨fun flag => ?_, fun text => ?_⟩
  · rw [Options.isOn_ofFound, Options.given, List.any_map, List.any_eq_true]
    constructor
    · rintro ⟨item, member, same⟩
      rw [Function.comp_apply, decide_eq_true_eq, Item.found_name, Item.name_flag] at same
      exact same ▸ member
    · intro member
      exact ⟨_, member, decide_eq_true rfl⟩
  · exact Options.check_ofFound once text

end Describes
end MethodFrame
