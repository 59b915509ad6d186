import Mathlib.Data.List.Nodup
import MethodFrame.Lookup
import MethodFrame.Proofs.Arguments.Form

-- The scan goes by the rules for parsers. What it found before an argument matters only in that no
-- option may be found again, so the rest can be scanned as if nothing stood in front of it.
namespace MethodFrame.Scan
open Arguments

theorem bind_ok {ε α β : Type} {outcome : Except ε α} {next : α → Except ε β} {final : β} :
    outcome.bind next = .ok final ↔ ∃ middle, outcome = .ok middle ∧ next middle = .ok final := by
  cases outcome <;> simp [Except.bind]

section
variable {declared : List Declared} {text name : String} {rest : List String} {letter : Char}
  {body : List Char} {option : Declared} {known : Known} {argument : Argument}

theorem switch_flag (plain : option.valued = false) :
    switch (.option option) = fun scan => scan.settle.bind (add ⟨option.name, none⟩) := by
  funext scan
  simp [switch, plain]

theorem switch_valued (valued : option.valued = true) : switch (.option option) =
    fun scan => scan.settle.bind (fun settled => .ok ⟨settled.found, .awaited option.name⟩) := by
  funext scan
  simp [switch, valued]

theorem assign_flag (plain : option.valued = false) (text : String) :
    assign (.option option) text = fun _ => .error .tooManyValues := by
  funext scan
  simp [assign, plain]

theorem assign_valued (valued : option.valued = true) (text : String) :
    assign (.option option) text =
      fun scan => scan.settle.bind (add ⟨option.name, some text⟩) := by
  funext scan
  simp [assign, valued]

theorem letters_unknown (unknown : Known.ofLetter? declared letter = none) :
    letters declared (letter :: body) = fun _ => .error .unknownArgument := by
  funext scan
  simp [letters, unknown]

theorem letters_known (found : Known.ofLetter? declared letter = some known) :
    letters declared (letter :: body) =
      fun scan => (scan.switch known).bind (letters declared body) := by
  funext scan
  simp [letters, found]

theorem step_unknown (unknown : Known.ofName? declared name = none) (value : Option String) :
    step declared (.long name value) = fun _ => .error .unknownArgument := by
  funext scan
  simp [step, unknown]

theorem step_switch (found : Known.ofName? declared name = some known) :
    step declared (.long name none) = switch known := by
  funext scan
  simp [step, found]

theorem step_assign (found : Known.ofName? declared name = some known) (text : String) :
    step declared (.long name (some text)) = assign known text := by
  funext scan
  simp [step, found]

theorem finish_form (form : Argument.ofString text = argument) (inside : argument ≠ .separator) :
    finish declared (text :: rest) =
      fun scan => (step declared argument scan).bind (finish declared rest) := by
  funext scan
  rw [finish, form]
  cases argument with
  | separator => exact absurd rfl inside
  | long name value => rfl
  | cluster letters => rfl
  | plain text => rfl

theorem finish_separator (form : Argument.ofString text = .separator) :
    finish declared (text :: rest) =
      if rest = [] then settle else fun _ => .error .unknownArgument := by
  funext scan
  rw [finish, form]
  by_cases last : rest = [] <;> simp only [last, if_true, if_false]

end

-- A part of the scan for which the options found before it are a frame.
def Frames (run : Scan → Except UsageFault Scan) : Prop :=
  ∀ past pending final, run ⟨past, pending⟩ = .ok final ↔ ∃ own, run ⟨[], pending⟩ = .ok own ∧
    (past.map Found.name).Disjoint (own.found.map Found.name) ∧
      final = ⟨past ++ own.found, own.pending⟩

namespace Frames
variable {first second : Scan → Except UsageFault Scan}

theorem refuse (fault : UsageFault) : Frames (fun _ => .error fault) := by
  intro past pending final
  simp

theorem keep (next : Pending) : Frames (fun scan => .ok ⟨scan.found, next⟩) := by
  intro past pending final
  simp [eq_comm]

theorem pass : Frames .ok := by
  intro past pending final
  simp [eq_comm]

theorem add (entry : Found) : Frames (Scan.add entry) := by
  intro past pending final
  by_cases again : entry.name ∈ past.map Found.name <;> simp [Scan.add, again, eq_comm]

theorem bind (one : Frames first) (two : Frames second) :
    Frames (fun scan => (first scan).bind second) := by
  intro past pending final
  simp only [bind_ok, one past pending]
  constructor
  · rintro ⟨_, ⟨middle, ran, apart, rfl⟩, later⟩
    obtain ⟨own, alone, further, rfl⟩ := (two _ _ _).mp later
    rw [List.map_append, List.disjoint_append_left] at further
    refine ⟨⟨middle.found ++ own.found, own.pending⟩,
      ⟨middle, ran, (two _ _ _).mpr ⟨own, alone, further.2, rfl⟩⟩, ?_, by rw [List.append_assoc]⟩
    rw [List.map_append, List.disjoint_append_right]
    exact ⟨apart, further.1⟩
  · rintro ⟨_, ⟨middle, ran, later⟩, apart, rfl⟩
    obtain ⟨own, alone, further, rfl⟩ := (two middle.found middle.pending _).mp later
    rw [List.map_append, List.disjoint_append_right] at apart
    refine ⟨_, ⟨middle, ran, apart.1, rfl⟩,
      (two _ _ _).mpr ⟨own, alone, ?_, by rw [List.append_assoc]⟩⟩
    rw [List.map_append, List.disjoint_append_left]
    exact ⟨apart.2, further⟩

theorem settle : Frames Scan.settle := by
  intro past pending final
  cases pending with
  | none => exact pass past .none final
  | awaited name => exact refuse .invalidValue past (.awaited name) final
  | given name text => exact add ⟨name, some text⟩ past (.given name text) final

theorem switch (known : Known) : Frames (Scan.switch known) := by
  cases known with
  | option option =>
    cases valued : option.valued with
    | true => exact switch_valued valued ▸ settle.bind (keep _)
    | false => exact switch_flag valued ▸ settle.bind (add _)
  | help => exact settle.bind (refuse _)
  | version => exact settle.bind (refuse _)

theorem assign (known : Known) (text : String) : Frames (Scan.assign known text) := by
  cases known with
  | option option =>
    cases valued : option.valued with
    | true => exact assign_valued valued text ▸ settle.bind (add _)
    | false => exact assign_flag valued text ▸ refuse _
  | help => exact refuse _
  | version => exact refuse _

variable (declared : List Declared)

theorem letters (body : List Char) : Frames (Scan.letters declared body) := by
  induction body with
  | nil => exact pass
  | cons letter rest ih =>
    cases found : Known.ofLetter? declared letter with
    | none => exact letters_unknown found ▸ refuse _
    | some known => exact letters_known found ▸ (switch known).bind ih

theorem step (argument : Argument) : Frames (Scan.step declared argument) := by
  cases argument with
  | separator => exact pass
  | long name value =>
    cases found : Known.ofName? declared name with
    | none => exact step_unknown found value ▸ refuse _
    | some known =>
      cases value with
      | none => exact step_switch found ▸ switch known
      | some text => exact step_assign found text ▸ assign known text
  | cluster body => exact letters declared body
  | plain text =>
    intro past pending final
    cases pending with
    | awaited name => exact keep (.given name text) past (.awaited name) final
    | none => exact refuse .unknownArgument past .none final
    | given name value => exact refuse .unknownArgument past (.given name value) final

theorem finish (arguments : List String) : Frames (Scan.finish declared arguments) := by
  induction arguments with
  | nil => exact settle
  | cons text rest ih =>
    by_cases form : Argument.ofString text = .separator
    · rw [finish_separator form]
      split
      · exact settle
      · exact refuse _
    · exact finish_form rfl form ▸ (step declared _).bind ih

end Frames

section
variable {declared : List Declared} {option : Declared} {known : Known} {name text : String}
  {letter : Char} {scan next : Scan} {argument : Argument} {rest : List String}

theorem known_name (proper : Proper declared) (member : option ∈ declared) :
    Known.ofName? declared option.name = some (.option option) := by
  obtain ⟨help, others⟩ := List.nodup_cons.mp proper.names
  obtain ⟨version, distinct⟩ := List.nodup_cons.mp others
  have named : option.name ∈ declared.map Declared.name := List.mem_map_of_mem member
  have notHelp : option.name ≠ "help" := fun same => help (same ▸ List.mem_cons_of_mem _ named)
  have notVersion : option.name ≠ "version" := fun same => version (same ▸ named)
  have unique : ∀ other ∈ declared, other.name = option.name → other = option :=
    fun _ inside => List.inj_on_of_nodup_map distinct inside member
  have found := (find_key member unique).mpr rfl
  simp [Known.ofName?, notHelp, notVersion, found]

theorem known_letter (proper : Proper declared) (member : option ∈ declared)
    (carried : option.letter = some letter) :
    Known.ofLetter? declared letter = some (.option option) := by
  have free := proper.letters letter (List.mem_filterMap.mpr ⟨option, member, carried⟩)
  have unique := (proper.lettered option member (carried ▸ rfl)).2
  have found := (find_key member unique).mpr carried
  simp only [List.mem_cons, List.not_mem_nil, or_false, not_or] at free
  simp [Known.ofLetter?, free, found]

theorem unknown_name (unnamed : name ∉ declared.map Declared.name) (option : Declared) :
    Known.ofName? declared name ≠ some (.option option) := by
  intro known
  unfold Known.ofName? at known
  split at known
  · cases known
  · split at known
    · cases known
    · obtain ⟨other, found, _⟩ := Option.map_eq_some_iff.mp known
      exact unnamed (List.mem_map.mpr ⟨other, key_of_find found⟩)

theorem unknown_letter (unlettered : letter ∉ declared.filterMap Declared.letter)
    (option : Declared) : Known.ofLetter? declared letter ≠ some (.option option) := by
  intro known
  unfold Known.ofLetter? at known
  split at known
  · cases known
  · split at known
    · cases known
    · obtain ⟨other, found, _⟩ := Option.map_eq_some_iff.mp known
      exact unlettered (List.mem_filterMap.mpr ⟨other, key_of_find found⟩)

theorem switch_ok (switched : scan.switch known = .ok next) :
    (∃ option, known = .option option) ∧ ∃ settled, scan.settle = .ok settled := by
  obtain ⟨settled, owed, later⟩ := bind_ok.mp switched
  refine ⟨?_, settled, owed⟩
  cases known with
  | option option => exact ⟨option, rfl⟩
  | help => cases later
  | version => cases later

theorem assign_ok (assigned : scan.assign known text = .ok next) :
    (∃ option, known = .option option) ∧ ∃ settled, scan.settle = .ok settled := by
  cases known with
  | option option =>
    refine ⟨⟨option, rfl⟩, ?_⟩
    cases valued : option.valued with
    | true =>
      rw [assign_valued valued] at assigned
      obtain ⟨settled, owed, _⟩ := bind_ok.mp assigned
      exact ⟨settled, owed⟩
    | false =>
      rw [assign_flag valued] at assigned
      cases assigned
  | help => cases assigned
  | version => cases assigned

theorem long_ok {value : Option String}
    (stepped : step declared (.long name value) scan = .ok next) :
    (∃ option, Known.ofName? declared name = some (.option option)) ∧
      ∃ settled, scan.settle = .ok settled := by
  cases found : Known.ofName? declared name with
  | none =>
    rw [step_unknown found] at stepped
    cases stepped
  | some known =>
    have outcome : (∃ option, known = .option option) ∧ ∃ settled, scan.settle = .ok settled := by
      cases value with
      | none =>
        rw [step_switch found] at stepped
        exact switch_ok stepped
      | some text =>
        rw [step_assign found] at stepped
        exact assign_ok stepped
    obtain ⟨⟨option, rfl⟩, settled⟩ := outcome
    exact ⟨⟨option, rfl⟩, settled⟩

theorem letters_ok {body : List Char} (taken : letters declared body scan = .ok next) :
    (∀ letter ∈ body, letter ∈ declared.filterMap Declared.letter) ∧
      (body ≠ [] → ∃ settled, scan.settle = .ok settled) := by
  induction body generalizing scan with
  | nil => exact ⟨List.forall_mem_nil _, fun some_letter => absurd rfl some_letter⟩
  | cons letter body ih =>
    cases found : Known.ofLetter? declared letter with
    | none =>
      rw [letters_unknown found] at taken
      cases taken
    | some known =>
      rw [letters_known found] at taken
      obtain ⟨middle, switched, later⟩ := bind_ok.mp taken
      obtain ⟨⟨option, rfl⟩, settled⟩ := switch_ok switched
      refine ⟨List.forall_mem_cons.mpr ⟨?_, (ih later).1⟩, fun _ => settled⟩
      by_contra unlettered
      exact unknown_letter unlettered option found

theorem owed_refused (outside : ∀ value ∈ rest.head?, ¬IsValue value) :
    finish declared rest ⟨[], .awaited name⟩ ≠ .ok next := by
  intro finished
  cases rest with
  | nil => cases finished
  | cons text rest =>
    have owed : ∀ settled, settle ⟨[], .awaited name⟩ ≠ .ok settled := fun _ settled => nomatch settled
    cases form : Argument.ofString text with
    | separator =>
      rw [finish_separator form] at finished
      split at finished <;> cases finished
    | long long value =>
      rw [finish_form form (by simp)] at finished
      obtain ⟨middle, stepped, _⟩ := bind_ok.mp finished
      obtain ⟨_, settled, taken⟩ := long_ok stepped
      exact owed settled taken
    | cluster body =>
      rw [finish_form form (by simp)] at finished
      obtain ⟨middle, stepped, _⟩ := bind_ok.mp finished
      obtain ⟨settled, taken⟩ := (letters_ok stepped).2 (Argument.cluster_letters form).1
      exact owed settled taken
    | plain body =>
      obtain rfl := Argument.text_plain form
      exact outside text rfl (Argument.plain_exact.mp form)

theorem settle_given (name value : String) :
    settle ⟨[], .given name value⟩ = settle ⟨[⟨name, some value⟩], .none⟩ := by
  simp [settle, add]

theorem switch_given (name value : String) (known : Known) :
    switch known ⟨[], .given name value⟩ = switch known ⟨[⟨name, some value⟩], .none⟩ := by
  simp only [switch, settle_given]

theorem assign_given (name value : String) (known : Known) (text : String) :
    assign known text ⟨[], .given name value⟩ =
      assign known text ⟨[⟨name, some value⟩], .none⟩ := by
  cases known with
  | option option => simp only [assign, settle_given]
  | help => rfl
  | version => rfl

theorem step_given (name value : String) (inside : argument ≠ .separator)
    (filled : argument ≠ .cluster []) : step declared argument ⟨[], .given name value⟩ =
      step declared argument ⟨[⟨name, some value⟩], .none⟩ := by
  cases argument with
  | separator => exact absurd rfl inside
  | long long assigned =>
    cases found : Known.ofName? declared long with
    | none => rw [step_unknown found]
    | some known =>
      cases assigned with
      | none => rw [step_switch found, switch_given]
      | some text => rw [step_assign found, assign_given]
  | cluster body =>
    cases body with
    | nil => exact absurd rfl filled
    | cons letter body =>
      cases found : Known.ofLetter? declared letter with
      | none => simp only [step, letters_unknown found]
      | some known => simp only [step, letters_known found, switch_given]
  | plain body => rfl

theorem finish_given (name value : String) (rest : List String) :
    finish declared rest ⟨[], .given name value⟩ =
      finish declared rest ⟨[⟨name, some value⟩], .none⟩ := by
  cases rest with
  | nil => exact settle_given name value
  | cons text rest =>
    by_cases form : Argument.ofString text = .separator
    · rw [finish_separator form]
      split
      · exact settle_given name value
      · rfl
    · have filled : Argument.ofString text ≠ .cluster [] := fun empty =>
        (Argument.cluster_letters empty).1 rfl
      rw [finish_form rfl form]
      simp only [step_given name value form filled]

end

section
variable {refusal : UsageFault → Transcript} {declared : List Declared} {arguments rest : List String}
  {found : List Found} {text : String} {argument : Argument} {entry : Found}

theorem parser_exact : parser refusal declared arguments = .ok found ↔
    ∃ scan, finish declared arguments start = .ok scan ∧ scan.found = found := by
  unfold parser read
  cases finish declared arguments start <;> simp [Except.map, Except.mapError]

theorem parser_refuses (refused : ∀ scan, finish declared arguments start ≠ .ok scan) :
    Refuses (parser refusal) declared arguments := by
  intro found accepted
  obtain ⟨scan, finished, _⟩ := parser_exact.mp accepted
  exact refused scan finished

theorem parser_stops (form : Argument.ofString text = argument) (inside : argument ≠ .separator)
    (refused : ∀ scan, step declared argument start ≠ .ok scan) :
    Refuses (parser refusal) declared (text :: rest) := by
  refine parser_refuses fun scan finished => ?_
  rw [finish_form form inside] at finished
  obtain ⟨middle, stepped, _⟩ := bind_ok.mp finished
  exact refused middle stepped

theorem parser_adds
    (finished : finish declared arguments start = finish declared rest ⟨[entry], .none⟩) :
    parser refusal declared arguments = .ok found ↔
      Adds (parser refusal) declared entry rest found := by
  have framed := Frames.finish declared rest [entry] .none
  constructor
  · intro accepted
    obtain ⟨scan, taken, rfl⟩ := parser_exact.mp accepted
    obtain ⟨own, alone, apart, rfl⟩ := (framed scan).mp (finished ▸ taken)
    exact ⟨own.found, parser_exact.mpr ⟨own, alone, rfl⟩, by simpa using apart, rfl⟩
  · rintro ⟨others, accepted, fresh, rfl⟩
    obtain ⟨own, alone, rfl⟩ := parser_exact.mp accepted
    have taken := (framed _).mpr ⟨own, alone, by simpa using fresh, rfl⟩
    exact parser_exact.mpr ⟨_, finished ▸ taken, rfl⟩

end

section
variable {declared : List Declared} (proper : Proper declared) {option : Declared}
  (member : option ∈ declared) {text : String} (rest : List String)
include proper member

theorem finish_flag (plain : option.valued = false) (called : option.Calls text) :
    finish declared (text :: rest) start =
      finish declared rest ⟨[⟨option.name, none⟩], .none⟩ := by
  have switched : switch (.option option) start = .ok ⟨[⟨option.name, none⟩], .none⟩ := by
    rw [switch_flag plain]
    rfl
  cases called with
  | long =>
    obtain ⟨some_letter, bare⟩ := proper.carried option member
    rw [finish_form (Argument.ofString_named bare some_letter) (by simp)]
    simp only [step_switch (known_name proper member), switched]
    rfl
  | @short letter carried =>
    have free := proper.letters letter (List.mem_filterMap.mpr ⟨option, member, carried⟩)
    have dashless : [letter].head? ≠ some '-' := fun dash => free (by cases dash; decide)
    rw [finish_form (Argument.ofString_cluster (List.cons_ne_nil _ _) dashless) (by simp)]
    simp only [step, letters_known (known_letter proper member carried), switched]
    rfl

theorem finish_joined (valued : option.valued = true) (value : String) :
    finish declared (assignment option.name value :: rest) start =
      finish declared rest ⟨[⟨option.name, some value⟩], .none⟩ := by
  obtain ⟨_, bare⟩ := proper.carried option member
  rw [finish_form (Argument.ofString_assignment bare value) (by simp)]
  simp only [step_assign (known_name proper member), assign_valued valued]
  rfl

theorem finish_awaited (valued : option.valued = true) :
    finish declared (("--" ++ option.name) :: rest) start =
      finish declared rest ⟨[], .awaited option.name⟩ := by
  obtain ⟨some_letter, bare⟩ := proper.carried option member
  rw [finish_form (Argument.ofString_named bare some_letter) (by simp)]
  simp only [step_switch (known_name proper member), switch_valued valued]
  rfl

theorem finish_apart (valued : option.valued = true) {value : String} (form : IsValue value) :
    finish declared (("--" ++ option.name) :: value :: rest) start =
      finish declared rest ⟨[⟨option.name, some value⟩], .none⟩ := by
  rw [finish_awaited proper member _ valued, ← finish_given,
    finish_form (Argument.plain_exact.mpr form) (by simp)]
  rfl

end

section
variable {declared : List Declared} (proper : Proper declared)
include proper

theorem form_cluster {letter : Char} {letters : List Char}
    (known : letter ∈ declared.filterMap Declared.letter) :
    Argument.ofString (String.ofList ('-' :: letter :: letters)) = .cluster (letter :: letters) := by
  refine Argument.ofString_cluster (List.cons_ne_nil _ _) fun dash => ?_
  cases dash
  exact absurd (proper.letters '-' known) (by decide)

theorem finish_cluster {first second : Char} {others : List Char}
    (known : ∀ letter ∈ first :: second :: others, letter ∈ declared.filterMap Declared.letter)
    (rest : List String) :
    finish declared (String.ofList ('-' :: first :: second :: others) :: rest) start =
      finish declared (String.ofList ['-', first] :: String.ofList ('-' :: second :: others) :: rest)
        start := by
  obtain ⟨one, further⟩ := List.forall_mem_cons.mp known
  obtain ⟨two, _⟩ := List.forall_mem_cons.mp further
  obtain ⟨option, member, carried⟩ := List.mem_filterMap.mp one
  have found := known_letter proper member carried
  rw [finish_form (form_cluster proper one) (by simp), finish_form (form_cluster proper one) (by simp),
    finish_form (form_cluster proper two) (by simp)]
  simp only [step, letters_known found]
  cases switch (.option option) start <;> rfl

end

theorem lawful (refusal : UsageFault → Transcript) : Lawful (parser refusal) := by
  intro declared proper
  refine {
    nothing := rfl
    closed := rfl
    behind := fun text rest => parser_refuses fun scan finished => ?_
    stray := fun value rest =>
      parser_stops (Argument.plain_exact.mpr value) (by simp) fun scan stepped => nomatch stepped
    flag := fun member plain _ called rest _ =>
      parser_adds (finish_flag proper member rest plain called)
    assigned := fun {option} member plain value rest => ?_
    joined := fun member valued value rest _ =>
      parser_adds (finish_joined proper member rest valued value)
    apart := fun member valued _ form rest _ =>
      parser_adds (finish_apart proper member rest valued form)
    awaited := fun member valued rest outside => parser_refuses fun scan finished => ?_
    unnamed := fun bare unnamed => ⟨fun some_letter rest => ?_, fun value rest => ?_⟩
    unlettered := fun {letters} dashless letter member unlettered rest => ?_
    cluster := fun known rest found => ?_ }
  · rw [finish_separator (Argument.separator_exact.mpr rfl)] at finished
    cases finished
  · have bare := (proper.carried option member).2
    refine parser_stops (Argument.ofString_assignment bare value) (by simp) fun scan stepped => ?_
    rw [step_assign (known_name proper member), assign_flag plain] at stepped
    cases stepped
  · rw [finish_awaited proper member rest valued] at finished
    exact owed_refused outside finished
  · refine parser_stops (Argument.ofString_named bare some_letter) (by simp) fun scan stepped => ?_
    obtain ⟨⟨option, known⟩, _⟩ := long_ok stepped
    exact unknown_name unnamed option known
  · refine parser_stops (Argument.ofString_assignment bare value) (by simp) fun scan stepped => ?_
    obtain ⟨⟨option, known⟩, _⟩ := long_ok stepped
    exact unknown_name unnamed option known
  · have some_letter := List.ne_nil_of_mem member
    refine parser_stops (Argument.ofString_cluster some_letter dashless) (by simp) fun scan taken => ?_
    exact unlettered ((letters_ok taken).1 letter member)
  · rw [parser_exact, parser_exact, finish_cluster proper known]

end MethodFrame.Scan
