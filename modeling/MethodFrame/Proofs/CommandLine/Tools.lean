import Mathlib.Data.List.Infix
import MethodFrame.Proofs.Arguments.Scanning
import MethodFrame.Shell

-- What is relied on of the tools of a run beside its parser, and that the program's own meet it.
namespace MethodFrame

-- With colours a text stands between the sequence that starts the style and the one that resets it,
-- if it does not reset a style itself.
structure Painting (painter : Bool → Paint) : Prop where
  bare : ∀ style text, painter false style text = text
  wrapped : ∀ style text, ¬Style.reset.toList <:+: text.toList →
    painter true style text = style.start ++ text ++ Style.reset

-- The level that the environment names stands above the preset one, in any mix of cases.
structure Logging (logger : Logger) : Prop where
  preset : ∀ preset level, logger.admits preset none level = true ↔ level.rank ≤ preset.rank
  silenced : ∀ preset level name, name.toUpper = "OFF" →
    logger.admits preset (some name) level = false
  named : ∀ preset level (most : Level) name, name.toUpper = most.name →
    (logger.admits preset (some name) level = true ↔ level.rank ≤ most.rank)
  line : ∀ level message, '\n' ∉ message.toList →
    ∃ front, '\n' ∉ front.toList ∧ logger.line level message = front ++ message ++ "\n"

theorem Style.resumed_bare (mark : List Char) {text : List Char}
    (bare : ¬reset.toList <:+: text) : resumed mark text = text := by
  induction text with
  | nil => rfl
  | cons c rest ih =>
    have later := ih (mt List.infix_cons bare)
    unfold resumed
    split
    · rename_i whole
      rw [whole] at bare
      exact absurd (List.prefix_append ['\x1b', '[', '0', 'm'] _).isInfix bare
    · rename_i same
      cases same
      rw [later]
    · rename_i missing
      cases missing

theorem Style.terminal_painting : Painting terminal := by
  refine ⟨fun style text => rfl, fun style text bare => ?_⟩
  rw [terminal, if_pos rfl, resumed_bare _ bare, String.ofList_toList]

theorem Level.single_line (level : Level) : '\n' ∉ level.name.toList := by
  cases level <;> decide

theorem Logger.stamped_logging {time : String} (single : '\n' ∉ time.toList) :
    Logging (stamped time) where
  preset preset level := by simp [stamped]
  silenced preset level name named := by simp [stamped, mostOf?, named]
  named preset level most name named := by
    have found : mostOf? name = some (some most) := by
      cases most <;> simp [mostOf?, named, Level.name]
    simp [stamped, found]
  line level message _ := by
    refine ⟨"[" ++ time ++ level.name ++ " jasminc] ", ?_, rfl⟩
    simp [single, level.single_line]

theorem Toolkit.timed_lawful {time : String} (single : '\n' ∉ time.toList) :
    Arguments.Lawful (timed time).parser ∧ Painting (timed time).painter ∧
      Logging (timed time).logger :=
  ⟨Scan.lawful UsageFault.transcript, Style.terminal_painting, Logger.stamped_logging single⟩

theorem Toolkit.standard_lawful : Arguments.Lawful standard.parser ∧ Painting standard.painter ∧
    Logging standard.logger :=
  timed_lawful List.not_mem_nil

end MethodFrame
