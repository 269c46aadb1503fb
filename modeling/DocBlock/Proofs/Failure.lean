import DocBlock.Proofs.Generate

/-! Runs that fail. Main statement: one input that cannot be read ends a run before anything is
written or asked for, and of the paths that cannot be read the first in order is named, whatever the
order of the arguments, as long as equal paths lead to the same contents. -/

namespace DocBlock

/-- The names that a format goes by. -/
def Format.names : List String := ["text", "txt", "json"]

theorem Format.ofName_of_mem {name : String} (known : name ∈ names) :
    ∃ format, ofName name = .ok format := by
  simp only [names, List.mem_cons, List.not_mem_nil, or_false] at known
  rcases known with rfl | rfl | rfl
  · exact ⟨.text, rfl⟩
  · exact ⟨.text, rfl⟩
  · exact ⟨.json, rfl⟩

theorem Format.ofName_of_notMem {name : String} (unknown : name ∉ names) :
    ofName name = .error (.unknownFormat name) := by
  simp only [names, List.mem_cons, List.not_mem_nil, or_false, not_or] at unknown
  simp [ofName, unknown]

/-- The name of the format in which a command reports, if it does. -/
def Command.format? : Command → Option String
  | list _ format | check _ format => some format
  | generate _ _ _ => none

def Command.FormatKnown (command : Command) : Prop :=
  ∀ name ∈ command.format?, name ∈ Format.names

instance (command : Command) : Decidable command.FormatKnown :=
  inferInstanceAs (Decidable (∀ name ∈ command.format?, _))

/-- The run writes nothing but the failure, after its events. -/
def Outcome.FailsWith (outcome : Outcome) (failure : Failure) : Prop :=
  outcome.status = 1 ∧ outcome.output = "" ∧
    ∃ events : List Log.Event, outcome.notices = events.map .event ++ [.line failure.text]

theorem Outcome.failsWith_failed (events : List Log.Event) (failure : Failure) :
    (failed events failure).FailsWith failure :=
  ⟨rfl, rfl, events, rfl⟩

namespace Program

open Completion Input

variable {σ : Type} {world : World} {transport : Settings → Transport σ} {state : σ}
  {command : Command} {failure : Failure}

theorem command_of_unknown {name : String} (format : name ∈ command.format?)
    (unknown : name ∉ Format.names) :
    Program.command world transport state command =
      (.failed [] (.plain (.unknownFormat name)), state) := by
  have refused := Format.ofName_of_notMem unknown
  cases command with
  | generate inputs includeStale settings => contradiction
  | list inputs other | check inputs other =>
      obtain rfl : other = name := Option.some.inj format
      simp only [Program.command, list, check, reporting, refused]

theorem command_of_load_error (known : command.FormatKnown)
    (stopped : (load world command.inputs).result = .error failure) :
    Program.command world transport state command =
      (.failed (load world command.inputs).events failure, state) := by
  cases command with
  | generate inputs includeStale settings =>
      simp only [Command.inputs] at stopped ⊢
      simp only [Program.command, generate, withReport, stopped]
  | list inputs name | check inputs name =>
      obtain ⟨format, found⟩ := Format.ofName_of_mem (known name rfl)
      simp only [Command.inputs] at stopped ⊢
      simp only [Program.command, list, check, reporting, found, withReport, stopped, id]

/-- A failing input, or an unknown format, leaves no output and the transport as it was. -/
theorem exists_command_failed (stopped : (load world command.inputs).result = .error failure) :
    ∃ events cause, Program.command world transport state command =
      (.failed events cause, state) := by
  -- An unknown format ends the run as well, before the inputs are looked at.
  by_cases known : command.FormatKnown
  · exact ⟨_, failure, command_of_load_error known stopped⟩
  · unfold Command.FormatKnown at known
    push Not at known
    obtain ⟨name, format, unknown⟩ := known
    exact ⟨[], .plain (.unknownFormat name), command_of_unknown format unknown⟩

theorem failsWith_of_firstUnread {expansion : List Path} {first : Path} {error : Error}
    (known : command.FormatKnown)
    (expanded : (paths world.files command.inputs).result = .ok expansion)
    (stops : world.files.FirstUnread expansion first)
    (failed : readFile world.files first = .error error) :
    (Program.command world transport state command).1.FailsWith (.plain error) := by
  obtain ⟨reported, same, stopped⟩ := load_of_firstUnread expanded stops
  obtain rfl : reported = error := by
    rw [same] at failed
    exact Except.error.inj failed
  rw [command_of_load_error known stopped]
  exact Outcome.failsWith_failed _ _

/-- Inputs are read before anything is done: one that fails ends the run with its error alone. -/
theorem command_all_or_nothing (world : World) (transport : Settings → Transport σ) (state : σ)
    (command : Command) :
    let run := Program.command world (fun settings => (transport settings).recording) ([], state)
    let outcome := (run command).1
    ((∃ failure, (load world command.inputs).result = .error failure) ↔
      Obstacle world command.inputs) ∧
    (Obstacle world command.inputs →
      outcome.status = 1 ∧ outcome.output = "" ∧ (run command).2.1 = []) ∧
    (∀ expansion first, command.FormatKnown →
      (paths world.files command.inputs).result = .ok expansion →
      world.files.FirstUnread expansion first →
      ∃ error, readFile world.files first = .error error ∧ outcome.FailsWith (.plain error) ∧
        (SpellingsAgree world.files command.inputs →
          ∀ other : Command, other.FormatKnown → command.inputs.Perm other.inputs →
            ∃ spelled, Path.same first spelled = true ∧
              (run other).1.FailsWith (.plain (error.withPath spelled)))) ∧
    (∀ name ∈ command.format?, name ∉ Format.names →
      outcome = .failed [] (.plain (.unknownFormat name))) := by
  intro run outcome
  refine ⟨exists_load_error_iff, ?_, ?_, ?_⟩
  · intro obstacle
    obtain ⟨failure, stopped⟩ := exists_load_error_of_obstacle obstacle
    obtain ⟨events, cause, failed⟩ : ∃ events cause,
        run command = (.failed events cause, ([], state)) := exists_command_failed stopped
    simp only [outcome, failed]
    exact ⟨rfl, rfl, trivial⟩
  · intro expansion first known expanded stops
    obtain ⟨before, after, _, _, unread⟩ := id stops
    obtain ⟨error, failed⟩ := not_reads_iff.mp unread
    refine ⟨error, failed, failsWith_of_firstUnread known expanded stops failed, ?_⟩
    intro agree other otherKnown perm
    obtain ⟨expands, rfl⟩ := paths_eq_ok_iff.mp expanded
    obtain ⟨spelled, same, content, otherStops⟩ := firstUnread_of_perm perm agree stops
    have otherExpanded := paths_eq_ok_iff.mpr ⟨expands_of_subset perm.symm.subset expands, rfl⟩
    exact ⟨spelled, same, failsWith_of_firstUnread otherKnown otherExpanded otherStops
      (readFile_of_content?_eq content failed)⟩
  · intro name format unknown
    exact congrArg Prod.fst (command_of_unknown format unknown)

/-- The paths of a run in which one file is not UTF-8 and another is missing. -/
theorem command_all_or_nothing_generate :
    let tree : FileTree := ⟨[(.ofText "a.php", .file "function f() {}\n".toUTF8),
      (.ofText "b.php", .file ⟨#[0xff]⟩)], []⟩
    let world : World := ⟨tree.system, ByteArray.empty⟩
    let inputs := ["a.php", "b.php", "c.php"]
    let expansion := inputs.map Path.ofText
    let command := Command.generate inputs false .default
    let failure := Failure.plain (.unreadable (.ofText "b.php") Error.notUtf8)
    let run := Program.command world (fun _ => Transport.prepared.recording) ([], [])
    (paths world.files inputs).result = .ok expansion ∧
      world.files.FirstUnread expansion (.ofText "b.php") ∧
      Obstacle world inputs ∧ command.FormatKnown ∧ SpellingsAgree world.files inputs ∧
      (run command).2.1 = [] ∧ (run command).1.FailsWith failure ∧
      (∃ spelled, Path.same (.ofText "b.php") spelled = true ∧
        (run (.list ["c.php", "b.php", "a.php"] "txt")).1.FailsWith
          (.plain (.unreadable spelled Error.notUtf8))) ∧
      (run (.check ["c.php"] "xml")).1 = .failed [] (.plain (.unknownFormat "xml")) := by
  intro tree world inputs expansion command failure run
  have gathered : (gather world.files inputs).result = .ok expansion := by decide +kernel
  have expanded : (paths world.files inputs).result = .ok expansion :=
    paths_of_ordered gathered (by decide +kernel)
  have unread : ¬ world.files.Reads (.ofText "b.php") := by decide +kernel
  have stops : world.files.FirstUnread expansion (.ofText "b.php") :=
    ⟨[.ofText "a.php"], [.ofText "c.php"], rfl, by decide +kernel, unread⟩
  have agree : SpellingsAgree world.files inputs := by
    unfold SpellingsAgree
    decide +kernel
  have obstacle : Obstacle world inputs := .path expanded (by decide +kernel) unread
  have known : command.FormatKnown := by decide
  obtain ⟨_, nothing, first, _⟩ :=
    command_all_or_nothing world (fun _ => Transport.prepared) [] command
  obtain ⟨error, failed, fails, reordered⟩ :=
    first expansion (.ofText "b.php") known expanded stops
  obtain rfl : error = .unreadable (.ofText "b.php") Error.notUtf8 := by
    have found : readFile world.files (.ofText "b.php") =
        .error (.unreadable (.ofText "b.php") Error.notUtf8) := by
      decide +kernel
    exact Except.error.inj (failed.symm.trans found)
  have unknown := (command_all_or_nothing world (fun _ => Transport.prepared) []
    (.check ["c.php"] "xml")).2.2.2 "xml" rfl (by decide)
  exact ⟨expanded, stops, obstacle, known, agree, (nothing obstacle).2.2, fails,
    reordered agree (.list ["c.php", "b.php", "a.php"] "txt") (by decide) (by decide), unknown⟩

/-- The order of the arguments matters where equal paths differ in what they lead to: a path with a
slash at its end leads to no file, and is not looked for behind the same path without one. -/
theorem list_error_depends_on_order :
    let tree : FileTree := ⟨[(.ofText "a.php", .file "function f() {}\n".toUTF8)], []⟩
    let world : World := ⟨tree.system, ByteArray.empty⟩
    let run := Program.command world (fun _ => Transport.prepared.recording) ([], [])
    Path.same (.ofText "a.php") (.ofText "a.php/") = true ∧
      ¬ world.files.Reads (.ofText "a.php/") ∧
      (run (.list ["a.php/", "a.php"] "text")).1.FailsWith
        (.plain (.fileNotFound (.ofText "a.php/"))) ∧
      (run (.list ["a.php", "a.php/"] "text")).1.status = 0 := by
  intro tree world run
  have unread : ¬ world.files.Reads (.ofText "a.php/") := by decide +kernel
  refine ⟨by decide +kernel, unread, ?_, ?_⟩
  · have gathered : (gather world.files ["a.php/", "a.php"]).result =
        .ok (["a.php/", "a.php"].map Path.ofText) := by
      decide +kernel
    have expanded : (paths world.files ["a.php/", "a.php"]).result = .ok [.ofText "a.php/"] :=
      paths_of_ordered gathered (by decide +kernel)
    have known : (Command.list ["a.php/", "a.php"] "text").FormatKnown := by decide
    have failed : readFile world.files (.ofText "a.php/") =
        .error (.fileNotFound (.ofText "a.php/")) := by
      decide +kernel
    exact failsWith_of_firstUnread known expanded ⟨[], [], rfl, by simp, unread⟩ failed
  · have gathered : (gather world.files ["a.php", "a.php/"]).result =
        .ok (["a.php", "a.php/"].map Path.ofText) := by
      decide +kernel
    have expanded : (paths world.files ["a.php", "a.php/"]).result = .ok [.ofText "a.php"] :=
      paths_of_ordered gathered (by decide +kernel)
    obtain ⟨report, loaded⟩ := exists_report_of_reads (by simp) expanded (by decide +kernel)
    have known : Format.ofName "text" = .ok .text := rfl
    exact congrArg Outcome.status (reporting_of_load known loaded _)

end Program

end DocBlock
