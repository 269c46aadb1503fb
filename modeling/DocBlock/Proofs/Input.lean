import DocBlock.Input
import DocBlock.Proofs.Path

/-! From arguments to reports. Main statements: a report is made exactly if nothing stands in the way
of any input, and of the paths that cannot be read the first in order is named, whatever the order
of the arguments, as long as equal paths are read alike. -/

namespace DocBlock

instance decidableEqExcept {ε α : Type} [DecidableEq ε] [DecidableEq α] : DecidableEq (Except ε α)
  | .ok left, .ok right => decidable_of_iff (left = right) (by simp)
  | .error left, .error right => decidable_of_iff (left = right) (by simp)
  | .ok _, .error _ => isFalse (by simp)
  | .error _, .ok _ => isFalse (by simp)

/-- The same error, about another path. -/
def Error.withPath (path : Path) : Error → Error
  | fileNotFound _ => fileNotFound path
  | unreadable _ reason => unreadable path reason
  | other => other

/-- The path leads to a regular file that holds UTF-8. -/
def FileSystem.Reads (files : FileSystem) (path : Path) : Prop :=
  ∃ content, files.content? path = some (.ok content) ∧ content.IsValidUTF8

instance (files : FileSystem) (path : Path) : Decidable (files.Reads path) :=
  match content : files.content? path with
  | none | some (.error _) => isFalse (by simp [FileSystem.Reads, content])
  | some (.ok bytes) => decidable_of_iff bytes.IsValidUTF8 (by simp [FileSystem.Reads, content])

/-- The first of these paths that does not read. -/
def FileSystem.FirstUnread (files : FileSystem) (paths : List Path) (path : Path) : Prop :=
  ∃ before after, before ++ path :: after = paths ∧ (∀ earlier ∈ before, files.Reads earlier) ∧
    ¬ files.Reads path

namespace Input

theorem fromUTF8?_eq_none_iff {bytes : ByteArray} :
    String.fromUTF8? bytes = none ↔ ¬ bytes.IsValidUTF8 := by
  simp [String.fromUTF8?]

theorem fromUTF8?_toUTF8 (text : String) : String.fromUTF8? text.toUTF8 = some text := by
  rw [String.fromUTF8?, String.toUTF8_eq_toByteArray, dif_pos text.isValidUTF8]
  rfl

section Files

variable {files : FileSystem} {path : Path} {paths : List Path}

theorem reads_iff : files.Reads path ↔ ∃ text, readFile files path = .ok text := by
  unfold readFile FileSystem.Reads
  match files.content? path with
  | none => simp
  | some (.error reason) => simp
  | some (.ok bytes) =>
      cases text : String.fromUTF8? bytes with
      | none => simp [text, fromUTF8?_eq_none_iff.mp text]
      | some text =>
          have valid : bytes.IsValidUTF8 := by
            by_contra invalid
            rw [fromUTF8?_eq_none_iff.mpr invalid] at text
            contradiction
          simp_all

theorem not_reads_iff : ¬ files.Reads path ↔ ∃ error, readFile files path = .error error := by
  rw [reads_iff]
  cases readFile files path <;> simp

theorem fileFunctions_of_readFile {text : String} (read : readFile files path = .ok text) :
    ∃ functions, fileFunctions files path = .ok functions := by
  exact ⟨_, by rw [fileFunctions, read]; rfl⟩

theorem fileFunctions_of_error {error : Error} (failed : readFile files path = .error error) :
    fileFunctions files path = .error error := by
  rw [fileFunctions, failed]
  rfl

theorem fileReports_of_reads (all : ∀ path ∈ paths, files.Reads path) :
    ∃ report, (fileReports files paths).result = .ok report := by
  induction paths with
  | nil => exact ⟨[], rfl⟩
  | cons path paths ih =>
      obtain ⟨text, read⟩ := reads_iff.mp (all path List.mem_cons_self)
      obtain ⟨functions, extracted⟩ := fileFunctions_of_readFile read
      obtain ⟨report, later⟩ := ih (fun other member => all other (List.mem_cons_of_mem path member))
      exact ⟨⟨path.shown, functions.result⟩ :: report, by rw [fileReports, extracted]; simp [later]⟩

theorem fileReports_of_firstUnread (first : files.FirstUnread paths path) :
    ∃ error, readFile files path = .error error ∧
      (fileReports files paths).result = .error (.plain error) := by
  obtain ⟨before, after, rfl, earlier, unread⟩ := first
  obtain ⟨error, failed⟩ := not_reads_iff.mp unread
  refine ⟨error, failed, ?_⟩
  induction before with
  | nil => rw [List.nil_append, fileReports, fileFunctions_of_error failed]
  | cons head before ih =>
      obtain ⟨text, read⟩ := reads_iff.mp (earlier head List.mem_cons_self)
      obtain ⟨functions, extracted⟩ := fileFunctions_of_readFile read
      have later := ih (fun other member => earlier other (List.mem_cons_of_mem head member))
      rw [List.cons_append, fileReports, extracted]
      simp [later]

theorem exists_firstUnread (member : path ∈ paths) (unread : ¬ files.Reads path) :
    ∃ first, files.FirstUnread paths first := by
  induction paths with
  | nil => contradiction
  | cons head paths ih =>
      by_cases reads : files.Reads head
      · have inside : path ∈ paths := by
          rcases List.mem_cons.mp member with rfl | inside
          · exact absurd reads unread
          · exact inside
        obtain ⟨first, before, after, rfl, earlier, stops⟩ := ih inside
        exact ⟨first, head :: before, after, rfl, List.forall_mem_cons.mpr ⟨reads, earlier⟩, stops⟩
      · exact ⟨head, [], paths, rfl, by simp, reads⟩

theorem reads_congr {other : Path} (same : files.content? path = files.content? other) :
    files.Reads path ↔ files.Reads other := by
  rw [FileSystem.Reads, FileSystem.Reads, same]

theorem readFile_of_content?_eq {other : Path} {error : Error}
    (same : files.content? path = files.content? other)
    (failed : readFile files path = .error error) :
    readFile files other = .error (error.withPath other) := by
  unfold readFile at failed ⊢
  rw [same] at failed
  match found : files.content? other with
  | none =>
      simp only [found, Except.error.injEq] at failed
      subst failed
      rfl
  | some (.error reason) =>
      simp only [found, Except.error.injEq] at failed
      subst failed
      rfl
  | some (.ok bytes) =>
      cases text : String.fromUTF8? bytes with
      | none =>
          simp only [found, text, Except.error.injEq] at failed
          simp only [text, ← failed]
          rfl
      | some text => simp [found, text] at failed

/-- The first path that does not read is the same where the same paths, however spelled, lead to the
same contents. -/
theorem firstUnread_of_components_eq {others : List Path} (first : files.FirstUnread paths path)
    (equal : paths.map Path.components = others.map Path.components)
    (alike : ∀ left ∈ paths, ∀ right ∈ others, Path.components left = Path.components right →
      files.content? left = files.content? right) :
    ∃ spelled, Path.components path = Path.components spelled ∧
      files.content? path = files.content? spelled ∧ files.FirstUnread others spelled := by
  obtain ⟨before, after, rfl, earlier, unread⟩ := first
  rw [List.map_append, List.map_cons, eq_comm, List.map_eq_append_iff] at equal
  obtain ⟨front, back, rfl, fronts, backs⟩ := equal
  obtain ⟨spelled, rest, rfl, same, _⟩ := List.map_eq_cons_iff.mp backs
  have content := alike path (by simp) spelled (by simp) same.symm
  refine ⟨spelled, same.symm, content, front, rest, rfl, ?_, ?_⟩
  · intro other member
    have listed : Path.components other ∈ before.map Path.components := by
      rw [← fronts]
      exact List.mem_map_of_mem member
    obtain ⟨original, inside, sameParts⟩ := List.mem_map.mp listed
    exact (reads_congr (alike original (by simp [inside]) other (by simp [member]) sameParts)).mp
      (earlier original inside)
  · rwa [← reads_congr content]

end Files

/-- The argument stands for the files that match it. -/
def IsPattern (files : FileSystem) (argument : String) : Prop :=
  files.isFile (.ofText argument) = false ∧ files.isDirectory (.ofText argument) = false ∧
    isGlob argument = true

/-- The argument is a directory that gives no listing, for the reason. -/
def IsUnlisted (files : FileSystem) (argument reason : String) : Prop :=
  files.isFile (.ofText argument) = false ∧ files.isDirectory (.ofText argument) = true ∧
    files.names (.ofText argument) = .error reason

/-- All paths that the arguments stand for, before they are sorted. -/
def contributions (files : FileSystem) (arguments : List String) : List Path :=
  arguments.flatMap fun argument => (argumentPaths files argument).toOption.elim [] Logged.result

/-- Equal paths that the arguments stand for lead to the same contents. -/
def SpellingsAgree (files : FileSystem) (arguments : List String) : Prop :=
  ∀ left ∈ contributions files arguments, ∀ right ∈ contributions files arguments,
    Path.same left right = true → files.content? left = files.content? right

/-- What keeps a run from making a report. -/
inductive Obstacle (world : World) (arguments : List String) : Prop
  | pattern {argument : String} {error : Glob.PatternError} : argument ∈ arguments →
      IsPattern world.files argument → Glob.Pattern.parse argument = .error error →
      Obstacle world arguments
  | directory {argument reason : String} : argument ∈ arguments →
      IsUnlisted world.files argument reason → Obstacle world arguments
  | path {expansion : List Path} {path : Path} :
      (paths world.files arguments).result = .ok expansion → path ∈ expansion →
      ¬ world.files.Reads path → Obstacle world arguments
  | input : arguments = [] → ¬ world.input.IsValidUTF8 → Obstacle world arguments

section Arguments

variable {files : FileSystem} {argument : String} {arguments others : List String}
  {expansion : List Path}

theorem argumentPaths_error_iff : (∃ failure, argumentPaths files argument = .error failure) ↔
    (IsPattern files argument ∧ ∃ error, Glob.Pattern.parse argument = .error error) ∨
      ∃ reason, IsUnlisted files argument reason := by
  unfold argumentPaths IsPattern IsUnlisted
  by_cases file : files.isFile (.ofText argument)
  · simp [file]
  by_cases directory : files.isDirectory (.ofText argument)
  · cases listed : files.names (.ofText argument) <;> simp [file, directory, directoryPaths, listed]
  by_cases glob : isGlob argument
  · cases parsed : Glob.Pattern.parse argument <;> simp [file, directory, glob]
  · simp [file, directory, glob]

/-- No argument is an invalid pattern or a directory without a listing. -/
def Expands (files : FileSystem) (arguments : List String) : Prop :=
  ∀ argument ∈ arguments, ∃ selected, argumentPaths files argument = .ok selected

theorem gather_of_expands (expands : Expands files arguments) :
    (gather files arguments).result = .ok (contributions files arguments) := by
  induction arguments with
  | nil => rfl
  | cons argument arguments ih =>
      obtain ⟨selected, first⟩ := expands argument List.mem_cons_self
      have later := ih fun other member => expands other (List.mem_cons_of_mem argument member)
      rw [gather, first]
      simp [later, contributions, first, Except.toOption]

theorem exists_gather_error {failure : Failure} (member : argument ∈ arguments)
    (failed : argumentPaths files argument = .error failure) :
    ∃ failure, (gather files arguments).result = .error failure := by
  induction arguments with
  | nil => contradiction
  | cons head arguments ih =>
      rw [gather]
      cases first : argumentPaths files head with
      | error failure => exact ⟨failure, rfl⟩
      | ok selected =>
          have inside : argument ∈ arguments := by
            rcases List.mem_cons.mp member with rfl | inside
            · rw [first] at failed
              contradiction
            · exact inside
          obtain ⟨failure, later⟩ := ih inside
          exact ⟨failure, by simp [later]⟩

theorem exists_not_expands (stuck : ¬ Expands files arguments) :
    ∃ argument ∈ arguments, ∃ failure, argumentPaths files argument = .error failure := by
  by_contra none
  apply stuck
  intro argument member
  cases found : argumentPaths files argument with
  | error failure => exact absurd ⟨argument, member, failure, found⟩ none
  | ok selected => exact ⟨selected, rfl⟩

theorem paths_eq_ok_iff : (paths files arguments).result = .ok expansion ↔
    Expands files arguments ∧ Path.sorted (contributions files arguments) = expansion := by
  by_cases expands : Expands files arguments
  · simp [paths, gather_of_expands expands, expands]
  · obtain ⟨argument, member, failure, failed⟩ := exists_not_expands expands
    obtain ⟨first, stopped⟩ := exists_gather_error member failed
    simp [paths, stopped, expands]

/-- Arguments in the order of their paths, of which only the repetitions are dropped. -/
theorem paths_of_ordered {gathered : List Path}
    (found : (gather files arguments).result = .ok gathered)
    (ordered : gathered.Pairwise fun left right => (Path.compare left right).isLE = true) :
    (paths files arguments).result = .ok (Path.dropRepeats none gathered) := by
  simp [paths, found, Path.sorted_eq_dropRepeats ordered]

theorem expands_of_subset (subset : others ⊆ arguments) (expands : Expands files arguments) :
    Expands files others :=
  fun argument member => expands argument (subset member)

theorem contributions_perm (perm : arguments.Perm others) :
    (contributions files arguments).Perm (contributions files others) :=
  perm.flatMap_right _

/-- Whatever the order of the arguments, equal paths fail first. -/
theorem firstUnread_of_perm {path : Path} (perm : arguments.Perm others)
    (agree : SpellingsAgree files arguments)
    (first : files.FirstUnread (Path.sorted (contributions files arguments)) path) :
    ∃ spelled, Path.same path spelled = true ∧ files.content? path = files.content? spelled ∧
      files.FirstUnread (Path.sorted (contributions files others)) spelled := by
  have shuffled := @contributions_perm files _ _ perm
  obtain ⟨spelled, equal, content, later⟩ :=
    firstUnread_of_components_eq first
      (Path.components_sorted_eq fun parts => (shuffled.map _).mem_iff) (by
      intro left leftMember right rightMember same
      apply agree left (Path.mem_of_mem_sorted leftMember) right
      · exact shuffled.mem_iff.mpr (Path.mem_of_mem_sorted rightMember)
      · exact Path.same_iff.mpr same)
  exact ⟨spelled, Path.same_iff.mpr equal, content, later⟩

end Arguments

section Loading

variable {world : World} {arguments : List String} {expansion : List Path} {path : Path}

theorem load_of_firstUnread (expanded : (paths world.files arguments).result = .ok expansion)
    (first : world.files.FirstUnread expansion path) :
    ∃ error, readFile world.files path = .error error ∧
      (load world arguments).result = .error (.plain error) := by
  have present : arguments ≠ [] := by
    rintro rfl
    obtain ⟨_, rfl⟩ := paths_eq_ok_iff.mp expanded
    obtain ⟨before, after, split, _⟩ := first
    exact absurd split (by simp [contributions, Path.sorted, Path.dropRepeats])
  obtain ⟨error, failed, stopped⟩ := fileReports_of_firstUnread first
  exact ⟨error, failed, by simp [load, present, expanded, stopped]⟩

theorem load_of_fileReports {report : Report} (present : arguments ≠ [])
    (expanded : (paths world.files arguments).result = .ok expansion)
    (read : (fileReports world.files expansion).result = .ok report) :
    (load world arguments).result = .ok report := by
  simp [load, present, expanded, read]

theorem exists_report_of_reads (present : arguments ≠ [])
    (expanded : (paths world.files arguments).result = .ok expansion)
    (all : ∀ path ∈ expansion, world.files.Reads path) :
    ∃ report, (load world arguments).result = .ok report := by
  obtain ⟨report, read⟩ := fileReports_of_reads all
  exact ⟨report, load_of_fileReports present expanded read⟩

theorem exists_load_error_of_argument {argument : String} {failure : Failure}
    (member : argument ∈ arguments) (failed : argumentPaths world.files argument = .error failure) :
    ∃ failure, (load world arguments).result = .error failure := by
  obtain ⟨first, stopped⟩ := exists_gather_error member failed
  exact ⟨first, by simp [load, paths, List.ne_nil_of_mem member, stopped]⟩

theorem exists_load_error_of_obstacle (obstacle : Obstacle world arguments) :
    ∃ failure, (load world arguments).result = .error failure := by
  cases obstacle with
  | @pattern argument error member isPattern invalid =>
      obtain ⟨_, failed⟩ := argumentPaths_error_iff.mpr (Or.inl ⟨isPattern, error, invalid⟩)
      exact exists_load_error_of_argument member failed
  | @directory argument reason member unlisted =>
      obtain ⟨_, failed⟩ := argumentPaths_error_iff.mpr (Or.inr ⟨reason, unlisted⟩)
      exact exists_load_error_of_argument member failed
  | path expanded member unread =>
      obtain ⟨first, stops⟩ := exists_firstUnread member unread
      obtain ⟨error, _, stopped⟩ := load_of_firstUnread expanded stops
      exact ⟨.plain error, stopped⟩
  | input empty invalid =>
      refine ⟨.unreadableInput, ?_⟩
      simp [load, empty, standardReport, fromUTF8?_eq_none_iff.mpr invalid]

theorem exists_report_of_no_obstacle (clear : ¬ Obstacle world arguments) :
    ∃ report, (load world arguments).result = .ok report := by
  by_cases empty : arguments = []
  · have valid : world.input.IsValidUTF8 := by
      by_contra invalid
      exact clear (.input empty invalid)
    simp [load, empty, standardReport, String.fromUTF8?, valid]
  · have expands : Expands world.files arguments := by
      by_contra stuck
      obtain ⟨argument, member, failed⟩ := exists_not_expands stuck
      rcases argumentPaths_error_iff.mp failed with ⟨isPattern, error, invalid⟩ | ⟨reason, unlisted⟩
      · exact clear (.pattern member isPattern invalid)
      · exact clear (.directory member unlisted)
    have expanded := paths_eq_ok_iff.mpr ⟨expands, rfl⟩
    apply exists_report_of_reads empty expanded
    intro path member
    by_contra unread
    exact clear (.path expanded member unread)

theorem exists_load_error_iff :
    (∃ failure, (load world arguments).result = .error failure) ↔ Obstacle world arguments := by
  constructor
  · rintro ⟨failure, stopped⟩
    by_contra clear
    obtain ⟨report, loaded⟩ := exists_report_of_no_obstacle clear
    rw [stopped] at loaded
    contradiction
  · exact exists_load_error_of_obstacle

/-- Without arguments the functions of the standard input are reported. -/
theorem load_standard (files : FileSystem) (text : String) :
    (load ⟨files, text.toUTF8⟩ []).result = .ok [⟨"<stdin>", Function.ofSource text⟩] := by
  simp only [load, List.isEmpty_nil, if_true, standardReport, fromUTF8?_toUTF8]
  rfl

end Loading

end Input

end DocBlock
