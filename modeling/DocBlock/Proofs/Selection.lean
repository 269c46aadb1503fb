import DocBlock.Proofs.Input

/-! Which paths a run takes from its arguments. Main statement: those that an argument selects, in
strictly increasing order, of equal ones the one that was selected first, and equal ones for every
list of the same arguments. -/

namespace DocBlock

namespace Path

theorem afterLastDot?_eq_none_iff {bytes : List UInt8} :
    afterLastDot? bytes = none ↔ dotByte ∉ bytes := by
  induction bytes with
  | nil => simp [afterLastDot?]
  | cons byte bytes ih =>
      by_cases dotted : byte = dotByte
      · simp [afterLastDot?, dotted]
      · simp [afterLastDot?, dotted, Ne.symm dotted, ih]

theorem afterLastDot?_append (stem : List UInt8) {extension : List UInt8}
    (plain : dotByte ∉ extension) :
    afterLastDot? (stem ++ dotByte :: extension) = some extension := by
  induction stem with
  | nil => simp [afterLastDot?, afterLastDot?_eq_none_iff.mpr plain]
  | cons byte stem ih => simp [afterLastDot?, ih]

theorem exists_stem_of_afterLastDot? {bytes extension : List UInt8}
    (found : afterLastDot? bytes = some extension) :
    ∃ stem, stem ++ dotByte :: extension = bytes := by
  induction bytes with
  | nil => contradiction
  | cons byte bytes ih =>
      rw [afterLastDot?] at found
      cases later : afterLastDot? bytes with
      | some other =>
          rw [later, Option.some_or] at found
          obtain ⟨stem, split⟩ := ih (later.trans found)
          exact ⟨byte :: stem, congrArg (byte :: ·) split⟩
      | none =>
          rw [later, Option.none_or] at found
          split at found
          · rename_i dotted
            rw [dotted, Option.some.inj found]
            exact ⟨[], rfl⟩
          · contradiction

theorem extension?_append {stem extension : List UInt8} (present : stem ≠ [])
    (plain : dotByte ∉ extension) (named : stem ++ dotByte :: extension ≠ dotDot) :
    extension? (stem ++ dotByte :: extension) = some extension := by
  rw [extension?, if_neg named]
  -- The tail still holds the dot, since something stands before it.
  cases stem with
  | nil => contradiction
  | cons byte stem => exact afterLastDot?_append stem plain

theorem exists_stem_of_extension? {name : Path} {extension : List UInt8}
    (found : extension? name = some extension) :
    ∃ stem, stem ≠ [] ∧ stem ++ dotByte :: extension = name := by
  unfold extension? at found
  split at found
  · contradiction
  · cases name with
    | nil => contradiction
    | cons byte bytes =>
        obtain ⟨stem, split⟩ := exists_stem_of_afterLastDot? found
        exact ⟨byte :: stem, List.cons_ne_nil byte stem, congrArg (byte :: ·) split⟩

end Path

namespace Input

variable {files : FileSystem} {argument : String} {path name directory : Path}
  {arguments : List String} {expansion : List Path}

/-- The paths that an argument selects: itself where it is a file, or neither a file nor a directory
nor a pattern; the source files that a directory holds; the files that match a pattern. -/
inductive Selects (files : FileSystem) (argument : String) : Path → Prop
  | file : files.isFile (.ofText argument) = true → Selects files argument (.ofText argument)
  | plain : files.isFile (.ofText argument) = false → files.isDirectory (.ofText argument) = false →
      (∀ c ∈ argument.toList, c ∉ ['*', '?', '[']) → Selects files argument (.ofText argument)
  | entry {names : List Path} {stem : Path} {extension : String} :
      files.isFile (.ofText argument) = false → files.isDirectory (.ofText argument) = true →
      files.names (.ofText argument) = .ok names →
      stem ++ Path.dotByte :: Path.ofText extension ∈ names → stem ≠ [] →
      extension ∈ ["php", "phtml", "inc"] →
      files.isFile (Path.join (.ofText argument) (stem ++ Path.dotByte :: Path.ofText extension)) =
        true →
      Selects files argument
        (Path.join (.ofText argument) (stem ++ Path.dotByte :: Path.ofText extension))
  | pattern {pattern : Glob.Pattern} {path : Path} :
      files.isFile (.ofText argument) = false → files.isDirectory (.ofText argument) = false →
      (∃ c ∈ argument.toList, c ∈ ['*', '?', '[']) → Glob.Pattern.parse argument = .ok pattern →
      path ∈ files.matching pattern → files.isFile path = true → Selects files argument path

theorem isSource_iff : isSource name = true ↔ ∃ (stem : Path) (extension : String), stem ≠ [] ∧
    extension ∈ ["php", "phtml", "inc"] ∧ stem ++ Path.dotByte :: Path.ofText extension = name := by
  constructor
  · intro source
    obtain ⟨found, extensionFound, listed⟩ := Option.any_eq_true _ _ |>.mp source
    obtain ⟨stem, present, spelled⟩ := Path.exists_stem_of_extension? extensionFound
    obtain ⟨extension, known, rfl⟩ := List.mem_map.mp (List.contains_iff_mem.mp listed)
    exact ⟨stem, extension, present, known, spelled⟩
  · rintro ⟨stem, extension, present, known, rfl⟩
    have plain : ∀ extension ∈ ["php", "phtml", "inc"],
        Path.dotByte ∉ Path.ofText extension ∧ 1 < (Path.ofText extension).length := by
      decide +kernel
    have named : stem ++ Path.dotByte :: Path.ofText extension ≠ Path.dotDot := by
      intro dots
      have long := congrArg List.length dots
      have short := (plain extension known).2
      rw [List.length_append, List.length_cons] at long
      change stem.length + ((Path.ofText extension).length + 1) = 2 at long
      omega
    rw [isSource, Path.extension?_append present (plain extension known).1 named]
    exact List.contains_iff_mem.mpr (List.mem_map_of_mem known)

theorem isGlob_iff : isGlob argument = true ↔ ∃ c ∈ argument.toList, c ∈ ['*', '?', '['] := by
  simp [isGlob, or_assoc]

theorem mem_directoryPaths {names paths : List Path} (listed : files.names directory = .ok names)
    (scanned : directoryPaths files directory = .ok paths) : path ∈ paths ↔
      ∃ name ∈ names, files.isFile (Path.join directory name) = true ∧ isSource name = true ∧
        Path.join directory name = path := by
  rw [directoryPaths, listed] at scanned
  obtain rfl := Except.ok.inj scanned
  simp only [List.mem_map, List.mem_filter, Bool.and_eq_true, and_assoc]

theorem Selects.exists_argumentPaths (selects : Selects files argument path) :
    ∃ selected, argumentPaths files argument = .ok selected ∧ path ∈ selected.result := by
  unfold argumentPaths
  cases selects with
  | file isFile => simp [isFile]
  | plain notFile notDirectory plain =>
      have notGlob : isGlob argument = false := by
        rw [← Bool.not_eq_true, isGlob_iff]
        rintro ⟨c, member, wild⟩
        exact plain c member wild
      simp [notFile, notDirectory, notGlob]
  | @entry names stem extension notFile isDirectory listed member present known isFile =>
      have source := isSource_iff.mpr ⟨stem, extension, present, known, rfl⟩
      obtain ⟨paths, scanned⟩ : ∃ paths, directoryPaths files (.ofText argument) = .ok paths :=
        ⟨_, by rw [directoryPaths, listed]⟩
      simp only [notFile, isDirectory, Bool.false_eq_true, if_false, if_true, scanned]
      exact ⟨_, rfl, (mem_directoryPaths listed scanned).mpr ⟨_, member, isFile, source, rfl⟩⟩
  | pattern notFile notDirectory wild parsed matched isFile =>
      simp [notFile, notDirectory, isGlob_iff.mpr wild, parsed, matched, isFile]

theorem selects_of_argumentPaths {selected : Logged (List Path)}
    (selecting : argumentPaths files argument = .ok selected) (member : path ∈ selected.result) :
    Selects files argument path := by
  unfold argumentPaths at selecting
  dsimp only at selecting
  split at selecting
  · rename_i isFile
    obtain rfl := Except.ok.inj selecting
    obtain rfl := List.mem_singleton.mp member
    exact .file isFile
  rename_i notFile
  rw [Bool.not_eq_true] at notFile
  split at selecting
  · rename_i isDirectory
    cases scanned : directoryPaths files (.ofText argument) with
    | error failure => simp [scanned] at selecting
    | ok paths =>
        obtain rfl : Logged.mk [] paths = selected := by simpa [scanned] using selecting
        cases listed : files.names (.ofText argument) with
        | error reason => simp [directoryPaths, listed] at scanned
        | ok names =>
            obtain ⟨_, inside, isFile, source, rfl⟩ := (mem_directoryPaths listed scanned).mp member
            obtain ⟨stem, extension, present, known, rfl⟩ := isSource_iff.mp source
            exact .entry notFile isDirectory listed inside present known isFile
  rename_i notDirectory
  rw [Bool.not_eq_true] at notDirectory
  split at selecting
  · rename_i notGlob
    obtain rfl := Except.ok.inj selecting
    obtain rfl := List.mem_singleton.mp member
    apply Selects.plain notFile notDirectory
    intro c inside wild
    simp [isGlob_iff.mpr ⟨c, inside, wild⟩] at notGlob
  rename_i glob
  split at selecting
  · contradiction
  · rename_i pattern parsed
    obtain rfl := Except.ok.inj selecting
    obtain ⟨matched, isFile⟩ := List.mem_filter.mp member
    exact .pattern notFile notDirectory (isGlob_iff.mp (by simpa using glob)) parsed matched isFile

theorem mem_contributions : path ∈ contributions files arguments ↔
    ∃ argument ∈ arguments, Selects files argument path := by
  rw [contributions, List.mem_flatMap]
  apply exists_congr
  intro argument
  apply and_congr_right
  intro _
  constructor
  · intro member
    cases selecting : argumentPaths files argument with
    | error failure => simp [selecting, Except.toOption] at member
    | ok selected =>
        rw [selecting] at member
        exact selects_of_argumentPaths selecting member
  · intro selects
    obtain ⟨selected, selecting, member⟩ := selects.exists_argumentPaths
    rw [selecting]
    exact member

/-- Where the arguments expand, the paths that come out increase strictly, and each of them is selected
by an argument. Every path that an argument selects equals exactly one of them, the one of its equals
that was selected first. The same arguments in any order and number give equal paths. -/
theorem paths_exactly_selected (expanded : (paths files arguments).result = .ok expansion) :
    (expansion.Pairwise fun left right => Path.compare left right = .lt) ∧
      (∀ path ∈ expansion, ∃ argument ∈ arguments, Selects files argument path) ∧
      (∀ argument ∈ arguments, ∀ path, Selects files argument path → ∃ first,
        (contributions files arguments).find? (Path.same · path) = some first ∧
          ∀ kept, kept ∈ expansion ∧ Path.same kept path = true ↔ kept = first) ∧
      ∀ others : List String, (∀ argument, argument ∈ others ↔ argument ∈ arguments) →
        ∃ selected, (paths files others).result = .ok selected ∧
          selected.map Path.components = expansion.map Path.components := by
  obtain ⟨expands, rfl⟩ := paths_eq_ok_iff.mp expanded
  refine ⟨Path.pairwise_sorted _, ?selected, ?first, ?others⟩
  case selected =>
    intro path member
    exact mem_contributions.mp (Path.mem_of_mem_sorted member)
  case first =>
    intro argument listed path selects
    have member := mem_contributions.mpr ⟨argument, listed, selects⟩
    obtain ⟨first, kept, found, equal⟩ := Path.exists_first_mem_sorted member
    refine ⟨first, found, fun other => ?_⟩
    constructor
    · rintro ⟨inside, same⟩
      exact List.inj_on_of_nodup_map (Path.nodup_components_sorted _) inside kept
        ((Path.same_iff.mp same).trans equal.symm)
    · rintro rfl
      exact ⟨kept, Path.same_iff.mpr equal⟩
  case others =>
    intro others listed
    have expandsOthers := expands_of_subset (fun argument => (listed argument).mp) expands
    refine ⟨_, paths_eq_ok_iff.mpr ⟨expandsOthers, rfl⟩, Path.components_sorted_eq ?_⟩
    intro parts
    simp only [List.mem_map, mem_contributions, listed]

/-- A file, a directory, a pattern, another spelling of the file and a path that leads nowhere. -/
theorem paths_exactly_selected_five_arguments :
    let source := "function f() {}\n".toUTF8
    let tree : FileTree := ⟨[(.ofText "src", .directory [(.ofText "a.php", .file source),
      (.ofText "b.php", .file source), (.ofText "c.php.txt", .file source)])], []⟩
    let files := tree.system
    let arguments := [".//src/b.php", "src/.//", "src/b*.php", "src//b.php", "src/d.php"]
    let expansion := [".//src/b.php", "src/.//a.php", "src/.//b.php", "src/d.php"].map Path.ofText
    (paths files arguments).result = .ok expansion ∧
      (expansion.Pairwise fun left right => Path.compare left right = .lt) ∧
      (∃ argument ∈ arguments, Selects files argument (.ofText "src/.//b.php")) ∧
      Selects files "src/b*.php" (.ofText "src/b.php") ∧
      (∀ kept, kept ∈ expansion ∧ Path.same kept (.ofText "src/b.php") = true ↔
        kept = .ofText "src/.//b.php") ∧
      ∃ selected, (paths files (arguments ++ arguments.reverse)).result = .ok selected ∧
        selected.map Path.components = expansion.map Path.components := by
  intro source tree files arguments expansion
  have gathered : (gather files arguments).result = .ok ([".//src/b.php", "src/.//a.php",
      "src/.//b.php", "src/b.php", "src//b.php", "src/d.php"].map Path.ofText) := by
    decide +kernel
  have expanded : (paths files arguments).result = .ok expansion :=
    paths_of_ordered gathered (by decide +kernel)
  obtain ⟨increasing, selected, first, others⟩ := paths_exactly_selected expanded
  have matching : Selects files "src/b*.php" (.ofText "src/b.php") :=
    @Selects.pattern files "src/b*.php"
      ⟨["src".toList.map .char, .char 'b' :: .sequence :: ".php".toList.map .char], false, false⟩ _
      (by decide +kernel) (by decide +kernel) ⟨'*', by decide, by decide⟩ (by decide +kernel)
      (by decide +kernel) (by decide +kernel)
  obtain ⟨spelling, found, unique⟩ := first "src/b*.php" (by decide) (.ofText "src/b.php") matching
  obtain rfl : .ofText "src/.//b.php" = spelling := by
    rw [show (contributions files arguments).find? (Path.same · (.ofText "src/b.php")) =
      some (.ofText "src/.//b.php") by decide +kernel] at found
    exact Option.some.inj found
  exact ⟨expanded, increasing, selected (.ofText "src/.//b.php") (by decide +kernel), matching,
    unique, others (arguments ++ arguments.reverse) (by simp)⟩

end Input

end DocBlock
