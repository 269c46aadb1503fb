import DocBlock.Proofs.Generate
import DocBlock.Proofs.Place

/-! Which paths lead to one file. Main statement: of the paths that arguments stand for, two that start
at the same directory, and differ in more than slashes and dots only where they do not climb, lead to
one file exactly if one of them is the other with a dot in front, and only then can a run ask for a
function of a file twice. -/

namespace DocBlock

namespace Path

/-- The pieces of a path that lead further than the directory they stand in. -/
def names (path : Path) : List Path :=
  (pieces path).filter fun piece => piece ≠ [] ∧ piece ≠ dot

/-- What a path begins with, before all names. -/
def lead (path : Path) : List Component :=
  if FileTree.isAbsolute path then [.root]
  else if (pieces path).head? = some dot then [.current]
  else []

/-- One is the other with a dot in front. -/
def DotApart (left right : Path) : Prop :=
  components left = .current :: components right ∨ components right = .current :: components left

/-- Both start at the root or neither does, and unless they differ only in slashes and dots, neither
climbs. -/
structure SpelledAlike (left right : Path) : Prop where
  start : FileTree.isAbsolute left = FileTree.isAbsolute right
  direct : names left = names right ∨
    .parent ∉ components left ∧ .parent ∉ components right

theorem head?_pieces_eq_nil {path : Path} :
    (pieces path).head? = some [] ↔ path = [] ∨ FileTree.isAbsolute path = true := by
  rw [pieces, FileTree.isAbsolute]
  cases path with
  | nil => simp
  | cons byte bytes =>
      by_cases slash : byte = slashByte
      · simp [List.splitOn, List.splitOnP_cons_eq_if_modifyHead, slash]
      · simp [List.splitOn, List.splitOnP_cons_eq_if_modifyHead, slash]

theorem components_eq (path : Path) :
    components path = lead path ++ (names path).map Component.ofPiece := by
  by_cases empty : path = []
  · subst empty
    decide +kernel
  unfold components lead names
  simp only [head?_pieces_eq_nil, empty, if_false, false_or]
  split
  · rfl
  · split <;> rfl

theorem ofPiece_injective : Function.Injective Component.ofPiece := by
  intro left right same
  unfold Component.ofPiece at same
  split at same <;> split at same <;> simp_all

theorem parent_mem_components {path : Path} (member : dotDot ∈ pieces path) :
    .parent ∈ components path := by
  rw [components_eq, List.mem_append]
  right
  exact List.mem_map.mpr ⟨dotDot, List.mem_filter.mpr ⟨member, by decide⟩, rfl⟩

section Spelled

variable {left right : Path}

/-- The lead of a path tells where it starts, but for the dot. -/
theorem lead_cases (path : Path) :
    lead path = [.root] ∧ FileTree.isAbsolute path = true ∨
      (lead path = [] ∨ lead path = [.current]) ∧ FileTree.isAbsolute path = false := by
  unfold lead
  cases FileTree.isAbsolute path with
  | true => simp
  | false =>
      right
      simp only [Bool.false_eq_true, if_false, and_true]
      split
      · exact Or.inr rfl
      · exact Or.inl rfl

/-- Paths that differ although their names agree differ by the dot in front. -/
theorem dotApart_of_names_eq (start : FileTree.isAbsolute left = FileTree.isAbsolute right)
    (names_eq : names left = names right) (different : components left ≠ components right) :
    DotApart left right := by
  rw [components_eq left, components_eq right, names_eq] at different
  unfold DotApart
  rw [components_eq left, components_eq right, names_eq]
  rcases lead_cases left with ⟨leadLeft, absolute⟩ | ⟨leadLeft | leadLeft, relative⟩ <;>
    rcases lead_cases right with ⟨leadRight, absoluteToo⟩ | ⟨leadRight | leadRight, relativeToo⟩ <;>
    simp_all

theorem ofPiece_plain (piece : Path) :
    Component.ofPiece piece ≠ .root ∧ Component.ofPiece piece ≠ .current := by
  unfold Component.ofPiece
  split <;> simp

/-- A dot in front changes no name. -/
theorem names_eq_of_components_cons
    (dotted : components left = .current :: components right) : names left = names right := by
  have plain (path : Path) (part : Component) (rest : List Component)
      (begins : part = .root ∨ part = .current) :
      (names path).map Component.ofPiece ≠ part :: rest := by
    intro equal
    obtain ⟨piece, _, _, rfl, _⟩ := List.map_eq_cons_iff.mp equal
    exact begins.elim (ofPiece_plain piece).1 (ofPiece_plain piece).2
  rw [components_eq left, components_eq right] at dotted
  apply List.map_injective_iff.mpr ofPiece_injective
  rcases lead_cases left with ⟨leadLeft, _⟩ | ⟨leadLeft | leadLeft, _⟩
  · simp [leadLeft] at dotted
  · rw [leadLeft] at dotted
    exact absurd dotted (plain left _ _ (Or.inr rfl))
  · rw [leadLeft, List.singleton_append, List.cons.injEq] at dotted
    rcases lead_cases right with ⟨leadRight, _⟩ | ⟨leadRight | leadRight, _⟩
    · rw [leadRight] at dotted
      exact absurd dotted.2 (plain left _ _ (Or.inl rfl))
    · rw [leadRight] at dotted
      exact dotted.2
    · rw [leadRight] at dotted
      exact absurd dotted.2 (plain left _ _ (Or.inr rfl))

theorem names_eq_of_dotApart (apart : DotApart left right) : names left = names right := by
  rcases apart with dotted | dotted
  · exact names_eq_of_components_cons dotted
  · exact (names_eq_of_components_cons dotted).symm

end Spelled

end Path

namespace FileTree

variable {tree : FileTree} {location : List Path} {path : Path}

theorem step?_eq {start : List Path} {piece : Path} (direct : piece ≠ Path.dotDot)
    (found : tree.step? start piece = some location) :
    location = start ++ [piece].filter fun piece => piece ≠ [] ∧ piece ≠ Path.dot := by
  unfold step? at found
  split at found
  · contradiction
  split at found
  · rename_i still
    obtain rfl := Option.some.inj found
    rcases still with rfl | rfl <;> simp
  · rename_i further
    rw [not_or] at further
    obtain ⟨_, _, rfl⟩ := Option.map_eq_some_iff.mp found
    simp [further]

/-- Slashes and dots lead nowhere else. -/
theorem foldlM_step?_filter {pieces start : List Path}
    (found : pieces.foldlM tree.step? start = some location) :
    (pieces.filter fun piece => piece ≠ [] ∧ piece ≠ Path.dot).foldlM tree.step? start =
      some location := by
  induction pieces generalizing start with
  | nil => exact found
  | cons piece pieces ih =>
      rw [List.foldlM_cons, Option.bind_eq_bind, Option.bind_eq_some_iff] at found
      obtain ⟨next, stepped, found⟩ := found
      by_cases further : piece ≠ [] ∧ piece ≠ Path.dot
      · rw [List.filter_cons_of_pos (by simpa using further), List.foldlM_cons, stepped]
        exact ih found
      · have climbs : piece ≠ Path.dotDot := by
          rintro rfl
          exact further (by decide)
        have stays := step?_eq climbs stepped
        rw [List.filter_cons_of_neg (by simpa using further), List.filter_nil,
          List.append_nil] at stays
        rw [List.filter_cons_of_neg (by simpa using further), ← stays]
        exact ih found

/-- Pieces that do not climb lead down by those that are names. -/
theorem foldlM_step?_eq {pieces start : List Path} (direct : Path.dotDot ∉ pieces)
    (found : pieces.foldlM tree.step? start = some location) :
    location = start ++ pieces.filter fun piece => piece ≠ [] ∧ piece ≠ Path.dot := by
  induction pieces generalizing start with
  | nil =>
      obtain rfl := Option.some.inj found
      simp
  | cons piece pieces ih =>
      rw [List.mem_cons, not_or] at direct
      rw [List.foldlM_cons, Option.bind_eq_bind, Option.bind_eq_some_iff] at found
      obtain ⟨next, stepped, found⟩ := found
      calc
        location = next ++ pieces.filter _ := ih direct.2 found
        _ = start ++ ([piece].filter _ ++ pieces.filter _) := by
          rw [step?_eq (Ne.symm direct.1) stepped, List.append_assoc]
        _ = start ++ (piece :: pieces).filter _ := by rw [← List.filter_append, List.singleton_append]

theorem locate?_eq (direct : .parent ∉ Path.components path) (found : tree.locate? path = some location) :
    location = (if isAbsolute path then [] else tree.here) ++ Path.names path := by
  unfold locate? at found
  split at found
  · contradiction
  · exact foldlM_step?_eq (fun climbs => direct (Path.parent_mem_components climbs)) found

theorem locate?_names (found : tree.locate? path = some location) :
    (Path.names path).foldlM tree.step? (if isAbsolute path then [] else tree.here) =
      some location := by
  unfold locate? at found
  split at found
  · contradiction
  · exact foldlM_step?_filter found

theorem exists_location_of_isFile (file : tree.isFile path = true) :
    ∃ location, tree.locate? path = some location := by
  cases found : tree.locate? path with
  | none => simp [isFile, node?, found] at file
  | some location => exact ⟨location, rfl⟩

/-- Paths that differ lead to one file exactly if a dot in front tells them apart. -/
theorem locate?_eq_iff {left right : Path} (alike : Path.SpelledAlike left right)
    (different : Path.components left ≠ Path.components right) (file : tree.isFile left = true) :
    tree.locate? left = tree.locate? right ↔ tree.isFile right = true ∧ Path.DotApart left right := by
  obtain ⟨location, found⟩ := exists_location_of_isFile file
  constructor
  · intro same
    have foundToo : tree.locate? right = some location := by rw [← same, found]
    constructor
    · unfold isFile node? at file ⊢
      rwa [← same]
    · apply Path.dotApart_of_names_eq alike.start _ different
      rcases alike.direct with names_eq | ⟨direct, directToo⟩
      · exact names_eq
      · have down := locate?_eq directToo foundToo
        rw [locate?_eq direct found, alike.start] at down
        exact List.append_cancel_left down
  · rintro ⟨fileToo, apart⟩
    obtain ⟨locationToo, foundToo⟩ := exists_location_of_isFile fileToo
    have led := locate?_names found
    rw [alike.start, Path.names_eq_of_dotApart apart, locate?_names foundToo] at led
    rw [found, foundToo, led]

end FileTree

namespace Program

open Completion Generate

variable {tree : FileTree} {world : World} {arguments : List String} {expansion : List Path}
  {report : Report}

theorem components_ne_of_lt {left right : Path} (lower : Path.compare left right = .lt) :
    Path.components left ≠ Path.components right := by
  intro same
  rw [Path.compare_eq_eq_iff.mpr same] at lower
  contradiction

theorem targets_of_load (loaded : (Input.load world arguments).result = .ok report)
    (includeStale : Bool) : targets includeStale report =
      ((Input.located world arguments).filter (wants includeStale ·.2)).map
        fun entry => ⟨entry.1.shown, entry.2⟩ := by
  rw [targets_eq_filter, Input.entries_of_load loaded, List.filter_map, List.map_map]
  rfl

/-- Two places of one line in one file have paths that a dot in front tells apart. -/
theorem pairwise_located_apart (tree : FileTree) (input : ByteArray) (arguments : List String) :
    (Input.located ⟨tree.system, input⟩ arguments).Pairwise fun first second =>
      Path.SpelledAlike first.1 second.1 → tree.isFile first.1 = true →
        tree.locate? first.1 = tree.locate? second.1 →
        first.2.line = second.2.line → Path.DotApart first.1 second.1 := by
  apply (Input.pairwise_located _ arguments).imp
  intro first second lower alike file same line
  rw [Input.comparePlaces, Ordering.then_eq_lt, line] at lower
  rcases lower with lower | ⟨_, lower⟩
  · exact ((FileTree.locate?_eq_iff alike (components_ne_of_lt lower) file).mp same).2
  · exact absurd (Nat.compare_eq_lt.mp lower) (Nat.lt_irrefl _)

/-- Of the selected paths, two that are spelled alike lead to one file exactly if a dot in front tells
them apart, and without such paths no function of a file is asked for twice. -/
theorem paths_name_files_once
    (expanded : (Input.paths tree.system arguments).result = .ok expansion) :
    (expansion.Pairwise fun left right => Path.SpelledAlike left right →
        tree.isFile left = true →
        (tree.locate? left = tree.locate? right ↔
          tree.isFile right = true ∧ Path.DotApart left right)) ∧
      ∀ (input : ByteArray) (report : Report),
        (Input.load ⟨tree.system, input⟩ arguments).result = .ok report → ∀ includeStale : Bool,
        let asked := (Input.located ⟨tree.system, input⟩ arguments).filter (wants includeStale ·.2)
        targets includeStale report = asked.map (fun entry => ⟨entry.1.shown, entry.2⟩) ∧
          (∀ {σ : Type} (transport : Transport σ) (model : String) (state : σ),
            (generate ⟨tree.system, input⟩ transport.recording arguments includeStale model
              ([], state)).2.1 = asked.map fun entry => Request.ofFunction model entry.2.body) ∧
          asked.Pairwise fun first second => Path.SpelledAlike first.1 second.1 →
            tree.isFile first.1 = true → tree.locate? first.1 = tree.locate? second.1 →
            first.2.line = second.2.line → Path.DotApart first.1 second.1 := by
  constructor
  · obtain ⟨_, rfl⟩ := Input.paths_eq_ok_iff.mp expanded
    apply (Path.pairwise_sorted _).imp
    intro left right lower alike file
    exact FileTree.locate?_eq_iff alike (components_ne_of_lt lower) file
  · intro input report loaded includeStale asked
    have wanted := targets_of_load loaded includeStale
    refine ⟨wanted, ?_, (pairwise_located_apart tree input arguments).filter _⟩
    intro σ transport model state
    rw [generate_recording loaded, wanted, List.map_map]
    rfl

/-- Four arguments select two files, one of them twice for a dot in front. -/
theorem paths_name_files_once_four_spellings :
    let text := "function f() {}\n"
    let tree : FileTree := ⟨[(.ofText "src", .directory [(.ofText "a.php", .file text.toUTF8),
      (.ofText "b.php", .file text.toUTF8)])], []⟩
    let world : World := ⟨tree.system, ByteArray.empty⟩
    let arguments := [".//src/b.php", "src/.//", "src/b*.php", "src//b.php"]
    let spellings := [".//src/b.php", "src/.//a.php", "src/.//b.php"]
    let report : Report := spellings.map fun path => ⟨path, Function.ofSource text⟩
    (Input.paths tree.system arguments).result = .ok (spellings.map Path.ofText) ∧
      (Input.load world arguments).result = .ok report ∧
      Path.SpelledAlike (.ofText ".//src/b.php") (.ofText "src/.//b.php") ∧
      tree.isFile (.ofText ".//src/b.php") = true ∧
      (tree.locate? (.ofText ".//src/b.php") = tree.locate? (.ofText "src/.//b.php") ↔
        tree.isFile (.ofText "src/.//b.php") = true ∧
          Path.DotApart (.ofText ".//src/b.php") (.ofText "src/.//b.php")) ∧
      ((Input.located world arguments).filter (wants false ·.2)).Pairwise fun first second =>
        Path.SpelledAlike first.1 second.1 → tree.isFile first.1 = true →
          tree.locate? first.1 = tree.locate? second.1 →
          first.2.line = second.2.line → Path.DotApart first.1 second.1 := by
  intro text tree world arguments spellings report
  have gathered : (Input.gather tree.system arguments).result = .ok ([".//src/b.php",
      "src/.//a.php", "src/.//b.php", "src/b.php", "src//b.php"].map Path.ofText) := by
    decide +kernel
  have expanded : (Input.paths tree.system arguments).result = .ok (spellings.map Path.ofText) :=
    Input.paths_of_ordered gathered (by decide +kernel)
  have read : (Input.fileReports tree.system (spellings.map Path.ofText)).result = .ok report := by
    decide +kernel
  have loaded : (Input.load world arguments).result = .ok report :=
    Input.load_of_fileReports (by simp [arguments]) expanded read
  have alike : Path.SpelledAlike (.ofText ".//src/b.php") (.ofText "src/.//b.php") :=
    ⟨by decide +kernel, Or.inl (by decide +kernel)⟩
  have file : tree.isFile (.ofText ".//src/b.php") = true := by decide +kernel
  obtain ⟨files, requests⟩ := paths_name_files_once expanded
  have same := (List.pairwise_cons.mp files).1 (.ofText "src/.//b.php") (by simp) alike file
  exact ⟨expanded, loaded, alike, file, same, (requests ByteArray.empty report loaded false).2.2⟩

/-- A path and the same with a dot in front are both selected, and the file's function is asked for
twice. -/
theorem paths_name_file_twice :
    let text := "function f() {}\n"
    let tree : FileTree := ⟨[(.ofText "a.php", .file text.toUTF8)], []⟩
    let world : World := ⟨tree.system, ByteArray.empty⟩
    let arguments := ["./a.php", "a.php"]
    let run := generate world Transport.prepared.recording arguments false "model" ([], [])
    (Input.paths tree.system arguments).result = .ok (arguments.map Path.ofText) ∧
      tree.isFile (.ofText "./a.php") = true ∧ tree.isFile (.ofText "a.php") = true ∧
      tree.locate? (.ofText "./a.php") = tree.locate? (.ofText "a.php") ∧
      run.2.1 = List.replicate 2 (Request.ofFunction "model" "function f()\n{}") := by
  intro text tree world arguments run
  have gathered : (Input.gather tree.system arguments).result = .ok (arguments.map Path.ofText) := by
    decide +kernel
  have expanded : (Input.paths tree.system arguments).result = .ok (arguments.map Path.ofText) :=
    Input.paths_of_ordered gathered (by decide +kernel)
  let report : Report := arguments.map fun path => ⟨path, Function.ofSource text⟩
  have read : (Input.fileReports tree.system (arguments.map Path.ofText)).result = .ok report := by
    decide +kernel
  have loaded : (Input.load world arguments).result = .ok report :=
    Input.load_of_fileReports (by simp [arguments]) expanded read
  have asked : run.2.1 = (targets false report).map (Target.request "model") := by
    simp only [run, generate_recording loaded]
  refine ⟨expanded, by decide +kernel, by decide +kernel, by decide +kernel, ?_⟩
  rw [asked]
  decide +kernel

end Program

end DocBlock
