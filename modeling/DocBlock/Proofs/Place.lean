import DocBlock.Proofs.Attachment
import DocBlock.Proofs.Report

/-! Where functions stand. Main statement: the functions of a report come in strictly increasing order
of path and line, so a path and a line name at most one function, but for paths that are no text, of
which two may be shown alike. -/

namespace DocBlock

namespace Text

/-- The last place of a character splits a text in one way. -/
theorem append_cons_inj {left right front back : List Char} {c : Char}
    (split : left ++ c :: right = front ++ c :: back) (absentRight : c ∉ right)
    (absentBack : c ∉ back) : left = front ∧ right = back := by
  rcases append_cases split with ⟨within, present, rfl, rest⟩ | ⟨beyond, rfl, rest⟩
  · obtain ⟨d, within, rfl⟩ := List.exists_cons_of_ne_nil present
    obtain ⟨rfl, rfl⟩ := List.cons.inj rest
    simp at absentRight
  · cases beyond with
    | nil => exact ⟨List.append_nil front, (List.cons.inj rest).2⟩
    | cons d beyond =>
        obtain ⟨rfl, rfl⟩ := List.cons.inj rest
        simp at absentBack

end Text

namespace Declaration

section Standing

variable {code : String} {block other : Block} {before after front back : List Char}

theorem lineOf_ofBlock (split : before ++ (block.toList ++ after) = code.toList) :
    Text.lineOf code (ofBlock (Text.byteLength before) block).start =
      (before ++ block.above).count '\n' + 1 := by
  rw [Text.lineOf, ← Block.split_above split, start_ofBlock, Text.lineFeedsBefore_byteLength]

/-- A block begins with a line and does not end one, so a line feed stands between two blocks. -/
theorem Block.exists_between (stands : block.Stands before after) (otherStands : other.Stands front back)
    (same : before ++ (block.toList ++ after) = front ++ (other.toList ++ back))
    (apart : Text.byteLength before + Text.byteLength block.toList ≤ Text.byteLength front) :
    ∃ between, before ++ block.toList ++ between = front ∧ '\n' ∈ between := by
  obtain ⟨c, last, solid⟩ := Block.getLast?_append_toList stands.wellFormed before
  rw [← List.append_assoc] at same
  rcases Text.append_cases same with ⟨between, present, rfl, _⟩ | ⟨beyond, split, _⟩
  · refine ⟨between, rfl, ?_⟩
    have ends := otherStands.line (between.getLast present) (by
      rw [List.getLast?_append, List.getLast?_eq_some_getLast present]
      rfl)
    rw [← ends]
    exact List.getLast_mem present
  · have length := congrArg Text.byteLength split
    rw [Text.byteLength_append, Text.byteLength_append] at length
    have empty : beyond = [] := by
      by_contra present
      have positive := Text.byteLength_pos present
      omega
    rw [← split, empty, List.append_nil] at last
    rw [otherStands.line c last] at solid
    contradiction

theorem Block.count_lt (stands : block.Stands before after) (otherStands : other.Stands front back)
    (same : before ++ (block.toList ++ after) = front ++ (other.toList ++ back))
    (apart : Text.byteLength before + Text.byteLength block.toList ≤ Text.byteLength front) :
    (before ++ block.above).count '\n' < (front ++ other.above).count '\n' := by
  obtain ⟨between, rfl, feed⟩ := Block.exists_between stands otherStands same apart
  have positive : 0 < between.count '\n' := List.count_pos_iff.mpr feed
  rw [Block.toList]
  simp only [List.count_append]
  omega

end Standing

/-- Each declaration stands on a later line than those before it. -/
theorem pairwise_lineOf_scan (code : String) : (scan code).Pairwise fun first second =>
    Text.lineOf code first.start < Text.lineOf code second.start := by
  have cut := Text.cut_occurrencesFrom Block.consumes_form none 0 code.toList
  refine List.pairwise_map.mpr ((cut.pairwise Block.takes_form).imp_of_mem ?_)
  rintro ⟨offset, block⟩ ⟨later, other⟩ found foundLater apart
  obtain ⟨before, after, split, rfl, stands⟩ := Block.stands_of_mem found
  obtain ⟨front, back, otherSplit, rfl, otherStands⟩ := Block.stands_of_mem foundLater
  rw [lineOf_ofBlock split, lineOf_ofBlock otherSplit]
  exact Nat.succ_lt_succ (Block.count_lt stands otherStands (split.trans otherSplit.symm) apart)

end Declaration

theorem Function.pairwise_line_ofSource (code : String) :
    (ofSource code).Pairwise fun first second => first.line < second.line :=
  List.pairwise_map.mpr (Declaration.pairwise_lineOf_scan code)

/-- Some text spells the path. -/
def Path.IsText (path : Path) : Prop := ∃ text, ofText text = path

theorem Path.IsText.ofText_shown {path : Path} (isText : path.IsText) : ofText path.shown = path := by
  obtain ⟨text, rfl⟩ := isText
  rw [shown_ofText]

namespace Input

/-- The functions of the file at a path, if it can be read. -/
def functionsAt (files : FileSystem) (path : Path) : List Function :=
  (fileFunctions files path).toOption.elim [] Logged.result

/-- The functions of all inputs in order, each with the path that its text was read from. -/
def located (world : World) (arguments : List String) : List (Path × Function) :=
  if arguments.isEmpty then
    ((String.fromUTF8? world.input).elim [] Function.ofSource).map (Path.ofText "<stdin>", ·)
  else
    ((paths world.files arguments).result.toOption.getD []).flatMap fun path =>
      (functionsAt world.files path).map (path, ·)

/-- A function as it is reported, under its path as it is shown. -/
def reported (entry : Path × Function) : String × Function := (entry.1.shown, entry.2)

/-- The order of places: by path, component by component, and by line where the paths are equal. -/
def comparePlaces (left right : Path × Function) : Ordering :=
  (Path.compare left.1 right.1).then (compare left.2.line right.2.line)

variable {files : FileSystem} {path : Path} {paths : List Path} {report : Report} {world : World}
  {arguments : List String}

theorem functionsAt_of_ok {read : Logged (List Function)}
    (found : fileFunctions files path = .ok read) : functionsAt files path = read.result := by
  rw [functionsAt, found]
  rfl

theorem exists_functionsAt_eq (files : FileSystem) (path : Path) :
    functionsAt files path = [] ∨ ∃ text, functionsAt files path = Function.ofSource text := by
  unfold functionsAt fileFunctions
  cases readFile files path with
  | error error => exact Or.inl rfl
  | ok text => exact Or.inr ⟨text, rfl⟩

theorem pairwise_line_functionsAt (files : FileSystem) (path : Path) :
    (functionsAt files path).Pairwise fun first second => first.line < second.line := by
  rcases exists_functionsAt_eq files path with empty | ⟨text, functions⟩
  · rw [empty]
    exact List.Pairwise.nil
  · rw [functions]
    exact Function.pairwise_line_ofSource text

theorem fileReports_eq_ok (read : (fileReports files paths).result = .ok report) :
    report = paths.map fun path => ⟨path.shown, functionsAt files path⟩ := by
  induction paths generalizing report with
  | nil =>
      obtain rfl := Except.ok.inj read
      rfl
  | cons path paths ih =>
      rw [fileReports] at read
      cases found : fileFunctions files path with
      | error error =>
          rw [found] at read
          contradiction
      | ok functions =>
          rw [found] at read
          cases others : (fileReports files paths).result with
          | error failure => simp [others] at read
          | ok rest =>
              simp only [others, Except.map_ok, Except.ok.injEq] at read
              rw [← read, List.map_cons, ← ih others, functionsAt_of_ok found]

/-- A report holds the functions of the inputs, under the paths as they are shown. -/
theorem entries_of_load (loaded : (load world arguments).result = .ok report) :
    report.entries = (located world arguments).map reported := by
  by_cases empty : arguments = []
  · subst empty
    simp only [load, List.isEmpty_nil, if_true, standardReport] at loaded
    cases decoded : String.fromUTF8? world.input with
    | none =>
        rw [decoded] at loaded
        contradiction
    | some text =>
        rw [decoded] at loaded
        obtain rfl := Except.ok.inj loaded
        simp [Report.entries, located, decoded, reported, readText, Function.comp_def]
  · cases selected : (Input.paths world.files arguments).result with
    | error failure => simp [load, empty, selected] at loaded
    | ok expansion =>
        simp only [load, List.isEmpty_eq_false_iff.mpr empty, selected] at loaded
        obtain rfl := fileReports_eq_ok loaded
        simp [Report.entries, located, empty, selected, Except.toOption, reported, List.flatMap_map,
          List.map_flatMap, Function.comp_def]

/-- In one file the places are in the order of the lines. -/
theorem pairwise_comparePlaces {functions : List Function}
    (increasing : functions.Pairwise fun first second => first.line < second.line) (path : Path) :
    (functions.map (path, ·)).Pairwise fun first second => comparePlaces first second = .lt := by
  apply List.pairwise_map.mpr
  apply increasing.imp
  intro first second lower
  rw [comparePlaces, Path.compare_eq_eq_iff.mpr rfl, Ordering.eq_then]
  exact Nat.compare_eq_lt.mpr lower

/-- The lines of one file increase, and so do the paths of files. -/
theorem pairwise_located (world : World) (arguments : List String) :
    (located world arguments).Pairwise fun first second => comparePlaces first second = .lt := by
  unfold located
  split
  · apply pairwise_comparePlaces
    cases String.fromUTF8? world.input with
    | none => exact List.Pairwise.nil
    | some text => exact Function.pairwise_line_ofSource text
  · rw [List.pairwise_flatMap]
    constructor
    · intro path _
      exact pairwise_comparePlaces (pairwise_line_functionsAt world.files path) path
    · cases selected : (Input.paths world.files arguments).result with
      | error failure => exact List.Pairwise.nil
      | ok expansion =>
          obtain ⟨_, rfl⟩ := paths_eq_ok_iff.mp selected
          apply (Path.pairwise_sorted (contributions world.files arguments)).imp
          intro first second lower entry member other otherMember
          obtain ⟨_, _, rfl⟩ := List.mem_map.mp member
          obtain ⟨_, _, rfl⟩ := List.mem_map.mp otherMember
          rw [comparePlaces, lower, Ordering.lt_then]

end Input

namespace Report

/-- A place as reports write it. -/
def place (entry : String × Function) : String := s!"{entry.1}:{entry.2.line}"

theorem toList_place (entry : String × Function) :
    (place entry).toList = entry.1.toList ++ ':' :: Nat.toDigits 10 entry.2.line := by
  simp [place, toString, Nat.repr]

theorem notMem_toDigits {c : Char} (other : c.isDigit = false) (n : Nat) : c ∉ Nat.toDigits 10 n := by
  intro member
  rw [Nat.isDigit_of_mem_toDigits (by decide) (by decide) member] at other
  contradiction

/-- What is written of a place tells the path as it is shown and the line. -/
theorem place_eq_iff {left right : String × Function} :
    place left = place right ↔ left.1 = right.1 ∧ left.2.line = right.2.line := by
  constructor
  · intro same
    have noColon (n : Nat) : ':' ∉ Nat.toDigits 10 n := notMem_toDigits (by decide) n
    have written := congrArg String.toList same
    rw [toList_place, toList_place] at written
    obtain ⟨path, digits⟩ := Text.append_cons_inj written (noColon _) (noColon _)
    refine ⟨String.toList_inj.mp path, ?_⟩
    calc
      left.2.line = Nat.ofDigitChars 10 (Nat.toDigits 10 left.2.line) 0 :=
        Nat.ofDigitChars_ten_toDigits.symm
      _ = Nat.ofDigitChars 10 (Nat.toDigits 10 right.2.line) 0 := by rw [digits]
      _ = right.2.line := Nat.ofDigitChars_ten_toDigits
  · rintro ⟨path, line⟩
    rw [place, place, path, line]

theorem place_ne_of_isText {left right : Path × Function}
    (lower : Input.comparePlaces left right = .lt) (leftText : left.1.IsText)
    (rightText : right.1.IsText) : place (Input.reported left) ≠ place (Input.reported right) := by
  intro same
  obtain ⟨shown, line⟩ : left.1.shown = right.1.shown ∧ left.2.line = right.2.line :=
    place_eq_iff.mp same
  have path : left.1 = right.1 := by
    rw [← leftText.ofText_shown, shown, rightText.ofText_shown]
  rw [Input.comparePlaces, path, line, Path.compare_eq_eq_iff.mpr rfl, Ordering.eq_then,
    Nat.compare_eq_lt] at lower
  exact Nat.lt_irrefl _ lower

end Report

namespace Program

/-- The functions of a list come in strictly increasing order of path and line, each under its path as
it is shown, and no two under paths that are texts have the same place. In each text alone the lines
increase. -/
theorem list_places_increase {world : World} {inputs : List String} {name : String} {format : Format}
    {report : Report} (known : Format.ofName name = .ok format)
    (loaded : (Input.load world inputs).result = .ok report) :
    let listed := list world inputs name
    let located := Input.located world inputs
    listed.status = 0 ∧ listed.output = report.render format ∧
      report.functionLines = report.entries.map (fun entry => Report.functionLine entry.1 entry.2) ∧
      report.entries = located.map Input.reported ∧
      (located.Pairwise fun first second => Input.comparePlaces first second = .lt) ∧
      (located.Pairwise fun first second => first.1.IsText → second.1.IsText →
        Report.place (Input.reported first) ≠ Report.place (Input.reported second)) ∧
      ∀ code, (Function.ofSource code).Pairwise fun first second => first.line < second.line := by
  intro listed located
  have list_eq : listed = ⟨0, report.render format, (Input.load world inputs).events.map .event⟩ :=
    reporting_of_load known loaded _
  have increasing := Input.pairwise_located world inputs
  rw [list_eq]
  refine ⟨rfl, rfl, Report.functionLines_eq, Input.entries_of_load loaded, increasing,
    increasing.imp ?_, Function.pairwise_line_ofSource⟩
  intro first second lower
  exact Report.place_ne_of_isText lower

/-- A file in a directory comes before one whose name goes on where the directory's ends, although not
by the order of their letters. -/
theorem list_places_increase_directory :
    let inner := "<?php\nfunction f($g = '\nfunction g()') {}\nfunction h() {}\n"
    let outer := "function a() \x7b\nfunction b() {}\x7d\n"
    let tree : FileTree := ⟨[(.ofText "a", .directory [(.ofText "z.php", .file inner.toUTF8)]),
      (.ofText "a-b.php", .file outer.toUTF8)], []⟩
    let world : World := ⟨tree.system, ByteArray.empty⟩
    let report : Report :=
      [⟨"a/z.php", Function.ofSource inner⟩, ⟨"a-b.php", Function.ofSource outer⟩]
    Format.ofName "text" = .ok .text ∧ (Input.load world ["a", "a-b.php"]).result = .ok report ∧
      report.entries = (Input.located world ["a", "a-b.php"]).map Input.reported ∧
      report.entries.map Report.place = ["a/z.php:2", "a/z.php:4", "a-b.php:1", "a-b.php:2"] ∧
      (Input.located world ["a", "a-b.php"]).Pairwise fun first second =>
        Input.comparePlaces first second = .lt := by
  intro inner outer tree world report
  have known : Format.ofName "text" = .ok .text := rfl
  let expansion := ["a/z.php", "a-b.php"].map Path.ofText
  have gathered : (Input.gather world.files ["a", "a-b.php"]).result = .ok expansion := by
    decide +kernel
  have expanded : (Input.paths world.files ["a", "a-b.php"]).result = .ok expansion :=
    Input.paths_of_ordered gathered (by decide +kernel)
  have read : (Input.fileReports world.files expansion).result = .ok report := by decide +kernel
  have loaded : (Input.load world ["a", "a-b.php"]).result = .ok report :=
    Input.load_of_fileReports (by simp) expanded read
  obtain ⟨_, _, _, located, increasing, _, _⟩ := list_places_increase known loaded
  exact ⟨known, loaded, located, by decide +kernel, increasing⟩

/-- Two files of a directory have names that are no texts and are shown alike, so their functions are
listed at the same place. -/
theorem list_places_coincide :
    let text := "function f() {}\n"
    let names : List Path := [0xFE :: Path.ofText ".php", 0xFF :: Path.ofText ".php"]
    let tree : FileTree :=
      ⟨[(.ofText "d", .directory (names.map fun name => (name, .file text.toUTF8)))], []⟩
    let world : World := ⟨tree.system, ByteArray.empty⟩
    let report : Report := List.replicate 2 ⟨"d/\uFFFD.php", Function.ofSource text⟩
    let listed := list world ["d"] "text"
    (Input.load world ["d"]).result = .ok report ∧ listed.status = 0 ∧
      listed.output = "d/\uFFFD.php:1  f  missing\nd/\uFFFD.php:1  f  missing\n" ++
        "2 functions: 0 documented, 2 missing, 0 stale\n" ∧
      report.entries.map Report.place = ["d/\uFFFD.php:1", "d/\uFFFD.php:1"] ∧
      ¬ report.entries.Pairwise fun first second =>
        Input.comparePlaces (.ofText first.1, first.2) (.ofText second.1, second.2) = .lt := by
  intro text names tree world report listed
  let expansion := names.map (Path.join (.ofText "d"))
  have gathered : (Input.gather world.files ["d"]).result = .ok expansion := by decide +kernel
  have expanded : (Input.paths world.files ["d"]).result = .ok expansion :=
    Input.paths_of_ordered gathered (by decide +kernel)
  have read : (Input.fileReports world.files expansion).result = .ok report := by decide +kernel
  have loaded : (Input.load world ["d"]).result = .ok report :=
    Input.load_of_fileReports (by simp) expanded read
  have known : Format.ofName "text" = .ok .text := rfl
  have listed_eq : listed = ⟨0, report.render .text, (Input.load world ["d"]).events.map .event⟩ :=
    reporting_of_load known loaded _
  rw [listed_eq]
  refine ⟨loaded, rfl, ?_, ?_, ?_⟩
  all_goals decide +kernel

end Program

end DocBlock
