import DocBlock.Proofs.Identifier
import DocBlock.Proofs.Place

/-! Reports as lines of text. Main statement: where the paths hold no line feed, the report of functions
from any source texts has one line for each function, with its place, its name and its status, and one
line more, which counts the lines of each status. -/

namespace DocBlock

/-- Neither the name of a function nor that of a parameter goes on to another line. -/
structure Function.NamesUnbroken (function : Function) : Prop where
  name : '\n' ∉ function.name.toList
  declared : ∀ parameter ∈ function.declared, '\n' ∉ parameter.name.toList
  documented : ∀ parameter ∈ function.documented, '\n' ∉ parameter.name.toList

/-- Names are read as words, and those of tags up to the next blank, and a line feed is a blank. -/
theorem Function.namesUnbroken_of_mem {code : String} {function : Function}
    (member : function ∈ ofSource code) : function.NamesUnbroken := by
  obtain ⟨declaration, scanned, rfl⟩ := List.mem_map.mp member
  have notWord : Text.isWord '\n' = false := Text.isWord_eq_false_of_isBlank rfl
  constructor
  · obtain ⟨block, _, _, _, rfl, stands⟩ := Declaration.mem_scan scanned
    change '\n' ∉ (String.ofList block.signature.name).toList
    rw [String.toList_ofList]
    exact stands.wellFormed.signature.name.notMem notWord
  · intro parameter listed
    exact (Parameter.isIdentifier_of_mem_declared listed).notMem notWord
  · intro parameter listed
    obtain ⟨doc, _, tag⟩ := exists_mem_documented listed
    obtain ⟨_, tagged⟩ := Parameter.exists_taggedIn_of_mem_documented tag
    exact tagged.name_isRun.notMem rfl

namespace Report

/-- What the line of a function says after its name: its status, and where it is stale the names on both
sides. -/
inductive Shows (function : Function) : String → Prop
  | documented : function.status = .documented → Shows function "documented"
  | missing : function.status = .missing → Shows function "missing"
  | stale : function.status = .stale → Shows function
      ("stale (doc: " ++ nameList function.documented ++ "; code: " ++
        nameList function.declared ++ ")")

/-- The line of a function: its place, its name and its status, with two spaces between them. -/
def IsLineOf (entry : String × Function) (line : String) : Prop :=
  ∃ shown, line = place entry ++ "  " ++ entry.2.name ++ "  " ++ shown ∧ Shows entry.2 shown

/-- The line ends in this status. -/
def EndsIn : Status → String → Prop
  | .documented, line => "  documented".toList <:+ line.toList
  | .missing, line => "  missing".toList <:+ line.toList
  | .stale, line => "  stale (doc: ".toList <:+: line.toList ∧ ")".toList <:+ line.toList

instance : (status : Status) → DecidablePred (EndsIn status)
  | .documented => fun _ => inferInstanceAs (Decidable (_ <:+ _))
  | .missing => fun _ => inferInstanceAs (Decidable (_ <:+ _))
  | .stale => fun _ => inferInstanceAs (Decidable (_ ∧ _))

/-- The summary without its line feed. -/
def summary (documented missing stale : Nat) : String :=
  let total := documented + missing + stale
  let noun := if total = 1 then "function" else "functions"
  s!"{total} {noun}: {documented} documented, {missing} missing, {stale} stale"

/-- The line of a function without its line feed. -/
def entryLine (entry : String × Function) : String :=
  place entry ++ "  " ++ entry.2.name ++ "  " ++ statusText entry.2

section Status

variable {function : Function} {entry : String × Function} {text shown : String} {status : Status}

theorem shows_statusText (function : Function) : Shows function (statusText function) := by
  unfold statusText
  split
  · rename_i stale
    exact .stale stale
  · rename_i current
    cases status : function.status with
    | documented => exact .documented status
    | missing => exact .missing status
    | stale => exact absurd status current

theorem isLineOf_entryLine (entry : String × Function) : IsLineOf entry (entryLine entry) :=
  ⟨statusText entry.2, rfl, shows_statusText entry.2⟩

/-- The last character that a status shows. -/
def lastShown : Status → Char
  | .documented => 'd'
  | .missing => 'g'
  | .stale => ')'

theorem lastShown_injective : Function.Injective lastShown := by
  intro left right same
  cases left <;> cases right <;> first | rfl | exact absurd same (by decide)

theorem getLast?_of_endsIn (ends : EndsIn status text) :
    text.toList.getLast? = some (lastShown status) := by
  have of_suffix {back : List Char} {c : Char} (last : back.getLast? = some c)
      (suffix : back <:+ text.toList) : text.toList.getLast? = some c := by
    obtain ⟨front, split⟩ := suffix
    rw [← split, List.getLast?_append, last]
    rfl
  cases status with
  | documented => exact of_suffix rfl ends
  | missing => exact of_suffix rfl ends
  | stale => exact of_suffix rfl ends.2

theorem endsIn_of_shows (front : String) (said : Shows function shown) :
    EndsIn function.status (front ++ "  " ++ shown) := by
  cases said with
  | documented status =>
      rw [status]
      exact ⟨front.toList, by simp⟩
  | missing status =>
      rw [status]
      exact ⟨front.toList, by simp⟩
  | stale status =>
      rw [status]
      constructor
      · exact ⟨front.toList, (nameList function.documented).toList ++ ("; code: ".toList ++
          ((nameList function.declared).toList ++ [')'])), by simp⟩
      · exact ⟨front.toList ++ ("  stale (doc: ".toList ++ ((nameList function.documented).toList ++
          ("; code: ".toList ++ (nameList function.declared).toList))), by simp⟩

/-- The last characters tell the three statuses apart. -/
theorem endsIn_iff_of_isLineOf (isLine : IsLineOf entry text) :
    EndsIn status text ↔ entry.2.status = status := by
  obtain ⟨shown, rfl, said⟩ := isLine
  have own := endsIn_of_shows (place entry ++ "  " ++ entry.2.name) said
  constructor
  · intro other
    have same := (getLast?_of_endsIn own).symm.trans (getLast?_of_endsIn other)
    exact lastShown_injective (Option.some.inj same)
  · rintro rfl
    exact own

end Status

section Unbroken

variable {function : Function} {entry : String × Function}

theorem notMem_nameList {parameters : List Parameter}
    (unbroken : ∀ parameter ∈ parameters, '\n' ∉ parameter.name.toList) :
    '\n' ∉ (nameList parameters).toList := by
  unfold nameList
  split
  · decide
  · rw [String.toList_intercalate]
    apply Text.notMem_intercalate (by decide)
    intro text member
    obtain ⟨_, named, rfl⟩ := List.mem_map.mp member
    obtain ⟨parameter, listed, rfl⟩ := List.mem_map.mp named
    simpa using unbroken parameter listed

theorem notMem_entryLine (path : '\n' ∉ entry.1.toList) (unbroken : entry.2.NamesUnbroken) :
    '\n' ∉ (entryLine entry).toList := by
  have digits : '\n' ∉ Nat.toDigits 10 entry.2.line := notMem_toDigits (by decide) _
  have shown : '\n' ∉ (statusText entry.2).toList := by
    generalize statusText entry.2 = shown, shows_statusText entry.2 = said
    cases said with
    | documented => decide
    | missing => decide
    | stale =>
        have left := notMem_nameList unbroken.documented
        have right := notMem_nameList unbroken.declared
        simp [left, right]
  simp [entryLine, toList_place, path, digits, unbroken.name, shown]

theorem notMem_summary (documented missing stale : Nat) :
    '\n' ∉ (summary documented missing stale).toList := by
  have digits (n : Nat) : '\n' ∉ Nat.toDigits 10 n := notMem_toDigits (by decide) n
  have noun : ∀ n : Nat, '\n' ∉ (if n = 1 then "function" else "functions").toList := by
    intro n
    split <;> decide
  simp [summary, toString, Nat.repr, digits, noun]

end Unbroken

variable {report : Report}

theorem toList_text (report : Report) : report.text.toList =
    ((report.entries.map entryLine ++ [summary (report.count .documented) (report.count .missing)
      (report.count .stale)]).map String.toList).flatMap (· ++ ['\n']) := by
  have lines : report.functionLines = report.entries.map fun entry => entryLine entry ++ "\n" := by
    rw [functionLines_eq]
    apply List.map_congr_left
    intro entry _
    rw [functionLine_eq]
    rfl
  rw [text, lines]
  simp [summaryLine, summary, toString, List.flatMap_map]

theorem exists_file_of_mem_entries {entry : String × Function} (member : entry ∈ report.entries) :
    ∃ file ∈ report, entry.1 = file.path ∧ entry.2 ∈ file.functions := by
  obtain ⟨file, listed, inside⟩ := List.mem_flatMap.mp member
  obtain ⟨function, extracted, rfl⟩ := List.mem_map.mp inside
  exact ⟨file, listed, rfl, extracted⟩

theorem forall₂_isLineOf (entries : List (String × Function)) :
    List.Forall₂ IsLineOf entries (entries.map entryLine) := by
  rw [List.forall₂_map_right_iff, List.forall₂_same]
  exact fun entry _ => isLineOf_entryLine entry

/-- A status is shown on as many lines as there are functions that have it. -/
theorem countP_endsIn (report : Report) (status : Status) :
    (report.entries.map entryLine).countP (EndsIn status ·) = report.count status := by
  rw [count_eq, List.countP_map]
  apply List.countP_congr
  intro entry _
  simp [endsIn_iff_of_isLineOf (isLineOf_entryLine entry)]

theorem count_add_count (report : Report) :
    report.count .documented + report.count .missing + report.count .stale =
      report.entries.length := by
  simp only [count_eq]
  induction report.entries with
  | nil => rfl
  | cons entry entries ih =>
      simp only [List.countP_cons, List.length_cons, ← ih]
      cases entry.2.status <;> simp <;> omega

/-- The functions of a report have one line each, in order, and then comes one line with the numbers of
lines that end in each status. No path, name or tag breaks a line. -/
theorem text_lines (paths : ∀ file ∈ report, '\n' ∉ file.path.toList)
    (extracted : ∀ file ∈ report, ∀ function ∈ file.functions,
      ∃ code, function ∈ Function.ofSource code) :
    ∃ (lines : List String) (last : String),
      report.text.toList.splitOn '\n' = (lines ++ [last]).map String.toList ++ [[]] ∧
      lines.length = report.functions.length ∧ List.Forall₂ IsLineOf report.entries lines ∧
      let count (status : Status) := lines.countP (EndsIn status ·)
      let noun := if lines.length = 1 then "function" else "functions"
      (∀ status, count status = report.count status) ∧
      count .documented + count .missing + count .stale = lines.length ∧
      last = s!"{lines.length} {noun}: {count .documented} documented, " ++
        s!"{count .missing} missing, {count .stale} stale" := by
  let last := summary (report.count .documented) (report.count .missing) (report.count .stale)
  have unbroken : ∀ text ∈ (report.entries.map entryLine ++ [last]).map String.toList, '\n' ∉ text := by
    intro text member
    obtain ⟨_, listed, rfl⟩ := List.mem_map.mp member
    rcases List.mem_append.mp listed with ofEntry | ofCounts
    · obtain ⟨entry, present, rfl⟩ := List.mem_map.mp ofEntry
      obtain ⟨file, filed, path, inside⟩ := exists_file_of_mem_entries present
      obtain ⟨code, read⟩ := extracted file filed entry.2 inside
      exact notMem_entryLine (path ▸ paths file filed) (Function.namesUnbroken_of_mem read)
    · rw [List.mem_singleton.mp ofCounts]
      exact notMem_summary _ _ _
  have length : report.entries.length = report.functions.length := by
    simp [entries, functions, List.length_flatMap]
  refine ⟨report.entries.map entryLine, last, ?_, ?_, forall₂_isLineOf _, countP_endsIn report, ?_, ?_⟩
  · rw [toList_text, Text.splitOn_lines unbroken]
  · rw [List.length_map, length]
  · simp only [countP_endsIn, count_add_count, List.length_map]
  · simp only [countP_endsIn, List.length_map, ← count_add_count]
    simp [last, summary, ← String.toList_inj, toString]

/-- Paths that look like the end of a line, a file without functions, and a tag whose name runs on. -/
theorem text_lines_three_statuses :
    let stale := "/** @param int $b, then */\nfunction f($a) {}\nfunction g() {}\n"
    let current := "/** @param T $x */\nfunction h(T $x) {}\n"
    let report : Report := [⟨"a  documented", Function.ofSource stale⟩, ⟨"b", []⟩,
      ⟨"c  stale (doc: )", Function.ofSource current⟩]
    (∀ file ∈ report, '\n' ∉ file.path.toList) ∧
      (∀ file ∈ report, ∀ function ∈ file.functions, ∃ code, function ∈ Function.ofSource code) ∧
      ∃ (lines : List String) (last : String),
        report.text.toList.splitOn '\n' = (lines ++ [last]).map String.toList ++ [[]] ∧
        List.Forall₂ IsLineOf report.entries lines ∧
        (lines ++ [last]) = ["a  documented:2  f  stale (doc: $b,; code: $a)",
          "a  documented:3  g  missing", "c  stale (doc: ):2  h  documented",
          "3 functions: 1 documented, 1 missing, 1 stale"] := by
  intro stale current report
  have paths : ∀ file ∈ report, '\n' ∉ file.path.toList := by
    simp only [report, List.forall_mem_cons]
    exact ⟨by decide, by decide, by decide, fun _ member => absurd member List.not_mem_nil⟩
  have extracted : ∀ file ∈ report, ∀ function ∈ file.functions,
      ∃ code, function ∈ Function.ofSource code := by
    simp only [report, List.forall_mem_cons]
    exact ⟨fun _ member => ⟨stale, member⟩, fun _ member => absurd member List.not_mem_nil,
      fun _ member => ⟨current, member⟩, fun _ member => absurd member List.not_mem_nil⟩
  obtain ⟨lines, last, split, _, each, _⟩ := text_lines paths extracted
  refine ⟨paths, extracted, lines, last, split, each, ?_⟩
  have text : report.text.toList.splitOn '\n' = ["a  documented:2  f  stale (doc: $b,; code: $a)",
      "a  documented:3  g  missing", "c  stale (doc: ):2  h  documented",
      "3 functions: 1 documented, 1 missing, 1 stale"].map String.toList ++ [[]] := by
    decide +kernel
  rw [split] at text
  exact List.map_injective_iff.mpr (fun _ _ => String.toList_injective) (List.append_cancel_right text)

end Report

end DocBlock
