import DocBlock.Program
import DocBlock.Proofs.Input

/-! What is listed and what is checked. Main statement: a check writes the list with all but the
stale functions taken out of it, and fails exactly if one is left. -/

namespace DocBlock

theorem Function.isStale_eq (function : Function) :
    function.isStale = decide (function.status = .stale) := by
  unfold isStale status
  cases function.hasDocComment <;> cases function.parametersMatch <;> rfl

namespace Report

/-- The functions of a report in order, each with the path of its file. -/
def entries (report : Report) : List (String × Function) :=
  report.flatMap fun file => file.functions.map (file.path, ·)

/-- A file with only its functions of one status; none if there are no such. -/
def fileWithStatus? (status : Status) (file : FileReport) : Option FileReport :=
  let functions := file.functions.filter (·.status = status)
  if functions = [] then none else some ⟨file.path, functions⟩

/-- The functions of one status, and the files that have such. -/
def withStatus (status : Status) (report : Report) : Report :=
  report.filterMap (fileWithStatus? status)

/-- The line ends in `stale (...)`. -/
def IsStaleLine (line : String) : Prop :=
  "  stale (".toList <:+: line.toList ∧ ")\n".toList <:+ line.toList

instance : DecidablePred IsStaleLine := fun _ => inferInstanceAs (Decidable (_ ∧ _))

variable {report : Report} {status : Status} {path : String} {function : Function}

theorem functionLines_eq : report.functionLines =
    report.entries.map fun entry => functionLine entry.1 entry.2 := by
  simp [functionLines, entries, List.map_flatMap, Function.comp_def]

theorem count_eq : report.count status = report.entries.countP (·.2.status = status) := by
  simp [count, functions, entries, List.countP_flatMap, Function.comp_def]

theorem stale_eq_withStatus : report.stale = report.withStatus .stale := by
  induction report with
  | nil => rfl
  | cons file report ih =>
      rw [stale, withStatus] at ih ⊢
      rw [List.map_cons, List.filter_cons, List.filterMap_cons, fileWithStatus?, ← ih]
      have same : file.functions.filter Function.isStale =
          file.functions.filter (·.status = .stale) := by
        exact List.filter_congr fun function _ => function.isStale_eq
      rw [same]
      by_cases empty : file.functions.filter (·.status = .stale) = []
      · simp only [empty, List.isEmpty_nil]
        rfl
      · simp only [empty, List.isEmpty_eq_false_iff.mpr empty]
        rfl

theorem entries_fileWithStatus? (file : FileReport) :
    entries (fileWithStatus? status file).toList = (entries [file]).filter (·.2.status = status) := by
  have kept : (entries [file]).filter (·.2.status = status) =
      (file.functions.filter (·.status = status)).map (file.path, ·) := by
    rw [entries, List.flatMap_singleton, List.filter_map]
    rfl
  rw [kept, fileWithStatus?]
  by_cases empty : file.functions.filter (·.status = status) = []
  · simp only [empty]
    rfl
  · simp only [empty]
    simp [entries]

theorem withStatus_cons (file : FileReport) (report : Report) :
    withStatus status (file :: report) =
      (fileWithStatus? status file).toList ++ report.withStatus status := by
  rw [withStatus, List.filterMap_cons]
  cases fileWithStatus? status file <;> rfl

theorem entries_withStatus :
    (report.withStatus status).entries = report.entries.filter (·.2.status = status) := by
  induction report with
  | nil => rfl
  | cons file report ih =>
      calc
        _ = entries (fileWithStatus? status file).toList ++ (withStatus status report).entries := by
          rw [withStatus_cons, entries, List.flatMap_append]
          rfl
        _ = (entries [file] ++ entries report).filter (·.2.status = status) := by
          rw [entries_fileWithStatus?, ih, List.filter_append]
        _ = _ := by rw [entries, entries, ← List.flatMap_append]; rfl

theorem withStatus_eq_nil_iff : report.withStatus status = [] ↔ report.count status = 0 := by
  have filesHaveNone : report.withStatus status = [] ↔
      ∀ file ∈ report, ∀ function ∈ file.functions, function.status ≠ status := by
    simp [withStatus, fileWithStatus?]
  rw [filesHaveNone, count, List.countP_eq_zero, functions, List.forall_mem_flatMap]
  simp

theorem count_withStatus (other : Status) : (report.withStatus status).count other =
    if other = status then report.count status else 0 := by
  rw [count_eq, entries_withStatus, List.countP_filter, count_eq]
  by_cases same : other = status
  · simp [same]
  · rw [if_neg same, List.countP_eq_zero]
    intro entry _ both
    simp only [Bool.and_eq_true, decide_eq_true_eq] at both
    exact same (both.1.symm.trans both.2)

theorem functionLines_withStatus : (report.withStatus status).functionLines =
    (report.entries.filter (·.2.status = status)).map fun entry => functionLine entry.1 entry.2 := by
  rw [functionLines_eq, entries_withStatus]

theorem functionLine_eq : functionLine path function =
    s!"{path}:{function.line}  {function.name}" ++ "  " ++ statusText function ++ "\n" :=
  rfl

theorem isStaleLine_of_stale (stale : function.status = .stale) :
    IsStaleLine (functionLine path function) := by
  have text : ∃ inside, statusText function = "stale (" ++ inside ++ ")" := by
    refine ⟨s!"doc: {nameList function.documented}; code: {nameList function.declared}", ?_⟩
    rw [statusText, stale]
    simp [toString, ← String.toList_inj]
  obtain ⟨inside, text⟩ := text
  rw [IsStaleLine, functionLine_eq, text]
  generalize s!"{path}:{function.line}  {function.name}" = front
  constructor
  · exact ⟨front.toList, inside.toList ++ ")\n".toList, by simp⟩
  · exact ⟨front.toList ++ "  stale (".toList ++ inside.toList, by simp⟩

theorem not_isStaleLine (front : String) {status : Status} (other : status ≠ .stale) :
    ¬ IsStaleLine (front ++ "  " ++ status.word ++ "\n") := by
  intro line
  have suffix : ")\n".toList <:+ front.toList ++ ("  " ++ status.word ++ "\n").toList := by
    simpa using line.2
  have inside : ")\n".toList <:+ ("  " ++ status.word ++ "\n").toList := by
    apply List.suffix_of_suffix_length_le suffix (List.suffix_append _ _)
    simp
  cases status with
  | documented => exact absurd inside (by decide)
  | missing => exact absurd inside (by decide)
  | stale => exact other rfl

theorem isStaleLine_functionLine :
    IsStaleLine (functionLine path function) ↔ function.status = .stale := by
  refine ⟨fun line => ?_, isStaleLine_of_stale⟩
  by_contra other
  have text : statusText function = function.status.word := by
    rw [statusText]
    split
    · contradiction
    · rfl
  rw [functionLine_eq, text] at line
  exact not_isStaleLine _ other line

theorem summaryLine_stale (count : Nat) :
    let noun := if count = 1 then "function" else "functions"
    summaryLine 0 0 count = s!"{count} {noun}: 0 documented, 0 missing, {count} stale\n" := by
  intro noun
  rw [← String.toList_inj]
  simp [summaryLine, toString, noun]

theorem functionLines_withStatus_stale : (report.withStatus .stale).functionLines =
    report.functionLines.filter (IsStaleLine ·) := by
  rw [functionLines_withStatus, functionLines_eq, List.filter_map]
  congr 1
  apply List.filter_congr
  intro entry _
  simp [isStaleLine_functionLine]

end Report

namespace Program

variable {world : World} {inputs : List String} {name : String} {format : Format} {report : Report}

theorem reporting_of_load (known : Format.ofName name = .ok format)
    (loaded : (Input.load world inputs).result = .ok report)
    (proceed : List Log.Event → Report → Format → Outcome) :
    reporting world inputs name proceed =
      proceed (Input.load world inputs).events report format := by
  simp only [reporting, known, withReport, loaded]

/-- A check is the list of the stale functions alone. -/
theorem check_lists_stale (known : Format.ofName name = .ok format)
    (loaded : (Input.load world inputs).result = .ok report) :
    let listed := list world inputs name
    let checked := check world inputs name
    let kept := report.withStatus .stale
    let lines := report.functionLines
    let stale := report.count .stale
    let noun := if stale = 1 then "function" else "functions"
    listed.status = 0 ∧ listed.output = report.render format ∧
      checked.output = kept.render format ∧
      kept.entries = report.entries.filter (·.2.status = .stale) ∧
      checked.status = (if kept = [] then 0 else 1) ∧ (kept = [] ↔ stale = 0) ∧
      (format = .text →
        listed.output = String.join lines ++
          Report.summaryLine (report.count .documented) (report.count .missing) stale ∧
        checked.output = String.join (lines.filter (Report.IsStaleLine ·)) ++
          s!"{stale} {noun}: 0 documented, 0 missing, {stale} stale\n") := by
  intro listed checked kept lines stale noun
  have list_eq : listed = ⟨0, report.render format, (Input.load world inputs).events.map .event⟩ :=
    reporting_of_load known loaded _
  have check_eq : checked = ⟨if kept.isEmpty then 0 else 1, kept.render format,
      (Input.load world inputs).events.map .event⟩ := by
    have kept_eq : kept = report.stale := Report.stale_eq_withStatus.symm
    rw [kept_eq]
    exact reporting_of_load known loaded _
  rw [list_eq, check_eq]
  refine ⟨rfl, rfl, rfl, Report.entries_withStatus, ?_, Report.withStatus_eq_nil_iff, ?_⟩
  · simp only [List.isEmpty_iff]
  · rintro rfl
    refine ⟨rfl, ?_⟩
    calc
      kept.render .text = String.join kept.functionLines ++
          Report.summaryLine (kept.count .documented) (kept.count .missing) (kept.count .stale) :=
        rfl
      _ = String.join (lines.filter (Report.IsStaleLine ·)) ++ Report.summaryLine 0 0 stale := by
        simp only [kept, Report.functionLines_withStatus_stale, Report.count_withStatus]
        rfl
      _ = _ := by rw [Report.summaryLine_stale stale]

/-- One function of each status, of which the second is stale. -/
theorem check_lists_stale_standard_input :
    let text := "/** @param int $a */\nfunction e($a) {}\n" ++
      "/** @param int $b */\nfunction f($a) {}\nfunction g() {}\n"
    let world : World := ⟨(FileTree.mk [] []).system, text.toUTF8⟩
    Format.ofName "txt" = .ok .text ∧
      (Input.load world []).result = .ok [⟨"<stdin>", Function.ofSource text⟩] ∧
      (list world [] "txt").status = 0 ∧
      (list world [] "txt").output = "<stdin>:2  e  documented\n" ++
        "<stdin>:4  f  stale (doc: $b; code: $a)\n" ++ "<stdin>:5  g  missing\n" ++
        "3 functions: 1 documented, 1 missing, 1 stale\n" ∧
      (check world [] "txt").status = 1 ∧
      (check world [] "txt").output = "<stdin>:4  f  stale (doc: $b; code: $a)\n" ++
        "1 function: 0 documented, 0 missing, 1 stale\n" := by
  intro text world
  have known : Format.ofName "txt" = .ok .text := rfl
  have loaded := Input.load_standard (FileTree.mk [] []).system text
  obtain ⟨passes, listed, checked, _, fails, _⟩ := check_lists_stale known loaded
  refine ⟨known, loaded, passes, listed.trans ?_, fails.trans ?_, checked.trans ?_⟩
  all_goals decide +kernel

end Program

end DocBlock
