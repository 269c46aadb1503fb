import DocBlock.Proofs.Report

/-! Whole runs over a transport. Main statement: every function that lacks a doc block is asked for
once, in the order of the report, whatever the answers; the doc blocks among the answers are
written in that order, and the others are counted. -/

namespace DocBlock

namespace Completion

variable {σ : Type}

/-- The same transport, which keeps the requests in the order in which it gets them. -/
def Transport.recording (transport : Transport σ) : Transport (List Request × σ) where
  send request state :=
    let (answer, next) := transport.send request state.2
    (answer, state.1 ++ [request], next)

/-- What comes back on requests sent in turn. -/
def Transport.answers (transport : Transport σ) : List Request → σ → List Answer
  | [], _ => []
  | request :: requests, state =>
    let (answer, next) := transport.send request state
    answer :: transport.answers requests next

/-- A transport that gives prepared answers, and fails when it has none left. -/
def Transport.prepared : Transport (List Answer) where
  send _ state :=
    match state with
    | [] => (⟨.error (.generation "no answer left"), []⟩, [])
    | answer :: answers => (answer, answers)

variable (transport : Transport σ) (model function : String) (state : σ)

theorem attempt_recording (seen : List Request) :
    attempt transport.recording model function (seen, state) =
      ((attempt transport model function state).1,
        seen ++ [Request.ofFunction model function],
        (attempt transport model function state).2) :=
  rfl

end Completion

namespace Generate

open Completion

variable {σ : Type} (transport : Transport σ) (model : String)

def Target.request (target : Target) : Request := .ofFunction model target.function.body

/-- Recording changes nothing, and what it records is one request for each target. -/
theorem results_recording (targets : List Target) (seen : List Request) (state : σ) :
    results transport.recording model targets (seen, state) =
      ((results transport model targets state).1, seen ++ targets.map (Target.request model),
        (results transport model targets state).2) := by
  -- One target adds one request to whatever is on record, so the record is kept general.
  induction targets generalizing seen state with
  | nil => simp [results]
  | cons target targets ih =>
      rw [results, attempt_recording]
      simp only [ih]
      simp [results, Target.request]

/-- A doc block as it is written, below the place of its function. -/
def Target.written (target : Target) (block : String) : String :=
  s!"// {target.path}:{target.function.line} {target.function.name}\n" ++
    s!"{String.ofList (Text.trim block.toList)}\n\n"

theorem targets_eq_filter (includeStale : Bool) (report : Report) : targets includeStale report =
    (report.entries.filter (wants includeStale ·.2)).map fun entry => ⟨entry.1, entry.2⟩ := by
  rw [targets, Report.entries, List.filter_flatMap, List.map_flatMap]
  congr 1
  funext file
  rw [List.filter_map, List.map_map]
  rfl

end Generate

namespace Program

open Completion Generate

variable {world : World} {inputs : List String} {report : Report}

/-- What a recorded run has asked for, and that it is the run that is not recorded otherwise. -/
theorem generate_recording {σ : Type} (loaded : (Input.load world inputs).result = .ok report)
    (transport : Transport σ) (includeStale : Bool) (model : String) (state : σ) :
    let run := generate world transport inputs includeStale model state
    generate world transport.recording inputs includeStale model ([], state) =
      (run.1, (targets includeStale report).map (Target.request model), run.2) := by
  simp only [generate, withReport, loaded, results_recording, List.nil_append]

end Program

end DocBlock
