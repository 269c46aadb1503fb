import DocBlock.Error
import DocBlock.Glob.Pattern

/-! What ends a run early, with its cause. -/

namespace DocBlock

inductive Failure
  | plain (error : Error)
  | invalidPattern (pattern : String) (error : Glob.PatternError)
  | unreadableDirectory (path : Path) (reason : String)
  /-- The standard input is not UTF-8. -/
  | unreadableInput
  deriving DecidableEq, Repr

namespace Failure

def message : Failure → String
  | plain error => error.message
  | invalidPattern pattern _ => s!"invalid glob pattern: {pattern}"
  | unreadableDirectory path _ => s!"failed to read directory: {path.shown}"
  | unreadableInput => "failed to read stdin"

def cause? : Failure → Option String
  | plain (.unreadable _ reason) => some reason
  | plain _ => none
  | invalidPattern _ error => some error.message
  | unreadableDirectory _ reason => some reason
  | unreadableInput => some Error.notUtf8

def text (failure : Failure) : String :=
  let cause := failure.cause?.elim "" fun cause => s!"\nCaused by:\n    {cause}\n"
  s!"Error: {failure.message}\n{cause}"

end Failure

end DocBlock
