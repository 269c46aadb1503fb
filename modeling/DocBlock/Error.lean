import DocBlock.Path

/-! Why a run, or one request of it, fails, and how the failure reads. -/

namespace DocBlock

inductive Error
  | fileNotFound (path : Path)
  | unreadable (path : Path) (reason : String)
  | unknownFormat (format : String)
  /-- Any failure while asking the completion service for a doc block. -/
  | generation (reason : String)
  deriving DecidableEq, Repr

namespace Error

def message : Error → String
  | fileNotFound path => s!"File not found: {path.shown}"
  | unreadable path reason => s!"failed to read {path.shown}: {reason}"
  | unknownFormat format => s!"unknown format: {format}. Use text or json"
  | generation reason => s!"An error occurred while trying to get the doc block: {reason}"

/-- What a text that is not UTF-8 is called. -/
def notUtf8 : String := "stream did not contain valid UTF-8"

end Error

end DocBlock
