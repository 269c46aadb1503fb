import DocBlock.Failure
import DocBlock.FileSystem
import DocBlock.Report

/-! From the arguments of a run to the functions of every input. One input that cannot be read ends
the run before anything is reported. -/

namespace DocBlock

/-- A result together with the log events on the way to it. -/
structure Logged (α : Type) where
  events : List Log.Event
  result : α

/-- Where a run reads from: files and the bytes of the standard input. -/
structure World where
  files : FileSystem
  input : ByteArray

namespace Input

/-- The extensions of the files that a directory stands for. -/
def extensions : List Path := ["php", "phtml", "inc"].map Path.ofText

def isSource (name : Path) : Bool := (Path.extension? name).any extensions.contains

/-- The source files directly in a directory, spelled below it. -/
def directoryPaths (files : FileSystem) (directory : Path) : Except Failure (List Path) :=
  match files.names directory with
  | .error reason => .error (.unreadableDirectory directory reason)
  | .ok names =>
    let sources := names.filter fun name => files.isFile (Path.join directory name) && isSource name
    .ok (sources.map (Path.join directory))

def isGlob (argument : String) : Bool :=
  argument.toList.any fun c => c == '*' || c == '?' || c == '['

def unmatchedEvent (pattern : String) : Log.Event :=
  ⟨.warn, "phpdocgen", s!"no files matched: {pattern}", []⟩

/-- The paths one argument stands for: a file itself, a directory's source files, a pattern's
matching files, and itself again where it is none of these. -/
def argumentPaths (files : FileSystem) (argument : String) : Except Failure (Logged (List Path)) :=
  let path := Path.ofText argument
  if files.isFile path then .ok ⟨[], [path]⟩
  else if files.isDirectory path then (Logged.mk [] ·) <$> directoryPaths files path
  else if !isGlob argument then .ok ⟨[], [path]⟩
  else
    match Glob.Pattern.parse argument with
    | .error error => .error (.invalidPattern argument error)
    | .ok pattern =>
      let matched := (files.matching pattern).filter files.isFile
      .ok ⟨if matched.isEmpty then [unmatchedEvent argument] else [], matched⟩

/-- The paths of all arguments, up to the first that stands for none. -/
def gather (files : FileSystem) : List String → Logged (Except Failure (List Path))
  | [] => ⟨[], .ok []⟩
  | argument :: arguments =>
    match argumentPaths files argument with
    | .error failure => ⟨[], .error failure⟩
    | .ok first =>
      let others := gather files arguments
      ⟨first.events ++ others.events, (first.result ++ ·) <$> others.result⟩

/-- The paths of all arguments in order, each once. -/
def paths (files : FileSystem) (arguments : List String) : Logged (Except Failure (List Path)) :=
  let gathered := gather files arguments
  ⟨gathered.events, Path.sorted <$> gathered.result⟩

/-- The text of a file. -/
def readFile (files : FileSystem) (path : Path) : Except Error String :=
  match files.content? path with
  | none => .error (.fileNotFound path)
  | some (.error reason) => .error (.unreadable path reason)
  | some (.ok content) =>
    match String.fromUTF8? content with
    | none => .error (.unreadable path Error.notUtf8)
    | some text => .ok text

/-- The functions of a text, with a warning for each body that never closes. -/
def readText (text : String) : Logged (List Function) :=
  let functions := Function.ofSource text
  ⟨functions.filterMap Function.unclosedWarning?, functions⟩

def extractedEvent (path : Path) (count : Nat) : Log.Event :=
  ⟨.debug, "phpdocgen::parser", "extracted functions",
    [("path", path.shown), ("count", toString count)]⟩

/-- The functions of a file. -/
def fileFunctions (files : FileSystem) (path : Path) : Except Error (Logged (List Function)) := do
  let read := readText (← readFile files path)
  return ⟨read.events ++ [extractedEvent path read.result.length], read.result⟩

/-- The reports of files under their paths as they are shown, up to the first that cannot be read. -/
def fileReports (files : FileSystem) : List Path → Logged (Except Failure Report)
  | [] => ⟨[], .ok []⟩
  | path :: paths =>
    match fileFunctions files path with
    | .error error => ⟨[], .error (.plain error)⟩
    | .ok read =>
      let others := fileReports files paths
      ⟨read.events ++ others.events, (⟨path.shown, read.result⟩ :: ·) <$> others.result⟩

/-- The report of the standard input. -/
def standardReport (input : ByteArray) : Logged (Except Failure Report) :=
  match String.fromUTF8? input with
  | none => ⟨[], .error .unreadableInput⟩
  | some text =>
    let read := readText text
    ⟨read.events, .ok [⟨"<stdin>", read.result⟩]⟩

/-- The report of everything the arguments select, or of the standard input where there are none. -/
def load (world : World) (arguments : List String) : Logged (Except Failure Report) :=
  if arguments.isEmpty then standardReport world.input
  else
    let selected := paths world.files arguments
    match selected.result with
    | .error failure => ⟨selected.events, .error failure⟩
    | .ok paths =>
      let read := fileReports world.files paths
      ⟨selected.events ++ read.events, read.result⟩

end Input

end DocBlock
