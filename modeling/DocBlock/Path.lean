import DocBlock.Text.Utf8

/-! Paths as they are spelled, in bytes, and the order and equality of paths by their components. -/

namespace DocBlock

/-- A path, or one name of a directory, in the bytes that spell it. -/
abbrev Path := List UInt8

namespace Path

def slashByte : UInt8 := 0x2F

def dotByte : UInt8 := 0x2E

/-- The name of a directory in itself. -/
def dot : Path := [dotByte]

/-- The name of the directory above. -/
def dotDot : Path := [dotByte, dotByte]

/-- The path that a text spells. -/
def ofText (text : String) : Path := Text.utf8 text.toList

/-- A path as it is shown, with a replacement character for each fault where no text spells it. -/
def shown (path : Path) : String := .ofList (Text.shown path)

@[simp] theorem shown_ofText (text : String) : shown (ofText text) = text := by
  simp [shown, ofText]

inductive Component
  | root
  | current
  | parent
  | name (spelling : Path)
  deriving DecidableEq, Repr

def Component.rank : Component → Nat
  | .root => 0
  | .current => 1
  | .parent => 2
  | .name _ => 3

def Component.spelling : Component → Path
  | .name spelling => spelling
  | _ => []

def Component.compare (left right : Component) : Ordering :=
  (Ord.compare left.rank right.rank).then (Ord.compare left.spelling right.spelling)

/-- The pieces between slashes, empty ones included. -/
def pieces (path : Path) : List Path := path.splitOn slashByte

def Component.ofPiece (piece : Path) : Component :=
  if piece = dotDot then .parent else .name piece

/-- Repeated slashes, slashes at the end and dots are no components, except a dot at the start. -/
def components (path : Path) : List Component :=
  let named := ((pieces path).filter fun piece => piece ≠ [] ∧ piece ≠ dot).map Component.ofPiece
  let first := (pieces path).head?
  if path = [] then []
  else if first = some [] then .root :: named
  else if first = some dot then .current :: named
  else named

/-- The order of paths, component by component. -/
def compare (left right : Path) : Ordering :=
  List.compareLex Component.compare (components left) (components right)

def same (left right : Path) : Bool := components left = components right

def endsInSlash (path : Path) : Bool := path.getLast? = some slashByte

/-- The spelling of an entry below a directory; a slash at the directory's end is not repeated. -/
def join (directory entry : Path) : Path :=
  if directory = [] ∨ endsInSlash directory then directory ++ entry
  else directory ++ slashByte :: entry

/-- What follows the last dot. -/
def afterLastDot? : List UInt8 → Option (List UInt8)
  | [] => none
  | byte :: bytes => (afterLastDot? bytes).or (if byte = dotByte then some bytes else none)

/-- What follows the last dot of an entry's name; none where nothing stands before that dot. -/
def extension? (name : Path) : Option (List UInt8) :=
  if name = dotDot then none else afterLastDot? name.tail

/-- Drops every path that equals the one before it, which keeps its spelling. -/
def dropRepeats : (before : Option Path) → List Path → List Path
  | _, [] => []
  | before, path :: paths =>
    if before.any (same · path) then dropRepeats before paths
    else path :: dropRepeats (some path) paths

/-- The paths in order, each once, in the spelling that came first. -/
def sorted (paths : List Path) : List Path :=
  dropRepeats none (paths.mergeSort fun left right => (compare left right).isLE)

example : dropRepeats none (["./a", "a//z", "a/./z", "a-b"].map ofText) =
    ["./a", "a//z", "a-b"].map ofText := by
  decide +kernel
example : compare (ofText "a/z") (ofText "a-b") = .lt ∧
    compare (ofText "./a") (ofText "a") = .lt := by
  decide +kernel
example : extension? (ofText "a.php") = some (ofText "php") ∧ extension? (ofText ".php") = none ∧
    extension? (ofText "a") = none := by
  decide +kernel

end Path

end DocBlock
