import DocBlock.Path

/-! Trees of files without links, seen from a working directory. Names are bytes, as paths are. -/

namespace DocBlock

inductive FileNode
  | file (content : ByteArray)
  | directory (entries : List (Path × FileNode))

namespace FileNode

def isDirectory : FileNode → Bool
  | file _ => false
  | directory _ => true

def entries : FileNode → List (Path × FileNode)
  | file _ => []
  | directory entries => entries

def entry? (node : FileNode) (name : Path) : Option FileNode :=
  node.entries.lookup name

mutual

/-- The locations of everything below a node, relative to it. -/
def descendants : FileNode → List (List Path)
  | file _ => []
  | directory entries => descendantsOfEntries entries

def descendantsOfEntries : List (Path × FileNode) → List (List Path)
  | [] => []
  | (name, node) :: entries =>
    [name] :: (descendants node).map (name :: ·) ++ descendantsOfEntries entries

end

end FileNode

/-- The entries of the root, and the location of the working directory as names from the root
down. -/
structure FileTree where
  entries : List (Path × FileNode)
  here : List Path

namespace FileTree

def top (tree : FileTree) : FileNode := .directory tree.entries

/-- What stands at a location. -/
def at? (tree : FileTree) (location : List Path) : Option FileNode :=
  location.foldlM FileNode.entry? tree.top

def isDirectoryAt (tree : FileTree) (location : List Path) : Bool :=
  (tree.at? location).any FileNode.isDirectory

/-- Puts an entry at the place of its name, among entries in the order of theirs. -/
def setEntry (name : Path) (node : FileNode) :
    List (Path × FileNode) → List (Path × FileNode)
  | [] => [(name, node)]
  | (other, kept) :: entries =>
    if name < other then (name, node) :: (other, kept) :: entries
    else if name = other then (name, node) :: entries
    else (other, kept) :: setEntry name node entries

/-- Puts a file at a location, making the directories above it. -/
def putFile (content : ByteArray) :
    (location : List Path) → List (Path × FileNode) → List (Path × FileNode)
  | [], entries => entries
  | [name], entries => setEntry name (.file content) entries
  | name :: next :: location, entries =>
    let inner := (entries.lookup name).elim [] FileNode.entries
    setEntry name (.directory (putFile content (next :: location) inner)) entries

/-- Makes the directories along a location. -/
def putDirectory :
    (location : List Path) → List (Path × FileNode) → List (Path × FileNode)
  | [], entries => entries
  | name :: location, entries =>
    let inner := (entries.lookup name).elim [] FileNode.entries
    setEntry name (.directory (putDirectory location inner)) entries

/-- A tree of which only the working directory is known. -/
def ofWorkingDirectory (here : List Path) (entries : List (Path × FileNode)) : FileTree :=
  match here.foldr (fun name inner => .directory [(name, inner)]) (FileNode.directory entries) with
  | .directory entries => ⟨entries, here⟩
  | .file _ => ⟨[], here⟩

/-- The location one piece of a path further; none if the tree has no such place. Every piece is
looked for in a directory, and nothing is above the root. -/
def step? (tree : FileTree) (location : List Path) (piece : Path) : Option (List Path) :=
  if !tree.isDirectoryAt location then none
  else if piece = [] ∨ piece = Path.dot then some location
  else if piece = Path.dotDot then some location.dropLast
  else
    let inner := location ++ [piece]
    (tree.at? inner).map fun _ => inner

def isAbsolute (path : Path) : Bool := path.head? = some Path.slashByte

/-- The location of a path; none for an empty path and one that leads nowhere. -/
def locate? (tree : FileTree) (path : Path) : Option (List Path) :=
  if path = [] then none
  else (Path.pieces path).foldlM tree.step? (if isAbsolute path then [] else tree.here)

def node? (tree : FileTree) (path : Path) : Option FileNode :=
  (tree.locate? path).bind tree.at?

def isFile (tree : FileTree) (path : Path) : Bool :=
  (tree.node? path).any fun node => !node.isDirectory

def isDirectory (tree : FileTree) (path : Path) : Bool :=
  (tree.node? path).any FileNode.isDirectory

/-- The bytes of a regular file. -/
def content? (tree : FileTree) (path : Path) : Option ByteArray :=
  match tree.node? path with
  | some (.file content) => some content
  | _ => none

end FileTree

end DocBlock
