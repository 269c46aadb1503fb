import DocBlock.FileTree
import DocBlock.Glob.Pattern

/-! The paths of a tree that match a pattern, spelled as the pattern leads to them. -/

namespace DocBlock.Glob

/-- Whether tokens match a name; a name that is no text matches nothing. -/
def matchesEntry (tokens : List Token) (name : Path) : Bool :=
  (Text.ofUtf8? name).any (matchesName tokens)

/-- A place of a tree with the path that led to it. -/
structure Place where
  spelling : Path
  location : List Path
  deriving DecidableEq, Repr

namespace Place

/-- Where patterns start: the root for absolute ones, the working directory for all others. -/
def start (tree : FileTree) (isAbsolute : Bool) : Place :=
  if isAbsolute then ⟨[Path.slashByte], []⟩ else ⟨Path.dot, tree.here⟩

/-- Paths below the working directory are spelled without it. -/
def entrySpelling (directory entry : Path) : Path :=
  if Path.same directory Path.dot then entry else Path.join directory entry

def entry (place : Place) (name : Path) : Place :=
  ⟨entrySpelling place.spelling name, place.location ++ [name]⟩

/-- The place of a component without wildcards. A dot or two need a directory; all else has to
exist. -/
def literal (tree : FileTree) (place : Place) (name : Path) : List Place :=
  if name = [] ∧ Path.same place.spelling Path.dot then []
  else
    match tree.step? place.location name with
    | some location => [⟨entrySpelling place.spelling name, location⟩]
    | none => []

/-- The directory above and the directory itself, which only a pattern that begins with a dot
matches. -/
def special (tree : FileTree) (place : Place) (tokens : List Token) : List Place :=
  if tokens.head? = some (.char '.') then
    [Path.dotDot, Path.dot].filterMap fun name =>
      if matchesEntry tokens name then
        (tree.step? place.location name).map fun location =>
          ⟨Path.join place.spelling name, location⟩
      else none
  else []

/-- What a directory holds under names that match. -/
def entries (tree : FileTree) (place : Place) (tokens : List Token) : List Place :=
  match tree.at? place.location with
  | some (.directory entries) =>
    let names := (entries.map Prod.fst).filter (matchesEntry tokens)
    place.special tree tokens ++ names.map place.entry
  | _ => []

/-- Everything below a place, with its name. -/
def descendants (tree : FileTree) (place : Place) : List (Path × Place) :=
  let locations := (tree.at? place.location).elim [] FileNode.descendants
  locations.filterMap fun location =>
    location.getLast?.map fun name => (name, location.foldl entry place)

end Place

/-- Two stars twice in a row say what they say once. -/
def collapse : List (List Token) → List (List Token)
  | [.directories] :: [.directories] :: rest => collapse ([.directories] :: rest)
  | tokens :: rest => tokens :: collapse rest
  | [] => []

/-- The places that components lead to. -/
def walk (tree : FileTree) : List (List Token) → Place → List Place
  | [], place => [place]
  | [[.directories]], place =>
    ((place.descendants tree).map Prod.snd).filter fun found => tree.isDirectoryAt found.location
  | [.directories] :: tokens :: rest, place =>
    ((place.descendants tree).filter fun (name, _) => matchesEntry tokens name).flatMap
      fun (_, found) => walk tree rest found
  | tokens :: rest, place =>
    match literal? tokens with
    | some name => (place.literal tree (Path.ofText name)).flatMap (walk tree rest)
    | none => (place.entries tree tokens).flatMap (walk tree rest)

/-- The spellings of everything that matches. -/
def Pattern.paths (pattern : Pattern) (tree : FileTree) : List Path :=
  let places := walk tree (collapse pattern.components) (Place.start tree pattern.isAbsolute)
  let kept := places.filter fun place =>
    !pattern.directoriesOnly || tree.isDirectoryAt place.location
  kept.map Place.spelling

end DocBlock.Glob
