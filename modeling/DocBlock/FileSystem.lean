import DocBlock.Glob.Walk

/-! What a run can learn of files. -/

namespace DocBlock

/-- The answers of a system to what is asked about paths. Links are followed, what may not be looked
at is neither a file nor a directory, and no answer changes during a run. -/
structure FileSystem where
  /-- Whether a path leads to a regular file. -/
  isFile : Path → Bool
  isDirectory : Path → Bool
  /-- The names in a directory, as they are listed, or why there is no listing. -/
  names : Path → Except String (List Path)
  /-- The bytes of a file, or why they cannot be had. -/
  read : Path → Except String ByteArray
  /-- The paths that match a pattern, wherever directories can be listed. -/
  matching : Glob.Pattern → List Path

namespace FileSystem

/-- What comes of reading a path; none if it leads to no regular file. -/
def content? (files : FileSystem) (path : Path) : Option (Except String ByteArray) :=
  if files.isFile path then some (files.read path) else none

end FileSystem

namespace FileTree

/-- In a tree every file can be read and every directory listed. -/
def system (tree : FileTree) : FileSystem where
  isFile := tree.isFile
  isDirectory := tree.isDirectory
  names path :=
    match tree.node? path with
    | some (.directory entries) => .ok (entries.map Prod.fst)
    | _ => .error "Not a directory (os error 20)"
  read path :=
    match tree.content? path with
    | some content => .ok content
    | none => .error "No such file or directory (os error 2)"
  matching pattern := pattern.paths tree

end FileTree

end DocBlock
