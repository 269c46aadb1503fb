import DocBlock.Program

/-! The program on a machine: the files of its working directory, its standard streams and its
environment. -/

namespace DocBlock.Machine

/-- The program opens no connections of its own, so no request gets through. -/
def offline : Completion.Settings → Completion.Transport Unit := fun _ =>
  ⟨fun _ state => (⟨.error (.generation "no connection"), []⟩, state)⟩

/-- The entries of a directory in the order of their names. -/
def inOrder (entries : Array (Path × FileNode)) : List (Path × FileNode) :=
  entries.toList.mergeSort fun left right => (compare left.1 right.1).isLE

/-- An entry of a directory with everything under it; the contents of files are left out. -/
partial def outline (entry : IO.FS.DirEntry) : IO (Path × FileNode) := do
  let name := Path.ofText entry.fileName
  if ← entry.path.isDir then
    let entries ← (← entry.path.readDir).mapM outline
    return (name, .directory (inOrder entries))
  else
    return (name, .file ByteArray.empty)

/-- The tree of the working directory, with the contents of the files that the inputs select. -/
def readTree (inputs : List String) : IO FileTree := do
  let directory ← IO.currentDir
  let mut entries := inOrder (← (← directory.readDir).mapM outline)
  let tree := FileTree.ofWorkingDirectory [] entries
  if let .ok paths := (Input.paths tree.system inputs).result then
    for path in paths do
      if let some location := tree.locate? path then
        if tree.isFile path then
          entries := FileTree.putFile (← IO.FS.readBinFile path.shown) location entries
  return FileTree.ofWorkingDirectory [] entries

partial def readAll (stream : IO.FS.Stream) (bytes : ByteArray) : IO ByteArray := do
  let more ← stream.read 65536
  if more.isEmpty then return bytes else readAll stream (bytes ++ more)

/-- The tree is read only for inputs, and the standard input only where there are none. -/
def readWorld (inputs : List String) : IO World := do
  if inputs.isEmpty then
    return ⟨(FileTree.ofWorkingDirectory [] []).system, ← readAll (← IO.getStdin) ByteArray.empty⟩
  else
    return ⟨(← readTree inputs).system, ByteArray.empty⟩

def readEnvironment : IO (String → Option String) := do
  let known ← ["OPENAI_KEY", "BASE_URI", "MODEL", "RUST_LOG"].mapM fun name =>
    return (name, ← IO.getEnv name)
  return fun name => (known.lookup name).join

def usageText : String :=
  "usage: (list | check | generate) [options] [files, directories or patterns]\n"

def complain (usage : Usage) : IO UInt32 := do
  match usage with
  | .help =>
    IO.print usageText
    return 0
  | .invalid =>
    IO.eprint usageText
    return 2

end DocBlock.Machine

open DocBlock Machine in
def main (arguments : List String) : IO UInt32 := do
  let environment ← readEnvironment
  match CommandLine.parse environment arguments with
  | .error usage => complain usage
  | .ok invocation =>
    let world ← readWorld invocation.command.inputs
    let (written, _) := Program.runInvocation environment invocation world offline ()
    IO.print written.output
    IO.eprint written.errorText
    return written.status.toUInt32
