import ClassFormat.Command.Run

namespace ClassFormat.Main

/-- Files read so far, and the paths under which they were read. -/
structure Snapshot where
  tree : FileTree
  paths : List (Place × String)

/-- Adds a file or a folder to a snapshot; the answer says whether it is a folder. -/
def Snapshot.add (s : Snapshot) (place : Place) (path : String) : IO (Snapshot × Bool) := do
  try
    let content ← IO.FS.readBinFile path
    let tree := s.tree.addFile place content.toList
    return ({ tree, paths := (place, path) :: s.paths }, false)
  catch
    | .noFileOrDirectory .. => return (s, false)
    | _ => return ({ s with tree := s.tree.addFolder place }, true)

def Snapshot.addSegments (s : Snapshot) (place : Place) (path : String) : List Text → IO Snapshot
  | [] => return s
  | segment :: segments => do
    let path := path ++ String.ofList segment
    if segment = [] || segment = ['.'] then s.addSegments place (path ++ "/") segments
    else if segment = ['.', '.'] then s.addSegments place.dropLast (path ++ "/") segments
    else
      let (s, isFolder) ← s.add (place ++ [segment]) path
      if isFolder then s.addSegments (place ++ [segment]) (path ++ "/") segments else return s

/-- Adds all that an argument can mean as a path, also behind an equals sign. -/
def Snapshot.addArgument (s : Snapshot) (arg : Text) : IO Snapshot := do
  let candidates := arg :: (Command.Arguments.attachedValue? arg).toList
  candidates.foldlM (fun s path =>
    let start : Place := if path.head? = some '/' then [] else s.tree.current
    s.addSegments start "" (Path.segments path)) s

/-- The current folder, deep enough for every step up that the arguments make. -/
def currentFolder (args : List Text) : Place :=
  List.replicate (args.flatten.length + 1) ['.']

def writeChanges (s : Snapshot) (tree : FileTree) : IO Unit :=
  tree.files.forM fun (place, content) =>
    match s.paths.lookup place with
    | some path =>
      if s.tree.contentAt? place = some content then pure ()
      else IO.FS.writeBinFile path ⟨content.toArray⟩
    | none => pure ()

/-- Runs the program on real files. Those that the arguments can mean are read before the run, and
those that it has changed are written after it. -/
def run (args : List Text) : IO UInt32 := do
  let current := currentFolder args
  let empty : FileTree := { folders := [], files := [], current }
  let start : Snapshot := { tree := empty.addFolder current, paths := [] }
  let s ← (Configuration.defaultFile :: args).foldlM Snapshot.addArgument start
  let outcome := Command.run s.tree args
  (← IO.getStdout).putStr (String.ofList outcome.stdout)
  (← IO.getStderr).putStr (String.ofList outcome.stderr)
  writeChanges s outcome.tree
  return UInt32.ofNat outcome.exitCode

end ClassFormat.Main

def main (args : List String) : IO UInt32 := ClassFormat.Main.run (args.map String.toList)
