import ClassFormat.Text.Utf8

namespace ClassFormat.Path

def segments (path : Text) : List Text := path.cut (· = '/')

/-- What a path starts with if it starts at the root: exactly two slashes stay two. -/
def root (path : Text) : Text :=
  match (path.takeWhile (· = '/')).length with
  | 0 => []
  | 2 => ['/', '/']
  | _ => ['/']

def normalize (path : Text) : Text :=
  let kept := (segments path).filter fun s => s != [] && s != ['.']
  match root path ++ ['/'].intercalate kept with
  | [] => ['.']
  | t => t

end ClassFormat.Path

namespace ClassFormat

/-- The names that lead from the root to a file or a folder. -/
abbrev Place := List Text

/-- The files and folders below a root. The root is a folder, and so is all that leads to a file or
to a folder. -/
structure FileTree where
  folders : List Place
  files : List (Place × Bytes)
  /-- The folder that relative paths start from. -/
  current : Place

namespace FileTree

inductive Kind where
  | missing
  | folder
  | file
  deriving DecidableEq, Repr

def isFolder (tree : FileTree) (place : Place) : Bool :=
  place.isEmpty || tree.folders.contains place

def contentAt? (tree : FileTree) (place : Place) : Option Bytes := tree.files.lookup place

inductive Obstacle where
  /-- A segment on the way is no folder. -/
  | noFolder
  /-- A name or the whole path is too long. -/
  | tooLong
  /-- The path holds the character with the code zero, which no path can hold. -/
  | impossible
  deriving DecidableEq, Repr

def maxNameLength : Nat := 255

def maxPathLength : Nat := 4095

def byteLength (t : Text) : Nat := (Utf8.encode t).length

/-- Follows the segments of a path. Every segment but the last one must lead to a folder, and an
empty segment or a dot needs one too. -/
def follow (tree : FileTree) (place : Place) : List Text → Except Obstacle Place
  | [] => .ok place
  | s :: ss =>
    if !tree.isFolder place then .error .noFolder
    else if s = [] || s = ['.'] then tree.follow place ss
    else if s = ['.', '.'] then tree.follow place.dropLast ss
    else if maxNameLength < byteLength s then .error .tooLong
    else tree.follow (place ++ [s]) ss

/-- The place that a path leads to, whether or not something stands there. -/
def find (tree : FileTree) (path : Text) : Except Obstacle Place :=
  if path.contains (Char.ofNat 0) then .error .impossible
  else if maxPathLength < byteLength path then .error .tooLong
  else
    match path with
    | [] => .error .noFolder
    | '/' :: _ => tree.follow [] (Path.segments path)
    | _ => tree.follow tree.current (Path.segments path)

/-- The place that a path leads to, if there is one. -/
def place? (tree : FileTree) (path : Text) : Option Place := (tree.find path).toOption

def kind (tree : FileTree) (path : Text) : Kind :=
  match tree.place? path with
  | none => .missing
  | some place =>
    if tree.isFolder place then .folder
    else if (tree.contentAt? place).isSome then .file
    else .missing

def content? (tree : FileTree) (path : Text) : Option Bytes :=
  (tree.place? path).bind tree.contentAt?

/-- Puts a content in place of the one of a file, or adds the file. -/
def writeAt (tree : FileTree) (place : Place) (content : Bytes) : FileTree :=
  if (tree.contentAt? place).isSome then
    { tree with
      files := tree.files.map fun e => if e.1 = place then (place, content) else e }
  else { tree with files := tree.files ++ [(place, content)] }

/-- Writes the file that a path leads to. -/
def write (tree : FileTree) (path : Text) (content : Bytes) : FileTree :=
  match tree.place? path with
  | some place => tree.writeAt place content
  | none => tree

def addFolder (tree : FileTree) (place : Place) : FileTree :=
  let leading := (List.range place.length).map fun n => place.take (n + 1)
  { tree with folders := (tree.folders ++ leading).eraseDups }

def addFile (tree : FileTree) (place : Place) (content : Bytes) : FileTree :=
  (tree.addFolder place.dropLast).writeAt place content

def removeFile (tree : FileTree) (place : Place) : FileTree :=
  { tree with files := tree.files.filter fun e => e.1 != place }

end FileTree

end ClassFormat
