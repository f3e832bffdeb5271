import Checklist.Host

namespace Checklist

inductive FileEntry
  | file (content : ByteArray)
  | directory

/-- All files and directories, by the parts of their paths from the root on. -/
structure FileTree where
  entries : List (List Text × FileEntry)

namespace FileTree

def empty : FileTree := ⟨[]⟩

def entry? (tree : FileTree) (location : List Text) : Option FileEntry :=
  if location = [] then some .directory else tree.entries.lookup location

/-- Puts an entry in place of the one at its location, or after all others. -/
def set (tree : FileTree) (location : List Text) (entry : FileEntry) : FileTree :=
  if (tree.entries.lookup location).isSome then
    ⟨tree.entries.map fun (l, old) => if l = location then (l, entry) else (l, old)⟩
  else ⟨tree.entries ++ [(location, entry)]⟩

/-- Adds an entry and the directories above it. -/
def add (tree : FileTree) (location : List Text) (entry : FileEntry) : FileTree :=
  let tree := (List.range location.length).foldl (fun tree n =>
    if (tree.entry? (location.take n)).isSome then tree
    else tree.set (location.take n) .directory) tree
  tree.set location entry

/-- Where a step leads from a directory. The root is the directory above itself. -/
def stepFrom (location : List Text) (step : Text) : List Text :=
  if step = ['.'] then location
  else if step = ['.', '.'] then location.dropLast
  else location ++ [step]

/-- Follows the steps of a path. A step can only be taken from a directory. -/
def follow (tree : FileTree) : List Text → List Text → Except IoError (List Text)
  | location, [] => .ok location
  | location, step :: rest =>
    match tree.entry? location with
    | none => .error .notFound
    | some (.file _) => .error .notDirectory
    | some .directory => tree.follow (stepFrom location step) rest

/-- Where a path leads from a working directory, whether there is anything or not. -/
def place (tree : FileTree) (directory : List Text) (path : Path) : Except IoError (List Text) :=
  if path = [] then .error .notFound
  else tree.follow (if path.isAbsolute then [] else directory) path.steps

/-- Whether a path leads to anything. With a slash at its end it has to be a directory. -/
def present (tree : FileTree) (directory : List Text) (path : Path) : Bool :=
  match tree.place directory path with
  | .error _ => false
  | .ok location =>
    match tree.entry? location with
    | none => false
    | some .directory => true
    | some (.file _) => !path.endsInSlash

/-- The text of a file. -/
def read (tree : FileTree) (directory : List Text) (path : Path) : Except IoError Text := do
  match tree.entry? (← tree.place directory path) with
  | none => throw .notFound
  | some .directory => throw .isDirectory
  | some (.file content) =>
    if path.endsInSlash then throw .notDirectory
    match String.fromUTF8? content with
    | some text => return text.toList
    | none => throw .notText

/-- The tree with a text in a file, which is made if it is missing. With a slash at its end a path
cannot mean a file to be made. -/
def write (tree : FileTree) (directory : List Text) (path : Path) (text : Text) :
    Except IoError FileTree := do
  let location ← tree.place directory path
  match tree.entry? location with
  | some .directory => throw .isDirectory
  | _ =>
    if path.endsInSlash then throw .isDirectory
    return tree.set location (.file (String.ofList text).toUTF8)

end FileTree

end Checklist
