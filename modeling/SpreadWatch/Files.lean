import SpreadWatch.Failure
import SpreadWatch.Text.Lines

/-!
The file tree that file sinks and the configuration see: directories and text files by their
places, and paths as they are written. A path is followed part by part; every part but the last
must be a directory that is there. What reads a file sees all its line ends as line feeds; the file
keeps them as they were written.
-/

namespace SpreadWatch

/-- A path: what it starts with, and its parts without empty ones and single dots. -/
structure FilePath where
  root : String
  parts : List String
deriving DecidableEq, Repr, Inhabited

namespace FilePath

/-- A path from its text. Two leading slashes stay two; any other number of them counts as one. -/
def ofText (text : String) : FilePath :=
  let chars := text.toList
  let slashes := (chars.takeWhile (· == '/')).length
  let parts := (chars.splitOn '/').filter fun part => part != [] && part != ['.']
  { root := if slashes = 0 then "" else if slashes = 2 then "//" else "/"
    parts := parts.map String.ofList }

def toText (path : FilePath) : String :=
  if path.root.isEmpty && path.parts.isEmpty then "."
  else path.root ++ "/".intercalate path.parts

def parent (path : FilePath) : FilePath := { path with parts := path.parts.dropLast }

def child (path : FilePath) (name : String) : FilePath :=
  { path with parts := path.parts ++ [name] }

end FilePath

inductive FileEntry where
  | directory
  | file (text : String)
deriving DecidableEq, Repr

/-- Directories and files by their places. The root is a directory without being listed. -/
structure Files where
  entries : List (List String × FileEntry) := []
deriving Repr, Inhabited

namespace Files

def entry? (files : Files) (place : List String) : Option FileEntry :=
  if place.isEmpty then some .directory else files.entries.lookup place

def put (files : Files) (place : List String) (entry : FileEntry) : Files :=
  { entries := (place, entry) :: files.entries.filter fun known => known.1 != place }

def remove (files : Files) (place : List String) : Files :=
  { entries := files.entries.filter fun known => known.1 != place }

/-- The greatest length of a name, in bytes. -/
def longestName : Nat := 255

/-- The greatest length of a path, in bytes. -/
def longestPath : Nat := 4095

/-- Follows the parts of a path from a place. What stands behind the last part is not looked at. -/
def follow (files : Files) : List String → List String → Except FileProblem (List String)
  | place, [] => .ok place
  | place, part :: rest =>
      match files.entry? place with
      | none => .error .missing
      | some (.file _) => .error .notDirectory
      | some .directory =>
          if part == ".." then follow files place.dropLast rest
          else if longestName < part.utf8ByteSize then .error .nameTooLong
          else follow files (place ++ [part]) rest

def placeOf (files : Files) (path : FilePath) : Except FileProblem (List String) :=
  if longestPath < path.toText.utf8ByteSize then .error .nameTooLong
  else files.follow [] path.parts

def stat (files : Files) (path : FilePath) : Except FileProblem FileEntry := do
  match files.entry? (← files.placeOf path) with
  | some entry => return entry
  | none => throw .missing

def contains (files : Files) (path : FilePath) : Bool := (files.stat path).isOk

def isDirectory (files : Files) (path : FilePath) : Bool :=
  match files.stat path with
  | .ok .directory => true
  | _ => false

def failed (path : FilePath) (result : Except FileProblem α) : Except Failure α :=
  result.mapError fun problem => .file problem path.toText

def checkName (path : FilePath) : Except Failure Unit :=
  if path.parts.any fun part => part.toList.contains (Char.ofNat 0) then
    .error (.badValue "embedded null byte")
  else .ok ()

def readText (files : Files) (path : FilePath) : Except Failure String := do
  checkName path
  match ← failed path (files.stat path) with
  | .file text => return String.ofList (Text.unifyLineEnds text.toList)
  | .directory => throw (.file .isDirectory path.toText)

/-- The place of a file that is to be written, with its present text if it is there. -/
def openPlace (files : Files) (path : FilePath) : Except Failure (List String × String) := do
  checkName path
  let place ← failed path (files.placeOf path)
  match files.entry? place, files.entry? place.dropLast with
  | some .directory, _ => throw (.file .isDirectory path.toText)
  | some (.file text), _ => return (place, text)
  | none, some .directory => return (place, "")
  | none, some (.file _) => throw (.file .notDirectory path.toText)
  | none, none => throw (.file .missing path.toText)

def writeText (files : Files) (path : FilePath) (text : String) : Except Failure Files := do
  let (place, _) ← files.openPlace path
  return files.put place (.file text)

def unlink (files : Files) (path : FilePath) : Except Failure Files := do
  let (place, _) ← files.openPlace path
  return files.remove place

def makeDirectory (files : Files) (path : FilePath) : Except Failure Files := do
  checkName path
  let place ← failed path (files.placeOf path)
  match files.entry? place, files.entry? place.dropLast with
  | some _, _ => throw (.file .exists path.toText)
  | none, some .directory => return files.put place .directory
  | none, some (.file _) => throw (.file .notDirectory path.toText)
  | none, none => throw (.file .missing path.toText)

/-- Makes a directory and those above it, as far as they are missing. A directory that is there
already is fine. The fuel counts the parts of the path. -/
def ensureDirectory : Nat → Files → FilePath → Except Failure Files
  | 0, files, path => files.makeDirectory path
  | fuel + 1, files, path =>
      match files.makeDirectory path with
      | .ok files => .ok files
      | .error (.file .missing text) =>
          if path.parts.isEmpty then .error (.file .missing text)
          else do
            let files ← ensureDirectory fuel files path.parent
            match files.makeDirectory path with
            | .ok files => return files
            | .error failure => if files.isDirectory path then return files else throw failure
      | .error (.file problem text) =>
          if files.isDirectory path then .ok files else .error (.file problem text)
      | .error failure => .error failure

def makeDirectories (files : Files) (path : FilePath) : Except Failure Files :=
  ensureDirectory (path.parts.length + 1) files path

/-- Everything below a directory, by paths from there; directories end in a slash. -/
def below (files : Files) (path : FilePath) : List String :=
  let length := path.parts.length
  let inside := files.entries.filter fun known =>
    known.1.take length == path.parts && length < known.1.length
  let names := inside.map fun (place, entry) =>
    "/".intercalate (place.drop length) ++ (if entry == .directory then "/" else "")
  names.mergeSort (fun a b => decide (a ≤ b))

end Files

end SpreadWatch
