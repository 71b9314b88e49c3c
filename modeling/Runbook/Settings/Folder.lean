import Runbook.Text.Quoted
import Runbook.Text.Search

/-!
A working directory with its files and directories. Paths lead down from it, step by step.
-/
namespace Runbook

/-- The steps of a path from the working directory. Empty steps and single points lead nowhere, two
points lead back. -/
def pathSteps (path : String) : List String :=
  (Text.splitOnChar '/' path.toList).foldl (fun steps s =>
    let step := String.ofList s
    if step = "" ∨ step = "." then steps
    else if step = ".." then steps.dropLast
    else steps ++ [step]) []

/-- A path that does not start at the working directory. -/
def isAbsolute (path : String) : Bool := path.toList.head? == some '/'

/-- Everything before the last slash, without the slashes at its end. -/
def parentPath (path : String) : String :=
  let head := (path.toList.reverse.dropWhile (· != '/'))
  let bare := head.dropWhile (· == '/')
  String.ofList (if bare.isEmpty then head.reverse else bare.reverse)

/-- The files, by their steps, with their texts, and the directories. -/
structure Folder where
  files : List (List String × String) := []
  directories : List (List String) := []

namespace Folder

def hasFile (f : Folder) (steps : List String) : Bool := f.files.any (·.1 == steps)

def hasDirectory (f : Folder) (steps : List String) : Bool :=
  steps.isEmpty || f.directories.contains steps

/-- Something is there. What does not start at the working directory is taken to be there. -/
def has (f : Folder) (path : String) : Bool :=
  isAbsolute path || (path != "" && (f.hasFile (pathSteps path) || f.hasDirectory (pathSteps path)))

def text? (f : Folder) (path : String) : Option String :=
  (f.files.find? (·.1 == pathSteps path)).map (·.2)

/-- The directories that a file stands in. -/
def ancestors (steps : List String) : List (List String) :=
  (List.range steps.length).filterMap fun n => if n = 0 then none else some (steps.take n)

def addDirectory (f : Folder) (steps : List String) : Folder :=
  if f.hasDirectory steps then f else { f with directories := f.directories ++ [steps] }

/-- Writes a file, with the directories that it stands in. -/
def write (f : Folder) (path text : String) : Folder :=
  let steps := pathSteps path
  let f := (ancestors steps).foldl addDirectory f
  { f with files :=
      if f.hasFile steps then f.files.map fun (s, t) => if s == steps then (s, text) else (s, t)
      else f.files ++ [(steps, text)] }

/-- The first parts of a path, each one step longer than the one before. -/
def openings (path : String) : List String :=
  let parts := (Text.splitOnChar '/' path.toList).map String.ofList
  (List.range parts.length).filterMap fun n =>
    if (parts.drop n).head? = some "" then none
    else some ("/".intercalate (parts.take (n + 1)))

/-- Creates a directory with all those it stands in, unless a file is in the way. -/
def makeDirectories (f : Folder) (path : String) : Except String Folder :=
  (openings path).foldlM (fun f part =>
    let steps := pathSteps part
    if f.hasDirectory steps || f.hasFile steps then .ok f
    else if (ancestors steps).any f.hasFile then
      .error ("[Errno 20] Not a directory: " ++ Text.quoted part)
    else .ok (f.addDirectory steps)) f

def pathText (steps : List String) : String := "/".intercalate steps

def sortedTexts (xs : List String) : List String := xs.mergeSort fun a b => decide (a ≤ b)

/-- The paths of all directories, in order. -/
def directoryPaths (f : Folder) : List String := sortedTexts (f.directories.map pathText)

/-- The paths of all files, in order. -/
def filePaths (f : Folder) : List String := sortedTexts (f.files.map (pathText ·.1))

end Folder

end Runbook
