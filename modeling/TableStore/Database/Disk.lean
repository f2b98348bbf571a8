import TableStore.Engine.Machine
import TableStore.Keyed
import TableStore.Text.Join
import TableStore.Text.Percent

/-!
# Files

The files that databases and configurations are kept in, each under its path.
-/

namespace TableStore
namespace Database

open Engine (Machine)

variable [Machine]

inductive File
  | text (content : String)
  | store (store : Machine.Store)

structure Disk where
  /-- The directories that are there beside those of the files. -/
  directories : List String
  files : List (String × File)

namespace Disk

def empty : Disk :=
  ⟨[], []⟩

def steps (path : String) : List (List Char) :=
  (Text.splitAt '/' path.toList).foldl
    (fun steps step =>
      if step.isEmpty || step = ['.'] then steps
      else if step = ['.', '.'] then
        match steps.getLast? with
        | some last => if last = ['.', '.'] then steps ++ [step] else steps.dropLast
        | none => [step]
      else steps ++ [step])
    []

def joinSteps (absolute : Bool) (steps : List (List Char)) : String :=
  (if absolute then "/" else "") ++ Text.join "/" (steps.map String.ofList)

def isAbsolute (path : String) : Bool :=
  path.toList.head? = some '/'

/-- The shortest path to the same place. -/
def normal (path : String) : String :=
  joinSteps (isAbsolute path) (steps path)

def parent (path : String) : String :=
  joinSteps (isAbsolute path) (steps path).dropLast

def find? (disk : Disk) (path : String) : Option File :=
  Keyed.get? (normal path) disk.files

def put (disk : Disk) (path : String) (file : File) : Disk :=
  { disk with files := Keyed.put (normal path) file disk.files }

def isDirectory (disk : Disk) (path : String) : Bool :=
  let place := normal path
  place.isEmpty || disk.directories.contains place ||
    disk.files.any fun (name, _) =>
      (place.toList ++ ['/']).isPrefixOf name.toList

def text? (disk : Disk) (path : String) : Option String :=
  match disk.find? path with
  | some (.text content) => some content
  | some (.store store) =>
      if Machine.isBlank store then some "" else none
  | none => none

end Disk
end Database
end TableStore
