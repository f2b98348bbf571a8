import TableStore.CommandLine.Files

/-!
# The program

Reads the files that a run needs, runs, writes the database back and shows what
the run has reported.
-/

namespace TableStore
namespace CommandLine

/-- The text of a file, if it can be read. -/
def readText? (path : String) : IO (Option String) := do
  try
    return some (<- IO.FS.readFile path)
  catch _ =>
    return none

def leadsToDirectory (path : String) : IO Bool := do
  try
    let _ <- IO.FS.realPath (path ++ "/.")
    return true
  catch _ =>
    return false

def directoriesOf (paths : List String) : IO (List String) :=
  paths.filterM fun path => leadsToDirectory path

def filesOf (paths : List String) : IO (List (String × Database.File)) := do
  let files <- paths.mapM fun path => do
    return (path, <- readText? path)
  return files.filterMap fun (path, text?) =>
    text?.map fun text => (Database.Disk.normal path, fileOfText text)

def runProgram (arguments : List String) : IO UInt32 := do
  let default? <- IO.getEnv "DATABASE_URL"
  let configPath? := configPath? arguments
  let configText? <- configPath?.mapM readText?
  let databasePath? := databasePath? default? arguments configText?.join
  let paths := configPath?.toList ++ databasePath?.toList
  let directories <-
    directoriesOf (paths ++ databasePath?.toList.map Database.Disk.parent)
  let files <- filesOf paths
  let disk : Database.Disk :=
    ⟨directories.map Database.Disk.normal, files⟩
  let result := runOn disk default? arguments
  match databasePath?.bind fun path => (result.disk.find? path).map (path, ·) with
  | some (path, .store store) => IO.FS.writeFile path (textOfFile (.store store))
  | _ => pure ()
  result.shown.forM fun line => IO.println line
  match result.complaint? with
  | some complaint => IO.eprintln complaint
  | none => pure ()
  if result.code = 2 then IO.eprintln usage
  else if readArguments arguments matches .error .help then IO.println usage
  return result.code.toUInt32

end CommandLine
end TableStore

def main (arguments : List String) : IO UInt32 :=
  TableStore.CommandLine.runProgram arguments
