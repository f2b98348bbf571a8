import TableStore.CommandLine.Run
import TableStore.Engine.Document
import TableStore.Json.Printer
import TableStore.Json.Scan

/-!
# Files of a run

Which files a run needs, and how a database is kept in one.
-/

namespace TableStore
namespace CommandLine

open Database (Address Disk File Place)

/-- What the text of a file holds: a database if it is the text of one. -/
def fileOfText (text : String) : File :=
  match Json.ofText text with
  | .error _ => .text text
  | .ok document =>
      match Engine.Store.ofDocument? document with
      | some store => .store store
      | none => .text text

def textOfFile : File -> String
  | .text text => text
  | .store store => store.document.text

def configPath? (arguments : List String) : Option String :=
  match readArguments arguments with
  | .ok arguments => arguments.config?
  | .error _ => none

def databasePath? (default? : Option String) (arguments : List String)
    (configText? : Option String) : Option String := do
  let arguments <- (readArguments arguments).toOption
  let config? := configText?.bind fun text => (Config.ofText text).toOption
  let name <-
    arguments.database? <|> default? <|> config?.map (·.name)
  let address <- (Address.ofName name).toOption
  match address.place with
  | .memory => none
  | .file path => some path

def usage : String :=
  "Usage: ink-migrate [-d DATABASE] [-c CONFIG] [-v] COMMAND\n\n" ++
    "Commands:\n" ++
    "  migrate [-t TARGET] [--dry-run]  Apply pending migrations\n" ++
    "  version                          Show the stored schema version\n" ++
    "  create-tables                    Create the declared tables\n" ++
    "  sql                              Print the CREATE TABLE statements"

end CommandLine
end TableStore
