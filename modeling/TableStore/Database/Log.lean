import TableStore.Text.Join

/-!
# Notices

What is reported while a database is worked on: lines of a log, which are a
message with named values, and lines of plain output between them.
-/

namespace TableStore

inductive LogLevel
  | info
  | warn
deriving DecidableEq

def LogLevel.word : LogLevel -> String
  | .info => " INFO"
  | .warn => " WARN"

inductive Notice
  | log (level : LogLevel) (message : String) (fields : List (String × String))
  | plain (text : String)
deriving DecidableEq

def Notice.text : Notice -> String
  | .log level message fields =>
      level.word ++ " " ++ message ++
        String.join (fields.map fun field => " " ++ field.1 ++ "=" ++ field.2)
  | .plain text => text

end TableStore
