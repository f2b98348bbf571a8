import TableStore.Decimal.Digits
import TableStore.Decimal.Range
import TableStore.Text.Percent

/-!
# Arguments

The arguments of the command line: options, then a command, then the options of
the command.  The first argument that does not fit, or that asks for help or for
the version of the program, decides.
-/

namespace TableStore
namespace CommandLine

inductive Command
  /-- Migrate to a target, or only show what there is to do. -/
  | migrate (target? : Option UInt32) (dryRun : Bool)
  | version
  | createTables
  | sql
deriving DecidableEq

structure Arguments where
  database? : Option String
  config? : Option String
  verbose : Bool
  command : Command
deriving DecidableEq

inductive Stop
  | help
  | version
  | misuse
deriving DecidableEq

/-!
# Options
-/

inductive Switch
  | database
  | config
  | verbose
  | target
  | dryRun
  | help
  | version
deriving DecidableEq

def Switch.takesValue : Switch -> Bool
  | .database => true
  | .config => true
  | .target => true
  | _ => false

structure Switches where
  long : List (String × Switch)
  short : List (Char × Switch)

def mainSwitches : Switches :=
  ⟨[("database", .database), ("config", .config), ("verbose", .verbose),
      ("help", .help), ("version", .version)],
    [('d', .database), ('c', .config), ('v', .verbose), ('h', .help),
      ('V', .version)]⟩

def migrateSwitches : Switches :=
  ⟨[("target", .target), ("dry-run", .dryRun), ("help", .help)],
    [('t', .target), ('h', .help)]⟩

def plainSwitches : Switches :=
  ⟨[("help", .help)], [('h', .help)]⟩

structure Given where
  switch : Switch
  value : String
deriving DecidableEq

def isSwitch (argument : List Char) : Bool :=
  match argument with
  | '-' :: _ :: _ => true
  | _ => false

def nextValue (switch : Switch) :
    List String -> Except Stop (Given × List String)
  | [] => .error .misuse
  | value :: rest =>
      if isSwitch value.toList then .error .misuse
      else .ok (⟨switch, value⟩, rest)

def readLong (switches : Switches) (name : List Char)
    (value? : Option (List Char)) (rest : List String) :
    Except Stop (Given × List String) :=
  match switches.long.find? fun entry => entry.1.toList = name with
  | none => .error .misuse
  | some (_, switch) =>
      match switch.takesValue, value? with
      | true, some value => .ok (⟨switch, String.ofList value⟩, rest)
      | true, none => nextValue switch rest
      | false, none => .ok (⟨switch, ""⟩, rest)
      | false, some _ => .error .misuse

def versionOfText? (text : String) : Option UInt32 :=
  (Decimal.readInt? text.toList).bind Decimal.uint32?

def addGiven (before : List Given) (given : Given) : Except Stop (List Given) :=
  if before.any fun other => other.switch = given.switch then .error .misuse
  else
    match given.switch with
    | .help => .error .help
    | .version => .error .version
    | .config => if given.value.isEmpty then .error .misuse else .ok (before ++ [given])
    | .target =>
        if (versionOfText? given.value).isSome then .ok (before ++ [given])
        else .error .misuse
    | _ => .ok (before ++ [given])

/-- Adds the options of a run of letters, the last of which may have a value. -/
def readShort (switches : Switches) (rest : List String) (before : List Given) :
    List Char -> Except Stop (List Given × List String)
  | [] => .ok (before, rest)
  | letter :: letters =>
      match switches.short.find? fun entry => entry.1 = letter with
      | none => .error .misuse
      | some (_, switch) =>
          if switch.takesValue then
            match letters with
            | [] => do
                let (given, rest) <- nextValue switch rest
                return (<- addGiven before given, rest)
            | '=' :: value => do
                return (<- addGiven before ⟨switch, String.ofList value⟩, rest)
            | value => do
                return (<- addGiven before ⟨switch, String.ofList value⟩, rest)
          else do
            let before <- addGiven before ⟨switch, ""⟩
            readShort switches rest before letters

def valueOf? (switch : Switch) (given : List Given) : Option String :=
  (given.find? fun option => option.switch = switch).map (·.value)

def isGiven (switch : Switch) (given : List Given) : Bool :=
  given.any fun option => option.switch = switch

inductive Tail
  | done
  | word (word : String) (rest : List String)
  /-- Two minus signs, and what follows them. -/
  | separator (rest : List String)

def readOptions (switches : Switches) :
    Nat -> List Given -> List String -> Except Stop (List Given × Tail)
  | 0, given, _ => .ok (given, .done)
  | _ + 1, given, [] => .ok (given, .done)
  | fuel + 1, given, argument :: rest =>
      match argument.toList with
      | ['-', '-'] => .ok (given, .separator rest)
      | '-' :: '-' :: long => do
          let (name, value?) := Text.cutAt '=' long
          let (option, rest) <- readLong switches name value? rest
          readOptions switches fuel (<- addGiven given option) rest
      | '-' :: letter :: letters => do
          let (given, rest) <- readShort switches rest given (letter :: letters)
          readOptions switches fuel given rest
      | _ => .ok (given, .word argument rest)

/-!
# Commands
-/

def finish : Tail -> Except Stop Unit
  | .done => .ok ()
  | .separator [] => .ok ()
  | _ => .error .misuse

def readCommandOptions (switches : Switches) (rest : List String) :
    Except Stop (List Given) := do
  let (given, tail) <- readOptions switches (rest.length + 1) [] rest
  finish tail
  return given

def isCommand (word : String) : Bool :=
  ["migrate", "version", "create-tables", "sql", "help"].contains word

def readCommand (word : String) (rest : List String) : Except Stop Command :=
  match word with
  | "migrate" => do
      let given <- readCommandOptions migrateSwitches rest
      return .migrate ((valueOf? .target given).bind versionOfText?)
        (isGiven .dryRun given)
  | "version" => do
      let _ <- readCommandOptions plainSwitches rest
      return .version
  | "create-tables" => do
      let _ <- readCommandOptions plainSwitches rest
      return .createTables
  | "sql" => do
      let _ <- readCommandOptions plainSwitches rest
      return .sql
  | "help" =>
      match rest with
      | [] => .error .help
      | [topic] => if isCommand topic then .error .help else .error .misuse
      | _ => .error .misuse
  | _ => .error .misuse

def readArguments (arguments : List String) : Except Stop Arguments := do
  let (given, tail) <-
    readOptions mainSwitches (arguments.length + 1) [] arguments
  match tail with
  | .word word rest =>
      let command <- readCommand word rest
      return ⟨valueOf? .database given, valueOf? .config given,
        isGiven .verbose given, command⟩
  | _ => throw .misuse

end CommandLine
end TableStore
