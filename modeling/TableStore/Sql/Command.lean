import TableStore.Sql.Expr
import TableStore.Statement.Options

/-!
# Commands

What a statement asks for: tables to be created, extended or dropped, rows to be
added, changed, removed or returned, and the version of the schema.
-/

namespace TableStore
namespace Sql

inductive ColumnRule
  | notNull
  | unique
  | primaryKey (neverReused : Bool)
  | default (value : Expr)
  /-- A condition that no row may fail, and its text. -/
  | check (condition : Expr) (text : String)
  | references (table : String) (column? : Option String)

structure ColumnSpec where
  name : String
  type : String
  rules : List ColumnRule

inductive Output
  | all
  | value (expr : Expr) (text : String)

inductive Projection
  | rows (outputs : List Output)
  | count (text : String)
  | sum (expr : Expr) (text : String)

structure OrderTerm where
  expr : Expr
  direction : Direction

structure Query where
  projection : Projection
  table : String
  condition? : Option Expr
  orderBy : List OrderTerm
  limit? : Option Expr

inductive NewRows
  | defaults
  /-- Values for named columns, or for all of them. -/
  | values (columns? : Option (List String)) (rows : List (List Expr))

inductive Command
  | createTable (table : String) (ifAbsent : Bool) (columns : List ColumnSpec)
  | dropTable (table : String) (ifPresent : Bool)
  | addColumn (table : String) (column : ColumnSpec)
  | insert (table : String) (rows : NewRows)
  | select (query : Query)
  | update (table : String) (assignments : List (String × Expr))
      (condition? : Option Expr)
  | delete (table : String) (condition? : Option Expr)
  | version
  | setVersion (version : Int)

namespace Command

/-!
# Declarations of columns
-/

def readTypeSize : Reader Unit := do
  let number : Reader Unit := do
    if !(<- Reader.trySign "-") then
      let _ <- Reader.trySign "+"
    match (<- Reader.peek?).map Lexeme.token with
    | some (.integer _) => Reader.skip
    | some (.decimal _) => Reader.skip
    | _ => Reader.refuse
  if <- Reader.trySign "(" then
    number
    if <- Reader.trySign "," then
      number
    Reader.sign ")"

def skipNames : Nat -> Reader Unit
  | 0 => return
  | fuel + 1 => do
      if (<- Reader.tryName).isSome then
        skipNames fuel

def readType : Reader String := do
  let start := (<- get).length
  let (_, lexemes) <- Reader.withLexemes do
    skipNames start
    if (<- get).length < start then
      readTypeSize
  return written lexemes

/-- The value that a default names by a single word. -/
def defaultOfName (name : String) : Expr :=
  if Text.foldCase name = "true" then .literal (.int 1)
  else if Text.foldCase name = "false" then .literal (.int 0)
  else .literal (.text name)

def readDefault : Reader Expr := do
  if <- Reader.atSign "(" then Reader.parenthesized Expr.read
  else
    match <- Reader.tryName with
    | some name => return defaultOfName name
    | none => Expr.readOperand ((<- get).length + 1)

def readRule? : Reader (Option ColumnRule) := do
  if <- Reader.tryWord "not" then
    Reader.word "null"
    return some .notNull
  else if <- Reader.tryWord "unique" then
    return some .unique
  else if <- Reader.tryWord "primary" then
    Reader.word "key"
    if !(<- Reader.tryWord "asc") then
      let _ <- Reader.tryWord "desc"
    return some (.primaryKey (<- Reader.tryWord "autoincrement"))
  else if <- Reader.tryWord "default" then
    return some (.default (<- readDefault))
  else if <- Reader.tryWord "check" then
    let (condition, lexemes) <-
      Reader.parenthesized (Reader.withLexemes Expr.read)
    return some (.check condition (written lexemes))
  else if <- Reader.tryWord "references" then
    let table <- Reader.name
    if <- Reader.atSign "(" then
      let column <- Reader.parenthesized Reader.name
      return some (.references table (some column))
    else return some (.references table none)
  else return none

def readRules : Nat -> Reader (List ColumnRule)
  | 0 => return []
  | fuel + 1 => do
      match <- readRule? with
      | some rule => return rule :: (<- readRules fuel)
      | none => return []

def readColumnSpec : Reader ColumnSpec := do
  let name <- Reader.name
  let type <- readType
  let rules <- readRules (<- get).length
  return ⟨name, type, rules⟩

/-!
# Statements
-/

def readIf (words : List String) : Reader Bool := do
  if <- Reader.tryWord "if" then
    words.forM Reader.word
    return true
  else return false

def readCreate : Reader Command := do
  Reader.word "table"
  let ifAbsent <- readIf ["not", "exists"]
  let table <- Reader.name
  let columns <- Reader.parenthesized (Reader.commaSeparated readColumnSpec)
  return .createTable table ifAbsent columns

def readDrop : Reader Command := do
  Reader.word "table"
  let ifPresent <- readIf ["exists"]
  return .dropTable (<- Reader.name) ifPresent

def readAlter : Reader Command := do
  Reader.word "table"
  let table <- Reader.name
  Reader.word "add"
  let _ <- Reader.tryWord "column"
  return .addColumn table (<- readColumnSpec)

def readInsert : Reader Command := do
  Reader.word "into"
  let table <- Reader.name
  let columns? <-
    if <- Reader.atSign "(" then
      some <$> Reader.parenthesized (Reader.commaSeparated Reader.name)
    else pure none
  if <- Reader.tryWord "default" then
    Reader.word "values"
    match columns? with
    | some columns => return .insert table (.values (some columns) [[]])
    | none => return .insert table .defaults
  else
    Reader.word "values"
    let rows <- Reader.commaSeparated
      (Reader.parenthesized (Reader.commaSeparated Expr.read))
    return .insert table (.values columns? rows)

def readCondition? : Reader (Option Expr) := do
  if <- Reader.tryWord "where" then some <$> Expr.read else return none

def atCall (function : String) : Reader Bool := do
  match <- get with
  | first :: second :: _ =>
      return first.isWord function && second.isSign "("
  | _ => return false

def readOutput : Reader Output := do
  if <- Reader.trySign "*" then return .all
  else
    let (expr, lexemes) <- Reader.withLexemes Expr.read
    return .value expr (written lexemes)

def readProjection : Reader Projection := do
  if <- atCall "count" then
    let (_, lexemes) <- Reader.withLexemes do
      Reader.skip
      Reader.parenthesized (Reader.sign "*")
    return .count (written lexemes)
  else if <- atCall "sum" then
    let (expr, lexemes) <- Reader.withLexemes do
      Reader.skip
      Reader.parenthesized Expr.read
    return .sum expr (written lexemes)
  else return .rows (<- Reader.commaSeparated readOutput)

def readOrderTerm : Reader OrderTerm := do
  let expr <- Expr.read
  if <- Reader.tryWord "desc" then return ⟨expr, .descending⟩
  else
    let _ <- Reader.tryWord "asc"
    return ⟨expr, .ascending⟩

def readSelect : Reader Command := do
  let projection <- readProjection
  Reader.word "from"
  let table <- Reader.name
  let condition? <- readCondition?
  let orderBy <-
    if <- Reader.tryWord "order" then
      Reader.word "by"
      Reader.commaSeparated readOrderTerm
    else pure []
  let limit? <-
    if <- Reader.tryWord "limit" then some <$> Expr.read else pure none
  return .select ⟨projection, table, condition?, orderBy, limit?⟩

def readAssignment : Reader (String × Expr) := do
  let column <- Reader.name
  Reader.sign "="
  return (column, <- Expr.read)

def readUpdate : Reader Command := do
  let table <- Reader.name
  Reader.word "set"
  let assignments <- Reader.commaSeparated readAssignment
  return .update table assignments (<- readCondition?)

def readDelete : Reader Command := do
  Reader.word "from"
  let table <- Reader.name
  return .delete table (<- readCondition?)

/--
The version that digits stand for.  Versions have thirty-two bits and a sign; a
number beyond them stands for zero.
-/
def versionOfDigits (negative : Bool) (n : Nat) : Int :=
  let version : Int := if negative then -(n : Int) else n
  if -Decimal.int32Bound <= version && version < Decimal.int32Bound then version
  else 0

def readPragma : Reader Command := do
  Reader.word "user_version"
  if <- Reader.trySign "=" then
    let negative <- Reader.trySign "-"
    if !negative then
      let _ <- Reader.trySign "+"
    match (<- Reader.peek?).map Lexeme.token with
    | some (.integer n) =>
        Reader.skip
        return .setVersion (versionOfDigits negative n)
    | _ => Reader.refuse
  else return .version

def readStatement : Reader Command := do
  if <- Reader.tryWord "select" then readSelect
  else if <- Reader.tryWord "insert" then readInsert
  else if <- Reader.tryWord "update" then readUpdate
  else if <- Reader.tryWord "delete" then readDelete
  else if <- Reader.tryWord "create" then readCreate
  else if <- Reader.tryWord "drop" then readDrop
  else if <- Reader.tryWord "alter" then readAlter
  else if <- Reader.tryWord "pragma" then readPragma
  else Reader.refuse

def readEnd : Reader Unit := do
  if !(<- get).isEmpty then
    Reader.sign ";"

def dropEmptyStatements (tokens : List Lexeme) : List Lexeme :=
  tokens.dropWhile fun lexeme => lexeme.isSign ";"

def read : Reader Command := do
  let command <- readStatement
  readEnd
  return command

end Command
end Sql
end TableStore
