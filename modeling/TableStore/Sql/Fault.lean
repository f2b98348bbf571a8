import TableStore.Sql.Token

/-!
# Faults of statement text

Why statement text is refused: the first token that does not belong where it
stands.
-/

namespace TableStore
namespace Sql

inductive Fault
  | near (text : String)
  | unrecognized (text : String)
  | incomplete
deriving DecidableEq

def Fault.message : Fault -> String
  | .near text => "near \"" ++ text ++ "\": syntax error"
  | .unrecognized text => "unrecognized token: \"" ++ text ++ "\""
  | .incomplete => "incomplete input"

/-- The fault of a text that should not go on with these tokens. -/
def faultAt : List Lexeme -> Fault
  | [] => .incomplete
  | lexeme :: _ =>
      if lexeme.token = .illegal then
        .unrecognized (String.ofList lexeme.text)
      else .near (String.ofList lexeme.text)

/-!
# Readers
-/

/-- A reader takes tokens from the start of a list, or refuses the list. -/
abbrev Reader := StateT (List Lexeme) (Except Fault)

namespace Reader

def refuse {α : Type} : Reader α := do
  throw (faultAt (<- get))

def peek? : Reader (Option Lexeme) := do
  return (<- get).head?

def skip : Reader Unit :=
  modify (List.drop 1)

def atWord (word : String) : Reader Bool := do
  return ((<- peek?).map (Lexeme.isWord word)).getD false

def atSign (sign : String) : Reader Bool := do
  return ((<- peek?).map (Lexeme.isSign sign)).getD false

def tryWord (word : String) : Reader Bool := do
  if <- atWord word then
    skip
    return true
  else return false

def trySign (sign : String) : Reader Bool := do
  if <- atSign sign then
    skip
    return true
  else return false

def word (word : String) : Reader Unit := do
  if !(<- tryWord word) then refuse

def sign (sign : String) : Reader Unit := do
  if !(<- trySign sign) then refuse

def tryName : Reader (Option String) := do
  match (<- peek?).bind Lexeme.name? with
  | some name =>
      skip
      return some name
  | none => return none

def name : Reader String := do
  match <- tryName with
  | some name => return name
  | none => refuse

def commaSeparatedFrom {α : Type} (part : Reader α) : Nat -> Reader (List α)
  | 0 => refuse
  | fuel + 1 => do
      let first <- part
      if <- trySign "," then
        let others <- commaSeparatedFrom part fuel
        return first :: others
      else return [first]

def commaSeparated {α : Type} (part : Reader α) : Reader (List α) := do
  commaSeparatedFrom part ((<- get).length + 1)

def parenthesized {α : Type} (part : Reader α) : Reader α := do
  sign "("
  let result <- part
  sign ")"
  return result

/-- The result of a reader together with the tokens that it took. -/
def withLexemes {α : Type} (part : Reader α) : Reader (α × List Lexeme) := do
  let before <- get
  let result <- part
  let after <- get
  return (result, before.take (before.length - after.length))

end Reader

end Sql
end TableStore
