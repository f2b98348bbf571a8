import TableStore.Decimal.Range
import TableStore.Predicate.Basic
import TableStore.Sql.Fault

/-!
# Expressions

The conditions and values of statements.  From loose to tight the operators are
`OR`, `AND`, `NOT`, the tests for equality, the tests for order, and the minus
sign; operators of one strength group from the left.
-/

namespace TableStore
namespace Sql

inductive Expr
  | column (table? : Option String) (name : String)
  | literal (value : Value)
  /-- A number that is written with a point or an exponent, or with too many
  digits for a whole one. -/
  | decimal (negative : Bool) (d : Decimal.Scaled)
  | placeholder (index : Nat)
  | negative (inner : Expr)
  | not (inner : Expr)
  | and (left right : Expr)
  | or (left right : Expr)
  | compare (comparison : Comparison) (left right : Expr)
deriving DecidableEq

namespace Expr

inductive Operator
  | or
  | and
  | compare (comparison : Comparison)
deriving DecidableEq

namespace Operator

def strength : Operator -> Nat
  | .or => 0
  | .and => 1
  | .compare .eq => 3
  | .compare .ne => 3
  | .compare _ => 4

def apply : Operator -> Expr -> Expr -> Expr
  | .or => Expr.or
  | .and => Expr.and
  | .compare comparison => Expr.compare comparison

def signs : List (String × Comparison) :=
  [("=", .eq), ("==", .eq), ("!=", .ne), ("<>", .ne), ("<", .lt), ("<=", .le),
    (">", .gt), (">=", .ge)]

def ofLexeme? (lexeme : Lexeme) : Option Operator :=
  match lexeme.token with
  | .sign sign =>
      (signs.find? fun entry => entry.1 = sign).map fun entry => .compare entry.2
  | _ =>
      if lexeme.isWord "or" then some .or
      else if lexeme.isWord "and" then some .and
      else none

end Operator

def notStrength : Nat := 2

def topStrength : Nat := 4

/-- A run of digits with its sign: a whole number if it fits. -/
def ofDigits (negative : Bool) (n : Nat) : Expr :=
  match Decimal.int64? (Decimal.signed negative n) with
  | some value => .literal (.int value)
  | none => .decimal negative ⟨n, 0⟩

def negated (digits? : Option Nat) (inner : Expr) : Expr :=
  match digits?, inner with
  | some n, _ => ofDigits true n
  | none, .decimal minus d => .decimal (!minus) d
  | none, inner => .negative inner

def digitsOf? (lexeme? : Option Lexeme) : Option Nat :=
  match lexeme?.map Lexeme.token with
  | some (.integer n) => some n
  | _ => none

def readColumn : Reader Expr := do
  let first <- Reader.name
  if <- Reader.trySign "." then
    let second <- Reader.name
    return .column (some first) second
  else return .column none first

def takeSingle (expr : Expr) : Reader Expr := do
  Reader.skip
  return expr

mutual

/-- Reads an expression whose operators bind at least as tightly as `least`. -/
def readFrom : Nat -> Nat -> Reader Expr
  | 0, _ => Reader.refuse
  | fuel + 1, least => do
      let first <- readOperand fuel
      readOperators fuel least first

def readOperators : Nat -> Nat -> Expr -> Reader Expr
  | 0, _, _ => Reader.refuse
  | fuel + 1, least, left => do
      match (<- Reader.peek?).bind Operator.ofLexeme? with
      | none => return left
      | some operator =>
          if operator.strength < least then return left
          else
            Reader.skip
            let right <- readFrom fuel (operator.strength + 1)
            readOperators fuel least (operator.apply left right)

def readOperand : Nat -> Reader Expr
  | 0 => Reader.refuse
  | fuel + 1 => do
      match (<- Reader.peek?).map Lexeme.token with
      | some (.integer n) => takeSingle (ofDigits false n)
      | some (.decimal d) => takeSingle (.decimal false d)
      | some (.text s) => takeSingle (.literal (.text s))
      | some (.blob bytes) => takeSingle (.literal (.blob bytes))
      | some (.placeholder index) => takeSingle (.placeholder index)
      | some (.sign _) =>
          if <- Reader.trySign "(" then
            let inner <- readFrom fuel 0
            Reader.sign ")"
            return inner
          else if <- Reader.trySign "-" then
            let digits? := digitsOf? (<- Reader.peek?)
            let inner <- readOperand fuel
            return negated digits? inner
          else if <- Reader.trySign "+" then readOperand fuel
          else Reader.refuse
      | _ =>
          if <- Reader.tryWord "not" then
            let inner <- readFrom fuel (notStrength + 1)
            return .not inner
          else if <- Reader.tryWord "null" then return .literal .null
          else readColumn

end

def read : Reader Expr := do
  readFrom (3 * (<- get).length + 3) 0

end Expr
end Sql
end TableStore
