import TableStore.Decimal.Digits
import TableStore.Text.Fold
import TableStore.Text.Hex
import TableStore.Text.Quoted

/-!
# Tokens

The words, names, literals, placeholders and signs that statement text consists
of.  Blanks and comments stand between them and mean nothing, but they are kept
with the token behind them, so that any piece of a statement can be shown as it
was written.
-/

namespace TableStore
namespace Sql

inductive Token
  | word (name : String)
  | name (name : String)
  | integer (n : Nat)
  | decimal (d : Decimal.Scaled)
  | text (s : String)
  | blob (bytes : List UInt8)
  /-- A placeholder; they are numbered from zero. -/
  | placeholder (index : Nat)
  | sign (s : String)
  | illegal
deriving DecidableEq

structure Lexeme where
  /-- The blanks and comments before it. -/
  gap : List Char
  text : List Char
  token : Token
deriving DecidableEq

def isBlank (c : Char) : Bool :=
  c = ' ' || c = '\t' || c = '\n' || c = '\x0c' || c = '\r'

def startsName (c : Char) : Bool :=
  c.isAlpha || c = '_' || 128 <= c.toNat

def continuesName (c : Char) : Bool :=
  startsName c || Decimal.isDigit c || c = '$'

mutual

def skipGap : List Char -> List Char
  | [] => []
  | '-' :: '-' :: rest => skipLineComment rest
  | '/' :: '*' :: rest => skipBlockComment rest
  | c :: rest => if isBlank c then skipGap rest else c :: rest

def skipLineComment : List Char -> List Char
  | [] => []
  | c :: rest => if c = '\n' then skipGap rest else skipLineComment rest

def skipBlockComment : List Char -> List Char
  | [] => []
  | '*' :: '/' :: rest => skipGap rest
  | _ :: rest => skipBlockComment rest

end

def longSigns : List String :=
  ["==", "!=", "<>", "<=", ">=", "||", "<<", ">>"]

def shortSigns : List Char :=
  ['(', ')', ',', ';', '*', '.', '+', '-', '/', '%', '=', '<', '>', '&', '|', '~']

def scanSign (s : List Char) : Token × List Char :=
  let two := String.ofList (s.take 2)
  if two ∈ longSigns then (.sign two, s.drop 2)
  else
    match s with
    | [] => (.illegal, [])
    | c :: rest =>
        if c ∈ shortSigns then (.sign (String.ofList [c]), rest)
        else (.illegal, rest)

def scanExponent (s : List Char) : Option (Int × List Char) :=
  let digits (negative : Bool) (t : List Char) : Option (Int × List Char) :=
    let run := t.takeWhile Decimal.isDigit
    if run.isEmpty then none
    else
      let n : Int := Decimal.ofDigits run
      some (if negative then -n else n, t.dropWhile Decimal.isDigit)
  match s with
  | [] => none
  | c :: rest =>
      if c = 'e' || c = 'E' then
        match rest with
        | '-' :: tail => digits true tail
        | '+' :: tail => digits false tail
        | _ => digits false rest
      else none

/-- A number at the start of a text; no name may follow it directly. -/
def scanNumber (s : List Char) : Token × List Char :=
  let whole := s.takeWhile Decimal.isDigit
  let rest := s.dropWhile Decimal.isDigit
  let hasPoint := rest.head? = some '.'
  let behind := if hasPoint then rest.drop 1 else rest
  let fraction := if hasPoint then behind.takeWhile Decimal.isDigit else []
  let rest := if hasPoint then behind.dropWhile Decimal.isDigit else rest
  let exponent := scanExponent rest
  let rest := (exponent.map Prod.snd).getD rest
  let token :=
    if !hasPoint && exponent.isNone then .integer (Decimal.ofDigits whole)
    else
      .decimal ⟨Decimal.ofDigits (whole ++ fraction),
        (exponent.map Prod.fst).getD 0 - fraction.length⟩
  if (rest.takeWhile continuesName).isEmpty then (token, rest)
  else (.illegal, rest.dropWhile continuesName)

def scanName (close : Char) (s : List Char) : Token × List Char :=
  match s.dropWhile (· != close) with
  | [] => (.illegal, [])
  | _ :: rest => (.name (String.ofList (s.takeWhile (· != close))), rest)

def scanBlob (s : List Char) : Token × List Char :=
  let digits := s.takeWhile (· != '\'')
  let rest := (s.dropWhile (· != '\'')).drop 1
  match Text.bytesOfHex? digits with
  | some bytes => (.blob bytes, rest)
  | none => (.illegal, rest)

def scanToken (placeholders : Nat) : List Char -> Token × List Char
  | [] => (.illegal, [])
  | c :: rest =>
      if c = '\'' then
        match Text.readQuoted rest with
        | some (text, after) => (.text (String.ofList text), after)
        | none => (.illegal, [])
      else if c = '?' then (.placeholder placeholders, rest)
      else if c = '"' || c = '\x60' then scanName c rest
      else if c = '[' then scanName ']' rest
      else if (c = 'x' || c = 'X') && rest.head? = some '\'' then
        scanBlob (rest.drop 1)
      else if startsName c then
        (.word (String.ofList (c :: rest.takeWhile continuesName)),
          rest.dropWhile continuesName)
      else if Decimal.isDigit c ||
          (c = '.' && (rest.head?.map Decimal.isDigit).getD false) then
        scanNumber (c :: rest)
      else scanSign (c :: rest)

def scanFrom : Nat -> Nat -> List Char -> List Lexeme
  | 0, _, _ => []
  | fuel + 1, placeholders, s =>
      let start := skipGap s
      if start.isEmpty then []
      else
        let (token, rest) := scanToken placeholders start
        let gap := s.take (s.length - start.length)
        let text := start.take (start.length - rest.length)
        let placeholders :=
          if token = .placeholder placeholders then placeholders + 1
          else placeholders
        ⟨gap, text, token⟩ :: scanFrom fuel placeholders rest

def scan (text : String) : List Lexeme :=
  scanFrom text.toList.length 0 text.toList

/-- Lexemes as they were written, without the gap before the first one. -/
def written : List Lexeme -> String
  | [] => ""
  | first :: rest =>
      String.ofList (first.text ++ rest.flatMap fun l => l.gap ++ l.text)

/-!
# Words of the language
-/

def reservedWords : List String :=
  ["add", "all", "alter", "and", "as", "autoincrement", "between", "case",
    "check", "collate", "commit", "constraint", "create", "default",
    "deferrable", "delete", "distinct", "drop", "else", "escape", "except",
    "exists", "foreign", "from", "group", "having", "in", "index", "insert",
    "intersect", "into", "is", "isnull", "join", "limit", "not", "nothing",
    "notnull", "null", "on", "or", "order", "primary", "references",
    "returning", "select", "set", "table", "then", "to", "transaction",
    "union", "unique", "update", "using", "values", "when", "where"]

def isReserved (word : String) : Bool :=
  reservedWords.contains (Text.foldCase word)

namespace Lexeme

def isWord (word : String) (lexeme : Lexeme) : Bool :=
  match lexeme.token with
  | .word name => Text.foldCase name = word
  | _ => false

def isSign (sign : String) (lexeme : Lexeme) : Bool :=
  lexeme.token = .sign sign

def name? (lexeme : Lexeme) : Option String :=
  match lexeme.token with
  | .word name => if isReserved name then none else some name
  | .name name => some name
  | _ => none

end Lexeme

end Sql
end TableStore
