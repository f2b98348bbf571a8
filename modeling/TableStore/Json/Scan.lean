import TableStore.Decimal.Digits
import TableStore.Decimal.Range
import TableStore.Json.Outline
import TableStore.Text.Hex

/-!
# Reading documents

From a text to the outline of the document that it holds.
-/

namespace TableStore
namespace Json

def isBlank (c : Char) : Bool :=
  c = ' ' || c = '\n' || c = '\t' || c = '\r'

def skipBlanks (s : List Char) : List Char :=
  s.dropWhile isBlank

/-!
# Numbers
-/

def scanDigits : List Char -> Except Fault (List Char × List Char)
  | [] => .error .truncated
  | c :: rest =>
      if Decimal.isDigit c then
        .ok ((c :: rest).takeWhile Decimal.isDigit,
          (c :: rest).dropWhile Decimal.isDigit)
      else .error .malformed

def scanFraction : List Char -> Except Fault (List Char × List Char)
  | '.' :: rest => scanDigits rest
  | s => .ok ([], s)

def scanExponent : List Char -> Except Fault (Option Int × List Char)
  | [] => .ok (none, [])
  | c :: rest =>
      if c = 'e' || c = 'E' then
        match rest with
        | '-' :: tail => do
            let (digits, after) <- scanDigits tail
            return (some (-(Decimal.ofDigits digits : Int)), after)
        | '+' :: tail => do
            let (digits, after) <- scanDigits tail
            return (some (Decimal.ofDigits digits : Int), after)
        | _ => do
            let (digits, after) <- scanDigits rest
            return (some (Decimal.ofDigits digits : Int), after)
      else .ok (none, c :: rest)

/--
The value of a whole number: a signed one down to `-2^63`, an unsigned one
below `2^64`; beyond these bounds, and for a negative zero, the nearest binary
number.
-/
def wholeNumber (negative : Bool) (n : Nat) : Number :=
  if negative then
    if n != 0 && -Decimal.int64Bound <= -(n : Int) then .int (-(n : Int))
    else .float (Decimal.Binary64.ofDecimal true n 0)
  else if (n : Int) < Decimal.uint64Bound then .int n
  else .float (Decimal.Binary64.ofDecimal false n 0)

def finiteNumber : Number -> Except Fault Number
  | .int n => .ok (.int n)
  | .float x => if x.isFinite then .ok (.float x) else .error .malformed

def scanNumber (s : List Char) :
    Except Fault (Except Fault Number × List Char) := do
  let negative := s.head? = some '-'
  let (whole, s) <- scanDigits (if negative then s.drop 1 else s)
  if whole.head? = some '0' && whole.length != 1 then
    throw .malformed
  let (fraction, s) <- scanFraction s
  let (exponent, rest) <- scanExponent s
  let value :=
    if fraction.isEmpty && exponent.isNone then
      wholeNumber negative (Decimal.ofDigits whole)
    else
      .float (Decimal.Binary64.ofDecimal negative
        (Decimal.ofDigits (whole ++ fraction))
        (exponent.getD 0 - fraction.length))
  return (finiteNumber value, rest)

/-!
# Texts
-/

inductive Piece
  | char (c : Char)
  | unit (n : Nat)

def escaped? (c : Char) : Option Char :=
  if c = '"' || c = '\\' || c = '/' then some c
  else if c = 'b' then some '\x08'
  else if c = 'f' then some '\x0c'
  else if c = 'n' then some '\n'
  else if c = 'r' then some '\r'
  else if c = 't' then some '\t'
  else none

def hasUnitBytes (s : List Char) : Bool :=
  4 <= (s.take 4).foldl (fun size c => size + c.utf8Size) 0

structure Pieces where
  parts : List Piece
  raw : List Char
  ending : Except Fault Unit
  rest : List Char

def Pieces.push (part : Piece) (spelling : List Char) (p : Pieces) : Pieces :=
  { p with parts := part :: p.parts, raw := spelling ++ p.raw }

def Pieces.fault (spelling : List Char) (fault : Fault) : Pieces :=
  ⟨[], spelling, .error fault, []⟩

def scanPieces : List Char -> Pieces
  | [] => .fault [] .truncated
  | '"' :: rest => ⟨[], ['"'], .ok (), rest⟩
  | '\\' :: 'u' :: a :: b :: c :: d :: rest =>
      match Text.numberOfHex? [a, b, c, d] with
      | some n => (scanPieces rest).push (.unit n) ['\\', 'u', a, b, c, d]
      | none => .fault ['\\', 'u'] .malformed
  | '\\' :: 'u' :: rest =>
      .fault ['\\', 'u'] (if hasUnitBytes rest then .malformed else .truncated)
  | '\\' :: c :: rest =>
      match escaped? c with
      | some e => (scanPieces rest).push (.char e) ['\\', c]
      | none => .fault ['\\', c] .malformed
  | ['\\'] => .fault ['\\'] .truncated
  | c :: rest =>
      if c.toNat < 32 then .fault [c] .malformed
      else (scanPieces rest).push (.char c) [c]

def pairedChar (high low : Nat) : Char :=
  Char.ofNat (0x10000 + (high - 0xD800) * 0x400 + (low - 0xDC00))

/--
The characters of a quoted text.  `pending` is a high unit that waits for its
low unit; any other part in that place is out of place, and so is a low unit
that nothing waits for.
-/
def decodePieces (ending : Except Fault Unit) :
    Option Nat -> List Piece -> Except Fault (List Char)
  | none, [] => ending.map fun _ => []
  | some _, [] =>
      match ending with
      | .ok _ => .error .malformed
      | .error fault => .error fault
  | none, .char c :: rest => (decodePieces ending none rest).map (c :: ·)
  | some _, .char _ :: _ => .error .malformed
  | none, .unit n :: rest =>
      if 0xD800 <= n && n <= 0xDBFF then decodePieces ending (some n) rest
      else if 0xDC00 <= n && n <= 0xDFFF then .error .malformed
      else (decodePieces ending none rest).map (Char.ofNat n :: ·)
  | some high, .unit low :: rest =>
      if 0xDC00 <= low && low <= 0xDFFF then
        (decodePieces ending none rest).map (pairedChar high low :: ·)
      else .error .malformed

def scanText (s : List Char) : TextToken × Option (List Char) :=
  let p := scanPieces s
  let content := (decodePieces p.ending none p.parts).map String.ofList
  (⟨p.raw, content, p.ending⟩,
    match p.ending with
    | .ok _ => some p.rest
    | .error _ => none)

/-!
# Documents

An outline is followed by what comes behind it, unless it breaks off.
-/

def noDocument (fault : Fault) : Outline × Option (List Char) :=
  (.missing fault, none)

def scanWord (value : Outline) :
    List Char -> List Char -> Outline × Option (List Char)
  | [], rest => (value, some rest)
  | _ :: _, [] => (.broken .truncated .truncated, none)
  | c :: word, d :: rest =>
      if c = d then scanWord value word rest
      else (.broken .malformed .malformed, none)

mutual

def scanValue : Nat -> List Char -> Outline × Option (List Char)
  | 0, _ => noDocument .malformed
  | fuel + 1, s =>
      match skipBlanks s with
      | [] => noDocument .truncated
      | c :: rest =>
          if c = '"' then
            let (token, after) := scanText rest
            (.str token, after)
          else if c = '[' then
            let (items, after) := scanItems fuel rest
            (.arr items, after)
          else if c = '\x7b' then
            let (entries, after) := scanEntries fuel rest
            (.obj entries, after)
          else if c = '-' || Decimal.isDigit c then
            match scanNumber (c :: rest) with
            | .ok (value, after) => (.num value, some after)
            | .error fault => (.broken fault .malformed, none)
          else if c = 'n' then scanWord .null "null".toList (c :: rest)
          else if c = 't' then scanWord (.bool true) "true".toList (c :: rest)
          else if c = 'f' then scanWord (.bool false) "false".toList (c :: rest)
          else noDocument .malformed

def scanItems : Nat -> List Char -> Items × Option (List Char)
  | 0, _ => (.broken false .malformed, none)
  | fuel + 1, s =>
      match skipBlanks s with
      | [] => (.broken false .truncated, none)
      | c :: rest =>
          if c = ']' then (.nil, some rest) else scanItem fuel (c :: rest)

def scanItem : Nat -> List Char -> Items × Option (List Char)
  | 0, _ => (.broken false .malformed, none)
  | fuel + 1, s =>
      match scanValue fuel s with
      | (item, some after) =>
          let (others, after) := scanFurtherItems fuel after
          (.cons item others, after)
      | (item, none) => (.cons item (.broken false .malformed), none)

def scanFurtherItems : Nat -> List Char -> Items × Option (List Char)
  | 0, _ => (.broken false .malformed, none)
  | fuel + 1, s =>
      match skipBlanks s with
      | [] => (.broken false .truncated, none)
      | c :: rest =>
          if c = ']' then (.nil, some rest)
          else if c = ',' then
            match skipBlanks rest with
            | [] => (.broken true .truncated, none)
            | d :: tail =>
                if d = ']' then (.broken true .malformed, none)
                else scanItem fuel (d :: tail)
          else (.broken false .malformed, none)

def scanEntries : Nat -> List Char -> Entries × Option (List Char)
  | 0, _ => (.broken .malformed, none)
  | fuel + 1, s =>
      match skipBlanks s with
      | [] => (.broken .truncated, none)
      | c :: rest =>
          if c = '\x7d' then (.nil, some rest)
          else if c = '"' then scanEntry fuel rest
          else (.broken .malformed, none)

/-- One entry of an object, from behind the quote of its key, and the others. -/
def scanEntry : Nat -> List Char -> Entries × Option (List Char)
  | 0, _ => (.broken .malformed, none)
  | fuel + 1, s =>
      match scanText s with
      | (key, none) =>
          (.cons key (.missing .malformed) (.broken .malformed), none)
      | (key, some after) =>
          match scanMember fuel after with
          | (value, some after) =>
              let (others, after) := scanFurtherEntries fuel after
              (.cons key value others, after)
          | (value, none) => (.cons key value (.broken .malformed), none)

def scanMember : Nat -> List Char -> Outline × Option (List Char)
  | 0, _ => noDocument .malformed
  | fuel + 1, s =>
      match skipBlanks s with
      | [] => noDocument .truncated
      | c :: rest =>
          if c = ':' then scanValue fuel rest else noDocument .malformed

def scanFurtherEntries : Nat -> List Char -> Entries × Option (List Char)
  | 0, _ => (.broken .malformed, none)
  | fuel + 1, s =>
      match skipBlanks s with
      | [] => (.broken .truncated, none)
      | c :: rest =>
          if c = '\x7d' then (.nil, some rest)
          else if c = ',' then
            match skipBlanks rest with
            | [] => (.broken .truncated, none)
            | d :: tail =>
                if d = '"' then scanEntry fuel tail
                else (.broken .malformed, none)
          else (.broken .malformed, none)

end

/--
Reads a whole text: the outline is handed to `read`, and when that accepts it,
only blanks may follow the document.
-/
def readWhole {α ε : Type} (ofFault : Fault -> ε) (read : Outline -> Except ε α)
    (text : String) : Except ε α := do
  let s := text.toList
  let (outline, after) := scanValue (4 * s.length + 4) s
  let result <- read outline
  match after with
  | some rest =>
      if (skipBlanks rest).isEmpty then return result
      else throw (ofFault .malformed)
  | none => throw (ofFault .malformed)

def ofText (text : String) : Except Fault Json :=
  readWhole id (Outline.document maxDepth) text

end Json
end TableStore
