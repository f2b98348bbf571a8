import TableStore.Decimal.Notation
import TableStore.Json.Document
import TableStore.Text.Hex

/-!
# Documents as text

The compact written form of a document: no blanks, members in their order, and
in texts only the quote, the backslash and the control characters below the
blank escaped.
-/

namespace TableStore
namespace Json

def escapeChar (c : Char) : List Char :=
  if c = '"' then ['\\', '"']
  else if c = '\\' then ['\\', '\\']
  else if c = '\x08' then ['\\', 'b']
  else if c = '\t' then ['\\', 't']
  else if c = '\n' then ['\\', 'n']
  else if c = '\x0c' then ['\\', 'f']
  else if c = '\r' then ['\\', 'r']
  else if c.toNat < 32 then '\\' :: 'u' :: Text.hexOfNumber 4 c.toNat
  else [c]

def quotedChars (text : String) : List Char :=
  '"' :: text.toList.flatMap escapeChar ++ ['"']

/-- A number; one that is not finite has no spelling and becomes `null`. -/
def numberChars : Number -> List Char
  | .int n => Decimal.intDigits n
  | .float x => if x.isFinite then x.documentText.toList else "null".toList

mutual

def chars : Json -> List Char
  | .null => "null".toList
  | .bool true => "true".toList
  | .bool false => "false".toList
  | .num n => numberChars n
  | .str s => quotedChars s
  | .arr items => '[' :: itemChars items ++ [']']
  | .obj members => '\x7b' :: memberChars members ++ ['\x7d']

def itemChars : List Json -> List Char
  | [] => []
  | item :: rest => chars item ++ furtherItemChars rest

def furtherItemChars : List Json -> List Char
  | [] => []
  | item :: rest => ',' :: chars item ++ furtherItemChars rest

def memberChars : List (String × Json) -> List Char
  | [] => []
  | (key, value) :: rest =>
      quotedChars key ++ ':' :: chars value ++ furtherMemberChars rest

def furtherMemberChars : List (String × Json) -> List Char
  | [] => []
  | (key, value) :: rest =>
      ',' :: quotedChars key ++ ':' :: chars value ++ furtherMemberChars rest

end

def text (document : Json) : String :=
  String.ofList (chars document)

end Json
end TableStore
