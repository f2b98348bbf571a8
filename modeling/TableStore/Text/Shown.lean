import TableStore.Text.Hex
import TableStore.Text.Visible

/-!
# Texts in reports

A text between double quotes in which every character that could not be seen is
written by its code point, and a name between grave accents.
-/

namespace TableStore
namespace Text

def shortHex (n : Nat) : List Char :=
  match (hexOfNumber 8 n).dropWhile (· = '0') with
  | [] => ['0']
  | digits => digits

def shownChar (c : Char) : List Char :=
  if c = '\x00' then ['\\', '0']
  else if c = '\t' then ['\\', 't']
  else if c = '\r' then ['\\', 'r']
  else if c = '\n' then ['\\', 'n']
  else if c = '"' || c = '\\' then ['\\', c]
  else if isVisible c then [c]
  else '\\' :: 'u' :: '\x7b' :: shortHex c.toNat ++ ['\x7d']

/-- A text between double quotes. -/
def shown (s : String) : String :=
  String.ofList ('"' :: s.toList.flatMap shownChar ++ ['"'])

/-- A name between grave accents. -/
def marked (name : String) : String :=
  "\x60" ++ name ++ "\x60"

end Text
end TableStore
