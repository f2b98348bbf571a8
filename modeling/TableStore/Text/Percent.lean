import TableStore.Text.Hex

/-!
# Text in addresses

Cutting a text at a separator, and characters written as a percent sign with
two hexadecimal digits.
-/

namespace TableStore
namespace Text

def cutAt (separator : Char) (s : List Char) : List Char × Option (List Char) :=
  match s.dropWhile (· != separator) with
  | [] => (s, none)
  | _ :: rest => (s.takeWhile (· != separator), some rest)

def splitAt (separator : Char) : List Char -> List (List Char)
  | [] => [[]]
  | c :: rest =>
      if c = separator then [] :: splitAt separator rest
      else
        match splitAt separator rest with
        | [] => [[c]]
        | first :: others => (c :: first) :: others

/-- A text without a piece of text that stands at its start any number of times. -/
def dropRepeated (piece : List Char) : Nat -> List Char -> List Char
  | 0, s => s
  | fuel + 1, s =>
      if !piece.isEmpty && piece.isPrefixOf s then
        dropRepeated piece fuel (s.drop piece.length)
      else s

/-- The bytes of a text in which percent signs introduce bytes. -/
def percentBytes : List Char -> List UInt8
  | [] => []
  | '%' :: high :: low :: rest =>
      match hexValue? high, hexValue? low with
      | some h, some l => UInt8.ofNat (16 * h + l) :: percentBytes rest
      | _, _ =>
          '%'.toNat.toUInt8 :: percentBytes (high :: low :: rest)
  | c :: rest =>
      (String.ofList [c]).toUTF8.toList ++ percentBytes rest

def percentDecode (s : List Char) : List Char :=
  match String.fromUTF8? (ByteArray.mk (percentBytes s).toArray) with
  | some text => text.toList
  | none => s

end Text
end TableStore
