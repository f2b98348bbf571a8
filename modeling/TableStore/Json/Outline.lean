import TableStore.Json.Document

/-!
# Outlines

What can be seen of a text that should hold a document: the shape of the
document as far as the text goes, with a mark where it breaks off.

A reader of documents walks an outline from left to right and reports the first
thing that it cannot accept.  That is why an outline keeps whatever stands
before the place where the text goes wrong, and why tokens say separately how
they fare with a reader that needs their value and with one that skips them.
-/

namespace TableStore
namespace Json

inductive Fault
  | truncated
  | malformed
deriving DecidableEq

/-- A quoted text as it stands, from behind its opening quote. -/
structure TextToken where
  raw : List Char
  content : Except Fault String
  extent : Except Fault Unit

mutual

inductive Outline
  | null
  | bool (value : Bool)
  | num (value : Except Fault Number)
  | str (token : TextToken)
  | arr (items : Items)
  | obj (entries : Entries)
  | missing (fault : Fault)
  /--
  A word or number that breaks off: the fault for a reader of it, and for one
  that skips it.
  -/
  | broken (read skip : Fault)

inductive Items
  | nil
  | cons (item : Outline) (rest : Items)
  | broken (afterComma : Bool) (fault : Fault)

inductive Entries
  | nil
  | cons (key : TextToken) (value : Outline) (rest : Entries)
  | broken (fault : Fault)

end

mutual

def Outline.skip : Outline -> Except Fault Unit
  | .null => .ok ()
  | .bool _ => .ok ()
  | .num _ => .ok ()
  | .str token => token.extent
  | .arr items => items.skip
  | .obj entries => entries.skip
  | .missing fault => .error fault
  | .broken _ fault => .error fault

def Items.skip : Items -> Except Fault Unit
  | .nil => .ok ()
  | .cons item rest => do
      item.skip
      rest.skip
  | .broken _ fault => .error fault

def Entries.skip : Entries -> Except Fault Unit
  | .nil => .ok ()
  | .cons key value rest => do
      key.extent
      value.skip
      rest.skip
  | .broken fault => .error fault

end

mutual

/--
The document of an outline.  At most `room` lists and objects may stand inside
one another.
-/
def Outline.document (room : Nat) : Outline -> Except Fault Json
  | .null => .ok .null
  | .bool b => .ok (.bool b)
  | .num value => value.map .num
  | .str token => token.content.map .str
  | .arr items =>
      match room with
      | 0 => .error .malformed
      | room + 1 => (items.documents room).map .arr
  | .obj entries =>
      match room with
      | 0 => .error .malformed
      | room + 1 => (entries.members room []).map .obj
  | .missing fault => .error fault
  | .broken fault _ => .error fault

def Items.documents (room : Nat) : Items -> Except Fault (List Json)
  | .nil => .ok []
  | .cons item rest => do
      let first <- item.document room
      let others <- rest.documents room
      return first :: others
  | .broken _ fault => .error fault

def Entries.members (room : Nat) (before : List (String × Json)) :
    Entries -> Except Fault (List (String × Json))
  | .nil => .ok before
  | .cons key value rest => do
      let name <- key.content
      let document <- value.document room
      rest.members room (Keyed.put name document before)
  | .broken fault => .error fault

end

def maxDepth : Nat := 127

end Json
end TableStore
