import TableStore.Json.Mismatch
import TableStore.Json.Scan

/-!
# Typed reading

Readers that take parts of an outline as texts, flags, versions, lists and
records.

A record may be written as an object, in which unknown names are skipped, or as
the list of its fields in their order.  A reader looks at the parts from left
to right, and its first complaint is the one that is reported.
-/

namespace TableStore
namespace Json

abbrev Read (α : Type) := Except Refusal α

def ofFault {α : Type} (result : Except Fault α) : Read α :=
  result.mapError .fault

def refuse {α : Type} (mismatch : Mismatch) : Read α :=
  .error (.mismatch mismatch)

/-- The name of a part in a report; a word or number must be complete. -/
def Outline.found : Outline -> Except Fault Found
  | .null => .ok .null
  | .bool b => .ok (.bool b)
  | .num value => value.map .num
  | .str token => token.content.map .str
  | .arr _ => .ok .list
  | .obj _ => .ok .object
  | .missing fault => .error fault
  | .broken fault _ => .error fault

def Outline.unwanted {α : Type} (part : Outline) (wanted : String) : Read α := do
  let found <- ofFault part.found
  refuse (.kind found wanted)

def Outline.text : Outline -> Read String
  | .str token => ofFault token.content
  | part => part.unwanted "a string"

def Outline.flag : Outline -> Read Bool
  | .bool b => .ok b
  | part => part.unwanted "a boolean"

def Number.version : Number -> Read UInt32
  | .int n =>
      match Decimal.uint32? n with
      | some version => .ok version
      | none => refuse (.range (.num (.int n)) "u32")
  | .float x => refuse (.kind (.num (.float x)) "u32")

def Outline.version : Outline -> Read UInt32
  | .num value => do
      let n <- ofFault value
      Number.version n
  | part => part.unwanted "u32"

def Items.mapRead {α : Type} (read : Outline -> Read α) : Items -> Read (List α)
  | .nil => .ok []
  | .cons item rest => do
      let first <- read item
      let others <- rest.mapRead read
      return first :: others
  | .broken _ fault => .error (.fault fault)

def Outline.list {α : Type} (read : Outline -> Read α) : Outline -> Read (List α)
  | .arr items => items.mapRead read
  | part => part.unwanted "a sequence"

def Entries.foldRead {σ : Type} (step : σ -> TextToken -> Outline -> Read σ) :
    σ -> Entries -> Read σ
  | state, .nil => .ok state
  | state, .cons key value rest => do
      let next <- step state key value
      rest.foldRead step next
  | _, .broken fault => .error (.fault fault)

def Outline.entries {σ : Type} (step : σ -> TextToken -> Outline -> Read σ)
    (start : σ) : Outline -> Read σ
  | .obj entries => entries.foldRead step start
  | part => part.unwanted "a map"

/-!
# Records
-/

def Items.next : Items -> Read (Option (Outline × Items))
  | .nil => .ok none
  | .cons item rest => .ok (some (item, rest))
  | .broken _ fault => .error (.fault fault)

def Items.finish : Items -> Read Unit
  | .nil => .ok ()
  | .cons _ _ => .error (.fault .malformed)
  | .broken afterComma fault =>
      .error (.fault (if afterComma then .malformed else fault))

def Items.required {α : Type} (items : Items) (position : Nat) (wanted : String)
    (read : Outline -> Read α) : Read (α × Items) := do
  match <- items.next with
  | some (item, rest) => return (<- read item, rest)
  | none => refuse (.length position wanted)

/-- Reads the next field of a record, which may be left out with all others. -/
def Items.optional {α : Type} (items : Items) (missing : α)
    (read : Outline -> Read α) : Read (α × Items) := do
  match <- items.next with
  | some (item, rest) => return (<- read item, rest)
  | none => return (missing, items)

def readField {α : Type} (name : String) (before : Option α)
    (read : Outline -> Read α) (value : Outline) : Read (Option α) :=
  match before with
  | some _ => refuse (.repeated name)
  | none => do return some (<- read value)

def skipField {σ : Type} (state : σ) (value : Outline) : Read σ := do
  ofFault value.skip
  return state

def requireField {α : Type} (name : String) : Option α -> Read α
  | some value => .ok value
  | none => refuse (.missing name)

def Outline.record {α σ : Type} (wanted : String) (ofItems : Items -> Read α)
    (start : σ) (step : σ -> String -> Outline -> Read σ)
    (finish : σ -> Read α) : Outline -> Read α
  | .arr items => ofItems items
  | .obj entries => do
      let state <- entries.foldRead
        (fun state key value => do
          let name <- ofFault key.content
          step state name value)
        start
      finish state
  | part => part.unwanted wanted

/-!
# Words
-/

/--
Reads one of a fixed list of words: as a text, or as the only key of an object
whose value is `null`.
-/
def Outline.word {α : Type} (lookup : String -> Option α)
    (known : List String) (part : Outline) : Read α := do
  let choose (name : String) : Read α :=
    match lookup name with
    | some value => .ok value
    | none => refuse (.word name known)
  match part with
  | .str token => choose (<- ofFault token.content)
  | .obj (.cons key value rest) =>
      let choice <- choose (<- ofFault key.content)
      match value with
      | .null => pure ()
      | _ => value.unwanted "unit"
      match rest with
      | .nil => return choice
      | .cons _ _ _ => .error (.fault .malformed)
      | .broken fault => .error (.fault fault)
  | .obj (.broken fault) => .error (.fault fault)
  | .missing fault => .error (.fault fault)
  | _ => .error (.fault .malformed)

def readText {α : Type} (read : Outline -> Read α) (text : String) : Read α :=
  readWhole .fault read text

end Json
end TableStore
