import TableStore.Text.Percent
import TableStore.Text.Shown

/-!
# Addresses of databases

A database is named by a path, by `:memory:`, or by an address that starts with
`sqlite:` and may end with options behind a question mark.
-/

namespace TableStore
namespace Database

inductive Place
  | memory
  | file (path : String)
deriving DecidableEq

structure Address where
  place : Place
  create : Bool
  readOnly : Bool
deriving DecidableEq

namespace Address

def memory : Address :=
  ⟨.memory, false, false⟩

/-- A database in the file of a path; the empty path names no file. -/
def ofPath (path : String) (create : Bool) : Address :=
  if path.isEmpty then memory else ⟨.file path, create, false⟩

def unknownValue (value option : String) : String :=
  "unknown value " ++ Text.shown value ++ " for \x60" ++ option ++ "\x60"

def applyOption (address : Address) (option value : String) :
    Except String Address :=
  match option, value with
  | "mode", "ro" => .ok { address with readOnly := true }
  | "mode", "rw" => .ok address
  | "mode", "rwc" => .ok { address with create := true }
  | "mode", "memory" => .ok { address with place := .memory }
  | "cache", "private" => .ok address
  | "cache", "shared" => .ok address
  | "immutable", "true" => .ok address
  | "immutable", "1" => .ok address
  | "immutable", "false" => .ok address
  | "immutable", "0" => .ok address
  | "vfs", _ => .ok address
  | "mode", _ => .error (unknownValue value option)
  | "cache", _ => .error (unknownValue value option)
  | "immutable", _ => .error (unknownValue value option)
  | _, _ =>
      .error ("unknown query parameter \x60" ++ option ++
        "\x60 while parsing connection URL")

def optionText (s : List Char) : String :=
  String.ofList (Text.percentDecode (s.map fun c => if c = '+' then ' ' else c))

/-- Applies the options of an address, from left to right. -/
def applyOptions (address : Address) (options : List Char) :
    Except String Address :=
  ((Text.splitAt '&' options).filter fun part => !part.isEmpty).foldlM
    (fun address part =>
      let (option, value?) := Text.cutAt '=' part
      applyOption address (optionText option) (optionText (value?.getD [])))
    address

def isAddress (name : String) : Bool :=
  "sqlite:".toList.isPrefixOf name.toList

def ofScheme (name : String) : Except String Address :=
  let s := name.toList
  let s := Text.dropRepeated "sqlite://".toList s.length s
  let s := Text.dropRepeated "sqlite:".toList s.length s
  let (path, options?) := Text.cutAt '?' s
  let address :=
    if path = ":memory:".toList then memory
    else ofPath (String.ofList (Text.percentDecode path)) false
  match options? with
  | none => .ok address
  | some options => applyOptions address options

def ofName (name : String) : Except String Address :=
  if isAddress name then ofScheme name
  else if name = ":memory:" then .ok memory
  else .ok (ofPath name true)

end Address
end Database
end TableStore
