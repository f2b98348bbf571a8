/-!
# Letter case of names

Two names that differ only in the case of the letters `a` to `z` are the same
name.  Other characters have no case here.
-/

namespace TableStore
namespace Text

/-- The small letter of a capital letter `A` to `Z`; any other character itself. -/
def foldChar (c : Char) : Char :=
  if 65 <= c.toNat && c.toNat <= 90 then Char.ofNat (c.toNat + 32) else c

def foldCase (name : String) : String :=
  String.ofList (name.toList.map foldChar)

def sameName (a b : String) : Bool :=
  foldCase a == foldCase b

theorem sameName_refl (a : String) : sameName a a = true := by
  simp [sameName]

end Text
end TableStore
