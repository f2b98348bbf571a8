/-!
# Blank characters

The characters with the Unicode property `White_Space`, and the removal of a
run of them from both ends of a text.
-/

namespace TableStore
namespace Text

/-- The code points that carry the Unicode property `White_Space`. -/
def isBlank (c : Char) : Bool :=
  let n := c.toNat
  (9 <= n && n <= 13) || n == 0x20 || n == 0x85 || n == 0xA0 || n == 0x1680 ||
    (0x2000 <= n && n <= 0x200A) || n == 0x2028 || n == 0x2029 ||
    n == 0x202F || n == 0x205F || n == 0x3000

def trimStart (s : List Char) : List Char :=
  s.dropWhile isBlank

def trimEnd (s : List Char) : List Char :=
  (s.reverse.dropWhile isBlank).reverse

def trim (s : String) : String :=
  String.ofList (trimEnd (trimStart s.toList))

@[simp] theorem trimStart_nil : trimStart [] = [] := rfl

theorem trimStart_cons_of_not_blank {c : Char} (h : isBlank c = false)
    (s : List Char) : trimStart (c :: s) = c :: s := by
  simp [trimStart, h]

theorem trimEnd_eq (s : List Char) :
    trimEnd s = (trimStart s.reverse).reverse := rfl

end Text
end TableStore
