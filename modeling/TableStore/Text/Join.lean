/-!
# Joining texts

A list of texts written one after another with a separator between two
neighbours.
-/

namespace TableStore
namespace Text

def join (separator : String) : List String -> String
  | [] => ""
  | [text] => text
  | text :: next :: rest => text ++ separator ++ join separator (next :: rest)

@[simp] theorem join_nil (separator : String) : join separator [] = "" := rfl

@[simp] theorem join_singleton (separator text : String) :
    join separator [text] = text := rfl

theorem join_cons_cons (separator text next : String) (rest : List String) :
    join separator (text :: next :: rest) =
      text ++ separator ++ join separator (next :: rest) := rfl

end Text
end TableStore
