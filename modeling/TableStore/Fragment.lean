import TableStore.Text.Join
import TableStore.Value.Basic

/-!
# Fragments of statements

A piece of statement text together with the values for its placeholders, in the
order in which the placeholders stand in the text.
-/

namespace TableStore

/-- Statement text and the values for its placeholders. -/
structure Fragment where
  /-- The text, with a question mark for each value. -/
  text : String
  /-- The values, in the order of their placeholders. -/
  params : List Value
deriving DecidableEq

namespace Fragment

def ofText (text : String) : Fragment :=
  ⟨text, []⟩

def append (first second : Fragment) : Fragment :=
  ⟨first.text ++ second.text, first.params ++ second.params⟩

instance : Append Fragment := ⟨append⟩

def wrap (before : String) (fragment : Fragment) (after : String) : Fragment :=
  ⟨before ++ fragment.text ++ after, fragment.params⟩

def parenthesized (fragment : Fragment) : Fragment :=
  fragment.wrap "(" ")"

/-- Fragments one after another, with a separator between neighbours. -/
def join (separator : String) (fragments : List Fragment) : Fragment :=
  ⟨Text.join separator (fragments.map (·.text)),
    fragments.flatMap (·.params)⟩

@[simp] theorem text_append (a b : Fragment) :
    (a ++ b).text = a.text ++ b.text := rfl

@[simp] theorem params_append (a b : Fragment) :
    (a ++ b).params = a.params ++ b.params := rfl

@[simp] theorem text_parenthesized (fragment : Fragment) :
    fragment.parenthesized.text = "(" ++ fragment.text ++ ")" := rfl

@[simp] theorem params_parenthesized (fragment : Fragment) :
    fragment.parenthesized.params = fragment.params := rfl

@[simp] theorem text_join (separator : String) (fragments : List Fragment) :
    (join separator fragments).text =
      Text.join separator (fragments.map (·.text)) := rfl

@[simp] theorem params_join (separator : String) (fragments : List Fragment) :
    (join separator fragments).params = fragments.flatMap (·.params) := rfl

end Fragment
end TableStore
