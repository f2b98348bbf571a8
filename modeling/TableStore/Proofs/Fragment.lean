import TableStore.Fragment

/-!
# The algebra of fragments

Wrapping and joining are concatenations, so a property that holds of plain text
and is kept by concatenation holds of everything that is built from fragments.
-/

namespace TableStore
namespace Fragment

theorem eq_of_text_params {a b : Fragment} (htext : a.text = b.text)
    (hparams : a.params = b.params) : a = b := by
  cases a
  cases b
  cases htext
  cases hparams
  rfl

@[simp] theorem text_ofText (text : String) : (ofText text).text = text := rfl

@[simp] theorem params_ofText (text : String) : (ofText text).params = [] := rfl

theorem append_assoc (a b c : Fragment) : a ++ b ++ c = a ++ (b ++ c) := by
  apply eq_of_text_params
  · simp [String.append_assoc]
  · simp

theorem wrap_eq_append (before after : String) (fragment : Fragment) :
    fragment.wrap before after = ofText before ++ fragment ++ ofText after := by
  apply eq_of_text_params
  · rfl
  · simp [wrap]

/-!
# Joining
-/

theorem join_nil (separator : String) : join separator [] = ofText "" := rfl

theorem join_singleton (separator : String) (fragment : Fragment) :
    join separator [fragment] = fragment := by
  apply eq_of_text_params
  · rfl
  · simp

theorem join_cons_cons (separator : String) (first second : Fragment)
    (rest : List Fragment) :
    join separator (first :: second :: rest) =
      first ++ ofText separator ++ join separator (second :: rest) := by
  apply eq_of_text_params
  · rfl
  · simp

theorem join_merge (separator : String) (first second : Fragment)
    (rest : List Fragment) :
    join separator (first :: second :: rest) =
      join separator ((first ++ ofText separator ++ second) :: rest) := by
  rw [join_cons_cons]
  cases rest with
  | nil => rw [join_singleton, join_singleton]
  | cons third rest =>
      rw [join_cons_cons, join_cons_cons, append_assoc, append_assoc,
        append_assoc, append_assoc, append_assoc]

theorem join_join_cons (separator : String) (first : Fragment)
    (others rest : List Fragment) :
    join separator (join separator (first :: others) :: rest) =
      join separator (first :: others ++ rest) := by
  induction others generalizing first with
  | nil => rw [join_singleton]; rfl
  | cons second others ih =>
      rw [join_merge separator first second others]
      rw [ih (first ++ ofText separator ++ second)]
      exact (join_merge separator first second (others ++ rest)).symm

theorem join_append_congr {separator : String} (front : List Fragment)
    {rest other : List Fragment}
    (hjoin : join separator rest = join separator other)
    (hnil : rest = [] <-> other = []) :
    join separator (front ++ rest) = join separator (front ++ other) := by
  cases rest with
  | nil => rw [hnil.mp rfl]
  | cons a rest =>
      cases other with
      | nil => cases hnil.mpr rfl
      | cons b other =>
          induction front with
          | nil => exact hjoin
          | cons first front ih =>
              cases front with
              | nil =>
                  rw [List.singleton_append, List.singleton_append,
                    join_cons_cons, join_cons_cons, hjoin]
              | cons second front =>
                  rw [List.cons_append, List.cons_append] at ih ⊢
                  rw [List.cons_append, List.cons_append, join_cons_cons, ih,
                    join_cons_cons]

end Fragment
end TableStore
