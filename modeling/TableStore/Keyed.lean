/-!
# Lists of named values

A list of pairs of a name and a value, in which a value put under a name that is
already there takes the place of the old one.

## Main statements

Putting a value adds its name at the end or not at all, so names stay distinct,
and looking a name up gives the value that was put last.
-/

namespace TableStore
namespace Keyed

variable {α : Type}

/-- The names of a list, in order. -/
def keys (entries : List (String × α)) : List String :=
  entries.map Prod.fst

def get? (key : String) : List (String × α) -> Option α
  | [] => none
  | (name, value) :: rest => if name = key then some value else get? key rest

/-- Replaces the value under a name, or adds the name at the end. -/
def put (key : String) (value : α) : List (String × α) -> List (String × α)
  | [] => [(key, value)]
  | (name, old) :: rest =>
      if name = key then (name, value) :: rest
      else (name, old) :: put key value rest

@[simp] theorem keys_nil : keys ([] : List (String × α)) = [] := rfl

@[simp] theorem keys_cons (entry : String × α) (rest : List (String × α)) :
    keys (entry :: rest) = entry.1 :: keys rest := rfl

theorem keys_put (key : String) (value : α) (entries : List (String × α)) :
    keys (put key value entries) =
      if key ∈ keys entries then keys entries else keys entries ++ [key] := by
  induction entries with
  | nil => rfl
  | cons entry rest ih =>
      obtain ⟨name, old⟩ := entry
      by_cases h : name = key
      · simp [put, h]
      · have h' : ¬ key = name := fun hk => h hk.symm
        simp only [put, if_neg h, keys_cons, ih, List.mem_cons, h', false_or]
        split <;> simp

theorem nodup_keys_put (key : String) (value : α)
    {entries : List (String × α)} (h : (keys entries).Nodup) :
    (keys (put key value entries)).Nodup := by
  rw [keys_put]
  split
  · exact h
  · rename_i hk
    rw [List.nodup_append]
    refine ⟨h, by simp, ?_⟩
    intro a ha b hb
    have hb' : b = key := by simpa using hb
    exact fun hab => hk (hb' ▸ hab ▸ ha)

theorem get?_put (key name : String) (value : α)
    (entries : List (String × α)) :
    get? name (put key value entries) =
      if key = name then some value else get? name entries := by
  induction entries with
  | nil => rfl
  | cons entry rest ih =>
      obtain ⟨first, old⟩ := entry
      by_cases h : first = key
      · subst h
        by_cases hn : first = name
        · simp [put, get?, hn]
        · simp [put, get?, hn]
      · by_cases hn : first = name
        · have hk : ¬ key = name := fun hk => h (hn.trans hk.symm)
          simp only [put, if_neg h, get?, if_pos hn, if_neg hk]
        · simp [put, get?, h, hn, ih]

theorem get?_eq_none_iff (key : String) (entries : List (String × α)) :
    get? key entries = none ↔ key ∉ keys entries := by
  induction entries with
  | nil => simp [get?]
  | cons entry rest ih =>
      obtain ⟨name, value⟩ := entry
      by_cases h : name = key
      · simp [get?, h]
      · have h' : ¬ key = name := fun hk => h hk.symm
        simp [get?, h, h', ih]

end Keyed
end TableStore
