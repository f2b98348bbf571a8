import Mathlib.Data.List.Induction
import Mathlib.Data.List.Nodup
import TableStore.Keyed

/-!
# Lists of named values by their names

The names that stay of a list when every repetition is left out, and the values
of a list with distinct names.
-/

namespace TableStore

theorem eraseDups_concat (names : List String) (name : String) :
    (names ++ [name]).eraseDups =
      if name ∈ names then names.eraseDups else names.eraseDups ++ [name] := by
  rw [List.eraseDups_append]
  by_cases hname : name ∈ names
  · simp [List.removeAll, hname]
  · simp [List.removeAll, hname, List.eraseDups_cons]

theorem append_removeAll_concat (listed added : List String) (name : String) :
    listed ++ ((added ++ [name]).removeAll listed).eraseDups =
      if name ∈ listed ++ (added.removeAll listed).eraseDups then
        listed ++ (added.removeAll listed).eraseDups
      else listed ++ (added.removeAll listed).eraseDups ++ [name] := by
  have hsplit : (added ++ [name]).removeAll listed =
      added.removeAll listed ++ [name].removeAll listed :=
    List.filter_append added [name]
  rw [hsplit]
  by_cases hlisted : name ∈ listed
  · have hnone : [name].removeAll listed = [] := by simp [List.removeAll, hlisted]
    rw [hnone, List.append_nil, if_pos (List.mem_append_left _ hlisted)]
  · have hone : [name].removeAll listed = [name] := by simp [List.removeAll, hlisted]
    rw [hone, eraseDups_concat]
    simp only [List.mem_append, List.mem_eraseDups, hlisted, false_or]
    split
    · rfl
    · rw [List.append_assoc]

theorem nodup_eraseDups (names : List String) : names.eraseDups.Nodup := by
  induction names using List.reverseRecOn with
  | nil => exact List.nodup_nil
  | append_singleton names name ih =>
      rw [eraseDups_concat]
      split
      · exact ih
      · rename_i hname
        rw [<- List.mem_eraseDups] at hname
        rw [<- List.concat_eq_append]
        exact List.Nodup.concat hname ih

theorem eraseDups_of_nodup {names : List String} (h : names.Nodup) :
    names.eraseDups = names := by
  induction names with
  | nil => rfl
  | cons name names ih =>
      rw [List.nodup_cons] at h
      rw [List.eraseDups_cons, List.filter_eq_self.mpr, ih h.right]
      intro other hother
      have hne : other ≠ name := fun heq => h.left (heq ▸ hother)
      simpa using hne

namespace Keyed

variable {α : Type}

theorem eq_zip (entries : List (String × α)) :
    entries = (keys entries).zip (entries.map Prod.snd) :=
  List.zip_of_prod rfl rfl

theorem map_some_values {entries : List (String × α)}
    (hdistinct : (keys entries).Nodup) :
    (entries.map Prod.snd).map some =
      (keys entries).map fun key => get? key entries := by
  induction entries with
  | nil => rfl
  | cons entry rest ih =>
      rcases entry with ⟨name, value⟩
      rw [keys_cons, List.nodup_cons] at hdistinct
      have hrest : forall key, key ∈ keys rest ->
          get? key ((name, value) :: rest) = get? key rest := by
        intro key hkey
        have hother : name ≠ key := fun heq => hdistinct.left (heq ▸ hkey)
        rw [get?, if_neg hother]
      rw [keys_cons, List.map_cons, List.map_cons, List.map_cons,
        List.map_congr_left hrest, ih hdistinct.right, get?, if_pos rfl]

theorem keys_map_values (change : String -> α -> α) (entries : List (String × α)) :
    keys (entries.map fun entry => (entry.1, change entry.1 entry.2)) =
      keys entries := by
  rw [keys, List.map_map]
  rfl

theorem get?_map_values (change : String -> α -> α) (key : String)
    (entries : List (String × α)) :
    get? key (entries.map fun entry => (entry.1, change entry.1 entry.2)) =
      (get? key entries).map (change key) := by
  induction entries with
  | nil => rfl
  | cons entry rest ih =>
      rcases entry with ⟨name, value⟩
      rw [List.map_cons, get?, get?, ih]
      by_cases hname : name = key <;> simp [hname]

/-- Distinct names in order and the values under them determine a list. -/
theorem eq_of_keys_of_get? {entries others : List (String × α)}
    (hdistinct : (keys entries).Nodup) (hkeys : keys entries = keys others)
    (hget : forall key, get? key entries = get? key others) :
    entries = others := by
  have hvalues : entries.map Prod.snd = others.map Prod.snd := by
    have hsome : (entries.map Prod.snd).map some =
        (others.map Prod.snd).map some := by
      rw [map_some_values hdistinct, map_some_values (hkeys ▸ hdistinct), hkeys]
      exact List.map_congr_left fun key _ => hget key
    exact (List.map_inj_right fun _ _ heq => Option.some.inj heq).mp hsome
  rw [eq_zip entries, eq_zip others, hkeys, hvalues]

end Keyed
end TableStore
