import TableStore.Column.Document
import TableStore.Proofs.Keyed

/-!
# Names of columns

Columns that are added one after another have distinct names, and the last
definition of a name is the one that is found.  Columns of a document are taken
as they stand there, so that their names are distinct just when the document
lists distinct ones.
-/

namespace TableStore
namespace Columns

theorem names_insert (columns : Columns) (column : Column) :
    (columns.insert column).names =
      if column.name ∈ columns.names then columns.names
      else columns.names ++ [column.name] := by
  rcases columns with ⟨columns⟩
  change (insertInto column columns).map (·.name) =
    if column.name ∈ columns.map (·.name) then columns.map (·.name)
    else columns.map (·.name) ++ [column.name]
  induction columns with
  | nil => rfl
  | cons first rest ih =>
      rw [insertInto]
      by_cases hname : first.name = column.name
      · simp [hname]
      · have hother : column.name ≠ first.name := fun heq => hname heq.symm
        rw [if_neg hname, List.map_cons, List.map_cons, ih]
        simp only [List.mem_cons, hother, false_or]
        split
        · rfl
        · rfl

theorem get?_insert (columns : Columns) (column : Column) (name : String) :
    (columns.insert column).get? name =
      if column.name = name then some column else columns.get? name := by
  rcases columns with ⟨columns⟩
  change (insertInto column columns).find? (fun column => column.name = name) =
    if column.name = name then some column
    else columns.find? (fun column => column.name = name)
  induction columns with
  | nil =>
      by_cases hname : column.name = name <;> simp [insertInto, hname]
  | cons first rest ih =>
      rw [insertInto]
      by_cases hfirst : first.name = column.name
      · by_cases hname : column.name = name <;> simp [hfirst, hname]
      · rw [if_neg hfirst, List.find?_cons, List.find?_cons, ih]
        by_cases hname : first.name = name
        · have hother : column.name ≠ name := fun heq => hfirst (hname.trans heq.symm)
          simp [hname, hother]
        · simp [hname]

/-!
# Columns by how they were made
-/

/--
Columns that were made of definitions that were listed, which are taken as they
stand, and of definitions that were added behind them, one after another.
-/
inductive Made : List Column -> List Column -> Columns -> Prop
  | empty : Made [] [] empty
  | collected (given : List Column) : Made [] given (ofList given)
  | part {room : Nat} {part : Json.Outline} {listed : List Column}
      {columns : Columns}
      (hlisted : Json.Outline.list (Column.read room) part = .ok listed)
      (hcolumns : read room part = .ok columns) : Made listed [] columns
  | text {text : String} {listed : List Column} {columns : Columns}
      (hlisted : Json.readText
        (Json.Outline.list (Column.read (Json.maxDepth - 2))) text = .ok listed)
      (hcolumns : ofText text = .ok columns) : Made listed [] columns
  | insert {listed added : List Column} {columns : Columns}
      (h : Made listed added columns) (column : Column) :
      Made listed (added ++ [column]) (columns.insert column)

def last? (name : String) (given : List Column) : Option Column :=
  given.reverse.find? fun column => column.name = name

structure LastGiven (given : List Column) (columns : Columns) : Prop where
  nodup_names : columns.names.Nodup
  names_eq : columns.names = (given.map (·.name)).eraseDups
  get?_eq : forall name, columns.get? name = last? name given

/--
The columns that result when definitions are added to listed ones: an added
definition replaces the first one of its name.
-/
structure AsListed (listed added : List Column) (columns : Columns) : Prop where
  names_eq : columns.names = listed.map (·.name) ++
    ((added.map (·.name)).removeAll (listed.map (·.name))).eraseDups
  get?_eq : forall name, columns.get? name =
    (last? name added).or (listed.find? fun column => column.name = name)

theorem last?_append (name : String) (given others : List Column) :
    last? name (given ++ others) = (last? name others).or (last? name given) := by
  rw [last?, List.reverse_append, List.find?_append]
  rfl

theorem last?_singleton (name : String) (column : Column) :
    last? name [column] = if column.name = name then some column else none := by
  by_cases hname : column.name = name <;> simp [last?, hname]

/-- Among distinct names the last definition is the first one. -/
theorem last?_eq_find? {given : List Column}
    (hdistinct : (given.map (·.name)).Nodup) (name : String) :
    last? name given = given.find? fun column => column.name = name := by
  induction given with
  | nil => rfl
  | cons column given ih =>
      rw [List.map_cons, List.nodup_cons] at hdistinct
      have hsplit := last?_append name [column] given
      rw [List.singleton_append] at hsplit
      rw [hsplit, last?_singleton, ih hdistinct.right, List.find?_cons]
      by_cases hname : column.name = name
      · have hnone : given.find? (fun column => column.name = name) = none := by
          rw [List.find?_eq_none]
          intro other hother heq
          apply hdistinct.left
          rw [hname, <- of_decide_eq_true heq]
          exact List.mem_map_of_mem hother
        simp [hnone, hname]
      · simp [hname]

theorem asListed_mk (listed : List Column) : AsListed listed [] ⟨listed⟩ where
  names_eq := by
    change listed.map (·.name) = listed.map (·.name) ++ []
    rw [List.append_nil]
  get?_eq _ := rfl

theorem AsListed.insert {listed added : List Column} {columns : Columns}
    (h : AsListed listed added columns) (column : Column) :
    AsListed listed (added ++ [column]) (columns.insert column) where
  names_eq := by
    rw [names_insert, h.names_eq, List.map_append, List.map_singleton,
      append_removeAll_concat]
  get?_eq name := by
    rw [get?_insert, last?_append, last?_singleton, h.get?_eq]
    by_cases hname : column.name = name <;> simp [hname]

theorem AsListed.foldl_insert {listed added : List Column} {columns : Columns}
    (h : AsListed listed added columns) (given : List Column) :
    AsListed listed (added ++ given) (given.foldl Columns.insert columns) := by
  induction given generalizing added columns with
  | nil =>
      rw [List.append_nil]
      exact h
  | cons column given ih =>
      have hnext := ih (h.insert column)
      rw [List.append_assoc] at hnext
      exact hnext

theorem readText_map {α β : Type} (read : Json.Outline -> Json.Read α)
    (make : α -> β) (text : String) :
    Json.readText (fun part => (read part).map make) text =
      (Json.readText read text).map make := by
  rw [Json.readText, Json.readText, Json.readWhole, Json.readWhole]
  rcases Json.scanValue (4 * text.toList.length + 4) text.toList with ⟨part, after⟩
  change (Except.map make (read part)).bind _ = Except.map make ((read part).bind _)
  cases read part with
  | error refusal => rfl
  | ok found =>
      cases after with
      | none => rfl
      | some rest =>
          change (if (Json.skipBlanks rest).isEmpty then _ else _) =
            Except.map make (if (Json.skipBlanks rest).isEmpty then _ else _)
          split <;> rfl

theorem Made.asListed {listed added : List Column} {columns : Columns}
    (h : Made listed added columns) : AsListed listed added columns := by
  induction h with
  | empty => exact asListed_mk []
  | collected given => exact (asListed_mk []).foldl_insert given
  | part hlisted hcolumns =>
      rw [read, hlisted] at hcolumns
      cases hcolumns
      exact asListed_mk _
  | @text text listed columns hlisted hcolumns =>
      have hread : ofText text = (Json.readText
          (Json.Outline.list (Column.read (Json.maxDepth - 2))) text).map mk :=
        readText_map _ mk text
      rw [hread, hlisted] at hcolumns
      cases hcolumns
      exact asListed_mk listed
  | insert h column ih => exact ih.insert column

theorem AsListed.lastGiven_iff {listed added : List Column} {columns : Columns}
    (h : AsListed listed added columns) :
    LastGiven (listed ++ added) columns ↔ (listed.map (·.name)).Nodup := by
  constructor
  · intro hgiven
    have hnames := hgiven.nodup_names
    rw [h.names_eq] at hnames
    exact hnames.sublist (List.sublist_append_left _ _)
  · intro hlisted
    have hnames : columns.names = ((listed ++ added).map (·.name)).eraseDups := by
      rw [h.names_eq, List.map_append, List.eraseDups_append,
        eraseDups_of_nodup hlisted]
    refine ⟨hnames ▸ nodup_eraseDups _, hnames, ?_⟩
    intro name
    rw [h.get?_eq, last?_append, last?_eq_find? hlisted]

/--
Columns have distinct names in the order of their first definitions, each with
its last definition, just when the definitions that were taken as they stand in
a document have distinct names.  Of repeated ones each stays, and the first is
found and replaced.
-/
theorem last_definition_counts_iff {listed added : List Column}
    {columns : Columns} (h : Made listed added columns) :
    (LastGiven (listed ++ added) columns ↔ (listed.map (·.name)).Nodup) ∧
      AsListed listed added columns :=
  ⟨h.asListed.lastGiven_iff, h.asListed⟩

theorem eq_ok_of_toOption {α : Type} {result : Json.Read α} {found : α}
    (h : result.toOption = some found) : result = .ok found := by
  cases result with
  | error refusal => cases h
  | ok other =>
      cases h
      rfl

def twoNames : String :=
  "[\x7b\"name\":\"a\",\"type\":\"TEXT\"\x7d,\x7b\"name\":\"b\",\"type\":\"TEXT\"\x7d]"

theorem last_definition_counts_of_twoNames :
    exists columns,
      Made [⟨"a", .text, [], none⟩, ⟨"b", .text, [], none⟩]
        [⟨"a", .real, [], none⟩] columns ∧
      LastGiven [⟨"a", .text, [], none⟩, ⟨"b", .text, [], none⟩,
        ⟨"a", .real, [], none⟩] columns := by
  have hlisted : Json.readText
      (Json.Outline.list (Column.read (Json.maxDepth - 2))) twoNames =
        .ok [⟨"a", .text, [], none⟩, ⟨"b", .text, [], none⟩] :=
    eq_ok_of_toOption (by decide +kernel)
  have hcolumns : ofText twoNames =
      .ok ⟨[⟨"a", .text, [], none⟩, ⟨"b", .text, [], none⟩]⟩ :=
    eq_ok_of_toOption (by decide +kernel)
  have hmade := (Made.text hlisted hcolumns).insert ⟨"a", .real, [], none⟩
  exact ⟨_, hmade, (last_definition_counts_iff hmade).left.mpr (by decide)⟩

def oneName : String :=
  "[\x7b\"name\":\"a\",\"type\":\"TEXT\"\x7d,\x7b\"name\":\"a\",\"type\":\"REAL\"\x7d]"

theorem repeated_name_stays :
    ofText oneName = .ok ⟨[⟨"a", .text, [], none⟩, ⟨"a", .real, [], none⟩]⟩ ∧
      forall columns, ofText oneName = .ok columns ->
        columns.names = ["a", "a"] ∧
          columns.get? "a" = some ⟨"a", .text, [], none⟩ ∧
          ¬ LastGiven [⟨"a", .text, [], none⟩, ⟨"a", .real, [], none⟩] columns := by
  have hcolumns : ofText oneName =
      .ok ⟨[⟨"a", .text, [], none⟩, ⟨"a", .real, [], none⟩]⟩ :=
    eq_ok_of_toOption (by decide +kernel)
  refine ⟨hcolumns, ?_⟩
  intro columns hread
  rw [hcolumns] at hread
  cases hread
  exact ⟨rfl, by decide, fun h => absurd h.nodup_names (by decide)⟩

end Columns
end TableStore
