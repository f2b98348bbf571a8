import TableStore.Proofs.Engine.Tables

/-!
# Stores in order

What commands leave behind: a table that is created is one of the declared columns
without records, a table that is changed or extended stays in order, and so does every
table of a store, whatever texts are run on it.
-/

namespace TableStore

def Sql.ColumnSpec.NumbersRecords (spec : ColumnSpec) : Prop :=
  Text.foldCase spec.type = "integer" ∧
    exists neverReused, ColumnRule.primaryKey neverReused ∈ spec.rules

namespace Engine

open Sql (ColumnSpec)

namespace Store

theorem mem_of_get {store : Store} {name : String} {table : Table}
    (h : store.get name = .ok table) : table ∈ store.tables := by
  rw [get] at h
  cases hfind : store.find? name with
  | none =>
      rw [hfind] at h
      cases h
  | some found =>
      rw [hfind] at h
      cases h
      exact List.mem_of_find?_eq_some hfind

def Regular (store : Store) : Prop :=
  forall table, table ∈ store.tables -> table.Regular

theorem regular_empty : Regular .empty :=
  fun _ hmem => nomatch hmem

section Regular

variable {store : Store}

theorem Regular.put (h : store.Regular) {table : Table} (htable : table.Regular) :
    (store.put table).Regular := by
  intro other hmem
  rcases List.mem_map.mp hmem with ⟨old, hold, rfl⟩
  split
  · exact htable
  · exact h old hold

theorem Regular.add (h : store.Regular) {table : Table} (htable : table.Regular) :
    (store.add table).Regular := by
  intro other hmem
  rcases List.mem_append.mp hmem with hold | hnew
  · exact h other hold
  · rw [List.mem_singleton.mp hnew]
    exact htable

theorem Regular.remove (h : store.Regular) (name : String) :
    (store.remove name).Regular :=
  fun other hmem => h other (List.mem_filter.mp hmem).left

end Regular

end Store

namespace Table

/-!
# Declared columns
-/

/-- What the rules of a column leave of a table under construction. -/
structure Draft.Ruled (position : Nat) (spec : ColumnSpec) (draft after : Draft) :
    Prop where
  name_eq : after.table.name = draft.table.name
  records_eq : after.table.records = draft.table.records
  fields_eq : after.table.fields = draft.table.fields
  primaryKey : draft.hasPrimaryKey = true -> after.hasPrimaryKey = true
  key : forall found, after.table.keyField? = some found ->
    draft.table.keyField? = some found ∨
      (draft.hasPrimaryKey = false ∧ found = position ∧ spec.NumbersRecords)

theorem Draft.Ruled.refl (position : Nat) (spec : ColumnSpec) (draft : Draft) :
    Ruled position spec draft draft :=
  ⟨rfl, rfl, rfl, id, fun _ => .inl⟩

theorem Draft.Ruled.step {position : Nat} {spec : ColumnSpec}
    {draft before after : Draft} (h : Ruled position spec draft before)
    {rule : Sql.ColumnRule} (hmem : rule ∈ spec.rules)
    (happly : applyRule position spec.type before rule = .ok after) :
    Ruled position spec draft after := by
  cases rule with
  | notNull =>
      cases happly
      exact h
  | unique =>
      cases happly
      exact ⟨h.name_eq, h.records_eq, h.fields_eq, h.primaryKey, h.key⟩
  | primaryKey neverReused =>
      rw [applyRule] at happly
      split at happly
      · cases happly
      · rename_i hnone
        -- A second primary key is refused, so this one is the first.
        have hfirst : draft.hasPrimaryKey = false := by
          cases hdraft : draft.hasPrimaryKey with
          | false => rfl
          | true => exact absurd (h.primaryKey hdraft) hnone
        split at happly
        · rename_i htype
          cases happly
          refine ⟨h.name_eq, h.records_eq, h.fields_eq, fun _ => rfl, ?_⟩
          intro found hfound
          exact .inr ⟨hfirst, (Option.some.inj hfound).symm, htype, neverReused, hmem⟩
        · split at happly
          · cases happly
          · cases happly
            exact ⟨h.name_eq, h.records_eq, h.fields_eq,
              fun _ => rfl, h.key⟩
  | default value =>
      cases happly
      exact h
  | check condition text =>
      cases happly
      exact ⟨h.name_eq, h.records_eq, h.fields_eq, h.primaryKey, h.key⟩
  | references table column? =>
      cases happly
      exact h

variable [Conversions]

structure Draft.Grows (draft after : Draft) (spec : ColumnSpec) : Prop where
  name_eq : after.table.name = draft.table.name
  records_eq : after.table.records = draft.table.records
  new_name : draft.table.position? spec.name = none
  fields_eq : exists field, Field.ofSpec spec = .ok field ∧
    after.table.fields = draft.table.fields ++ [field]
  key : forall position, after.table.keyField? = some position ->
    draft.table.keyField? = some position ∨
      (draft.hasPrimaryKey = false ∧ position = draft.table.fields.length ∧
        spec.NumbersRecords)

theorem grows_of_addField {draft after : Draft} {spec : ColumnSpec}
    (h : addField draft spec = .ok after) : draft.Grows after spec := by
  unfold addField at h
  split at h
  · cases h
  · rename_i hnew
    rcases bind_eq_ok.mp h with ⟨field, hfield, hrules⟩
    have hruled := foldlM_preserves
      (Draft.Ruled draft.table.fields.length spec
        { draft with table.fields := draft.table.fields ++ [field] })
      (fun rule hmem before after hbefore => hbefore.step hmem)
      (Draft.Ruled.refl _ _ _) hrules
    exact ⟨hruled.name_eq, hruled.records_eq,
      Option.not_isSome_iff_eq_none.mp hnew, ⟨field, hfield, hruled.fields_eq⟩,
      hruled.key⟩

/-- A table without records that has the declared columns. -/
structure Declared (name : String) (specs : List ColumnSpec) (table : Table) :
    Prop where
  name_eq : table.name = name
  records_eq : table.records = []
  fields_eq : specs.mapM Field.ofSpec = .ok table.fields
  key : forall position, table.keyField? = some position ->
    exists spec, specs[position]? = some spec ∧ spec.NumbersRecords

theorem Declared.grows {name : String} {specs : List ColumnSpec}
    {draft after : Draft} (h : Declared name specs draft.table)
    {spec : ColumnSpec} (hgrows : draft.Grows after spec) :
    Declared name (specs ++ [spec]) after.table := by
  rcases hgrows.fields_eq with ⟨field, hfield, hfields⟩
  have hlength := length_of_mapM_ok h.fields_eq
  refine ⟨hgrows.name_eq.trans h.name_eq, hgrows.records_eq.trans h.records_eq,
    ?_, ?_⟩
  · rw [List.mapM_append, h.fields_eq, hfields, List.mapM_cons, hfield]
    rfl
  · intro position hposition
    rcases hgrows.key position hposition with hbefore | ⟨_, rfl, hnumbers⟩
    · rcases h.key position hbefore with ⟨found, hfound, hnumbers⟩
      refine ⟨found, ?_, hnumbers⟩
      rw [List.getElem?_append_left (List.getElem?_eq_some_iff.mp hfound).1]
      exact hfound
    · exact ⟨spec, by simp [hlength], hnumbers⟩

theorem declared_of_addFields {name : String} {specs : List ColumnSpec}
    {draft after : Draft} {before : List ColumnSpec}
    (hbefore : Declared name before draft.table)
    (h : specs.foldlM addField draft = .ok after) :
    Declared name (before ++ specs) after.table := by
  induction specs generalizing draft before with
  | nil =>
      cases h
      rw [List.append_nil]
      exact hbefore
  | cons spec specs ih =>
      rw [List.foldlM_cons, bind_eq_ok] at h
      rcases h with ⟨middle, hfirst, hrest⟩
      have hall := ih (hbefore.grows (grows_of_addField hfirst)) hrest
      rwa [List.append_assoc, List.singleton_append] at hall

theorem ofDraft_eq_ok {draft : Draft} {table : Table}
    (h : ofDraft draft = .ok table) :
    exists checks, table = { draft.table with checks := checks } := by
  unfold ofDraft at h
  rcases bind_eq_ok.mp h with ⟨checks, _, htable⟩
  cases htable
  exact ⟨_, rfl⟩

theorem declared_of_ofSpecs {name : String} {specs : List ColumnSpec}
    {table : Table} (h : ofSpecs name specs = .ok table) :
    Declared name specs table := by
  unfold ofSpecs at h
  rcases bind_eq_ok.mp h with ⟨draft, hfields, hdraft⟩
  have hstart : Declared name [] ⟨name, [], none, false, [], [], 0, []⟩ :=
    ⟨rfl, rfl, rfl, nofun⟩
  have hdeclared := declared_of_addFields hstart hfields
  rcases ofDraft_eq_ok hdraft with ⟨checks, rfl⟩
  exact ⟨hdeclared.name_eq, hdeclared.records_eq, hdeclared.fields_eq,
    hdeclared.key⟩

theorem Declared.regular {name : String} {specs : List ColumnSpec} {table : Table}
    (h : Declared name specs table) : table.Regular := by
  apply regular_of_no_records h.records_eq
  intro position hposition
  rcases h.key position hposition with ⟨spec, hspec, _⟩
  rw [length_of_mapM_ok h.fields_eq]
  exact (List.getElem?_eq_some_iff.mp hspec).1

theorem Regular.extend {table extended : Table} (h : table.Regular)
    {spec : ColumnSpec} {draft : Draft}
    (hgrows : Draft.Grows ⟨table, true, []⟩ draft spec)
    (hfields : extended.fields = draft.table.fields)
    (hkey : extended.keyField? = draft.table.keyField?) {cell : Cell}
    (hrecords : extended.records = table.records.map fun record =>
      { record with cells := record.cells ++ [cell] }) :
    extended.Regular := by
  rcases hgrows.fields_eq with ⟨field, _, hgrown⟩
  have hsame {position : Nat} (hposition : extended.keyField? = some position) :
      table.keyField? = some position := by
    rw [hkey] at hposition
    rcases hgrows.key position hposition with hold | ⟨hfirst, _⟩
    · exact hold
    · cases hfirst
  constructor
  · rw [hrecords, List.pairwise_map]
    exact h.ascending
  · intro record hmem
    rw [hrecords] at hmem
    rcases List.mem_map.mp hmem with ⟨old, hold, rfl⟩
    rw [hfields, hgrown, List.length_append, List.length_append, h.width old hold]
    rfl
  · intro position hposition
    have hlt := h.key_lt position (hsame hposition)
    rw [hfields, hgrown, List.length_append]
    exact Nat.lt_add_right _ hlt
  · intro position hposition record hmem
    rw [hrecords] at hmem
    rcases List.mem_map.mp hmem with ⟨old, hold, rfl⟩
    have hcell := h.key_cell position (hsame hposition) old hold
    dsimp only
    rw [List.getElem?_append_left (List.getElem?_eq_some_iff.mp hcell).1]
    exact hcell

end Table

/-!
# Commands
-/

namespace Store

theorem perm_filter_append {α : Type} (passes : α -> Bool) (items : List α) :
    items.Perm
      (items.filter passes ++ items.filter fun item => !passes item) :=
  (List.filter_append_perm passes items).symm

section
variable [Conversions]

theorem keepReferences_eq_ok {before after kept : Store}
    (h : before.keepReferences after = .ok kept) : kept = after := by
  rw [keepReferences] at h
  split at h
  · cases h
  · exact (Except.ok.inj h).symm

/--
What a command that is not refused makes of a store.  A table that takes the place of
another one is in order if that one is.
-/
inductive Becomes (store : Store) : Sql.Command -> Store -> Prop
  | stays (command : Sql.Command) : Becomes store command store
  | adds {name : String} {ifAbsent : Bool} {specs : List ColumnSpec}
      {table : Table} :
      table.Declared name specs ->
      Becomes store (.createTable name ifAbsent specs) (store.add table)
  | removes (name : String) (ifPresent : Bool) :
      Becomes store (.dropTable name ifPresent) (store.remove name)
  | puts {command : Sql.Command} {table changed : Table} :
      table ∈ store.tables -> (table.Regular -> changed.Regular) ->
      Becomes store command (store.put changed)
  | numbers (version : Int) :
      Becomes store (.setVersion version) { store with version := version }

section Becomes

variable {store after : Store} {name : String} {params : List Cell}

theorem becomes_createTable {ifAbsent : Bool} {specs : List ColumnSpec}
    (hrun : store.createTable name ifAbsent specs = .ok after) :
    store.Becomes (.createTable name ifAbsent specs) after := by
  unfold createTable at hrun
  split at hrun
  · cases ifAbsent with
    | true =>
        cases hrun
        exact .stays _
    | false => cases hrun
  · rcases bind_eq_ok.mp hrun with ⟨table, htable, hafter⟩
    cases hafter
    exact .adds (Table.declared_of_ofSpecs htable)

theorem becomes_dropTable {ifPresent : Bool}
    (hrun : store.dropTable name ifPresent = .ok after) :
    store.Becomes (.dropTable name ifPresent) after := by
  unfold dropTable at hrun
  split at hrun
  · cases ifPresent with
    | true =>
        cases hrun
        exact .stays _
    | false => cases hrun
  · rw [keepReferences_eq_ok hrun]
    exact .removes name ifPresent

theorem becomes_addColumn {spec : ColumnSpec}
    (hrun : store.addColumn name spec = .ok after) :
    store.Becomes (.addColumn name spec) after := by
  unfold addColumn at hrun
  rcases bind_eq_ok.mp hrun with ⟨table, htable, hrun⟩
  split at hrun
  · cases hrun
  · rcases bind_eq_ok.mp hrun with ⟨field, _, hrun⟩
    split at hrun
    · cases hrun
    · rcases bind_eq_ok.mp hrun with ⟨draft, hdraft, hrun⟩
      rcases bind_eq_ok.mp hrun with ⟨extended, hextended, hrun⟩
      rcases Table.ofDraft_eq_ok hextended with ⟨checks, rfl⟩
      split at hrun
      · cases hrun
      · cases hrun
        exact .puts (mem_of_get htable) fun hregular =>
          hregular.extend (Table.grows_of_addField hdraft) rfl rfl rfl

theorem length_of_mem_newRows {table : Table} {rows : Sql.NewRows}
    {cells : List (List Cell)}
    (h : newRows table name params rows = .ok cells) :
    forall row, row ∈ cells -> row.length = table.fields.length := by
  unfold newRows at h
  cases rows with
  | defaults =>
      cases h
      intro row hmem
      rw [List.mem_singleton.mp hmem, List.length_map]
  | values columns? rows =>
      rcases bind_eq_ok.mp h with ⟨positions, _, h⟩
      rcases bind_eq_ok.mp h with ⟨values, _, h⟩
      rcases bind_eq_ok.mp h with ⟨_, _, h⟩
      cases h
      intro row hmem
      rcases List.mem_map.mp hmem with ⟨value, _, rfl⟩
      rw [arrangeCells, List.length_map, List.length_zipIdx]

theorem becomes_insert {rows : Sql.NewRows} {count : Nat}
    (hrun : store.insert name params rows = .ok (after, count)) :
    store.Becomes (.insert name rows) after := by
  unfold insert at hrun
  rcases bind_eq_ok.mp hrun with ⟨table, htable, hrun⟩
  rcases bind_eq_ok.mp hrun with ⟨cells, hcells, hrun⟩
  rcases bind_eq_ok.mp hrun with ⟨_, _, hrun⟩
  rcases bind_eq_ok.mp hrun with ⟨filled, hfilled, hrun⟩
  rcases bind_eq_ok.mp hrun with ⟨kept, hkept, hrun⟩
  cases hrun
  rw [keepReferences_eq_ok hkept]
  refine .puts (mem_of_get htable) fun hregular => ?_
  -- The fields stay, so that each row is as wide as the table it comes to.
  have hwidth := length_of_mem_newRows hcells
  have hall := foldlM_preserves
    (fun other => other.Regular ∧ other.fields = table.fields) (fun row hmem
      before next hbefore hinsert => by
        refine ⟨hbefore.left.insertCells ?_ hinsert, ?_⟩
        · rw [hwidth row hmem, hbefore.right]
        · rcases Table.insertCells_eq_ok hinsert with ⟨id, _, _, rfl⟩
          exact hbefore.right)
    ⟨hregular, rfl⟩ hfilled
  exact hall.left

theorem becomes_update {assignments : List (String × Sql.Expr)}
    {condition? : Option Sql.Expr} {count : Nat}
    (hrun : store.update name params assignments condition? =
      .ok (after, count)) :
    store.Becomes (.update name assignments condition?) after := by
  unfold update at hrun
  rcases bind_eq_ok.mp hrun with ⟨table, htable, hrun⟩
  rcases bind_eq_ok.mp hrun with ⟨_, _, hrun⟩
  rcases bind_eq_ok.mp hrun with ⟨_, _, hrun⟩
  rcases bind_eq_ok.mp hrun with ⟨_, _, hrun⟩
  rcases bind_eq_ok.mp hrun with ⟨updated, hupdated, hrun⟩
  rcases bind_eq_ok.mp hrun with ⟨kept, hkept, hrun⟩
  cases hrun
  rw [keepReferences_eq_ok hkept]
  refine .puts (mem_of_get htable) fun hregular => ?_
  rcases hregular.foldlM_updateRecord (perm_filter_append _ _) hupdated with
    ⟨_, _, hafter, _, _⟩
  exact hafter

theorem becomes_delete {condition? : Option Sql.Expr} {count : Nat}
    (hrun : store.delete name params condition? = .ok (after, count)) :
    store.Becomes (.delete name condition?) after := by
  unfold delete at hrun
  rcases bind_eq_ok.mp hrun with ⟨table, htable, hrun⟩
  rcases bind_eq_ok.mp hrun with ⟨_, _, hrun⟩
  rcases bind_eq_ok.mp hrun with ⟨_, _, hrun⟩
  rw [List.partition_eq_filter_filter] at hrun
  rcases bind_eq_ok.mp hrun with ⟨kept, hkept, hrun⟩
  cases hrun
  rw [keepReferences_eq_ok hkept]
  exact .puts (mem_of_get htable) fun hregular =>
    hregular.sublist List.filter_sublist

theorem Becomes.regular {command : Sql.Command}
    (hbecomes : store.Becomes command after) (h : store.Regular) :
    after.Regular := by
  cases hbecomes with
  | stays => exact h
  | adds hdeclared => exact h.add hdeclared.regular
  | removes name ifPresent => exact h.remove name
  | puts hmem hkept => exact h.put (hkept (h _ hmem))
  | numbers version => exact h

end Becomes

end

theorem becomes_of_run [Dialect] {store after : Store} {params : List Cell}
    {command : Sql.Command} {outcome : Outcome}
    (hrun : store.run params command = .ok (after, outcome)) :
    store.Becomes command after := by
  cases command with
  | createTable table ifAbsent columns =>
      rcases bind_eq_ok.mp hrun with ⟨made, hmade, hafter⟩
      cases hafter
      exact becomes_createTable hmade
  | dropTable table ifPresent =>
      rcases bind_eq_ok.mp hrun with ⟨made, hmade, hafter⟩
      cases hafter
      exact becomes_dropTable hmade
  | addColumn table column =>
      rcases bind_eq_ok.mp hrun with ⟨made, hmade, hafter⟩
      cases hafter
      exact becomes_addColumn hmade
  | insert table rows =>
      rcases bind_eq_ok.mp hrun with ⟨made, hmade, hafter⟩
      cases hafter
      exact becomes_insert hmade
  | select query =>
      rcases bind_eq_ok.mp hrun with ⟨rows, _, hafter⟩
      cases hafter
      exact .stays _
  | update table assignments condition? =>
      rcases bind_eq_ok.mp hrun with ⟨made, hmade, hafter⟩
      cases hafter
      exact becomes_update hmade
  | delete table condition? =>
      rcases bind_eq_ok.mp hrun with ⟨made, hmade, hafter⟩
      cases hafter
      exact becomes_delete hmade
  | version =>
      cases hrun
      exact .stays _
  | setVersion version =>
      cases hrun
      exact .numbers version

end Store

namespace Session

variable [Dialect]

theorem becomes_perform (session : Session Store) (params : List Cell)
    (command : Sql.Command) :
    session.store.Becomes command (session.perform params command).1.store := by
  rcases session.perform_done_or_failed params command with
    ⟨after, outcome, hrun, hdone⟩ | ⟨error, changes, hfailed⟩
  · rw [hdone]
    exact Store.becomes_of_run hrun
  · rw [hfailed]
    exact .stays command

/-- No text leaves a table out of order, whether or not it is run to its end. -/
theorem runText_regular {session : Session Store} (h : session.store.Regular)
    (params : List Cell) (text : String) :
    (session.runText params text).1.store.Regular := by
  apply runTokens_preserves fun other => other.store.Regular
  · exact fun command _ before hbefore =>
      (before.becomes_perform params command).regular hbefore
  · exact h

end Session

end Engine
end TableStore
