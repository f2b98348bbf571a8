import TableStore.Proofs.Engine.Session

/-!
# Faults are found by reading

A command that has been read may fail for many reasons, but none of them is a fault of
the text.  So a text that is read as one command is never answered with one.
-/

namespace TableStore
namespace Engine

/-- A result that reports no fault of a text. -/
def Faultless {α : Type} (result : Except Error α) : Prop :=
  forall fault, result ≠ .error (.fault fault)

namespace Faultless

variable {α β : Type}

theorem ok (value : α) : Faultless (.ok value) := by
  rintro _ ⟨⟩

theorem broken (violation : Violation) :
    Faultless (Engine.broken violation : Except Error α) := by
  rintro _ ⟨⟩

theorem bind {result : Except Error α} {next : α -> Except Error β}
    (h : Faultless result) (hnext : forall value, Faultless (next value)) :
    Faultless (result >>= next) := by
  cases result with
  | error error =>
      intro fault heq
      exact h fault (congrArg Except.error (Except.error.inj heq))
  | ok value => exact hnext value

theorem map {result : Except Error α} (h : Faultless result) (f : α -> β) :
    Faultless (result.map f) := by
  cases result with
  | error error =>
      intro fault heq
      exact h fault (congrArg Except.error (Except.error.inj heq))
  | ok value => exact ok (f value)

theorem mapM {f : α -> Except Error β} (h : forall item, Faultless (f item))
    (items : List α) : Faultless (items.mapM f) := by
  induction items with
  | nil => exact ok []
  | cons item items ih =>
      rw [List.mapM_cons]
      exact (h item).bind fun first => ih.bind fun others => ok (first :: others)

theorem mapM_option {f : α -> Except Error β} (h : forall item, Faultless (f item))
    (item? : Option α) : Faultless (item?.mapM f) := by
  cases item? with
  | none => exact ok none
  | some item => exact (h item).map some

theorem forM {f : α -> Except Error Unit} (h : forall item, Faultless (f item))
    (items : List α) : Faultless (items.forM f) := by
  induction items with
  | nil => exact ok ()
  | cons item items ih =>
      exact (h item).bind fun _ => ih

theorem foldlM {f : β -> α -> Except Error β}
    (h : forall state item, Faultless (f state item)) (items : List α) (start : β) :
    Faultless (items.foldlM f start) := by
  induction items generalizing start with
  | nil => exact ok start
  | cons item items ih =>
      rw [List.foldlM_cons]
      exact (h start item).bind fun next => ih next

theorem ite {condition : Prop} [Decidable condition] {yes no : Except Error α}
    (hyes : Faultless yes) (hno : Faultless no) :
    Faultless (if condition then yes else no) := by
  split
  · exact hyes
  · exact hno

end Faultless

open Faultless (ok bind map mapM foldlM ite)

/-!
# Tables of stores
-/

theorem faultless_get (store : Store) (name : String) :
    Faultless (store.get name) := by
  rw [Store.get]
  split
  · exact ok _
  · rintro _ ⟨⟩

theorem faultless_checkTargets (store : Store) (table : Table) (fields : List Field) :
    Faultless (store.checkTargets table fields) := by
  apply Faultless.forM
  intro reference
  split
  · rintro _ ⟨⟩
  · split
    · exact ok _
    · rintro _ ⟨⟩

theorem faultless_nextId (table : Table) : Faultless table.nextId := by
  rw [Table.nextId]
  split
  · exact ok _
  · rintro _ ⟨⟩

section
variable [Conversions]

/-!
# Names and values
-/

theorem faultless_resolve (scope : Scope) (expr : Sql.Expr) :
    Faultless (scope.resolve expr) := by
  induction expr with
  | column table? name =>
      cases table? with
      | none =>
          rw [Scope.resolve]
          split
          · exact ok _
          · exact ok _
          · rintro _ ⟨⟩
      | some table =>
          rw [Scope.resolve]
          split
          · exact ite (ok _) (by rintro _ ⟨⟩)
          · rintro _ ⟨⟩
  | literal value => exact ok _
  | decimal negative d => exact ok _
  | placeholder index => exact ok _
  | negative inner ih => exact ih.map _
  | not inner ih => exact ih.map _
  | and left right hleft hright =>
      exact hleft.bind fun _ => hright.bind fun _ => ok _
  | or left right hleft hright =>
      exact hleft.bind fun _ => hright.bind fun _ => ok _
  | compare comparison left right hleft hright =>
      exact hleft.bind fun _ => hright.bind fun _ => ok _

theorem faultless_closedCell (params : List Cell) (expr : Sql.Expr) :
    Faultless (closedCell params expr) :=
  (faultless_resolve _ expr).bind fun _ => ok _

theorem faultless_resolveCondition (scope : Scope) (condition? : Option Sql.Expr) :
    Faultless (resolveCondition scope condition?) := by
  cases condition? with
  | none => exact ok _
  | some expr => exact (faultless_resolve scope expr).bind fun _ => ok _

theorem faultless_resolveAssignments (scope : Scope)
    (assignments : List (String × Sql.Expr)) :
    Faultless (resolveAssignments scope assignments) := by
  apply mapM
  rintro ⟨column, expr⟩
  apply (faultless_resolve scope expr).bind
  intro formula
  split
  · exact ok _
  · rintro _ ⟨⟩

/-!
# Definitions of tables
-/

theorem faultless_ofSpec (spec : Sql.ColumnSpec) : Faultless (Field.ofSpec spec) := by
  apply foldlM
  intro field rule
  cases rule with
  | default expr => exact (faultless_closedCell [] expr).bind fun _ => ok _
  | _ => exact ok _

theorem faultless_addField (draft : Table.Draft) (spec : Sql.ColumnSpec) :
    Faultless (Table.addField draft spec) := by
  have hrule : forall position type draft rule,
      Faultless (Table.applyRule position type draft rule) := by
    intro position type draft rule
    cases rule with
    | primaryKey neverReused =>
        rw [Table.applyRule]
        refine ite (by rintro _ ⟨⟩) (ite (ok _) (ite (by rintro _ ⟨⟩) (ok _)))
    | _ => exact ok _
  have hadded := (faultless_ofSpec spec).bind fun field =>
    foldlM (hrule draft.table.fields.length spec.type) spec.rules
      { draft with table.fields := draft.table.fields ++ [field] }
  rw [Table.addField]
  split
  · rintro _ ⟨⟩
  · exact hadded

theorem faultless_ofDraft (draft : Table.Draft) : Faultless (Table.ofDraft draft) := by
  refine (mapM ?_ draft.checks).bind fun _ => ok _
  rintro ⟨condition, text⟩
  exact (faultless_resolve _ condition).bind fun _ => ok _

theorem faultless_createTable (store : Store) (name : String) (ifAbsent : Bool)
    (specs : List Sql.ColumnSpec) :
    Faultless (store.createTable name ifAbsent specs) := by
  rw [Store.createTable]
  split
  · exact ite (ok _) (by rintro _ ⟨⟩)
  · have htable : Faultless (Table.ofSpecs name specs) :=
      (foldlM faultless_addField specs _).bind faultless_ofDraft
    exact htable.bind fun _ => ok _

theorem faultless_keepReferences (before after : Store) :
    Faultless (before.keepReferences after) :=
  ite (by rintro _ ⟨⟩) (ok _)

theorem faultless_dropTable (store : Store) (name : String) (ifPresent : Bool) :
    Faultless (store.dropTable name ifPresent) := by
  rw [Store.dropTable]
  split
  · exact ite (ok _) (by rintro _ ⟨⟩)
  · exact faultless_keepReferences store _

theorem faultless_addColumn (store : Store) (name : String) (spec : Sql.ColumnSpec) :
    Faultless (store.addColumn name spec) := by
  refine (faultless_get store name).bind fun table => ?_
  dsimp only
  split
  · rintro _ ⟨⟩
  · refine (faultless_ofSpec spec).bind fun field => ?_
    split
    · rintro _ ⟨⟩
    · refine (faultless_addField _ spec).bind fun draft => ?_
      refine (faultless_ofDraft draft).bind fun table => ?_
      exact ite (by rintro _ ⟨⟩) (ok _)

/-!
# Changes of rows
-/

theorem faultless_accept (table : Table) (concerned : Nat -> Bool) (record : Record) :
    Faultless (table.accept concerned record) := by
  have hnotNull : Faultless (table.checkNotNull concerned record) :=
    Faultless.forM (fun _ => ite (Faultless.broken _) (ok _)) _
  have hconditions : Faultless (table.checkConditions record) :=
    Faultless.forM (fun _ => ite (Faultless.broken _) (ok _)) _
  have hid : Faultless (table.checkId record) := by
    rw [Table.checkId]
    split
    · exact ite (Faultless.broken _) (ok _)
    · exact ok _
  have hunique : Faultless (table.checkUnique concerned record) :=
    Faultless.forM (fun _ => ite (Faultless.broken _) (ok _)) _
  exact hnotNull.bind fun _ => hconditions.bind fun _ => hid.bind fun _ =>
    hunique.bind fun _ => ok _

theorem faultless_idOfCell (cell : Cell) : Faultless (Table.idOfCell cell) := by
  rw [Table.idOfCell]
  split
  · exact ok _
  · rintro _ ⟨⟩

theorem faultless_insertCells (table : Table) (cells : List Cell) :
    Faultless (table.insertCells cells) := by
  have hid : forall cells, Faultless (table.newId cells) := by
    intro cells
    rw [Table.newId]
    split
    · exact faultless_nextId table
    · split
      · exact faultless_nextId table
      · exact faultless_idOfCell _
  exact (hid _).bind fun _ => (faultless_accept table _ _).bind fun _ => ok _

theorem faultless_newRows (table : Table) (name : String) (params : List Cell)
    (rows : Sql.NewRows) : Faultless (newRows table name params rows) := by
  cases rows with
  | defaults => exact ok _
  | values columns? rows =>
      have hpositions : Faultless (insertPositions table name columns?) := by
        cases columns? with
        | none => exact ok _
        | some columns =>
            apply mapM
            intro column
            split
            · exact ok _
            · rintro _ ⟨⟩
      have hsize : forall row : List Cell,
          Faultless (checkRowSize table name columns? row.length) := by
        intro row
        cases columns? <;> exact ite (ok _) (by rintro _ ⟨⟩)
      exact hpositions.bind fun _ =>
        (mapM (fun row => mapM (faultless_closedCell params) row) rows).bind
          fun rows => (Faultless.forM hsize rows).bind fun _ => ok _

theorem faultless_insert (store : Store) (name : String) (params : List Cell)
    (rows : Sql.NewRows) : Faultless (store.insert name params rows) :=
  (faultless_get store name).bind fun table =>
    (faultless_newRows table name params rows).bind fun rows =>
      (faultless_checkTargets store table _).bind fun _ =>
        (foldlM faultless_insertCells rows table).bind fun _ =>
          (faultless_keepReferences store _).bind fun _ => ok _

theorem faultless_updateRecord (assignments : List (Nat × Formula)) (table : Table)
    (record : Record) : Faultless (Table.updateRecord assignments table record) := by
  have hid : forall cells, Faultless (table.changedId cells record) := by
    intro cells
    rw [Table.changedId]
    split
    · exact faultless_idOfCell _
    · exact ok _
  exact (hid _).bind fun _ => faultless_accept _ _ _

theorem faultless_update (store : Store) (name : String) (params : List Cell)
    (assignments : List (String × Sql.Expr)) (condition? : Option Sql.Expr) :
    Faultless (store.update name params assignments condition?) :=
  (faultless_get store name).bind fun table =>
    (faultless_resolveAssignments _ assignments).bind fun assignments =>
      (faultless_resolveCondition _ condition?).bind fun _ =>
        (faultless_checkTargets store table _).bind fun _ =>
          (foldlM (faultless_updateRecord assignments) _ table).bind fun _ =>
            (faultless_keepReferences store _).bind fun _ => ok _

theorem faultless_delete (store : Store) (name : String) (params : List Cell)
    (condition? : Option Sql.Expr) :
    Faultless (store.delete name params condition?) :=
  (faultless_get store name).bind fun table =>
    (faultless_resolveCondition _ condition?).bind fun _ =>
      (faultless_checkTargets store table _).bind fun _ =>
        (faultless_keepReferences store _).bind fun _ => ok _

/-!
# Queries
-/

theorem faultless_resolveProjection (table : Table) (scope : Scope)
    (projection : Sql.Projection) :
    Faultless (resolveProjection table scope projection) := by
  cases projection with
  | rows outputs =>
      refine (mapM ?_ outputs).bind fun _ => ok _
      intro output
      cases output with
      | all => exact ok _
      | value expr text => exact (faultless_resolve scope expr).bind fun _ => ok _
  | count text => exact ok _
  | sum expr text => exact (faultless_resolve scope expr).bind fun _ => ok _

theorem faultless_sum (cells : List Cell) : Faultless (sum cells) := by
  rw [sum]
  cases cells.foldl Total.add .nothing with
  | nothing => exact ok _
  | whole n => exact ok _
  | binary r => exact ite (by rintro _ ⟨⟩) (ite (ok _) (ok _))

theorem faultless_selectBy (visit : Table -> List Record -> List Record)
    (store : Store) (params : List Cell) (query : Sql.Query) :
    Faultless (store.selectBy visit params query) := by
  have hlimit : forall cell, Faultless (limitOf cell) := by
    intro cell
    rw [limitOf]
    split
    · exact ok _
    · rintro _ ⟨⟩
  have hrun : forall orderings records (plan : Plan),
      Faultless (plan.run orderings records) := by
    intro orderings records plan
    cases plan with
    | rows outputs => exact ok _
    | count name => exact ok _
    | sum name formula => exact (faultless_sum _).bind fun _ => ok _
  exact (faultless_get store query.table).bind fun table =>
    (Faultless.mapM_option (faultless_closedCell params) query.limit?).bind fun limit? =>
      (faultless_resolveProjection table _ query.projection).bind fun plan =>
        (faultless_resolveCondition _ query.condition?).bind fun _ =>
          (mapM (fun term => (faultless_resolve _ term.expr).bind fun _ => ok _)
              query.orderBy).bind fun _ =>
            (Faultless.mapM_option hlimit limit?).bind fun _ =>
              (hrun _ _ plan).bind fun _ => ok _

end

/-!
# Commands
-/

variable [Dialect]

theorem faultless_run (store : Store) (params : List Cell) (command : Sql.Command) :
    Faultless (store.run params command) := by
  cases command with
  | createTable table ifAbsent columns =>
      exact (faultless_createTable store table ifAbsent columns).bind fun _ => ok _
  | dropTable table ifPresent =>
      exact (faultless_dropTable store table ifPresent).bind fun _ => ok _
  | addColumn table column =>
      exact (faultless_addColumn store table column).bind fun _ => ok _
  | insert table rows =>
      exact (faultless_insert store table params rows).bind fun _ => ok _
  | select query => exact (faultless_selectBy _ store params query).bind fun _ => ok _
  | update table assignments condition? =>
      exact (faultless_update store table params assignments condition?).bind
        fun _ => ok _
  | delete table condition? =>
      exact (faultless_delete store table params condition?).bind fun _ => ok _
  | version => exact ok _
  | setVersion version => exact ok _

theorem faultless_runWithin (store : Store) (params : List Cell)
    (command : Sql.Command) : Faultless (store.runWithin params command) := by
  rw [Store.runWithin]
  split
  · rintro _ ⟨⟩
  · exact faultless_run store params command

namespace Session

theorem faultless_perform (session : Session Store) (params : List Cell)
    (command : Sql.Command) : Faultless (session.perform params command).2 := by
  have hattempt : Faultless (session.attempt params command) := by
    have hrun := faultless_runWithin session.store params command
    rw [attempt]
    split
    · rename_i error herror
      rw [herror] at hrun
      exact ite (by rintro _ ⟨⟩) hrun
    · exact ite (by rintro _ ⟨⟩) (ok _)
  rw [perform]
  split
  · exact ok _
  · rename_i error herror
    rw [herror] at hattempt
    exact fun fault heq => hattempt fault (congrArg Except.error (Except.error.inj heq))

/-- A text that is read as one command is not answered with a fault of the text. -/
theorem faultless_runText {text : String} {command : Sql.Command}
    (h : Sql.Command.read.run (Sql.scan text) = .ok (command, []))
    (session : Session Store) (params : List Cell) :
    Faultless (session.runText params text).2 := by
  rw [runText_of_read h]
  exact (faultless_perform session params command).map _

end Session
end Engine
end TableStore
