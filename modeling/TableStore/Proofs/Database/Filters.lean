import TableStore.Proofs.Database.Regularity
import TableStore.Proofs.Statement.Depth

/-!
# Operations with the same filter

All operations on a table mean the same rows by a filter, as far as their statements are
within the limits of the engine.  What they find is what is counted, what is removed is
gone and nothing else, what is changed keeps its other columns, and what is added up are
the values of these rows.
-/

namespace TableStore
namespace Database

open Database.Action (runOn runOn_bind_eq_ok)
open Engine (Cell Dialect PartialSums Record ResultRow Session Store)
open Predicate (Negates)
open Statement (Filtered Legible PlainLists Unambiguous filterViolations positionsOf
  queryOf runOf statementCells)

/-- The operations with a filter, on columns with names of columns. -/
inductive Operation.Asks (filter? : Option Predicate) : Operation -> Prop where
  | count : Asks filter? (.count filter?)
  | select {options : Options} : options.filter? = filter? -> PlainLists options ->
      Asks filter? (.select options)
  | delete {options : Options} : options.filter? = filter? ->
      Asks filter? (.delete options)
  | update {changes : Row} {options : Options} : options.filter? = filter? ->
      options.orderBy = [] -> options.limit? = none ->
      (forall column, column ∈ changes.columns -> Sql.isColumnName column = true) ->
      Asks filter? (.update changes options)
  | sum {column : String} : Sql.isColumnName column = true ->
      Asks filter? (.sum column filter?)

namespace Operation

/-!
# The statements of operations
-/

section Statements

variable {table : TableHandle} {filter? : Option Predicate}
  (hfound : filterViolations filter? = [])

include hfound

theorem statement?_select {options : Options} (hfilter : options.filter? = filter?) :
    (select options).statement? table =
      .ok (Statement.selectBase table.name options.columns? ++
        Statement.condition table.mode filter? ++
        .ofText (Statement.tail options)) := by
  rw [statement?, Statement.select_eq, hfilter, hfound, Predicate.verdict_nil]

theorem statement?_delete {options : Options} (hfilter : options.filter? = filter?) :
    (delete options).statement? table =
      .ok (Statement.deleteBase table.name ++
        Statement.condition table.mode filter?) := by
  rw [statement?, Statement.delete_eq, hfilter, hfound, Predicate.verdict_nil]

theorem statement?_update (changes : Row) {options : Options}
    (hfilter : options.filter? = filter?) :
    (update changes options).statement? table =
      .ok (Statement.updateBase table.name changes ++
        Statement.condition table.mode filter? ++
        .ofText (Statement.tail options)) := by
  rw [statement?, Statement.update_eq, hfilter, hfound, Predicate.verdict_nil]

theorem aggregate_of_found (table : TableHandle) (computed : Statement.Aggregate) :
    Statement.aggregate table.mode table.name computed filter? =
      .ok (Statement.aggregateBase table.name computed ++
        Statement.condition table.mode filter?) := by
  rw [Statement.aggregate_eq, hfound, Predicate.verdict_nil]

theorem Asks.filtered {asked : Operation} (h : asked.Asks filter?)
    (table : TableHandle) :
    exists statement, asked.statement? table = .ok statement ∧
      Filtered table.mode table.name filter? statement := by
  cases h with
  | count =>
      exact ⟨_, aggregate_of_found hfound table .count,
        .computed Statement.isPlainName_of_count⟩
  | select hfilter hplain =>
      exact ⟨_, statement?_select hfound hfilter, .query hfilter hplain⟩
  | delete hfilter => exact ⟨_, statement?_delete hfound hfilter, .removal⟩
  | update hfilter horders hlimit hcolumns =>
      exact ⟨_, statement?_update hfound _ hfilter,
        .change (fun column hmem => Sql.isPlainName_of_isColumnName (hcolumns column hmem))
          hfilter horders hlimit⟩
  | sum hcolumn =>
      exact ⟨_, aggregate_of_found hfound table (.sum _), .computed
        (Statement.isPlainName_of_sum (Sql.isPlainName_of_isColumnName hcolumn))⟩

end Statements

end Operation

section Dialects

variable [Dialect]

namespace TableHandle

def Admits (table : TableHandle) (asked : Operation) : Prop :=
  forall statement, asked.statement? table = .ok statement ->
    Engine.Admits statement.text

def shownRow (table : TableHandle) (row : ResultRow) : Row :=
  restoreBooleans table.columns (Handle.decodeRow row)

def shown (table : TableHandle) (stored : Engine.Table) (record : Record) : Row :=
  table.shownRow (stored.listed record)

def cellsOf (position : Nat) (records : List Record) : List Cell :=
  records.map fun record => record.cells[position]?.getD .null

/--
The operations of a handle with a filter are about the records that pass, of the table
that the database holds.  The order in which they are visited is left open.
-/
structure Chooses (table : TableHandle) (filter? : Option Predicate)
    (stored : Engine.Table) (passes : Record -> Bool) (host : Host)
    (session : Session Store) : Prop where
  count : table.Admits (.count filter?) -> exists number : Int64,
    table.database.Yields (table.count filter?) host (.ok number) session ∧
    ((stored.records.filter passes).length < Decimal.int64Bound ->
      number.toInt = (stored.records.filter passes).length)
  select : table.Admits (.select (.ofFilter filter?)) -> exists rows,
    rows.Perm ((stored.records.filter passes).map (table.shown stored)) ∧
    table.database.Yields (table.select (.ofFilter filter?)) host (.ok rows) session
  length_select : forall options : Options, options.filter? = filter? ->
    options.limit? = none -> PlainLists options ->
    forall rows after, runOn (table.select options) host = (.ok rows, after) ->
      rows.length = (stored.records.filter passes).length
  delete : forall options : Options, options.filter? = filter? ->
    table.Admits (.delete options) ->
    table.database.Yields (table.delete options) host
      (.ok (stored.records.filter passes).length)
      { session with
        store := session.store.put { stored with
          records := stored.records.filter fun record => !passes record }
        changes := (stored.records.filter passes).length } ∨
    exists error changes,
      (session.store.Retains stored passes error ∨
        session.readOnly = true ∧ error = .readOnly) ∧
      table.database.Yields (table.delete options) host (.error (.engine error))
        { session with changes := changes }
  update : forall (changes : Row) (options : Options),
    options.filter? = filter? -> options.orderBy = [] -> options.limit? = none ->
    (forall column, column ∈ changes.columns -> Sql.isColumnName column = true) ->
    forall count after,
      runOn (table.update changes options) host = (.ok count, after) ->
      count = (stored.records.filter passes).length ∧
      exists records news,
        table.database.Serves after { session with
          store := session.store.put { stored with records := records }
          changes := count } ∧
        Engine.Table.Regular { stored with records := records } ∧
        List.Forall₂ (stored.Alters (positionsOf stored changes.columns))
          (stored.records.filter passes) news ∧
        records.Perm
          (news ++ stored.records.filter fun record => !passes record)
  sum : forall (column : String) (position : Nat),
    Sql.isColumnName column = true -> stored.position? column = some position ->
    (forall cell, cell ∈ cellsOf position (stored.records.filter passes) ->
      cell.Summable) ->
    table.Admits (.sum column filter?) ->
    exists visited, visited.Perm (stored.records.filter passes) ∧
      (PartialSums 0 ((cellsOf position visited).filterMap Cell.whole?) ->
        exists total : Int64,
          total.toInt = ((cellsOf position
            (stored.records.filter passes)).filterMap Cell.whole?).sum ∧
          table.database.Yields (table.sum column filter?) host (.ok (.int total))
            session)

end TableHandle

def Declines {α : Type} (handle : Handle) (action : Action α) (host : Host)
    (session : Session Store) : Prop :=
  exists error changes,
    handle.Yields action host (.error (.engine error))
      { session with changes := changes }

theorem Undertakes.declines {α : Type} {handle : Handle} {action : Action α}
    {statement : Fragment} (h : Undertakes handle action (.ok statement)) {host : Host}
    {session : Session Store} (hserves : handle.Serves host session)
    (hrun : exists error changes, runOf session statement =
      ({ session with changes := changes }, .error error)) :
    Declines handle action host session := by
  rcases hrun with ⟨error, changes, hrun⟩
  cases h with
  | sends hsends hnext heq =>
      have hyields := hsends.yields_error hserves hrun
      exact ⟨error, changes, heq ▸ hyields.bind_error _⟩

namespace TableHandle

def AllDecline (table : TableHandle) (filter? : Option Predicate) (host : Host)
    (session : Session Store) : Prop :=
  forall asked : Operation, asked.Asks filter? ->
    Declines table.database (asked.perform table) host session

section Operations

variable {table : TableHandle} {filter? : Option Predicate} {host : Host}
  {session : Session Store} {stored : Engine.Table} {passes : Record -> Bool}

/-!
# What the transactions yield
-/

theorem yields_aggregate (hserves : table.database.Serves host session)
    (h : Legible table.mode table.name filter?)
    (hchoice : session.store.choice table.name table.mode filter? =
      .ok (stored, passes)) {computed : Statement.Aggregate}
    (hcolumn : forall column, computed = .sum column ->
      Sql.isPlainName column = true)
    (hadmits : Engine.Admits (Statement.aggregateBase table.name computed ++
      Statement.condition table.mode filter?).text) :
    exists visited, visited.Perm (stored.records.filter passes) ∧
      forall cell, (Engine.Store.summand? (stored.scope []) computed >>=
          Engine.Store.totalOf visited) = .ok cell ->
        table.database.Yields (table.aggregate computed filter?) host
          (.ok (some cell.value)) session := by
  rcases h.runOf_computed_of_choice hchoice hcolumn hadmits with
    ⟨name, visited, hvisited, hrun⟩
  refine ⟨visited, hvisited, fun cell hcell => ?_⟩
  rw [hcell] at hrun
  rw [aggregate_eq h.violations_eq]
  exact (table.database.sends_fetchValue? _).yields_ok hserves hrun

theorem yields_count (hserves : table.database.Serves host session)
    (h : Legible table.mode table.name filter?)
    (hchoice : session.store.choice table.name table.mode filter? =
      .ok (stored, passes)) (hadmits : table.Admits (.count filter?)) :
    table.database.Yields (table.count filter?) host
      (.ok (Int64.ofNat (stored.records.filter passes).length)) session := by
  have hstatement := Operation.aggregate_of_found h.violations_eq table .count
  rcases yields_aggregate hserves h hchoice Statement.isPlainName_of_count
    (hadmits _ hstatement) with ⟨visited, hvisited, hyields⟩
  have hcount := (hyields _ rfl).map fun value? => (value?.bind Value.asInt?).getD 0
  rw [<- hvisited.length_eq]
  exact hcount

theorem summand?_of_position? {column : String} {position : Nat}
    (hposition : stored.position? column = some position) :
    exists affinity, Engine.Store.summand? (stored.scope []) (.sum column) =
      .ok (some (.column position affinity)) := by
  rcases Engine.Table.resolve_column_of_position? hposition with
    ⟨field, _, hcolumn⟩
  exact ⟨field.affinity, by rw [Engine.Store.summand?, hcolumn]; rfl⟩

omit [Dialect] in
theorem cellsOf_perm {first second : List Record} (h : first.Perm second)
    (position : Nat) : (cellsOf position first).Perm (cellsOf position second) :=
  h.map _

theorem yields_sum (hserves : table.database.Serves host session)
    (h : Legible table.mode table.name filter?)
    (hchoice : session.store.choice table.name table.mode filter? =
      .ok (stored, passes)) {column : String} {position : Nat}
    (hcolumn : Sql.isPlainName column = true)
    (hposition : stored.position? column = some position)
    (hcells : forall cell,
      cell ∈ cellsOf position (stored.records.filter passes) -> cell.Summable)
    (hadmits : table.Admits (.sum column filter?)) :
    exists visited, visited.Perm (stored.records.filter passes) ∧
      (PartialSums 0 ((cellsOf position visited).filterMap Cell.whole?) ->
        table.database.Yields (table.sum column filter?) host
          (.ok (.int (Int64.ofInt
            ((cellsOf position visited).filterMap Cell.whole?).sum))) session) := by
  rcases summand?_of_position? hposition with ⟨affinity, hsummand⟩
  have hstatement :=
    Operation.aggregate_of_found h.violations_eq table (.sum column)
  rcases yields_aggregate hserves h hchoice (Statement.isPlainName_of_sum hcolumn)
    (hadmits _ hstatement) with ⟨visited, hvisited, hyields⟩
  refine ⟨visited, hvisited, fun hsums => ?_⟩
  have hsummable : forall cell, cell ∈ cellsOf position visited -> cell.Summable :=
    fun cell hmem => hcells cell ((cellsOf_perm hvisited position).mem_iff.mp hmem)
  have htotal : (Engine.Store.summand? (stored.scope []) (.sum column) >>=
      Engine.Store.totalOf visited) = Engine.sum (cellsOf position visited) := by
    rw [hsummand]
    rfl
  rw [sum_eq]
  rcases Engine.sum_of_summable hsummable hsums with ⟨hnull, hnone⟩ | hsum
  · rw [hnone]
    exact (hyields .null (htotal.trans hnull)).map sumOf
  · exact (hyields _ (htotal.trans hsum)).map sumOf

theorem runOf_select (table : TableHandle) (options : Options) (session : Session Store)
    (h : Legible table.mode table.name options.filter?) (hplain : PlainLists options)
    (hadmits : table.Admits (.select options)) :
    runOf session
        (Statement.selectBase table.name options.columns? ++
          Statement.condition table.mode options.filter? ++
          .ofText (Statement.tail options)) =
      (session,
        (session.store.select (statementCells [] table.mode options.filter?)
          (queryOf table.mode table.name options)).map fun rows =>
            ⟨rows, session.changes⟩) :=
  h.runOf_query rfl hplain
    (hadmits _ (Operation.statement?_select h.violations_eq rfl))

theorem yields_select_of_ok (table : TableHandle) (options : Options)
    (hserves : table.database.Serves host session)
    (h : Legible table.mode table.name options.filter?) (hplain : PlainLists options)
    (hadmits : table.Admits (.select options)) {rows : List ResultRow}
    (hrows : session.store.select (statementCells [] table.mode options.filter?)
      (queryOf table.mode table.name options) = .ok rows) :
    table.database.Yields (table.select options) host
      (.ok (rows.map table.shownRow)) session := by
  have hrun := table.runOf_select options session h hplain hadmits
  rw [hrows] at hrun
  have hyields := ((table.database.sends_fetch _).yields_ok hserves hrun).map
    (List.map (restoreBooleans table.columns))
  rw [List.map_map] at hyields
  rw [select_eq h.violations_eq rfl]
  exact hyields

theorem yields_select_of_error (table : TableHandle) (options : Options)
    (hserves : table.database.Serves host session)
    (h : Legible table.mode table.name options.filter?) (hplain : PlainLists options)
    (hadmits : table.Admits (.select options)) {error : Engine.Error}
    (herror : session.store.select (statementCells [] table.mode options.filter?)
      (queryOf table.mode table.name options) = .error error) :
    table.database.Yields (table.select options) host (.error (.engine error))
      session := by
  have hrun := table.runOf_select options session h hplain hadmits
  rw [herror] at hrun
  rw [select_eq h.violations_eq rfl]
  exact ((table.database.sends_fetch _).yields_error hserves hrun).bind_error _

theorem yields_select (hserves : table.database.Serves host session)
    (h : Legible table.mode table.name filter?)
    (hchoice : session.store.choice table.name table.mode filter? =
      .ok (stored, passes)) (hadmits : table.Admits (.select (.ofFilter filter?))) :
    exists rows,
      rows.Perm ((stored.records.filter passes).map (table.shown stored)) ∧
      table.database.Yields (table.select (.ofFilter filter?)) host (.ok rows)
        session := by
  rcases Store.Answers.all_of_chosen (Statement.chosen_of_choice hchoice [])
    (Store.answers_select session.store (statementCells [] table.mode filter?)
      (queryOf table.mode table.name (.ofFilter filter?))) with
    ⟨listed, hselect, hlisted⟩
  refine ⟨listed.map table.shownRow, ?_, table.yields_select_of_ok (.ofFilter filter?)
    hserves h (Statement.plainLists_ofFilter filter?) hadmits hselect⟩
  have hshown := hlisted.map table.shownRow
  rwa [List.map_map] at hshown

theorem length_of_select (hserves : table.database.Serves host session)
    (h : Legible table.mode table.name filter?)
    (hchoice : session.store.choice table.name table.mode filter? =
      .ok (stored, passes)) {options : Options} (hfilter : options.filter? = filter?)
    (hlimit : options.limit? = none) (hplain : PlainLists options) {rows : List Row}
    {after : Host}
    (hrun : runOn (table.select options) host = (.ok rows, after)) :
    rows.length = (stored.records.filter passes).length := by
  rw [select_eq h.violations_eq hfilter] at hrun
  rcases runOn_bind_eq_ok.mp hrun with ⟨fetched, last, hfetch, hlast⟩
  cases hlast
  rcases (table.database.sends_fetch _).ok_of_runOn hserves hfetch with
    ⟨_, found, hfound, rfl, _⟩
  rw [List.length_map, List.length_map]
  exact h.length_of_runOf_query hchoice hfilter hlimit hplain
    (congrArg Prod.snd hfound)

theorem yields_delete (hserves : table.database.Serves host session)
    (h : Legible table.mode table.name filter?)
    (hchoice : session.store.choice table.name table.mode filter? =
      .ok (stored, passes)) {options : Options}
    (hfilter : options.filter? = filter?) (hadmits : table.Admits (.delete options)) :
    table.database.Yields (table.delete options) host
      (.ok (stored.records.filter passes).length)
      { session with
        store := session.store.put { stored with
          records := stored.records.filter fun record => !passes record }
        changes := (stored.records.filter passes).length } ∨
    exists error changes,
      (session.store.Retains stored passes error ∨
        session.readOnly = true ∧ error = .readOnly) ∧
      table.database.Yields (table.delete options) host (.error (.engine error))
        { session with changes := changes } := by
  rw [delete_eq h.violations_eq hfilter]
  rcases h.runOf_removal_of_choice hchoice
    (hadmits _ (Operation.statement?_delete h.violations_eq hfilter)) with
    hrun | ⟨error, changes, hreason, hrun⟩
  · exact .inl ((table.sends_execute _).yields_ok hserves hrun)
  · exact .inr ⟨error, changes, hreason,
      (table.sends_execute _).yields_error hserves hrun⟩

theorem altered_of_update (hserves : table.database.Serves host session)
    (h : Legible table.mode table.name filter?) (hregular : stored.Regular)
    (hchoice : session.store.choice table.name table.mode filter? =
      .ok (stored, passes)) {changes : Row} {options : Options}
    (hfilter : options.filter? = filter?) (horders : options.orderBy = [])
    (hlimit : options.limit? = none)
    (hcolumns : forall column, column ∈ changes.columns ->
      Sql.isPlainName column = true) {count : Nat} {after : Host}
    (hrun : runOn (table.update changes options) host = (.ok count, after)) :
    count = (stored.records.filter passes).length ∧
    exists records news,
      table.database.Serves after { session with
        store := session.store.put { stored with records := records }
        changes := count } ∧
      Engine.Table.Regular { stored with records := records } ∧
      List.Forall₂ (stored.Alters (positionsOf stored changes.columns))
        (stored.records.filter passes) news ∧
      records.Perm
        (news ++ stored.records.filter fun record => !passes record) := by
  rw [update_eq h.violations_eq changes hfilter] at hrun
  rcases (table.sends_execute _).ok_of_runOn hserves hrun with
    ⟨next, found, hfound, rfl, hnext⟩
  rcases h.runOf_change_of_choice hregular hchoice hcolumns hfilter horders hlimit
    (congrArg Prod.snd hfound) with ⟨records, news, hdone, hkept, hnews, hperm⟩
  rw [hfound] at hdone
  cases hdone
  exact ⟨rfl, records, news, hnext, hkept, hnews, hperm⟩

/-- A filter that makes a choice makes the same one in every operation. -/
theorem chooses_of_choice (hserves : table.database.Serves host session)
    (h : Legible table.mode table.name filter?) (hregular : stored.Regular)
    (hchoice : session.store.choice table.name table.mode filter? =
      .ok (stored, passes)) :
    table.Chooses filter? stored passes host session where
  count hadmits := by
    refine ⟨_, yields_count hserves h hchoice hadmits, fun hbound => ?_⟩
    apply Int64.toInt_ofNat_of_lt
    simp only [Decimal.int64Bound] at hbound
    omega
  select := yields_select hserves h hchoice
  length_select options hfilter hlimit hplain rows after hrun :=
    length_of_select hserves h hchoice hfilter hlimit hplain hrun
  delete options hfilter := yields_delete hserves h hchoice hfilter
  update changes options hfilter horders hlimit hcolumns count after hrun :=
    altered_of_update hserves h hregular hchoice hfilter horders hlimit
      (fun column hmem => Sql.isPlainName_of_isColumnName (hcolumns column hmem)) hrun
  sum column position hcolumn hposition hcells hadmits := by
    rcases yields_sum hserves h hchoice (Sql.isPlainName_of_isColumnName hcolumn)
      hposition hcells hadmits with ⟨visited, hvisited, hyields⟩
    refine ⟨visited, hvisited, fun hsums => ⟨_, ?_, hyields hsums⟩⟩
    have htotal := hsums _ List.prefix_rfl
    rw [Int.zero_add] at htotal
    have hsum := ((cellsOf_perm hvisited position).filterMap Cell.whole?).sum_eq
    rw [<- hsum]
    exact Engine.toInt_ofInt_of_inRange htotal

/-!
# Operations that fail
-/

theorem allDecline_of_choice (hserves : table.database.Serves host session)
    (h : Legible table.mode table.name filter?) {error : Engine.Error}
    (hchoice : session.store.choice table.name table.mode filter? =
      .error error) :
    table.AllDecline filter? host session := by
  intro asked hasks
  rcases hasks.filtered h.violations_eq table with
    ⟨statement, hstatement, hfiltered⟩
  have hundertakes := asked.undertakes_perform table
  rw [hstatement] at hundertakes
  exact hundertakes.declines hserves (h.fails_of_error hfiltered hchoice)

theorem declines_of_not_admits (hserves : table.database.Serves host session)
    (h : Legible table.mode table.name filter?) {asked : Operation}
    (hasks : asked.Asks filter?) (hbeyond : ¬ table.Admits asked) :
    Declines table.database (asked.perform table) host session := by
  rcases hasks.filtered h.violations_eq table with
    ⟨statement, hstatement, hfiltered⟩
  have hundertakes := asked.undertakes_perform table
  rw [hstatement] at hundertakes
  have htext : ¬ Engine.Admits statement.text := by
    intro hadmits
    apply hbeyond
    intro other hother
    rw [hstatement] at hother
    cases hother
    exact hadmits
  rcases h.fails_of_not_admits hfiltered htext session with ⟨found, hrun⟩
  exact hundertakes.declines hserves ⟨found, session.changes, hrun⟩

end Operations

/-!
# The rows of a filter
-/

/--
The records that pass are those of which the filter is true.  Those of which it is false
are the records of a filter that stands for its opposite, and the others pass neither.
-/
structure Decides (table : TableHandle) (filter? : Option Predicate)
    (stored : Engine.Table) (passes : Record -> Bool) (host : Host)
    (session : Session Store) : Prop where
  passes_iff : forall record,
    passes record = true ↔ stored.holds record filter? = some true
  opposite : forall predicate opposite, filter? = some predicate ->
    Negates predicate opposite ->
    Unambiguous table.mode table.name (some opposite) ->
    exists others, table.Chooses (some opposite) stored others host session ∧
      forall record, others record = true ↔
        stored.holds record filter? = some false

section Rows

variable {table : TableHandle} {filter? : Option Predicate} {host : Host}
  {session : Session Store} {stored : Engine.Table}

/-- With bound operands, a filter chooses the records of which it is true. -/
theorem chooses_of_knows (hserves : table.database.Serves host session)
    (h : Legible table.mode table.name filter?) (hregular : stored.Regular)
    (hget : session.store.get table.name = .ok stored)
    (hmode : table.mode = .parameterized) (hknown : stored.Knows filter?) :
    exists passes, session.store.choice table.name table.mode filter? =
        .ok (stored, passes) ∧
      table.Chooses filter? stored passes host session ∧
      forall record, passes record = true ↔
        stored.holds record filter? = some true := by
  rcases Engine.choice_parameterized hknown h.violations_eq with
    ⟨passes, hpasses, hmeans⟩
  rw [<- hmode] at hpasses
  have hchoice : session.store.choice table.name table.mode filter? =
      .ok (stored, passes) := Engine.Store.chosen_eq_ok.mpr ⟨hget, hpasses⟩
  exact ⟨passes, hchoice, chooses_of_choice hserves h hregular hchoice, hmeans⟩

theorem decides_of_knows (hserves : table.database.Serves host session)
    (h : Legible table.mode table.name filter?) (hregular : stored.Regular)
    {passes : Record -> Bool}
    (hchoice : session.store.choice table.name table.mode filter? =
      .ok (stored, passes))
    (hmode : table.mode = .parameterized) (hknown : stored.Knows filter?) :
    table.Decides filter? stored passes host session := by
  have hget := (Engine.Store.chosen_eq_ok.mp hchoice).left
  constructor
  · rcases chooses_of_knows hserves h hregular hget hmode hknown with
      ⟨found, hfound, _, hmeans⟩
    rw [hchoice] at hfound
    cases hfound
    exact hmeans
  · rintro predicate opposite rfl hnegates hlegible
    rcases chooses_of_knows hserves hlegible.toLegible hregular hget hmode
      (hknown.of_negates hnegates) with ⟨others, _, hchooses, hmeans⟩
    refine ⟨others, hchooses, fun record => ?_⟩
    rw [hmeans, Engine.Table.holds_of_negates hnegates]
    rcases stored.holds record (some predicate) with _ | _ | _ <;> decide

end Rows

end TableHandle

end Dialects

namespace TableHandle

section Witness

open Engine.Sqlite

def filledHost : Host :=
  Step.afterAll
    [.operation freshTable .create,
      .operation freshTable (.insert (.ofList [("a", .int 1)])),
      .operation freshTable (.insert .empty),
      .operation freshTable (.insert (.ofList [("a", .int 2)]))]
    freshHost

theorem regular_filledHost : filledHost.Regular :=
  (keeps_openDatabase ":memory:" _ Host.Regular.ofDisk_empty).afterAll _

theorem filledHost_data :
    ((freshTable.database.store? filledHost).bind fun store =>
      (store.get "t").toOption).map (fun table =>
        (table.position? "a", table.fields.map Engine.Field.affinity,
          table.records.map Record.cells)) =
      some (some 0, [.numeric], [[.int 1], [.null], [.int 2]]) := by
  decide +kernel

theorem filledHost_serves :
    exists session stored, freshTable.database.Serves filledHost session ∧
      session.store.get "t" = .ok stored ∧ stored.position? "a" = some 0 ∧
      stored.fields.map Engine.Field.affinity = [.numeric] ∧
      stored.records.map Record.cells = [[.int 1], [.null], [.int 2]] := by
  rcases Option.map_eq_some_iff.mp filledHost_data with ⟨stored, hstored, hdata⟩
  rcases Option.bind_eq_some_iff.mp hstored with ⟨store, hstore, hget⟩
  have hopen : filledHost.connections[freshTable.database.index]?.map
      (fun connection => (connection.closed, connection.place)) =
        some (false, .memory) := by
    decide +kernel
  rcases Handle.serves_of_memory hopen hstore with ⟨session, hserves, rfl⟩
  refine ⟨session, stored, hserves, ?_, congrArg Prod.fst hdata,
    congrArg (fun data => data.2.1) hdata, congrArg (fun data => data.2.2) hdata⟩
  cases hfound : session.store.get "t" with
  | error error =>
      rw [hfound] at hget
      cases hget
  | ok found =>
      rw [hfound] at hget
      cases hget
      rfl

def aboveOne : Predicate := [.compare "a" [.test .gt (.int 1)]]

def notAboveOne : Predicate := [.compare "a" [.not [.test .gt (.int 1)]]]

theorem unambiguous_aboveOne : Unambiguous .parameterized "t" (some aboveOne) := by
  apply Statement.unambiguous_of_names (by decide)
  · simp [filterViolations, aboveOne, Predicate.violations,
      Predicate.entryViolations, Predicate.comparatorViolations]
    decide
  · simp [Statement.filterColumns, aboveOne, Predicate.columns,
      Predicate.entryColumns, Predicate.comparatorColumns]
    decide

theorem unambiguous_notAboveOne : Unambiguous .parameterized "t" (some notAboveOne) := by
  apply Statement.unambiguous_of_names (by decide)
  · simp [filterViolations, notAboveOne, Predicate.violations,
      Predicate.entryViolations, Predicate.comparatorViolations]
    decide
  · simp [Statement.filterColumns, notAboveOne, Predicate.columns,
      Predicate.entryColumns, Predicate.comparatorColumns]
    decide

section AboveOne

variable {stored : Engine.Table} (hposition : stored.position? "a" = some 0)

include hposition

theorem knows_aboveOne : stored.Knows (some aboveOne) := by
  rintro _ ⟨⟩ test htest
  have hcolumn : test.column = "a" := by
    simp [aboveOne, Predicate.tests, Predicate.entryTests,
      Predicate.comparatorTests] at htest
    rw [htest]
  rw [hcolumn, hposition]
  rfl

theorem holds_aboveOne
    (haffinities : stored.fields.map Engine.Field.affinity = [.numeric])
    (record : Record) : stored.holds record (some aboveOne) =
      Engine.test .gt (some .numeric) (record.cells[0]?.getD .null) (.int 1) := by
  have haffinity : stored.fields[0]?.map Engine.Field.affinity = some .numeric := by
    rw [<- List.getElem?_map, haffinities]
    rfl
  simp only [Engine.Table.holds, aboveOne, Option.elim, Predicate.truth,
    Predicate.entryTruth, Predicate.comparatorTruth, Engine.Truth.and_true,
    Engine.Table.answers, hposition, haffinity]
  rfl

end AboveOne

/-- The statement of an operation is read and found to be small enough. -/
theorem admits_of_excess? {table : TableHandle} {asked : Operation}
    (h : ((asked.statement? table).toOption.map fun statement =>
      (Sql.Command.all statement.text).map Dialect.excess?) = some [none]) :
    table.Admits asked := by
  intro statement hstatement command hmem
  rw [hstatement] at h
  have hexcess : (Sql.Command.all statement.text).map Dialect.excess? = [none] :=
    Option.some.inj h
  have hnone : Dialect.excess? command ∈
      (Sql.Command.all statement.text).map Dialect.excess? := List.mem_map_of_mem hmem
  rw [hexcess] at hnone
  exact List.mem_singleton.mp hnone

theorem admits_count_aboveOne : freshTable.Admits (.count (some aboveOne)) :=
  admits_of_excess? (by decide +kernel)

def referredTable : TableHandle :=
  ⟨⟨0⟩, "p", ⟨[⟨"id", .integer, [.primaryKey], none⟩]⟩, .parameterized⟩

def referredHost : Host :=
  Step.afterAll
    [.operation referredTable .create,
      .operation referredTable (.insert (.ofList [("id", .int 1)])),
      .transaction ⟨0⟩ [.execute ⟨"CREATE TABLE c (x INTEGER REFERENCES p (id))", []⟩,
        .execute ⟨"INSERT INTO c VALUES (1)", []⟩] .commit]
    freshHost

def pairTable : TableHandle :=
  ⟨⟨0⟩, "t", ⟨[⟨"a", .integer, [], none⟩, ⟨"b", .integer, [], none⟩]⟩, .inline⟩

def pairHost : Host :=
  Step.afterAll
    [.operation pairTable .create,
      .operation pairTable (.insert (.ofList [("a", .int 1), ("b", .int 2)]))]
    freshHost

def limitedFilter : Predicate := [.equal "1) LIMIT 1 --" (.int 5)]

/-- With a filter that is nested too deeply all operations fail. -/
theorem allDecline_of_deep {table : TableHandle} {filter? : Option Predicate}
    {host : Host} {session : Session Store}
    (hserves : table.database.Serves host session)
    (h : Legible table.mode table.name filter?)
    (hdeep : Statement.Deep table.mode filter?) :
    table.AllDecline filter? host session := by
  intro asked hasks
  rcases hasks.filtered h.violations_eq table with
    ⟨statement, hstatement, hfiltered⟩
  have hundertakes := asked.undertakes_perform table
  rw [hstatement] at hundertakes
  rcases h.fails_of_deep hfiltered hdeep session with ⟨found, hrun⟩
  exact hundertakes.declines hserves ⟨found, session.changes, hrun⟩

def repeated (count : Nat) : Predicate :=
  [.anyOf (List.replicate count [.equal "a" (.int 1)])]

theorem branchViolations_replicate (count : Nat) :
    Predicate.branchViolations (List.replicate count [.equal "a" (.int 1)]) = [] := by
  induction count with
  | zero => simp [Predicate.branchViolations]
  | succ count ih =>
      rw [List.replicate_succ, Predicate.branchViolations, ih]
      simp [Predicate.entryViolations]
      decide

theorem mem_branchColumns_replicate {count : Nat} {column : String}
    (h : column ∈ Predicate.branchColumns
      (List.replicate count [.equal "a" (.int 1)])) : column = "a" := by
  induction count with
  | zero => simp [Predicate.branchColumns] at h
  | succ count ih =>
      rw [List.replicate_succ, Predicate.branchColumns] at h
      rcases List.mem_append.mp h with hfirst | hrest
      · simpa [Predicate.entryColumns] using hfirst
      · exact ih hrest

theorem legible_repeated {count : Nat} (h : count ≠ 0) :
    Legible .parameterized "t" (some (repeated count)) where
  table_isPlainName := by decide
  violations_eq := by
    simp [filterViolations, repeated, Predicate.violations,
      Predicate.entryViolations, branchViolations_replicate, Predicate.violationIf, h]
  columns_isPlainName := by
    intro column hmem
    have hbranches : column ∈ Predicate.branchColumns
        (List.replicate count [.equal "a" (.int 1)]) := by
      simpa [Statement.filterColumns, repeated, Predicate.columns,
        Predicate.entryColumns] using hmem
    rw [mem_branchColumns_replicate hbranches]
    decide
  unquoted := nofun

theorem toOption_count_repeated {count : Nat}
    (h : Engine.Sqlite.depthLimit < count) :
    (runOn (Operation.perform freshTable (.count (some (repeated count))))
      filledHost).1.toOption = none := by
  rcases filledHost_serves with ⟨session, stored, hserves, _⟩
  have hlegible : Legible .parameterized "t" (some (repeated count)) :=
    legible_repeated (by omega)
  have hdeep : Statement.Deep .parameterized (some (repeated count)) :=
    Statement.deep_of_branches _ (by rwa [List.length_replicate])
  rcases allDecline_of_deep hserves hlegible hdeep _ .count with
    ⟨error, changes, after, hrun, _⟩
  rw [hrun]
  rfl

end Witness

end TableHandle
end Database
end TableStore
