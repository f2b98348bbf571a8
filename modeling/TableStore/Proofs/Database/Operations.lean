import TableStore.Database.TableHandle
import TableStore.Proofs.Database.Settled
import TableStore.Proofs.Statement.Build

/-!
# Operations as transactions

An operation on a table sends one statement in a transaction of its own, unless its filter
is malformed.  What it does behind the transaction cannot fail.
-/

namespace TableStore
namespace Database

open Engine (Machine Session)
open Engine.Machine (Store)
open Statement (filterViolations)

variable [Machine]

namespace TableHandle

/-!
# The statements of operations
-/

section Statements

variable {table : TableHandle} {filter? : Option Predicate}

theorem sends_execute (table : TableHandle) (fragment : Fragment) :
    table.database.Sends
      (tryCatch (table.database.execute fragment.params fragment.text)
        fun failure => do
          report .warn "Operation failed, rolling back"
            [("table", table.name), ("error", failure.message)]
          throw failure)
      fragment Session.Result.affected :=
  (table.database.sends_execute fragment).reporting
    "Operation failed, rolling back" _

theorem select_eq (hfound : filterViolations filter? = []) {options : Options}
    (hfilter : options.filter? = filter?) :
    table.select options = (do
      let rows <- table.database.atomically (table.database.fetch
        (Statement.selectBase table.name options.columns? ++
          Statement.condition table.mode filter? ++
          .ofText (Statement.tail options)).params
        (Statement.selectBase table.name options.columns? ++
          Statement.condition table.mode filter? ++
          .ofText (Statement.tail options)).text)
      return rows.map (restoreBooleans table.columns)) := by
  rw [select, Statement.select_eq, hfilter, hfound,
    Predicate.verdict_nil, wellFormed, pure_bind]

theorem delete_eq (hfound : filterViolations filter? = []) {options : Options}
    (hfilter : options.filter? = filter?) :
    table.delete options = table.execute
      (Statement.deleteBase table.name ++
        Statement.condition table.mode filter?) := by
  rw [delete, Statement.delete_eq, hfilter, hfound,
    Predicate.verdict_nil, wellFormed, pure_bind]

theorem update_eq (hfound : filterViolations filter? = []) (changes : Row)
    {options : Options} (hfilter : options.filter? = filter?) :
    table.update changes options = table.execute
      (Statement.updateBase table.name changes ++
        Statement.condition table.mode filter? ++
        .ofText (Statement.tail options)) := by
  rw [update, Statement.update_eq, hfilter, hfound,
    Predicate.verdict_nil, wellFormed, pure_bind]

theorem aggregate_eq (hfound : filterViolations filter? = [])
    (computed : Statement.Aggregate) :
    table.aggregate computed filter? =
      table.database.atomically (table.database.fetchValue?
        (Statement.aggregateBase table.name computed ++
          Statement.condition table.mode filter?).params
        (Statement.aggregateBase table.name computed ++
          Statement.condition table.mode filter?).text) := by
  rw [aggregate, Statement.aggregate_eq, hfound,
    Predicate.verdict_nil, wellFormed, pure_bind]

/-- The sum that the value of an aggregate stands for. -/
def sumOf : Option Value -> Value
  | none => .int 0
  | some .null => .int 0
  | some value => value

theorem sum_eq (table : TableHandle) (column : String)
    (filter? : Option Predicate) :
    table.sum column filter? = (do
      return sumOf (<- table.aggregate (.sum column) filter?)) := by
  rw [sum]
  congr 1
  funext value?
  rcases value? with _ | _ | _ | _ | _ | _ | _ <;> rfl

end Statements

end TableHandle

/-!
# Work on one statement
-/

section Undertakes

open Database.Action (Concludes concludes_pure runOn runOn_bind)
open TableHandle (wellFormed)

variable {α β : Type} {handle : Handle} {statement : Except ShapeError Fragment}

/--
Work that refuses a malformed filter, sends the statement of a well-formed one in a
transaction of its own, and goes on with what cannot fail.
-/
inductive Undertakes (handle : Handle) (action : Action β) :
    Except ShapeError Fragment -> Prop where
  | refuses {violation : ShapeError} :
      (forall host, runOn action host = (.error (.predicate violation), host)) ->
      Undertakes handle action (.error violation)
  | sends {α : Type} {task : Action α} {fragment : Fragment}
      {look : Session.Result -> α} {next : α -> Action β} :
      handle.Sends task fragment look -> (forall result, Concludes (next result)) ->
      action = handle.atomically task >>= next ->
      Undertakes handle action (.ok fragment)

theorem Undertakes.bind_concludes {action : Action α}
    (h : Undertakes handle action statement) {next : α -> Action β}
    (hnext : forall result, Concludes (next result)) :
    Undertakes handle (action >>= next) statement := by
  cases h with
  | refuses hrefuses =>
      refine .refuses fun host => ?_
      rw [runOn_bind, hrefuses host]
  | sends hsends hfirst heq =>
      refine .sends hsends (fun result => (hfirst result).bind hnext) ?_
      rw [heq, bind_assoc]

theorem undertakes_wellFormed {task : Fragment -> Action α}
    {look : Session.Result -> α}
    (h : forall fragment, handle.Sends (task fragment) fragment look) :
    Undertakes handle
      (do let fragment <- wellFormed statement
          handle.atomically (task fragment))
      statement := by
  cases statement with
  | error violation => exact .refuses fun _ => rfl
  | ok fragment =>
      refine .sends (h fragment) concludes_pure ?_
      rw [wellFormed, pure_bind, bind_pure]

namespace TableHandle

theorem undertakes_execute (table : TableHandle) (fragment : Fragment) :
    Undertakes table.database (table.execute fragment) (.ok fragment) :=
  .sends (table.sends_execute fragment) concludes_pure (bind_pure _).symm

theorem undertakes_update (table : TableHandle) (changes : Row) (options : Options) :
    Undertakes table.database (table.update changes options)
      (Statement.update table.mode table.name changes options) :=
  undertakes_wellFormed table.sends_execute

theorem undertakes_delete (table : TableHandle) (options : Options) :
    Undertakes table.database (table.delete options)
      (Statement.delete table.mode table.name options.filter?) :=
  undertakes_wellFormed table.sends_execute

theorem undertakes_select (table : TableHandle) (options : Options) :
    Undertakes table.database (table.select options)
      (Statement.select table.mode table.name options) := by
  have hrows :=
    (@undertakes_wellFormed _ _ _ (Statement.select table.mode table.name options) _ _
      table.database.sends_fetch).bind_concludes
        fun rows => concludes_pure (rows.map (restoreBooleans table.columns))
  rw [bind_assoc] at hrows
  exact hrows

theorem undertakes_aggregate (table : TableHandle) (computed : Statement.Aggregate)
    (filter? : Option Predicate) :
    Undertakes table.database (table.aggregate computed filter?)
      (Statement.aggregate table.mode table.name computed filter?) :=
  undertakes_wellFormed table.database.sends_fetchValue?

theorem undertakes_sum (table : TableHandle) (column : String)
    (filter? : Option Predicate) :
    Undertakes table.database (table.sum column filter?)
      (Statement.aggregate table.mode table.name (.sum column) filter?) := by
  apply (table.undertakes_aggregate (.sum column) filter?).bind_concludes
  intro value?
  rcases value? with _ | _ | _ | _ | _ | _ | _ <;> exact concludes_pure _

theorem undertakes_count (table : TableHandle) (filter? : Option Predicate) :
    Undertakes table.database (table.count filter?)
      (Statement.aggregate table.mode table.name .count filter?) :=
  (table.undertakes_aggregate .count filter?).bind_concludes
    fun _ => concludes_pure _

end TableHandle

end Undertakes

end Database
end TableStore
