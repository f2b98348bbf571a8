import TableStore.Proofs.Predicate.Contents
import TableStore.Statement.Build

/-!
# The parts of a statement

Every statement is a base, the condition of its filter and a tail.  Each of them
is a total function of what the statement is built from; building fails for the
filter only, with the first of its violations.
-/

namespace TableStore

theorem Row.length_values (row : Row) :
    row.values.length = row.columns.length := by
  rw [Row.values, Row.columns, Keyed.keys, List.length_map, List.length_map]

namespace Statement

open Predicate (verdict verdict_eq_ok_iff verdict_map)

def filterViolations : Option Predicate -> List ShapeError
  | none => []
  | some predicate => predicate.violations

/-- The condition of a filter, whether or not it is well-formed. -/
def condition (mode : Rendering) : Option Predicate -> Fragment
  | none => .ofText ""
  | some [] => .ofText ""
  | some (entry :: rest) =>
      (Predicate.rendered mode (entry :: rest)).wrap " WHERE " ""

def tail (options : Options) : String :=
  orderClause options.orderBy ++ limitClause options.limit?

def assignments (columns : List String) : String :=
  Text.join ", " (columns.map fun column => column ++ " = ?")

def selectBase (table : String) (columns? : Option (List String)) : Fragment :=
  .ofText ("SELECT " ++ projection columns? ++ " FROM " ++ table)

def updateBase (table : String) (changes : Row) : Fragment :=
  ⟨"UPDATE " ++ table ++ " SET " ++ assignments changes.columns, changes.values⟩

def deleteBase (table : String) : Fragment :=
  .ofText ("DELETE FROM " ++ table)

def aggregateBase (table : String) (aggregate : Aggregate) : Fragment :=
  .ofText ("SELECT " ++ aggregate.text ++ " FROM " ++ table)

theorem verdict_bind_pure {α β : Type} (found : List ShapeError) (result : α)
    (f : α -> β) :
    (do let part <- verdict found result; return f part) =
      verdict found (f result) :=
  verdict_map found result f

theorem whereClause_eq (mode : Rendering) (filter? : Option Predicate) :
    whereClause mode filter? =
      verdict (filterViolations filter?) (condition mode filter?) := by
  rcases filter? with _ | _ | ⟨entry, rest⟩
  · rfl
  · rw [filterViolations, Predicate.violations, Predicate.entryViolations]
    rfl
  · rw [whereClause, Predicate.compile_eq_verdict, verdict_map]
    rfl

theorem assemble_eq (mode : Rendering) (base : Fragment) (options : Options) :
    assemble mode base options =
      verdict (filterViolations options.filter?)
        (base ++ condition mode options.filter? ++ .ofText (tail options)) := by
  rw [assemble, whereClause_eq]
  exact verdict_bind_pure _ _ _

theorem select_eq (mode : Rendering) (table : String) (options : Options) :
    select mode table options =
      verdict (filterViolations options.filter?)
        (selectBase table options.columns? ++
          condition mode options.filter? ++ .ofText (tail options)) :=
  assemble_eq mode _ options

theorem update_eq (mode : Rendering) (table : String) (changes : Row)
    (options : Options) :
    update mode table changes options =
      verdict (filterViolations options.filter?)
        (updateBase table changes ++ condition mode options.filter? ++
          .ofText (tail options)) :=
  assemble_eq mode _ options

theorem delete_eq (mode : Rendering) (table : String)
    (filter? : Option Predicate) :
    delete mode table filter? =
      verdict (filterViolations filter?)
        (deleteBase table ++ condition mode filter?) := by
  rw [delete, whereClause_eq]
  exact verdict_bind_pure _ _ _

theorem aggregate_eq (mode : Rendering) (table : String)
    (computed : Aggregate) (filter? : Option Predicate) :
    aggregate mode table computed filter? =
      verdict (filterViolations filter?)
        (aggregateBase table computed ++ condition mode filter?) := by
  rw [aggregate, whereClause_eq]
  exact verdict_bind_pure _ _ _

theorem params_condition (mode : Rendering) (filter? : Option Predicate) :
    (condition mode filter?).params =
      Predicate.operandParams mode (filter?.elim [] Predicate.operands) := by
  rcases filter? with _ | _ | ⟨entry, rest⟩
  · rfl
  · rw [Option.elim_some, Predicate.operands, Predicate.entryOperands]
    rfl
  · exact Predicate.params_rendered mode (entry :: rest)

theorem params_insert (table : String) (row : Row) :
    (insert table row).params = row.values := by
  rw [insert]
  cases hempty : row.isEmpty with
  | false => rfl
  | true =>
      rw [Row.values, List.isEmpty_iff.mp hempty]
      rfl

end Statement
end TableStore
