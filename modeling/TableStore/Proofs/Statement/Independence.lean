import TableStore.Proofs.Predicate.Outline
import TableStore.Proofs.Statement.Build

/-!
# Values do not reach the text of a statement

Two calls that differ in values only, in the operands of their filters and in the
values of their rows, have the same outline.  With placeholders they give the
same text with as many parameters.  Values of rows are placeholders in any case.
-/

namespace TableStore

/-- The columns of a row without their values. -/
def Row.outline (row : Row) : Row :=
  ⟨row.cells.map fun cell => (cell.1, .null), by
    rw [Keyed.keys, List.map_map]
    exact row.distinct⟩

theorem Row.columns_outline (row : Row) :
    row.outline.columns = row.columns := by
  rw [Row.columns, Row.outline, Keyed.keys, List.map_map]
  rfl

theorem Row.isEmpty_eq (row : Row) : row.isEmpty = row.columns.isEmpty :=
  List.isEmpty_map.symm

namespace Statement

open Predicate (Literals verdict verdict_nil)

inductive Call
  | select (table : String) (options : Options)
  | update (table : String) (changes : Row) (options : Options)
  | delete (table : String) (filter? : Option Predicate)
  | aggregate (table : String) (computed : Aggregate)
      (filter? : Option Predicate)
  | insert (table : String) (row : Row)

/-- The options without the operands of their filter. -/
def outlineOptions (options : Options) : Options :=
  { options with filter? := options.filter?.map Predicate.outline }

namespace Call

def build (mode : Rendering) : Call -> Except ShapeError Fragment
  | .select table options => Statement.select mode table options
  | .update table changes options =>
      Statement.update mode table changes options
  | .delete table filter? => Statement.delete mode table filter?
  | .aggregate table computed filter? =>
      Statement.aggregate mode table computed filter?
  | .insert table row => .ok (Statement.insert table row)

def filter? : Call -> Option Predicate
  | .select _ options => options.filter?
  | .update _ _ options => options.filter?
  | .delete _ filter? => filter?
  | .aggregate _ _ filter? => filter?
  | .insert _ _ => none

def operands (call : Call) : List Value :=
  match call.filter? with
  | none => []
  | some predicate => predicate.operands

def outline : Call -> Call
  | .select table options => .select table (outlineOptions options)
  | .update table changes options =>
      .update table changes.outline (outlineOptions options)
  | .delete table filter? => .delete table (filter?.map Predicate.outline)
  | .aggregate table computed filter? =>
      .aggregate table computed (filter?.map Predicate.outline)
  | .insert table row => .insert table row.outline

/-- The statement of a call, whether or not its filter is well-formed. -/
def fragment (mode : Rendering) : Call -> Fragment
  | .select table options =>
      selectBase table options.columns? ++ condition mode options.filter? ++
        .ofText (tail options)
  | .update table changes options =>
      updateBase table changes ++ condition mode options.filter? ++
        .ofText (tail options)
  | .delete table filter? => deleteBase table ++ condition mode filter?
  | .aggregate table computed filter? =>
      aggregateBase table computed ++ condition mode filter?
  | .insert table row => Statement.insert table row

theorem build_eq (mode : Rendering) (call : Call) :
    call.build mode =
      verdict (filterViolations call.filter?) (call.fragment mode) := by
  cases call with
  | select table options => exact select_eq mode table options
  | update table changes options => exact update_eq mode table changes options
  | delete table filter? => exact delete_eq mode table filter?
  | aggregate table computed filter? =>
      exact aggregate_eq mode table computed filter?
  | insert table row => rfl

theorem filter?_outline (call : Call) :
    call.outline.filter? = call.filter?.map Predicate.outline := by
  cases call <;> rfl

end Call

/-!
# The statement of an outline
-/

theorem text_condition_outline (filter? : Option Predicate) :
    (condition .parameterized (filter?.map Predicate.outline)).text =
      (condition .parameterized filter?).text := by
  rcases filter? with _ | _ | ⟨entry, rest⟩
  · rfl
  · rw [Option.map_some, Predicate.outline, Predicate.entryOutline]
  · have hclause := Predicate.text_rendered_outline (entry :: rest)
    cases entry with
    | _ =>
        rw [Predicate.outline, Predicate.entryOutline] at hclause
        rw [Option.map_some, Predicate.outline, Predicate.entryOutline,
          condition, condition, Fragment.wrap, Fragment.wrap, hclause]

theorem length_params_condition_outline (filter? : Option Predicate) :
    (condition .parameterized (filter?.map Predicate.outline)).params.length =
      (condition .parameterized filter?).params.length := by
  rw [params_condition, params_condition,
    Predicate.operandParams_parameterized,
    Predicate.operandParams_parameterized]
  cases filter? with
  | none => rfl
  | some predicate => exact Predicate.length_operands_outline predicate

theorem text_insert_congr (table : String) {first second : Row}
    (hcolumns : first.columns = second.columns) :
    (insert table first).text = (insert table second).text := by
  rw [insert, insert, Row.isEmpty_eq, Row.isEmpty_eq, hcolumns]
  cases second.columns.isEmpty with
  | true => rfl
  | false => rfl

theorem text_updateBase_congr (table : String) {first second : Row}
    (hcolumns : first.columns = second.columns) :
    (updateBase table first).text = (updateBase table second).text := by
  rw [updateBase, updateBase, hcolumns]

theorem Call.text_fragment_outline (call : Call) :
    (call.outline.fragment .parameterized).text =
      (call.fragment .parameterized).text := by
  cases call with
  | select table options =>
      simp only [outline, fragment, outlineOptions, Fragment.text_append,
        text_condition_outline]
      rfl
  | update table changes options =>
      simp only [outline, fragment, outlineOptions, Fragment.text_append,
        text_condition_outline,
        text_updateBase_congr table changes.columns_outline]
      rfl
  | delete table filter? =>
      simp only [outline, fragment, Fragment.text_append,
        text_condition_outline]
  | aggregate table computed filter? =>
      simp only [outline, fragment, Fragment.text_append,
        text_condition_outline]
  | insert table row => exact text_insert_congr table row.columns_outline

theorem Call.length_params_fragment_outline (call : Call) :
    (call.outline.fragment .parameterized).params.length =
      (call.fragment .parameterized).params.length := by
  cases call with
  | select table options =>
      simp only [outline, fragment, outlineOptions, Fragment.params_append,
        List.length_append, length_params_condition_outline]
      rfl
  | update table changes options =>
      have hvalues :
          (updateBase table changes.outline).params.length =
            (updateBase table changes).params.length := by
        rw [updateBase, updateBase, Row.length_values, Row.length_values,
          Row.columns_outline]
      simp only [outline, fragment, outlineOptions, Fragment.params_append,
        List.length_append, length_params_condition_outline, hvalues]
      rfl
  | delete table filter? =>
      simp only [outline, fragment, Fragment.params_append,
        List.length_append, length_params_condition_outline]
  | aggregate table computed filter? =>
      simp only [outline, fragment, Fragment.params_append,
        List.length_append, length_params_condition_outline]
  | insert table row =>
      rw [outline, fragment, fragment, params_insert, params_insert,
        Row.length_values, Row.length_values, Row.columns_outline]

theorem Call.filterViolations_of_outline {call : Call}
    (hfree : filterViolations call.outline.filter? = [])
    (hliterals : Literals call.operands) :
    filterViolations call.filter? = [] := by
  rw [filter?_outline] at hfree
  rw [operands] at hliterals
  cases hfilter : call.filter? with
  | none => rfl
  | some predicate =>
      rw [hfilter] at hfree hliterals
      exact Predicate.violations_of_outline hfree hliterals

theorem Call.build_of_outline {call : Call}
    (hfree : filterViolations call.outline.filter? = [])
    (hliterals : Literals call.operands) (mode : Rendering) :
    call.build mode = .ok (call.fragment mode) := by
  rw [build_eq, filterViolations_of_outline hfree hliterals, verdict_nil]

/--
With placeholders, two calls with the same well-formed outline and only literals
as operands are both built, to the same text with as many parameters.  In either
rendering the texts of an insertion and of an update are the same for all rows
with the same columns.
-/
theorem build_text_independent :
    (forall first second : Call, first.outline = second.outline ->
      filterViolations first.outline.filter? = [] ->
        Literals first.operands -> Literals second.operands ->
          exists statement other,
            first.build .parameterized = .ok statement ∧
            second.build .parameterized = .ok other ∧
            statement.text = other.text ∧
            statement.params.length = other.params.length) ∧
    (forall (mode : Rendering) (table : String) (first second : Row),
      first.columns = second.columns ->
        (insert table first).text = (insert table second).text ∧
        forall options,
          (update mode table first options).map (·.text) =
            (update mode table second options).map (·.text)) := by
  constructor
  · intro first second hsame hfree hfirst hsecond
    have hother := hfree
    rw [hsame] at hother
    refine ⟨_, _, Call.build_of_outline hfree hfirst _,
      Call.build_of_outline hother hsecond _, ?_, ?_⟩
    · rw [<- Call.text_fragment_outline, hsame, Call.text_fragment_outline]
    · rw [<- Call.length_params_fragment_outline, hsame,
        Call.length_params_fragment_outline]
  · intro mode table first second hcolumns
    constructor
    · exact text_insert_congr table hcolumns
    · intro options
      rw [update_eq, update_eq, Predicate.verdict_map, Predicate.verdict_map]
      simp only [Fragment.text_append, text_updateBase_congr table hcolumns]

theorem build_text_independent_quotes :
    exists statement other,
      (Call.update "t" ⟨[("a", .text "'; --")], by decide⟩
          (.ofFilter (some [.compare "b"
            [.not [.test .lt (.text "' OR 1 = 1")]]]))).build .parameterized =
        .ok statement ∧
      (Call.update "t" ⟨[("a", .null)], by decide⟩
          (.ofFilter (some [.compare "b" [.not [.test .lt (.int 5)]]]))).build
          .parameterized =
        .ok other ∧
      statement.text = other.text ∧
      statement.params.length = other.params.length := by
  apply build_text_independent.left
  · simp [Call.outline, outlineOptions, Options.ofFilter, Row.outline,
      Predicate.outline, Predicate.entryOutline, Predicate.comparatorOutline]
  · simp [Call.outline, outlineOptions, Options.ofFilter, Call.filter?,
      filterViolations, Predicate.outline, Predicate.violations,
      Predicate.entryOutline, Predicate.comparatorOutline,
      Predicate.entryViolations, Predicate.comparatorViolations,
      Predicate.operandViolations_blankOperand, Predicate.violationIf]
  · simp [Literals, Call.operands, Call.filter?, Options.ofFilter,
      Predicate.operands, Predicate.entryOperands,
      Predicate.comparatorOperands, Value.isLiteral]
  · simp [Literals, Call.operands, Call.filter?, Options.ofFilter,
      Predicate.operands, Predicate.entryOperands,
      Predicate.comparatorOperands, Value.isLiteral]

end Statement
end TableStore
