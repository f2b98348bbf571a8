import TableStore.Engine.Sqlite
import TableStore.Proofs.Predicate.Outline
import TableStore.Proofs.Predicate.Tests
import TableStore.Proofs.Statement.Reading

/-!
# Values of rows and their placeholders

An insertion and an update give every column of a row a placeholder of its own,
in the order of the columns, and the value of the column is the parameter for
it.  The operands of the filter of an update come behind the values of the row,
if they are parameters at all.
-/

namespace TableStore
namespace Statement

open Engine (Cell Formula Scope)
open Predicate (LeavesRead Unquoted)
open Sql (Expr)

/-!
# What is bound
-/

/--
Every placeholder of a statement has a parameter, and the first parameters are
the values of the columns of a row.
-/
structure Binds (row : Row) (statement : Fragment) : Prop where
  placeholders_eq :
    Sql.placeholders ((Sql.scan statement.text).map Sql.Lexeme.token) =
      List.range statement.params.length
  param_eq : forall (index : Nat) (column : String),
    row.columns[index]? = some column ->
    exists value, row.get? column = some value ∧
      statement.params[index]? = some value

section
variable [Engine.Conversions]

structure InsertBinds (table : String) (row : Row) (statement : Fragment) :
    Prop extends Binds row statement where
  params_eq : statement.params = row.values
  command_eq : Sql.Command.read.run (Sql.scan statement.text) =
    .ok (.insert table (.values (some row.columns)
      [Sql.placeholderRow row.columns.length]), [])
  rows_eq : forall (stored : Engine.Table) (name : String),
    Engine.newRows stored name (statement.params.map Cell.ofValue)
        (.values (some row.columns) [Sql.placeholderRow row.columns.length]) =
      (Engine.insertPositions stored name (some row.columns)).map
        fun positions =>
          [Engine.arrangeCells stored positions (row.values.map Cell.ofValue)]

def boundOperands (mode : Rendering) (operands : List Value) : List Value :=
  match mode with
  | .parameterized => operands
  | .inline => []

/-- The operand with a number, when `before` placeholders stand before it. -/
def operandLeaf (mode : Rendering) (before index : Nat) (value : Value) :
    Expr :=
  match mode with
  | .parameterized => .placeholder (before + index)
  | .inline => Predicate.inlineLeaf value

def lookedUp (scope : Scope) (cell : String × Value) :
    Except Engine.Error (Nat × Formula) :=
  match scope.position? cell.1 with
  | some position => .ok (position, .constant (Cell.ofValue cell.2))
  | none => .error (.noSuchColumn cell.1)

/-- An update gives the columns of a row their values where its filter says. -/
structure UpdateBinds (mode : Rendering) (table : String) (row : Row)
    (options : Options) (statement : Fragment) :
    Prop extends Binds row statement where
  params_eq : statement.params =
    row.values ++ boundOperands mode (filterOperands options.filter?)
  command_eq : exists rest,
    rest.map Sql.Lexeme.token =
      Sql.orderTokens options.orderBy ++
        Sql.limitTokens (options.limit?.map UInt64.toNat) ∧
    Sql.Command.readStatement.run (Sql.scan statement.text) =
      .ok (.update table (Sql.placeholderAssignments row.columns)
        (conditionTree (operandLeaf mode row.columns.length) options.filter?),
        rest)
  assignments_eq : forall scope : Scope,
    scope.params = statement.params.map Cell.ofValue ->
      Engine.resolveAssignments scope
          (Sql.placeholderAssignments row.columns) =
        row.cells.mapM (lookedUp scope)
  condition_eq : mode = .parameterized -> forall scope : Scope,
    scope.params = statement.params.map Cell.ofValue ->
      Engine.resolveCondition scope
          (conditionTree (operandLeaf mode row.columns.length)
            options.filter?) =
        Engine.resolveCondition scope
          (conditionTree (fun _ value => .literal value) options.filter?)
  operand_sentence : mode = .inline ->
    forall value, value ∈ filterOperands options.filter? -> forall index,
      Sql.Sentence value.operandText
        (operandLeaf mode row.columns.length index value)

end

/-!
# Values of rows
-/

theorem get?_of_getElem? {cells : List (String × Value)}
    (hdistinct : (Keyed.keys cells).Nodup) {index : Nat} {column : String}
    (hcolumn : (Keyed.keys cells)[index]? = some column) :
    exists value, Keyed.get? column cells = some value ∧
      (cells.map Prod.snd)[index]? = some value := by
  induction cells generalizing index with
  | nil => cases hcolumn
  | cons cell cells ih =>
      rcases cell with ⟨name, first⟩
      rw [Keyed.keys_cons, List.nodup_cons] at hdistinct
      rw [Keyed.keys_cons] at hcolumn
      cases index with
      | zero =>
          cases hcolumn
          exact ⟨first, by rw [Keyed.get?, if_pos rfl], rfl⟩
      | succ index =>
          rcases ih hdistinct.right hcolumn with ⟨value, hget, hvalue⟩
          have hother : name ≠ column := by
            intro heq
            apply hdistinct.left
            rw [heq]
            exact List.mem_of_getElem? hcolumn
          exact ⟨value, by rw [Keyed.get?, if_neg hother, hget], hvalue⟩

theorem Row.get?_of_columns (row : Row) {index : Nat} {column : String}
    (hcolumn : row.columns[index]? = some column) :
    exists value, row.get? column = some value ∧
      row.values[index]? = some value :=
  get?_of_getElem? row.distinct hcolumn

theorem param_eq_of_append (row : Row) (others : List Value) (index : Nat)
    (column : String) (hcolumn : row.columns[index]? = some column) :
    exists value, row.get? column = some value ∧
      (row.values ++ others)[index]? = some value := by
  rcases Row.get?_of_columns row hcolumn with ⟨value, hget, hvalue⟩
  refine ⟨value, hget, ?_⟩
  rw [List.getElem?_append_left (List.getElem?_eq_some_iff.mp hvalue).1]
  exact hvalue

/-!
# Placeholders in the engine
-/

section
variable [Engine.Conversions]

theorem resolve_placeholder {scope : Scope} {params : List Value}
    (hparams : scope.params = params.map Cell.ofValue) {index : Nat}
    {value : Value} (hvalue : params[index]? = some value) :
    scope.resolve (.placeholder index) = scope.resolve (.literal value) := by
  rw [Scope.resolve, Scope.resolve, hparams, List.getElem?_map, hvalue]
  rfl

theorem mapM_closedCell_from (params : List Value) :
    forall (values before : List Value), params = before ++ values ->
      ((List.range' before.length values.length).map Expr.placeholder).mapM
          (Engine.closedCell (params.map Cell.ofValue)) =
        .ok (values.map Cell.ofValue) := by
  intro values
  induction values with
  | nil =>
      intro before _
      rfl
  | cons value values ih =>
      intro before hparams
      have hrest := ih (before ++ [value]) (by simp [hparams])
      have hvalue : params[before.length]? = some value := by
        simp [hparams]
      have hscope : (Scope.closed (params.map Cell.ofValue)).params =
          params.map Cell.ofValue := rfl
      rw [List.length_append, List.length_singleton] at hrest
      rw [List.length_cons, List.range'_succ, List.map_cons, List.mapM_cons,
        hrest, Engine.closedCell, resolve_placeholder hscope hvalue]
      rfl

theorem newRows_placeholders (stored : Engine.Table) (name : String)
    (row : Row) :
    Engine.newRows stored name (row.values.map Cell.ofValue)
        (.values (some row.columns) [Sql.placeholderRow row.columns.length]) =
      (Engine.insertPositions stored name (some row.columns)).map
        fun positions =>
          [Engine.arrangeCells stored positions
            (row.values.map Cell.ofValue)] := by
  have hcells := mapM_closedCell_from row.values row.values [] rfl
  rw [List.length_nil, <- List.range_eq_range', Row.length_values] at hcells
  have hsize : Engine.checkRowSize stored name (some row.columns)
      (row.values.map Cell.ofValue).length = .ok () := by
    rw [Engine.checkRowSize, List.length_map, Row.length_values, if_pos rfl]
  rw [Engine.newRows]
  cases Engine.insertPositions stored name (some row.columns) with
  | error error => rfl
  | ok positions =>
      have hrows : [Sql.placeholderRow row.columns.length].mapM
          (fun exprs => exprs.mapM
            (Engine.closedCell (row.values.map Cell.ofValue))) =
            Except.ok [row.values.map Cell.ofValue] := by
        rw [List.mapM_cons, List.mapM_nil, Sql.placeholderRow, hcells]
        rfl
      have hsizes : [row.values.map Cell.ofValue].forM
          (fun cells => Engine.checkRowSize stored name (some row.columns)
            cells.length) = Except.ok () := by
        rw [List.forM, hsize]
        rfl
      simp only [bind, Except.bind, hrows, hsizes]
      rfl

theorem resolveAssignments_from {scope : Scope} {params : List Value}
    (hparams : scope.params = params.map Cell.ofValue) (others : List Value) :
    forall (cells : List (String × Value)) (before : List Value),
      params = before ++ cells.map Prod.snd ++ others ->
        Engine.resolveAssignments scope
            (((Keyed.keys cells).zipIdx before.length).map fun entry =>
              (entry.1, .placeholder entry.2)) =
          cells.mapM (lookedUp scope) := by
  intro cells
  induction cells with
  | nil =>
      intro before _
      rfl
  | cons cell cells ih =>
      intro before hsplit
      have hrest := ih (before ++ [cell.2]) (by simp [hsplit])
      have hvalue : params[before.length]? = some cell.2 := by
        simp [hsplit]
      have hformula := resolve_placeholder hparams hvalue
      rw [List.length_append, List.length_singleton] at hrest
      rw [Engine.resolveAssignments] at hrest ⊢
      rw [Keyed.keys_cons, List.zipIdx_cons, List.map_cons, List.mapM_cons,
        List.mapM_cons, hrest]
      dsimp only
      rw [hformula, lookedUp]
      cases scope.position? cell.1 with
      | none => rfl
      | some position => rfl

theorem resolveAssignments_placeholders {scope : Scope} {row : Row}
    {others : List Value}
    (hparams : scope.params = (row.values ++ others).map Cell.ofValue) :
    Engine.resolveAssignments scope
        (Sql.placeholderAssignments row.columns) =
      row.cells.mapM (lookedUp scope) :=
  resolveAssignments_from hparams others row.cells [] rfl

theorem congruence_resolve (scope : Scope) :
    Expr.Congruence fun first second =>
      scope.resolve first = scope.resolve second where
  null := rfl
  not h := by
    rw [Scope.resolve, Scope.resolve, h]
  and hleft hright := by
    rw [Scope.resolve, Scope.resolve, hleft, hright]
  or hleft hright := by
    rw [Scope.resolve, Scope.resolve, hleft, hright]

theorem resolve_test_congr {scope : Scope} (column : String)
    (comparison : Comparison) {first second : Expr}
    (h : scope.resolve first = scope.resolve second) :
    scope.resolve (Predicate.testTree column comparison first) =
      scope.resolve (Predicate.testTree column comparison second) := by
  simp only [Predicate.testTree, Scope.resolve, h]

theorem resolve_placeholders {scope : Scope} {before : List Value}
    {predicate : Predicate}
    (hparams : scope.params =
      (before ++ predicate.operands).map Cell.ofValue) :
    scope.resolve
        (predicate.tree (operandLeaf .parameterized before.length)) =
      scope.resolve (predicate.tree fun _ value => .literal value) := by
  apply Predicate.alike_tree (congruence_resolve scope)
  intro index test htest
  have hvalue := Predicate.test_value_of_append before htest
  rw [<- Nat.zero_add index] at hvalue
  exact resolve_test_congr test.column test.comparison
    (resolve_placeholder hparams hvalue)

theorem resolveCondition_placeholders {scope : Scope} {before : List Value}
    {filter? : Option Predicate}
    (hparams : scope.params =
      (before ++ filterOperands filter?).map Cell.ofValue) :
    Engine.resolveCondition scope
        (conditionTree (operandLeaf .parameterized before.length) filter?) =
      Engine.resolveCondition scope
        (conditionTree (fun _ value => .literal value) filter?) := by
  rcases filter? with _ | _ | ⟨entry, rest⟩
  · rfl
  · rfl
  · rw [conditionTree, conditionTree, Engine.resolveCondition,
      Engine.resolveCondition, resolve_placeholders hparams]

end

/-!
# Writes
-/

theorem literals_of_filterViolations {filter? : Option Predicate}
    (hfound : filterViolations filter? = []) :
    Predicate.Literals (filterOperands filter?) := by
  cases filter? with
  | none => exact List.forall_mem_nil _
  | some predicate => exact Predicate.literals_of_violations hfound

theorem leavesRead_operandLeaf {mode : Rendering} (before : Nat)
    {filter? : Option Predicate} (hfound : filterViolations filter? = [])
    (hquotes : mode = .inline -> forall value,
      value ∈ filterOperands filter? -> Unquoted value) :
    LeavesRead before mode (operandLeaf mode before)
      (filterOperands filter?) := by
  cases mode with
  | parameterized => exact Predicate.leavesRead_placeholder_from before _
  | inline =>
      exact Predicate.leavesRead_inline before
        (literals_of_filterViolations hfound) (hquotes rfl)

theorem boundOperands_eq (mode : Rendering) (operands : List Value) :
    Predicate.operandParams mode operands = boundOperands mode operands := by
  cases mode with
  | parameterized => exact Predicate.operandParams_parameterized operands
  | inline => exact Predicate.operandParams_inline operands

theorem sentence_operandText {value : Value}
    (hliteral : value.isLiteral = true) (hquote : Unquoted value) :
    Sql.Sentence value.operandText (Predicate.inlineLeaf value) :=
  ((Predicate.reads_operandText 0 hliteral hquote).weaken
    (Nat.zero_le _)).sentence

section
variable [Engine.Conversions]

theorem insertBinds_insert {table : String} {row : Row}
    (htable : Sql.isPlainName table = true) (hne : row.columns ≠ [])
    (hcolumns : forall column, column ∈ row.columns ->
      Sql.isPlainName column = true) :
    InsertBinds table row (insert table row) := by
  have hscanned := scanned_insert htable hne hcolumns
  constructor
  · constructor
    · rw [hscanned.tokens_eq, hscanned.placeholders_eq]
    · intro index column hcolumn
      rw [params_insert]
      exact Row.get?_of_columns row hcolumn
  · exact params_insert table row
  · exact read_insert htable hne hcolumns
  · intro stored name
    rw [params_insert]
    exact newRows_placeholders stored name row

theorem updateBinds_update {mode : Rendering} {table : String} {row : Row}
    (htable : Sql.isPlainName table = true) (hne : row.columns ≠ [])
    (hcolumns : forall column, column ∈ row.columns ->
      Sql.isPlainName column = true)
    {options : Options} (hfound : filterViolations options.filter? = [])
    (hnames : forall column, column ∈ filterColumns options.filter? ->
      Sql.isPlainName column = true)
    (horders : forall order, order ∈ options.orderBy ->
      Sql.isPlainName order.column = true)
    (hquotes : mode = .inline -> forall value,
      value ∈ filterOperands options.filter? -> Unquoted value) :
    UpdateBinds mode table row options
      (updateBase table row ++ condition mode options.filter? ++
        .ofText (tail options)) := by
  have hleaves :=
    leavesRead_operandLeaf row.columns.length hfound hquotes
  have hparams : (updateBase table row ++ condition mode options.filter? ++
      Fragment.ofText (tail options)).params =
        row.values ++ boundOperands mode (filterOperands options.filter?) := by
    rw [Fragment.params_append, Fragment.params_append, params_condition,
      boundOperands_eq, updateBase, Fragment.params_ofText, List.append_nil]
    rfl
  rcases scanned_update htable hne hcolumns hfound hnames horders hleaves with
    ⟨clause, _, hscanned⟩
  rcases read_update htable hne hcolumns hfound hnames horders hleaves with
    ⟨rest, hrest, hread⟩
  constructor
  · constructor
    · rw [hscanned.tokens_eq, hscanned.placeholders_eq]
    · rw [hparams]
      exact param_eq_of_append row _
  · exact hparams
  · exact ⟨rest, hrest.tokens_eq, hread⟩
  · intro scope hscope
    rw [hparams] at hscope
    exact resolveAssignments_placeholders hscope
  · intro hmode scope hscope
    subst hmode
    rw [hparams, boundOperands] at hscope
    rw [<- Row.length_values]
    exact resolveCondition_placeholders hscope
  · intro hmode value hmem index
    subst hmode
    exact sentence_operandText (literals_of_filterViolations hfound value hmem)
      (hquotes rfl value hmem)

/--
Insertions and updates bind the value of each column of a row to the place of
that column, and an update binds the operands of its filter behind them.
-/
theorem writes_bind_columns (table : String) (row : Row)
    (htable : Sql.isPlainName table = true) (hne : row.columns ≠ [])
    (hcolumns : forall column, column ∈ row.columns ->
      Sql.isPlainName column = true) :
    InsertBinds table row (insert table row) ∧
      forall (mode : Rendering) (options : Options),
        filterViolations options.filter? = [] ->
        (forall column, column ∈ filterColumns options.filter? ->
          Sql.isPlainName column = true) ->
        (forall order, order ∈ options.orderBy ->
          Sql.isPlainName order.column = true) ->
        (mode = .inline -> forall value,
          value ∈ filterOperands options.filter? -> Unquoted value) ->
        exists statement, update mode table row options = .ok statement ∧
          UpdateBinds mode table row options statement := by
  constructor
  · exact insertBinds_insert htable hne hcolumns
  · intro mode options hfound hnames horders hquotes
    refine ⟨_, ?_, updateBinds_update htable hne hcolumns hfound hnames horders
      hquotes⟩
    rw [update_eq, hfound, Predicate.verdict_nil]

end

section Witness

open Engine.Sqlite

theorem writes_bind_columns_quoted_mark :
    InsertBinds "t" ⟨[("a", .text "?"), ("b", .int 1)], by decide⟩
        (insert "t" ⟨[("a", .text "?"), ("b", .int 1)], by decide⟩) ∧
      exists statement,
        update .inline "t" ⟨[("a", .text "?"), ("b", .int 1)], by decide⟩
            (.ofFilter (some [.compare "a" [.not [.test .lt (.text "?")]]])) =
          .ok statement ∧
        UpdateBinds .inline "t"
          ⟨[("a", .text "?"), ("b", .int 1)], by decide⟩
          (.ofFilter (some [.compare "a" [.not [.test .lt (.text "?")]]]))
          statement := by
  have hbinds := writes_bind_columns "t"
    ⟨[("a", .text "?"), ("b", .int 1)], by decide⟩ (by decide)
    (List.cons_ne_nil _ _)
    (by simp [Row.columns, Sql.isPlainName]; decide)
  constructor
  · exact hbinds.left
  · apply hbinds.right
    · simp [Options.ofFilter, filterViolations, Predicate.violations,
        Predicate.entryViolations, Predicate.comparatorViolations,
        Predicate.operandViolations, Predicate.violationIf]
    · simp [Options.ofFilter, filterColumns, Predicate.columns,
        Predicate.entryColumns, Predicate.comparatorColumns]
      decide
    · simp [Options.ofFilter, Options.none]
    · simp [Options.ofFilter, filterOperands, Predicate.operands,
        Predicate.entryOperands, Predicate.comparatorOperands, Unquoted]

end Witness

end Statement
end TableStore
