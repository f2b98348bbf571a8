import TableStore.Proofs.Engine.Stores
import TableStore.Proofs.Engine.Selection
import TableStore.Proofs.Predicate.Renderings

/-!
# The records that a filter chooses

A record answers the tests of a predicate by its cells, and the predicate is true, false
or neither of it.  A statement with a filter looks up the names of its condition and
keeps the records that pass.  Which records these are depends on the filter and its
rendering, not on the statement, and if the operands are bound, they are those of which
the predicate is true.
-/

namespace TableStore

namespace Predicate

inductive Negates : Predicate -> Predicate -> Prop where
  | set (column : String) (set : List Comparator) :
      Negates [.compare column set] [.compare column [.not set]]
  | whole (column : String) (predicate : Predicate) :
      Negates predicate [.compare column [.notAnyOf [predicate]]]

theorem Negates.truth_eq {predicate opposite : Predicate}
    (h : Negates predicate opposite) (test : Interpretation) :
    opposite.truth test = (predicate.truth test).not := by
  cases h with
  | set column set =>
      simp only [truth, entryTruth, comparatorTruth, Engine.Truth.and_true]
  | whole column predicate =>
      simp only [truth, entryTruth, comparatorTruth, branchTruth,
        Engine.Truth.and_true, Engine.Truth.or_false]

theorem Negates.tests_eq {predicate opposite : Predicate}
    (h : Negates predicate opposite) : opposite.tests = predicate.tests := by
  cases h with
  | set column set =>
      simp only [tests, entryTests, comparatorTests, List.append_nil]
  | whole column predicate =>
      simp only [tests, entryTests, comparatorTests, branchTests, List.append_nil]

end Predicate

namespace Engine

open Predicate (Test testTree)
open Sql (Expr Query)
open Statement (boundOperands conditionTree filterOperands operandLeaf)

/-!
# What a filter says about a record
-/

namespace Table

def Knows (table : Table) (filter? : Option Predicate) : Prop :=
  forall predicate, filter? = some predicate ->
    forall test, test ∈ predicate.tests ->
      (table.position? test.column).isSome = true

def listed (table : Table) (record : Record) : ResultRow :=
  table.fields.zipIdx.map fun (field, position) =>
    (field.name, record.cells[position]?.getD .null)

theorem position?_scope (table : Table) (params : List Cell) (name : String) :
    (table.scope params).position? name = table.position? name := by
  rw [Scope.position?, scope, List.findIdx?_map]
  rfl

theorem sameNames_scope (table : Table) (first second : List Cell) :
    (table.scope first).SameNames (table.scope second) :=
  ⟨rfl, rfl⟩

section
variable [Conversions]

/-- The answers of a record to the tests of a predicate. -/
def answers (table : Table) (record : Record) : Interpretation :=
  fun name comparison value =>
    match table.position? name with
    | some position =>
        test comparison (table.fields[position]?.map (·.affinity))
          (record.cells[position]?.getD .null) (Cell.ofValue value)
    | none => none

def holds (table : Table) (record : Record) (filter? : Option Predicate) : Truth :=
  filter?.elim (some true) (Predicate.truth (table.answers record))

theorem resolve_column_of_position? {table : Table} {name : String} {position : Nat}
    (h : table.position? name = some position) :
    exists field, table.fields[position]? = some field ∧
      forall params, (table.scope params).resolve (.column none name) =
        .ok (.column position field.affinity) := by
  have hlt : position < table.fields.length :=
    (List.findIdx?_eq_some_iff_getElem.mp h).1
  refine ⟨table.fields[position], List.getElem?_eq_getElem hlt, fun params => ?_⟩
  have hnamed : (table.scope params).columns[position]? =
      some ⟨table.fields[position].name, table.fields[position].affinity⟩ := by
    rw [scope, List.getElem?_map, List.getElem?_eq_getElem hlt]
    rfl
  have hcolumn : (table.scope params).column? name =
      some (.column position table.fields[position].affinity) := by
    rw [Scope.column?, position?_scope, h, Option.bind_eq_bind, Option.bind_some,
      hnamed]
    rfl
  rw [Scope.resolve, formula?_of_column? hcolumn]

/-!
# The formula of a filter
-/

/-- An expression whose names are known to a table means what its records answer. -/
def Means (table : Table) (params : List Cell) (tree : Expr) : Prop :=
  exists formula, (table.scope params).resolve tree = .ok formula ∧
    forall record : Record, formula.eval record =
      (tree.truth (table.answers record) []).cell

theorem truth_cell (truth : Truth) : truth.cell.truth = truth := by
  rcases truth with _ | _ | _ <;> rfl

theorem congruence_means (table : Table) (params : List Cell) :
    Expr.Congruence fun first _ => table.Means params first where
  null := ⟨_, rfl, fun _ => rfl⟩
  not := by
    rintro inner _ ⟨formula, hformula, hmeans⟩
    refine ⟨formula.not, ?_, fun record => ?_⟩
    · rw [Scope.resolve, hformula]
      rfl
    · rw [Formula.eval, hmeans, truth_cell, Expr.truth]
  and := by
    rintro left right _ _ ⟨first, hfirst, hleft⟩ ⟨second, hsecond, hright⟩
    refine ⟨first.and second, ?_, fun record => ?_⟩
    · rw [Scope.resolve, hfirst, hsecond]
      rfl
    · rw [Formula.eval, hleft, hright, truth_cell, truth_cell, Expr.truth]
  or := by
    rintro left right _ _ ⟨first, hfirst, hleft⟩ ⟨second, hsecond, hright⟩
    refine ⟨first.or second, ?_, fun record => ?_⟩
    · rw [Scope.resolve, hfirst, hsecond]
      rfl
    · rw [Formula.eval, hleft, hright, truth_cell, truth_cell, Expr.truth]

theorem means_test {table : Table} {test : Test}
    (hknown : (table.position? test.column).isSome = true) (params : List Cell) :
    table.Means params
      (testTree test.column test.comparison (.literal test.value)) := by
  rcases Option.isSome_iff_exists.mp hknown with ⟨position, hposition⟩
  rcases resolve_column_of_position? hposition with ⟨field, hfield, hcolumn⟩
  refine ⟨.compare test.comparison (.column position field.affinity)
    (.constant (Cell.ofValue test.value)), ?_, fun record => ?_⟩
  · rw [resolve_testTree, hcolumn]
    rfl
  · have hoperand : (Expr.literal test.value).operand? [] = some test.value := rfl
    rw [Predicate.truth_testTree _ _ _ hoperand, answers, hposition]
    dsimp only
    rw [Formula.eval, testAffinity?_constant, hfield]
    rfl

theorem means_tree {table : Table} {predicate : Predicate}
    (hknown : table.Knows (some predicate)) (params : List Cell) :
    table.Means params (predicate.tree fun _ value => .literal value) := by
  have htests : Predicate.TestsAlike
      (fun first _ => table.Means params first)
      (fun _ value => .literal value) (fun _ value => .literal value) 0
      predicate.tests := by
    intro index test htest
    exact means_test (hknown predicate rfl test (List.mem_of_getElem? htest)) params
  exact Predicate.alike_tree (congruence_means table params) htests

end

theorem Knows.of_negates {table : Table} {predicate opposite : Predicate}
    (hknown : table.Knows (some predicate))
    (h : Predicate.Negates predicate opposite) : table.Knows (some opposite) := by
  rintro _ ⟨⟩
  rw [h.tests_eq]
  exact hknown predicate rfl

end Table

/-!
# The choice of a filter
-/

namespace Store

theorem bind_eq_error {α β : Type} {first : Except Error α}
    {next : α -> Except Error β}
    (h : forall middle, first = .ok middle ->
      exists error, next middle = .error error) :
    exists error, (first >>= next) = .error error := by
  cases first with
  | error error => exact ⟨error, rfl⟩
  | ok middle => exact h middle rfl

end Store

def closedLeaf (mode : Rendering) (_ : Nat) (value : Value) : Expr :=
  match mode with
  | .parameterized => .literal value
  | .inline => Predicate.inlineLeaf value

section
variable [Conversions]

/-- Which records a filter chooses, if its columns can be looked up. -/
def Table.choice (table : Table) (mode : Rendering)
    (filter? : Option Predicate) : Except Error (Record -> Bool) :=
  chosenBy (table.scope []) (conditionTree (closedLeaf mode) filter?)

theorem exists_resolve_real (x : Decimal.Binary64) :
    exists cell, forall scope : Scope,
      scope.resolve (Predicate.inlineLeaf (.real x)) = .ok (.constant cell) := by
  rw [Predicate.inlineLeaf]
  rcases Predicate.respelled_cases x with ⟨n, hwhole⟩ | ⟨negative, d, hdecimal⟩
  · rw [hwhole]
    exact ⟨_, fun _ => rfl⟩
  · rw [hdecimal]
    exact ⟨_, fun _ => rfl⟩

theorem resolve_inlineLeaf {first second : Scope}
    (hnames : first.SameNames second) (value : Value) :
    first.resolve (Predicate.inlineLeaf value) =
      second.resolve (Predicate.inlineLeaf value) := by
  cases value with
  | bool b =>
      cases b with
      | true => exact resolve_column_congr hnames "true"
      | false => exact resolve_column_congr hnames "false"
  | real x =>
      rcases exists_resolve_real x with ⟨cell, hcell⟩
      rw [hcell, hcell]
  | _ => rfl

theorem resolve_operandLeaf {table : Table} {mode : Rendering}
    {before : List Value} {predicate : Predicate} {index : Nat} {test : Test}
    (htest : predicate.tests[index]? = some test) :
    (table.scope ((before ++ boundOperands mode
        (filterOperands (some predicate))).map Cell.ofValue)).resolve
        (operandLeaf mode before.length (0 + index) test.value) =
      (table.scope []).resolve (closedLeaf mode (0 + index) test.value) := by
  cases mode with
  | parameterized =>
      have hvalue := Predicate.test_value_of_append before htest
      rw [<- Nat.zero_add index] at hvalue
      exact Statement.resolve_placeholder rfl hvalue
  | inline => exact resolve_inlineLeaf (table.sameNames_scope _ _) test.value

theorem chosenBy_conditionTree (table : Table) (mode : Rendering)
    (before : List Value) (filter? : Option Predicate) :
    chosenBy
        (table.scope ((before ++ boundOperands mode
          (filterOperands filter?)).map Cell.ofValue))
        (conditionTree (operandLeaf mode before.length) filter?) =
      table.choice mode filter? := by
  rcases filter? with _ | _ | ⟨entry, rest⟩
  · rfl
  · rfl
  · apply chosenBy_of_agree
    apply Predicate.alike_tree (congruence_agree _ _)
    intro index test htest
    have hcolumn := Store.resolve_column_scope table
      ((before ++ boundOperands mode
        (filterOperands (some (entry :: rest)))).map Cell.ofValue) [] test.column
    rw [resolve_testTree, resolve_testTree, resolve_operandLeaf htest, hcolumn]
    exact agree_refl _

def Found (scope : Scope) (tree : Expr) : Prop :=
  exists formula, scope.resolve tree = .ok formula

theorem congruence_found (scope : Scope) :
    Expr.Congruence fun first _ => Found scope first where
  null := ⟨_, rfl⟩
  not := by
    rintro inner _ ⟨formula, hformula⟩
    exact ⟨formula.not, by rw [Scope.resolve, hformula]; rfl⟩
  and := by
    rintro left right _ _ ⟨first, hfirst⟩ ⟨second, hsecond⟩
    exact ⟨first.and second, by rw [Scope.resolve, hfirst, hsecond]; rfl⟩
  or := by
    rintro left right _ _ ⟨first, hfirst⟩ ⟨second, hsecond⟩
    exact ⟨first.or second, by rw [Scope.resolve, hfirst, hsecond]; rfl⟩

theorem found_closedLeaf (scope : Scope) (mode : Rendering) (index : Nat)
    (value : Value) : Found scope (closedLeaf mode index value) := by
  cases mode with
  | parameterized => exact ⟨_, rfl⟩
  | inline =>
      cases value with
      | bool b =>
          have hword (word : String) (cell : Cell)
              (hword : Scope.truthWord? word = some cell) :
              Found scope (.column none word) := by
            rw [Found, Scope.resolve, hword]
            cases scope.formula? word with
            | some formula => exact ⟨formula, rfl⟩
            | none => exact ⟨_, rfl⟩
          cases b with
          | true => exact hword "true" (.int 1) (by decide)
          | false => exact hword "false" (.int 0) (by decide)
      | real x =>
          rcases exists_resolve_real x with ⟨cell, hcell⟩
          exact ⟨.constant cell, hcell scope⟩
      | _ => exact ⟨_, rfl⟩

section Choice

variable {table : Table} {filter? : Option Predicate}

theorem Table.holds_of_negates {predicate opposite : Predicate}
    (h : Predicate.Negates predicate opposite) (record : Record) :
    table.holds record (some opposite) = (table.holds record (some predicate)).not :=
  h.truth_eq _

theorem choice_of_knows (hknown : table.Knows filter?) (mode : Rendering) :
    exists passes, table.choice mode filter? = .ok passes := by
  rcases filter? with _ | _ | ⟨entry, rest⟩
  · exact ⟨_, rfl⟩
  · exact ⟨_, rfl⟩
  · have htests : Predicate.TestsAlike (fun first _ => Found (table.scope []) first)
        (closedLeaf mode) (closedLeaf mode) 0
        (Predicate.tests (entry :: rest)) := by
      intro index test htest
      have hisSome := hknown _ rfl test (List.mem_of_getElem? htest)
      rcases Option.isSome_iff_exists.mp hisSome with ⟨position, hposition⟩
      rcases Table.resolve_column_of_position? hposition with ⟨field, _, hcolumn⟩
      rcases found_closedLeaf (table.scope []) mode (0 + index) test.value with
        ⟨operand, hoperand⟩
      refine ⟨.compare test.comparison (.column position field.affinity) operand, ?_⟩
      rw [resolve_testTree, hcolumn, hoperand]
      rfl
    rcases Predicate.alike_tree (congruence_found (table.scope [])) htests with
      ⟨formula, hformula⟩
    refine ⟨Record.passes (some formula), ?_⟩
    rw [Table.choice, chosenBy, conditionTree, resolveCondition, hformula]
    rfl

/-- The operands being bound, a filter chooses the records of which it is true. -/
theorem choice_parameterized (hknown : table.Knows filter?)
    (hfound : Statement.filterViolations filter? = []) :
    exists passes, table.choice .parameterized filter? = .ok passes ∧
      forall record, passes record = true ↔
        table.holds record filter? = some true := by
  rcases filter? with _ | _ | ⟨entry, rest⟩
  · exact ⟨fun _ => true, rfl, fun _ => by simp [Table.holds]⟩
  · refine ⟨fun _ => true, rfl, fun _ => ?_⟩
    simp [Table.holds, Predicate.truth, Predicate.entryTruth]
  · rcases Table.means_tree hknown [] with ⟨formula, hformula, hmeans⟩
    refine ⟨Record.passes (some formula), ?_, fun record => ?_⟩
    · have htree : (table.scope []).resolve
          (Predicate.tree (closedLeaf .parameterized) (entry :: rest)) =
            .ok formula := hformula
      rw [Table.choice, chosenBy, conditionTree, resolveCondition, htree]
      rfl
    · have hsupplies : Predicate.Supplies (fun _ value => Expr.literal value) []
          0 (Predicate.operands (entry :: rest)) := fun _ _ _ => rfl
      rw [Record.passes, Formula.passes, hmeans, Table.truth_cell,
        Predicate.truth_tree _ hfound (List.cons_ne_nil _ _) hsupplies,
        decide_eq_true_iff]
      rfl

end Choice

/-!
# What commands do with the chosen records
-/

namespace Store

def without (store : Store) (table : Table) (passes : Record -> Bool) :
    Except Error Store := do
  store.checkTargets table table.fields
  store.keepReferences (store.put { table with
    records := table.records.filter fun record => !passes record })

def assigning (store : Store) (table : Table) (assignments : List (Nat × Formula))
    (passes : Record -> Bool) : Except Error Store := do
  store.checkTargets table
    (assignments.filterMap fun (position, _) => table.fields[position]?)
  let updated <-
    (table.records.filter passes).foldlM (Table.updateRecord assignments) table
  store.keepReferences (store.put updated)

/-- The table of a name, and which of its records pass a condition. -/
def chosen (store : Store) (name : String) (params : List Cell)
    (condition? : Option Expr) : Except Error (Table × (Record -> Bool)) := do
  let table <- store.get name
  return (table, <- chosenBy (table.scope params) condition?)

def choice (store : Store) (name : String) (mode : Rendering)
    (filter? : Option Predicate) : Except Error (Table × (Record -> Bool)) :=
  store.chosen name [] (conditionTree (closedLeaf mode) filter?)

theorem chosen_conditionTree (store : Store) (name : String) (mode : Rendering)
    (before : List Value) (filter? : Option Predicate) :
    store.chosen name
        ((before ++ boundOperands mode (filterOperands filter?)).map Cell.ofValue)
        (conditionTree (operandLeaf mode before.length) filter?) =
      store.choice name mode filter? := by
  rw [choice, chosen, chosen]
  simp only [chosenBy_conditionTree, Table.choice]

section Choice

variable {store : Store} {name : String} {table : Table} {params : List Cell}
  {condition? : Option Expr} {passes : Record -> Bool}

theorem chosen_eq_ok :
    store.chosen name params condition? = .ok (table, passes) ↔
      store.get name = .ok table ∧
        chosenBy (table.scope params) condition? = .ok passes := by
  simp only [chosen, bind_eq_ok]
  constructor
  · rintro ⟨found, hget, chosen, hchosen, hpair⟩
    cases hpair
    exact ⟨hget, hchosen⟩
  · rintro ⟨hget, hchosen⟩
    exact ⟨table, hget, passes, hchosen, rfl⟩

theorem chosenBy_of_error {error : Error}
    (h : store.chosen name params condition? = .error error)
    (hget : store.get name = .ok table) :
    chosenBy (table.scope params) condition? = .error error := by
  rw [chosen, hget, ok_bind] at h
  cases hchosen : chosenBy (table.scope params) condition? with
  | error found =>
      rw [hchosen] at h
      cases h
      rfl
  | ok passes =>
      rw [hchosen] at h
      cases h

theorem delete_of_chosen
    (h : store.chosen name params condition? = .ok (table, passes)) :
    store.delete name params condition? =
      (fun after => (after, (table.records.filter passes).length)) <$>
        store.without table passes := by
  rcases chosen_eq_ok.mp h with ⟨hget, hchoice⟩
  rw [delete_eq, hget, ok_bind, hchoice, ok_bind, without, map_bind]
  simp only [List.partition_eq_filter_filter, map_eq_pure_bind]
  rfl

theorem update_of_chosen
    (h : store.chosen name params condition? = .ok (table, passes))
    {assignments : List (String × Expr)} {resolved : List (Nat × Formula)}
    (hassignments : resolveAssignments (table.scope params) assignments =
      .ok resolved) :
    store.update name params assignments condition? =
      (fun after => (after, (table.records.filter passes).length)) <$>
        store.assigning table resolved passes := by
  rcases chosen_eq_ok.mp h with ⟨hget, hchoice⟩
  rw [update_eq, hget, ok_bind, hassignments, ok_bind, hchoice, ok_bind, assigning,
    map_bind]
  simp only [map_eq_pure_bind, bind_assoc]

theorem without_eq_ok {after : Store} (h : store.without table passes = .ok after) :
    after = store.put { table with
      records := table.records.filter fun record => !passes record } := by
  rcases bind_eq_ok.mp h with ⟨_, _, hkept⟩
  exact keepReferences_eq_ok hkept

inductive Retains (store : Store) (table : Table) (passes : Record -> Bool) :
    Error -> Prop where
  | target {error : Error} :
      store.checkTargets table table.fields = .error error ->
      Retains store table passes error
  | reference :
      store.dangling < (store.put { table with
        records := table.records.filter fun record => !passes record }).dangling ->
      Retains store table passes (.violation .foreignKey)

theorem retains_of_without {error : Error}
    (h : store.without table passes = .error error) :
    store.Retains table passes error := by
  unfold without at h
  cases htargets : store.checkTargets table table.fields with
  | error found =>
      rw [htargets] at h
      cases h
      exact .target htargets
  | ok done =>
      rw [htargets, ok_bind, keepReferences] at h
      split at h
      · rename_i hmore
        cases h
        exact .reference hmore
      · cases h

theorem assigning_eq_ok (hregular : table.Regular)
    {assignments : List (Nat × Formula)} {after : Store}
    (h : store.assigning table assignments passes = .ok after) :
    exists records news,
      after = store.put { table with records := records } ∧
      Table.Regular { table with records := records } ∧
      List.Forall₂ (table.Alters (assignments.map Prod.fst))
        (table.records.filter passes) news ∧
      records.Perm
        (news ++ table.records.filter fun record => !passes record) := by
  rcases bind_eq_ok.mp h with ⟨_, _, h⟩
  rcases bind_eq_ok.mp h with ⟨updated, hupdated, hkept⟩
  rcases hregular.foldlM_updateRecord (perm_filter_append passes _) hupdated with
    ⟨news, hnews, hafter, hsame, hperm⟩
  rw [keepReferences_eq_ok hkept]
  refine ⟨updated.records, news, by rw [<- hsame], hsame ▸ hafter, ?_, hperm⟩
  exact hregular.forall_alters
    (fun record hmem => (List.mem_filter.mp hmem).left) hnews

/-!
# What queries return
-/

theorem chosen_of_selection
    (h : store.chosen name params condition? = .ok (table, passes))
    {query : Query} (hname : query.table = name)
    (hcondition : query.condition? = condition?) {outputs : List Sql.Output}
    {selection : Selection}
    (hselection : store.selection params query outputs = .ok selection) :
    selection.chosen = table.records.filter passes := by
  rcases chosen_eq_ok.mp h with ⟨hget, hchoice⟩
  subst hname hcondition
  rw [Store.selection, hget, ok_bind] at hselection
  rcases bind_eq_ok.mp hselection with ⟨_, _, hselection⟩
  rcases bind_eq_ok.mp hselection with ⟨_, _, hselection⟩
  rw [hchoice, ok_bind] at hselection
  rcases bind_eq_ok.mp hselection with ⟨_, _, hselection⟩
  rcases bind_eq_ok.mp hselection with ⟨_, _, hselection⟩
  cases hselection
  rfl

theorem limit?_of_selection {query : Query} (hlimit : query.limit? = none)
    {outputs : List Sql.Output} {selection : Selection}
    (hselection : store.selection params query outputs = .ok selection) :
    selection.limit? = none := by
  rw [Store.selection, hlimit] at hselection
  rcases bind_eq_ok.mp hselection with ⟨_, _, hselection⟩
  rcases bind_eq_ok.mp hselection with ⟨_, hcells, hselection⟩
  cases hcells
  rcases bind_eq_ok.mp hselection with ⟨_, _, hselection⟩
  rcases bind_eq_ok.mp hselection with ⟨_, _, hselection⟩
  rcases bind_eq_ok.mp hselection with ⟨_, _, hselection⟩
  rcases bind_eq_ok.mp hselection with ⟨_, hlimits, hselection⟩
  cases hlimits
  cases hselection
  rfl

theorem selection_all_of_chosen
    (h : store.chosen name params condition? = .ok (table, passes)) :
    exists selection, store.selection params
        (Sql.sourceQuery (Statement.projectionOf none) name condition? [] none)
        [.all] = .ok selection ∧
      selection.limit? = none ∧
      outputRow selection.outputs = table.listed := by
  rcases chosen_eq_ok.mp h with ⟨hget, hchoice⟩
  have houtputs : [Sql.Output.all].mapM
      (resolveOutput table (table.scope params)) =
        .ok [table.fields.zipIdx.map fun (field, position) =>
          (field.name, .column position field.affinity)] := rfl
  refine ⟨⟨table, passes, (table.fields.zipIdx.map fun (field, position) =>
    (field.name, Formula.column position field.affinity)), [], none⟩, ?_, rfl, ?_⟩
  · rw [Store.selection, Sql.sourceQuery]
    simp only [hget, ok_bind, Option.map_none, Option.mapM_none, pure_bind,
      houtputs, hchoice, List.map_nil, List.mapM_nil, List.flatten_cons,
      List.flatten_nil, List.append_nil]
    rfl
  · funext record
    rw [outputRow, List.map_map, Table.listed]
    rfl

theorem Answers.all_of_chosen
    (h : store.chosen name params condition? = .ok (table, passes))
    {result : Except Error (List ResultRow)}
    (hanswers : store.Answers params
      (Sql.sourceQuery (Statement.projectionOf none) name condition? [] none)
      result) :
    exists rows, result = .ok rows ∧
      rows.Perm ((table.records.filter passes).map table.listed) := by
  rcases selection_all_of_chosen h with ⟨selection, hselection, hlimit, houtputs⟩
  rcases hanswers.cases rfl with ⟨error, herror, _⟩ | ⟨found, rows, hfound, hrows, heq⟩
  · rw [hselection] at herror
    cases herror
  · rw [hselection] at hfound
    cases hfound
    refine ⟨rows, heq, ?_⟩
    have hperm := hrows.perm hlimit
    rwa [houtputs, chosen_of_selection h rfl rfl hselection] at hperm

theorem Answers.length_of_chosen
    (h : store.chosen name params condition? = .ok (table, passes))
    {columns? : Option (List String)} {orders : List OrderBy}
    {rows : List ResultRow}
    (hanswers : store.Answers params (Sql.sourceQuery
      (Statement.projectionOf columns?) name condition? orders none) (.ok rows)) :
    rows.length = (table.records.filter passes).length := by
  rcases hanswers.cases (Statement.projectionOf_eq columns?) with
    ⟨_, _, herror⟩ | ⟨selection, found, hselection, hfound, heq⟩
  · cases herror
  · cases heq
    have hperm := hfound.perm (limit?_of_selection rfl hselection)
    rw [hperm.length_eq, List.length_map, chosen_of_selection h rfl rfl hselection]

theorem Totals.of_chosen
    (h : store.chosen name params condition? = .ok (table, passes))
    {computed : Statement.Aggregate} {result : Except Error Cell}
    (htotals : store.Totals name params computed condition? result) :
    exists visited, visited.Perm (table.records.filter passes) ∧
      result = (summand? (table.scope []) computed >>= totalOf visited) := by
  rcases htotals with ⟨visit, hvisit, rfl⟩
  rcases chosen_eq_ok.mp h with ⟨hget, hchoice⟩
  have hsummand : summand? (table.scope params) computed =
      summand? (table.scope []) computed := by
    cases computed with
    | count => rfl
    | sum column =>
        rw [summand?, summand?, resolve_column_scope table params []]
  refine ⟨_, hvisit table _, ?_⟩
  rw [aggregateCell, hget, ok_bind, hsummand]
  simp only [hchoice, ok_bind]

/-!
# Conditions with unknown names
-/

theorem delete_of_error {error : Error}
    (h : store.chosen name params condition? = .error error) :
    exists error, store.delete name params condition? = .error error := by
  rw [delete_eq]
  apply bind_eq_error
  intro table hget
  rw [chosenBy_of_error h hget]
  exact ⟨error, rfl⟩

theorem update_of_error {error : Error}
    (h : store.chosen name params condition? = .error error)
    (assignments : List (String × Expr)) :
    exists error,
      store.update name params assignments condition? = .error error := by
  rw [update_eq]
  apply bind_eq_error
  intro table hget
  apply bind_eq_error
  intro resolved _
  rw [chosenBy_of_error h hget]
  exact ⟨error, rfl⟩

theorem update_of_unresolved (hget : store.get name = .ok table)
    {assignments : List (String × Expr)} {error : Error}
    (hassignments : resolveAssignments (table.scope params) assignments =
      .error error) :
    store.update name params assignments condition? = .error error := by
  rw [update_eq, hget, ok_bind, hassignments]
  rfl

theorem selectBy_of_error (visit : Table -> List Record -> List Record)
    {error : Error} (h : store.chosen name params condition? = .error error)
    (projection : Sql.Projection) (orders : List OrderBy) (limit? : Option Nat) :
    exists error, store.selectBy visit params
      (Sql.sourceQuery projection name condition? orders limit?) =
        .error error := by
  rw [selectBy_eq]
  apply bind_eq_error
  intro table hget
  apply bind_eq_error
  intro limit _
  apply bind_eq_error
  intro plan _
  have hchosen : chosenBy (table.scope params)
      (Sql.sourceQuery projection name condition? orders limit?).condition? =
        .error error := chosenBy_of_error h hget
  rw [hchosen]
  exact ⟨error, rfl⟩

theorem Totals.of_error {error : Error}
    (h : store.chosen name params condition? = .error error)
    {computed : Statement.Aggregate} {result : Except Error Cell}
    (htotals : store.Totals name params computed condition? result) :
    exists error, result = .error error := by
  rcases htotals with ⟨visit, _, rfl⟩
  rw [aggregateCell]
  apply bind_eq_error
  intro table hget
  apply bind_eq_error
  intro summand? _
  rw [chosenBy_of_error h hget]
  exact ⟨error, rfl⟩

end Choice

end Store

end

namespace Store

theorem writes_delete (store : Store) (name : String) (condition? : Option Expr) :
    store.writes (.delete name condition?) = true := rfl

theorem writes_update (store : Store) (name : String)
    (assignments : List (String × Expr)) (condition? : Option Expr) :
    store.writes (.update name assignments condition?) = true := rfl

variable [Dialect] {store : Store} {name : String} {table : Table}
  {params : List Cell} {condition? : Option Expr} {passes : Record -> Bool}

theorem run_delete (store : Store) (name : String) (params : List Cell)
    (condition? : Option Expr) :
    store.run params (.delete name condition?) =
      (fun result => (result.1, ⟨[], some result.2⟩)) <$>
        store.delete name params condition? := by
  rw [run]
  cases store.delete name params condition? <;> rfl

theorem run_update (store : Store) (name : String) (params : List Cell)
    (assignments : List (String × Expr)) (condition? : Option Expr) :
    store.run params (.update name assignments condition?) =
      (fun result => (result.1, ⟨[], some result.2⟩)) <$>
        store.update name params assignments condition? := by
  rw [run]
  cases store.update name params assignments condition? <;> rfl

end Store

/-!
# Sums of whole numbers
-/

def Cell.whole? : Cell -> Option Int
  | .int n => some n.toInt
  | _ => none

/-- A number that a whole number of sixty-four bits can be. -/
def InRange (n : Int) : Prop :=
  -Decimal.int64Bound <= n ∧ n < Decimal.int64Bound

theorem int64?_of_inRange {n : Int} (h : InRange n) :
    Decimal.int64? n = some (Int64.ofInt n) := by
  rw [Decimal.int64?, if_pos (by simpa [InRange] using h)]

theorem toInt_ofInt_of_inRange {n : Int} (h : InRange n) :
    (Int64.ofInt n).toInt = n :=
  Decimal.toInt_of_int64? (int64?_of_inRange h)

def PartialSums (start : Int) (numbers : List Int) : Prop :=
  forall part, part <+: numbers -> InRange (start + part.sum)

theorem PartialSums.tail {start n : Int} {numbers : List Int}
    (h : PartialSums start (n :: numbers)) : PartialSums (start + n) numbers := by
  intro part hpart
  have hsum := h (n :: part) (List.cons_prefix_cons.mpr ⟨rfl, hpart⟩)
  rwa [List.sum_cons, <- Int.add_assoc] at hsum

def Cell.Summable (cell : Cell) : Prop :=
  cell = .null ∨ exists n, cell = .int n

theorem foldl_add_whole [Conversions] {cells : List Cell}
    (hcells : forall cell, cell ∈ cells -> cell.Summable) {start : Int}
    (hsums : PartialSums start (cells.filterMap Cell.whole?)) :
    cells.foldl Total.add (.whole start) =
      .whole (start + (cells.filterMap Cell.whole?).sum) := by
  induction cells generalizing start with
  | nil => simp
  | cons cell cells ih =>
      rw [List.forall_mem_cons] at hcells
      rcases hcells.left with rfl | ⟨n, rfl⟩
      · exact ih hcells.right hsums
      · have htail : PartialSums (start + n.toInt)
            (cells.filterMap Cell.whole?) := hsums.tail
        have hnext : InRange (start + n.toInt) := by
          simpa using htail [] List.nil_prefix
        have hstep : Total.add (.whole start) (.int n) =
            .whole (start + n.toInt) := by
          rw [Total.add, Total.addInt, int64?_of_inRange hnext]
        rw [List.foldl_cons, hstep, ih hcells.right htail]
        have hnumbers : (Cell.int n :: cells).filterMap Cell.whole? =
            n.toInt :: cells.filterMap Cell.whole? := rfl
        rw [hnumbers, List.sum_cons, Int.add_assoc]

/-- Whole numbers are added exactly as long as no partial sum leaves the range. -/
theorem sum_of_summable [Conversions] {cells : List Cell}
    (hcells : forall cell, cell ∈ cells -> cell.Summable)
    (hsums : PartialSums 0 (cells.filterMap Cell.whole?)) :
    (Engine.sum cells = .ok .null ∧ cells.filterMap Cell.whole? = []) ∨
      Engine.sum cells =
        .ok (.int (Int64.ofInt (cells.filterMap Cell.whole?).sum)) := by
  induction cells with
  | nil => exact .inl ⟨rfl, rfl⟩
  | cons cell cells ih =>
      rw [List.forall_mem_cons] at hcells
      rcases hcells.left with rfl | ⟨n, rfl⟩
      · exact ih hcells.right hsums
      · have hall := foldl_add_whole hcells.right hsums.tail
        rw [Int.zero_add] at hall
        refine .inr ?_
        rw [Engine.sum, List.foldl_cons]
        have hstart : Total.add .nothing (.int n) = .whole n.toInt := rfl
        rw [hstart, hall]
        rfl

end Engine
end TableStore
