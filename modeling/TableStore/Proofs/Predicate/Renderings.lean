import TableStore.Proofs.Engine.Agreement
import TableStore.Proofs.Statement.Binding

/-!
# Operands in the text and operands as parameters

An operand that is written into the text of a clause need not be read as the value
that a parameter would be.  A truth value is read as a column if there is one of
that name.  A binary number without a point is read as a whole number, which may be
another number, and which has another text, and one with a point is read as the
engine reads decimals, which need not be exact.  An operand for which none of this
matters is kept, and a predicate all of whose operands are kept chooses the same
rows in both renderings.
-/

namespace TableStore
namespace Predicate

open Decimal (Binary64)
open Engine (Affinity Agree Cell Conversions Formula Named Scope)
open Sql (Expr)
open Statement (operandLeaf)

/-!
# Kept operands
-/

/-- A number that is read back as itself, once it has been written into a text. -/
structure ReadBack [Conversions] (columns : List Named) (name : String)
    (x : Binary64) : Prop where
  whole : forall n, respelled x = .literal (.int n) ->
    x.toInt? = some n.toInt ∧
      forall column, column ∈ columns ->
        Text.sameName column.name name = true -> column.affinity ≠ .text
  decimal : forall negative d, respelled x = .decimal negative d ->
    Engine.readDecimal negative d = x

/-- A test whose operand, written into the text, is compared as if it were bound. -/
def Test.Kept [Conversions] (columns : List Named) (test : Test) : Prop :=
  match test.value with
  | .bool b =>
      forall column, column ∈ columns ->
        Text.sameName column.name (if b then "true" else "false") = false
  | .real x => ReadBack columns test.column x
  | _ => True

def Kept [Conversions] (columns : List Named) (predicate : Predicate) : Prop :=
  forall test, test ∈ predicate.tests -> test.Kept columns

theorem respelled_cases (x : Binary64) :
    (exists n, respelled x = .literal (.int n)) ∨
      exists negative d, respelled x = .decimal negative d := by
  rw [respelled]
  split
  · rw [Expr.ofDigits]
    split
    · exact .inl ⟨_, rfl⟩
    · exact .inr ⟨_, _, rfl⟩
  · exact .inr ⟨_, _, rfl⟩

theorem ofValue_real {x : Binary64} (hfinite : x.isFinite = true) :
    Cell.ofValue (.real x) = .real x := by
  rw [Cell.ofValue, if_neg (Binary64.not_isNaN_of_isFinite hfinite)]

theorem column?_eq_none {scope : Scope} {name : String}
    (h : forall column, column ∈ scope.columns ->
      Text.sameName column.name name = false) :
    scope.column? name = none := by
  have hposition : scope.position? name = none := by
    rw [Scope.position?, List.findIdx?_eq_none_iff]
    exact h
  rw [Scope.column?, hposition]
  rfl

theorem formula?_truthWord {scope : Scope} {b : Bool}
    (h : forall column, column ∈ scope.columns ->
      Text.sameName column.name (if b then "true" else "false") = false) :
    scope.formula? (if b then "true" else "false") = none := by
  have hnumber : Scope.numberNames.contains
      (Text.foldCase (if b then "true" else "false")) = false := by
    cases b <;> decide
  rw [Scope.formula?, column?_eq_none h, hnumber, Bool.and_false]
  rfl

variable [Conversions]

theorem resolve_truthWord {scope : Scope} {b : Bool}
    (h : forall column, column ∈ scope.columns ->
      Text.sameName column.name (if b then "true" else "false") = false) :
    scope.resolve (inlineLeaf (.bool b)) =
      .ok (.constant (Cell.ofValue (.bool b))) := by
  have hunknown := formula?_truthWord h
  cases b with
  | true =>
      rw [if_pos rfl] at hunknown
      rw [inlineLeaf, Scope.resolve, hunknown]
      rfl
  | false =>
      rw [if_neg Bool.false_ne_true] at hunknown
      rw [inlineLeaf, Scope.resolve, hunknown]
      rfl

section Agreement

variable {first second : Scope}

theorem agree_of_same_operand (hnames : first.SameNames second)
    (test : Test) {operand other : Expr} {cell : Cell}
    (hoperand : first.resolve operand = .ok (.constant cell))
    (hother : second.resolve other = .ok (.constant cell)) :
    Agree (first.resolve (testTree test.column test.comparison operand))
      (second.resolve (testTree test.column test.comparison other)) :=
  Engine.agree_test hnames test.column test.comparison hoperand hother
    (fun _ _ _ => rfl)

theorem Test.Kept.agree {test : Test} (hkept : test.Kept first.columns)
    (hnames : first.SameNames second)
    (hliteral : test.value.isLiteral = true) {operand : Expr}
    (hoperand : first.resolve operand =
      .ok (.constant (Cell.ofValue test.value))) :
    Agree (first.resolve (testTree test.column test.comparison operand))
      (second.resolve
        (testTree test.column test.comparison (inlineLeaf test.value))) := by
  rcases test with ⟨name, comparison, value⟩
  cases value with
  | null => cases hliteral
  | blob bytes => cases hliteral
  | int n => exact agree_of_same_operand hnames _ hoperand rfl
  | text s => exact agree_of_same_operand hnames _ hoperand rfl
  | bool b =>
      apply agree_of_same_operand hnames _ hoperand
      apply resolve_truthWord
      rw [<- hnames.columns_eq]
      exact hkept
  | real x =>
      have hreadBack : ReadBack first.columns name x := hkept
      rcases respelled_cases x with ⟨n, hwhole⟩ | ⟨negative, d, hdecimal⟩
      · rcases hreadBack.whole n hwhole with ⟨hexact, htexts⟩
        have hother : second.resolve (inlineLeaf (.real x)) =
            .ok (.constant (.int n)) := by
          rw [inlineLeaf, hwhole]
          rfl
        rw [ofValue_real hliteral] at hoperand
        apply Engine.agree_test hnames name comparison hoperand hother
        intro affinity? hlooked value
        apply Engine.test_real_of_toInt? hexact
        intro htext
        rcases hlooked htext with ⟨column, hmem, hname, haffinity⟩
        exact htexts column hmem hname haffinity
      · have hother : second.resolve (inlineLeaf (.real x)) =
            .ok (.constant (Cell.ofValue (.real x))) := by
          rw [inlineLeaf, hdecimal, Scope.resolve,
            hreadBack.decimal negative d hdecimal]
        exact agree_of_same_operand hnames _ hoperand hother

/--
A predicate whose operands are kept has the same truth in every row, whether they
are parameters or written into the text.
-/
theorem agree_renderings (hnames : first.SameNames second)
    {before : List Value} {predicate : Predicate}
    (hparams : first.params =
      (before ++ predicate.operands).map Cell.ofValue)
    (hliterals : Literals predicate.operands)
    (hkept : Kept first.columns predicate) :
    Agree
      (first.resolve
        (predicate.tree (operandLeaf .parameterized before.length)))
      (second.resolve (predicate.tree fun _ => inlineLeaf)) := by
  apply alike_tree (Engine.congruence_agree first second)
  intro index test htest
  have hvalue := test_value_of_append before htest
  rw [<- Nat.zero_add index] at hvalue
  apply (hkept test (List.mem_of_getElem? htest)).agree hnames
  · exact hliterals _ (List.mem_of_getElem? (operand_of_test htest))
  · exact Statement.resolve_placeholder hparams hvalue

end Agreement

/-!
# Clauses
-/

/--
Two clauses that are expressions and, each with its own parameters, have the same
cell in every row of every table with some columns.
-/
def SameTruth (columns : List Named) (first second : Fragment) : Prop :=
  exists tree other,
    Sql.Sentence first.text tree ∧ Sql.Sentence second.text other ∧
      forall table numbered,
        Agree
          (Scope.resolve
            ⟨table, columns, numbered, first.params.map Cell.ofValue⟩ tree)
          (Scope.resolve
            ⟨table, columns, numbered, second.params.map Cell.ofValue⟩ other)

section Clauses

variable {predicate : Predicate}

omit [Conversions] in
theorem sentence_rendered (hfound : violations predicate = [])
    (hne : predicate ≠ [])
    (hnames : forall column, column ∈ predicate.columns ->
      Sql.isPlainName column = true)
    (hquotes : forall value, value ∈ predicate.operands -> Unquoted value)
    (mode : Rendering) :
    Sql.Sentence (rendered mode predicate).text
      (predicate.tree (operandLeaf mode 0)) := by
  have hleaves : LeavesRead 0 mode (operandLeaf mode 0)
      (Statement.filterOperands (some predicate)) :=
    Statement.leavesRead_operandLeaf 0 hfound (fun _ => hquotes)
  have hstart : 0 + placeholdersBefore mode 0 = 0 := by
    cases mode <;> rfl
  have hread := reads_rendered hfound hne hnames hleaves
  rw [hstart] at hread
  exact (hread.weaken (Nat.zero_le _)).sentence

theorem sameTruth_renderings (hfound : violations predicate = [])
    (hne : predicate ≠ [])
    (hnames : forall column, column ∈ predicate.columns ->
      Sql.isPlainName column = true)
    (hquotes : forall value, value ∈ predicate.operands -> Unquoted value)
    {columns : List Named} (hkept : Kept columns predicate) :
    SameTruth columns (rendered .parameterized predicate)
      (rendered .inline predicate) := by
  have hsentence := sentence_rendered hfound hne hnames hquotes
  refine ⟨_, _, hsentence .parameterized, hsentence .inline, ?_⟩
  intro table numbered
  have hparams : (rendered .parameterized predicate).params.map Cell.ofValue =
      ([] ++ predicate.operands).map Cell.ofValue := by
    rw [params_rendered, operandParams_parameterized, List.nil_append]
  have hnames (params others : List Cell) :
      Scope.SameNames ⟨table, columns, numbered, params⟩
        ⟨table, columns, numbered, others⟩ := ⟨rfl, rfl⟩
  exact agree_renderings (hnames _ _) hparams (literals_of_violations hfound) hkept

end Clauses

/-!
# Operands that are not kept
-/

omit [Conversions] in
theorem tree_equal (leaf : Nat -> Value -> Expr) (name : String)
    (value : Value) :
    tree leaf [.equal name value] = testTree name .eq (leaf 0 value) := by
  rw [tree, entryTrees, entryTrees]
  rfl

theorem resolve_test_constant {scope : Scope} {name : String}
    {column : Formula} (hcolumn : scope.column? name = some column)
    {operand : Expr} {cell : Cell}
    (hoperand : scope.resolve operand = .ok (.constant cell)) :
    scope.resolve (testTree name .eq operand) =
      .ok (.compare .eq column (.constant cell)) := by
  have hname : scope.resolve (.column none name) = .ok column := by
    rw [Scope.resolve, Engine.formula?_of_column? hcolumn]
  rw [Engine.resolve_testTree, hname, hoperand]
  rfl

omit [Conversions] in
theorem truth_of_cell_eq_cell {first second : Engine.Truth}
    (h : first.cell = second.cell) : first = second := by
  rcases first with _ | _ | _ <;> rcases second with _ | _ | _ <;>
    simp [Engine.Truth.cell] at h ⊢

section OtherNumbers

variable {x : Binary64} {n : Int64}

theorem resolve_bound_real (hfinite : x.isFinite = true) (table : String)
    (columns : List Named) (numbered : Bool) :
    Scope.resolve ⟨table, columns, numbered, [Value.real x].map Cell.ofValue⟩
      (operandLeaf .parameterized 0 0 (.real x)) =
        .ok (.constant (.real x)) := by
  rw [<- ofValue_real hfinite]
  rfl

theorem resolve_written_real (hread : respelled x = .literal (.int n))
    (scope : Scope) :
    scope.resolve (operandLeaf .inline 0 0 (.real x)) =
      .ok (.constant (.int n)) := by
  rw [operandLeaf, inlineLeaf, hread]
  rfl

theorem toInt?_of_eval_eq {position : Nat} {affinity : Affinity}
    (htexts : affinity ≠ .text)
    (heval : forall record,
      (Formula.compare .eq (.column position affinity)
        (.constant (.real x))).eval record =
      (Formula.compare .eq (.column position affinity)
        (.constant (.int n))).eval record) :
    x.toInt? = some n.toInt := by
  have hcell : (List.replicate position Cell.null ++ [.int n])[position]? =
      some (.int n) := by
    simp
  have hrow := heval ⟨0, List.replicate position .null ++ [.int n]⟩
  simp only [Formula.eval, hcell, Option.getD_some,
    Engine.testAffinity?_constant, Formula.affinity?,
    Engine.test_eq_int_self] at hrow
  exact (Engine.test_eq_int_real fun heq =>
    htexts (Option.some.inj heq)).mp (truth_of_cell_eq_cell hrow)

/--
A binary number that is read as another whole one is told apart: in a column that
is not one of texts, a row with this whole number passes in one rendering only.
-/
theorem not_sameTruth_of_other_number
    (hfinite : x.isFinite = true) (hread : respelled x = .literal (.int n))
    (hother : x.toInt? ≠ some n.toInt) {name : String}
    (hname : Sql.isPlainName name = true) {columns : List Named}
    {position : Nat} {affinity : Affinity}
    (hcolumn : Scope.column? ⟨"", columns, true, []⟩ name =
      some (.column position affinity))
    (htexts : affinity ≠ .text) :
    ¬ SameTruth columns (rendered .parameterized [.equal name (.real x)])
      (rendered .inline [.equal name (.real x)]) := by
  rintro ⟨tree, other, htree, hinline, hagree⟩
  have hfound : violations [.equal name (.real x)] = [] := by
    simp [violations, entryViolations, operandViolations, violationIf,
      hfinite]
  have hsentence := sentence_rendered hfound (List.cons_ne_nil _ _)
    (by simp [Predicate.columns, entryColumns, hname])
    (by simp [operands, entryOperands, Unquoted])
  cases htree.unique (hsentence .parameterized)
  cases hinline.unique (hsentence .inline)
  have hvalues : (rendered .parameterized [.equal name (.real x)]).params =
      [.real x] := by
    rw [params_rendered, operandParams_parameterized, operands,
      entryOperands, entryOperands]
  have hlooked (params : List Cell) :
      Scope.column? ⟨"", columns, true, params⟩ name =
        some (.column position affinity) := hcolumn
  have hrows := hagree "" true
  rw [hvalues, tree_equal, tree_equal,
    resolve_test_constant (hlooked _) (resolve_bound_real hfinite _ _ _),
    resolve_test_constant (hlooked _) (resolve_written_real hread _)] at hrows
  cases hrows with
  | found heval => exact hother (toInt?_of_eval_eq htexts heval)

end OtherNumbers

end Predicate
end TableStore
