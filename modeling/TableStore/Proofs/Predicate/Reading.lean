import Mathlib
import TableStore.Proofs.Fragment
import TableStore.Proofs.Predicate.Meaning
import TableStore.Proofs.Sql.Grammar
import TableStore.Proofs.Sql.Scanning

/-!
# Clauses read back

The clause of a well-formed predicate is a sentence of the grammar of
expressions, and it is the expression of the predicate: with placeholders for
the operands, its truth is the truth of the predicate.

A fragment reads as an expression when its characters scan to a phrase for it,
whatever comes behind.  Tests read as expressions, and wrapping, negating and
joining keep it so; clauses are built from nothing else.
-/

namespace TableStore
namespace Fragment

open Sql (Expr Token Phrase Scans)

/-!
# Fragments that read as expressions
-/

/-- What follows an expression: nothing, a blank, or a closing parenthesis. -/
def EndsExpression (rest : List Char) : Prop :=
  forall c, rest.head? = some c -> c = ' ' ∨ c = ')'

theorem endsExpression_nil : EndsExpression [] := by
  intro c hc
  cases hc

theorem endsExpression_blank (rest : List Char) :
    EndsExpression (' ' :: rest) := by
  intro c hc
  cases hc
  exact Or.inl rfl

theorem endsExpression_closing (rest : List Char) :
    EndsExpression (')' :: rest) := by
  intro c hc
  cases hc
  exact Or.inr rfl

/--
A fragment is a phrase of a strength for an expression, if its placeholders are
numbered from `start`.
-/
def Reads (strength start : Nat) (fragment : Fragment) (tree : Expr) : Prop :=
  exists tokens, Phrase strength tokens tree ∧
    forall (rest : List Char) (others : List Token), EndsExpression rest ->
      Scans (start + fragment.params.length) rest others ->
      Scans start (fragment.text.toList ++ rest) (tokens ++ others)

theorem Reads.weaken {weak strong start : Nat} {fragment : Fragment}
    {tree : Expr} (h : Reads strong start fragment tree)
    (hle : weak <= strong) : Reads weak start fragment tree := by
  rcases h with ⟨tokens, hphrase, hscans⟩
  exact ⟨tokens, hphrase.weaken hle, hscans⟩

theorem Reads.sentence {fragment : Fragment} {tree : Expr}
    (h : Reads 0 0 fragment tree) : Sql.Sentence fragment.text tree := by
  rcases h with ⟨tokens, hphrase, hscans⟩
  have hall := hscans [] [] endsExpression_nil (Scans.done _)
  rw [List.append_nil, List.append_nil] at hall
  rw [Sql.Sentence, Sql.map_token_scan hall]
  exact hphrase

theorem reads_placeholder (start : Nat) (value : Value) :
    Reads Sql.operandStrength start ⟨"?", [value]⟩ (.placeholder start) := by
  exists [.placeholder start]
  constructor
  · exact Phrase.placeholder start
  · intro rest others _ hothers
    simpa using Scans.placeholder hothers

theorem Reads.parenthesized {start : Nat} {fragment : Fragment} {tree : Expr}
    (h : Reads 0 start fragment tree) :
    Reads Sql.operandStrength start fragment.parenthesized tree := by
  rcases h with ⟨tokens, hphrase, hscans⟩
  exists .sign "(" :: tokens ++ [.sign ")"]
  constructor
  · exact Phrase.group hphrase
  · intro rest others _ hothers
    have hclosing := Scans.loneSign (c := ')') (by decide) hothers
    have hinner := hscans _ _ (endsExpression_closing rest) hclosing
    have hopening := Scans.loneSign (c := '(') (by decide) hinner
    simpa using hopening

theorem reads_iterate_parenthesized {fragment : Fragment} {tree : Expr}
    (h : Reads Sql.operandStrength 0 fragment tree) (n : Nat) :
    Reads Sql.operandStrength 0 (parenthesized^[n] fragment) tree := by
  induction n with
  | zero => exact h
  | succ n ih =>
      rw [Function.iterate_succ_apply']
      exact (ih.weaken (Nat.zero_le _)).parenthesized

theorem Reads.not {start : Nat} {fragment : Fragment} {tree : Expr}
    (h : Reads 0 start fragment tree) :
    Reads Expr.notStrength start (fragment.wrap "NOT (" ")") (.not tree) := by
  rcases h.parenthesized with ⟨tokens, hphrase, hscans⟩
  exists .word "NOT" :: tokens
  constructor
  · exact Phrase.not (by decide) (hphrase.weaken (by decide))
  · intro rest others hrest hothers
    have hgroup := hscans rest others hrest hothers
    have hspelled : Sql.spellsWord "NOT".toList = true := by decide
    have hword := Scans.word hspelled
      (Sql.endsWord_cons (c := ' ') (by decide) _) (Scans.blank hgroup)
    simpa [wrap] using hword

/-!
# Joining
-/

/-- Fragments that are phrases of a strength, one for each expression. -/
inductive ReadsEach (strength : Nat) :
    Nat -> List Fragment -> List Expr -> Prop where
  | nil (start : Nat) : ReadsEach strength start [] []
  | cons {start : Nat} {fragment : Fragment} {others : List Fragment}
      {tree : Expr} {trees : List Expr} :
      Reads strength start fragment tree ->
      ReadsEach strength (start + fragment.params.length) others trees ->
      ReadsEach strength start (fragment :: others) (tree :: trees)

theorem ReadsEach.append {strength start : Nat}
    {first second : List Fragment} {trees others : List Expr}
    (hfirst : ReadsEach strength start first trees)
    (hsecond : ReadsEach strength
      (start + (first.flatMap (·.params)).length) second others) :
    ReadsEach strength start (first ++ second) (trees ++ others) := by
  induction hfirst with
  | nil start => simpa using hsecond
  | cons hhead _ ih =>
      apply ReadsEach.cons hhead
      apply ih
      rw [List.flatMap_cons, List.length_append, ← Nat.add_assoc] at hsecond
      exact hsecond

section Join

variable {operator : Expr.Operator} {word separator : String}

theorem Reads.append (htoken : Sql.OperatorToken (.word word) operator)
    (hword : Sql.spellsWord word.toList = true)
    (hseparator : separator.toList = ' ' :: (word.toList ++ [' ']))
    {start : Nat} {first second : Fragment} {left right : Expr}
    (hfirst : Reads operator.strength start first left)
    (hsecond : Reads (operator.strength + 1)
      (start + first.params.length) second right) :
    Reads operator.strength start (first ++ ofText separator ++ second)
      (operator.apply left right) := by
  rcases hfirst with ⟨leftTokens, hleft, hscanLeft⟩
  rcases hsecond with ⟨rightTokens, hright, hscanRight⟩
  exists leftTokens ++ .word word :: rightTokens
  constructor
  · exact Phrase.binary hleft htoken hright
  · intro rest others hrest hothers
    have hlength : start + (first ++ ofText separator ++ second).params.length =
        start + first.params.length + second.params.length := by
      simp [Nat.add_assoc]
    rw [hlength] at hothers
    have hbehind := Scans.blank (hscanRight rest others hrest hothers)
    have hoperator := Scans.word hword
      (Sql.endsWord_cons (c := ' ') (by decide) _) hbehind
    have hall := hscanLeft _ _ (endsExpression_blank _) (Scans.blank hoperator)
    simpa [hseparator] using hall

theorem reads_join (htoken : Sql.OperatorToken (.word word) operator)
    (hword : Sql.spellsWord word.toList = true)
    (hseparator : separator.toList = ' ' :: (word.toList ++ [' ']))
    {start : Nat} {others : List Fragment} {trees : List Expr} :
    forall {first : Fragment} {left : Expr},
      Reads operator.strength start first left ->
      ReadsEach (operator.strength + 1) (start + first.params.length) others
        trees ->
      Reads operator.strength start (join separator (first :: others))
        (trees.foldl operator.apply left) := by
  induction others generalizing trees with
  | nil =>
      intro first left hfirst hothers
      cases hothers
      rw [join_singleton]
      exact hfirst
  | cons second others ih =>
      intro first left hfirst hothers
      cases hothers with
      | cons hsecond hrest =>
          rw [join_merge, List.foldl_cons]
          apply ih
          · exact hfirst.append htoken hword hseparator hsecond
          · simpa [Nat.add_assoc] using hrest

theorem reads_join_chain (htoken : Sql.OperatorToken (.word word) operator)
    (hword : Sql.spellsWord word.toList = true)
    (hseparator : separator.toList = ' ' :: (word.toList ++ [' ']))
    {start : Nat} {parts : List Fragment} {trees : List Expr}
    (hparts : ReadsEach (operator.strength + 1) start parts trees)
    (hne : trees ≠ []) :
    Reads operator.strength start (join separator parts)
      (Expr.chain operator.apply trees) := by
  cases hparts with
  | nil => exact absurd rfl hne
  | cons hfirst hothers =>
      exact reads_join htoken hword hseparator
        (hfirst.weaken (Nat.le_succ _)) hothers

end Join

theorem ReadsEach.weaken {weak strong start : Nat} {parts : List Fragment}
    {trees : List Expr} (h : ReadsEach strong start parts trees)
    (hle : weak <= strong) : ReadsEach weak start parts trees := by
  induction h with
  | nil start => exact ReadsEach.nil start
  | cons hfirst _ ih => exact ReadsEach.cons (hfirst.weaken hle) ih

theorem operatorToken_and : Sql.OperatorToken (.word "AND") .and :=
  Sql.OperatorToken.and (by decide)

theorem operatorToken_or : Sql.OperatorToken (.word "OR") .or :=
  Sql.OperatorToken.or (by decide)

theorem reads_join_and {start : Nat} {parts : List Fragment}
    {trees : List Expr} (h : ReadsEach Expr.notStrength start parts trees)
    (hne : trees ≠ []) :
    Reads 0 start (join " AND " parts) (Expr.chain Expr.and trees) :=
  (reads_join_chain operatorToken_and (by decide) (by decide) h hne).weaken
    (Nat.zero_le _)

theorem reads_join_or {start : Nat} {parts : List Fragment}
    {trees : List Expr} (h : ReadsEach Expr.notStrength start parts trees)
    (hne : trees ≠ []) :
    Reads 0 start (join " OR " parts) (Expr.chain Expr.or trees) :=
  reads_join_chain operatorToken_or (by decide) (by decide)
    (h.weaken (by decide)) hne

end Fragment

namespace Predicate

open Fragment (Reads ReadsEach)
open Sql (Expr Phrase Scans)

/-!
# The parts of a clause
-/

/-- How many placeholders stand before the operand with a number. -/
def placeholdersBefore : Rendering -> Nat -> Nat
  | .parameterized, index => index
  | .inline, _ => 0

theorem placeholdersBefore_add (mode : Rendering) (start : Nat)
    (values : List Value) :
    placeholdersBefore mode (start + values.length) =
      placeholdersBefore mode start + (operandParams mode values).length := by
  cases mode with
  | parameterized => simp [placeholdersBefore]
  | inline => simp [placeholdersBefore]

/--
The operands among some values read as the expressions of a leaf, if there are
`before` placeholders in front of the first operand.
-/
def LeavesRead (before : Nat) (mode : Rendering) (leaf : Nat -> Value -> Expr)
    (values : List Value) : Prop :=
  forall value, value ∈ values -> forall index,
    Reads Sql.operandStrength (before + placeholdersBefore mode index)
      (renderOperand mode value) (leaf index value)

theorem leavesRead_placeholder_from (before : Nat) (values : List Value) :
    LeavesRead before .parameterized
      (fun index _ => .placeholder (before + index)) values := by
  intro value _ index
  exact Fragment.reads_placeholder (before + index) value

theorem leavesRead_placeholder (values : List Value) :
    LeavesRead 0 .parameterized (fun index _ => .placeholder index) values := by
  intro value _ index
  rw [Nat.zero_add]
  exact Fragment.reads_placeholder index value

theorem leavesRead_cons_iff {before : Nat} {mode : Rendering}
    {leaf : Nat -> Value -> Expr} {value : Value} {rest : List Value} :
    LeavesRead before mode leaf (value :: rest) <->
      (forall index,
        Reads Sql.operandStrength (before + placeholdersBefore mode index)
          (renderOperand mode value) (leaf index value)) ∧
        LeavesRead before mode leaf rest :=
  List.forall_mem_cons

theorem leavesRead_append_iff {before : Nat} {mode : Rendering}
    {leaf : Nat -> Value -> Expr} {first second : List Value} :
    LeavesRead before mode leaf (first ++ second) <->
      LeavesRead before mode leaf first ∧ LeavesRead before mode leaf second :=
  List.forall_mem_append

theorem reads_testPart {mode : Rendering} {column : String}
    (hcolumn : Sql.isPlainName column = true) (comparison : Comparison)
    {start : Nat} {value : Value} {operand : Expr}
    (hoperand : Reads Sql.operandStrength start (renderOperand mode value)
      operand) :
    Reads Expr.notStrength start
      (testPart mode column comparison.symbol value)
      (testTree column comparison operand) := by
  rcases hoperand with ⟨tokens, hphrase, hscans⟩
  rw [Sql.isPlainName, Bool.and_eq_true, Bool.not_eq_true'] at hcolumn
  exists .word column :: .sign comparison.symbol :: tokens
  constructor
  · have hname := Phrase.column (Sql.NameToken.word hcolumn.right)
    have hsign : Sql.OperatorToken (.sign comparison.symbol)
        (.compare comparison) := by
      apply Sql.OperatorToken.compare
      cases comparison <;> decide
    have htest := Phrase.binary
      (hname.weaken (by cases comparison <;> decide)) hsign
      (hphrase.weaken (by cases comparison <;> decide))
    exact htest.weaken (by cases comparison <;> decide)
  · intro rest others hrest hothers
    have hvalue := hscans rest others hrest hothers
    have hsign := Scans.comparison comparison hvalue
    have hword := Scans.word hcolumn.left
      (Sql.endsWord_cons (c := ' ') (by decide) _) (Scans.blank hsign)
    simpa [testPart, Fragment.wrap] using hword

/-- The conditions of entries, each set as its comparisons. -/
def entryConjuncts (mode : Rendering) : List Entry -> List Fragment
  | [] => []
  | .equal column value :: rest =>
      testPart mode column "=" value :: entryConjuncts mode rest
  | .compare column set :: rest =>
      comparatorParts mode column set ++ entryConjuncts mode rest
  | .anyOf branches :: rest =>
      disjunction (branchParts mode branches) :: entryConjuncts mode rest

theorem comparatorParts_ne_nil (mode : Rendering) (column : String)
    {set : List Comparator} (h : set ≠ []) :
    comparatorParts mode column set ≠ [] := by
  cases set with
  | nil => exact absurd rfl h
  | cons comparator rest => cases comparator <;> simp [comparatorParts]

theorem entryParts_eq_nil_iff (mode : Rendering) {seen : Bool}
    {entries : List Entry} (hfound : entryViolations seen entries = []) :
    entryParts mode entries = [] <-> entryConjuncts mode entries = [] := by
  cases entries with
  | nil => simp [entryParts, entryConjuncts]
  | cons entry rest =>
      cases entry with
      | equal column value => simp [entryParts, entryConjuncts]
      | compare column set =>
          rw [entryViolations_compare_eq_nil_iff] at hfound
          have hparts := comparatorParts_ne_nil mode column
            (ne_nil_of_isEmpty hfound.left)
          simp [entryParts, entryConjuncts, hparts]
      | anyOf branches => simp [entryParts, entryConjuncts]

theorem join_entryParts (mode : Rendering) {entries : List Entry} :
    forall {seen : Bool}, entryViolations seen entries = [] ->
      Fragment.join " AND " (entryParts mode entries) =
        Fragment.join " AND " (entryConjuncts mode entries) := by
  induction entries with
  | nil =>
      intro seen _
      rw [entryParts, entryConjuncts]
  | cons entry rest ih =>
      intro seen hfound
      cases entry with
      | equal column value =>
          rw [entryViolations_equal_eq_nil_iff] at hfound
          rw [entryParts, entryConjuncts]
          exact Fragment.join_append_congr [_] (ih hfound.right)
            (entryParts_eq_nil_iff mode hfound.right)
      | compare column set =>
          rw [entryViolations_compare_eq_nil_iff] at hfound
          rcases hfound with ⟨hsome, _, hrest⟩
          rw [entryParts, entryConjuncts]
          -- The conditions of one column come first in the list.
          cases hparts : comparatorParts mode column set with
          | nil =>
              exact absurd hparts (comparatorParts_ne_nil mode column
                (ne_nil_of_isEmpty hsome))
          | cons first others =>
              rw [Fragment.join_join_cons]
              exact Fragment.join_append_congr (first :: others) (ih hrest)
                (entryParts_eq_nil_iff mode hrest)
      | anyOf branches =>
          rw [entryViolations_anyOf_eq_nil_iff] at hfound
          rcases hfound with ⟨_, _, _, _, hrest⟩
          rw [entryParts, entryConjuncts]
          exact Fragment.join_append_congr [_] (ih hrest)
            (entryParts_eq_nil_iff mode hrest)

theorem readsEach_cons {mode : Rendering} {strength before start : Nat}
    {part : Fragment} {others : List Fragment} {tree : Expr}
    {trees : List Expr} (values : List Value)
    (hparams : part.params = operandParams mode values)
    (hpart : Reads strength (before + placeholdersBefore mode start) part tree)
    (hothers : ReadsEach strength
      (before + placeholdersBefore mode (start + values.length)) others
      trees) :
    ReadsEach strength (before + placeholdersBefore mode start)
      (part :: others) (tree :: trees) := by
  apply ReadsEach.cons hpart
  rw [hparams, Nat.add_assoc, ← placeholdersBefore_add]
  exact hothers

theorem reads_conjunction {mode : Rendering} {seen : Bool} {start : Nat}
    {entries : List Entry} {trees : List Expr}
    (hfound : entryViolations seen entries = [])
    (h : ReadsEach Expr.notStrength start (entryConjuncts mode entries) trees)
    (hne : trees ≠ []) :
    Reads Sql.operandStrength start (conjunction (entryParts mode entries))
      (Expr.chain Expr.and trees) := by
  have hjoin := Fragment.reads_join_and h hne
  rw [← join_entryParts mode hfound] at hjoin
  exact hjoin.parenthesized

theorem reads_disjunction {start : Nat} {parts : List Fragment}
    {trees : List Expr} (h : ReadsEach Expr.notStrength start parts trees)
    (hne : trees ≠ []) :
    Reads Sql.operandStrength start (disjunction parts)
      (Expr.chain Expr.or trees) :=
  (Fragment.reads_join_or h hne).parenthesized

mutual

theorem reads_entryConjuncts {before : Nat} {mode : Rendering}
    {leaf : Nat -> Value -> Expr} (start : Nat) (seen : Bool) :
    forall entries : List Entry, entryViolations seen entries = [] ->
      (forall column, column ∈ entryColumns entries ->
        Sql.isPlainName column = true) ->
      LeavesRead before mode leaf (entryOperands entries) ->
      ReadsEach Expr.notStrength (before + placeholdersBefore mode start)
        (entryConjuncts mode entries) (entryTrees leaf start entries)
  | [], _, _, _ => by
      rw [entryConjuncts, entryTrees]
      exact ReadsEach.nil _
  | .equal column value :: rest, hfound, hnames, hleaves => by
      rw [entryViolations_equal_eq_nil_iff] at hfound
      rw [entryColumns, List.forall_mem_cons] at hnames
      rw [entryOperands, leavesRead_cons_iff] at hleaves
      rw [entryConjuncts, entryTrees]
      apply readsEach_cons [value]
      · simp [operandParams]
      · exact reads_testPart hnames.left .eq (hleaves.left start)
      · exact reads_entryConjuncts (start + 1) seen rest hfound.right
          hnames.right hleaves.right
  | .compare column set :: rest, hfound, hnames, hleaves => by
      rw [entryViolations_compare_eq_nil_iff] at hfound
      rw [entryColumns, List.forall_mem_cons, List.forall_mem_append] at hnames
      rw [entryOperands, leavesRead_append_iff] at hleaves
      rw [entryConjuncts, entryTrees]
      apply ReadsEach.append
      · exact reads_comparatorParts start hnames.left false set
          hfound.right.left hnames.right.left hleaves.left
      · rw [params_comparatorParts, Nat.add_assoc, ← placeholdersBefore_add]
        exact reads_entryConjuncts _ seen rest hfound.right.right
          hnames.right.right hleaves.right
  | .anyOf branches :: rest, hfound, hnames, hleaves => by
      rw [entryViolations_anyOf_eq_nil_iff] at hfound
      rcases hfound with ⟨_, hsome, hnonempty, hbranches, hfound⟩
      rw [entryColumns, List.forall_mem_append] at hnames
      rw [entryOperands, leavesRead_append_iff] at hleaves
      rw [entryConjuncts, entryTrees]
      apply readsEach_cons (branchOperands branches)
      · rw [params_disjunction, params_branchParts]
      · have hparts := reads_branchParts start branches hbranches hnonempty
          hnames.left hleaves.left
        have hread := reads_disjunction hparts
          (branchTrees_ne_nil leaf start (ne_nil_of_isEmpty hsome))
        exact hread.weaken (by decide)
      · exact reads_entryConjuncts _ true rest hfound hnames.right
          hleaves.right
  termination_by entries => sizeOf entries

theorem reads_branchParts {before : Nat} {mode : Rendering}
    {leaf : Nat -> Value -> Expr} (start : Nat) :
    forall branches : List (List Entry), branchViolations branches = [] ->
      branches.any List.isEmpty = false ->
      (forall column, column ∈ branchColumns branches ->
        Sql.isPlainName column = true) ->
      LeavesRead before mode leaf (branchOperands branches) ->
      ReadsEach Expr.notStrength (before + placeholdersBefore mode start)
        (branchParts mode branches) (branchTrees leaf start branches)
  | [], _, _, _, _ => by
      rw [branchParts, branchTrees]
      exact ReadsEach.nil _
  | branch :: rest, hfound, hnonempty, hnames, hleaves => by
      rw [branchViolations_cons_eq_nil_iff] at hfound
      simp only [List.any_cons, Bool.or_eq_false_iff] at hnonempty
      rw [branchColumns, List.forall_mem_append] at hnames
      rw [branchOperands, leavesRead_append_iff] at hleaves
      rw [branchParts, branchTrees]
      apply readsEach_cons (entryOperands branch)
      · rw [params_conjunction, params_entryParts]
      · have hparts := reads_entryConjuncts start false branch hfound.left
          hnames.left hleaves.left
        have hread := reads_conjunction hfound.left hparts
          (entryTrees_ne_nil leaf start hfound.left
            (ne_nil_of_isEmpty hnonempty.left))
        exact hread.weaken (by decide)
      · exact reads_branchParts _ rest hfound.right hnonempty.right
          hnames.right hleaves.right
  termination_by branches => sizeOf branches

theorem reads_comparatorParts {before : Nat} {mode : Rendering}
    {leaf : Nat -> Value -> Expr} (start : Nat) {column : String}
    (hcolumn : Sql.isPlainName column = true) (seen : Bool) :
    forall set : List Comparator,
      comparatorViolations column seen set = [] ->
      (forall name, name ∈ comparatorColumns set ->
        Sql.isPlainName name = true) ->
      LeavesRead before mode leaf (comparatorOperands set) ->
      ReadsEach Expr.notStrength (before + placeholdersBefore mode start)
        (comparatorParts mode column set)
        (comparatorTrees leaf start column set)
  | [], _, _, _ => by
      rw [comparatorParts, comparatorTrees]
      exact ReadsEach.nil _
  | .test comparison value :: rest, hfound, hnames, hleaves => by
      rw [comparatorViolations_test_eq_nil_iff] at hfound
      rw [comparatorColumns] at hnames
      rw [comparatorOperands, leavesRead_cons_iff] at hleaves
      rw [comparatorParts, comparatorTrees]
      apply readsEach_cons [value]
      · simp [operandParams]
      · exact reads_testPart hcolumn comparison (hleaves.left start)
      · exact reads_comparatorParts (start + 1) hcolumn seen rest hfound.right
          hnames hleaves.right
  | .not set :: rest, hfound, hnames, hleaves => by
      rw [comparatorViolations_not_eq_nil_iff] at hfound
      rcases hfound with ⟨_, hsome, hset, hfound⟩
      rw [comparatorColumns, List.forall_mem_append] at hnames
      rw [comparatorOperands, leavesRead_append_iff] at hleaves
      rw [comparatorParts, comparatorTrees]
      apply readsEach_cons (comparatorOperands set)
      · rw [params_negation, Fragment.params_join, params_comparatorParts]
      · have hparts := reads_comparatorParts start hcolumn false set hset
          hnames.left hleaves.left
        exact (Fragment.reads_join_and hparts (comparatorTrees_ne_nil leaf
          start column (ne_nil_of_isEmpty hsome))).not
      · exact reads_comparatorParts _ hcolumn true rest hfound hnames.right
          hleaves.right
  | .notAnyOf branches :: rest, hfound, hnames, hleaves => by
      rw [comparatorViolations_notAnyOf_eq_nil_iff] at hfound
      rcases hfound with ⟨_, hsome, hnonempty, hbranches, hfound⟩
      rw [comparatorColumns, List.forall_mem_append] at hnames
      rw [comparatorOperands, leavesRead_append_iff] at hleaves
      rw [comparatorParts, comparatorTrees]
      apply readsEach_cons (branchOperands branches)
      · rw [params_negation, params_disjunction, params_branchParts]
      · have hparts := reads_branchParts start branches hbranches hnonempty
          hnames.left hleaves.left
        have hread := reads_disjunction hparts
          (branchTrees_ne_nil leaf start (ne_nil_of_isEmpty hsome))
        exact (hread.weaken (Nat.zero_le _)).not
      · exact reads_comparatorParts _ hcolumn true rest hfound hnames.right
          hleaves.right
  termination_by set => sizeOf set

end

/-!
# The clause is the expression of its predicate
-/

theorem reads_rendered {before : Nat} {mode : Rendering}
    {leaf : Nat -> Value -> Expr} {predicate : Predicate}
    (hfound : violations predicate = [])
    (hne : predicate ≠ [])
    (hnames : forall column, column ∈ predicate.columns ->
      Sql.isPlainName column = true)
    (hleaves : LeavesRead before mode leaf predicate.operands) :
    Reads Sql.operandStrength (before + placeholdersBefore mode 0)
      (rendered mode predicate) (predicate.tree leaf) :=
  reads_conjunction hfound
    (reads_entryConjuncts 0 false predicate hfound hnames hleaves)
    (entryTrees_ne_nil leaf 0 hfound hne)

/--
A clause in any number of further parentheses is exactly one expression, and
with the parameters for its placeholders that expression is true, false or
neither as the predicate is, whatever the tests of columns answer.
-/
theorem compile_sentence_truth (predicate : Predicate) (clause : Fragment)
    (hclause : compile .parameterized predicate = .ok clause)
    (hne : predicate ≠ [])
    (hnames : forall column, column ∈ predicate.columns ->
      Sql.isPlainName column = true)
    (n : Nat) :
    exists tree,
      (forall other,
        Sql.Sentence (Fragment.parenthesized^[n] clause).text other <->
          other = tree) ∧
      forall test : Interpretation,
        tree.truth test clause.params = predicate.truth test := by
  rw [compile_eq_verdict, verdict_eq_ok_iff] at hclause
  rcases hclause with ⟨hfound, hclause⟩
  subst hclause
  have hread := reads_rendered hfound hne hnames
    (leavesRead_placeholder predicate.operands)
  have hwrapped := Fragment.reads_iterate_parenthesized hread n
  have hsentence := (hwrapped.weaken (Nat.zero_le _)).sentence
  exists predicate.tree fun index _ => .placeholder index
  constructor
  · intro other
    constructor
    · intro hother
      exact hother.unique hsentence
    · intro hother
      rw [hother]
      exact hsentence
  · intro test
    rw [params_rendered, operandParams_parameterized]
    exact truth_tree test hfound hne (supplies_placeholder _)

theorem compile_sentence_truth_negated_in_branches :
    compile .parameterized
          [.compare "a" [.test .ge (.int 17), .not [.test .eq (.int 20)]],
            .anyOf [[.equal "b" (.text "?")], [.equal "a" (.int 4)]]] =
        .ok ⟨"(a >= ? AND NOT (a = ?) AND ((b = ?) OR (a = ?)))",
          [.int 17, .int 20, .text "?", .int 4]⟩ ∧
      exists tree,
        (forall other,
          Sql.Sentence
              "(((a >= ? AND NOT (a = ?) AND ((b = ?) OR (a = ?)))))"
              other <->
            other = tree) ∧
        forall test : Interpretation,
          tree.truth test [.int 17, .int 20, .text "?", .int 4] =
            truth test
              [.compare "a" [.test .ge (.int 17), .not [.test .eq (.int 20)]],
                .anyOf [[.equal "b" (.text "?")], [.equal "a" (.int 4)]]] := by
  have hclause :
      compile .parameterized
          [.compare "a" [.test .ge (.int 17), .not [.test .eq (.int 20)]],
            .anyOf [[.equal "b" (.text "?")], [.equal "a" (.int 4)]]] =
        .ok ⟨"(a >= ? AND NOT (a = ?) AND ((b = ?) OR (a = ?)))",
          [.int 17, .int 20, .text "?", .int 4]⟩ := by
    cbv
  have hnames :
      forall column,
        column ∈ columns
            [.compare "a" [.test .ge (.int 17), .not [.test .eq (.int 20)]],
              .anyOf [[.equal "b" (.text "?")], [.equal "a" (.int 4)]]] ->
          Sql.isPlainName column = true := by
    simp [columns, entryColumns, comparatorColumns, branchColumns]
    decide
  constructor
  · exact hclause
  · exact compile_sentence_truth _ _ hclause (by simp) hnames 2

end Predicate
end TableStore
