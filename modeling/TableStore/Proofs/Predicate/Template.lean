import Mathlib
import TableStore.Proofs.Fragment
import TableStore.Proofs.Predicate.Contents

/-!
# The clause as a template

The two renderings of a predicate differ only in their operands: the clause with
the operands written out is the clause with placeholders in which each question
mark is replaced by the spelling of its parameter.

The proof carries one relation between fragments, that one of them is filled
into the other, through concatenation and from there through everything that
the compiler builds.
-/

namespace TableStore
namespace Text

/--
Characters with their question marks replaced by texts, the first one by the
first text; question marks without a text stay.
-/
def fillChars : List Char -> List String -> List Char
  | [], _ => []
  | c :: rest, [] => c :: rest
  | c :: rest, text :: others =>
      if c = '?' then text.toList ++ fillChars rest others
      else c :: fillChars rest (text :: others)

/-- A text with its question marks replaced by texts, in order. -/
def fill (template : String) (texts : List String) : String :=
  String.ofList (fillChars template.toList texts)

theorem fillChars_nil (s : List Char) : fillChars s [] = s := by
  cases s with
  | nil => rfl
  | cons c rest => rfl

theorem fillChars_append_of_not_mem {plain : List Char} (hplain : '?' ∉ plain)
    (rest : List Char) (texts : List String) :
    fillChars (plain ++ rest) texts = plain ++ fillChars rest texts := by
  induction plain with
  | nil => rfl
  | cons c plain ih =>
      rw [List.mem_cons, not_or] at hplain
      have hc : c ≠ '?' := fun h => hplain.left h.symm
      cases texts with
      | nil =>
          rw [fillChars_nil, fillChars_nil]
      | cons text others =>
          rw [List.cons_append, fillChars, if_neg hc, ih hplain.right]
          rfl

end Text

namespace Fragment

/-!
# Filling fragments
-/

/--
A fragment is filled into a template if the template has a question mark for
each of its parameters, and replacing them by the spellings of the parameters
gives the text of the fragment, whatever comes behind.
-/
structure FilledInto (template filled : Fragment) : Prop where
  count_eq : template.text.toList.count '?' = template.params.length
  fill_eq : forall (rest : List Char) (texts : List String),
    Text.fillChars (template.text.toList ++ rest)
        (template.params.map Value.operandText ++ texts) =
      filled.text.toList ++ Text.fillChars rest texts

namespace FilledInto

theorem ofText {text : String} (h : '?' ∉ text.toList) :
    FilledInto (ofText text) (ofText text) := by
  constructor
  · exact List.count_eq_zero.mpr h
  · intro rest texts
    exact Text.fillChars_append_of_not_mem h rest texts

theorem append {a a' b b' : Fragment} (ha : FilledInto a a')
    (hb : FilledInto b b') : FilledInto (a ++ b) (a' ++ b') := by
  constructor
  · simp [ha.count_eq, hb.count_eq]
  · intro rest texts
    have hfirst := ha.fill_eq (b.text.toList ++ rest)
      (b.params.map Value.operandText ++ texts)
    have hsecond := hb.fill_eq rest texts
    simp only [text_append, params_append, String.toList_append, List.map_append,
      List.append_assoc]
    rw [hfirst, hsecond]

theorem wrap {a a' : Fragment} (h : FilledInto a a') {before after : String}
    (hbefore : '?' ∉ before.toList) (hafter : '?' ∉ after.toList) :
    FilledInto (a.wrap before after) (a'.wrap before after) := by
  rw [wrap_eq_append, wrap_eq_append]
  exact ((ofText hbefore).append h).append (ofText hafter)

theorem parenthesized {a a' : Fragment} (h : FilledInto a a') :
    FilledInto a.parenthesized a'.parenthesized :=
  h.wrap (by decide) (by decide)

theorem join {separator : String} (hseparator : '?' ∉ separator.toList)
    {parts filled : List Fragment} (h : List.Forall₂ FilledInto parts filled) :
    FilledInto (join separator parts) (join separator filled) := by
  induction h with
  | nil =>
      rw [join_nil]
      exact ofText (by decide)
  | cons hfirst hothers ih =>
      cases hothers with
      | nil =>
          rw [join_singleton, join_singleton]
          exact hfirst
      | cons hsecond hrest =>
          rw [join_cons_cons, join_cons_cons]
          exact (hfirst.append (ofText hseparator)).append ih

theorem text_eq_fill {a a' : Fragment} (h : FilledInto a a') :
    a'.text = Text.fill a.text (a.params.map Value.operandText) := by
  have hfill := h.fill_eq [] []
  rw [List.append_nil, List.append_nil, Text.fillChars_nil,
    List.append_nil] at hfill
  rw [Text.fill, hfill, String.ofList_toList]

end FilledInto
end Fragment

namespace Predicate

open Fragment (FilledInto)

/-!
# The parts of a clause are filled
-/

theorem not_mem_symbol (comparison : Comparison) :
    '?' ∉ comparison.symbol.toList := by
  cases comparison <;> decide

theorem filledInto_renderOperand (value : Value) :
    FilledInto (renderOperand .parameterized value)
      (renderOperand .inline value) := by
  constructor
  · simp [renderOperand]
  · intro rest texts
    simp [renderOperand, Text.fillChars]

theorem filledInto_testPart {column symbol : String} (value : Value)
    (hcolumn : '?' ∉ column.toList) (hsymbol : '?' ∉ symbol.toList) :
    FilledInto (testPart .parameterized column symbol value)
      (testPart .inline column symbol value) := by
  apply (filledInto_renderOperand value).wrap
  · simp [hcolumn, hsymbol]
  · decide

theorem filledInto_conjunction {parts filled : List Fragment}
    (h : List.Forall₂ FilledInto parts filled) :
    FilledInto (conjunction parts) (conjunction filled) :=
  (FilledInto.join (by decide) h).parenthesized

theorem filledInto_disjunction {parts filled : List Fragment}
    (h : List.Forall₂ FilledInto parts filled) :
    FilledInto (disjunction parts) (disjunction filled) :=
  (FilledInto.join (by decide) h).parenthesized

theorem filledInto_negation {part filled : Fragment}
    (h : FilledInto part filled) :
    FilledInto (negation part) (negation filled) :=
  h.wrap (by decide) (by decide)

mutual

theorem filledInto_entryParts :
    forall entries : List Entry,
      (forall column, column ∈ entryColumns entries -> '?' ∉ column.toList) ->
      List.Forall₂ FilledInto (entryParts .parameterized entries)
        (entryParts .inline entries)
  | [], _ => by
      rw [entryParts, entryParts]
      exact List.Forall₂.nil
  | .equal column value :: rest, h => by
      rw [entryColumns, List.forall_mem_cons] at h
      rw [entryParts, entryParts]
      apply List.Forall₂.cons
      · exact filledInto_testPart value h.left (by decide)
      · exact filledInto_entryParts rest h.right
  | .compare column set :: rest, h => by
      rw [entryColumns, List.forall_mem_cons, List.forall_mem_append] at h
      rcases h with ⟨hcolumn, hset, hrest⟩
      rw [entryParts, entryParts]
      apply List.Forall₂.cons
      · exact FilledInto.join (by decide)
          (filledInto_comparatorParts hcolumn set hset)
      · exact filledInto_entryParts rest hrest
  | .anyOf branches :: rest, h => by
      rw [entryColumns, List.forall_mem_append] at h
      rw [entryParts, entryParts]
      apply List.Forall₂.cons
      · exact filledInto_disjunction (filledInto_branchParts branches h.left)
      · exact filledInto_entryParts rest h.right
  termination_by entries => sizeOf entries

theorem filledInto_branchParts :
    forall branches : List (List Entry),
      (forall column, column ∈ branchColumns branches -> '?' ∉ column.toList) ->
      List.Forall₂ FilledInto (branchParts .parameterized branches)
        (branchParts .inline branches)
  | [], _ => by
      rw [branchParts, branchParts]
      exact List.Forall₂.nil
  | branch :: rest, h => by
      rw [branchColumns, List.forall_mem_append] at h
      rw [branchParts, branchParts]
      apply List.Forall₂.cons
      · exact filledInto_conjunction (filledInto_entryParts branch h.left)
      · exact filledInto_branchParts rest h.right
  termination_by branches => sizeOf branches

theorem filledInto_comparatorParts {column : String}
    (hcolumn : '?' ∉ column.toList) :
    forall set : List Comparator,
      (forall name, name ∈ comparatorColumns set -> '?' ∉ name.toList) ->
      List.Forall₂ FilledInto (comparatorParts .parameterized column set)
        (comparatorParts .inline column set)
  | [], _ => by
      rw [comparatorParts, comparatorParts]
      exact List.Forall₂.nil
  | .test comparison value :: rest, h => by
      rw [comparatorColumns] at h
      rw [comparatorParts, comparatorParts]
      apply List.Forall₂.cons
      · exact filledInto_testPart value hcolumn (not_mem_symbol comparison)
      · exact filledInto_comparatorParts hcolumn rest h
  | .not set :: rest, h => by
      rw [comparatorColumns, List.forall_mem_append] at h
      rw [comparatorParts, comparatorParts]
      apply List.Forall₂.cons
      · exact filledInto_negation (FilledInto.join (by decide)
          (filledInto_comparatorParts hcolumn set h.left))
      · exact filledInto_comparatorParts hcolumn rest h.right
  | .notAnyOf branches :: rest, h => by
      rw [comparatorColumns, List.forall_mem_append] at h
      rw [comparatorParts, comparatorParts]
      apply List.Forall₂.cons
      · exact filledInto_negation
          (filledInto_disjunction (filledInto_branchParts branches h.left))
      · exact filledInto_comparatorParts hcolumn rest h.right
  termination_by set => sizeOf set

end

theorem filledInto_rendered {predicate : Predicate}
    (h : forall column, column ∈ predicate.columns -> '?' ∉ column.toList) :
    FilledInto (rendered .parameterized predicate)
      (rendered .inline predicate) :=
  filledInto_conjunction (filledInto_entryParts predicate h)

/-!
# The two renderings
-/

/--
The two renderings refuse the same predicates for the same reasons.  When they
accept one, the clause with operands written out has no parameters, the
parameters of the other one are the operands in order, and unless a column is
spelled with a question mark, that one has a question mark for each parameter
and becomes the first one by replacing them in order.
-/
theorem compile_inline_eq_fill (predicate : Predicate) :
    (forall violation, compile .inline predicate = .error violation <->
        compile .parameterized predicate = .error violation) ∧
      forall clause, compile .parameterized predicate = .ok clause ->
        exists inlined, compile .inline predicate = .ok inlined ∧
          inlined.params = [] ∧
          clause.params = predicate.operands ∧
          ((forall column, column ∈ predicate.columns ->
              '?' ∉ column.toList) ->
            clause.text.toList.count '?' = clause.params.length ∧
              inlined.text =
                Text.fill clause.text
                  (clause.params.map Value.operandText)) := by
  constructor
  · intro violation
    rw [compile_eq_verdict, compile_eq_verdict, verdict_eq_error_iff,
      verdict_eq_error_iff]
  · intro clause hclause
    rw [compile_eq_verdict, verdict_eq_ok_iff] at hclause
    rcases hclause with ⟨hfound, hclause⟩
    subst hclause
    exists rendered .inline predicate
    refine ⟨?_, ?_, ?_, ?_⟩
    · rw [compile_eq_verdict, verdict_eq_ok_iff]
      exact ⟨hfound, rfl⟩
    · rw [params_rendered, operandParams_inline]
    · rw [params_rendered, operandParams_parameterized]
    · intro hcolumns
      have hfilled := filledInto_rendered hcolumns
      exact ⟨hfilled.count_eq, hfilled.text_eq_fill⟩

theorem compile_inline_eq_fill_quoted_mark :
    compile .parameterized
          [.equal "a" (.text "?"), .compare "b" [.not [.test .gt (.int 3)]]] =
        .ok ⟨"(a = ? AND NOT (b > ?))", [.text "?", .int 3]⟩ ∧
      compile .inline
          [.equal "a" (.text "?"), .compare "b" [.not [.test .gt (.int 3)]]] =
        .ok ⟨"(a = '?' AND NOT (b > 3))", []⟩ := by
  have hclause :
      compile .parameterized
          [.equal "a" (.text "?"), .compare "b" [.not [.test .gt (.int 3)]]] =
        .ok ⟨"(a = ? AND NOT (b > ?))", [.text "?", .int 3]⟩ := by
    cbv
  have hcolumns :
      forall column,
        column ∈ columns
            [.equal "a" (.text "?"),
              .compare "b" [.not [.test .gt (.int 3)]]] ->
          '?' ∉ column.toList := by
    simp [columns, entryColumns, comparatorColumns]
  rcases (compile_inline_eq_fill _).right _ hclause with
    ⟨inlined, hinlined, hparams, _, hfill⟩
  have htext : inlined.text = "(a = '?' AND NOT (b > 3))" := by
    rw [(hfill hcolumns).right]
    cbv
  constructor
  · exact hclause
  · rw [hinlined]
    exact congrArg Except.ok (Fragment.eq_of_text_params htext hparams)

end Predicate
end TableStore
