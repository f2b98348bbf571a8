import TableStore.Proofs.Predicate.Contents

/-!
# The outline of a predicate

The outline of a predicate is the predicate with one fixed literal in place of
every operand.  Columns, comparisons and nesting are left; two predicates have
the same structure exactly if their outlines are equal.

What is wrong with a predicate, apart from its operands, and the text of its
clause with placeholders are functions of the outline.
-/

namespace TableStore
namespace Predicate

/-- The literal that stands for every operand. -/
def blankOperand : Value :=
  .bool true

mutual

/-- The outline of entries. -/
def entryOutline : List Entry -> List Entry
  | [] => []
  | .equal column _ :: rest => .equal column blankOperand :: entryOutline rest
  | .compare column set :: rest =>
      .compare column (comparatorOutline set) :: entryOutline rest
  | .anyOf branches :: rest =>
      .anyOf (branchOutline branches) :: entryOutline rest
  termination_by entries => sizeOf entries

/-- The outline of branches. -/
def branchOutline : List (List Entry) -> List (List Entry)
  | [] => []
  | branch :: rest => entryOutline branch :: branchOutline rest
  termination_by branches => sizeOf branches

/-- The outline of a set. -/
def comparatorOutline : List Comparator -> List Comparator
  | [] => []
  | .test comparison _ :: rest =>
      .test comparison blankOperand :: comparatorOutline rest
  | .not set :: rest => .not (comparatorOutline set) :: comparatorOutline rest
  | .notAnyOf branches :: rest =>
      .notAnyOf (branchOutline branches) :: comparatorOutline rest
  termination_by set => sizeOf set

end

/-- The outline of a predicate. -/
def outline (predicate : Predicate) : Predicate :=
  entryOutline predicate

/-- Whether all values of a list may be compared with. -/
def Literals (values : List Value) : Prop :=
  forall value, value ∈ values -> value.isLiteral = true

theorem literals_cons {value : Value} {rest : List Value} :
    Literals (value :: rest) <-> value.isLiteral = true ∧ Literals rest :=
  List.forall_mem_cons

theorem literals_append {first second : List Value} :
    Literals (first ++ second) <-> Literals first ∧ Literals second :=
  List.forall_mem_append

/-!
# Operands of well-formed predicates
-/

mutual

theorem literals_of_entryViolations :
    forall {seen : Bool} {entries : List Entry},
      entryViolations seen entries = [] -> Literals (entryOperands entries)
  | seen, [], _ => by
      rw [entryOperands]
      exact List.forall_mem_nil _
  | seen, .equal column value :: rest, hfree => by
      rw [entryViolations_equal_eq_nil_iff] at hfree
      rw [entryOperands, literals_cons]
      exact ⟨isLiteral_of_operandViolations hfree.left,
        literals_of_entryViolations hfree.right⟩
  | seen, .compare column set :: rest, hfree => by
      rw [entryViolations_compare_eq_nil_iff] at hfree
      rw [entryOperands, literals_append]
      exact ⟨literals_of_comparatorViolations hfree.right.left,
        literals_of_entryViolations hfree.right.right⟩
  | seen, .anyOf branches :: rest, hfree => by
      rw [entryViolations_anyOf_eq_nil_iff] at hfree
      rcases hfree with ⟨_, _, _, hbranches, hrest⟩
      rw [entryOperands, literals_append]
      exact ⟨literals_of_branchViolations hbranches,
        literals_of_entryViolations hrest⟩
  termination_by _ entries => sizeOf entries

theorem literals_of_branchViolations :
    forall {branches : List (List Entry)},
      branchViolations branches = [] -> Literals (branchOperands branches)
  | [], _ => by
      rw [branchOperands]
      exact List.forall_mem_nil _
  | branch :: rest, hfree => by
      rw [branchViolations_cons_eq_nil_iff] at hfree
      rw [branchOperands, literals_append]
      exact ⟨literals_of_entryViolations hfree.left,
        literals_of_branchViolations hfree.right⟩
  termination_by branches => sizeOf branches

theorem literals_of_comparatorViolations {column : String} :
    forall {seen : Bool} {set : List Comparator},
      comparatorViolations column seen set = [] ->
        Literals (comparatorOperands set)
  | seen, [], _ => by
      rw [comparatorOperands]
      exact List.forall_mem_nil _
  | seen, .test comparison value :: rest, hfree => by
      rw [comparatorViolations_test_eq_nil_iff] at hfree
      rw [comparatorOperands, literals_cons]
      exact ⟨isLiteral_of_operandViolations hfree.left,
        literals_of_comparatorViolations hfree.right⟩
  | seen, .not set :: rest, hfree => by
      rw [comparatorViolations_not_eq_nil_iff] at hfree
      rcases hfree with ⟨_, _, hset, hrest⟩
      rw [comparatorOperands, literals_append]
      exact ⟨literals_of_comparatorViolations hset,
        literals_of_comparatorViolations hrest⟩
  | seen, .notAnyOf branches :: rest, hfree => by
      rw [comparatorViolations_notAnyOf_eq_nil_iff] at hfree
      rcases hfree with ⟨_, _, _, hbranches, hrest⟩
      rw [comparatorOperands, literals_append]
      exact ⟨literals_of_branchViolations hbranches,
        literals_of_comparatorViolations hrest⟩
  termination_by _ set => sizeOf set

end

/-- A predicate without violations compares with literals only. -/
theorem literals_of_violations {predicate : Predicate}
    (hfree : violations predicate = []) : Literals predicate.operands :=
  literals_of_entryViolations hfree

/-!
# What is wrong with an outline
-/

theorem isEmpty_entryOutline (entries : List Entry) :
    (entryOutline entries).isEmpty = entries.isEmpty := by
  rcases entries with _ | ⟨_ | _ | _, rest⟩ <;> rw [entryOutline] <;> rfl

theorem isEmpty_branchOutline (branches : List (List Entry)) :
    (branchOutline branches).isEmpty = branches.isEmpty := by
  cases branches with
  | nil => rw [branchOutline]
  | cons entries branches =>
      rw [branchOutline]
      rfl

theorem isEmpty_comparatorOutline (set : List Comparator) :
    (comparatorOutline set).isEmpty = set.isEmpty := by
  rcases set with _ | ⟨_ | _ | _, rest⟩ <;> rw [comparatorOutline] <;> rfl

theorem any_isEmpty_branchOutline (branches : List (List Entry)) :
    (branchOutline branches).any List.isEmpty =
      branches.any List.isEmpty := by
  induction branches with
  | nil => rw [branchOutline]
  | cons branch rest ih =>
      rw [branchOutline, List.any_cons, List.any_cons, ih,
        isEmpty_entryOutline]

theorem operandViolations_blankOperand (column : String) :
    operandViolations column blankOperand = [] := rfl

mutual

theorem entryViolations_of_outline :
    forall {seen : Bool} {entries : List Entry},
      entryViolations seen (entryOutline entries) = [] ->
        Literals (entryOperands entries) -> entryViolations seen entries = []
  | seen, [], _, _ => by
      rw [entryViolations]
  | seen, .equal column value :: rest, hfree, hliterals => by
      rw [entryOutline, entryViolations, operandViolations_blankOperand,
        List.nil_append] at hfree
      rw [entryOperands, literals_cons] at hliterals
      rw [entryViolations,
        operandViolations_of_isLiteral column hliterals.left,
        entryViolations_of_outline hfree hliterals.right]
      rfl
  | seen, .compare column set :: rest, hfree, hliterals => by
      simp only [entryOutline, entryViolations, List.append_eq_nil_iff,
        isEmpty_comparatorOutline] at hfree
      rcases hfree with ⟨hempty, hset, hrest⟩
      rw [entryOperands, literals_append] at hliterals
      rw [entryViolations, hempty,
        comparatorViolations_of_outline hset hliterals.left,
        entryViolations_of_outline hrest hliterals.right]
      rfl
  | seen, .anyOf branches :: rest, hfree, hliterals => by
      simp only [entryOutline, entryViolations, List.append_eq_nil_iff,
        isEmpty_branchOutline, any_isEmpty_branchOutline] at hfree
      rcases hfree with ⟨hseen, hempty, hany, hbranches, hrest⟩
      rw [entryOperands, literals_append] at hliterals
      rw [entryViolations, hseen, hempty, hany,
        branchViolations_of_outline hbranches hliterals.left,
        entryViolations_of_outline hrest hliterals.right]
      rfl
  termination_by _ entries => sizeOf entries

theorem branchViolations_of_outline :
    forall {branches : List (List Entry)},
      branchViolations (branchOutline branches) = [] ->
        Literals (branchOperands branches) -> branchViolations branches = []
  | [], _, _ => by
      rw [branchViolations]
  | branch :: rest, hfree, hliterals => by
      rw [branchOutline, branchViolations, List.append_eq_nil_iff] at hfree
      rw [branchOperands, literals_append] at hliterals
      rw [branchViolations,
        entryViolations_of_outline hfree.left hliterals.left,
        branchViolations_of_outline hfree.right hliterals.right]
      rfl
  termination_by branches => sizeOf branches

theorem comparatorViolations_of_outline {column : String} :
    forall {seen : Bool} {set : List Comparator},
      comparatorViolations column seen (comparatorOutline set) = [] ->
        Literals (comparatorOperands set) ->
          comparatorViolations column seen set = []
  | seen, [], _, _ => by
      rw [comparatorViolations]
  | seen, .test comparison value :: rest, hfree, hliterals => by
      rw [comparatorOutline, comparatorViolations,
        operandViolations_blankOperand, List.nil_append] at hfree
      rw [comparatorOperands, literals_cons] at hliterals
      rw [comparatorViolations,
        operandViolations_of_isLiteral column hliterals.left,
        comparatorViolations_of_outline hfree hliterals.right]
      rfl
  | seen, .not set :: rest, hfree, hliterals => by
      simp only [comparatorOutline, comparatorViolations,
        List.append_eq_nil_iff, isEmpty_comparatorOutline] at hfree
      rcases hfree with ⟨hseen, hempty, hset, hrest⟩
      rw [comparatorOperands, literals_append] at hliterals
      rw [comparatorViolations, hseen, hempty,
        comparatorViolations_of_outline hset hliterals.left,
        comparatorViolations_of_outline hrest hliterals.right]
      rfl
  | seen, .notAnyOf branches :: rest, hfree, hliterals => by
      simp only [comparatorOutline, comparatorViolations,
        List.append_eq_nil_iff, isEmpty_branchOutline,
        any_isEmpty_branchOutline] at hfree
      rcases hfree with ⟨hseen, hempty, hany, hbranches, hrest⟩
      rw [comparatorOperands, literals_append] at hliterals
      rw [comparatorViolations, hseen, hempty, hany,
        branchViolations_of_outline hbranches hliterals.left,
        comparatorViolations_of_outline hrest hliterals.right]
      rfl
  termination_by _ set => sizeOf set

end

theorem violations_of_outline {predicate : Predicate}
    (hfree : violations predicate.outline = [])
    (hliterals : Literals predicate.operands) : violations predicate = [] :=
  entryViolations_of_outline hfree hliterals

/-!
# The clause of an outline

Texts of clauses depend on the texts of their parts only, so it is enough that
the parts of an outline have the same texts.
-/

/-- The texts of fragments. -/
def texts (parts : List Fragment) : List String :=
  parts.map (·.text)

theorem text_join_congr (separator : String) {first second : List Fragment}
    (htexts : texts first = texts second) :
    (Fragment.join separator first).text =
      (Fragment.join separator second).text :=
  congrArg (Text.join separator) htexts

theorem text_conjunction_congr {first second : List Fragment}
    (htexts : texts first = texts second) :
    (conjunction first).text = (conjunction second).text := by
  rw [conjunction, conjunction, Fragment.text_parenthesized,
    Fragment.text_parenthesized, text_join_congr " AND " htexts]

theorem text_disjunction_congr {first second : List Fragment}
    (htexts : texts first = texts second) :
    (disjunction first).text = (disjunction second).text := by
  rw [disjunction, disjunction, Fragment.text_parenthesized,
    Fragment.text_parenthesized, text_join_congr " OR " htexts]

theorem text_negation_congr {first second : Fragment}
    (htext : first.text = second.text) :
    (negation first).text = (negation second).text := by
  rw [negation, negation, Fragment.wrap, Fragment.wrap, htext]

theorem texts_cons_congr {first second : Fragment} {rest others : List Fragment}
    (htext : first.text = second.text) (htexts : texts rest = texts others) :
    texts (first :: rest) = texts (second :: others) := by
  change first.text :: texts rest = second.text :: texts others
  rw [htext, htexts]

mutual

theorem texts_entryOutline :
    forall entries : List Entry,
      texts (entryParts .parameterized (entryOutline entries)) =
        texts (entryParts .parameterized entries)
  | [] => by
      rw [entryOutline]
  | .equal column value :: rest => by
      rw [entryOutline, entryParts, entryParts]
      exact texts_cons_congr rfl (texts_entryOutline rest)
  | .compare column set :: rest => by
      rw [entryOutline, entryParts, entryParts]
      exact texts_cons_congr
        (text_join_congr " AND " (texts_comparatorOutline column set))
        (texts_entryOutline rest)
  | .anyOf branches :: rest => by
      rw [entryOutline, entryParts, entryParts]
      exact texts_cons_congr
        (text_disjunction_congr (texts_branchOutline branches))
        (texts_entryOutline rest)
  termination_by entries => sizeOf entries

theorem texts_branchOutline :
    forall branches : List (List Entry),
      texts (branchParts .parameterized (branchOutline branches)) =
        texts (branchParts .parameterized branches)
  | [] => by
      rw [branchOutline]
  | branch :: rest => by
      rw [branchOutline, branchParts, branchParts]
      exact texts_cons_congr (text_conjunction_congr (texts_entryOutline branch))
        (texts_branchOutline rest)
  termination_by branches => sizeOf branches

theorem texts_comparatorOutline (column : String) :
    forall set : List Comparator,
      texts (comparatorParts .parameterized column (comparatorOutline set)) =
        texts (comparatorParts .parameterized column set)
  | [] => by
      rw [comparatorOutline]
  | .test comparison value :: rest => by
      rw [comparatorOutline, comparatorParts, comparatorParts]
      exact texts_cons_congr rfl (texts_comparatorOutline column rest)
  | .not set :: rest => by
      rw [comparatorOutline, comparatorParts, comparatorParts]
      exact texts_cons_congr
        (text_negation_congr
          (text_join_congr " AND " (texts_comparatorOutline column set)))
        (texts_comparatorOutline column rest)
  | .notAnyOf branches :: rest => by
      rw [comparatorOutline, comparatorParts, comparatorParts]
      exact texts_cons_congr
        (text_negation_congr
          (text_disjunction_congr (texts_branchOutline branches)))
        (texts_comparatorOutline column rest)
  termination_by set => sizeOf set

end

theorem text_rendered_outline (predicate : Predicate) :
    (rendered .parameterized predicate.outline).text =
      (rendered .parameterized predicate).text :=
  text_conjunction_congr (texts_entryOutline predicate)

/-!
# The operands of an outline
-/

mutual

theorem length_operands_entryOutline :
    forall entries : List Entry,
      (entryOperands (entryOutline entries)).length =
        (entryOperands entries).length
  | [] => by
      rw [entryOutline]
  | .equal column value :: rest => by
      rw [entryOutline, entryOperands, entryOperands, List.length_cons,
        List.length_cons, length_operands_entryOutline rest]
  | .compare column set :: rest => by
      rw [entryOutline, entryOperands, entryOperands, List.length_append,
        List.length_append, length_operands_comparatorOutline set,
        length_operands_entryOutline rest]
  | .anyOf branches :: rest => by
      rw [entryOutline, entryOperands, entryOperands, List.length_append,
        List.length_append, length_operands_branchOutline branches,
        length_operands_entryOutline rest]
  termination_by entries => sizeOf entries

theorem length_operands_branchOutline :
    forall branches : List (List Entry),
      (branchOperands (branchOutline branches)).length =
        (branchOperands branches).length
  | [] => by
      rw [branchOutline]
  | branch :: rest => by
      rw [branchOutline, branchOperands, branchOperands, List.length_append,
        List.length_append, length_operands_entryOutline branch,
        length_operands_branchOutline rest]
  termination_by branches => sizeOf branches

theorem length_operands_comparatorOutline :
    forall set : List Comparator,
      (comparatorOperands (comparatorOutline set)).length =
        (comparatorOperands set).length
  | [] => by
      rw [comparatorOutline]
  | .test comparison value :: rest => by
      rw [comparatorOutline, comparatorOperands, comparatorOperands,
        List.length_cons, List.length_cons,
        length_operands_comparatorOutline rest]
  | .not set :: rest => by
      rw [comparatorOutline, comparatorOperands, comparatorOperands,
        List.length_append, List.length_append,
        length_operands_comparatorOutline set,
        length_operands_comparatorOutline rest]
  | .notAnyOf branches :: rest => by
      rw [comparatorOutline, comparatorOperands, comparatorOperands,
        List.length_append, List.length_append,
        length_operands_branchOutline branches,
        length_operands_comparatorOutline rest]
  termination_by set => sizeOf set

end

theorem length_operands_outline (predicate : Predicate) :
    predicate.outline.operands.length = predicate.operands.length :=
  length_operands_entryOutline predicate

end Predicate
end TableStore
