import TableStore.Predicate.Clause

/-!
# Violations of the shape of a predicate

A predicate is compiled exactly when nothing is wrong with it, and otherwise the
first thing that is wrong, in the order in which the predicate is written, is
what it is refused for.

The violations of a predicate are a list that is read off its tree.  The clause
of a well-formed predicate is a total function of the tree, which knows nothing
of violations.  Compilation is shown to be the one guarded by the other, so what
is proved later about clauses never has to look at refusals.
-/

namespace TableStore
namespace Predicate

/-!
# The list of violations
-/

def violationIf (condition : Bool) (violation : ShapeError) : List ShapeError :=
  if condition then [violation] else []

def operandViolations (column : String) (value : Value) : List ShapeError :=
  match value with
  | .null => [.notALiteral column value]
  | .blob _ => [.notALiteral column value]
  | .real x => violationIf (!x.isFinite) (.notALiteral column value)
  | .bool _ => []
  | .int _ => []
  | .text _ => []

mutual

def entryViolations (seen : Bool) : List Entry -> List ShapeError
  | [] => []
  | .equal column value :: rest =>
      operandViolations column value ++ entryViolations seen rest
  | .compare column set :: rest =>
      violationIf set.isEmpty (.emptySet column) ++
        (comparatorViolations column false set ++ entryViolations seen rest)
  | .anyOf branches :: rest =>
      violationIf seen .secondOr ++
        (violationIf branches.isEmpty .noBranches ++
          (violationIf (branches.any List.isEmpty) .emptyBranch ++
            (branchViolations branches ++ entryViolations true rest)))
  termination_by entries => sizeOf entries

def branchViolations : List (List Entry) -> List ShapeError
  | [] => []
  | branch :: rest => entryViolations false branch ++ branchViolations rest
  termination_by branches => sizeOf branches

def comparatorViolations (column : String) (seen : Bool) :
    List Comparator -> List ShapeError
  | [] => []
  | .test _ value :: rest =>
      operandViolations column value ++ comparatorViolations column seen rest
  | .not set :: rest =>
      violationIf seen (.secondNot column) ++
        (violationIf set.isEmpty (.emptySet column) ++
          (comparatorViolations column false set ++
            comparatorViolations column true rest))
  | .notAnyOf branches :: rest =>
      violationIf seen (.secondNot column) ++
        (violationIf branches.isEmpty .noBranches ++
          (violationIf (branches.any List.isEmpty) .emptyBranch ++
            (branchViolations branches ++
              comparatorViolations column true rest)))
  termination_by set => sizeOf set

end

/-- What is wrong with a predicate, in the order in which it is written. -/
def violations (predicate : Predicate) : List ShapeError :=
  entryViolations false predicate

/-!
# What is free of violations
-/

theorem violationIf_eq_nil_iff {condition : Bool} {violation : ShapeError} :
    violationIf condition violation = [] <-> condition = false := by
  cases condition with
  | false => simp [violationIf]
  | true => simp [violationIf]

theorem entryViolations_equal_eq_nil_iff {seen : Bool} {column : String}
    {value : Value} {rest : List Entry} :
    entryViolations seen (.equal column value :: rest) = [] <->
      operandViolations column value = [] ∧ entryViolations seen rest = [] := by
  rw [entryViolations, List.append_eq_nil_iff]

theorem entryViolations_compare_eq_nil_iff {seen : Bool} {column : String}
    {set : List Comparator} {rest : List Entry} :
    entryViolations seen (.compare column set :: rest) = [] <->
      set.isEmpty = false ∧ comparatorViolations column false set = [] ∧
        entryViolations seen rest = [] := by
  simp only [entryViolations, List.append_eq_nil_iff, violationIf_eq_nil_iff]

theorem entryViolations_anyOf_eq_nil_iff {seen : Bool}
    {branches : List (List Entry)} {rest : List Entry} :
    entryViolations seen (.anyOf branches :: rest) = [] <->
      seen = false ∧ branches.isEmpty = false ∧
        branches.any List.isEmpty = false ∧ branchViolations branches = [] ∧
          entryViolations true rest = [] := by
  simp only [entryViolations, List.append_eq_nil_iff, violationIf_eq_nil_iff]

theorem branchViolations_cons_eq_nil_iff {branch : List Entry}
    {rest : List (List Entry)} :
    branchViolations (branch :: rest) = [] <->
      entryViolations false branch = [] ∧ branchViolations rest = [] := by
  rw [branchViolations, List.append_eq_nil_iff]

theorem comparatorViolations_test_eq_nil_iff {column : String} {seen : Bool}
    {comparison : Comparison} {value : Value} {rest : List Comparator} :
    comparatorViolations column seen (.test comparison value :: rest) = [] <->
      operandViolations column value = [] ∧
        comparatorViolations column seen rest = [] := by
  rw [comparatorViolations, List.append_eq_nil_iff]

theorem comparatorViolations_not_eq_nil_iff {column : String} {seen : Bool}
    {set rest : List Comparator} :
    comparatorViolations column seen (.not set :: rest) = [] <->
      seen = false ∧ set.isEmpty = false ∧
        comparatorViolations column false set = [] ∧
          comparatorViolations column true rest = [] := by
  simp only [comparatorViolations, List.append_eq_nil_iff,
    violationIf_eq_nil_iff]

theorem comparatorViolations_notAnyOf_eq_nil_iff {column : String}
    {seen : Bool} {branches : List (List Entry)} {rest : List Comparator} :
    comparatorViolations column seen (.notAnyOf branches :: rest) = [] <->
      seen = false ∧ branches.isEmpty = false ∧
        branches.any List.isEmpty = false ∧ branchViolations branches = [] ∧
          comparatorViolations column true rest = [] := by
  simp only [comparatorViolations, List.append_eq_nil_iff,
    violationIf_eq_nil_iff]

/-!
# The clause of a well-formed predicate
-/

def testPart (mode : Rendering) (column symbol : String) (value : Value) :
    Fragment :=
  (renderOperand mode value).wrap (column ++ " " ++ symbol ++ " ") ""

mutual

def entryParts (mode : Rendering) : List Entry -> List Fragment
  | [] => []
  | .equal column value :: rest =>
      testPart mode column "=" value :: entryParts mode rest
  | .compare column set :: rest =>
      Fragment.join " AND " (comparatorParts mode column set) ::
        entryParts mode rest
  | .anyOf branches :: rest =>
      disjunction (branchParts mode branches) :: entryParts mode rest
  termination_by entries => sizeOf entries

def branchParts (mode : Rendering) : List (List Entry) -> List Fragment
  | [] => []
  | branch :: rest =>
      conjunction (entryParts mode branch) :: branchParts mode rest
  termination_by branches => sizeOf branches

def comparatorParts (mode : Rendering) (column : String) :
    List Comparator -> List Fragment
  | [] => []
  | .test comparison value :: rest =>
      testPart mode column comparison.symbol value ::
        comparatorParts mode column rest
  | .not set :: rest =>
      negation (Fragment.join " AND " (comparatorParts mode column set)) ::
        comparatorParts mode column rest
  | .notAnyOf branches :: rest =>
      negation (disjunction (branchParts mode branches)) ::
        comparatorParts mode column rest
  termination_by set => sizeOf set

end

/-- The clause of a predicate, whether or not it is well-formed. -/
def rendered (mode : Rendering) (predicate : Predicate) : Fragment :=
  conjunction (entryParts mode predicate)

/-!
# Results guarded by violations
-/

/-- A result, unless something is wrong: then the first violation. -/
def verdict {α : Type} (found : List ShapeError) (result : α) :
    Except ShapeError α :=
  match found with
  | [] => .ok result
  | first :: _ => .error first

section Verdict

variable {α β : Type}

theorem verdict_nil (result : α) : verdict [] result = .ok result := rfl

theorem verdict_cons (first : ShapeError) (rest : List ShapeError)
    (result : α) : verdict (first :: rest) result = .error first := rfl

theorem verdict_eq_ok_iff {found : List ShapeError} {result other : α} :
    verdict found result = .ok other <-> found = [] ∧ result = other := by
  cases found with
  | nil => simp [verdict_nil]
  | cons first rest => simp [verdict_cons]

theorem verdict_eq_error_iff {found : List ShapeError} {result : α}
    {violation : ShapeError} :
    verdict found result = .error violation <->
      found.head? = some violation := by
  cases found with
  | nil => simp [verdict_nil]
  | cons first rest => simp [verdict_cons]

theorem verdict_map (found : List ShapeError) (result : α) (f : α -> β) :
    (verdict found result).map f = verdict found (f result) := by
  cases found with
  | nil => rfl
  | cons first rest => rfl

theorem verdict_bind (found further : List ShapeError) (result : α)
    (last : β) (f : α -> Except ShapeError β)
    (hf : f result = verdict further last) :
    (verdict found result >>= f) = verdict (found ++ further) last := by
  cases found with
  | nil => exact hf
  | cons first rest => rfl

end Verdict

theorem verdict_guard {β : Type} (condition : Bool) (violation : ShapeError)
    (further : List ShapeError) (last : β) (f : PUnit -> Except ShapeError β)
    (hf : f ⟨⟩ = verdict further last) :
    (if condition then (do let point <- throw violation; f point) else f ⟨⟩) =
      verdict (violationIf condition violation ++ further) last := by
  cases condition with
  | false => exact hf
  | true => rfl

/-!
# Compilation is the clause guarded by the violations

Every step of the compiler is a guard or a step into a smaller part, and each of
them adds its own violations in front of those of what follows.
-/

theorem operandViolations_of_isLiteral (column : String) {value : Value}
    (h : value.isLiteral = true) : operandViolations column value = [] := by
  cases value with
  | null => cases h
  | blob bytes => cases h
  | real x =>
      have hx : x.isFinite = true := h
      simp [operandViolations, violationIf, hx]
  | bool b => rfl
  | int n => rfl
  | text s => rfl

theorem operandViolations_of_not_isLiteral (column : String) {value : Value}
    (h : value.isLiteral = false) :
    operandViolations column value = [.notALiteral column value] := by
  cases value with
  | null => rfl
  | blob bytes => rfl
  | real x =>
      have hx : x.isFinite = false := h
      simp [operandViolations, violationIf, hx]
  | bool b => cases h
  | int n => cases h
  | text s => cases h

theorem isLiteral_of_operandViolations {column : String} {value : Value}
    (hfree : operandViolations column value = []) :
    value.isLiteral = true := by
  cases hliteral : value.isLiteral with
  | true => rfl
  | false =>
      rw [operandViolations_of_not_isLiteral column hliteral] at hfree
      cases hfree

theorem renderTest_eq (mode : Rendering) (column symbol : String)
    (value : Value) :
    renderTest mode column symbol value =
      verdict (operandViolations column value)
        (testPart mode column symbol value) := by
  cases h : value.isLiteral with
  | true =>
      rw [operandViolations_of_isLiteral column h]
      simp [renderTest, h, verdict_nil, testPart]
  | false =>
      rw [operandViolations_of_not_isLiteral column h]
      simp [renderTest, h, verdict_cons]

theorem checkBranches_eq (branches : List (List Entry)) :
    checkBranches branches =
      verdict
        (violationIf branches.isEmpty .noBranches ++
          violationIf (branches.any List.isEmpty) .emptyBranch) () := by
  unfold checkBranches
  cases branches.isEmpty with
  | true => rfl
  | false =>
      cases branches.any List.isEmpty with
      | true => rfl
      | false => rfl

mutual

theorem entryClauses_eq (mode : Rendering) (seen : Bool) :
    forall entries : List Entry,
      entryClauses mode seen entries =
        verdict (entryViolations seen entries) (entryParts mode entries)
  | [] => by
      rw [entryClauses, entryViolations, entryParts, verdict_nil]
  | .equal column value :: rest => by
      rw [entryClauses, entryViolations, entryParts, renderTest_eq]
      apply verdict_bind
      rw [entryClauses_eq mode seen rest]
      exact verdict_map _ _ _
  | .compare column set :: rest => by
      rw [entryClauses, entryViolations, entryParts]
      apply verdict_guard
      rw [comparatorClauses_eq mode column false set]
      apply verdict_bind
      rw [entryClauses_eq mode seen rest]
      exact verdict_map _ _ _
  | .anyOf branches :: rest => by
      rw [entryClauses, entryViolations, entryParts]
      apply verdict_guard
      rw [checkBranches_eq, ← List.append_assoc]
      apply verdict_bind
      rw [branchClauses_eq mode branches]
      apply verdict_bind
      rw [entryClauses_eq mode true rest]
      exact verdict_map _ _ _
  termination_by entries => sizeOf entries

theorem branchClauses_eq (mode : Rendering) :
    forall branches : List (List Entry),
      branchClauses mode branches =
        verdict (branchViolations branches) (branchParts mode branches)
  | [] => by
      rw [branchClauses, branchViolations, branchParts, verdict_nil]
  | branch :: rest => by
      rw [branchClauses, branchViolations, branchParts,
        entryClauses_eq mode false branch]
      apply verdict_bind
      rw [branchClauses_eq mode rest]
      exact verdict_map _ _ _
  termination_by branches => sizeOf branches

theorem comparatorClauses_eq (mode : Rendering) (column : String)
    (seen : Bool) :
    forall set : List Comparator,
      comparatorClauses mode column seen set =
        verdict (comparatorViolations column seen set)
          (comparatorParts mode column set)
  | [] => by
      rw [comparatorClauses, comparatorViolations, comparatorParts, verdict_nil]
  | .test comparison value :: rest => by
      rw [comparatorClauses, comparatorViolations, comparatorParts,
        renderTest_eq]
      apply verdict_bind
      rw [comparatorClauses_eq mode column seen rest]
      exact verdict_map _ _ _
  | .not set :: rest => by
      rw [comparatorClauses, comparatorViolations, comparatorParts]
      apply verdict_guard
      apply verdict_guard
      rw [comparatorClauses_eq mode column false set]
      apply verdict_bind
      rw [comparatorClauses_eq mode column true rest]
      exact verdict_map _ _ _
  | .notAnyOf branches :: rest => by
      rw [comparatorClauses, comparatorViolations, comparatorParts]
      apply verdict_guard
      rw [checkBranches_eq, ← List.append_assoc]
      apply verdict_bind
      rw [branchClauses_eq mode branches]
      apply verdict_bind
      rw [comparatorClauses_eq mode column true rest]
      exact verdict_map _ _ _
  termination_by set => sizeOf set

end

theorem compile_eq_verdict (mode : Rendering) (predicate : Predicate) :
    compile mode predicate =
      verdict (violations predicate) (rendered mode predicate) := by
  unfold compile
  rw [entryClauses_eq mode false predicate]
  exact verdict_map _ _ _

/-!
# Branches without entries

The branches of a predicate are collected from every depth, those inside
branches and negations included.
-/

mutual

def entryBranches : List Entry -> List Predicate
  | [] => []
  | .equal _ _ :: rest => entryBranches rest
  | .compare _ set :: rest => comparatorBranches set ++ entryBranches rest
  | .anyOf branches :: rest =>
      branches ++ (nestedBranches branches ++ entryBranches rest)
  termination_by entries => sizeOf entries

def nestedBranches : List (List Entry) -> List Predicate
  | [] => []
  | branch :: rest => entryBranches branch ++ nestedBranches rest
  termination_by branches => sizeOf branches

def comparatorBranches : List Comparator -> List Predicate
  | [] => []
  | .test _ _ :: rest => comparatorBranches rest
  | .not set :: rest => comparatorBranches set ++ comparatorBranches rest
  | .notAnyOf branches :: rest =>
      branches ++ (nestedBranches branches ++ comparatorBranches rest)
  termination_by set => sizeOf set

end

theorem nil_not_mem_of_any_isEmpty {branches : List (List Entry)}
    (h : branches.any List.isEmpty = false) : [] ∉ branches := by
  intro hmem
  have hany : branches.any List.isEmpty = true :=
    List.any_eq_true.mpr ⟨[], hmem, rfl⟩
  rw [h] at hany
  cases hany

mutual

theorem nil_not_mem_entryBranches (seen : Bool) :
    forall entries : List Entry, entryViolations seen entries = [] ->
      [] ∉ entryBranches entries
  | [], _ => by
      simp [entryBranches]
  | .equal column value :: rest, h => by
      rw [entryViolations_equal_eq_nil_iff] at h
      rw [entryBranches]
      exact nil_not_mem_entryBranches seen rest h.right
  | .compare column set :: rest, h => by
      rw [entryViolations_compare_eq_nil_iff] at h
      rcases h with ⟨_, hset, hrest⟩
      rw [entryBranches, List.mem_append, not_or]
      exact ⟨nil_not_mem_comparatorBranches column false set hset,
        nil_not_mem_entryBranches seen rest hrest⟩
  | .anyOf branches :: rest, h => by
      rw [entryViolations_anyOf_eq_nil_iff] at h
      rcases h with ⟨_, _, hany, hbranches, hrest⟩
      rw [entryBranches, List.mem_append, List.mem_append, not_or, not_or]
      exact ⟨nil_not_mem_of_any_isEmpty hany,
        nil_not_mem_nestedBranches branches hbranches,
        nil_not_mem_entryBranches true rest hrest⟩
  termination_by entries => sizeOf entries

theorem nil_not_mem_nestedBranches :
    forall branches : List (List Entry), branchViolations branches = [] ->
      [] ∉ nestedBranches branches
  | [], _ => by
      simp [nestedBranches]
  | branch :: rest, h => by
      rw [branchViolations_cons_eq_nil_iff] at h
      rw [nestedBranches, List.mem_append, not_or]
      exact ⟨nil_not_mem_entryBranches false branch h.left,
        nil_not_mem_nestedBranches rest h.right⟩
  termination_by branches => sizeOf branches

theorem nil_not_mem_comparatorBranches (column : String) (seen : Bool) :
    forall set : List Comparator, comparatorViolations column seen set = [] ->
      [] ∉ comparatorBranches set
  | [], _ => by
      simp [comparatorBranches]
  | .test comparison value :: rest, h => by
      rw [comparatorViolations_test_eq_nil_iff] at h
      rw [comparatorBranches]
      exact nil_not_mem_comparatorBranches column seen rest h.right
  | .not set :: rest, h => by
      rw [comparatorViolations_not_eq_nil_iff] at h
      rcases h with ⟨_, _, hset, hrest⟩
      rw [comparatorBranches, List.mem_append, not_or]
      exact ⟨nil_not_mem_comparatorBranches column false set hset,
        nil_not_mem_comparatorBranches column true rest hrest⟩
  | .notAnyOf branches :: rest, h => by
      rw [comparatorViolations_notAnyOf_eq_nil_iff] at h
      rcases h with ⟨_, _, hany, hbranches, hrest⟩
      rw [comparatorBranches, List.mem_append, List.mem_append, not_or, not_or]
      exact ⟨nil_not_mem_of_any_isEmpty hany,
        nil_not_mem_nestedBranches branches hbranches,
        nil_not_mem_comparatorBranches column true rest hrest⟩
  termination_by set => sizeOf set

end

/-!
# What is accepted, and why the rest is refused
-/

/--
A predicate is compiled exactly when it has no violations, and it is refused
with the first of them, in either rendering.  The predicate without entries is
compiled; one that has a branch without entries, at any depth, is refused.
-/
theorem compile_refuses_first_violation (mode : Rendering)
    (predicate : Predicate) :
    ((exists clause, compile mode predicate = .ok clause) <->
        violations predicate = []) ∧
      (forall violation, compile mode predicate = .error violation <->
        (violations predicate).head? = some violation) ∧
      compile mode [] = .ok (.ofText "()") ∧
      ([] ∈ entryBranches predicate ->
        exists violation, compile mode predicate = .error violation) := by
  rw [compile_eq_verdict]
  refine ⟨?_, ?_, ?_, ?_⟩
  · simp [verdict_eq_ok_iff]
  · intro violation
    exact verdict_eq_error_iff
  · rw [compile, entryClauses]
    rfl
  · intro hmem
    cases hfound : violations predicate with
    | nil => exact absurd hmem (nil_not_mem_entryBranches false predicate hfound)
    | cons first rest => exact ⟨first, rfl⟩

theorem compile_refuses_nested_empty_branch :
    [] ∈ entryBranches
        [.compare "a" [.not [.notAnyOf [[.equal "b" .null], []]]]] ∧
      exists violation,
        compile .inline
            [.compare "a" [.not [.notAnyOf [[.equal "b" .null], []]]]] =
          .error violation := by
  have hmem :
      [] ∈ entryBranches
        [.compare "a" [.not [.notAnyOf [[.equal "b" .null], []]]]] := by
    simp [entryBranches, comparatorBranches, nestedBranches]
  exact ⟨hmem, (compile_refuses_first_violation .inline _).2.2.2 hmem⟩

end Predicate
end TableStore
