import TableStore.Engine.Query
import TableStore.Proofs.Predicate.Tests
import TableStore.Proofs.Engine.Comparison

/-!
# Conditions that no row tells apart

Two conditions agree if looking up their names fails in the same way for both, or
gives formulas that have the same cell in every row.  Everything that a statement
does with a condition is the same for conditions that agree.
-/

namespace TableStore
namespace Engine

open Predicate (Test testTree)
open Sql (Expr)

/-!
# Names
-/

theorem affinity?_of_column? {scope : Scope} {name : String}
    {formula : Formula} (h : scope.column? name = some formula) :
    exists column, column ∈ scope.columns ∧
      Text.sameName column.name name = true ∧
      formula.affinity? = some column.affinity := by
  unfold Scope.column? Scope.position? at h
  cases hposition : scope.columns.findIdx? fun column =>
      Text.sameName column.name name with
  | none =>
      rw [hposition] at h
      cases h
  | some position =>
      rw [hposition] at h
      rcases List.findIdx?_eq_some_iff_getElem.mp hposition with
        ⟨hlt, hname, _⟩
      rw [Option.bind_eq_bind, Option.bind_some,
        List.getElem?_eq_getElem hlt] at h
      cases h
      exact ⟨_, List.getElem_mem hlt, hname, rfl⟩

structure Scope.SameNames (first second : Scope) : Prop where
  columns_eq : first.columns = second.columns
  numbered_eq : first.numbered = second.numbered

theorem Scope.SameNames.formula?_eq {first second : Scope}
    (h : first.SameNames second) (name : String) :
    first.formula? name = second.formula? name := by
  simp only [Scope.formula?, Scope.column?, Scope.position?, h.columns_eq,
    h.numbered_eq]

theorem formula?_of_column? {scope : Scope} {name : String} {formula : Formula}
    (h : scope.column? name = some formula) :
    scope.formula? name = some formula := by
  rw [Scope.formula?, h]

theorem column?_or_number_of_formula? {scope : Scope} {name : String}
    {formula : Formula} (h : scope.formula? name = some formula) :
    scope.column? name = some formula ∨ formula = .number := by
  rw [Scope.formula?] at h
  cases hcolumn : scope.column? name with
  | some found =>
      rw [hcolumn] at h
      exact .inl h
  | none =>
      rw [hcolumn] at h
      dsimp only at h
      split at h
      · exact .inr (Option.some.inj h).symm
      · cases h

theorem testAffinity?_constant (formula : Formula) (cell : Cell) :
    Formula.testAffinity? formula (.constant cell) = formula.affinity? := by
  cases formula <;> rfl

/-!
# Agreement
-/

variable [Conversions]

/-- Two results of looking up names that no row tells apart. -/
inductive Agree : Except Error Formula -> Except Error Formula -> Prop where
  | failed (error : Error) : Agree (.error error) (.error error)
  | found {first second : Formula} :
      (forall record, first.eval record = second.eval record) ->
      Agree (.ok first) (.ok second)

theorem agree_refl (result : Except Error Formula) : Agree result result := by
  cases result with
  | error error => exact Agree.failed error
  | ok formula => exact Agree.found fun _ => rfl

theorem Agree.not {first second : Except Error Formula}
    (h : Agree first second) :
    Agree (first.map Formula.not) (second.map Formula.not) := by
  cases h with
  | failed error => exact Agree.failed error
  | found hrow =>
      apply Agree.found
      intro record
      rw [Formula.eval, Formula.eval, hrow record]

theorem Agree.binary {apply : Formula -> Formula -> Formula}
    (happly : forall {left right first second : Formula}
      (record : Record), left.eval record = first.eval record ->
      right.eval record = second.eval record ->
      (apply left right).eval record = (apply first second).eval record)
    {left right first second : Except Error Formula}
    (hleft : Agree left first) (hright : Agree right second) :
    Agree (do return apply (<- left) (<- right))
      (do return apply (<- first) (<- second)) := by
  cases hleft with
  | failed error => exact Agree.failed error
  | found hfirst =>
      cases hright with
      | failed error => exact Agree.failed error
      | found hsecond =>
          exact Agree.found fun record =>
            happly record (hfirst record) (hsecond record)

theorem congruence_agree (first second : Scope) :
    Expr.Congruence fun left right =>
      Agree (first.resolve left) (second.resolve right) where
  null := agree_refl _
  not h := h.not
  and hleft hright := Agree.binary
    (fun _ hfirst hsecond => by
      rw [Formula.eval, Formula.eval, hfirst, hsecond])
    hleft hright
  or hleft hright := Agree.binary
    (fun _ hfirst hsecond => by
      rw [Formula.eval, Formula.eval, hfirst, hsecond])
    hleft hright

/-!
# Tests
-/

theorem resolve_column_congr {first second : Scope}
    (h : first.SameNames second) (name : String) :
    first.resolve (.column none name) = second.resolve (.column none name) := by
  simp only [Scope.resolve, h.formula?_eq]

theorem resolve_column_cases (scope : Scope) (name : String) :
    (exists formula, scope.formula? name = some formula ∧
      scope.resolve (.column none name) = .ok formula) ∨
    (exists cell, scope.resolve (.column none name) = .ok (.constant cell)) ∨
    (exists error, scope.resolve (.column none name) = .error error) := by
  rw [Scope.resolve]
  cases scope.formula? name with
  | some formula => exact .inl ⟨formula, rfl, rfl⟩
  | none =>
      cases Scope.truthWord? name with
      | some cell => exact .inr (.inl ⟨cell, rfl⟩)
      | none => exact .inr (.inr ⟨_, rfl⟩)

theorem resolve_testTree (scope : Scope) (name : String)
    (comparison : Comparison) (operand : Expr) :
    scope.resolve (testTree name comparison operand) =
      (do
        let left <- scope.resolve (.column none name)
        let right <- scope.resolve operand
        return .compare comparison left right) := rfl

/--
A test agrees with another one of the same name, if the cells of their operands
answer alike for every conversion that the name may make.
-/
theorem agree_test {first second : Scope} (hnames : first.SameNames second)
    (name : String) (comparison : Comparison) {operand other : Expr}
    {cell otherCell : Cell}
    (hoperand : first.resolve operand = .ok (.constant cell))
    (hother : second.resolve other = .ok (.constant otherCell))
    (htest : forall affinity?,
      (affinity? = some .text ->
        exists column, column ∈ first.columns ∧
          Text.sameName column.name name = true ∧ column.affinity = .text) ->
      forall value,
        test comparison affinity? value cell =
          test comparison affinity? value otherCell) :
    Agree (first.resolve (testTree name comparison operand))
      (second.resolve (testTree name comparison other)) := by
  have hlooked (formula : Formula)
      (hformula : first.resolve (.column none name) = .ok formula)
      (htext : formula.affinity? = some .text ->
        exists column, column ∈ first.columns ∧
          Text.sameName column.name name = true ∧ column.affinity = .text) :
      Agree (first.resolve (testTree name comparison operand))
        (second.resolve (testTree name comparison other)) := by
    have hsecond := hformula
    rw [resolve_column_congr hnames] at hsecond
    rw [resolve_testTree, resolve_testTree, hformula, hsecond, hoperand,
      hother]
    apply Agree.found
    intro record
    simp only [Formula.eval, testAffinity?_constant]
    rw [htest formula.affinity? htext (formula.eval record)]
  -- A name means the same in both scopes, or is unknown in both.
  rcases resolve_column_cases first name with
    ⟨formula, hmeaning, hformula⟩ | ⟨constant, hformula⟩ | ⟨error, herror⟩
  · apply hlooked formula hformula
    intro htext
    rcases column?_or_number_of_formula? hmeaning with hcolumn | rfl
    · rcases affinity?_of_column? hcolumn with ⟨column, hmem, hname, hsome⟩
      rw [hsome] at htext
      exact ⟨column, hmem, hname, Option.some.inj htext⟩
    · cases htext
  · apply hlooked _ hformula
    intro heq
    cases heq
  · have hsecond := herror
    rw [resolve_column_congr hnames] at hsecond
    rw [resolve_testTree, resolve_testTree, herror, hsecond]
    exact Agree.failed error

end Engine
end TableStore
