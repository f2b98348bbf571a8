import TableStore.Proofs.Decimal.Whole
import TableStore.Proofs.Engine.Filters
import TableStore.Proofs.Statement.Creation

/-!
# Values that columns keep

A column stores a value of its kind as it is, although it converts what it stores:
numbers of the binary format become whole numbers on the way and binary ones again.  The
default of a column was a literal in between: it is the value that the column was
declared with, but for a number with a point, which is as the engine reads its digits.
-/

namespace TableStore

open Decimal (Binary64)

def Value.Suits (type : ColumnType) : Value -> Prop
  | .null => True
  | .bool _ => type = .boolean
  | .int _ => type = .integer
  | .real x => type = .real ∧ x.isNaN = false ∧ x ≠ Binary64.zero.neg
  | .text _ => type = .text
  | .blob _ => True

instance (type : ColumnType) : (value : Value) -> Decidable (value.Suits type)
  | .null => .isTrue trivial
  | .bool _ => inferInstanceAs (Decidable (type = .boolean))
  | .int _ => inferInstanceAs (Decidable (type = .integer))
  | .real x => inferInstanceAs
      (Decidable (type = .real ∧ x.isNaN = false ∧ x ≠ Binary64.zero.neg))
  | .text _ => inferInstanceAs (Decidable (type = .text))
  | .blob _ => .isTrue trivial

/-- A value has a literal: a number is finite, and a text goes on to its end. -/
def Value.HasLiteral : Value -> Prop
  | .real x => x.isFinite = true
  | .text s => Char.ofNat 0 ∉ s.toList
  | _ => True

instance : (value : Value) -> Decidable value.HasLiteral
  | .real x => inferInstanceAs (Decidable (x.isFinite = true))
  | .text s => inferInstanceAs (Decidable (Char.ofNat 0 ∉ s.toList))
  | .null => .isTrue trivial
  | .bool _ => .isTrue trivial
  | .int _ => .isTrue trivial
  | .blob _ => .isTrue trivial

def Column.default (column : Column) : Value :=
  column.default?.getD .null

namespace Engine

open Sql (Declaration Literal)

namespace Cell

theorem widened_ofReal {x : Binary64} (hzero : x ≠ Binary64.zero.neg) :
    (ofReal x).widened = .real x := by
  rw [ofReal]
  cases hwhole : x.toInt? with
  | none => rfl
  | some n =>
      dsimp only
      split
      · rename_i hbounds
        rw [Bool.and_eq_true, decide_eq_true_iff, decide_eq_true_iff] at hbounds
        have hrange : InRange n := by
          constructor <;> omega
        rw [widened, toInt_ofInt_of_inRange hrange,
          Binary64.ofInt_of_toInt? hwhole hzero]
      · rfl

theorem ofInt_signedWhole {negative : Bool} {n : Nat} {word : Int64}
    (hword : Decimal.int64? (Decimal.signed negative n) = some word)
    (hzero : Binary64.ofDecimal negative n 0 ≠ Binary64.zero.neg) :
    Binary64.ofInt word.toInt = Binary64.ofDecimal negative n 0 := by
  have hvalue := Decimal.toInt_of_int64? hword
  have hlow := Int64.le_toInt word
  have hhigh := Int64.toInt_lt word
  have hsign : decide (word.toInt < 0) = negative := by
    rw [hvalue, Decimal.signed]
    cases negative with
    | false => simp
    | true =>
        have hpos : n ≠ 0 := by
          rintro rfl
          exact hzero (by decide)
        simp
        omega
  have hdigits : word.toInt.natAbs = n := by
    rw [hvalue, Decimal.signed]
    split <;> simp
  rw [<- Binary64.ofDecimal_natAbs (by omega) (by omega), hsign, hdigits]

end Cell

theorem rules_ofColumn (column : Column) :
    (Declaration.ofColumn column).spec.rules =
      column.constraints.map Sql.Constraint.rule ++
        column.default?.toList.map fun value =>
          Sql.ColumnRule.default (Literal.ofValue value).expr := by
  cases hdefault : column.default? <;>
    simp [Declaration.spec, Declaration.rules, Declaration.ofColumn, hdefault,
      Function.comp_def]

/-- What a column of binary numbers keeps of one: a zero has no sign there. -/
def keptReal (x : Binary64) : Value :=
  if x.isNaN then .null else .real (if x = Binary64.zero.neg then .zero else x)

theorem suits_keptReal (x : Binary64) : (keptReal x).Suits .real := by
  rw [keptReal]
  split
  · trivial
  · rename_i hnumber
    split
    · exact ⟨rfl, by decide, by decide⟩
    · rename_i hzero
      exact ⟨rfl, Bool.eq_false_iff.mpr hnumber, hzero⟩

section
variable [Conversions]

/-!
# Defaults
-/

/--
The number that an engine reads in a default.  Without a point it is read as a whole
number if it is one of sixty-four bits, which is exact, and else as a decimal.
-/
def rereadReal (x : Binary64) : Value :=
  match Literal.ofValue (.real x) with
  | .whole negative n =>
      match Decimal.int64? (Decimal.signed negative n) with
      | some _ => .real x
      | none => keptReal (readDecimal negative ⟨n, 0⟩)
  | .fraction negative d => keptReal (readDecimal negative d)
  | _ => .null

def reread : Value -> Value
  | .real x => rereadReal x
  | value => value

/-- The value of a row that leaves a column out. -/
def absentValue (column : Column) : Value :=
  reread column.default

namespace Cell

/-!
# Conversions
-/

theorem stored_keptReal (x : Binary64) :
    (ofValue (.real x)).stored .real = ofValue (keptReal x) := by
  rw [keptReal, ofValue]
  cases hnumber : x.isNaN with
  | true => rfl
  | false =>
      rw [if_neg Bool.false_ne_true, if_neg Bool.false_ne_true]
      by_cases hzero : x = Binary64.zero.neg
      · have hzeros : (ofReal Binary64.zero.neg).widened = .real .zero := by
          decide +kernel
        have hnumber : ¬ Binary64.zero.isNaN = true := by
          decide
        rw [if_pos hzero, hzero, stored, numeric, hzeros, ofValue, if_neg hnumber]
      · rw [if_neg hzero, ofValue, hnumber]
        exact widened_ofReal hzero

theorem stored_of_suits {type : ColumnType} {value : Value}
    (h : value.Suits type) :
    (ofValue value).stored (Affinity.ofType type.name) = ofValue value := by
  have htext : Affinity.ofType ColumnType.text.name = .text := by decide
  have hinteger : Affinity.ofType ColumnType.integer.name = .numeric := by decide
  have hreal : Affinity.ofType ColumnType.real.name = .real := by decide
  have hboolean : Affinity.ofType ColumnType.boolean.name = .numeric := by decide
  cases value with
  | null => cases Affinity.ofType type.name <;> rfl
  | bool b =>
      rw [Value.Suits] at h
      rw [h, hboolean]
      rfl
  | int n =>
      rw [Value.Suits] at h
      rw [h, hinteger]
      rfl
  | real x =>
      rcases h with ⟨htype, hnumber, hzero⟩
      rw [htype, hreal, ofValue, hnumber]
      exact widened_ofReal hzero
  | text s =>
      rw [Value.Suits] at h
      rw [h, htext]
      rfl
  | blob bytes => cases Affinity.ofType type.name <;> rfl

/-!
# Literals
-/

def ofLiteral : Literal -> Cell
  | .whole negative n =>
      match Decimal.int64? (Decimal.signed negative n) with
      | some word => .int word
      | none => ofValue (.real (readDecimal negative ⟨n, 0⟩))
  | .fraction negative d => ofValue (.real (readDecimal negative d))
  | literal => ofValue literal.value

theorem closedCell_expr (literal : Literal) (params : List Cell) :
    closedCell params literal.expr = .ok (ofLiteral literal) := by
  cases literal with
  | whole negative n =>
      rw [Literal.expr, Sql.Expr.ofDigits, ofLiteral]
      cases Decimal.int64? (Decimal.signed negative n) <;> rfl
  | _ => rfl

theorem suits_rereadReal {x : Binary64} (h : (Value.real x).Suits .real) :
    (rereadReal x).Suits .real := by
  rw [rereadReal]
  split
  · split
    · exact h
    · exact suits_keptReal _
  · exact suits_keptReal _
  · trivial

theorem suits_reread {type : ColumnType} {value : Value} (h : value.Suits type) :
    (reread value).Suits type := by
  cases value with
  | real x =>
      rcases h with ⟨rfl, hkept⟩
      exact suits_rereadReal ⟨rfl, hkept⟩
  | _ => exact h

/-- A column stores the literal of a number as the number that is read in it. -/
theorem stored_ofLiteral_real {x : Binary64} (hfinite : x.isFinite = true)
    (hzero : x ≠ Binary64.zero.neg) :
    (ofLiteral (Literal.ofValue (.real x))).stored .real =
      ofValue (rereadReal x) := by
  have hstands := Literal.standsFor_ofValue (.real x)
  rw [Literal.StandsFor, if_pos hfinite] at hstands
  rw [rereadReal]
  cases hliteral : Literal.ofValue (.real x) with
  | whole negative n =>
      rw [hliteral] at hstands
      have hnearest : Binary64.ofDecimal negative n 0 = x := Option.some.inj hstands
      rw [ofLiteral]
      dsimp only
      cases hword : Decimal.int64? (Decimal.signed negative n) with
      | none => exact stored_keptReal _
      | some word =>
          have hexact := ofInt_signedWhole hword (hnearest ▸ hzero)
          rw [hnearest] at hexact
          have hkept : ofValue (.real x) = .real x :=
            if_neg (Binary64.not_isNaN_of_isFinite hfinite)
          refine Eq.trans ?_ hkept.symm
          exact congrArg Cell.real hexact
  | fraction negative d => exact stored_keptReal _
  | _ =>
      rw [hliteral] at hstands
      cases hstands

/-- A column stores the literal of a value of its kind as what is read in it. -/
theorem stored_literal {type : ColumnType} {value : Value}
    (h : value.Suits type) (hliteral : value.HasLiteral) :
    (ofLiteral (Literal.ofValue value)).stored (Affinity.ofType type.name) =
      ofValue (reread value) := by
  have hstands := Literal.standsFor_ofValue value
  cases value with
  | real x =>
      rcases h with ⟨rfl, _, hzero⟩
      exact stored_ofLiteral_real hliteral hzero
  | int n =>
      have hword : Decimal.int64? (Decimal.signed (n.toInt < 0) n.toInt.natAbs) =
          some n := by
        rw [Decimal.signed_natAbs, Decimal.int64?_toInt]
      rw [Literal.ofValue, ofLiteral, hword]
      exact stored_of_suits h
  | _ => exact stored_of_suits h

end Cell

/-!
# Declared columns
-/

structure Field.Keeps (column : Column) (field : Field) : Prop where
  name_eq : field.name = column.name
  affinity_eq : field.affinity = Affinity.ofType column.type.name
  default_eq : field.default.stored field.affinity =
    Cell.ofValue (absentValue column)

theorem Field.of_constraints {column : Column} {field : Field}
    {constraints : List Constraint}
    (h : (constraints.map Sql.Constraint.rule).foldlM applyRule
        ⟨column.name, Affinity.ofType column.type.name, false, .null, none⟩ =
      .ok field) :
    field.name = column.name ∧
      field.affinity = Affinity.ofType column.type.name ∧
      field.default = .null := by
  apply foldlM_preserves (fun field : Field => field.name = column.name ∧
    field.affinity = Affinity.ofType column.type.name ∧ field.default = .null)
    _ ⟨rfl, rfl, rfl⟩ h
  intro rule hmem before after hbefore happly
  rcases List.mem_map.mp hmem with ⟨constraint, _, rfl⟩
  cases constraint <;> cases happly <;> exact hbefore

theorem Field.ofSpec_ofColumn (column : Column) :
    Field.ofSpec (Declaration.ofColumn column).spec =
      (column.constraints.map Sql.Constraint.rule ++
        column.default?.toList.map fun value =>
          Sql.ColumnRule.default (Literal.ofValue value).expr).foldlM applyRule
        ⟨column.name, Affinity.ofType column.type.name, false, .null, none⟩ := by
  rw [Field.ofSpec, rules_ofColumn]
  rfl

theorem Field.keeps_of_ofSpec {column : Column}
    (hsuits : column.default.Suits column.type)
    (hliteral : column.default.HasLiteral) {field : Field}
    (h : Field.ofSpec (Declaration.ofColumn column).spec = .ok field) :
    Field.Keeps column field := by
  rw [Field.ofSpec_ofColumn, List.foldlM_append, bind_eq_ok] at h
  rcases h with ⟨ruled, hruled, hdefault⟩
  rcases Field.of_constraints hruled with ⟨hname, haffinity, hnull⟩
  rw [Column.default] at hsuits hliteral
  cases hvalue : column.default? with
  | none =>
      rw [hvalue] at hdefault
      cases hdefault
      refine ⟨hname, haffinity, ?_⟩
      rw [hnull, absentValue, Column.default, hvalue]
      cases field.affinity <;> rfl
  | some value =>
      have happly : applyRule ruled (.default (Literal.ofValue value).expr) =
          .ok { ruled with default := Cell.ofLiteral (Literal.ofValue value) } := by
        rw [applyRule, Cell.closedCell_expr]
        rfl
      rw [hvalue] at hdefault hsuits hliteral
      rw [Option.toList_some, List.map_singleton, List.foldlM_cons,
        happly] at hdefault
      cases hdefault
      refine ⟨hname, haffinity, ?_⟩
      dsimp only
      rw [haffinity, absentValue, Column.default, hvalue]
      exact Cell.stored_literal hsuits hliteral

end

end Engine
end TableStore
