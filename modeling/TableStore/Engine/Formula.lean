import TableStore.Engine.Cell
import TableStore.Engine.Error
import TableStore.Sql.Expr

/-!
# Formulas

Expressions whose names have been looked up: a column is a position in a row,
and a placeholder is the cell that is bound to it.

A condition is true, false, or neither when a cell that it needs holds no
value.
-/

namespace TableStore
namespace Engine

structure Record where
  id : Int64
  cells : List Cell
deriving DecidableEq

/-- An expression without names. -/
inductive Formula
  | column (position : Nat) (affinity : Affinity)
  | number
  | constant (cell : Cell)
  | negative (inner : Formula)
  | not (inner : Formula)
  | and (left right : Formula)
  | or (left right : Formula)
  | compare (comparison : Comparison) (left right : Formula)

structure Named where
  name : String
  affinity : Affinity

structure Scope where
  table : String
  columns : List Named
  /-- Whether there is a row, whose number can be asked for. -/
  numbered : Bool
  params : List Cell

namespace Scope

def closed (params : List Cell) : Scope :=
  ⟨"", [], false, params⟩

def position? (scope : Scope) (name : String) : Option Nat :=
  scope.columns.findIdx? fun column => Text.sameName column.name name

def column? (scope : Scope) (name : String) : Option Formula := do
  let position <- scope.position? name
  let column <- scope.columns[position]?
  return .column position column.affinity

/-- The names of the number of a row, for want of a column of the name. -/
def numberNames : List String :=
  ["rowid", "oid", "_rowid_"]

def formula? (scope : Scope) (name : String) : Option Formula :=
  match scope.column? name with
  | some formula => some formula
  | none =>
      if scope.numbered && numberNames.contains (Text.foldCase name) then
        some .number
      else none

def truthWord? (name : String) : Option Cell :=
  if Text.foldCase name = "true" then some (.int 1)
  else if Text.foldCase name = "false" then some (.int 0)
  else none

def resolve [Conversions] (scope : Scope) : Sql.Expr -> Except Error Formula
  | .column none name =>
      match scope.formula? name, truthWord? name with
      | some formula, _ => .ok formula
      | none, some cell => .ok (.constant cell)
      | none, none => .error (.noSuchColumn name)
  | .column (some table) name =>
      match scope.formula? name with
      | some formula =>
          if Text.sameName scope.table table then .ok formula
          else .error (.noSuchColumn (table ++ "." ++ name))
      | none => .error (.noSuchColumn (table ++ "." ++ name))
  | .literal value => .ok (.constant (Cell.ofValue value))
  | .decimal negative d =>
      .ok (.constant (Cell.ofValue (.real (readDecimal negative d))))
  | .placeholder index => .ok (.constant (scope.params[index]?.getD .null))
  | .negative inner => (scope.resolve inner).map .negative
  | .not inner => (scope.resolve inner).map .not
  | .and left right => do
      return .and (<- scope.resolve left) (<- scope.resolve right)
  | .or left right => do
      return .or (<- scope.resolve left) (<- scope.resolve right)
  | .compare comparison left right => do
      return .compare comparison (<- scope.resolve left) (<- scope.resolve right)

end Scope

/-!
# Truth
-/

abbrev Truth := Option Bool

namespace Truth

def not (a : Truth) : Truth :=
  a.map Bool.not

def and : Truth -> Truth -> Truth
  | some false, _ => some false
  | _, some false => some false
  | some true, some true => some true
  | _, _ => none

def or : Truth -> Truth -> Truth
  | some true, _ => some true
  | _, some true => some true
  | some false, some false => some false
  | _, _ => none

def cell : Truth -> Cell
  | some true => .int 1
  | some false => .int 0
  | none => .null

end Truth

section
variable [Conversions]

namespace Cell

def truth : Cell -> Truth
  | .null => none
  | .int n => some (n != 0)
  | cell => some (cell.asReal.magnitude != 0)

def negate : Cell -> Cell
  | .null => .null
  | .int n =>
      match Decimal.int64? (-n.toInt) with
      | some opposite => .int opposite
      | none => .real (Decimal.Binary64.ofInt (-n.toInt))
  | cell => .real (Decimal.Binary64.sub .zero cell.asReal)

/--
Two cells as a test sees them.  When a column of numbers is tested, texts that
are numbers count as such; when a column of texts is tested against a text or
holds one, numbers count as their texts.
-/
def aligned (affinity? : Option Affinity) (a b : Cell) : Cell × Cell :=
  match affinity? with
  | some .numeric => (a.numeric, b.numeric)
  | some .real => (a.numeric, b.numeric)
  | some .text =>
      if a.isText || b.isText then (a.spelled, b.spelled) else (a, b)
  | _ => (a, b)

end Cell

def Comparison.accepts : Comparison -> Ordering -> Bool
  | .eq, order => order == .eq
  | .ne, order => order != .eq
  | .lt, order => order == .lt
  | .le, order => order != .gt
  | .gt, order => order == .gt
  | .ge, order => order != .lt

def test (comparison : Comparison) (affinity? : Option Affinity) (a b : Cell) :
    Truth :=
  if a.isNull || b.isNull then none
  else
    let (a, b) := a.aligned affinity? b
    some (Comparison.accepts comparison (Cell.compare a b))

namespace Formula

def affinity? : Formula -> Option Affinity
  | .column _ affinity => some affinity
  | .number => some .numeric
  | _ => none

def testAffinity? (left right : Formula) : Option Affinity :=
  match left.affinity?, right.affinity? with
  | some a, some b =>
      if a.isNumeric || b.isNumeric then some .numeric else none
  | some a, none => some a
  | none, some b => some b
  | none, none => none

def eval (record : Record) : Formula -> Cell
  | .column position _ => record.cells[position]?.getD .null
  | .number => .int record.id
  | .constant cell => cell
  | .negative inner => (inner.eval record).negate
  | .not inner => (inner.eval record).truth.not.cell
  | .and left right =>
      ((left.eval record).truth.and (right.eval record).truth).cell
  | .or left right =>
      ((left.eval record).truth.or (right.eval record).truth).cell
  | .compare comparison left right =>
      (test comparison (testAffinity? left right)
        (left.eval record) (right.eval record)).cell

def passes (condition : Formula) (record : Record) : Bool :=
  (condition.eval record).truth = some true

def fails (condition : Formula) (record : Record) : Bool :=
  (condition.eval record).truth = some false

end Formula

end

end Engine
end TableStore
