import TableStore.Decimal.Digits
import TableStore.Predicate.Clause

/-!
# Query options

Which columns a query returns, which rows it is about, in which order they come
and how many of them at most.
-/

namespace TableStore

inductive Direction
  | ascending
  | descending
deriving DecidableEq

def Direction.word : Direction -> String
  | .ascending => "ASC"
  | .descending => "DESC"

structure OrderBy where
  column : String
  direction : Direction
deriving DecidableEq

namespace OrderBy

def text (order : OrderBy) : String :=
  order.column ++ " " ++ order.direction.word

/-- Reads a column name, descending when a minus sign stands before it. -/
def ofSpec (spec : String) : OrderBy :=
  match spec.toList with
  | '-' :: column => ⟨String.ofList column, .descending⟩
  | _ => ⟨spec, .ascending⟩

end OrderBy

structure Options where
  columns? : Option (List String)
  filter? : Option Predicate
  /-- The orderings, the most important one first. -/
  orderBy : List OrderBy
  limit? : Option UInt64

namespace Options

def none : Options :=
  ⟨.none, .none, [], .none⟩

def ofFilter (filter? : Option Predicate) : Options :=
  { none with filter? := filter? }

end Options
end TableStore
