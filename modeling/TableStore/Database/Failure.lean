import TableStore.Engine.Error
import TableStore.Predicate.Shape

/-!
# Failures

Why an operation on a database fails: its predicate is malformed, or the engine
below refuses the work.
-/

namespace TableStore
namespace Database

inductive Failure
  | predicate (error : ShapeError)
  | engine (error : Engine.Error)
  | configuration (text : String)
  | closed

namespace Failure

def source : Failure -> String
  | .predicate error => error.message
  | .engine error =>
      "error returned from database: (code: " ++ Decimal.natText error.code ++
        ") " ++ error.message
  | .configuration text => "error with configuration: " ++ text
  | .closed => "attempted to acquire a connection on a closed pool"

/-- The broken rule, if a broken rule is the cause. -/
def violation? : Failure -> Option Engine.Violation
  | .engine (.violation violation) => some violation
  | _ => none

def constraint? (failure : Failure) : Option ConstraintKind :=
  failure.violation?.map (·.kind)

def isEngine : Failure -> Bool
  | .predicate _ => false
  | _ => true

def message (failure : Failure) : String :=
  match failure, failure.violation? with
  | .predicate error, _ => error.message
  | _, some violation =>
      violation.kind.words ++ " constraint violated: " ++ violation.message
  | _, none => "engine error: " ++ failure.source

end Failure
end Database
end TableStore
