import TableStore.Engine.Change

/-!
# Dialects

What engines of the same language do in ways of their own: how they read and
spell numbers, in which order they visit the rows for a query, and which
statements are too large for them.
-/

namespace TableStore
namespace Engine

class Dialect extends Conversions where
  /--
  The rows for a query in the order in which they are visited.  It may depend on
  the whole query and on all there is in the table.
  -/
  visit : Table -> List Cell -> Sql.Query -> List Record -> List Record
  visit_perm : forall table params query records,
    (visit table params query records).Perm records
  /-- Why a statement is beyond the limits of the engine, if it is. -/
  excess? : Sql.Command -> Option String
  excess?_all : forall table, excess? (.select ⟨.rows [.all], table, none, [], none⟩) = none
  excess?_version : excess? .version = none
  excess?_setVersion : forall version, excess? (.setVersion version) = none

end Engine
end TableStore
