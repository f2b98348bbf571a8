import TableStore.Engine.Sqlite
import TableStore.Proofs.Statement.Filtered

/-!
# Conditions that are nested too deeply

SQLite refuses expressions beyond a certain depth.  A filter whose condition is one of
them makes all statements fail that are built with it, whatever they are about; a filter
of many branches is of this kind, since its branches are nested into each other.
-/

namespace TableStore

/-!
# The depth of conditions
-/

namespace Sql.Expr

theorem one_le_depth (expr : Expr) : 1 <= expr.depth := by
  cases expr with
  | column table? name => cases table? <;> simp [depth]
  | literal value =>
      cases value with
      | int n =>
          rw [depth]
          split <;> omega
      | _ => simp [depth]
  | decimal minus digits => cases minus <;> simp [depth]
  | _ => simp [depth]

theorem length_le_depth_foldl_or (first : Expr) (rest : List Expr) :
    first.depth + rest.length <= (rest.foldl or first).depth := by
  induction rest generalizing first with
  | nil => exact Nat.le_refl _
  | cons next rest ih =>
      have hnext := ih (first.or next)
      rw [depth] at hnext
      rw [List.length_cons, List.foldl_cons]
      omega

theorem length_le_depth_chain_or (trees : List Expr) :
    trees.length <= (chain or trees).depth := by
  cases trees with
  | nil => exact Nat.zero_le _
  | cons first rest =>
      have hdepth := length_le_depth_foldl_or first rest
      have hfirst := first.one_le_depth
      rw [chain, List.length_cons]
      omega

end Sql.Expr

namespace Predicate

theorem length_branchTrees (leaf : Nat -> Value -> Sql.Expr) (start : Nat)
    (branches : List (List Entry)) :
    (branchTrees leaf start branches).length = branches.length := by
  induction branches generalizing start with
  | nil => simp [branchTrees]
  | cons branch branches ih => simp [branchTrees, ih]

end Predicate

namespace Statement

open Engine (Admits Session Store)
open Engine.Sqlite

/-- The condition of a filter is nested more deeply than the engine admits. -/
def Deep (mode : Rendering) (filter? : Option Predicate) : Prop :=
  forall before, exists condition,
    conditionTree (operandLeaf mode before) filter? = some condition ∧
      depthLimit < condition.depth

theorem deep_of_branches (mode : Rendering) {branches : List (List Entry)}
    (h : depthLimit < branches.length) : Deep mode (some [.anyOf branches]) := by
  intro before
  refine ⟨_, rfl, Nat.lt_of_lt_of_le h ?_⟩
  rw [Predicate.tree, Predicate.entryTrees, Predicate.entryTrees, Sql.Expr.chain,
    List.foldl_nil]
  rw [<- Predicate.length_branchTrees (operandLeaf mode before) 0 branches]
  exact Sql.Expr.length_le_depth_chain_or _

/-!
# Statements with such conditions
-/

theorem not_admits_of_deep {text : String} {command : Sql.Command} {expr : Sql.Expr}
    (hread : Sql.Command.read.run (Sql.scan text) = .ok (command, []))
    (hmem : expr ∈ command.exprs) (hdeep : depthLimit < expr.depth) :
    ¬ Admits text := by
  have hany : (command.exprs.any fun expr => depthLimit < expr.depth) = true :=
    List.any_eq_true.mpr ⟨expr, hmem, decide_eq_true hdeep⟩
  have hexcess : Engine.Dialect.excess? command = excess? command := rfl
  rw [Session.admits_iff_of_read hread, hexcess, excess?, if_pos hany]
  exact Option.some_ne_none _

theorem mem_exprs_of_condition? {query : Sql.Query} {condition : Sql.Expr}
    (h : query.condition? = some condition) :
    condition ∈ (Sql.Command.select query).exprs := by
  have hmem : condition ∈ query.condition?.toList := Option.mem_toList.mpr h
  rw [Sql.Command.exprs, List.append_assoc, List.append_assoc]
  exact List.mem_append_right _ (List.mem_append_left _ hmem)

theorem Legible.fails_of_deep {mode : Rendering} {table : String}
    {filter? : Option Predicate} {statement : Fragment}
    (h : Legible mode table filter?) (hfiltered : Filtered mode table filter? statement)
    (hdeep : Deep mode filter?) (session : Session Store) :
    exists found, runOf session statement = (session, .error found) := by
  rcases hdeep 0 with ⟨condition, hcondition, hdepth⟩
  have hstatement := hfiltered
  cases hfiltered with
  | query hfilter hplain =>
      apply h.fails_of_not_admits hstatement
      apply not_admits_of_deep (h.read_query hfilter hplain) _ hdepth
      apply mem_exprs_of_condition?
      rw [queryOf, hfilter]
      exact hcondition
  | computed hcolumn =>
      rcases read_aggregate h.table_isPlainName hcolumn h.violations_eq
        h.columns_isPlainName (h.leavesRead 0) with ⟨name, hread⟩
      apply h.fails_of_not_admits hstatement
      exact not_admits_of_deep hread (mem_exprs_of_condition? hcondition) hdepth
  | removal =>
      apply h.fails_of_not_admits hstatement
      apply not_admits_of_deep h.read_removal _ hdepth
      simp [hcondition, Sql.Command.exprs]
  | @change changes options hcolumns hfilter horders hlimit =>
      by_cases hempty : changes.columns = []
      · exact h.not_ok_of_no_columns hempty horders
      · rcases hdeep changes.columns.length with ⟨other, hother, hbeyond⟩
        cases hfilter
        apply h.fails_of_not_admits hstatement
        apply not_admits_of_deep (h.read_update_of_no_tail hempty hcolumns
          (orders_isPlainName_of_nil horders) (tailTokens_eq_nil horders hlimit)) _
          hbeyond
        simp [hother, Sql.Command.exprs]

end Statement
end TableStore
