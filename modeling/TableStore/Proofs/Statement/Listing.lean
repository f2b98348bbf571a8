import TableStore.Proofs.Predicate.Tests
import TableStore.Proofs.Statement.Reading

/-!
# Queries of rows read back

A reader for queries of rows that knows nothing of how they are built.  It
returns what such a query says: its columns, its table, its condition, its
orderings and its limit.  Of the text of a query it gives back all that the
query was built from, so no two different queries have one text.
-/

namespace TableStore
namespace Sql

open Reader (commaSeparated tryWord word)

/-!
# A reader of queries
-/

/--
What a query of rows says.  Without columns it is about all of them, and its limit
may be any number.
-/
structure Listing where
  columns? : Option (List String)
  table : String
  condition? : Option Expr
  orderBy : List OrderBy
  limit? : Option Nat

namespace Listing

def readColumns? : Reader (Option (List String)) := do
  if <- Reader.trySign "*" then return none
  else some <$> commaSeparated Reader.name

def readOrdering : Reader OrderBy := do
  let column <- Reader.name
  if <- tryWord "desc" then return ⟨column, .descending⟩
  else
    word "asc"
    return ⟨column, .ascending⟩

def readOrderings : Reader (List OrderBy) := do
  if <- tryWord "order" then
    word "by"
    commaSeparated readOrdering
  else return []

def readNumber : Reader Nat := do
  match (<- Reader.peek?).map Lexeme.token with
  | some (.integer n) =>
      Reader.skip
      return n
  | _ => Reader.refuse

def readLimit? : Reader (Option Nat) := do
  if <- tryWord "limit" then some <$> readNumber else return none

def read : Reader Listing := do
  word "select"
  let columns? <- readColumns?
  word "from"
  let table <- Reader.name
  let condition? <- Command.readCondition?
  let orderBy <- readOrderings
  let limit? <- readLimit?
  return ⟨columns?, table, condition?, orderBy, limit?⟩

/-!
# The tokens that the reader takes
-/

section Takes

variable {follow : Follow}

theorem takes_columns? {columns? : Option (List String)}
    (hcolumns : forall columns, columns? = some columns ->
      forall column, column ∈ columns -> isReserved column = false) :
    Takes (fun next => next = some (.word "FROM")) readColumns?
      (Statement.projectionTokens columns?)
      (columns?.filter fun columns => !columns.isEmpty) := by
  have hstar : Takes (fun next => next = some (.word "FROM")) readColumns?
      [.sign "*"] none :=
    Takes.cons run_trySign_of_token (Takes.pure none)
  rcases columns? with _ | _ | ⟨column, columns⟩
  · exact hstar
  · exact hstar
  · have hnames := takes_names (List.cons_ne_nil column columns)
      (hcolumns _ rfl)
    rcases head?_nameTokens_tail column columns with ⟨tail, htokens, _⟩
    have hnot : forall next : Option Token,
        NotSign "*" ((nameTokens (column :: columns)).head?.or next) := by
      intro next
      rw [htokens]
      exact fun heq => nomatch heq
    apply Takes.look (NotSign "*") (fun _ => run_trySign_of_notSign)
    · apply (hnames.map some).weaken
      intro next heq
      rw [heq]
      decide
    · intro next _
      exact hnot next

theorem takes_ordering {order : OrderBy}
    (hcolumn : isReserved order.column = false) :
    Takes follow readOrdering
      [.word order.column, .word order.direction.word] order := by
  rcases order with ⟨column, direction⟩
  apply Takes.name (NameToken.word hcolumn)
  cases direction with
  | descending =>
      have hword : Text.foldCase "DESC" = "desc" := by decide
      exact Takes.tryWord hword (Takes.pure _)
  | ascending =>
      have hword : Text.foldCase "ASC" = "asc" := by decide
      have hnext : NotWord "desc" (some (.word "ASC")) := by decide
      exact Takes.notWord (Takes.word hword (Takes.pure _))
        (fun _ _ => hnext)

theorem takes_orderings {orders : List OrderBy}
    (hcolumns : forall order, order ∈ orders ->
      isReserved order.column = false) :
    Takes (fun next => NotWord "order" next ∧ NotSign "," next) readOrderings
      (orderTokens orders) orders := by
  cases orders with
  | nil => exact Takes.notWord (Takes.pure []) (fun _ hnext => hnext.left)
  | cons order orders =>
      have hitem : forall item, item ∈ order :: orders ->
          Takes (fun _ => True) readOrdering
            [.word item.column, .word item.direction.word] (id item) :=
        fun item hmem => takes_ordering (hcolumns item hmem)
      have hitems := takes_commaSeparated trivial hitem
        (List.cons_ne_nil order orders)
      rw [List.map_id] at hitems
      apply Takes.tryWord (by decide)
      apply Takes.word (by decide)
      apply hitems.weaken
      intro next hnext
      exact ⟨trivial, hnext.right⟩

theorem takes_limit? (limit? : Option Nat) :
    Takes (fun next => next = none) readLimit? (limitTokens limit?) limit? := by
  cases limit? with
  | none =>
      have hnext : NotWord "limit" none := by decide
      apply Takes.notWord (Takes.pure none)
      intro next heq
      rw [heq]
      exact hnext
  | some n =>
      have hnumber : Takes (fun next => next = none) readNumber [.integer n]
          n := by
        intro lexemes rest hlexemes _
        rcases hlexemes.eq_cons with ⟨lexeme, others, rfl, htoken, _, hnil⟩
        rw [hnil.eq_nil, List.singleton_append]
        unfold readNumber
        rw [Reader.run_bind (Reader.run_peek? _), List.head?_cons,
          Option.map_some, htoken]
        rfl
      exact Takes.tryWord (by decide) (hnumber.map some)

theorem takes_read {columns? : Option (List String)}
    (hcolumns : forall columns, columns? = some columns ->
      forall column, column ∈ columns -> isReserved column = false)
    {table : String} (htable : isReserved table = false)
    {condition : List Token} {condition? : Option Expr}
    (hcondition : ConditionTokens condition condition?)
    {orders : List OrderBy}
    (horders : forall order, order ∈ orders ->
      isReserved order.column = false)
    (limit? : Option Nat) :
    Takes (fun next => next = none) read
      (.word "SELECT" :: (Statement.projectionTokens columns? ++
        sourceTokens table condition orders limit?))
      ⟨columns?.filter fun columns => !columns.isEmpty, table, condition?,
        orders, limit?⟩ := by
  have hlimit := (takes_limit? limit?).map fun limit? =>
    (⟨columns?.filter fun columns => !columns.isEmpty, table, condition?,
      orders, limit?⟩ : Listing)
  rw [map_eq_pure_bind] at hlimit
  unfold read sourceTokens
  apply Takes.word (by decide)
  apply Takes.bind (takes_columns? hcolumns)
  · apply Takes.word (by decide)
    apply Takes.name (NameToken.word htable)
    apply Takes.bind (takes_condition hcondition)
    · apply Takes.bind (takes_orderings horders) hlimit
      intro next hnext
      exact ⟨notOrder_limitTokens limit? hnext,
        notSign_limitTokens limit? hnext⟩
    · intro next
      exact endsCondition_tail orders limit?
  · intro _ _
    rfl

end Takes

end Listing

/-!
# Parameters in the place of placeholders
-/

def Expr.supplied (params : List Value) : Expr -> Expr
  | .placeholder index =>
      (params[index]?.map Expr.literal).getD (.placeholder index)
  | .negative inner => .negative (inner.supplied params)
  | .not inner => .not (inner.supplied params)
  | .and left right => .and (left.supplied params) (right.supplied params)
  | .or left right => .or (left.supplied params) (right.supplied params)
  | .compare comparison left right =>
      .compare comparison (left.supplied params) (right.supplied params)
  | expr => expr

theorem Expr.congruence_supplied (params : List Value) :
    Expr.Congruence fun first second => first.supplied params = second where
  null := rfl
  not h := congrArg Expr.not h
  and hleft hright := congrArg₂ Expr.and hleft hright
  or hleft hright := congrArg₂ Expr.or hleft hright

end Sql

namespace Predicate

open Sql (Expr)

theorem supplied_tree (predicate : Predicate) :
    (predicate.tree fun index _ => .placeholder index).supplied
        predicate.operands =
      predicate.tree fun _ value => .literal value := by
  apply alike_tree (Expr.congruence_supplied predicate.operands)
  intro index test htest
  have hvalue := operand_of_test htest
  simp [testTree, Expr.supplied, hvalue]

end Predicate

/-!
# Queries of rows
-/

namespace Statement

open Sql (Expr Listing)

structure Readable (table : String) (options : Options) : Prop where
  table_isPlainName : Sql.isPlainName table = true
  projection_isPlainName : forall columns, options.columns? = some columns ->
    forall column, column ∈ columns -> Sql.isPlainName column = true
  filter_isPlainName : forall column, column ∈ filterColumns options.filter? ->
    Sql.isPlainName column = true
  order_isPlainName : forall order, order ∈ options.orderBy ->
    Sql.isPlainName order.column = true
  violations_eq : filterViolations options.filter? = []

/-- The columns that options name; a list without columns names none. -/
def named? (options : Options) : Option (List String) :=
  options.columns?.filter fun columns => !columns.isEmpty

def filterTree? (options : Options) : Option Expr :=
  conditionTree (fun _ value => .literal value) options.filter?

/--
A query is read as what it was built from.  The operands of the filter are the
parameters, each in the place of the placeholder with its number.
-/
structure ReadsBack (table : String) (options : Options)
    (statement : Fragment) (listing : Listing) : Prop where
  read_eq : Listing.read.run (Sql.scan statement.text) = .ok (listing, [])
  columns_eq : listing.columns? = named? options
  star_iff : listing.columns? = none <-> options.columns?.getD [] = []
  table_eq : listing.table = table
  params_eq : statement.params = filterOperands options.filter?
  condition_eq : listing.condition? =
    conditionTree (fun index _ => .placeholder index) options.filter?
  supplied_eq : listing.condition?.map (Expr.supplied statement.params) =
    filterTree? options
  where_iff : listing.condition? = none <-> options.filter?.getD [] = []
  orderBy_eq : listing.orderBy = options.orderBy
  limit_eq : listing.limit? = options.limit?.map UInt64.toNat

structure SameQuery (table other : String) (options otherOptions : Options) :
    Prop where
  table_eq : table = other
  named_eq : named? options = named? otherOptions
  filter_eq : filterTree? options = filterTree? otherOptions
  orderBy_eq : options.orderBy = otherOptions.orderBy
  limit_eq : options.limit? = otherOptions.limit?

theorem supplied_conditionTree (filter? : Option Predicate) :
    (conditionTree (fun index _ => .placeholder index) filter?).map
        (Expr.supplied (filterOperands filter?)) =
      conditionTree (fun _ value => .literal value) filter? := by
  rcases filter? with _ | _ | ⟨entry, rest⟩
  · rfl
  · rfl
  · exact congrArg some (Predicate.supplied_tree (entry :: rest))

theorem conditionTree_eq_none_iff (leaf : Nat -> Value -> Expr)
    (filter? : Option Predicate) :
    conditionTree leaf filter? = none <-> filter?.getD [] = [] := by
  rcases filter? with _ | _ | ⟨entry, rest⟩ <;> simp [conditionTree]

theorem named?_eq_none_iff (options : Options) :
    named? options = none <-> options.columns?.getD [] = [] := by
  rw [named?]
  rcases options.columns? with _ | _ | ⟨column, columns⟩ <;> simp

theorem readsBack_select {table : String} {options : Options}
    (h : Readable table options) :
    exists statement listing,
      select .parameterized table options = .ok statement ∧
      ReadsBack table options statement listing := by
  rcases scanned_select h.table_isPlainName h.projection_isPlainName
    h.violations_eq h.filter_isPlainName h.order_isPlainName
    (Predicate.leavesRead_placeholder _) with ⟨clause, hclause, hscanned⟩
  have htakes := Listing.takes_read
    (fun columns heq =>
      not_isReserved_of_mem (h.projection_isPlainName columns heq))
    (not_isReserved h.table_isPlainName) hclause
    (fun order hmem => not_isReserved (h.order_isPlainName order hmem))
    (options.limit?.map UInt64.toNat)
  have hread := htakes.run_all hscanned.spells rfl
  have hparams : (selectBase table options.columns? ++
      condition .parameterized options.filter? ++
        Fragment.ofText (tail options)).params =
      filterOperands options.filter? := by
    rw [Fragment.params_append, Fragment.params_append, params_condition,
      Predicate.operandParams_parameterized, selectBase,
      Fragment.params_ofText, Fragment.params_ofText, List.nil_append,
      List.append_nil]
    rfl
  have hbuilt : select .parameterized table options =
      .ok (selectBase table options.columns? ++
        condition .parameterized options.filter? ++
          .ofText (tail options)) := by
    rw [select_eq, h.violations_eq, Predicate.verdict_nil]
  refine ⟨_, _, hbuilt, hread, rfl, named?_eq_none_iff options, rfl, hparams,
    rfl, ?_, conditionTree_eq_none_iff _ options.filter?, rfl, rfl⟩
  rw [hparams]
  exact supplied_conditionTree options.filter?

theorem ReadsBack.sameQuery {table other : String}
    {options otherOptions : Options} {statement : Fragment}
    {listing otherListing : Listing}
    (h : ReadsBack table options statement listing)
    (hother : ReadsBack other otherOptions statement otherListing) :
    SameQuery table other options otherOptions := by
  have hsame : listing = otherListing := by
    have hread := h.read_eq.symm.trans hother.read_eq
    cases hread
    rfl
  subst hsame
  have hlimit := h.limit_eq.symm.trans hother.limit_eq
  constructor
  · exact h.table_eq.symm.trans hother.table_eq
  · exact h.columns_eq.symm.trans hother.columns_eq
  · exact h.supplied_eq.symm.trans hother.supplied_eq
  · exact h.orderBy_eq.symm.trans hother.orderBy_eq
  · exact Option.map_injective (fun _ _ => UInt64.toNat_inj.mp) hlimit

/--
A query of rows is built from readable options, its text is read as what they
ask for, and other options with the same text and parameters ask for the same.
-/
theorem select_reads_back (table : String) (options : Options)
    (h : Readable table options) :
    exists statement listing,
      select .parameterized table options = .ok statement ∧
      ReadsBack table options statement listing ∧
      forall other otherOptions, Readable other otherOptions ->
        select .parameterized other otherOptions = .ok statement ->
        SameQuery table other options otherOptions := by
  rcases readsBack_select h with ⟨statement, listing, hbuilt, hreads⟩
  refine ⟨statement, listing, hbuilt, hreads, ?_⟩
  intro other otherOptions hother hsame
  rcases readsBack_select hother with
    ⟨built, otherListing, hotherBuilt, hotherReads⟩
  have heq : built = statement :=
    Except.ok.inj (hotherBuilt.symm.trans hsame)
  subst heq
  exact hreads.sameQuery hotherReads

def fullOptions : Options :=
  ⟨some ["a", "b"],
    some [.compare "a" [.test .ge (.int 1), .not [.test .eq (.text "?")]],
      .anyOf [[.equal "b" (.bool true)], [.equal "a" (.int 2)]]],
    [⟨"b", .descending⟩, ⟨"a", .ascending⟩],
    some 18446744073709551615⟩

theorem select_reads_back_full :
    Readable "t" fullOptions ∧
      exists statement listing,
        select .parameterized "t" fullOptions = .ok statement ∧
        ReadsBack "t" fullOptions statement listing ∧
        listing.limit? = some 18446744073709551615 ∧
        forall other otherOptions, Readable other otherOptions ->
          select .parameterized other otherOptions = .ok statement ->
          SameQuery "t" other fullOptions otherOptions := by
  have hreadable : Readable "t" fullOptions := by
    constructor
    · decide
    · simp [fullOptions]
      decide
    · simp [fullOptions, filterColumns, Predicate.columns,
        Predicate.entryColumns, Predicate.branchColumns,
        Predicate.comparatorColumns]
      decide
    · simp [fullOptions]
      decide
    · simp [fullOptions, filterViolations, Predicate.violations,
        Predicate.entryViolations, Predicate.branchViolations,
        Predicate.comparatorViolations, Predicate.operandViolations,
        Predicate.violationIf]
  rcases select_reads_back "t" fullOptions hreadable with
    ⟨statement, listing, hbuilt, hreads, hsame⟩
  exact ⟨hreadable, statement, listing, hbuilt, hreads, hreads.limit_eq, hsame⟩

end Statement
end TableStore
