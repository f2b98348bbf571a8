import TableStore.Proofs.Sql.Commands
import TableStore.Statement.Build

/-!
# The tokens of queries

Which tokens are a query of rows or of an aggregate, and which command the reader
makes of them.
-/

namespace TableStore
namespace Sql

/-!
# What a query returns

A column of the result is named by the text of its expression, which for a bare
name is that name.  The result of an aggregate is named by all of its text.
-/

theorem written_singleton {lexeme : Lexeme} {name : String}
    (htoken : lexeme.token = .word name) (hfaithful : lexeme.Faithful) :
    written [lexeme] = name := by
  rw [written, hfaithful name htoken, List.flatMap_nil, List.append_nil,
    String.ofList_toList]

theorem takes_column {column : String} (hcolumn : isReserved column = false) :
    Takes EndsExpr Expr.read [.word column] (.column none column) :=
  takes_expr ((Phrase.column (NameToken.word hcolumn)).weaken (Nat.zero_le _))

theorem takes_output {column : String} (hcolumn : isReserved column = false) :
    Takes EndsExpr Command.readOutput [.word column]
      (.value (.column none column) column) := by
  intro lexemes rest hlexemes hrest
  have hread := (takes_column hcolumn).run_withLexemes hlexemes rest hrest
  rcases hlexemes.eq_cons with ⟨lexeme, others, rfl, htoken, hfaithful, hnil⟩
  rw [hnil.eq_nil] at hread ⊢
  have hstar : NotSign "*" (next? ([lexeme] ++ rest)) := by
    intro heq
    rw [List.singleton_append] at heq
    have hsign := Option.some.inj heq
    rw [htoken] at hsign
    cases hsign
  unfold Command.readOutput
  rw [Reader.run_bind (run_trySign_of_notSign hstar),
    if_neg Bool.false_ne_true, Reader.run_bind hread]
  simp only [written_singleton htoken hfaithful]
  rfl

theorem run_atCall_cons_cons (function : String) (first second : Lexeme)
    (rest : List Lexeme) :
    (Command.atCall function).run (first :: second :: rest) =
      .ok (first.isWord function && second.isSign "(",
        first :: second :: rest) := rfl

theorem run_atCall_of_not_isWord {function : String} {lexeme : Lexeme}
    (h : lexeme.isWord function = false) (rest : List Lexeme) :
    (Command.atCall function).run (lexeme :: rest) =
      .ok (false, lexeme :: rest) := by
  cases rest with
  | nil => rfl
  | cons second rest => rw [run_atCall_cons_cons, h, Bool.false_and]

theorem run_atCall_of_notSign (function : String) (lexeme : Lexeme)
    {rest : List Lexeme} (h : NotSign "(" (next? rest)) :
    (Command.atCall function).run (lexeme :: rest) =
      .ok (false, lexeme :: rest) := by
  cases rest with
  | nil => rfl
  | cons second rest =>
      have hsign : second.isSign "(" = false := by
        rw [<- Bool.not_eq_true, Lexeme.isSign_eq_true_iff]
        exact fun htoken => h (congrArg some htoken)
      rw [run_atCall_cons_cons, hsign, Bool.and_false]

theorem run_readProjection_of_not_call {lexemes : List Lexeme}
    (h : forall function,
      (Command.atCall function).run lexemes = .ok (false, lexemes)) :
    Command.readProjection.run lexemes =
      (Projection.rows <$> Reader.commaSeparated Command.readOutput).run
        lexemes := by
  unfold Command.readProjection
  rw [Reader.run_bind (h "count"), if_neg Bool.false_ne_true,
    Reader.run_bind (h "sum"), if_neg Bool.false_ne_true, map_eq_pure_bind]

theorem takes_star :
    Takes (NotSign ",") Command.readProjection [.sign "*"] (.rows [.all]) := by
  intro lexemes rest hlexemes hrest
  have houtput : Takes (fun _ => True) Command.readOutput [.sign "*"] .all :=
    Takes.cons run_trySign_of_token (Takes.pure _)
  have hlist := (takes_single trivial houtput).map Projection.rows
  have hrun := hlist lexemes rest hlexemes ⟨trivial, hrest⟩
  rcases hlexemes.eq_cons with ⟨lexeme, others, rfl, htoken, _, _⟩
  rw [List.cons_append] at hrun ⊢
  rw [run_readProjection_of_not_call, hrun]
  intro function
  apply run_atCall_of_not_isWord
  rw [Lexeme.isWord, htoken]

theorem head?_nameTokens_tail (name : String) (names : List String) :
    exists tail, nameTokens (name :: names) = .word name :: tail ∧
      (tail.head? = none ∨ tail.head? = some (.sign ",")) := by
  cases names with
  | nil => exact ⟨[], rfl, .inl rfl⟩
  | cons second names => exact ⟨_, rfl, .inr rfl⟩

theorem takes_columns {columns : List String} (hne : columns ≠ [])
    (hcolumns : forall column, column ∈ columns ->
      isReserved column = false) :
    Takes (fun next => next = some (.word "FROM")) Command.readProjection
      (nameTokens columns)
      (.rows (columns.map fun column =>
        .value (.column none column) column)) := by
  intro lexemes rest hlexemes hrest
  have hlist := (takes_commaSeparated (by decide)
    (fun column hmem => takes_output (hcolumns column hmem)) hne).map
      Projection.rows
  have hfollow : EndsExpr (next? rest) ∧ NotSign "," (next? rest) := by
    rw [hrest]
    exact ⟨by decide, by decide⟩
  have hrun := hlist lexemes rest hlexemes hfollow
  cases columns with
  | nil => exact absurd rfl hne
  | cons column columns =>
      rcases head?_nameTokens_tail column columns with ⟨tail, htokens, htail⟩
      rw [htokens] at hlexemes
      rcases hlexemes.eq_cons with ⟨lexeme, others, rfl, _, _, hothers⟩
      rw [List.cons_append] at hrun ⊢
      rw [run_readProjection_of_not_call, hrun]
      intro function
      apply run_atCall_of_notSign
      rw [hothers.next?_append, hrest]
      rcases htail with heq | heq
      · rw [heq]
        decide
      · rw [heq]
        decide

/-- The tokens of an aggregate. -/
def aggregateTokens : Statement.Aggregate -> List Token
  | .sum column => .word "SUM" :: group [.word column]
  | .count => .word "COUNT" :: group [.sign "*"]

/-- What a query for an aggregate returns, under a name. -/
def aggregateProjection (name : String) : Statement.Aggregate -> Projection
  | .sum column => .sum (.column none column) name
  | .count => .count name

theorem run_atCall_of_group {function name : String}
    (hname : Text.foldCase name = function) {lexemes : List Lexeme}
    {tokens : List Token} (h : Spells lexemes (.word name :: group tokens))
    (rest : List Lexeme) :
    (Command.atCall function).run (lexemes ++ rest) =
      .ok (true, lexemes ++ rest) := by
  rcases h.eq_cons with ⟨first, others, rfl, hfirst, _, hothers⟩
  rcases hothers.eq_cons with ⟨second, others, rfl, hsecond, _, _⟩
  have hword : first.isWord function = true :=
    Lexeme.isWord_eq_true_iff.mpr ⟨name, hfirst, hname⟩
  have hsign : second.isSign "(" = true :=
    Lexeme.isSign_eq_true_iff.mpr hsecond
  rw [List.cons_append, List.cons_append, run_atCall_cons_cons, hword, hsign,
    Bool.true_and]

theorem takes_call {α : Type} {follow : Follow} {part : Reader α}
    {name : String} {tokens : List Token} {result : α}
    (h : Takes (fun next => next = some (.sign ")")) part tokens result) :
    Takes follow (do Reader.skip; Reader.parenthesized part)
      (.word name :: group tokens) result :=
  Takes.cons (fun lexeme rest _ => Reader.run_skip_cons lexeme rest)
    (Takes.parenthesized h)

theorem run_readProjection_aggregate (computed : Statement.Aggregate)
    (hcolumn : forall column, computed = .sum column ->
      isReserved column = false)
    {lexemes : List Lexeme} (hlexemes : Spells lexemes (aggregateTokens computed))
    (rest : List Lexeme) :
    exists name, Command.readProjection.run (lexemes ++ rest) =
      .ok (aggregateProjection name computed, rest) := by
  exists written lexemes
  unfold Command.readProjection
  cases computed with
  | count =>
      have hcall : Takes (fun _ => True) _ (.word "COUNT" :: group _) () :=
        takes_call (takes_sign "*")
      have hread := hcall.run_withLexemes hlexemes rest trivial
      have hat : (Command.atCall "count").run (lexemes ++ rest) = _ :=
        run_atCall_of_group (by decide) hlexemes rest
      rw [Reader.run_bind hat, if_pos rfl, Reader.run_bind hread]
      rfl
  | sum column =>
      have hinner := (takes_column (hcolumn column rfl)).weaken
        (fun _ hnext => (endsItem_closing hnext).left)
      have hcall : Takes (fun _ => True) _ (.word "SUM" :: group _) _ :=
        takes_call hinner
      have hread := hcall.run_withLexemes hlexemes rest trivial
      -- A sum is looked for behind a count, so the text is first seen not to be one.
      have hnot : (Command.atCall "count").run (lexemes ++ rest) =
          .ok (false, lexemes ++ rest) := by
        rcases hlexemes.eq_cons with ⟨first, others, rfl, hfirst, _, _⟩
        apply run_atCall_of_not_isWord
        rw [Lexeme.isWord, hfirst]
        decide
      have hat : (Command.atCall "sum").run (lexemes ++ rest) = _ :=
        run_atCall_of_group (by decide) hlexemes rest
      rw [Reader.run_bind hnot, if_neg Bool.false_ne_true,
        Reader.run_bind hat, if_pos rfl, Reader.run_bind hread]
      rfl

/-!
# Queries
-/

/-- The tokens of a query from behind what it returns. -/
def sourceTokens (table : String) (condition : List Token)
    (orders : List OrderBy) (limit? : Option Nat) : List Token :=
  .word "FROM" :: .word table ::
    (condition ++ (orderTokens orders ++ limitTokens limit?))

/-- An ordering as the reader sees it. -/
def orderTerm (order : OrderBy) : OrderTerm :=
  ⟨.column none order.column, order.direction⟩

/-- A limit as the reader sees it. -/
def limitExpr (n : Nat) : Expr :=
  Expr.ofDigits false n

/-- The query of a table. -/
def sourceQuery (projection : Projection) (table : String)
    (condition? : Option Expr) (orders : List OrderBy) (limit? : Option Nat) :
    Query :=
  ⟨projection, table, condition?, orders.map orderTerm, limit?.map limitExpr⟩

theorem takes_limit (limit? : Option Nat) (make : Option Expr -> Command) :
    Takes (fun next => next = none)
      (do
        if <- Reader.tryWord "limit" then
          let limit? <- some <$> Expr.read
          return make limit?
        else
          let limit? <- pure none
          return make limit?)
      (limitTokens limit?) (make (limit?.map limitExpr)) := by
  cases limit? with
  | none =>
      have hnext : NotWord "limit" none := by decide
      apply Takes.notWord
      · exact Takes.pure _
      · intro next heq
        rw [heq]
        exact hnext
  | some n =>
      have hnumber : Takes EndsExpr Expr.read [.integer n] (limitExpr n) :=
        takes_expr ((Phrase.value (ValueToken.integer n)).weaken
          (Nat.zero_le _))
      have hmake := (hnumber.map some).map make
      rw [map_eq_pure_bind] at hmake
      apply Takes.tryWord (by decide)
      apply hmake.weaken
      intro next heq
      rw [heq]
      decide

theorem takes_orderings {orders : List OrderBy} (hne : orders ≠ [])
    (hcolumns : forall order, order ∈ orders ->
      isReserved order.column = false) :
    Takes (NotSign ",") (Reader.commaSeparated Command.readOrderTerm)
      (separated (orders.map fun order =>
        [.word order.column, .word order.direction.word]))
      (orders.map orderTerm) := by
  have hterm : forall order, order ∈ orders ->
      Takes (fun _ => True) Command.readOrderTerm
        [.word order.column, .word order.direction.word] (orderTerm order) :=
    fun order hmem => takes_orderTerm (hcolumns order hmem)
  exact (takes_commaSeparated trivial hterm hne).weaken
    (fun _ hnext => ⟨trivial, hnext⟩)

theorem notSign_limitTokens (limit? : Option Nat) {next : Option Token}
    (hnext : next = none) :
    NotSign "," ((limitTokens limit?).head?.or next) := by
  rw [hnext]
  cases limit? with
  | none => decide
  | some n => exact fun heq => nomatch heq

theorem notOrder_limitTokens (limit? : Option Nat) {next : Option Token}
    (hnext : next = none) :
    NotWord "order" ((limitTokens limit?).head?.or next) := by
  have hlimit : NotWord "order" (some (.word "LIMIT")) := by decide
  rw [hnext]
  cases limit? with
  | none => decide
  | some n => exact hlimit

theorem takes_tail {orders : List OrderBy}
    (hcolumns : forall order, order ∈ orders ->
      isReserved order.column = false)
    (limit? : Option Nat) (make : List OrderTerm -> Option Expr -> Command) :
    Takes (fun next => next = none)
      (do
        if <- Reader.tryWord "order" then
          Reader.word "by"
          let terms <- Reader.commaSeparated Command.readOrderTerm
          if <- Reader.tryWord "limit" then
            let limit? <- some <$> Expr.read
            return make terms limit?
          else
            let limit? <- pure none
            return make terms limit?
        else
          let terms <- pure []
          if <- Reader.tryWord "limit" then
            let limit? <- some <$> Expr.read
            return make terms limit?
          else
            let limit? <- pure none
            return make terms limit?)
      (orderTokens orders ++ limitTokens limit?)
      (make (orders.map orderTerm) (limit?.map limitExpr)) := by
  cases orders with
  | nil =>
      apply Takes.notWord
      · exact takes_limit limit? (make [])
      · intro next
        exact notOrder_limitTokens limit?
  | cons order orders =>
      have hlist := takes_orderings (List.cons_ne_nil order orders) hcolumns
      apply Takes.tryWord (by decide)
      apply Takes.word (by decide)
      apply Takes.bind hlist (takes_limit limit? (make _))
      intro next
      exact notSign_limitTokens limit?

/-- Reads a query from behind what it returns. -/
def readSource (projection : Projection) : Reader Command := do
  Reader.word "from"
  let table <- Reader.name
  let condition? <- Command.readCondition?
  let orderBy <-
    if <- Reader.tryWord "order" then
      Reader.word "by"
      Reader.commaSeparated Command.readOrderTerm
    else pure []
  let limit? <-
    if <- Reader.tryWord "limit" then some <$> Expr.read else pure none
  return .select ⟨projection, table, condition?, orderBy, limit?⟩

theorem readSelect_eq :
    Command.readSelect = Command.readProjection >>= readSource := rfl

theorem takes_source (projection : Projection) {table : String}
    (htable : isReserved table = false) {condition : List Token}
    {condition? : Option Expr} (hcondition : ConditionTokens condition condition?)
    {orders : List OrderBy}
    (hcolumns : forall order, order ∈ orders ->
      isReserved order.column = false)
    (limit? : Option Nat) :
    Takes (fun next => next = none) (readSource projection)
      (sourceTokens table condition orders limit?)
      (.select (sourceQuery projection table condition? orders limit?)) := by
  unfold readSource sourceTokens
  apply Takes.word (by decide)
  apply Takes.name (NameToken.word htable)
  apply Takes.bind (takes_condition hcondition)
  · exact takes_tail hcolumns limit? fun orderBy limit? =>
      .select ⟨projection, table, condition?, orderBy, limit?⟩
  · intro next
    exact endsCondition_tail orders limit?

theorem takes_select {projection : Projection} {tokens source : List Token}
    {command : Command}
    (hprojection : Takes (fun next => next = some (.word "FROM"))
      Command.readProjection tokens projection)
    (hsource : Takes (fun next => next = none) (readSource projection)
      (.word "FROM" :: source) command) :
    Takes (fun next => next = none) Command.readStatement
      (.word "SELECT" :: (tokens ++ .word "FROM" :: source)) command := by
  unfold Command.readStatement
  apply Takes.tryWord (by decide)
  rw [readSelect_eq]
  exact Takes.bind hprojection hsource (fun _ _ => rfl)

theorem run_select_aggregate (computed : Statement.Aggregate)
    (hcolumn : forall column, computed = .sum column ->
      isReserved column = false)
    {table : String} (htable : isReserved table = false)
    {condition : List Token} {condition? : Option Expr}
    (hcondition : ConditionTokens condition condition?)
    {lexemes : List Lexeme}
    (hlexemes : Spells lexemes
      (.word "SELECT" :: (aggregateTokens computed ++
        sourceTokens table condition [] none))) :
    exists name, Command.readStatement.run lexemes =
      .ok (.select (sourceQuery (aggregateProjection name computed) table
        condition? [] none), []) := by
  rcases hlexemes.eq_cons with ⟨first, others, rfl, hfirst, _, hothers⟩
  rcases hothers.eq_append with ⟨before, after, rfl, hbefore, hafter⟩
  rcases run_readProjection_aggregate computed hcolumn hbefore after with
    ⟨name, hread⟩
  exists name
  have hnone : forall order : OrderBy, order ∈ [] ->
      isReserved order.column = false :=
    List.forall_mem_nil _
  have hsource := takes_source (aggregateProjection name computed) htable
    hcondition hnone none
  have hrun := hsource.run_all hafter rfl
  have hword : Text.foldCase "SELECT" = "select" := by decide
  unfold Command.readStatement
  rw [Reader.run_bind (run_tryWord_of_token hword _ _ hfirst), if_pos rfl,
    readSelect_eq, Reader.run_bind hread, hrun]

end Sql
end TableStore
