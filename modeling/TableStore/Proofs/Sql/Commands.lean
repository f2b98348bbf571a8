import TableStore.Proofs.Sql.Pieces
import TableStore.Sql.Command

/-!
# The tokens of commands

Which tokens are an insertion, an update or a removal, and which command the
reader makes of them.  Each form of statement is one list of tokens with the
tokens of its names and of its condition filled in.
-/

namespace TableStore
namespace Sql

/-!
# Parts of statements
-/

def nameTokens (names : List String) : List Token :=
  separated (names.map fun name => [.word name])

inductive ConditionTokens : List Token -> Option Expr -> Prop where
  | absent : ConditionTokens [] none
  | given {tokens : List Token} {tree : Expr} :
      Phrase 0 tokens tree ->
      ConditionTokens (.word "WHERE" :: tokens) (some tree)

def orderTokens : List OrderBy -> List Token
  | [] => []
  | orders => .word "ORDER" :: .word "BY" ::
      separated (orders.map fun order =>
        [.word order.column, .word order.direction.word])

def limitTokens : Option Nat -> List Token
  | none => []
  | some n => [.word "LIMIT", .integer n]

/-- The command ends here, or goes on with an ordering or a limit. -/
def EndsCondition : Follow :=
  fun next => next = none ∨ next = some (.word "ORDER") ∨
    next = some (.word "LIMIT")

theorem EndsCondition.endsExpr {next : Option Token}
    (h : EndsCondition next) : EndsExpr next := by
  rcases h with rfl | rfl | rfl <;> rfl

theorem EndsCondition.notSign {next : Option Token}
    (h : EndsCondition next) (sign : String) : NotSign sign next := by
  rcases h with rfl | rfl | rfl <;> exact fun heq => nomatch heq

theorem EndsCondition.notWhere {next : Option Token}
    (h : EndsCondition next) : NotWord "where" next := by
  rcases h with rfl | rfl | rfl
  · rfl
  · decide
  · decide

theorem endsCondition_tail (orders : List OrderBy) (limit? : Option Nat)
    {next : Option Token} (hnext : next = none) :
    EndsCondition ((orderTokens orders ++ limitTokens limit?).head?.or next) := by
  cases orders with
  | cons order orders => exact .inr (.inl rfl)
  | nil =>
      cases limit? with
      | some n => exact .inr (.inr rfl)
      | none => exact .inl hnext

theorem ConditionTokens.head?_or {tokens : List Token}
    {condition? : Option Expr} (h : ConditionTokens tokens condition?)
    (next : Option Token) :
    tokens.head?.or next = some (.word "WHERE") ∨
      tokens.head?.or next = next := by
  cases h with
  | absent => exact .inr rfl
  | given _ => exact .inl rfl

theorem ConditionTokens.endsItem {tokens : List Token}
    {condition? : Option Expr} (h : ConditionTokens tokens condition?)
    {next : Option Token} (hnext : EndsCondition next) :
    EndsExpr (tokens.head?.or next) ∧ NotSign "," (tokens.head?.or next) := by
  rcases h.head?_or next with heq | heq
  · rw [heq]
    exact ⟨by decide, fun hsign => nomatch hsign⟩
  · rw [heq]
    exact ⟨hnext.endsExpr, hnext.notSign ","⟩

section Parts

variable {follow : Follow}

theorem takes_names {names : List String} (hne : names ≠ [])
    (hnames : forall name, name ∈ names -> isReserved name = false) :
    Takes (NotSign ",") (Reader.commaSeparated Reader.name)
      (nameTokens names) names := by
  have hnamed : forall name, name ∈ names ->
      Takes (fun _ => True) Reader.name [.word name] (id name) := by
    intro name hmem
    exact takes_name (NameToken.word (hnames name hmem))
  have h := takes_commaSeparated trivial hnamed hne
  rw [List.map_id] at h
  exact h.weaken (fun next hnext => ⟨trivial, hnext⟩)

theorem takes_ifNotExists :
    Takes (fun _ => True) (Command.readIf ["not", "exists"])
      [.word "IF", .word "NOT", .word "EXISTS"] true := by
  have hboth : Takes (fun _ => True)
      (do Reader.word "not"; Reader.word "exists"; return true)
      [.word "NOT", .word "EXISTS"] true := by
    apply Takes.word (by decide)
    exact Takes.word (by decide) (Takes.pure true)
  apply Takes.tryWord (by decide)
  simpa only [List.forM, bind_assoc, pure_bind] using hboth

theorem takes_condition {tokens : List Token} {condition? : Option Expr}
    (h : ConditionTokens tokens condition?) :
    Takes EndsCondition Command.readCondition? tokens condition? := by
  cases h with
  | absent =>
      exact Takes.notWord (Takes.pure none) (fun _ hnext => hnext.notWhere)
  | given htree =>
      have hread := (takes_expr htree).map some
      apply Takes.tryWord (by decide)
      exact hread.weaken (fun _ hnext => hnext.endsExpr)

theorem takes_assignmentOf {token : Token} {column : String}
    (hcolumn : NameToken token column) {tokens : List Token} {value : Expr}
    (hvalue : Phrase 0 tokens value) :
    Takes EndsExpr Command.readAssignment (token :: .sign "=" :: tokens)
      (column, value) := by
  have hpair := (takes_expr hvalue).map (Prod.mk column)
  rw [map_eq_pure_bind] at hpair
  exact Takes.name hcolumn (Takes.sign hpair)

theorem takes_assignment {column : String}
    (hcolumn : isReserved column = false) (index : Nat) :
    Takes EndsExpr Command.readAssignment
      [.word column, .sign "=", .placeholder index]
      (column, .placeholder index) :=
  takes_assignmentOf (NameToken.word hcolumn)
    ((Phrase.placeholder index).weaken (Nat.zero_le _))

theorem takes_direction {expr : Expr} (direction : Direction) :
    Takes follow
      (do
        if <- Reader.tryWord "desc" then
          return (⟨expr, .descending⟩ : OrderTerm)
        else
          let _ <- Reader.tryWord "asc"
          return ⟨expr, .ascending⟩)
      [.word direction.word] ⟨expr, direction⟩ := by
  cases direction with
  | descending => exact Takes.tryWord (by decide) (Takes.pure _)
  | ascending =>
      have hword : Text.foldCase "ASC" = "asc" := by decide
      have hnext : NotWord "desc" (some (.word "ASC")) := by decide
      exact Takes.notWord
        (Takes.cons (run_tryWord_of_token hword) (Takes.pure _))
        (fun _ _ => hnext)

theorem takes_orderTerm {order : OrderBy}
    (hcolumn : isReserved order.column = false) :
    Takes follow Command.readOrderTerm
      [.word order.column, .word order.direction.word]
      ⟨.column none order.column, order.direction⟩ := by
  have hname : Takes EndsExpr Expr.read [.word order.column]
      (.column none order.column) :=
    takes_expr
      ((Phrase.column (NameToken.word hcolumn)).weaken (Nat.zero_le _))
  have hnext : EndsExpr (some (.word order.direction.word)) := by
    cases order.direction <;> decide
  exact Takes.bind hname (takes_direction order.direction) (fun _ _ => hnext)

end Parts

/-!
# Changes of rows
-/

/-- The tokens of an insertion of one row, with a placeholder for each column. -/
def insertTokens (table : String) (columns : List String) : List Token :=
  .word "INSERT" :: .word "INTO" :: .word table ::
    (group (nameTokens columns) ++ .word "VALUES" ::
      group (separated ((List.range columns.length).map fun index =>
        [.placeholder index])))

def insertDefaultsTokens (table : String) : List Token :=
  [.word "INSERT", .word "INTO", .word table, .word "DEFAULT", .word "VALUES"]

def updateTokens (table : String) (columns : List String)
    (condition : List Token) : List Token :=
  .word "UPDATE" :: .word table :: .word "SET" ::
    (separated (columns.zipIdx.map fun entry =>
      [.word entry.1, .sign "=", .placeholder entry.2]) ++ condition)

def deleteTokens (table : String) (condition : List Token) : List Token :=
  .word "DELETE" :: .word "FROM" :: .word table :: condition

def placeholderRow (count : Nat) : List Expr :=
  (List.range count).map .placeholder

def placeholderAssignments (columns : List String) : List (String × Expr) :=
  columns.zipIdx.map fun entry => (entry.1, .placeholder entry.2)

theorem takes_placeholder (index : Nat) :
    Takes EndsExpr Expr.read [.placeholder index] (.placeholder index) :=
  takes_expr ((Phrase.placeholder index).weaken (Nat.zero_le _))

theorem endsItem_closing {next : Option Token}
    (h : next = some (.sign ")")) : EndsExpr next ∧ NotSign "," next := by
  rw [h]
  exact ⟨by decide, by decide⟩

theorem takes_placeholders {follow : Follow} {count : Nat}
    (hne : count ≠ 0) :
    Takes follow
      (Reader.parenthesized (Reader.commaSeparated Expr.read))
      (group (separated ((List.range count).map fun index =>
        [.placeholder index])))
      (placeholderRow count) := by
  have hitems : List.range count ≠ [] := by
    rwa [Ne, List.range_eq_nil]
  have hlist := takes_commaSeparated (by decide)
    (fun index _ => takes_placeholder index) hitems
  exact Takes.parenthesized (hlist.weaken (fun _ => endsItem_closing))

theorem takes_insertion {follow : Follow} {token : Token} {table : String}
    (htable : NameToken token table) {names tokens : List Token}
    {columns : List String} {rows : List (List Expr)}
    (hnames : Takes (fun next => next = some (.sign ")"))
      (Reader.commaSeparated Reader.name) names columns)
    (hrows : Takes follow
      (Reader.commaSeparated
        (Reader.parenthesized (Reader.commaSeparated Expr.read))) tokens rows) :
    Takes follow Command.readStatement
      (.word "INSERT" :: .word "INTO" :: token ::
        (group names ++ .word "VALUES" :: tokens))
      (.insert table (.values (some columns) rows)) := by
  have hselect : NotWord "select" (some (.word "INSERT")) := by decide
  have hdefault : NotWord "default" (some (.word "VALUES")) := by decide
  have hgroup : Takes (fun _ => True)
      (some <$> Reader.parenthesized (Reader.commaSeparated Reader.name))
      (group names) (some columns) :=
    (Takes.parenthesized hnames).map some
  have hcommand := hrows.map fun rows =>
    Command.insert table (.values (some columns) rows)
  rw [map_eq_pure_bind] at hcommand
  unfold Command.readStatement
  apply Takes.notWord _ (fun _ _ => hselect)
  apply Takes.tryWord (by decide)
  unfold Command.readInsert
  apply Takes.word (by decide)
  apply Takes.name htable
  dsimp only
  apply Takes.atSign
  apply Takes.bind hgroup
  · apply Takes.notWord _ (fun _ _ => hdefault)
    exact Takes.word (by decide) hcommand
  · intro _ _
    trivial

theorem takes_insert {table : String} (htable : isReserved table = false)
    {columns : List String} (hne : columns ≠ [])
    (hcolumns : forall column, column ∈ columns ->
      isReserved column = false) :
    Takes (NotSign ",") Command.readStatement (insertTokens table columns)
      (.insert table
        (.values (some columns) [placeholderRow columns.length])) := by
  have hnames := (takes_names hne hcolumns).weaken
    (fun _ hnext => (endsItem_closing hnext).right)
  have hrows : Takes (NotSign ",")
      (Reader.commaSeparated
        (Reader.parenthesized (Reader.commaSeparated Expr.read)))
      (group (separated ((List.range columns.length).map fun index =>
        [.placeholder index])))
      [placeholderRow columns.length] := by
    have hcount : columns.length ≠ 0 := by
      simpa using hne
    have hrow : Takes (fun _ => True) _ _ _ := takes_placeholders hcount
    exact (takes_single trivial hrow).weaken (fun _ hnext => ⟨trivial, hnext⟩)
  exact takes_insertion (NameToken.word htable) hnames hrows

theorem takes_defaultInsertion {follow : Follow} {token : Token}
    {table : String} (htable : NameToken token table) :
    Takes follow Command.readStatement
      [.word "INSERT", .word "INTO", token, .word "DEFAULT", .word "VALUES"]
      (.insert table .defaults) := by
  have hselect : NotWord "select" (some (.word "INSERT")) := by decide
  have hsign : NotSign "(" (some (.word "DEFAULT")) := by decide
  unfold Command.readStatement
  apply Takes.notWord _ (fun _ _ => hselect)
  apply Takes.tryWord (by decide)
  unfold Command.readInsert
  apply Takes.word (by decide)
  apply Takes.name htable
  dsimp only
  apply Takes.notAtSign _ (fun _ _ => hsign)
  apply Takes.tryWord (by decide)
  exact Takes.word (by decide) (Takes.pure _)

theorem takes_insertDefaults {follow : Follow} {table : String}
    (htable : isReserved table = false) :
    Takes follow Command.readStatement (insertDefaultsTokens table)
      (.insert table .defaults) :=
  takes_defaultInsertion (NameToken.word htable)

theorem takes_assignments {columns : List String} (hne : columns ≠ [])
    (hcolumns : forall column, column ∈ columns ->
      isReserved column = false) :
    Takes (fun next => EndsExpr next ∧ NotSign "," next)
      (Reader.commaSeparated Command.readAssignment)
      (separated (columns.zipIdx.map fun entry =>
        [.word entry.1, .sign "=", .placeholder entry.2]))
      (placeholderAssignments columns) := by
  apply takes_commaSeparated (by decide)
  · intro entry hmem
    have hcolumn := hcolumns entry.1 (List.fst_mem_of_mem_zipIdx hmem)
    exact takes_assignment hcolumn entry.2
  · simpa using hne

theorem takes_change {token : Token} {table : String}
    (htable : NameToken token table) {tokens condition : List Token}
    {assignments : List (String × Expr)} {condition? : Option Expr}
    (hassignments : Takes (fun next => EndsExpr next ∧ NotSign "," next)
      (Reader.commaSeparated Command.readAssignment) tokens assignments)
    (hcondition : ConditionTokens condition condition?) :
    Takes EndsCondition Command.readStatement
      (.word "UPDATE" :: token :: .word "SET" :: (tokens ++ condition))
      (.update table assignments condition?) := by
  have hselect : NotWord "select" (some (.word "UPDATE")) := by decide
  have hinsert : NotWord "insert" (some (.word "UPDATE")) := by decide
  have hcommand := (takes_condition hcondition).map fun condition? =>
    Command.update table assignments condition?
  rw [map_eq_pure_bind] at hcommand
  unfold Command.readStatement
  apply Takes.notWord _ (fun _ _ => hselect)
  apply Takes.notWord _ (fun _ _ => hinsert)
  apply Takes.tryWord (by decide)
  unfold Command.readUpdate
  apply Takes.name htable
  apply Takes.word (by decide)
  exact Takes.bind hassignments hcommand (fun _ => hcondition.endsItem)

theorem takes_update {table : String} (htable : isReserved table = false)
    {columns : List String} (hne : columns ≠ [])
    (hcolumns : forall column, column ∈ columns -> isReserved column = false)
    {condition : List Token} {condition? : Option Expr}
    (hcondition : ConditionTokens condition condition?) :
    Takes EndsCondition Command.readStatement
      (updateTokens table columns condition)
      (.update table (placeholderAssignments columns) condition?) :=
  takes_change (NameToken.word htable) (takes_assignments hne hcolumns)
    hcondition

theorem takes_delete {table : String} (htable : isReserved table = false)
    {condition : List Token} {condition? : Option Expr}
    (hcondition : ConditionTokens condition condition?) :
    Takes EndsCondition Command.readStatement (deleteTokens table condition)
      (.delete table condition?) := by
  have hselect : NotWord "select" (some (.word "DELETE")) := by decide
  have hinsert : NotWord "insert" (some (.word "DELETE")) := by decide
  have hupdate : NotWord "update" (some (.word "DELETE")) := by decide
  have hcommand := (takes_condition hcondition).map fun condition? =>
    Command.delete table condition?
  rw [map_eq_pure_bind] at hcommand
  unfold Command.readStatement deleteTokens
  apply Takes.notWord _ (fun _ _ => hselect)
  apply Takes.notWord _ (fun _ _ => hinsert)
  apply Takes.notWord _ (fun _ _ => hupdate)
  apply Takes.tryWord (by decide)
  unfold Command.readDelete
  apply Takes.word (by decide)
  exact Takes.name (NameToken.word htable) hcommand

/-- A text of the tokens of one statement is read as this statement. -/
theorem run_read_of_takes {follow : Follow} {tokens : List Token}
    {command : Command} (h : Takes follow Command.readStatement tokens command)
    {lexemes : List Lexeme} (hlexemes : Spells lexemes tokens)
    (hend : follow none) : Command.read.run lexemes = .ok (command, []) := by
  unfold Command.read
  rw [Reader.run_bind (h.run_all hlexemes hend)]
  rfl

end Sql
end TableStore
