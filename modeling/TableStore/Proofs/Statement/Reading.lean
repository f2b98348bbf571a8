import TableStore.Proofs.Predicate.Inline
import TableStore.Proofs.Sql.Queries
import TableStore.Proofs.Statement.Build

/-!
# Statements read back

The text of a statement scans to the tokens of one command.  Lists of columns
are scanned item by item, the condition as the clause of its filter, and the
placeholders are numbered from the first column of a row on.
-/

namespace TableStore
namespace Statement

open Fragment (EndsExpression)
open Predicate (LeavesRead)
open Sql (ConditionTokens Expr Scans Token)

/-!
# Pieces of text
-/

/-- What may stand behind a piece of text without prolonging its last token. -/
def EndsPiece (rest : List Char) : Prop :=
  forall c, rest.head? = some c -> c = ' ' ∨ c = ',' ∨ c = '(' ∨ c = ')'

theorem EndsPiece.endsWord {rest : List Char} (h : EndsPiece rest) :
    Sql.EndsWord rest := by
  intro c hc
  rcases h c hc with rfl | rfl | rfl | rfl <;> decide

theorem endsPiece_cons {c : Char}
    (h : c = ' ' ∨ c = ',' ∨ c = '(' ∨ c = ')') (rest : List Char) :
    EndsPiece (c :: rest) := by
  intro first hfirst
  cases hfirst
  exact h

theorem endsPiece_of_endsExpression {rest : List Char}
    (h : EndsExpression rest) : EndsPiece rest := by
  intro c hc
  rcases h c hc with heq | heq
  · exact .inl heq
  · exact .inr (.inr (.inr heq))

/--
A text that consists of tokens, whatever stands behind it; the placeholders in
it have the numbers from `start` up to `finish`.
-/
def Piece (start finish : Nat) (text : String) (tokens : List Token) : Prop :=
  forall (rest : List Char) (others : List Token), EndsPiece rest ->
    Scans finish rest others ->
    Scans start (text.toList ++ rest) (tokens ++ others)

/-- Pieces of text one after another. -/
inductive Pieces : Nat -> Nat -> List String -> List (List Token) -> Prop where
  | nil (start : Nat) : Pieces start start [] []
  | cons {start middle finish : Nat} {text : String} {texts : List String}
      {tokens : List Token} {others : List (List Token)} :
      Piece start middle text tokens -> Pieces middle finish texts others ->
      Pieces start finish (text :: texts) (tokens :: others)

theorem Pieces.join {start finish : Nat} {texts : List String}
    {tokens : List (List Token)} (h : Pieces start finish texts tokens)
    (hne : texts ≠ []) :
    Piece start finish (Text.join ", " texts) (Sql.separated tokens) := by
  induction h with
  | nil start => exact absurd rfl hne
  | cons hfirst hothers ih =>
      intro rest others hrest hscan
      cases hothers with
      | nil => exact hfirst rest others hrest hscan
      | cons hsecond hothers =>
          have hbehind := ih (List.cons_ne_nil _ _) rest others hrest hscan
          have hcomma := Scans.loneSign (c := ',') (by decide)
            (Scans.blank hbehind)
          have hall := hfirst _ _ (endsPiece_cons (by decide) _) hcomma
          rw [Text.join_cons_cons]
          simpa [Sql.separated] using hall

theorem piece_word (word : String)
    (hword : Sql.spellsWord word.toList = true) (start : Nat) :
    Piece start start word [.word word] := by
  intro rest others hrest hscan
  exact Scans.word hword hrest.endsWord hscan

theorem piece_name {name : String} (hname : Sql.isPlainName name = true)
    (start : Nat) : Piece start start name [.word name] := by
  rw [Sql.isPlainName, Bool.and_eq_true] at hname
  exact piece_word name hname.left start

theorem pieces_names (start : Nat) {names : List String}
    (hnames : forall name, name ∈ names -> Sql.isPlainName name = true) :
    Pieces start start names (names.map fun name => [.word name]) := by
  induction names with
  | nil => exact Pieces.nil start
  | cons name names ih =>
      rw [List.forall_mem_cons] at hnames
      exact Pieces.cons (piece_name hnames.left start) (ih hnames.right)

theorem pieces_marks (start : Nat) (columns : List String) :
    Pieces start (start + columns.length) (columns.map fun _ => "?")
      ((List.range' start columns.length).map fun index =>
        [.placeholder index]) := by
  induction columns generalizing start with
  | nil => exact Pieces.nil start
  | cons column columns ih =>
      have hmark : Piece start (start + 1) "?" [.placeholder start] :=
        fun _ _ _ hscan => Scans.placeholder hscan
      have hothers := ih (start + 1)
      rw [Nat.add_right_comm] at hothers
      exact Pieces.cons hmark hothers

theorem piece_assignment {column : String}
    (hcolumn : Sql.isPlainName column = true) (start : Nat) :
    Piece start (start + 1) (column ++ " = ?")
      [.word column, .sign "=", .placeholder start] := by
  intro rest others _ hscan
  have hsign := Scans.comparison .eq (Scans.placeholder hscan)
  have hname := piece_name hcolumn start _ _ (endsPiece_cons (by decide) _)
    (Scans.blank hsign)
  simpa [Comparison.symbol] using hname

theorem pieces_assignments (start : Nat) {columns : List String}
    (hcolumns : forall column, column ∈ columns ->
      Sql.isPlainName column = true) :
    Pieces start (start + columns.length)
      (columns.map fun column => column ++ " = ?")
      ((columns.zipIdx start).map fun entry =>
        [.word entry.1, .sign "=", .placeholder entry.2]) := by
  induction columns generalizing start with
  | nil => exact Pieces.nil start
  | cons column columns ih =>
      rw [List.forall_mem_cons] at hcolumns
      have hothers := ih (start + 1) hcolumns.right
      rw [Nat.add_right_comm] at hothers
      exact Pieces.cons (piece_assignment hcolumns.left start) hothers

theorem piece_ordering {order : OrderBy}
    (hcolumn : Sql.isPlainName order.column = true) (start : Nat) :
    Piece start start order.text
      [.word order.column, .word order.direction.word] := by
  intro rest others hrest hscan
  have hword : Sql.spellsWord order.direction.word.toList = true := by
    cases order.direction <;> decide
  have hdirection := piece_word _ hword start rest others hrest hscan
  have hname := piece_name hcolumn start _ _ (endsPiece_cons (by decide) _)
    (Scans.blank hdirection)
  simpa [OrderBy.text] using hname

theorem pieces_orderings (start : Nat) {orders : List OrderBy}
    (hcolumns : forall order, order ∈ orders ->
      Sql.isPlainName order.column = true) :
    Pieces start start (orders.map OrderBy.text)
      (orders.map fun order =>
        [.word order.column, .word order.direction.word]) := by
  induction orders with
  | nil => exact Pieces.nil start
  | cons order orders ih =>
      rw [List.forall_mem_cons] at hcolumns
      exact Pieces.cons (piece_ordering hcolumns.left start)
        (ih hcolumns.right)

/-!
# Filters
-/

/-- The expression of a filter; a filter without entries has none. -/
def conditionTree (leaf : Nat -> Value -> Expr) :
    Option Predicate -> Option Expr
  | none => none
  | some [] => none
  | some (entry :: rest) => some (Predicate.tree leaf (entry :: rest))

/-- The columns that a filter is about. -/
def filterColumns (filter? : Option Predicate) : List String :=
  filter?.elim [] Predicate.columns

/-- The operands of a filter. -/
def filterOperands (filter? : Option Predicate) : List Value :=
  filter?.elim [] Predicate.operands

theorem endsExpression_condition (mode : Rendering)
    (filter? : Option Predicate) {rest : List Char}
    (hrest : EndsExpression rest) :
    EndsExpression ((condition mode filter?).text.toList ++ rest) := by
  have habsent : EndsExpression ("".toList ++ rest) := hrest
  rcases filter? with _ | _ | ⟨entry, others⟩
  · exact habsent
  · exact habsent
  · simpa [condition, Fragment.wrap] using Fragment.endsExpression_blank _

theorem scans_condition {before : Nat} {mode : Rendering}
    {leaf : Nat -> Value -> Expr} {filter? : Option Predicate}
    (hfound : filterViolations filter? = [])
    (hnames : forall column, column ∈ filterColumns filter? ->
      Sql.isPlainName column = true)
    (hleaves : LeavesRead before mode leaf (filterOperands filter?)) :
    exists tokens, ConditionTokens tokens (conditionTree leaf filter?) ∧
      forall (rest : List Char) (others : List Token), EndsExpression rest ->
        Scans (before + (condition mode filter?).params.length) rest others ->
        Scans before ((condition mode filter?).text.toList ++ rest)
          (tokens ++ others) := by
  rcases filter? with _ | _ | ⟨entry, others⟩
  · exact ⟨[], .absent, fun _ _ _ hscan => hscan⟩
  · exact ⟨[], .absent, fun _ _ _ hscan => hscan⟩
  · have hread := Predicate.reads_rendered hfound (List.cons_ne_nil _ _)
      hnames hleaves
    rcases hread with ⟨tokens, hphrase, hscans⟩
    have hstart : before + Predicate.placeholdersBefore mode 0 = before := by
      cases mode <;> rfl
    rw [hstart] at hscans
    refine ⟨_, .given (hphrase.weaken (Nat.zero_le _)), ?_⟩
    intro rest behind hrest hscan
    have hclause := Scans.blank (hscans rest behind hrest hscan)
    have hword := piece_word "WHERE" (by decide) before _ _
      (endsPiece_cons (by decide) _) hclause
    simpa [condition, Fragment.wrap] using Scans.blank hword

/-!
# Orderings and limits
-/

theorem endsExpression_limit (limit? : Option UInt64) {rest : List Char}
    (hrest : EndsExpression rest) :
    EndsExpression ((limitClause limit?).toList ++ rest) := by
  cases limit? with
  | none => exact hrest
  | some limit =>
      simpa [limitClause] using Fragment.endsExpression_blank _

theorem endsExpression_tail (options : Options) {rest : List Char}
    (hrest : EndsExpression rest) :
    EndsExpression ((tail options).toList ++ rest) := by
  rcases options with ⟨columns?, filter?, orders, limit?⟩
  cases orders with
  | cons order orders =>
      simpa [tail, orderClause] using Fragment.endsExpression_blank _
  | nil => simpa [tail, orderClause] using endsExpression_limit limit? hrest

theorem scans_limit (start : Nat) (limit? : Option UInt64)
    {rest : List Char} {others : List Token} (hrest : EndsExpression rest)
    (hscan : Scans start rest others) :
    Scans start ((limitClause limit?).toList ++ rest)
      (Sql.limitTokens (limit?.map UInt64.toNat) ++ others) := by
  cases limit? with
  | none => exact hscan
  | some limit =>
      have hnumber := Scans.integer (Decimal.digits_ne_nil limit.toNat)
        (Decimal.all_isDigit_digits limit.toNat)
        (Predicate.endsNumber_of_endsExpression hrest) hscan
      rw [Decimal.ofDigits_digits] at hnumber
      have hword := piece_word "LIMIT" (by decide) start _ _
        (endsPiece_cons (by decide) _) (Scans.blank hnumber)
      simpa [limitClause, Decimal.natText, Sql.limitTokens] using
        Scans.blank hword

theorem scans_tail (start : Nat) {options : Options}
    (hcolumns : forall order, order ∈ options.orderBy ->
      Sql.isPlainName order.column = true)
    {rest : List Char} {others : List Token} (hrest : EndsExpression rest)
    (hscan : Scans start rest others) :
    Scans start ((tail options).toList ++ rest)
      (Sql.orderTokens options.orderBy ++
        Sql.limitTokens (options.limit?.map UInt64.toNat) ++ others) := by
  rcases options with ⟨columns?, filter?, orders, limit?⟩
  have hlimit := scans_limit start limit? hrest hscan
  cases orders with
  | nil => simpa [tail, orderClause, Sql.orderTokens] using hlimit
  | cons order orders =>
      have hpiece := endsPiece_of_endsExpression
        (endsExpression_limit limit? hrest)
      have hlist := (pieces_orderings start hcolumns).join
        (List.cons_ne_nil _ _) _ _ hpiece hlimit
      have hby := piece_word "BY" (by decide) start _ _
        (endsPiece_cons (by decide) _) (Scans.blank hlist)
      have horder := piece_word "ORDER" (by decide) start _ _
        (endsPiece_cons (by decide) _) (Scans.blank hby)
      simpa [tail, orderClause, Sql.orderTokens] using Scans.blank horder

/-!
# Whole statements
-/

/-- A fragment that consists of tokens, with its placeholders counted from zero. -/
def Scanned (fragment : Fragment) (tokens : List Token) : Prop :=
  forall (rest : List Char) (others : List Token), EndsExpression rest ->
    Scans fragment.params.length rest others ->
    Scans 0 (fragment.text.toList ++ rest) (tokens ++ others)

theorem Scanned.tokens_eq {fragment : Fragment} {tokens : List Token}
    (h : Scanned fragment tokens) :
    (Sql.scan fragment.text).map Sql.Lexeme.token = tokens := by
  have hscan := h [] [] Fragment.endsExpression_nil (Scans.done _)
  rw [List.append_nil, List.append_nil] at hscan
  exact Sql.map_token_scan hscan

theorem Scanned.spells {fragment : Fragment} {tokens : List Token}
    (h : Scanned fragment tokens) :
    Sql.Spells (Sql.scan fragment.text) tokens := by
  rw [<- h.tokens_eq]
  exact Sql.spells_scan fragment.text

theorem Scanned.placeholders_eq {fragment : Fragment} {tokens : List Token}
    (h : Scanned fragment tokens) :
    Sql.placeholders tokens = List.range fragment.params.length := by
  have hmark := Scans.blank
    (Scans.placeholder (Scans.done (fragment.params.length + 1)))
  have hnext := h _ _ (Fragment.endsExpression_blank _) hmark
  rw [hnext.placeholders_of_next, Nat.sub_zero, List.range_eq_range']

theorem scanned_insert {table : String}
    (htable : Sql.isPlainName table = true) {row : Row}
    (hne : row.columns ≠ [])
    (hcolumns : forall column, column ∈ row.columns ->
      Sql.isPlainName column = true) :
    Scanned (insert table row) (Sql.insertTokens table row.columns) := by
  intro rest others hrest hscan
  have hsome : ¬ row.isEmpty = true := by
    rw [Row.isEmpty, List.isEmpty_iff]
    intro hcells
    exact hne (by rw [Row.columns, hcells]; rfl)
  have hmarks : row.columns.map (fun _ => "?") ≠ [] := by
    simpa using hne
  have hlength : (insert table row).params.length =
      0 + row.columns.length := by
    rw [params_insert, Row.length_values, Nat.zero_add]
  rw [hlength] at hscan
  -- The text is scanned from its end, each piece in front of what is scanned already.
  have hclosing := Scans.loneSign (c := ')') (by decide) hscan
  have hvalues := (pieces_marks 0 row.columns).join hmarks _ _
    (endsPiece_cons (by decide) _) hclosing
  have hopening := Scans.loneSign (c := '(') (by decide) hvalues
  have hword := piece_word "VALUES" (by decide) 0 _ _
    (endsPiece_cons (by decide) _) (Scans.blank hopening)
  have hbehind := Scans.loneSign (c := ')') (by decide) (Scans.blank hword)
  have hnames := (pieces_names 0 hcolumns).join hne _ _
    (endsPiece_cons (by decide) _) hbehind
  have hgroup := Scans.loneSign (c := '(') (by decide) hnames
  have hname := piece_name htable 0 _ _ (endsPiece_cons (by decide) _)
    (Scans.blank hgroup)
  have hinto := piece_word "INTO" (by decide) 0 _ _
    (endsPiece_cons (by decide) _) (Scans.blank hname)
  have hinsert := piece_word "INSERT" (by decide) 0 _ _
    (endsPiece_cons (by decide) _) (Scans.blank hinto)
  rw [insert, if_neg hsome]
  simpa [Sql.insertTokens, Sql.group, Sql.nameTokens, List.range_eq_range']
    using hinsert

theorem scanned_insertDefaults {table : String}
    (htable : Sql.isPlainName table = true) {row : Row}
    (hempty : row.isEmpty = true) :
    Scanned (insert table row) (Sql.insertDefaultsTokens table) := by
  intro rest others hrest hscan
  rw [insert, if_pos hempty] at hscan ⊢
  have hvalues := piece_word "VALUES" (by decide) 0 _ _
    (endsPiece_of_endsExpression hrest) hscan
  have hdefault := piece_word "DEFAULT" (by decide) 0 _ _
    (endsPiece_cons (by decide) _) (Scans.blank hvalues)
  have hname := piece_name htable 0 _ _ (endsPiece_cons (by decide) _)
    (Scans.blank hdefault)
  have hinto := piece_word "INTO" (by decide) 0 _ _
    (endsPiece_cons (by decide) _) (Scans.blank hname)
  have hinsert := piece_word "INSERT" (by decide) 0 _ _
    (endsPiece_cons (by decide) _) (Scans.blank hinto)
  simpa [Sql.insertDefaultsTokens] using hinsert

theorem scanned_updateBase {table : String}
    (htable : Sql.isPlainName table = true) {changes : Row}
    (hne : changes.columns ≠ [])
    (hcolumns : forall column, column ∈ changes.columns ->
      Sql.isPlainName column = true) :
    Scanned (updateBase table changes)
      (Sql.updateTokens table changes.columns []) := by
  intro rest others hrest hscan
  have hassignments : changes.columns.map (fun column => column ++ " = ?") ≠
      [] := by
    simpa using hne
  have hlength : (updateBase table changes).params.length =
      0 + changes.columns.length := by
    rw [updateBase, Row.length_values, Nat.zero_add]
  rw [hlength] at hscan
  have hlist := (pieces_assignments 0 hcolumns).join hassignments _ _
    (endsPiece_of_endsExpression hrest) hscan
  have hset := piece_word "SET" (by decide) 0 _ _
    (endsPiece_cons (by decide) _) (Scans.blank hlist)
  have hname := piece_name htable 0 _ _ (endsPiece_cons (by decide) _)
    (Scans.blank hset)
  have hupdate := piece_word "UPDATE" (by decide) 0 _ _
    (endsPiece_cons (by decide) _) (Scans.blank hname)
  simpa [updateBase, assignments, Sql.updateTokens] using hupdate

theorem scanned_deleteBase {table : String}
    (htable : Sql.isPlainName table = true) :
    Scanned (deleteBase table) (Sql.deleteTokens table []) := by
  intro rest others hrest hscan
  have hname := piece_name htable 0 _ _ (endsPiece_of_endsExpression hrest)
    hscan
  have hfrom := piece_word "FROM" (by decide) 0 _ _
    (endsPiece_cons (by decide) _) (Scans.blank hname)
  have hdelete := piece_word "DELETE" (by decide) 0 _ _
    (endsPiece_cons (by decide) _) (Scans.blank hfrom)
  simpa [deleteBase, Sql.deleteTokens] using hdelete

theorem scanned_query {text table : String} {tokens : List Token}
    (htext : Piece 0 0 text tokens)
    (htable : Sql.isPlainName table = true) :
    Scanned (.ofText ("SELECT " ++ text ++ " FROM " ++ table))
      (.word "SELECT" :: (tokens ++ Sql.sourceTokens table [] [] none)) := by
  intro rest others hrest hscan
  have hname := piece_name htable 0 _ _ (endsPiece_of_endsExpression hrest)
    hscan
  have hfrom := piece_word "FROM" (by decide) 0 _ _
    (endsPiece_cons (by decide) _) (Scans.blank hname)
  have hprojection := htext _ _ (endsPiece_cons (by decide) _)
    (Scans.blank hfrom)
  have hselect := piece_word "SELECT" (by decide) 0 _ _
    (endsPiece_cons (by decide) _) (Scans.blank hprojection)
  simpa [Sql.sourceTokens, Sql.orderTokens, Sql.limitTokens] using hselect

theorem queryTokens_append (table : String) (tokens clause : List Token) :
    .word "SELECT" :: (tokens ++ Sql.sourceTokens table [] [] none) ++ clause =
      .word "SELECT" :: (tokens ++ .word "FROM" :: .word table :: clause) := by
  simp [Sql.sourceTokens, Sql.orderTokens, Sql.limitTokens]

/-- The tokens of the columns that a query names. -/
def projectionTokens : Option (List String) -> List Token
  | none => [.sign "*"]
  | some [] => [.sign "*"]
  | some (column :: columns) => Sql.nameTokens (column :: columns)

/-- What a query that names columns returns. -/
def projectionOf : Option (List String) -> Sql.Projection
  | none => .rows [.all]
  | some [] => .rows [.all]
  | some (column :: columns) =>
      .rows ((column :: columns).map fun name => .value (.column none name) name)

theorem piece_projection {columns? : Option (List String)}
    (hcolumns : forall columns, columns? = some columns ->
      forall column, column ∈ columns -> Sql.isPlainName column = true) :
    Piece 0 0 (projection columns?) (projectionTokens columns?) := by
  have hstar : Piece 0 0 "*" [.sign "*"] :=
    fun _ _ _ hscan => Scans.loneSign (by decide) hscan
  rcases columns? with _ | _ | ⟨column, columns⟩
  · exact hstar
  · exact hstar
  · exact (pieces_names 0 (hcolumns _ rfl)).join (List.cons_ne_nil _ _)

theorem piece_aggregate {computed : Aggregate}
    (hcolumn : forall column, computed = .sum column ->
      Sql.isPlainName column = true) :
    Piece 0 0 computed.text (Sql.aggregateTokens computed) := by
  intro rest others hrest hscan
  have hclosing := Scans.loneSign (c := ')') (by decide) hscan
  cases computed with
  | sum column =>
      have hname := piece_name (hcolumn column rfl) 0 _ _
        (endsPiece_cons (by decide) _) hclosing
      have hopening := Scans.loneSign (c := '(') (by decide) hname
      have hword := piece_word "SUM" (by decide) 0 _ _
        (endsPiece_cons (by decide) _) hopening
      simpa [Aggregate.text, Sql.aggregateTokens, Sql.group] using hword
  | count =>
      have hstar := Scans.loneSign (c := '*') (by decide) hclosing
      have hopening := Scans.loneSign (c := '(') (by decide) hstar
      have hword := piece_word "COUNT" (by decide) 0 _ _
        (endsPiece_cons (by decide) _) hopening
      simpa [Aggregate.text, Sql.aggregateTokens, Sql.group] using hword

theorem Scanned.filtered {base : Fragment} {tokens : List Token}
    (h : Scanned base tokens) {mode : Rendering}
    {leaf : Nat -> Value -> Expr} {filter? : Option Predicate}
    (hfound : filterViolations filter? = [])
    (hnames : forall column, column ∈ filterColumns filter? ->
      Sql.isPlainName column = true)
    (hleaves : LeavesRead base.params.length mode leaf
      (filterOperands filter?)) :
    exists clause, ConditionTokens clause (conditionTree leaf filter?) ∧
      Scanned (base ++ condition mode filter?) (tokens ++ clause) := by
  rcases scans_condition hfound hnames hleaves with ⟨clause, hclause, hscans⟩
  refine ⟨clause, hclause, ?_⟩
  intro rest others hrest hscan
  rw [Fragment.params_append, List.length_append] at hscan
  have hall := h _ _ (endsExpression_condition mode filter? hrest)
    (hscans rest others hrest hscan)
  simpa using hall

theorem Scanned.tail {base : Fragment} {tokens : List Token}
    (h : Scanned base tokens) {options : Options}
    (hcolumns : forall order, order ∈ options.orderBy ->
      Sql.isPlainName order.column = true) :
    Scanned (base ++ .ofText (tail options))
      (tokens ++ (Sql.orderTokens options.orderBy ++
        Sql.limitTokens (options.limit?.map UInt64.toNat))) := by
  intro rest others hrest hscan
  have hlength : (base ++ Fragment.ofText (Statement.tail options)).params =
      base.params := by
    simp
  rw [hlength] at hscan
  have hall := h _ _ (endsExpression_tail options hrest)
    (scans_tail _ hcolumns hrest hscan)
  simpa using hall

/-!
# Commands
-/

theorem not_isReserved {name : String} (h : Sql.isPlainName name = true) :
    Sql.isReserved name = false := by
  rw [Sql.isPlainName, Bool.and_eq_true, Bool.not_eq_true'] at h
  exact h.right

theorem spellsWord_of_isPlainName {name : String}
    (h : Sql.isPlainName name = true) : Sql.spellsWord name.toList = true := by
  rw [Sql.isPlainName, Bool.and_eq_true] at h
  exact h.left

theorem not_isReserved_of_mem {names : List String}
    (h : forall name, name ∈ names -> Sql.isPlainName name = true) :
    forall name, name ∈ names -> Sql.isReserved name = false :=
  fun name hmem => not_isReserved (h name hmem)

theorem Scanned.run_read {fragment : Fragment} {tokens : List Token}
    (h : Scanned fragment tokens) {follow : Sql.Follow}
    {command : Sql.Command}
    (htakes : Sql.Takes follow Sql.Command.readStatement tokens command)
    (hend : follow none) :
    Sql.Command.read.run (Sql.scan fragment.text) = .ok (command, []) :=
  Sql.run_read_of_takes htakes h.spells hend

/-- An insertion gives every column the placeholder of its own number. -/
theorem read_insert {table : String} (htable : Sql.isPlainName table = true)
    {row : Row} (hne : row.columns ≠ [])
    (hcolumns : forall column, column ∈ row.columns ->
      Sql.isPlainName column = true) :
    Sql.Command.read.run (Sql.scan (insert table row).text) =
      .ok (.insert table (.values (some row.columns)
        [Sql.placeholderRow row.columns.length]), []) :=
  (scanned_insert htable hne hcolumns).run_read
    (Sql.takes_insert (not_isReserved htable) hne
      (not_isReserved_of_mem hcolumns))
    (fun heq => nomatch heq)

/-- The rows of values that the insertion of a row consists of. -/
def sourceOf (row : Row) : Sql.NewRows :=
  if row.isEmpty then .defaults
  else .values (some row.columns) [Sql.placeholderRow row.columns.length]

/-- A row without columns is inserted as well: it is one of defaults. -/
theorem read_insert_sourceOf {table : String}
    (htable : Sql.isPlainName table = true) {row : Row}
    (hcolumns : forall column, column ∈ row.columns ->
      Sql.isPlainName column = true) :
    Sql.Command.read.run (Sql.scan (insert table row).text) =
      .ok (.insert table (sourceOf row), []) := by
  rw [sourceOf]
  split
  · rename_i hempty
    have htakes := @Sql.takes_insertDefaults (fun _ => True) table
      (not_isReserved htable)
    exact (scanned_insertDefaults htable hempty).run_read htakes trivial
  · rename_i hsome
    apply read_insert htable _ hcolumns
    intro hnone
    apply hsome
    rw [Row.columns, Keyed.keys, List.map_eq_nil_iff] at hnone
    rw [Row.isEmpty, hnone]
    rfl

section Filtered

variable {mode : Rendering} {leaf : Nat -> Value -> Expr} {table : String}

theorem read_delete (htable : Sql.isPlainName table = true)
    {filter? : Option Predicate} (hfound : filterViolations filter? = [])
    (hnames : forall column, column ∈ filterColumns filter? ->
      Sql.isPlainName column = true)
    (hleaves : LeavesRead 0 mode leaf (filterOperands filter?)) :
    Sql.Command.read.run
        (Sql.scan (deleteBase table ++ condition mode filter?).text) =
      .ok (.delete table (conditionTree leaf filter?), []) := by
  rcases (scanned_deleteBase htable).filtered hfound hnames hleaves with
    ⟨clause, hclause, hscanned⟩
  exact hscanned.run_read (Sql.takes_delete (not_isReserved htable) hclause)
    (.inl rfl)

theorem scanned_update (htable : Sql.isPlainName table = true)
    {changes : Row} (hne : changes.columns ≠ [])
    (hcolumns : forall column, column ∈ changes.columns ->
      Sql.isPlainName column = true)
    {options : Options} (hfound : filterViolations options.filter? = [])
    (hnames : forall column, column ∈ filterColumns options.filter? ->
      Sql.isPlainName column = true)
    (horders : forall order, order ∈ options.orderBy ->
      Sql.isPlainName order.column = true)
    (hleaves : LeavesRead changes.columns.length mode leaf
      (filterOperands options.filter?)) :
    exists clause,
      ConditionTokens clause (conditionTree leaf options.filter?) ∧
      Scanned
        (updateBase table changes ++ condition mode options.filter? ++
          .ofText (tail options))
        (Sql.updateTokens table changes.columns clause ++
          (Sql.orderTokens options.orderBy ++
            Sql.limitTokens (options.limit?.map UInt64.toNat))) := by
  have hlength : (updateBase table changes).params.length =
      changes.columns.length :=
    Row.length_values changes
  rw [<- hlength] at hleaves
  rcases (scanned_updateBase htable hne hcolumns).filtered hfound hnames
    hleaves with ⟨clause, hclause, hscanned⟩
  have htokens : Sql.updateTokens table changes.columns [] ++ clause =
      Sql.updateTokens table changes.columns clause := by
    simp [Sql.updateTokens]
  rw [htokens] at hscanned
  exact ⟨clause, hclause, hscanned.tail horders⟩

/--
An update gives every column the placeholder of its own number, and goes on with
its filter.  Orderings and a limit are left over.
-/
theorem read_update (htable : Sql.isPlainName table = true) {changes : Row}
    (hne : changes.columns ≠ [])
    (hcolumns : forall column, column ∈ changes.columns ->
      Sql.isPlainName column = true)
    {options : Options} (hfound : filterViolations options.filter? = [])
    (hnames : forall column, column ∈ filterColumns options.filter? ->
      Sql.isPlainName column = true)
    (horders : forall order, order ∈ options.orderBy ->
      Sql.isPlainName order.column = true)
    (hleaves : LeavesRead changes.columns.length mode leaf
      (filterOperands options.filter?)) :
    exists rest,
      Sql.Spells rest (Sql.orderTokens options.orderBy ++
        Sql.limitTokens (options.limit?.map UInt64.toNat)) ∧
      Sql.Command.readStatement.run
          (Sql.scan (updateBase table changes ++
            condition mode options.filter? ++ .ofText (tail options)).text) =
        .ok (.update table (Sql.placeholderAssignments changes.columns)
          (conditionTree leaf options.filter?), rest) := by
  rcases scanned_update htable hne hcolumns hfound hnames horders hleaves with
    ⟨clause, hclause, hscanned⟩
  rcases hscanned.spells.eq_append with ⟨before, rest, hsplit, hbefore, hrest⟩
  have hfollow := Sql.endsCondition_tail options.orderBy
    (options.limit?.map UInt64.toNat) (Eq.refl none)
  refine ⟨rest, hrest, ?_⟩
  rw [hsplit]
  apply Sql.takes_update (not_isReserved htable) hne
    (not_isReserved_of_mem hcolumns) hclause _ _ hbefore
  rw [Option.or_none] at hfollow
  rw [hrest.next?_eq]
  exact hfollow

theorem takes_projection {columns? : Option (List String)}
    (hcolumns : forall columns, columns? = some columns ->
      forall column, column ∈ columns -> Sql.isPlainName column = true) :
    Sql.Takes (fun next => next = some (.word "FROM"))
      Sql.Command.readProjection (projectionTokens columns?)
      (projectionOf columns?) := by
  have hstar : Sql.Takes (fun next => next = some (.word "FROM"))
      Sql.Command.readProjection [.sign "*"] (.rows [.all]) := by
    apply Sql.takes_star.weaken
    intro next heq
    rw [heq]
    decide
  rcases columns? with _ | _ | ⟨column, columns⟩
  · exact hstar
  · exact hstar
  · exact Sql.takes_columns (List.cons_ne_nil _ _)
      (not_isReserved_of_mem (hcolumns _ rfl))

theorem scanned_select (htable : Sql.isPlainName table = true)
    {options : Options}
    (hprojection : forall columns, options.columns? = some columns ->
      forall column, column ∈ columns -> Sql.isPlainName column = true)
    (hfound : filterViolations options.filter? = [])
    (hnames : forall column, column ∈ filterColumns options.filter? ->
      Sql.isPlainName column = true)
    (horders : forall order, order ∈ options.orderBy ->
      Sql.isPlainName order.column = true)
    (hleaves : LeavesRead 0 mode leaf (filterOperands options.filter?)) :
    exists clause,
      ConditionTokens clause (conditionTree leaf options.filter?) ∧
      Scanned
        (selectBase table options.columns? ++
          condition mode options.filter? ++ .ofText (tail options))
        (.word "SELECT" :: (projectionTokens options.columns? ++
          Sql.sourceTokens table clause options.orderBy
            (options.limit?.map UInt64.toNat))) := by
  have hbase := scanned_query (piece_projection hprojection) htable
  rcases hbase.filtered hfound hnames hleaves with ⟨clause, hclause, hscanned⟩
  have hall := hscanned.tail horders
  rw [queryTokens_append, List.cons_append, List.append_assoc,
    List.cons_append, List.cons_append] at hall
  exact ⟨clause, hclause, hall⟩

theorem read_select (htable : Sql.isPlainName table = true)
    {options : Options}
    (hprojection : forall columns, options.columns? = some columns ->
      forall column, column ∈ columns -> Sql.isPlainName column = true)
    (hfound : filterViolations options.filter? = [])
    (hnames : forall column, column ∈ filterColumns options.filter? ->
      Sql.isPlainName column = true)
    (horders : forall order, order ∈ options.orderBy ->
      Sql.isPlainName order.column = true)
    (hleaves : LeavesRead 0 mode leaf (filterOperands options.filter?)) :
    Sql.Command.read.run
        (Sql.scan (selectBase table options.columns? ++
          condition mode options.filter? ++ .ofText (tail options)).text) =
      .ok (.select (Sql.sourceQuery (projectionOf options.columns?) table
        (conditionTree leaf options.filter?) options.orderBy
        (options.limit?.map UInt64.toNat)), []) := by
  rcases scanned_select htable hprojection hfound hnames horders hleaves with
    ⟨clause, hclause, hscanned⟩
  have hsource := Sql.takes_source (projectionOf options.columns?)
    (not_isReserved htable) hclause
    (fun order hmem => not_isReserved (horders order hmem))
    (options.limit?.map UInt64.toNat)
  exact hscanned.run_read
    (Sql.takes_select (takes_projection hprojection) hsource) rfl

theorem read_aggregate (htable : Sql.isPlainName table = true)
    {computed : Aggregate}
    (hcolumn : forall column, computed = .sum column ->
      Sql.isPlainName column = true)
    {filter? : Option Predicate} (hfound : filterViolations filter? = [])
    (hnames : forall column, column ∈ filterColumns filter? ->
      Sql.isPlainName column = true)
    (hleaves : LeavesRead 0 mode leaf (filterOperands filter?)) :
    exists name,
      Sql.Command.read.run
          (Sql.scan (aggregateBase table computed ++
            condition mode filter?).text) =
        .ok (.select (Sql.sourceQuery (Sql.aggregateProjection name computed)
          table (conditionTree leaf filter?) [] none), []) := by
  have hbase := scanned_query (piece_aggregate hcolumn) htable
  rcases hbase.filtered hfound hnames hleaves with ⟨clause, hclause, hscanned⟩
  have hsource : Sql.sourceTokens table clause [] none =
      .word "FROM" :: .word table :: clause := by
    simp [Sql.sourceTokens, Sql.orderTokens, Sql.limitTokens]
  rw [queryTokens_append, <- hsource] at hscanned
  rcases Sql.run_select_aggregate computed
    (fun column heq => not_isReserved (hcolumn column heq))
    (not_isReserved htable) hclause hscanned.spells with ⟨name, hrun⟩
  exists name
  unfold Sql.Command.read
  rw [aggregateBase, Sql.Reader.run_bind hrun]
  rfl

end Filtered

end Statement
end TableStore
