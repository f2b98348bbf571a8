import TableStore.Proofs.Statement.Creation

/-!
# The grammar of statements that write

Which tokens insert rows, update rows or create a table, and which command they are,
said without a reader and without the statements that are built.  Keywords stand in
capitals.  A list between commas has at least one item.
-/

namespace TableStore
namespace Sql

section Lists

variable {α β : Type} {phrase : List Token -> β -> Prop}

/-!
# Lists of phrases
-/

inductive Listed (phrase : List Token -> β -> Prop) :
    List Token -> List β -> Prop where
  | last {tokens : List Token} {result : β} :
      phrase tokens result -> Listed phrase tokens [result]
  | before {tokens others : List Token} {result : β} {results : List β} :
      phrase tokens result -> Listed phrase others results ->
      Listed phrase (tokens ++ .sign "," :: others) (result :: results)

inductive Repeated (phrase : List Token -> β -> Prop) :
    List Token -> List β -> Prop where
  | none : Repeated phrase [] []
  | before {tokens others : List Token} {result : β} {results : List β} :
      phrase tokens result -> Repeated phrase others results ->
      Repeated phrase (tokens ++ others) (result :: results)

theorem listed_separated {tokens : α -> List Token} {result : α -> β} :
    forall {items : List α}, items ≠ [] ->
      (forall item, item ∈ items -> phrase (tokens item) (result item)) ->
      Listed phrase (separated (items.map tokens)) (items.map result)
  | [], hne, _ => absurd rfl hne
  | [item], _, hitems => .last (hitems item List.mem_cons_self)
  | item :: next :: rest, _, hitems => by
      rw [List.forall_mem_cons] at hitems
      exact .before hitems.left
        (listed_separated (List.cons_ne_nil next rest) hitems.right)

/-- A list of phrases consists of items with their tokens and their results. -/
theorem Listed.exists_items {tokens : List Token} {results : List β}
    (h : Listed phrase tokens results) :
    exists items : List (List Token × β), items ≠ [] ∧
      (forall item, item ∈ items -> phrase item.1 item.2) ∧
      separated (items.map Prod.fst) = tokens ∧ items.map Prod.snd = results := by
  induction h with
  | @last tokens result hphrase =>
      refine ⟨[(tokens, result)], List.cons_ne_nil _ _, ?_, rfl, rfl⟩
      intro item hmem
      rw [List.mem_singleton.mp hmem]
      exact hphrase
  | @before tokens others result results hphrase _ ih =>
      rcases ih with ⟨items, hne, hitems, rfl, rfl⟩
      -- At least one item follows, so the comma stands between two.
      refine ⟨(tokens, result) :: items, List.cons_ne_nil _ _, ?_, ?_, rfl⟩
      · rw [List.forall_mem_cons]
        exact ⟨hphrase, hitems⟩
      · cases items with
        | nil => exact absurd rfl hne
        | cons next rest => rfl

theorem repeated_flatMap {tokens : α -> List Token} {result : α -> β}
    {items : List α}
    (hitems : forall item, item ∈ items -> phrase (tokens item) (result item)) :
    Repeated phrase (items.flatMap tokens) (items.map result) := by
  induction items with
  | nil => exact .none
  | cons item items ih =>
      rw [List.forall_mem_cons] at hitems
      exact .before hitems.left (ih hitems.right)

theorem Repeated.exists_items {tokens : List Token} {results : List β}
    (h : Repeated phrase tokens results) :
    exists items : List (List Token × β),
      (forall item, item ∈ items -> phrase item.1 item.2) ∧
      items.flatMap Prod.fst = tokens ∧ items.map Prod.snd = results := by
  induction h with
  | none => exact ⟨[], List.forall_mem_nil _, rfl, rfl⟩
  | @before tokens others result results hphrase _ ih =>
      rcases ih with ⟨items, hitems, rfl, rfl⟩
      refine ⟨(tokens, result) :: items, ?_, rfl, rfl⟩
      rw [List.forall_mem_cons]
      exact ⟨hphrase, hitems⟩

/-- A reader that takes each phrase takes a list of them. -/
theorem Listed.takes {before : Follow} {part : Reader β}
    (hcomma : before (some (.sign ",")))
    (hpart : forall tokens result, phrase tokens result ->
      Takes before part tokens result)
    {tokens : List Token} {results : List β} (h : Listed phrase tokens results) :
    Takes (fun next => before next ∧ NotSign "," next)
      (Reader.commaSeparated part) tokens results := by
  rcases h.exists_items with ⟨items, hne, hitems, rfl, rfl⟩
  exact takes_commaSeparated hcomma
    (fun item hmem => hpart item.1 item.2 (hitems item hmem)) hne

end Lists

/-!
# Parts of statements
-/

inductive NamePhrase : List Token -> String -> Prop where
  | name {token : Token} {name : String} :
      NameToken token name -> NamePhrase [token] name

inductive RowPhrase : List Token -> List Expr -> Prop where
  | values {tokens : List Token} {values : List Expr} :
      Listed (Phrase 0) tokens values -> RowPhrase (group tokens) values

inductive AssignmentPhrase : List Token -> String × Expr -> Prop where
  | assign {token : Token} {column : String} {tokens : List Token}
      {value : Expr} :
      NameToken token column -> Phrase 0 tokens value ->
      AssignmentPhrase (token :: .sign "=" :: tokens) (column, value)

inductive ColumnPhrase : List Token -> ColumnSpec -> Prop where
  | declare {token : Token} {name type : String} {tokens : List Token}
      {rules : List ColumnRule} :
      NameToken token name -> isReserved type = false ->
      Repeated RulePhrase tokens rules ->
      ColumnPhrase ([token, .word type] ++ tokens) ⟨name, type, rules⟩

/-!
# Statements
-/

inductive WriteSentence : List Token -> Command -> Prop where
  | insertDefaults {token : Token} {table : String} :
      NameToken token table ->
      WriteSentence
        [.word "INSERT", .word "INTO", token, .word "DEFAULT", .word "VALUES"]
        (.insert table .defaults)
  | insert {token : Token} {table : String} {names tokens : List Token}
      {columns : List String} {rows : List (List Expr)} :
      NameToken token table -> Listed NamePhrase names columns ->
      Listed RowPhrase tokens rows ->
      WriteSentence
        (.word "INSERT" :: .word "INTO" :: token ::
          (group names ++ .word "VALUES" :: tokens))
        (.insert table (.values (some columns) rows))
  | update {token : Token} {table : String} {tokens condition : List Token}
      {assignments : List (String × Expr)} {condition? : Option Expr} :
      NameToken token table -> Listed AssignmentPhrase tokens assignments ->
      ConditionTokens condition condition? ->
      WriteSentence
        (.word "UPDATE" :: token :: .word "SET" :: (tokens ++ condition))
        (.update table assignments condition?)
  | createTable {token : Token} {table : String} {tokens : List Token}
      {columns : List ColumnSpec} :
      NameToken token table -> Listed ColumnPhrase tokens columns ->
      WriteSentence
        ([.word "CREATE", .word "TABLE", .word "IF", .word "NOT",
          .word "EXISTS", token] ++ group tokens)
        (.createTable table true columns)

/-- A text that is a statement that writes. -/
def IsWriteSentence (text : String) : Prop :=
  exists command, WriteSentence ((scan text).map Lexeme.token) command

theorem IsWriteSentence.of_tokens {text : String} {tokens : List Token}
    {command : Command} (htokens : (scan text).map Lexeme.token = tokens)
    (h : WriteSentence tokens command) : IsWriteSentence text :=
  ⟨command, htokens ▸ h⟩

/-!
# Reading them
-/

theorem NamePhrase.takes {tokens : List Token} {name : String}
    (h : NamePhrase tokens name) :
    Takes (fun _ => True) Reader.name tokens name := by
  cases h with
  | name hname => exact takes_name hname

theorem AssignmentPhrase.takes {tokens : List Token}
    {assignment : String × Expr} (h : AssignmentPhrase tokens assignment) :
    Takes EndsExpr Command.readAssignment tokens assignment := by
  cases h with
  | assign hcolumn hvalue => exact takes_assignmentOf hcolumn hvalue

theorem RowPhrase.takes {tokens : List Token} {values : List Expr}
    (h : RowPhrase tokens values) :
    Takes (fun _ => True)
      (Reader.parenthesized (Reader.commaSeparated Expr.read)) tokens values := by
  cases h with
  | values hvalues =>
      have hlist := hvalues.takes (by decide) (fun _ _ => takes_expr)
      exact Takes.parenthesized (hlist.weaken (fun _ => endsItem_closing))

theorem ColumnPhrase.takes {tokens : List Token} {column : ColumnSpec}
    (h : ColumnPhrase tokens column) :
    Takes Definition.EndsDeclaration Command.readColumnSpec tokens column := by
  cases h with
  | declare hname htype hrules =>
      rcases hrules.exists_items with ⟨rules, hphrases, rfl, rfl⟩
      exact takes_columnSpec hname htype hphrases

/-- The reader of statements finds every statement that writes. -/
theorem WriteSentence.takes {tokens : List Token} {command : Command}
    (h : WriteSentence tokens command) :
    Takes EndsCondition Command.readStatement tokens command := by
  cases h with
  | insertDefaults htable => exact takes_defaultInsertion htable
  | insert htable hnames hrows =>
      have hcolumns := hnames.takes trivial (fun _ _ => NamePhrase.takes)
      have hlist := hrows.takes trivial (fun _ _ => RowPhrase.takes)
      exact takes_insertion htable
        (hcolumns.weaken fun next heq => ⟨trivial, (endsItem_closing heq).right⟩)
        (hlist.weaken fun _ hnext => ⟨trivial, hnext.notSign ","⟩)
  | update htable hassignments hcondition =>
      have hcomma : EndsExpr (some (.sign ",")) := by decide
      have hlist := hassignments.takes hcomma (fun _ _ => AssignmentPhrase.takes)
      exact takes_change htable hlist hcondition
  | createTable htable hcolumns =>
      have hlist := hcolumns.takes (.inl rfl) (fun _ _ => ColumnPhrase.takes)
      exact takes_creationOf htable
        (hlist.weaken fun _ => endsDeclarations_closing)

theorem IsWriteSentence.read {text : String} (h : IsWriteSentence text) :
    exists command, Command.read.run (scan text) = .ok (command, []) := by
  rcases h with ⟨command, hsentence⟩
  exact ⟨command, run_read_of_takes hsentence.takes (spells_scan text) (.inl rfl)⟩

end Sql
end TableStore
