import TableStore.Engine.Sqlite
import TableStore.Proofs.Engine.Faults
import TableStore.Proofs.Statement.Runs
import TableStore.Proofs.Statement.Sentences

/-!
# Statements that write are sentences

The text of an insertion is a sentence of the grammar for every row; a row without
columns is inserted as one of defaults.  An update needs at least one assignment and
the creation of a table at least one column.  Nothing is written in their place, so
these two are sentences for every list but the empty one, for which every session
answers with a fault.
-/

namespace TableStore
namespace Sql

/-!
# Tokens that are built
-/

theorem sentence_insert {table : String} (htable : isReserved table = false)
    {columns : List String} (hne : columns ≠ [])
    (hcolumns : forall column, column ∈ columns -> isReserved column = false) :
    WriteSentence (insertTokens table columns)
      (.insert table
        (.values (some columns) [placeholderRow columns.length])) := by
  have hnames : Listed NamePhrase (nameTokens columns) (columns.map id) :=
    listed_separated hne fun column hmem =>
      .name (NameToken.word (hcolumns column hmem))
  have hcount : List.range columns.length ≠ [] := by
    rwa [Ne, List.range_eq_nil, List.length_eq_zero_iff]
  have hvalues := listed_separated hcount fun index _ =>
    (Phrase.placeholder index).weaken (Nat.zero_le _)
  rw [List.map_id] at hnames
  exact .insert (NameToken.word htable) hnames (.last (.values hvalues))

theorem sentence_update {table : String} (htable : isReserved table = false)
    {columns : List String} (hne : columns ≠ [])
    (hcolumns : forall column, column ∈ columns -> isReserved column = false)
    {condition : List Token} {condition? : Option Expr}
    (hcondition : ConditionTokens condition condition?) :
    WriteSentence (updateTokens table columns condition)
      (.update table (placeholderAssignments columns) condition?) := by
  have hentries : columns.zipIdx ≠ [] := by
    simpa using hne
  have hassignments : Listed AssignmentPhrase
      (separated (columns.zipIdx.map fun entry =>
        [.word entry.1, .sign "=", .placeholder entry.2]))
      (placeholderAssignments columns) := by
    apply listed_separated hentries
    intro entry hmem
    have hcolumn := hcolumns entry.1 (List.fst_mem_of_mem_zipIdx hmem)
    exact .assign (NameToken.word hcolumn)
      ((Phrase.placeholder entry.2).weaken (Nat.zero_le _))
  exact .update (NameToken.word htable) hassignments hcondition

theorem Declaration.columnPhrase {declaration : Declaration}
    (hname : isReserved declaration.name = false) :
    ColumnPhrase declaration.tokens declaration.spec := by
  have hrules : Repeated RulePhrase (declaration.rules.flatMap Prod.fst)
      (declaration.rules.map Prod.snd) :=
    repeated_flatMap fun _ => Declaration.rulePhrase
  rw [declaration.tokens_eq]
  exact .declare (NameToken.word hname) (not_isReserved_type _) hrules

theorem sentence_creation {table : String} (htable : isReserved table = false)
    {declarations : List Declaration} (hne : declarations ≠ [])
    (hnames : forall declaration, declaration ∈ declarations ->
      isReserved declaration.name = false) :
    WriteSentence
      ([.word "CREATE", .word "TABLE", .word "IF", .word "NOT",
        .word "EXISTS", .word table] ++
        group (separated (declarations.map Declaration.tokens)))
      (.createTable table true (declarations.map Declaration.spec)) := by
  have hcolumns := listed_separated hne fun declaration hmem =>
    Declaration.columnPhrase (hnames declaration hmem)
  exact .createTable (NameToken.word htable) hcolumns

end Sql

namespace Statement

open Engine (Dialect Faultless Session Store)
open Sql (Declaration IsWriteSentence)

/-!
# Insertions
-/

theorem isWriteSentence_insert {table : String}
    (htable : Sql.isPlainName table = true) {row : Row}
    (hcolumns : forall column, column ∈ row.columns ->
      Sql.isPlainName column = true) :
    IsWriteSentence (insert table row).text := by
  by_cases hempty : row.isEmpty = true
  · have hscanned := scanned_insertDefaults htable hempty
    exact .of_tokens hscanned.tokens_eq
      (.insertDefaults (.word (not_isReserved htable)))
  · have hne : row.columns ≠ [] := by
      intro hnone
      rw [Row.columns, Keyed.keys, List.map_eq_nil_iff] at hnone
      exact hempty (List.isEmpty_iff.mpr hnone)
    have hscanned := scanned_insert htable hne hcolumns
    exact .of_tokens hscanned.tokens_eq (Sql.sentence_insert
      (not_isReserved htable) hne (not_isReserved_of_mem hcolumns))

/-!
# Sentences and sessions
-/

section
variable [Dialect]

/--
A statement is a sentence exactly if a condition holds.  No session answers a
sentence with a fault, and every session answers what is none with one and stays
as it is.
-/
structure SentenceIff (statement : Fragment) (condition : Prop) : Prop where
  isWriteSentence_iff : IsWriteSentence statement.text <-> condition
  faultless : condition -> forall session, Faultless (runOf session statement).2
  refused : ¬ condition -> forall session, exists fault,
    runOf session statement = (session, .error (.fault fault))

theorem faultless_of_isWriteSentence {statement : Fragment}
    (h : IsWriteSentence statement.text) (session : Session Store) :
    Faultless (runOf session statement).2 := by
  rcases h.read with ⟨command, hread⟩
  exact Session.faultless_runText hread session _

namespace SentenceIff

variable {statement : Fragment} {condition : Prop}

theorem of_sentence (h : IsWriteSentence statement.text) (hcondition : condition) :
    SentenceIff statement condition where
  isWriteSentence_iff := ⟨fun _ => hcondition, fun _ => h⟩
  faultless _ := faultless_of_isWriteSentence h
  refused hnot := absurd hcondition hnot

theorem of_refused (hcondition : ¬ condition)
    (h : forall session, exists fault,
      runOf session statement = (session, .error (.fault fault))) :
    SentenceIff statement condition where
  isWriteSentence_iff := by
    constructor
    · intro hsentence
      -- Any session tells that it is none; the first one of a new store will do.
      rcases h (Session.start .empty false) with ⟨fault, hrun⟩
      have hresult := congrArg Prod.snd hrun
      exact absurd hresult (faultless_of_isWriteSentence hsentence _ fault)
    · intro hholds
      exact absurd hholds hcondition
  faultless hholds := absurd hholds hcondition
  refused _ := h

end SentenceIff

section Statements

variable {table : String} (htable : Sql.isPlainName table = true)

include htable

/-!
# Updates
-/

theorem sentenceIff_update {changes : Row}
    (hcolumns : forall column, column ∈ changes.columns ->
      Sql.isPlainName column = true)
    {mode : Rendering} {options : Options}
    (hfilter : Legible mode table options.filter?)
    (horders : options.orderBy = []) (hlimit : options.limit? = none) :
    SentenceIff
      (updateBase table changes ++ condition mode options.filter? ++
        .ofText (tail options))
      (changes.columns ≠ []) := by
  have hplain := orders_isPlainName_of_nil horders
  by_cases hempty : changes.columns = []
  · apply SentenceIff.of_refused (not_not_intro hempty)
    intro session
    exact ⟨_, hfilter.runOf_update_of_no_columns hempty hplain⟩
  · apply SentenceIff.of_sentence _ hempty
    rcases scanned_update htable hempty hcolumns hfilter.violations_eq
      hfilter.columns_isPlainName hplain (hfilter.leavesRead _) with
      ⟨clause, hclause, hscanned⟩
    rw [horders, hlimit, Sql.orderTokens, Option.map_none, Sql.limitTokens,
      List.append_nil, List.append_nil] at hscanned
    exact .of_tokens hscanned.tokens_eq (Sql.sentence_update
      (not_isReserved htable) hempty (not_isReserved_of_mem hcolumns) hclause)

/-!
# Creations of tables
-/

theorem runOf_createTable_of_no_columns {columns : Columns}
    (hempty : columns.toList = []) :
    exists fault, forall session : Session Store,
      runOf session (.ofText (createTable table columns)) =
        (session, .error (.fault fault)) := by
  have hspells := spellsWord_of_isPlainName htable
  -- Between the parentheses there is no text and no token.
  have hnothing : Piece 0 0 columns.definitions [] := by
    rw [Columns.definitions, hempty]
    exact fun _ _ _ hscan => hscan
  have htokens := Sql.spells_scan (createTable table columns)
  have hscan : (Sql.scan (createTable table columns)).map Sql.Lexeme.token = _ :=
    (piece_creation hspells hnothing).scan_eq
  rw [hscan] at htokens
  rcases Sql.exists_fault_of_creation (not_isReserved htable) htokens with
    ⟨fault, hfault⟩
  exact ⟨fault, runOf_of_fault htokens hfault⟩

theorem sentenceIff_createTable {columns : Columns}
    (hnames : forall column, column ∈ columns.toList ->
      Sql.isPlainName column.name = true) :
    SentenceIff (.ofText (createTable table columns)) (columns.toList ≠ []) := by
  by_cases hempty : columns.toList = []
  · rcases runOf_createTable_of_no_columns htable hempty with ⟨fault, hrun⟩
    exact .of_refused (not_not_intro hempty) fun session => ⟨fault, hrun session⟩
  · have hpiece := piece_createTable (spellsWord_of_isPlainName htable) hempty
      (fun column hmem => spellsWord_of_isPlainName (hnames column hmem))
    exact .of_sentence (.of_tokens hpiece.scan_eq
      (Sql.sentence_creation (not_isReserved htable) (declarations_ne_nil hempty)
        (not_isReserved_declarations hnames))) hempty

end Statements

/-!
# Every statement that writes
-/

structure WritesSentences (table : String) : Prop where
  insert : forall row : Row,
    (forall column, column ∈ row.columns -> Sql.isPlainName column = true) ->
      SentenceIff (insert table row) True
  update : forall (changes : Row) (options : Options),
    (forall column, column ∈ changes.columns -> Sql.isPlainName column = true) ->
    filterViolations options.filter? = [] ->
    (forall column, column ∈ filterColumns options.filter? ->
      Sql.isPlainName column = true) ->
    options.orderBy = [] -> options.limit? = none ->
      exists statement,
        update .parameterized table changes options = .ok statement ∧
        SentenceIff statement (changes.columns ≠ [])
  createTable : forall columns : Columns,
    (forall column, column ∈ columns.toList ->
      Sql.isPlainName column.name = true) ->
      SentenceIff (.ofText (createTable table columns)) (columns.toList ≠ [])

end

section Witness

open Engine.Sqlite

def twoChanges : Row :=
  (Row.empty.set "a" (.int 1)).set "b" .null

def branchedFilter : Options :=
  .ofFilter (some [.equal "a" (.int 2),
    .anyOf [[.compare "b" [.test .ge (.int 3)]], [.equal "b" (.text "x")]]])

def ruledColumns : Columns :=
  ⟨[⟨"a", .integer, [.primaryKey], none⟩,
    ⟨"b", .text, [.notNull, .unique], some (.text "it's")⟩]⟩

end Witness

end Statement
end TableStore
