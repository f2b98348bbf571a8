import TableStore.Proofs.Statement.Reading

/-!
# Creations of tables read back

A reader for the statement that creates a table which knows nothing of how it is
built.  It returns what the statement says: the table and its columns, each with
its type, its constraints and the literal of its default.  Whatever is written
inside a literal, the reader finds its end and the next column behind it.
-/

namespace TableStore
namespace Sql

open Decimal (Binary64)
open Predicate (signedTokens)
open Reader (commaSeparated parenthesized tryWord word)

/-!
# Literals
-/

inductive Literal where
  | null
  | bool (value : Bool)
  | whole (negative : Bool) (n : Nat)
  | fraction (negative : Bool) (d : Decimal.Scaled)
  | text (s : String)
  | blob (bytes : List UInt8)
deriving DecidableEq

namespace Literal

/-- The value of a literal; digits without a point are a whole number. -/
def value : Literal -> Value
  | .null => .null
  | .bool b => .bool b
  | .whole negative n =>
      match Decimal.int64? (Decimal.signed negative n) with
      | some value => .int value
      | none => .real (Binary64.ofDecimal negative n 0)
  | .fraction negative d => .real (Binary64.ofDecimal negative d.coefficient d.place)
  | .text s => .text s
  | .blob bytes => .blob bytes

def nearest? : Literal -> Option Binary64
  | .whole negative n => some (Binary64.ofDecimal negative n 0)
  | .fraction negative d => some (Binary64.ofDecimal negative d.coefficient d.place)
  | _ => none

def ofToken? (negative : Bool) : Token -> Option Literal
  | .integer n => some (.whole negative n)
  | .decimal d => some (.fraction negative d)
  | .text s => if negative then none else some (.text s)
  | .blob bytes => if negative then none else some (.blob bytes)
  | .word name =>
      if negative then none
      else if Text.foldCase name = "null" then some .null
      else if Text.foldCase name = "true" then some (.bool true)
      else if Text.foldCase name = "false" then some (.bool false)
      else none
  | _ => none

def tokens : Literal -> List Token
  | .null => [.word "NULL"]
  | .bool true => [.word "TRUE"]
  | .bool false => [.word "FALSE"]
  | .whole negative n => signedTokens negative (.integer n)
  | .fraction negative d => signedTokens negative (.decimal d)
  | .text s => [.text s]
  | .blob bytes => [.blob bytes]

/-- The literal that a number without a sign is written with. -/
def ofScaled (negative : Bool) (d : Decimal.Scaled) : Literal :=
  if 0 <= d.place then
    .whole negative (d.coefficient * Decimal.tenTo d.place.toNat)
  else .fraction negative d

def ofValue : Value -> Literal
  | .null => .null
  | .bool b => .bool b
  | .int n => .whole (n.toInt < 0) n.toInt.natAbs
  | .real x =>
      if x.isFinite then ofScaled x.negative (x.shortest .up) else .null
  | .text s => .text s
  | .blob bytes => .blob bytes

/--
A literal stands for a value.  Finite numbers of the binary format are found
again as the nearest ones; the others have no literal but the missing value.
-/
def StandsFor (literal : Literal) : Value -> Prop
  | .real x =>
      if x.isFinite then literal.nearest? = some x else literal = .null
  | value => literal.value = value

theorem tokens_ofScaled (negative : Bool) (d : Decimal.Scaled) :
    (ofScaled negative d).tokens =
      signedTokens negative (Predicate.decimalToken d) := by
  rw [ofScaled, Predicate.decimalToken]
  split <;> rfl

theorem nearest?_ofScaled {x : Binary64} (hfinite : x.isFinite = true) :
    (ofScaled x.negative (x.shortest .up)).nearest? = some x := by
  rw [ofScaled]
  split
  · rename_i hwhole
    exact congrArg some (Binary64.ofDecimal_shortest_whole hfinite hwhole)
  · exact congrArg some (Binary64.ofDecimal_shortest hfinite .up)

theorem standsFor_ofValue (value : Value) : StandsFor (ofValue value) value := by
  cases value with
  | int n =>
      rw [StandsFor, ofValue, Literal.value, Decimal.signed_natAbs,
        Decimal.int64?_toInt]
      exact nofun
  | real x =>
      rw [StandsFor, ofValue]
      cases hfinite : x.isFinite with
      | true => exact nearest?_ofScaled hfinite
      | false => rfl
  | null => rfl
  | bool b => rfl
  | text s => rfl
  | blob bytes => rfl

end Literal

/-!
# Declarations
-/

def Constraint.tokens : Constraint -> List Token
  | .notNull => [.word "NOT", .word "NULL"]
  | .unique => [.word "UNIQUE"]
  | .primaryKey => [.word "PRIMARY", .word "KEY"]

structure Declaration where
  name : String
  type : ColumnType
  constraints : List Constraint
  default? : Option Literal

structure Definition where
  table : String
  columns : List Declaration

namespace Declaration

def defaultTokens : Option Literal -> List Token
  | none => []
  | some literal => .word "DEFAULT" :: literal.tokens

def tokens (declaration : Declaration) : List Token :=
  [.word declaration.name, .word declaration.type.name] ++
    declaration.constraints.flatMap Constraint.tokens ++
    defaultTokens declaration.default?

def ofColumn (column : Column) : Declaration :=
  ⟨column.name, column.type, column.constraints,
    column.default?.map Literal.ofValue⟩

structure Describes (declaration : Declaration) (column : Column) : Prop where
  name_eq : declaration.name = column.name
  type_eq : declaration.type = column.type
  constraints_eq : declaration.constraints = column.constraints
  default_rel :
    Option.Rel Literal.StandsFor declaration.default? column.default?

theorem describes_ofColumn (column : Column) :
    Describes (ofColumn column) column := by
  constructor
  · rfl
  · rfl
  · rfl
  · rw [ofColumn]
    cases column.default? with
    | none => exact Option.Rel.none
    | some value => exact Option.Rel.some (Literal.standsFor_ofValue value)

end Declaration

/-!
# A reader of creations
-/

namespace Definition

def readToken {α : Type} (meaning? : Token -> Option α) : Reader α := do
  match (<- Reader.peek?).bind fun lexeme => meaning? lexeme.token with
  | some meaning =>
      Reader.skip
      return meaning
  | none => Reader.refuse

def word? : Token -> Option String
  | .word name => some name
  | _ => none

theorem word?_word (name : String) : word? (.word name) = some name := rfl

def readConstraint? : Reader (Option Constraint) := do
  if <- tryWord "not" then
    word "null"
    return some .notNull
  else if <- tryWord "unique" then return some .unique
  else if <- tryWord "primary" then
    word "key"
    return some .primaryKey
  else return none

def readConstraintsFrom : Nat -> Reader (List Constraint)
  | 0 => return []
  | fuel + 1 => do
      match <- readConstraint? with
      | some constraint => return constraint :: (<- readConstraintsFrom fuel)
      | none => return []

def readConstraints : Reader (List Constraint) := do
  readConstraintsFrom (<- get).length

def readLiteral : Reader Literal := do
  let negative <- Reader.trySign "-"
  readToken (Literal.ofToken? negative)

def readDefault? : Reader (Option Literal) := do
  if <- tryWord "default" then some <$> readLiteral else return none

def readDeclaration : Reader Declaration := do
  let name <- readToken word?
  let type <- readToken fun token => (word? token).bind ColumnType.ofName?
  let constraints <- readConstraints
  let default? <- readDefault?
  return ⟨name, type, constraints, default?⟩

def read : Reader Definition := do
  word "create"
  word "table"
  word "if"
  word "not"
  word "exists"
  let table <- readToken word?
  let columns <- parenthesized (commaSeparated readDeclaration)
  return ⟨table, columns⟩

/-!
# The tokens that the reader takes
-/

section Takes

variable {α β : Type} {follow : Follow}

theorem run_readToken {meaning? : Token -> Option α} {token : Token}
    {meaning : α} (h : meaning? token = some meaning) (lexeme : Lexeme)
    (rest : List Lexeme) (htoken : lexeme.token = token) :
    (readToken meaning?).run (lexeme :: rest) = .ok (meaning, rest) := by
  unfold readToken
  rw [Reader.run_bind (Reader.run_peek? _), List.head?_cons, Option.bind_some,
    htoken, h]
  rfl

theorem takes_readToken {meaning? : Token -> Option α} {token : Token}
    {meaning : α} (h : meaning? token = some meaning) :
    Takes follow (readToken meaning?) [token] meaning := by
  have htakes : Takes follow (readToken meaning? >>= pure) [token] meaning :=
    Takes.cons (run_readToken h) (Takes.pure meaning)
  rwa [bind_pure] at htakes

theorem takes_signed {negative : Bool} {token : Token} {literal : Literal}
    (hminus : token ≠ .sign "-")
    (h : Literal.ofToken? negative token = some literal) :
    Takes follow readLiteral (signedTokens negative token) literal := by
  cases negative with
  | true => exact Takes.cons run_trySign_of_token (takes_readToken h)
  | false =>
      apply Takes.look (NotSign "-") (fun _ => run_trySign_of_notSign)
        (takes_readToken h)
      intro _ _ heq
      exact hminus (Option.some.inj heq)

theorem takes_literal (literal : Literal) :
    Takes follow readLiteral literal.tokens literal := by
  have hunsigned {token : Token} (hminus : token ≠ .sign "-")
      (h : Literal.ofToken? false token = some literal) :
      Takes follow readLiteral [token] literal :=
    takes_signed hminus h
  cases literal with
  | null => exact hunsigned nofun (by decide)
  | bool b =>
      cases b with
      | true => exact hunsigned nofun (by decide)
      | false => exact hunsigned nofun (by decide)
  | whole negative n => exact takes_signed nofun rfl
  | fraction negative d => exact takes_signed nofun rfl
  | text s => exact hunsigned nofun rfl
  | blob bytes => exact hunsigned nofun rfl

theorem takes_default? (default? : Option Literal) :
    Takes (NotWord "default") readDefault?
      (Declaration.defaultTokens default?) default? := by
  cases default? with
  | none => exact Takes.notWord (Takes.pure none) (fun _ hnext => hnext)
  | some literal =>
      have hword : Text.foldCase "DEFAULT" = "default" := by decide
      exact Takes.tryWord hword ((takes_literal literal).map some)

def EndsConstraints : Follow :=
  fun next => NotWord "not" next ∧ NotWord "unique" next ∧
    NotWord "primary" next

theorem notWord_unique : NotWord "not" (some (.word "UNIQUE")) := by decide

theorem notWord_primary : NotWord "not" (some (.word "PRIMARY")) ∧
    NotWord "unique" (some (.word "PRIMARY")) := by decide

theorem takes_constraint (constraint : Constraint) :
    Takes follow readConstraint? (Constraint.tokens constraint)
      (some constraint) := by
  cases constraint with
  | notNull =>
      apply Takes.tryWord (by decide)
      exact Takes.word (by decide) (Takes.pure _)
  | unique =>
      apply Takes.notWord _ (fun _ _ => notWord_unique)
      exact Takes.tryWord (by decide) (Takes.pure _)
  | primaryKey =>
      apply Takes.notWord _ (fun _ _ => notWord_primary.left)
      apply Takes.notWord _ (fun _ _ => notWord_primary.right)
      apply Takes.tryWord (by decide)
      exact Takes.word (by decide) (Takes.pure _)

theorem takes_noConstraint :
    Takes EndsConstraints readConstraint? [] none := by
  apply Takes.notWord _ (fun _ hnext => hnext.left)
  apply Takes.notWord _ (fun _ hnext => hnext.right.left)
  exact Takes.notWord (Takes.pure none) (fun _ hnext => hnext.right.right)

theorem repeats_readConstraints : Repeats readConstraint? readConstraintsFrom where
  zero := rfl
  succ fuel := by
    rw [readConstraintsFrom]
    congr 1
    funext constraint?
    cases constraint? <;> rfl

theorem takes_constraints (constraints : List Constraint) :
    Takes EndsConstraints readConstraints
      (constraints.flatMap Constraint.tokens) constraints := by
  have hall := @takes_repeated _ _ _ _ (fun _ => True) _ _ id
    repeats_readConstraints takes_noConstraint (fun _ _ => trivial) constraints
    (fun constraint _ => ⟨takes_constraint constraint, by
      cases constraint <;> exact ⟨_, rfl, trivial⟩⟩)
  rwa [List.map_id] at hall

def EndsDeclaration : Follow :=
  fun next => next = some (.sign ",") ∨ next = some (.sign ")")

theorem takes_declaration (declaration : Declaration) :
    Takes EndsDeclaration readDeclaration declaration.tokens declaration := by
  rcases declaration with ⟨name, type, constraints, default?⟩
  have hends {next : Option Token} (h : EndsDeclaration next) :
      EndsConstraints next ∧ NotWord "default" next := by
    rcases h with rfl | rfl
    · exact ⟨⟨by decide, by decide, by decide⟩, by decide⟩
    · exact ⟨⟨by decide, by decide, by decide⟩, by decide⟩
  have hdefault := ((takes_default? default?).map fun default? =>
    (⟨name, type, constraints, default?⟩ : Declaration)).weaken
      (fun _ h => (hends h).right)
  rw [map_eq_pure_bind] at hdefault
  have htype : ColumnType.ofName? type.name = some type := by
    cases type <;> decide
  have hfollow : forall next, EndsDeclaration next -> EndsConstraints
      ((Declaration.defaultTokens default?).head?.or next) := by
    intro next hnext
    cases default? with
    | none => exact (hends hnext).left
    | some literal =>
        have hword : EndsConstraints (some (.word "DEFAULT")) :=
          ⟨by decide, by decide, by decide⟩
        exact hword
  rw [Declaration.tokens, List.append_assoc, List.cons_append,
    List.cons_append, List.nil_append]
  apply Takes.cons (run_readToken (word?_word name))
  apply Takes.cons (run_readToken htype)
  exact Takes.bind (takes_constraints constraints) hdefault hfollow

theorem takes_read (definition : Definition) (hne : definition.columns ≠ []) :
    Takes follow read
      ([.word "CREATE", .word "TABLE", .word "IF", .word "NOT",
        .word "EXISTS", .word definition.table] ++
        group (separated (definition.columns.map Declaration.tokens)))
      definition := by
  rcases definition with ⟨table, columns⟩
  have hitems : forall declaration, declaration ∈ columns ->
      Takes EndsDeclaration readDeclaration declaration.tokens
        (id declaration) :=
    fun declaration _ => takes_declaration declaration
  have hcolumns := takes_commaSeparated (.inl (Eq.refl _)) hitems hne
  rw [List.map_id] at hcolumns
  have hinside : Takes (fun next => next = some (.sign ")"))
      (commaSeparated readDeclaration)
      (separated (columns.map Declaration.tokens)) columns := by
    apply hcolumns.weaken
    intro next heq
    rw [heq]
    exact ⟨.inr (Eq.refl _), by decide⟩
  have hgroup : Takes follow
      (Definition.mk table <$> parenthesized (commaSeparated readDeclaration))
      (group (separated (columns.map Declaration.tokens))) ⟨table, columns⟩ :=
    (Takes.parenthesized hinside).map (Definition.mk table)
  rw [map_eq_pure_bind] at hgroup
  apply Takes.word (by decide)
  apply Takes.word (by decide)
  apply Takes.word (by decide)
  apply Takes.word (by decide)
  apply Takes.word (by decide)
  exact Takes.cons (run_readToken (word?_word table)) hgroup

end Takes

end Definition

end Sql

/-!
# Texts of creations
-/

namespace Statement

open Sql (Declaration Definition Literal Scans Token)

theorem EndsPiece.endsNumber {rest : List Char} (h : EndsPiece rest) :
    Sql.EndsNumber rest := by
  intro c hc
  rcases h c hc with rfl | rfl | rfl | rfl <;> decide

theorem Piece.beside {start middle finish : Nat} {first second : String}
    {tokens others : List Token} (hfirst : Piece start middle first tokens)
    (hsecond : Piece middle finish second others) :
    Piece start finish (first ++ " " ++ second) (tokens ++ others) := by
  intro rest behind hrest hscan
  have hblank := Scans.blank (hsecond rest behind hrest hscan)
  have hall := hfirst _ _ (endsPiece_cons (by decide) _) hblank
  simpa using hall

theorem Piece.scan_eq {text : String} {tokens : List Token}
    (h : Piece 0 0 text tokens) :
    (Sql.scan text).map Sql.Lexeme.token = tokens := by
  have hends : EndsPiece [] := fun _ hc => nomatch hc
  have hscan := h [] [] hends (Scans.done 0)
  rw [List.append_nil, List.append_nil] at hscan
  exact Sql.map_token_scan hscan

/--
The literal of a value is scanned as its tokens, whatever the value holds and
whatever stands behind the literal.
-/
theorem piece_literal (value : Value) (start : Nat) :
    Piece start start value.literal (Literal.ofValue value).tokens := by
  intro rest others hrest hscan
  have hword (word : String) (hword : Sql.spellsWord word.toList = true) :
      Scans start (word.toList ++ rest) (.word word :: others) :=
    piece_word word hword start rest others hrest hscan
  cases value with
  | null => exact hword "NULL" (by decide)
  | bool b =>
      cases b with
      | true => exact hword "TRUE" (by decide)
      | false => exact hword "FALSE" (by decide)
  | int n => exact Predicate.scans_intText n.toInt hrest.endsNumber hscan
  | real x =>
      rw [Value.literal, Literal.ofValue]
      cases hfinite : x.isFinite with
      | true =>
          rw [if_pos rfl, if_pos rfl, Literal.tokens_ofScaled]
          exact Predicate.scans_positionalText hfinite hrest.endsNumber hscan
      | false => exact hword "NULL" (by decide)
  | text s =>
      have hquote : rest.head? ≠ some '\'' := by
        intro hhead
        exact absurd (hrest _ hhead) (by decide)
      have htext := Scans.doubled s.toList hquote hscan
      rw [String.ofList_toList] at htext
      simpa [Value.literal, Text.quote, Literal.ofValue, Literal.tokens]
        using htext
  | blob bytes =>
      have hbytes := Scans.bytes bytes hscan
      simpa [Value.literal, Literal.ofValue, Literal.tokens] using hbytes

theorem piece_constraint (constraint : Constraint) (start : Nat) :
    Piece start start constraint.words (Sql.Constraint.tokens constraint) := by
  cases constraint with
  | notNull =>
      have htext : Constraint.notNull.words = "NOT" ++ " " ++ "NULL" := by
        decide
      rw [htext]
      exact (piece_word "NOT" (by decide) start).beside
        (piece_word "NULL" (by decide) start)
  | unique => exact piece_word "UNIQUE" (by decide) start
  | primaryKey =>
      have htext : Constraint.primaryKey.words = "PRIMARY" ++ " " ++ "KEY" := by
        decide
      rw [htext]
      exact (piece_word "PRIMARY" (by decide) start).beside
        (piece_word "KEY" (by decide) start)

theorem Piece.constraints {start : Nat} {first : String}
    {tokens : List Token} (h : Piece start start first tokens)
    (constraints : List Constraint) :
    Piece start start
      (first ++ String.join (constraints.map fun constraint =>
        " " ++ constraint.words))
      (tokens ++ constraints.flatMap Sql.Constraint.tokens) := by
  induction constraints generalizing first tokens with
  | nil => simpa using h
  | cons constraint constraints ih =>
      have hall := ih (h.beside (piece_constraint constraint start))
      simpa [String.join_cons, String.append_assoc, List.append_assoc]
        using hall

theorem piece_definition {column : Column}
    (hname : Sql.spellsWord column.name.toList = true) (start : Nat) :
    Piece start start column.definition (Declaration.ofColumn column).tokens := by
  have htype : Sql.spellsWord column.type.name.toList = true := by
    cases column.type <;> decide
  have hhead := ((piece_word column.name hname start).beside
    (piece_word column.type.name htype start)).constraints column.constraints
  rw [Column.definition, Declaration.tokens, Declaration.ofColumn]
  cases column.default? with
  | none => simpa [Declaration.defaultTokens] using hhead
  | some value =>
      have hdefault := (piece_word "DEFAULT" (by decide) start).beside
        (piece_literal value start)
      have hsplit : " DEFAULT " ++ value.literal =
          " " ++ ("DEFAULT" ++ " " ++ value.literal) := by
        rw [String.append_assoc, <- String.append_assoc]
        rfl
      have hall := hhead.beside hdefault
      rw [String.append_assoc, <- hsplit] at hall
      simpa [Declaration.defaultTokens] using hall

theorem pieces_definitions (start : Nat) {columns : List Column}
    (hnames : forall column, column ∈ columns ->
      Sql.spellsWord column.name.toList = true) :
    Pieces start start (columns.map Column.definition)
      ((columns.map Declaration.ofColumn).map Declaration.tokens) := by
  induction columns with
  | nil => exact Pieces.nil start
  | cons column columns ih =>
      rw [List.forall_mem_cons] at hnames
      exact Pieces.cons (piece_definition hnames.left start)
        (ih hnames.right)

theorem piece_creation {table definitions : String} {tokens : List Token}
    (htable : Sql.spellsWord table.toList = true)
    (h : Piece 0 0 definitions tokens) :
    Piece 0 0 ("CREATE TABLE IF NOT EXISTS " ++ table ++ " (" ++ definitions ++ ")")
      ([.word "CREATE", .word "TABLE", .word "IF", .word "NOT",
        .word "EXISTS", .word table] ++ Sql.group tokens) := by
  intro rest others hrest hscan
  have hclosing := Scans.loneSign (c := ')') (by decide) hscan
  have hcolumns := h _ _ (endsPiece_cons (by decide) _) hclosing
  have hopening := Scans.loneSign (c := '(') (by decide) hcolumns
  have hname := piece_word table htable 0 _ _ (endsPiece_cons (by decide) _)
    (Scans.blank hopening)
  have hexists := piece_word "EXISTS" (by decide) 0 _ _
    (endsPiece_cons (by decide) _) (Scans.blank hname)
  have hnot := piece_word "NOT" (by decide) 0 _ _
    (endsPiece_cons (by decide) _) (Scans.blank hexists)
  have hif := piece_word "IF" (by decide) 0 _ _
    (endsPiece_cons (by decide) _) (Scans.blank hnot)
  have htableWord := piece_word "TABLE" (by decide) 0 _ _
    (endsPiece_cons (by decide) _) (Scans.blank hif)
  have hcreate := piece_word "CREATE" (by decide) 0 _ _
    (endsPiece_cons (by decide) _) (Scans.blank htableWord)
  unfold Sql.group
  simpa using hcreate

theorem piece_createTable {table : String} {columns : Columns}
    (htable : Sql.spellsWord table.toList = true)
    (hne : columns.toList ≠ [])
    (hnames : forall column, column ∈ columns.toList ->
      Sql.spellsWord column.name.toList = true) :
    Piece 0 0 (createTable table columns)
      ([.word "CREATE", .word "TABLE", .word "IF", .word "NOT",
        .word "EXISTS", .word table] ++
        Sql.group (Sql.separated
          ((columns.toList.map Declaration.ofColumn).map
            Declaration.tokens))) := by
  have htexts : columns.toList.map Column.definition ≠ [] := by
    simpa using hne
  exact piece_creation htable ((pieces_definitions 0 hnames).join htexts)

theorem declarations_ne_nil {columns : List Column} (hne : columns ≠ []) :
    columns.map Declaration.ofColumn ≠ [] :=
  fun hnone => hne (List.map_eq_nil_iff.mp hnone)

/--
The creation of a table is read as its name and its columns, whatever their
defaults hold.
-/
theorem createTable_reads_back (table : String) (columns : Columns)
    (htable : Sql.spellsWord table.toList = true)
    (hne : columns.toList ≠ [])
    (hnames : forall column, column ∈ columns.toList ->
      Sql.spellsWord column.name.toList = true) :
    exists definition,
      Definition.read.run (Sql.scan (createTable table columns)) =
        .ok (definition, []) ∧
      definition.table = table ∧
      List.Forall₂ Declaration.Describes definition.columns
        columns.toList := by
  have hpiece := piece_createTable htable hne hnames
  have hspells := Sql.spells_scan (createTable table columns)
  rw [hpiece.scan_eq] at hspells
  have htakes : Sql.Takes (fun _ => True) Definition.read _ _ :=
    Definition.takes_read ⟨table, _⟩ (declarations_ne_nil hne)
  refine ⟨_, htakes.run_all hspells trivial, rfl, ?_⟩
  rw [List.forall₂_map_left_iff, List.forall₂_same]
  intro column _
  exact Declaration.describes_ofColumn column

def awkwardColumns : Columns :=
  ⟨[⟨"order", .text, [.notNull, .unique], some (.text "', b) DEFAULT ''")⟩,
    ⟨"b", .integer, [.primaryKey], some (.int Int64.minValue)⟩,
    ⟨"c", .real, [], some (.real (Decimal.Binary64.ofDecimal true 5 0))⟩,
    ⟨"d", .text, [], some (.blob [0, 39, 255])⟩,
    ⟨"e", .boolean, [], none⟩]⟩

theorem createTable_reads_back_awkward :
    Sql.spellsWord "t".toList = true ∧ awkwardColumns.toList ≠ [] ∧
      (forall column, column ∈ awkwardColumns.toList ->
        Sql.spellsWord column.name.toList = true) ∧
      exists definition,
        Definition.read.run (Sql.scan (createTable "t" awkwardColumns)) =
          .ok (definition, []) ∧
        definition.table = "t" ∧
        List.Forall₂ Declaration.Describes definition.columns
          awkwardColumns.toList := by
  have htable : Sql.spellsWord "t".toList = true := by decide
  have hne : awkwardColumns.toList ≠ [] := by simp [awkwardColumns]
  have hnames : forall column, column ∈ awkwardColumns.toList ->
      Sql.spellsWord column.name.toList = true := by
    simp [awkwardColumns]
    decide
  exact ⟨htable, hne, hnames,
    createTable_reads_back "t" awkwardColumns htable hne hnames⟩

end Statement
end TableStore
