import TableStore.Proofs.Statement.Definition

/-!
# Creations of tables as commands

The engine reads the creation of a table as the columns that it declares: each with the
words of its type, a rule for each of its constraints and the literal of its default.
-/

namespace TableStore
namespace Sql

/-!
# Declared columns
-/

def Literal.expr : Literal -> Expr
  | .bool b => .literal (.int (if b then 1 else 0))
  | .whole negative n => Expr.ofDigits negative n
  | .fraction negative d => .decimal negative d
  | literal => .literal literal.value

def Constraint.rule : Constraint -> ColumnRule
  | .notNull => .notNull
  | .unique => .unique
  | .primaryKey => .primaryKey false

namespace Declaration

def rules (declaration : Declaration) : List (List Token × ColumnRule) :=
  declaration.constraints.map (fun constraint =>
    (Constraint.tokens constraint, Constraint.rule constraint)) ++
  declaration.default?.toList.map fun literal =>
    (.word "DEFAULT" :: literal.tokens, .default literal.expr)

def spec (declaration : Declaration) : ColumnSpec :=
  ⟨declaration.name, declaration.type.name, declaration.rules.map Prod.snd⟩

theorem tokens_eq (declaration : Declaration) :
    declaration.tokens =
      [.word declaration.name, .word declaration.type.name] ++
        declaration.rules.flatMap Prod.fst := by
  rcases declaration with ⟨name, type, constraints, default?⟩
  rw [tokens, rules, List.flatMap_append, List.flatMap_map, List.append_assoc]
  cases default? with
  | none => rfl
  | some literal => simp [defaultTokens]

end Declaration

/-!
# Reading declarations
-/

/-- What can stand behind the type or a rule of a declared column. -/
def declarationEnds : List (Option Token) :=
  [some (.word "NOT"), some (.word "UNIQUE"), some (.word "PRIMARY"),
    some (.word "DEFAULT"), some (.sign ","), some (.sign ")")]

def EndsRule : Follow :=
  fun next => next ∈ declarationEnds

instance (next : Option Token) : Decidable (EndsRule next) :=
  inferInstanceAs (Decidable (_ ∈ _))

theorem endsRule_of_endsDeclaration {next : Option Token}
    (h : Definition.EndsDeclaration next) : EndsRule next := by
  rcases h with rfl | rfl <;> simp [EndsRule, declarationEnds]

section Takes

variable {follow : Follow}

theorem run_readDefault_operand {lexeme : Lexeme} (hopen : lexeme.token ≠ .sign "(")
    (hname : lexeme.name? = none) (rest : List Lexeme) :
    Command.readDefault.run (lexeme :: rest) =
      (Expr.readOperand (rest.length + 2)).run (lexeme :: rest) := by
  have hsign : lexeme.isSign "(" = false := by
    rw [<- Bool.not_eq_true, Lexeme.isSign_eq_true_iff]
    exact hopen
  have htry : Reader.tryName.run (lexeme :: rest) = .ok (none, lexeme :: rest) :=
    Reader.run_tryName_of_no_name hname
  have hget : (get : Reader _).run (lexeme :: rest) =
      .ok (lexeme :: rest, lexeme :: rest) := rfl
  unfold Command.readDefault
  rw [Reader.run_bind (Reader.run_atSign_cons _ _ _), hsign,
    if_neg Bool.false_ne_true, Reader.run_bind htry]
  dsimp only
  rw [Reader.run_bind hget]
  rfl

theorem takes_defaultValue {token : Token} {tree : Expr}
    (h : ValueToken token tree) :
    Takes follow Command.readDefault [token] tree := by
  intro lexemes rest hlexemes _
  rcases hlexemes.eq_cons with ⟨lexeme, others, rfl, htoken, _, hothers⟩
  rw [hothers.eq_nil, List.singleton_append, run_readDefault_operand]
  · exact Expr.readOperand_of_value (htoken ▸ h) _ rest
  · rw [htoken]
    cases h <;> exact nofun
  · rw [Lexeme.name?, htoken]
    cases h with
    | @null name hname =>
        have hreserved : isReserved name = true := by
          rw [isReserved, hname]
          decide
        dsimp only
        rw [if_pos hreserved]
    | _ => rfl

theorem takes_defaultMinus {token : Token} {tree : Expr}
    (h : ValueToken token tree) :
    Takes follow Command.readDefault [.sign "-", token]
      (Expr.negated (Expr.digitsOf? (some ⟨[], [], token⟩)) tree) := by
  intro lexemes rest hlexemes _
  rcases hlexemes.eq_cons with ⟨minus, others, rfl, hminus, _, hothers⟩
  rcases hothers.eq_cons with ⟨lexeme, others, rfl, htoken, _, hothers⟩
  rw [hothers.eq_nil, List.cons_append, List.singleton_append, run_readDefault_operand]
  · have hvalue := Expr.readOperand_of_value (htoken ▸ h) (rest.length + 1) rest
    refine (Expr.readOperand_of_minus hminus hvalue).trans ?_
    rw [List.head?_cons, <- htoken]
    rfl
  · rw [hminus]
    decide
  · rw [Lexeme.name?, hminus]

theorem takes_defaultWord {name : String} {expr : Expr}
    (hname : isReserved name = false) (hexpr : Command.defaultOfName name = expr) :
    Takes follow Command.readDefault [.word name] expr := by
  intro lexemes rest hlexemes _
  rcases hlexemes.eq_cons with ⟨lexeme, others, rfl, htoken, _, hothers⟩
  have hsign : lexeme.isSign "(" = false := by
    rw [Lexeme.isSign, htoken]
    rfl
  have htry := Reader.run_tryName_of_name
    (name?_of_nameToken (htoken ▸ NameToken.word hname)) rest
  rw [hothers.eq_nil, List.singleton_append]
  unfold Command.readDefault
  rw [Reader.run_bind (Reader.run_atSign_cons _ _ _), hsign,
    if_neg Bool.false_ne_true, Reader.run_bind htry, <- hexpr]
  rfl

theorem takes_default (literal : Literal) :
    Takes follow Command.readDefault literal.tokens literal.expr := by
  cases literal with
  | null => exact takes_defaultValue (.null (by decide))
  | bool b =>
      cases b with
      | true => exact takes_defaultWord (by decide) (by decide)
      | false => exact takes_defaultWord (by decide) (by decide)
  | whole negative n =>
      cases negative with
      | true => exact takes_defaultMinus (.integer n)
      | false => exact takes_defaultValue (.integer n)
  | fraction negative d =>
      cases negative with
      | true => exact takes_defaultMinus (.decimal d)
      | false => exact takes_defaultValue (.decimal d)
  | text s => exact takes_defaultValue (.text s)
  | blob bytes => exact takes_defaultValue (.blob bytes)

/-- What is no further word of a primary key is none of these words. -/
theorem EndsRule.notWord {next : Option Token} (h : EndsRule next) :
    NotWord "asc" next ∧ NotWord "desc" next ∧ NotWord "autoincrement" next := by
  have hall : forall next, next ∈ declarationEnds ->
      NotWord "asc" next ∧ NotWord "desc" next ∧
        NotWord "autoincrement" next := by
    decide
  exact hall next h

theorem takes_rule (constraint : Constraint) :
    Takes EndsRule Command.readRule? (Constraint.tokens constraint)
      (some (Constraint.rule constraint)) := by
  unfold Command.readRule?
  cases constraint with
  | notNull =>
      apply Takes.tryWord (by decide)
      exact Takes.word (by decide) (Takes.pure _)
  | unique =>
      apply Takes.notWord _ (fun _ _ => Definition.notWord_unique)
      exact Takes.tryWord (by decide) (Takes.pure _)
  | primaryKey =>
      -- Behind a primary key three words may follow, none of which is written.
      have hbehind : Takes EndsRule
          (do
            let _ <- Reader.tryWord "desc"
            return some (ColumnRule.primaryKey
              (<- Reader.tryWord "autoincrement")))
          [] (some (.primaryKey false)) := by
        apply Takes.look (NotWord "desc") (fun _ => run_tryWord_of_notWord) _
          (fun _ hnext => hnext.notWord.right.left)
        exact Takes.look (NotWord "autoincrement")
          (fun _ => run_tryWord_of_notWord) (Takes.pure _)
          (fun _ hnext => hnext.notWord.right.right)
      apply Takes.notWord _ (fun _ _ => Definition.notWord_primary.left)
      apply Takes.notWord _ (fun _ _ => Definition.notWord_primary.right)
      apply Takes.tryWord (by decide)
      apply Takes.word (by decide)
      exact Takes.look (NotWord "asc") (fun _ => run_tryWord_of_notWord) hbehind
        (fun _ hnext => hnext.notWord.left)

theorem takes_defaultRule (literal : Literal) :
    Takes follow Command.readRule? (.word "DEFAULT" :: literal.tokens)
      (some (.default literal.expr)) := by
  have hwords : NotWord "not" (some (.word "DEFAULT")) ∧
      NotWord "unique" (some (.word "DEFAULT")) ∧
      NotWord "primary" (some (.word "DEFAULT")) := by decide
  have hdefault := (@takes_default follow literal).map fun expr =>
    some (ColumnRule.default expr)
  rw [map_eq_pure_bind] at hdefault
  unfold Command.readRule?
  apply Takes.notWord _ (fun _ _ => hwords.left)
  apply Takes.notWord _ (fun _ _ => hwords.right.left)
  apply Takes.notWord _ (fun _ _ => hwords.right.right)
  exact Takes.tryWord (by decide) hdefault

theorem takes_noRule :
    Takes Definition.EndsDeclaration Command.readRule? [] none := by
  have hends {word : String} (hcomma : NotWord word (some (.sign ",")))
      (hclosing : NotWord word (some (.sign ")"))) {next : Option Token}
      (hnext : Definition.EndsDeclaration next) : NotWord word next := by
    rcases hnext with rfl | rfl
    · exact hcomma
    · exact hclosing
  unfold Command.readRule?
  apply Takes.notWord _ (fun _ => hends (by decide) (by decide))
  apply Takes.notWord _ (fun _ => hends (by decide) (by decide))
  apply Takes.notWord _ (fun _ => hends (by decide) (by decide))
  apply Takes.notWord _ (fun _ => hends (by decide) (by decide))
  apply Takes.notWord _ (fun _ => hends (by decide) (by decide))
  exact Takes.notWord (Takes.pure none) (fun _ => hends (by decide) (by decide))

theorem repeats_readRules : Repeats Command.readRule? Command.readRules where
  zero := rfl
  succ fuel := by
    rw [Command.readRules]
    congr 1
    funext rule?
    cases rule? <;> rfl

inductive RulePhrase : List Token -> ColumnRule -> Prop where
  | constraint (constraint : Constraint) :
      RulePhrase (Constraint.tokens constraint) (Constraint.rule constraint)
  | default (literal : Literal) :
      RulePhrase (.word "DEFAULT" :: literal.tokens) (.default literal.expr)

theorem RulePhrase.takes {tokens : List Token} {rule : ColumnRule}
    (h : RulePhrase tokens rule) :
    Takes EndsRule Command.readRule? tokens (some rule) := by
  cases h with
  | constraint constraint => exact takes_rule constraint
  | default literal => exact takes_defaultRule literal

theorem RulePhrase.endsRule_head {tokens : List Token} {rule : ColumnRule}
    (h : RulePhrase tokens rule) :
    exists token, tokens.head? = some token ∧ EndsRule (some token) := by
  cases h with
  | constraint constraint => cases constraint <;> exact ⟨_, rfl, by decide⟩
  | default literal => exact ⟨_, rfl, by decide⟩

theorem Declaration.rulePhrase {declaration : Declaration}
    {rule : List Token × ColumnRule} (hmem : rule ∈ declaration.rules) :
    RulePhrase rule.1 rule.2 := by
  rcases List.mem_append.mp hmem with hmem | hmem
  · rcases List.mem_map.mp hmem with ⟨constraint, _, rfl⟩
    exact .constraint constraint
  · rcases List.mem_map.mp hmem with ⟨literal, _, rfl⟩
    exact .default literal

theorem takes_rules {rules : List (List Token × ColumnRule)}
    (hrules : forall rule, rule ∈ rules -> RulePhrase rule.1 rule.2) :
    Takes Definition.EndsDeclaration
      (do Command.readRules (<- get).length)
      (rules.flatMap Prod.fst) (rules.map Prod.snd) :=
  takes_repeated repeats_readRules takes_noRule
    (fun _ => endsRule_of_endsDeclaration)
    (fun rule hmem => ⟨(hrules rule hmem).takes, (hrules rule hmem).endsRule_head⟩)

/-!
# Reading types
-/

def EndsType : Follow :=
  fun next => (next.bind fun token => Lexeme.name? ⟨[], [], token⟩) = none ∧
    NotSign "(" next

instance (next : Option Token) : Decidable (EndsType next) :=
  inferInstanceAs (Decidable (_ ∧ _))

theorem EndsRule.endsType {next : Option Token} (h : EndsRule next) :
    EndsType next := by
  have hall : forall next, next ∈ declarationEnds -> EndsType next := by decide
  exact hall next h

theorem run_skipNames_of_endsType {lexemes : List Lexeme}
    (h : EndsType (next? lexemes)) (fuel : Nat) :
    (Command.skipNames fuel).run lexemes = .ok ((), lexemes) := by
  have hname : lexemes.head?.bind Lexeme.name? = none := by
    have hnext := h.left
    rw [next?, Option.bind_map] at hnext
    exact hnext
  cases fuel with
  | zero => rfl
  | succ fuel =>
      rw [Command.skipNames, Reader.run_bind (Reader.run_tryName_of_no_name hname)]
      rfl

theorem takes_type {name : String} (hname : isReserved name = false) :
    Takes EndsType Command.readType [.word name] name := by
  intro lexemes rest hlexemes hrest
  rcases hlexemes.eq_cons with ⟨lexeme, others, rfl, htoken, hfaithful, hnil⟩
  rw [hnil.eq_nil]
  have hget (all : List Lexeme) : (get : Reader _).run all = .ok (all, all) :=
    rfl
  have htry := Reader.run_tryName_of_name
    (name?_of_nameToken (htoken ▸ NameToken.word hname)) rest
  have hskip : (Command.skipNames (rest.length + 1)).run (lexeme :: rest) =
      .ok ((), rest) := by
    rw [Command.skipNames, Reader.run_bind htry]
    exact run_skipNames_of_endsType hrest rest.length
  have hbehind : (do
        Command.skipNames ([lexeme] ++ rest).length
        if (<- get).length < ([lexeme] ++ rest).length then
          Command.readTypeSize : Reader Unit).run ([lexeme] ++ rest) =
      .ok ((), rest) := by
    rw [List.singleton_append, List.length_cons, Reader.run_bind hskip,
      Reader.run_bind (hget _), if_pos (Nat.lt_succ_self _)]
    unfold Command.readTypeSize
    rw [Reader.run_bind (run_trySign_of_notSign hrest.right)]
    rfl
  unfold Command.readType
  rw [Reader.run_bind (hget _), Reader.run_bind (run_withLexemes hbehind)]
  dsimp only
  rw [written_singleton htoken hfaithful]
  rfl

theorem endsType_rules {rules : List (List Token × ColumnRule)}
    (hrules : forall rule, rule ∈ rules -> RulePhrase rule.1 rule.2)
    {next : Option Token} (hnext : Definition.EndsDeclaration next) :
    EndsType ((rules.flatMap Prod.fst).head?.or next) := by
  apply EndsRule.endsType
  cases rules with
  | nil => exact endsRule_of_endsDeclaration hnext
  | cons first others =>
      rcases (hrules first List.mem_cons_self).endsRule_head with
        ⟨token, hhead, hends⟩
      rwa [List.flatMap_cons, List.head?_append, hhead]

theorem not_isReserved_type (type : ColumnType) : isReserved type.name = false := by
  cases type <;> decide

/-- The declaration of a column, whatever its rules are. -/
theorem takes_columnSpec {token : Token} {name : String}
    (hname : NameToken token name) {type : String}
    (htype : isReserved type = false) {rules : List (List Token × ColumnRule)}
    (hrules : forall rule, rule ∈ rules -> RulePhrase rule.1 rule.2) :
    Takes Definition.EndsDeclaration Command.readColumnSpec
      ([token, .word type] ++ rules.flatMap Prod.fst)
      ⟨name, type, rules.map Prod.snd⟩ := by
  have hspec := (takes_rules hrules).map fun rules =>
    (⟨name, type, rules⟩ : ColumnSpec)
  rw [map_eq_pure_bind, bind_assoc] at hspec
  rw [List.cons_append]
  apply Takes.name hname
  exact Takes.bind (takes_type htype) hspec
    (fun _ hnext => endsType_rules hrules hnext)

theorem Declaration.takes_spec {declaration : Declaration}
    (hname : isReserved declaration.name = false) :
    Takes Definition.EndsDeclaration Command.readColumnSpec declaration.tokens
      declaration.spec := by
  rw [declaration.tokens_eq]
  exact takes_columnSpec (NameToken.word hname) (not_isReserved_type _)
    (fun _ => Declaration.rulePhrase)

/-!
# Reading creations
-/

theorem endsDeclarations_closing {next : Option Token}
    (h : next = some (.sign ")")) :
    Definition.EndsDeclaration next ∧ NotSign "," next := by
  rw [h]
  exact ⟨.inr rfl, by decide⟩

theorem takes_creationOf {token : Token} {table : String}
    (htable : NameToken token table) {tokens : List Token}
    {columns : List ColumnSpec}
    (hcolumns : Takes (fun next => next = some (.sign ")"))
      (Reader.commaSeparated Command.readColumnSpec) tokens columns) :
    Takes follow Command.readStatement
      ([.word "CREATE", .word "TABLE", .word "IF", .word "NOT",
        .word "EXISTS", token] ++ group tokens)
      (.createTable table true columns) := by
  have hwords : NotWord "select" (some (.word "CREATE")) ∧
      NotWord "insert" (some (.word "CREATE")) ∧
      NotWord "update" (some (.word "CREATE")) ∧
      NotWord "delete" (some (.word "CREATE")) := by decide
  have hgroup := (@Takes.parenthesized _ follow _ _ _ hcolumns).map
    (Command.createTable table true)
  rw [map_eq_pure_bind] at hgroup
  unfold Command.readStatement
  apply Takes.notWord _ (fun _ _ => hwords.left)
  apply Takes.notWord _ (fun _ _ => hwords.right.left)
  apply Takes.notWord _ (fun _ _ => hwords.right.right.left)
  apply Takes.notWord _ (fun _ _ => hwords.right.right.right)
  apply Takes.tryWord (by decide)
  unfold Command.readCreate
  apply Takes.word (by decide)
  change Takes follow _ ([.word "IF", .word "NOT", .word "EXISTS"] ++
    token :: group tokens) _
  exact Takes.bind takes_ifNotExists (Takes.name htable hgroup)
    (fun _ _ => trivial)

theorem takes_creation {table : String} (htable : isReserved table = false)
    {declarations : List Declaration} (hne : declarations ≠ [])
    (hnames : forall declaration, declaration ∈ declarations ->
      isReserved declaration.name = false) :
    Takes follow Command.readStatement
      ([.word "CREATE", .word "TABLE", .word "IF", .word "NOT",
        .word "EXISTS", .word table] ++
        group (separated (declarations.map Declaration.tokens)))
      (.createTable table true (declarations.map Declaration.spec)) := by
  have hcolumns := takes_commaSeparated (.inl (Eq.refl _))
    (fun declaration hmem => Declaration.takes_spec (hnames declaration hmem)) hne
  exact takes_creationOf (NameToken.word htable)
    (hcolumns.weaken fun _ => endsDeclarations_closing)

end Takes

end Sql

namespace Statement

open Sql (Declaration)

theorem not_isReserved_declarations {columns : List Column}
    (hnames : forall column, column ∈ columns ->
      Sql.isPlainName column.name = true) :
    forall declaration, declaration ∈ columns.map Declaration.ofColumn ->
      Sql.isReserved declaration.name = false := by
  intro declaration hmem
  rcases List.mem_map.mp hmem with ⟨column, hcolumn, rfl⟩
  exact not_isReserved (hnames column hcolumn)

/-- The engine reads the creation of a table as the columns that it declares. -/
theorem read_createTable {table : String} {columns : Columns}
    (htable : Sql.isPlainName table = true) (hne : columns.toList ≠ [])
    (hnames : forall column, column ∈ columns.toList ->
      Sql.isPlainName column.name = true) :
    Sql.Command.read.run (Sql.scan (createTable table columns)) =
      .ok (.createTable table true
        ((columns.toList.map Declaration.ofColumn).map Declaration.spec), []) := by
  have hpiece := piece_createTable (spellsWord_of_isPlainName htable) hne
    (fun column hmem => spellsWord_of_isPlainName (hnames column hmem))
  have htokens := Sql.spells_scan (createTable table columns)
  rw [hpiece.scan_eq] at htokens
  have htakes := @Sql.takes_creation (fun _ => True) _ (not_isReserved htable) _
    (declarations_ne_nil hne) (not_isReserved_declarations hnames)
  exact Sql.run_read_of_takes htakes htokens trivial

end Statement
end TableStore
