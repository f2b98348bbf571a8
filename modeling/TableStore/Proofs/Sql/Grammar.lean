import TableStore.Proofs.Sql.Reader
import TableStore.Sql.Expr

/-!
# The grammar of expressions

Which tokens are an expression, and which one, said without a reader: a phrase
of a strength is built from phrases whose operators bind at least as tightly.
`OR` is the weakest, then come `AND`, `NOT`, the tests for equality, the tests
for order, and the operands, to which belongs anything between parentheses.

The grammar is unambiguous, because the reader of expressions, which decides
with one token in advance, arrives at every tree that the grammar allows.
-/

namespace TableStore
namespace Sql

/-!
# Phrases
-/

/-- The tokens of operators that stand between two expressions. -/
inductive OperatorToken : Token -> Expr.Operator -> Prop where
  | or {name : String} :
      Text.foldCase name = "or" -> OperatorToken (.word name) .or
  | and {name : String} :
      Text.foldCase name = "and" -> OperatorToken (.word name) .and
  | compare {sign : String} {comparison : Comparison} :
      (sign, comparison) ∈ Expr.Operator.signs ->
      OperatorToken (.sign sign) (.compare comparison)

/-- The tokens that are names. -/
inductive NameToken : Token -> String -> Prop where
  | word {name : String} :
      isReserved name = false -> NameToken (.word name) name
  | name (name : String) : NameToken (.name name) name

/-- The tokens that are values. -/
inductive ValueToken : Token -> Expr -> Prop where
  | null {name : String} :
      Text.foldCase name = "null" -> ValueToken (.word name) (.literal .null)
  | integer (n : Nat) : ValueToken (.integer n) (Expr.ofDigits false n)
  | decimal (d : Decimal.Scaled) : ValueToken (.decimal d) (.decimal false d)
  | text (s : String) : ValueToken (.text s) (.literal (.text s))
  | blob (bytes : List UInt8) : ValueToken (.blob bytes) (.literal (.blob bytes))

/-- The strength of an expression that is no operator's. -/
def operandStrength : Nat := Expr.topStrength + 1

/-- Tokens that are an expression of a strength. -/
inductive Phrase : Nat -> List Token -> Expr -> Prop where
  | column {token : Token} {name : String} :
      NameToken token name ->
      Phrase operandStrength [token] (.column none name)
  | columnOf {first second : Token} {table name : String} :
      NameToken first table -> NameToken second name ->
      Phrase operandStrength [first, .sign ".", second]
        (.column (some table) name)
  | value {token : Token} {tree : Expr} :
      ValueToken token tree -> Phrase operandStrength [token] tree
  | negativeInteger (n : Nat) :
      Phrase operandStrength [.sign "-", .integer n] (Expr.ofDigits true n)
  | negativeDecimal (d : Decimal.Scaled) :
      Phrase operandStrength [.sign "-", .decimal d] (.decimal true d)
  | placeholder (index : Nat) :
      Phrase operandStrength [.placeholder index] (.placeholder index)
  | group {tokens : List Token} {tree : Expr} :
      Phrase 0 tokens tree ->
      Phrase operandStrength (.sign "(" :: tokens ++ [.sign ")"]) tree
  | not {name : String} {tokens : List Token} {tree : Expr} :
      Text.foldCase name = "not" ->
      Phrase Expr.notStrength tokens tree ->
      Phrase Expr.notStrength (.word name :: tokens) (.not tree)
  | binary {operator : Expr.Operator} {token : Token}
      {left right : List Token} {leftTree rightTree : Expr} :
      Phrase operator.strength left leftTree ->
      OperatorToken token operator ->
      Phrase (operator.strength + 1) right rightTree ->
      Phrase operator.strength (left ++ token :: right)
        (operator.apply leftTree rightTree)
  | tighter {strength : Nat} {tokens : List Token} {tree : Expr} :
      Phrase (strength + 1) tokens tree -> Phrase strength tokens tree

theorem Phrase.weaken {strong : Nat} {tokens : List Token} {tree : Expr}
    (h : Phrase strong tokens tree) {weak : Nat} (hle : weak <= strong) :
    Phrase weak tokens tree := by
  induction hle with
  | refl => exact h
  | step _ ih => exact ih (Phrase.tighter h)

/-- A text that is an expression. -/
def Sentence (text : String) (tree : Expr) : Prop :=
  Phrase 0 ((scan text).map Lexeme.token) tree

/-!
# Tokens as the reader sees them
-/

theorem ofLexeme?_of_operatorToken {lexeme : Lexeme}
    {operator : Expr.Operator} (h : OperatorToken lexeme.token operator) :
    Expr.Operator.ofLexeme? lexeme = some operator := by
  unfold Expr.Operator.ofLexeme?
  generalize htoken : lexeme.token = token at h
  cases h with
  | or hname =>
      have hword : lexeme.isWord "or" = true :=
        Lexeme.isWord_eq_true_iff.mpr ⟨_, htoken, hname⟩
      simp [hword]
  | and hname =>
      rename_i name
      have hword : lexeme.isWord "and" = true :=
        Lexeme.isWord_eq_true_iff.mpr ⟨_, htoken, hname⟩
      have hother : lexeme.isWord "or" = false := by
        simp [Lexeme.isWord, htoken, hname]
      simp [hword, hother]
  | compare hsign =>
      simp only [Expr.Operator.signs, List.mem_cons, Prod.mk.injEq,
        List.not_mem_nil, or_false] at hsign
      rcases hsign with ⟨rfl, rfl⟩ | ⟨rfl, rfl⟩ | ⟨rfl, rfl⟩ | ⟨rfl, rfl⟩ |
        ⟨rfl, rfl⟩ | ⟨rfl, rfl⟩ | ⟨rfl, rfl⟩ | ⟨rfl, rfl⟩ <;> rfl

theorem ofLexeme?_closing {lexeme : Lexeme} (h : lexeme.token = .sign ")") :
    Expr.Operator.ofLexeme? lexeme = none := by
  unfold Expr.Operator.ofLexeme?
  rw [h]
  rfl

theorem name?_of_nameToken {lexeme : Lexeme} {name : String}
    (h : NameToken lexeme.token name) : lexeme.name? = some name := by
  unfold Lexeme.name?
  generalize lexeme.token = token at h
  cases h with
  | word hname => simp [hname]
  | name => rfl

theorem not_isWord_of_nameToken {lexeme : Lexeme} {name : String}
    (h : NameToken lexeme.token name) (word : String)
    (hword : word ∈ reservedWords) :
    ¬ lexeme.isWord word = true := by
  intro his
  rcases Lexeme.isWord_eq_true_iff.mp his with ⟨spelled, htoken, hfold⟩
  rw [htoken] at h
  cases h with
  | word hname =>
      have hreserved : isReserved name = true := by
        rw [isReserved, hfold]
        exact List.contains_iff_mem.mpr hword
      rw [hname] at hreserved
      cases hreserved

/-!
# The reader finds every phrase

Behind a phrase the reader looks at one more token.  It stops there unless the
token is an operator that binds more tightly than the phrase, or the point
between a table and its column.
-/

/-- What comes next does not prolong a phrase of a strength. -/
structure StopsAt (strength : Nat) (rest : List Lexeme) : Prop where
  operator_le : forall operator,
    rest.head?.bind Expr.Operator.ofLexeme? = some operator ->
      operator.strength <= strength
  no_point : forall lexeme, rest.head? = some lexeme ->
    ¬ lexeme.isSign "." = true

namespace StopsAt

theorem weaken {weak strong : Nat} {rest : List Lexeme}
    (h : StopsAt weak rest) (hle : weak <= strong) : StopsAt strong rest := by
  constructor
  · intro operator hnext
    exact Nat.le_trans (h.operator_le operator hnext) hle
  · exact h.no_point

theorem of_no_operator {rest : List Lexeme}
    (hnext : rest.head?.bind Expr.Operator.ofLexeme? = none)
    (hpoint : forall lexeme, rest.head? = some lexeme ->
      ¬ lexeme.isSign "." = true)
    (strength : Nat) : StopsAt strength rest := by
  constructor
  · intro operator hoperator
    rw [hnext] at hoperator
    cases hoperator
  · exact hpoint

theorem operatorToken {lexeme : Lexeme} {operator : Expr.Operator}
    (h : OperatorToken lexeme.token operator) (rest : List Lexeme) :
    StopsAt operator.strength (lexeme :: rest) := by
  constructor
  · intro other hnext
    rw [List.head?_cons, Option.bind_some,
      ofLexeme?_of_operatorToken h] at hnext
    cases hnext
    exact Nat.le_refl _
  · intro first hnext hpoint
    cases hnext
    rw [Lexeme.isSign_eq_true_iff.mp hpoint] at h
    cases h with
    | compare hsign =>
        simp [Expr.Operator.signs] at hsign

theorem closing {lexeme : Lexeme} (h : lexeme.token = .sign ")")
    (strength : Nat) (rest : List Lexeme) :
    StopsAt strength (lexeme :: rest) := by
  apply of_no_operator
  · exact ofLexeme?_closing h
  · intro first hfirst hpoint
    cases hfirst
    rw [Lexeme.isSign_eq_true_iff.mp hpoint] at h
    exact absurd h (by decide)

end StopsAt

/--
How strong the operators may have to be where a phrase is read: behind `NOT`
only stronger operators are looked for, but there may be another `NOT`.
-/
def reach (strength : Nat) : Nat :=
  if strength = Expr.notStrength then Expr.notStrength + 1 else strength

theorem le_reach (strength : Nat) : strength <= reach strength := by
  unfold reach
  split
  · omega
  · exact Nat.le_refl strength

theorem reach_le_reach_succ (strength : Nat) :
    reach strength <= reach (strength + 1) := by
  unfold reach
  split <;> split <;> omega

namespace Expr

theorem readOperators_of_stopsAt {strength least fuel : Nat}
    {rest : List Lexeme} (hstop : StopsAt strength rest)
    (hless : strength < least) (hfuel : 0 < fuel) (left : Expr) :
    (readOperators fuel least left).run rest = .ok (left, rest) := by
  cases fuel with
  | zero => omega
  | succ fuel =>
      rw [readOperators, Reader.run_bind (Reader.run_peek? rest)]
      cases hnext : rest.head?.bind Operator.ofLexeme? with
      | none => exact Reader.run_pure left rest
      | some operator =>
          have hle : operator.strength <= strength :=
            hstop.operator_le operator hnext
          have hlt : operator.strength < least := by omega
          simp only [if_pos hlt]
          exact Reader.run_pure left rest

theorem readOperators_of_no_operator {fuel : Nat} (rest : List Lexeme)
    (hnext : rest.head?.bind Operator.ofLexeme? = none) (hfuel : 0 < fuel)
    (least : Nat) (left : Expr) :
    (readOperators fuel least left).run rest = .ok (left, rest) := by
  cases fuel with
  | zero => omega
  | succ fuel =>
      rw [readOperators, Reader.run_bind (Reader.run_peek? rest), hnext]
      exact Reader.run_pure left rest

theorem readFrom_of_readOperand {fuel least : Nat} {before after : List Lexeme}
    {tree : Expr} (h : (readOperand fuel).run before = .ok (tree, after)) :
    (readFrom (fuel + 1) least).run before =
      (readOperators fuel least tree).run after := by
  rw [readFrom]
  exact Reader.run_bind h

theorem exists_left_of_readOperand (need : Nat) {count fuel : Nat}
    (hpos : 0 < need) (hneed : need <= 2 * count) (hfuel : 2 * count < fuel)
    {before after : List Lexeme} {tree : Expr}
    (h : forall spare,
      (readOperand (spare + need)).run before = .ok (tree, after))
    (least : Nat) :
    exists left, fuel <= left + count ∧
      (readFrom fuel least).run before =
        (readOperators left least tree).run after := by
  have hsum : fuel - 1 - need + need + 1 = fuel := by omega
  exists fuel - 1 - need + need
  constructor
  · omega
  · rw [← readFrom_of_readOperand (h (fuel - 1 - need)), hsum]

/-!
# Reading operands
-/

theorem readOperand_of_value {lexeme : Lexeme} {tree : Expr}
    (h : ValueToken lexeme.token tree) (fuel : Nat) (rest : List Lexeme) :
    (readOperand (fuel + 1)).run (lexeme :: rest) = .ok (tree, rest) := by
  rw [readOperand, Reader.run_bind (Reader.run_peek? _), List.head?_cons,
    Option.map_some]
  generalize htoken : lexeme.token = token at h
  cases h with
  | null hname =>
      have hnot : ¬ lexeme.isWord "not" = true := by
        simp [Lexeme.isWord, htoken, hname]
      have hnull : lexeme.isWord "null" = true :=
        Lexeme.isWord_eq_true_iff.mpr ⟨_, htoken, hname⟩
      rw [Reader.run_bind (Reader.run_tryWord_of_not_isWord hnot rest),
        if_neg Bool.false_ne_true,
        Reader.run_bind (Reader.run_tryWord_of_isWord hnull rest), if_pos rfl]
      exact Reader.run_pure _ rest
  | integer n => rfl
  | decimal d => rfl
  | text s => rfl
  | blob bytes => rfl

theorem readOperand_of_placeholder {lexeme : Lexeme} {index : Nat}
    (h : lexeme.token = .placeholder index) (fuel : Nat)
    (rest : List Lexeme) :
    (readOperand (fuel + 1)).run (lexeme :: rest) =
      .ok (.placeholder index, rest) := by
  rw [readOperand, Reader.run_bind (Reader.run_peek? _), List.head?_cons,
    Option.map_some, h]
  rfl

theorem readOperand_of_name {lexeme : Lexeme} {name : String}
    (h : NameToken lexeme.token name) (fuel : Nat) (rest : List Lexeme) :
    (readOperand (fuel + 1)).run (lexeme :: rest) =
      readColumn.run (lexeme :: rest) := by
  have hnot := not_isWord_of_nameToken h "not" (by decide)
  have hnull := not_isWord_of_nameToken h "null" (by decide)
  rw [readOperand, Reader.run_bind (Reader.run_peek? _), List.head?_cons,
    Option.map_some]
  generalize htoken : lexeme.token = token at h
  cases h <;>
    simp only [Reader.run_bind (Reader.run_tryWord_of_not_isWord hnot rest),
      Bool.false_eq_true, if_false,
      Reader.run_bind (Reader.run_tryWord_of_not_isWord hnull rest)]

theorem readColumn_of_name {lexeme : Lexeme} {name : String}
    (h : NameToken lexeme.token name) {rest : List Lexeme}
    (hpoint : forall next, rest.head? = some next ->
      ¬ next.isSign "." = true) :
    readColumn.run (lexeme :: rest) = .ok (.column none name, rest) := by
  have htry : (Reader.trySign ".").run rest = .ok (false, rest) := by
    cases rest with
    | nil => exact Reader.run_trySign_nil "."
    | cons next rest =>
        exact Reader.run_trySign_of_not_isSign (hpoint next rfl) rest
  unfold readColumn
  rw [Reader.run_bind (Reader.run_name (name?_of_nameToken h) rest),
    Reader.run_bind htry]
  rfl

theorem readColumn_of_names {first point second : Lexeme}
    {table name : String} (hfirst : NameToken first.token table)
    (hpoint : point.token = .sign ".") (hsecond : NameToken second.token name)
    (rest : List Lexeme) :
    readColumn.run (first :: point :: second :: rest) =
      .ok (.column (some table) name, rest) := by
  have hsign := Lexeme.isSign_eq_true_iff.mpr hpoint
  unfold readColumn
  rw [Reader.run_bind (Reader.run_name (name?_of_nameToken hfirst) _),
    Reader.run_bind (Reader.run_trySign_of_isSign hsign _), if_pos rfl,
    Reader.run_bind (Reader.run_name (name?_of_nameToken hsecond) rest)]
  rfl

theorem readOperand_of_minus {minus : Lexeme} (hminus : minus.token = .sign "-")
    {fuel : Nat} {before after : List Lexeme} {tree : Expr}
    (h : (readOperand fuel).run before = .ok (tree, after)) :
    (readOperand (fuel + 1)).run (minus :: before) =
      .ok (negated (digitsOf? before.head?) tree, after) := by
  have hopen : ¬ minus.isSign "(" = true := by
    simp [Lexeme.isSign, hminus]
  have hsign := Lexeme.isSign_eq_true_iff.mpr hminus
  rw [readOperand, Reader.run_bind (Reader.run_peek? _), List.head?_cons,
    Option.map_some, hminus]
  simp only [Reader.run_bind (Reader.run_trySign_of_not_isSign hopen before),
    Bool.false_eq_true, if_false, if_true,
    Reader.run_bind (Reader.run_trySign_of_isSign hsign before),
    Reader.run_bind (Reader.run_peek? before), Reader.run_bind h]
  exact Reader.run_pure _ after

theorem readOperand_of_group {opening closing : Lexeme}
    (hopening : opening.token = .sign "(") (hclosing : closing.token = .sign ")")
    {fuel : Nat} {inner rest : List Lexeme} {tree : Expr}
    (h : (readFrom fuel 0).run inner = .ok (tree, closing :: rest)) :
    (readOperand (fuel + 1)).run (opening :: inner) = .ok (tree, rest) := by
  have hopen := Lexeme.isSign_eq_true_iff.mpr hopening
  have hclose := Lexeme.isSign_eq_true_iff.mpr hclosing
  rw [readOperand, Reader.run_bind (Reader.run_peek? _), List.head?_cons,
    Option.map_some, hopening]
  simp only [Reader.run_bind (Reader.run_trySign_of_isSign hopen inner),
    if_true, Reader.run_bind h, Reader.run_bind (Reader.run_sign hclose rest)]
  exact Reader.run_pure _ rest

theorem readOperand_of_not {lexeme : Lexeme} {name : String}
    (htoken : lexeme.token = .word name) (hname : Text.foldCase name = "not")
    {fuel : Nat} {before after : List Lexeme} {tree : Expr}
    (h : (readFrom fuel (notStrength + 1)).run before = .ok (tree, after)) :
    (readOperand (fuel + 1)).run (lexeme :: before) =
      .ok (.not tree, after) := by
  have hword := Lexeme.isWord_eq_true_iff.mpr ⟨name, htoken, hname⟩
  rw [readOperand, Reader.run_bind (Reader.run_peek? _), List.head?_cons,
    Option.map_some, htoken]
  simp only [Reader.run_bind (Reader.run_tryWord_of_isWord hword before),
    if_true, Reader.run_bind h]
  exact Reader.run_pure _ after

/-!
# Reading phrases

Having read a phrase, the reader is where it would be if the phrase had been a
single operand: it looks for further operators with the tree of the phrase on
their left.  The fuel left over is bounded by the number of tokens read.  Each
way to build a phrase has its own lemma, and the induction is on the phrase.
-/

/-- Wherever a phrase of a strength may stand, tokens are read as a tree. -/
def Finds (strength : Nat) (tokens : List Token) (tree : Expr) : Prop :=
  forall (lexemes rest : List Lexeme) (least fuel : Nat),
    lexemes.map Lexeme.token = tokens ->
    StopsAt strength rest ->
    least <= reach strength ->
    2 * lexemes.length < fuel ->
    exists left, fuel <= left + lexemes.length ∧
      (readFrom fuel least).run (lexemes ++ rest) =
        (readOperators left least tree).run rest

section Finds

variable {strength : Nat} {token : Token} {tokens : List Token} {tree : Expr}

theorem Finds.of_readOperand (need : Nat) (hpos : 0 < need)
    (hneed : need <= 2 * tokens.length)
    (h : forall lexemes rest, lexemes.map Lexeme.token = tokens ->
      StopsAt strength rest -> forall spare,
        (readOperand (spare + need)).run (lexemes ++ rest) =
          .ok (tree, rest)) :
    Finds strength tokens tree := by
  intro lexemes rest least fuel hmap hstop _ hfuel
  have hlength : lexemes.length = tokens.length := by
    rw [<- hmap, List.length_map]
  exact exists_left_of_readOperand need hpos (hlength ▸ hneed) hfuel
    (h lexemes rest hmap hstop) least

theorem Finds.of_lexeme
    (h : forall lexeme rest, lexeme.token = token ->
      StopsAt strength rest -> forall spare,
        (readOperand (spare + 1)).run (lexeme :: rest) = .ok (tree, rest)) :
    Finds strength [token] tree := by
  apply Finds.of_readOperand 1 (by omega) (by simp)
  intro lexemes rest hmap hstop
  rcases List.map_eq_singleton_iff.mp hmap with ⟨lexeme, rfl, htoken⟩
  exact h lexeme rest htoken hstop

theorem finds_column {name : String} (hname : NameToken token name) :
    Finds strength [token] (.column none name) := by
  apply Finds.of_lexeme
  rintro lexeme rest rfl hstop spare
  exact (readOperand_of_name hname spare rest).trans
    (readColumn_of_name hname hstop.no_point)

theorem finds_columnOf {second : Token} {table name : String}
    (hfirst : NameToken token table) (hsecond : NameToken second name) :
    Finds strength [token, .sign ".", second]
      (.column (some table) name) := by
  apply Finds.of_readOperand 1 (by omega) (by simp)
  intro lexemes rest hmap _ spare
  simp only [List.map_eq_cons_iff, List.map_eq_nil_iff] at hmap
  rcases hmap with ⟨first, _, rfl, rfl, point, _, rfl, hpoint, second, _,
    rfl, rfl, rfl⟩
  exact (readOperand_of_name hfirst spare _).trans
    (readColumn_of_names hfirst hpoint hsecond rest)

theorem finds_value (hvalue : ValueToken token tree) :
    Finds strength [token] tree := by
  apply Finds.of_lexeme
  rintro lexeme rest rfl _ spare
  exact readOperand_of_value hvalue spare rest

/-- A minus sign in front of a value; it belongs to the digits, if these are one. -/
theorem finds_minus {value : Expr} (hvalue : ValueToken token value)
    (htree : forall lexeme, lexeme.token = token ->
      negated (digitsOf? (some lexeme)) value = tree) :
    Finds strength [.sign "-", token] tree := by
  apply Finds.of_readOperand 2 (by omega) (by simp)
  intro lexemes rest hmap _ spare
  simp only [List.map_eq_cons_iff, List.map_eq_nil_iff] at hmap
  rcases hmap with ⟨minus, _, rfl, hminus, number, _, rfl, rfl, rfl⟩
  rw [<- htree number rfl]
  exact readOperand_of_minus hminus (readOperand_of_value hvalue spare rest)

theorem finds_placeholder (index : Nat) :
    Finds strength [.placeholder index] (.placeholder index) := by
  apply Finds.of_lexeme
  intro lexeme rest htoken _ spare
  exact readOperand_of_placeholder htoken spare rest

theorem Finds.group (h : Finds 0 tokens tree) :
    Finds strength (.sign "(" :: tokens ++ [.sign ")"]) tree := by
  apply Finds.of_readOperand (2 * tokens.length + 2) (by omega)
    (by simp; omega)
  intro lexemes rest hmap _ spare
  rw [List.cons_append, List.map_eq_cons_iff] at hmap
  rcases hmap with ⟨opening, _, rfl, hopening, hmap⟩
  rcases List.map_eq_append_iff.mp hmap with ⟨inner, _, rfl, rfl, hlast⟩
  rcases List.map_eq_singleton_iff.mp hlast with ⟨closing, rfl, hclosing⟩
  rw [List.length_map]
  rcases h inner (closing :: rest) 0 (spare + (2 * inner.length + 1)) rfl
      (StopsAt.closing hclosing 0 rest) (Nat.zero_le _) (by omega) with
    ⟨left, hleft, hread⟩
  have hend := readOperators_of_no_operator (closing :: rest)
    (ofLexeme?_closing hclosing) (show 0 < left by omega) 0
  rw [List.cons_append, List.append_assoc]
  exact readOperand_of_group hopening hclosing (hread.trans (hend _))

theorem Finds.not {name : String} (hname : Text.foldCase name = "not")
    (h : Finds notStrength tokens tree) :
    Finds notStrength (.word name :: tokens) (.not tree) := by
  apply Finds.of_readOperand (2 * tokens.length + 1 + 1) (by omega)
    (by simp; omega)
  intro lexemes rest hmap hstop spare
  rw [List.map_eq_cons_iff] at hmap
  rcases hmap with ⟨lexeme, inner, rfl, htoken, rfl⟩
  rw [List.length_map]
  rcases h inner rest (notStrength + 1) (spare + (2 * inner.length + 1)) rfl
      hstop (Nat.le_refl _) (by omega) with
    ⟨left, hleft, hread⟩
  have hend := readOperators_of_stopsAt hstop
    (Nat.lt_succ_self notStrength) (show 0 < left by omega)
  exact readOperand_of_not htoken hname (hread.trans (hend _))

/-- The operator stands behind its left side, and takes its right side with it. -/
theorem readOperators_of_operatorToken {operator : Operator} {lexeme : Lexeme}
    (htoken : OperatorToken lexeme.token operator) {least fuel : Nat}
    (hleast : least <= operator.strength) {before after : List Lexeme}
    {right : Expr}
    (h : (readFrom fuel (operator.strength + 1)).run before =
      .ok (right, after))
    (left : Expr) :
    (readOperators (fuel + 1) least left).run (lexeme :: before) =
      (readOperators fuel least (operator.apply left right)).run after := by
  rw [readOperators, Reader.run_bind (Reader.run_peek? _), List.head?_cons,
    Option.bind_some, ofLexeme?_of_operatorToken htoken]
  simp only [if_neg (Nat.not_lt.mpr hleast)]
  rw [Reader.run_bind (Reader.run_skip_cons _ _), Reader.run_bind h]

theorem reach_operator (operator : Operator) :
    reach operator.strength = operator.strength := by
  cases operator with
  | or => rfl
  | and => rfl
  | compare comparison => cases comparison <;> rfl

theorem Finds.binary {operator : Operator} {others : List Token}
    {other : Expr} (h : Finds operator.strength tokens tree)
    (htoken : OperatorToken token operator)
    (hother : Finds (operator.strength + 1) others other) :
    Finds operator.strength (tokens ++ token :: others)
      (operator.apply tree other) := by
  intro lexemes rest least fuel hmap hstop hleast hfuel
  rcases List.map_eq_append_iff.mp hmap with
    ⟨first, _, rfl, hfirst, hothers⟩
  rcases List.map_eq_cons_iff.mp hothers with
    ⟨lexeme, second, rfl, rfl, hsecond⟩
  simp only [List.length_append, List.length_cons] at hfuel ⊢
  rcases h first (lexeme :: (second ++ rest)) least fuel hfirst
      (StopsAt.operatorToken htoken _) hleast (by omega) with
    ⟨afterLeft, hafterLeft, hreadLeft⟩
  cases afterLeft with
  | zero => omega
  | succ left =>
      rcases hother second rest (operator.strength + 1) left hsecond
          (hstop.weaken (Nat.le_succ _)) (le_reach _) (by omega) with
        ⟨afterRight, hafterRight, hreadRight⟩
      have hend := readOperators_of_stopsAt hstop
        (Nat.lt_succ_self operator.strength)
        (show 0 < afterRight by omega) other
      rw [reach_operator] at hleast
      exists left
      constructor
      · omega
      · rw [List.append_assoc, List.cons_append, hreadLeft]
        exact readOperators_of_operatorToken htoken hleast
          (hreadRight.trans hend) tree

theorem Finds.tighter (h : Finds (strength + 1) tokens tree) :
    Finds strength tokens tree := by
  intro lexemes rest least fuel hmap hstop hleast hfuel
  exact h lexemes rest least fuel hmap (hstop.weaken (Nat.le_succ _))
    (Nat.le_trans hleast (reach_le_reach_succ _)) hfuel

end Finds

theorem finds_of_phrase {strength : Nat} {tokens : List Token} {tree : Expr}
    (h : Phrase strength tokens tree) : Finds strength tokens tree := by
  induction h with
  | column hname => exact finds_column hname
  | columnOf hfirst hsecond => exact finds_columnOf hfirst hsecond
  | value hvalue => exact finds_value hvalue
  | negativeInteger n =>
      apply finds_minus (ValueToken.integer n)
      intro lexeme htoken
      simp [digitsOf?, htoken, negated]
  | negativeDecimal d =>
      apply finds_minus (ValueToken.decimal d)
      intro lexeme htoken
      simp [digitsOf?, htoken, negated]
  | placeholder index => exact finds_placeholder index
  | group _ ih => exact ih.group
  | not hname _ ih => exact ih.not hname
  | binary _ htoken _ ihleft ihright => exact ihleft.binary htoken ihright
  | tighter _ ih => exact ih.tighter

theorem read_of_phrase {lexemes : List Lexeme} {tree : Expr}
    (h : Phrase 0 (lexemes.map Lexeme.token) tree) (rest : List Lexeme)
    (hnext : rest.head?.bind Operator.ofLexeme? = none)
    (hpoint : forall lexeme, rest.head? = some lexeme ->
      ¬ lexeme.isSign "." = true) :
    Expr.read.run (lexemes ++ rest) = .ok (tree, rest) := by
  rcases finds_of_phrase h lexemes rest 0
      (3 * (lexemes ++ rest).length + 3) rfl
      (StopsAt.of_no_operator hnext hpoint 0) (Nat.zero_le _)
      (by simp only [List.length_append]; omega) with
    ⟨left, hleft, hread⟩
  have hpos : 0 < left := by
    simp only [List.length_append] at hleft
    omega
  exact hread.trans (readOperators_of_no_operator rest hnext hpos 0 tree)

theorem read_of_tokens {lexemes : List Lexeme} {tree : Expr}
    (h : Phrase 0 (lexemes.map Lexeme.token) tree) :
    Expr.read.run lexemes = .ok (tree, []) := by
  have hread := read_of_phrase h [] rfl (by simp)
  rwa [List.append_nil] at hread

end Expr

/-!
# The grammar is unambiguous
-/

theorem Phrase.unique {first second : Nat} {tokens : List Token}
    {tree other : Expr} (h : Phrase first tokens tree)
    (hother : Phrase second tokens other) : tree = other := by
  let lexemes := tokens.map fun token => (⟨[], [], token⟩ : Lexeme)
  have htokens : lexemes.map Lexeme.token = tokens := by
    simp [lexemes, Function.comp_def]
  have hread {reached : Expr} (hreached : Phrase 0 tokens reached) :
      Expr.read.run lexemes = .ok (reached, []) := by
    apply Expr.read_of_tokens
    rw [htokens]
    exact hreached
  have hsame := (hread (h.weaken (Nat.zero_le _))).symm.trans
    (hread (hother.weaken (Nat.zero_le _)))
  cases hsame
  rfl

theorem Sentence.unique {text : String} {tree other : Expr}
    (h : Sentence text tree) (hother : Sentence text other) : tree = other :=
  Phrase.unique h hother

theorem Sentence.read_eq {text : String} {tree : Expr}
    (h : Sentence text tree) : Expr.read.run (scan text) = .ok (tree, []) :=
  Expr.read_of_tokens h

end Sql
end TableStore
