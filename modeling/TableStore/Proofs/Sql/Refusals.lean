import TableStore.Proofs.Sql.Commands

/-!
# Where a text is refused

The fault of a text names the token at which reading stops.  If that token is a
bare word, the fault is the same for all texts that go on with this word.
-/

namespace TableStore
namespace Sql

def StartsReserved (tokens : List Token) : Prop :=
  forall token, tokens.head? = some token ->
    exists word, token = .word word ∧ isReserved word = true

theorem startsReserved_nil : StartsReserved [] := by
  intro token htoken
  cases htoken

theorem startsReserved_cons {word : String}
    (hword : isReserved word = true) (rest : List Token) :
    StartsReserved (.word word :: rest) := by
  intro token htoken
  cases htoken
  exact ⟨word, rfl, hword⟩

theorem startsReserved_tail (orders : List OrderBy) (limit? : Option Nat) :
    StartsReserved (orderTokens orders ++ limitTokens limit?) := by
  cases orders with
  | cons order orders => exact startsReserved_cons (by decide) _
  | nil =>
      cases limit? with
      | none => exact startsReserved_nil
      | some n => exact startsReserved_cons (by decide) _

theorem ConditionTokens.startsReserved {clause rest : List Token}
    {condition? : Option Expr} (h : ConditionTokens clause condition?)
    (hrest : StartsReserved rest) : StartsReserved (clause ++ rest) := by
  cases h with
  | absent => exact hrest
  | given _ => exact startsReserved_cons (by decide) _

def faultBefore : List Token -> Fault
  | .word word :: _ => .near word
  | _ => .incomplete

theorem ConditionTokens.faultBefore_append {clause : List Token}
    {condition? : Option Expr} (h : ConditionTokens clause condition?)
    (rest : List Token) :
    faultBefore (clause ++ rest) =
      if condition?.isSome then .near "WHERE" else faultBefore rest := by
  cases h with
  | absent => rfl
  | given _ => rfl

theorem Spells.faultAt_eq {lexemes : List Lexeme} {tokens : List Token}
    (h : Spells lexemes tokens) (htokens : StartsReserved tokens) :
    faultAt lexemes = faultBefore tokens := by
  cases tokens with
  | nil =>
      rw [h.eq_nil]
      rfl
  | cons token tokens =>
      rcases htokens token rfl with ⟨word, rfl, _⟩
      rcases h.eq_cons with ⟨lexeme, others, rfl, htoken, hfaithful, _⟩
      have hlegal : ¬ lexeme.token = .illegal := by
        rw [htoken]
        exact fun heq => nomatch heq
      rw [faultAt, if_neg hlegal, hfaithful word htoken, String.ofList_toList]
      rfl

/-!
# Refusing tokens
-/

def Refuses {α : Type} (part : Reader α) (tokens : List Token)
    (fault : Fault) : Prop :=
  forall lexemes, Spells lexemes tokens -> part.run lexemes = .error fault

section Combination

variable {α β : Type} {tokens : List Token} {fault : Fault}

theorem Refuses.bind {first : Reader α} (h : Refuses first tokens fault)
    (next : α -> Reader β) : Refuses (first >>= next) tokens fault := by
  intro lexemes hlexemes
  rw [StateT.run_bind, h lexemes hlexemes]
  rfl

theorem Refuses.cons {first : Reader α} {next : α -> Reader β} {token : Token}
    {result : α}
    (hfirst : forall lexeme rest, lexeme.token = token ->
      first.run (lexeme :: rest) = .ok (result, rest))
    (h : Refuses (next result) tokens fault) :
    Refuses (first >>= next) (token :: tokens) fault := by
  intro lexemes hlexemes
  rcases hlexemes.eq_cons with ⟨lexeme, rest, rfl, htoken, _, hrest⟩
  rw [Reader.run_bind (hfirst lexeme rest htoken)]
  exact h rest hrest

theorem Refuses.look {first : Reader α} {next : α -> Reader β} {result : α}
    (hfirst : forall lexemes, Spells lexemes tokens ->
      first.run lexemes = .ok (result, lexemes))
    (h : Refuses (next result) tokens fault) :
    Refuses (first >>= next) tokens fault := by
  intro lexemes hlexemes
  rw [Reader.run_bind (hfirst lexemes hlexemes)]
  exact h lexemes hlexemes

theorem Refuses.notWord {word : String} {yes no : Reader α}
    (h : Refuses no tokens fault) (hnext : NotWord word tokens.head?) :
    Refuses (do if <- Reader.tryWord word then yes else no) tokens fault := by
  have hfirst (lexemes : List Lexeme) (hlexemes : Spells lexemes tokens) :
      (Reader.tryWord word).run lexemes = .ok (false, lexemes) := by
    apply run_tryWord_of_notWord
    rw [hlexemes.next?_eq]
    exact hnext
  exact Refuses.look hfirst h

end Combination

theorem refuses_name {tokens : List Token} (htokens : StartsReserved tokens) :
    Refuses Reader.name tokens (faultBefore tokens) := by
  intro lexemes hlexemes
  have hnone : lexemes.head?.bind Lexeme.name? = none := by
    cases tokens with
    | nil =>
        rw [hlexemes.eq_nil]
        rfl
    | cons token tokens =>
        rcases htokens token rfl with ⟨word, rfl, hword⟩
        rcases hlexemes.eq_cons with ⟨lexeme, others, rfl, htoken, _, _⟩
        rw [List.head?_cons, Option.bind_some, Lexeme.name?, htoken]
        exact if_pos hword
  have htry : Reader.tryName.run lexemes = .ok (none, lexemes) := by
    unfold Reader.tryName
    rw [Reader.run_bind (Reader.run_peek? lexemes), hnone]
    rfl
  unfold Reader.name
  rw [Reader.run_bind htry, <- hlexemes.faultAt_eq htokens]
  rfl

theorem refuses_commaSeparated {α : Type} {part : Reader α}
    {tokens : List Token} {fault : Fault} (h : Refuses part tokens fault) :
    Refuses (Reader.commaSeparated part) tokens fault := by
  intro lexemes hlexemes
  have hget : (get : Reader (List Lexeme)).run lexemes =
      .ok (lexemes, lexemes) := rfl
  unfold Reader.commaSeparated
  rw [Reader.run_bind hget]
  exact h.bind _ lexemes hlexemes

/-- A statement is refused where something else than its end comes next. -/
theorem Takes.refuses_rest {follow : Follow} {tokens rest : List Token}
    {command : Command}
    (h : Takes follow Command.readStatement tokens command)
    (hfollow : follow rest.head?) (hrest : StartsReserved rest)
    (hne : rest ≠ []) :
    Refuses Command.read (tokens ++ rest) (faultBefore rest) := by
  intro lexemes hlexemes
  rcases hlexemes.eq_append with ⟨before, after, rfl, hbefore, hafter⟩
  have hstatement := h before after hbefore (hafter.next?_eq ▸ hfollow)
  cases rest with
  | nil => exact absurd rfl hne
  | cons token rest =>
      rw [<- hafter.faultAt_eq hrest]
      rcases hrest token rfl with ⟨word, rfl, _⟩
      rcases hafter.eq_cons with ⟨lexeme, others, rfl, htoken, _, _⟩
      have hend : ¬ lexeme.isSign ";" = true := by
        rw [Lexeme.isSign_eq_true_iff, htoken]
        exact fun heq => nomatch heq
      have hsign : (Reader.sign ";").run (lexeme :: others) =
          .error (faultAt (lexeme :: others)) := by
        unfold Reader.sign
        rw [Reader.run_bind (Reader.run_trySign_of_not_isSign hend others)]
        rfl
      have hrest : Command.readEnd.run (lexeme :: others) =
          .error (faultAt (lexeme :: others)) := hsign
      unfold Command.read
      rw [Reader.run_bind hstatement, StateT.run_bind, hrest]
      rfl

theorem refuses_update {table : String} (htable : isReserved table = false)
    {tokens : List Token} (htokens : StartsReserved tokens) :
    Refuses Command.read (updateTokens table [] tokens)
      (faultBefore tokens) := by
  have hselect : NotWord "select" (some (.word "UPDATE")) := by decide
  have hinsert : NotWord "insert" (some (.word "UPDATE")) := by decide
  have hupdate : Text.foldCase "UPDATE" = "update" := by decide
  have hset : Text.foldCase "SET" = "set" := by decide
  have hassignment : Refuses Command.readAssignment tokens
      (faultBefore tokens) :=
    (refuses_name htokens).bind _
  have hassignments := refuses_commaSeparated hassignment
  unfold Command.read
  apply Refuses.bind
  unfold Command.readStatement updateTokens
  apply Refuses.notWord _ hselect
  apply Refuses.notWord _ hinsert
  apply Refuses.cons (run_tryWord_of_token hupdate)
  apply Refuses.cons fun lexeme rest htoken =>
    Reader.run_name (name?_of_nameToken (htoken ▸ NameToken.word htable)) rest
  exact Refuses.cons (run_word_of_token hset) (hassignments.bind _)

theorem run_declarations_of_closing {closing : Lexeme}
    (h : closing.token = .sign ")") (rest : List Lexeme) :
    (Reader.commaSeparated Command.readColumnSpec).run (closing :: rest) =
      .error (faultAt (closing :: rest)) := by
  have hname : Lexeme.name? closing = none := by
    rw [Lexeme.name?, h]
  have htry : Reader.tryName.run (closing :: rest) =
      .ok (none, closing :: rest) :=
    Reader.run_tryName_of_no_name hname
  have hrefused : Reader.name.run (closing :: rest) =
      .error (faultAt (closing :: rest)) := by
    unfold Reader.name
    rw [Reader.run_bind htry]
    rfl
  have hget : (get : Reader (List Lexeme)).run (closing :: rest) =
      .ok (closing :: rest, closing :: rest) := rfl
  unfold Reader.commaSeparated
  rw [Reader.run_bind hget, Reader.commaSeparatedFrom, StateT.run_bind,
    Command.readColumnSpec, StateT.run_bind, hrefused]
  rfl

theorem run_readStatement_of_create {lexeme : Lexeme}
    (h : lexeme.token = .word "CREATE") (rest : List Lexeme) :
    Command.readStatement.run (lexeme :: rest) = Command.readCreate.run rest := by
  have hother (word : String) (hword : Text.foldCase "CREATE" ≠ word) :
      (Reader.tryWord word).run (lexeme :: rest) =
        .ok (false, lexeme :: rest) := by
    apply Reader.run_tryWord_of_not_isWord
    rw [Lexeme.isWord_eq_true_iff, h]
    rintro ⟨name, heq, hfold⟩
    cases heq
    exact hword hfold
  have hcreate : Text.foldCase "CREATE" = "create" := by decide
  unfold Command.readStatement
  rw [Reader.run_bind (hother "select" (by decide)), if_neg Bool.false_ne_true,
    Reader.run_bind (hother "insert" (by decide)), if_neg Bool.false_ne_true,
    Reader.run_bind (hother "update" (by decide)), if_neg Bool.false_ne_true,
    Reader.run_bind (hother "delete" (by decide)), if_neg Bool.false_ne_true,
    Reader.run_bind (run_tryWord_of_token hcreate _ rest h), if_pos rfl]

/-- A creation without columns is refused where its parenthesis is closed. -/
theorem exists_fault_of_creation {table : String}
    (htable : isReserved table = false) {lexemes : List Lexeme}
    (h : Spells lexemes
      ([.word "CREATE", .word "TABLE", .word "IF", .word "NOT",
        .word "EXISTS", .word table] ++ group [])) :
    exists fault, Command.read.run lexemes = .error fault := by
  rcases h.eq_cons with ⟨create, _, rfl, hcreate, _, h⟩
  rcases h.eq_cons with ⟨tables, _, rfl, htables, _, h⟩
  have hparts : Spells _ ([.word "IF", .word "NOT", .word "EXISTS"] ++
      .word table :: group []) := h
  rcases hparts.eq_append with ⟨absent, _, rfl, habsent, h⟩
  rcases h.eq_cons with ⟨name, _, rfl, hname, _, h⟩
  rcases h.eq_cons with ⟨opening, _, rfl, hopening, _, h⟩
  rcases h.eq_cons with ⟨closing, rest, rfl, hclosing, _, _⟩
  have htoken : NameToken name.token table := hname ▸ NameToken.word htable
  have hsign := Lexeme.isSign_eq_true_iff.mpr hopening
  -- The fault is written with the text of the sign, which its token does not tell.
  have hgroup : (Reader.parenthesized
      (Reader.commaSeparated Command.readColumnSpec)).run
        (opening :: closing :: rest) = .error (faultAt (closing :: rest)) := by
    unfold Reader.parenthesized
    rw [Reader.run_bind (Reader.run_sign hsign _), StateT.run_bind,
      run_declarations_of_closing hclosing]
    rfl
  exists faultAt (closing :: rest)
  unfold Command.read
  rw [StateT.run_bind, run_readStatement_of_create hcreate, Command.readCreate,
    Reader.run_bind (run_word_of_token (by decide) _ _ htables),
    Reader.run_bind (takes_ifNotExists _ _ habsent trivial),
    Reader.run_bind (Reader.run_name (name?_of_nameToken htoken) _),
    StateT.run_bind, hgroup]
  rfl

end Sql
end TableStore
