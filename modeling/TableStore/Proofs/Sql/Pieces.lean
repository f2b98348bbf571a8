import TableStore.Proofs.Sql.Grammar
import TableStore.Proofs.Sql.Lexemes

/-!
# Readers and the tokens that they take

A reader takes tokens if it returns its result and leaves the rest, whatever the
rest is; it may only depend on the token right behind the ones that it takes.
A longer reader takes the tokens of its parts one after another, if every part
may be followed by the first token of the next one.
-/

namespace TableStore
namespace Sql

/-!
# Lexemes of tokens
-/

/-- Lexemes for some tokens, whose bare words are written as they are named. -/
structure Spells (lexemes : List Lexeme) (tokens : List Token) : Prop where
  tokens_eq : lexemes.map Lexeme.token = tokens
  faithful : forall lexeme, lexeme ∈ lexemes -> lexeme.Faithful

theorem spells_scan (text : String) :
    Spells (scan text) ((scan text).map Lexeme.token) :=
  ⟨rfl, fun _ => faithful_of_mem_scan⟩

theorem Spells.eq_append {lexemes : List Lexeme} {first second : List Token}
    (h : Spells lexemes (first ++ second)) :
    exists before after, lexemes = before ++ after ∧ Spells before first ∧
      Spells after second := by
  rcases List.map_eq_append_iff.mp h.tokens_eq with
    ⟨before, after, rfl, hbefore, hafter⟩
  refine ⟨before, after, rfl, ⟨hbefore, ?_⟩, ⟨hafter, ?_⟩⟩
  · intro lexeme hmem
    exact h.faithful lexeme (List.mem_append_left _ hmem)
  · intro lexeme hmem
    exact h.faithful lexeme (List.mem_append_right _ hmem)

theorem Spells.eq_cons {lexemes : List Lexeme} {token : Token}
    {tokens : List Token} (h : Spells lexemes (token :: tokens)) :
    exists lexeme others, lexemes = lexeme :: others ∧
      lexeme.token = token ∧ lexeme.Faithful ∧ Spells others tokens := by
  rcases List.map_eq_cons_iff.mp h.tokens_eq with
    ⟨lexeme, others, rfl, htoken, hothers⟩
  refine ⟨lexeme, others, rfl, htoken, h.faithful _ List.mem_cons_self,
    hothers, ?_⟩
  intro other hmem
  exact h.faithful other (List.mem_cons_of_mem _ hmem)

theorem Spells.eq_nil {lexemes : List Lexeme} (h : Spells lexemes []) :
    lexemes = [] :=
  List.map_eq_nil_iff.mp h.tokens_eq

/-- The token that comes next, if there is one. -/
def next? (lexemes : List Lexeme) : Option Token :=
  lexemes.head?.map Lexeme.token

theorem Spells.next?_eq {lexemes : List Lexeme} {tokens : List Token}
    (h : Spells lexemes tokens) : next? lexemes = tokens.head? := by
  rw [<- h.tokens_eq, next?, List.head?_map]

theorem Spells.next?_append {lexemes : List Lexeme} {tokens : List Token}
    (h : Spells lexemes tokens) (rest : List Lexeme) :
    next? (lexemes ++ rest) = tokens.head?.or (next? rest) := by
  rw [<- h.tokens_eq]
  cases lexemes <;> rfl

/-!
# Taking tokens
-/

/-- Which tokens may come next, and whether there may be none. -/
abbrev Follow := Option Token -> Prop

/-- A reader takes tokens that are followed as it needs it. -/
def Takes {α : Type} (follow : Follow) (part : Reader α)
    (tokens : List Token) (result : α) : Prop :=
  forall lexemes rest, Spells lexemes tokens -> follow (next? rest) ->
    part.run (lexemes ++ rest) = .ok (result, rest)

section Combination

variable {α β : Type} {follow : Follow}

theorem Takes.run_all {part : Reader α} {tokens : List Token} {result : α}
    (h : Takes follow part tokens result) {lexemes : List Lexeme}
    (hlexemes : Spells lexemes tokens) (hend : follow none) :
    part.run lexemes = .ok (result, []) := by
  have hrun := h lexemes [] hlexemes hend
  rwa [List.append_nil] at hrun

theorem Takes.pure (result : α) : Takes follow (pure result) [] result := by
  intro lexemes rest hlexemes _
  rw [hlexemes.eq_nil]
  rfl

theorem Takes.bind {before : Follow} {first : Reader α}
    {second : α -> Reader β} {tokens others : List Token} {result : α}
    {final : β} (hfirst : Takes before first tokens result)
    (hsecond : Takes follow (second result) others final)
    (hbetween : forall next, follow next -> before (others.head?.or next)) :
    Takes follow (first >>= second) (tokens ++ others) final := by
  intro lexemes rest hlexemes hrest
  rcases hlexemes.eq_append with ⟨before, after, rfl, hbefore, hafter⟩
  have hnext := hbetween _ hrest
  rw [<- hafter.next?_append] at hnext
  rw [List.append_assoc, Reader.run_bind (hfirst _ _ hbefore hnext)]
  exact hsecond _ _ hafter hrest

theorem Takes.map {part : Reader α} {tokens : List Token} {result : α}
    (h : Takes follow part tokens result) (f : α -> β) :
    Takes follow (f <$> part) tokens (f result) := by
  intro lexemes rest hlexemes hrest
  rw [StateT.run_map, h _ _ hlexemes hrest]
  rfl

theorem Takes.weaken {before : Follow} {part : Reader α}
    {tokens : List Token} {result : α} (h : Takes before part tokens result)
    (hfollow : forall next, follow next -> before next) :
    Takes follow part tokens result := by
  intro lexemes rest hlexemes hrest
  exact h _ _ hlexemes (hfollow _ hrest)

/-- A reader that takes a single token, whatever follows, before another one. -/
theorem Takes.cons {first : Reader α} {second : α -> Reader β} {token : Token}
    {others : List Token} {result : α} {final : β}
    (hfirst : forall lexeme rest, lexeme.token = token ->
      first.run (lexeme :: rest) = .ok (result, rest))
    (hsecond : Takes follow (second result) others final) :
    Takes follow (first >>= second) (token :: others) final := by
  intro lexemes rest hlexemes hrest
  rcases hlexemes.eq_cons with ⟨lexeme, others, rfl, htoken, _, hothers⟩
  rw [List.cons_append, Reader.run_bind (hfirst _ _ htoken)]
  exact hsecond _ _ hothers hrest

/-- A reader that only looks at the next token, before another one. -/
theorem Takes.look (before : Follow) {first : Reader α}
    {second : α -> Reader β} {others : List Token} {result : α} {final : β}
    (hfirst : forall lexemes, before (next? lexemes) ->
      first.run lexemes = .ok (result, lexemes))
    (hsecond : Takes follow (second result) others final)
    (hbetween : forall next, follow next -> before (others.head?.or next)) :
    Takes follow (first >>= second) others final := by
  intro lexemes rest hlexemes hrest
  have hnext := hbetween _ hrest
  rw [<- hlexemes.next?_append] at hnext
  rw [Reader.run_bind (hfirst _ hnext)]
  exact hsecond _ _ hlexemes hrest

end Combination

/-!
# Words, signs and names
-/

/-- Whether a token is a word, whatever the case of its letters. -/
def Token.isWord (word : String) (token : Token) : Bool :=
  Lexeme.isWord word ⟨[], [], token⟩

/-- The next token is not the given word. -/
def NotWord (word : String) : Follow :=
  fun next => (next.map (Token.isWord word)).getD false = false

instance (word : String) (next : Option Token) :
    Decidable (NotWord word next) :=
  inferInstanceAs (Decidable (_ = false))

/-- The next token is not the given sign. -/
def NotSign (sign : String) : Follow :=
  fun next => next ≠ some (.sign sign)

instance (sign : String) (next : Option Token) :
    Decidable (NotSign sign next) :=
  inferInstanceAs (Decidable (_ ≠ _))

theorem isWord_token (lexeme : Lexeme) (word : String) :
    lexeme.token.isWord word = lexeme.isWord word := rfl

theorem run_tryWord_of_notWord {word : String} {lexemes : List Lexeme}
    (h : NotWord word (next? lexemes)) :
    (Reader.tryWord word).run lexemes = .ok (false, lexemes) := by
  cases lexemes with
  | nil => rfl
  | cons lexeme rest =>
      apply Reader.run_tryWord_of_not_isWord
      rw [<- isWord_token, Bool.not_eq_true]
      exact h

theorem run_trySign_of_notSign {sign : String} {lexemes : List Lexeme}
    (h : NotSign sign (next? lexemes)) :
    (Reader.trySign sign).run lexemes = .ok (false, lexemes) := by
  cases lexemes with
  | nil => rfl
  | cons lexeme rest =>
      apply Reader.run_trySign_of_not_isSign
      intro hsign
      exact h (congrArg some (Lexeme.isSign_eq_true_iff.mp hsign))

theorem run_tryWord_of_token {word name : String}
    (hname : Text.foldCase name = word) (lexeme : Lexeme)
    (rest : List Lexeme) (h : lexeme.token = .word name) :
    (Reader.tryWord word).run (lexeme :: rest) = .ok (true, rest) :=
  Reader.run_tryWord_of_isWord
    (Lexeme.isWord_eq_true_iff.mpr ⟨name, h, hname⟩) rest

theorem run_word_of_token {word name : String}
    (hname : Text.foldCase name = word) (lexeme : Lexeme)
    (rest : List Lexeme) (h : lexeme.token = .word name) :
    (Reader.word word).run (lexeme :: rest) = .ok ((), rest) := by
  unfold Reader.word
  rw [Reader.run_bind (run_tryWord_of_token hname lexeme rest h)]
  rfl

theorem run_trySign_of_token {sign : String} (lexeme : Lexeme)
    (rest : List Lexeme) (h : lexeme.token = .sign sign) :
    (Reader.trySign sign).run (lexeme :: rest) = .ok (true, rest) :=
  Reader.run_trySign_of_isSign (Lexeme.isSign_eq_true_iff.mpr h) rest

/-- Tokens between parentheses. -/
def group (tokens : List Token) : List Token :=
  .sign "(" :: (tokens ++ [.sign ")"])

section Elementary

variable {α : Type} {follow : Follow} {tokens : List Token} {result : α}

theorem Takes.word {word name : String} {next : Reader α}
    (hname : Text.foldCase name = word) (h : Takes follow next tokens result) :
    Takes follow (do Reader.word word; next) (.word name :: tokens) result := by
  exact Takes.cons (run_word_of_token hname) h

theorem Takes.sign {sign : String} {next : Reader α}
    (h : Takes follow next tokens result) :
    Takes follow (do Reader.sign sign; next) (.sign sign :: tokens) result := by
  have hfirst : forall (lexeme : Lexeme) (rest : List Lexeme),
      lexeme.token = .sign sign ->
        (Reader.sign sign).run (lexeme :: rest) = .ok ((), rest) := by
    intro lexeme rest htoken
    exact Reader.run_sign (Lexeme.isSign_eq_true_iff.mpr htoken) rest
  exact Takes.cons hfirst h

theorem Takes.name {token : Token} {name : String} {next : String -> Reader α}
    (hname : NameToken token name)
    (h : Takes follow (next name) tokens result) :
    Takes follow (Reader.name >>= next) (token :: tokens) result := by
  apply Takes.cons _ h
  intro lexeme rest htoken
  exact Reader.run_name (name?_of_nameToken (htoken ▸ hname)) rest

theorem takes_name {token : Token} {name : String}
    (hname : NameToken token name) :
    Takes follow Reader.name [token] name := by
  have h : Takes follow (Reader.name >>= pure) [token] name :=
    Takes.name hname (Takes.pure name)
  rwa [bind_pure] at h

theorem takes_sign (sign : String) :
    Takes follow (Reader.sign sign) [.sign sign] () := by
  have h : Takes follow (do Reader.sign sign; pure ()) [.sign sign] () :=
    Takes.sign (Takes.pure ())
  rwa [bind_pure_unit] at h

theorem Takes.tryWord {word name : String} {yes no : Reader α}
    (hname : Text.foldCase name = word) (h : Takes follow yes tokens result) :
    Takes follow (do if <- Reader.tryWord word then yes else no)
      (.word name :: tokens) result :=
  Takes.cons (run_tryWord_of_token hname) h

theorem Takes.notWord {word : String} {yes no : Reader α}
    (h : Takes follow no tokens result)
    (hnext : forall next, follow next ->
      NotWord word (tokens.head?.or next)) :
    Takes follow (do if <- Reader.tryWord word then yes else no) tokens
      result :=
  Takes.look (NotWord word) (fun _ => run_tryWord_of_notWord) h hnext

theorem Takes.atSign {sign : String} {yes no : Reader α}
    (h : Takes follow yes (.sign sign :: tokens) result) :
    Takes follow (do if <- Reader.atSign sign then yes else no)
      (.sign sign :: tokens) result := by
  have hfirst : forall lexemes, next? lexemes = some (.sign sign) ->
      (Reader.atSign sign).run lexemes = .ok (true, lexemes) := by
    intro lexemes hnext
    cases lexemes with
    | nil => cases hnext
    | cons lexeme rest =>
        have hsign : lexeme.isSign sign = true :=
          Lexeme.isSign_eq_true_iff.mpr (Option.some.inj hnext)
        rw [Reader.run_atSign_cons, hsign]
  have hyes : Takes follow (if true = true then yes else no)
      (.sign sign :: tokens) result := h
  exact Takes.look (fun next => next = some (.sign sign)) hfirst hyes
    (fun _ _ => rfl)

theorem Takes.notAtSign {sign : String} {yes no : Reader α}
    (h : Takes follow no tokens result)
    (hnext : forall next, follow next ->
      NotSign sign (tokens.head?.or next)) :
    Takes follow (do if <- Reader.atSign sign then yes else no) tokens
      result := by
  have hfirst : forall lexemes, NotSign sign (next? lexemes) ->
      (Reader.atSign sign).run lexemes = .ok (false, lexemes) := by
    intro lexemes hsign
    cases lexemes with
    | nil => rfl
    | cons lexeme rest =>
        have hother : lexeme.isSign sign = false := by
          rw [<- Bool.not_eq_true, Lexeme.isSign_eq_true_iff]
          exact fun heq => hsign (congrArg some heq)
        rw [Reader.run_atSign_cons, hother]
  exact Takes.look (NotSign sign) hfirst h hnext

theorem Takes.parenthesized {part : Reader α}
    (h : Takes (fun next => next = some (.sign ")")) part tokens result) :
    Takes follow (Reader.parenthesized part) (group tokens) result := by
  apply Takes.sign
  apply Takes.bind h (Takes.sign (Takes.pure result))
  intro next _
  rfl

end Elementary

theorem run_withLexemes {α : Type} {part : Reader α} {lexemes rest : List Lexeme}
    {result : α} (h : part.run (lexemes ++ rest) = .ok (result, rest)) :
    (Reader.withLexemes part).run (lexemes ++ rest) =
      .ok ((result, lexemes), rest) := by
  have htaken : (lexemes ++ rest).take
      ((lexemes ++ rest).length - rest.length) = lexemes := by
    rw [List.length_append, Nat.add_sub_cancel, List.take_left]
  have hget (all : List Lexeme) : (get : Reader _).run all = .ok (all, all) :=
    rfl
  unfold Reader.withLexemes
  rw [Reader.run_bind (hget _), Reader.run_bind h, Reader.run_bind (hget _),
    htaken]
  rfl

theorem Takes.run_withLexemes {α : Type} {follow : Follow} {part : Reader α}
    {tokens : List Token} {result : α} (h : Takes follow part tokens result)
    {lexemes : List Lexeme} (hlexemes : Spells lexemes tokens)
    (rest : List Lexeme) (hrest : follow (next? rest)) :
    (Reader.withLexemes part).run (lexemes ++ rest) =
      .ok ((result, lexemes), rest) :=
  Sql.run_withLexemes (h _ _ hlexemes hrest)

/-!
# Expressions
-/

/-- Whether a token goes on with an expression that stands before it. -/
def Token.prolongs (token : Token) : Bool :=
  (Expr.Operator.ofLexeme? ⟨[], [], token⟩).isSome || token = .sign "."

/-- The next token does not go on with an expression. -/
def EndsExpr : Follow :=
  fun next => (next.map Token.prolongs).getD false = false

instance (next : Option Token) : Decidable (EndsExpr next) :=
  inferInstanceAs (Decidable (_ = false))

theorem ofLexeme?_eq (lexeme : Lexeme) :
    Expr.Operator.ofLexeme? lexeme =
      Expr.Operator.ofLexeme? ⟨[], [], lexeme.token⟩ := rfl

theorem takes_expr {tokens : List Token} {tree : Expr}
    (h : Phrase 0 tokens tree) : Takes EndsExpr Expr.read tokens tree := by
  intro lexemes rest hlexemes hrest
  rw [<- hlexemes.tokens_eq] at h
  apply Expr.read_of_phrase h
  · cases rest with
    | nil => rfl
    | cons lexeme rest =>
        have hends : lexeme.token.prolongs = false := hrest
        rw [Token.prolongs, Bool.or_eq_false_iff, <- ofLexeme?_eq] at hends
        rw [List.head?_cons, Option.bind_some]
        exact Option.isSome_eq_false_iff.mp hends.left |> Option.isNone_iff_eq_none.mp
  · intro lexeme hlexeme hpoint
    cases rest with
    | nil => cases hlexeme
    | cons first rest =>
        cases hlexeme
        have hends : lexeme.token.prolongs = false := hrest
        rw [Lexeme.isSign_eq_true_iff.mp hpoint] at hends
        cases hends

/-!
# Lists with commas
-/

/-- Lists of tokens with commas between them. -/
def separated : List (List Token) -> List Token
  | [] => []
  | [tokens] => tokens
  | tokens :: next :: rest => tokens ++ .sign "," :: separated (next :: rest)

theorem length_le_separated (parts : List (List Token)) :
    parts.length <= (separated parts).length + 1 := by
  induction parts with
  | nil => simp
  | cons first others ih =>
      cases others with
      | nil => simp
      | cons second others =>
          simp only [separated, List.length_append, List.length_cons] at ih ⊢
          omega

section Commas

variable {α β : Type} {before : Follow} {part : Reader β}
  {tokens : α -> List Token} {result : α -> β}

theorem takes_commaSeparatedFrom (hcomma : before (some (.sign ","))) :
    forall {items : List α} (fuel : Nat),
      (forall item, item ∈ items ->
        Takes before part (tokens item) (result item)) ->
      items ≠ [] -> items.length <= fuel ->
      Takes (fun next => before next ∧ NotSign "," next)
        (Reader.commaSeparatedFrom part fuel)
        (separated (items.map tokens)) (items.map result)
  | [], _, _, hne, _ => absurd rfl hne
  | _ :: _, 0, _, _, hfuel => absurd hfuel (by simp)
  | [item], fuel + 1, hitems, _, _ => by
      have hitem := hitems item List.mem_cons_self
      have hend : Takes (fun next => before next ∧ NotSign "," next)
          (do
            if <- Reader.trySign "," then
              let others <- Reader.commaSeparatedFrom part fuel
              return result item :: others
            else return [result item])
          [] [result item] :=
        Takes.look (NotSign ",") (fun _ => run_trySign_of_notSign)
          (Takes.pure _) (fun _ hnext => hnext.right)
      have hall : Takes (fun next => before next ∧ NotSign "," next)
          (Reader.commaSeparatedFrom part (fuel + 1)) (tokens item ++ [])
          [result item] :=
        Takes.bind hitem hend (fun _ hnext => hnext.left)
      rw [List.append_nil] at hall
      exact hall
  | item :: next :: rest, fuel + 1, hitems, _, hfuel => by
      have hitem := hitems item List.mem_cons_self
      have hothers := takes_commaSeparatedFrom hcomma fuel
        (fun other hmem => hitems other (List.mem_cons_of_mem _ hmem))
        (List.cons_ne_nil next rest) (Nat.le_of_succ_le_succ hfuel)
      have hmap := hothers.map (fun results => result item :: results)
      rw [map_eq_pure_bind] at hmap
      exact Takes.bind hitem (Takes.cons run_trySign_of_token hmap)
        (fun _ _ => hcomma)

theorem takes_commaSeparated (hcomma : before (some (.sign ",")))
    {items : List α}
    (hitems : forall item, item ∈ items ->
      Takes before part (tokens item) (result item))
    (hne : items ≠ []) :
    Takes (fun next => before next ∧ NotSign "," next)
      (Reader.commaSeparated part) (separated (items.map tokens))
      (items.map result) := by
  intro lexemes rest hlexemes hrest
  have hlength := length_le_separated (items.map tokens)
  rw [<- hlexemes.tokens_eq, List.length_map, List.length_map] at hlength
  apply takes_commaSeparatedFrom hcomma _ hitems hne _ _ _ hlexemes hrest
  rw [List.length_append]
  omega

theorem takes_single (hcomma : before (some (.sign ",")))
    {others : List Token} {value : β}
    (h : Takes before part others value) :
    Takes (fun next => before next ∧ NotSign "," next)
      (Reader.commaSeparated part) others [value] := by
  have hitem : forall item, item ∈ [()] -> Takes before part others value :=
    fun _ _ => h
  exact takes_commaSeparated hcomma hitem (List.cons_ne_nil () [])

end Commas

/-!
# Parts until there is none
-/

theorem length_le_flatMap {α β : Type} {f : α -> List β} {items : List α}
    (h : forall item, item ∈ items -> f item ≠ []) :
    items.length <= (items.flatMap f).length := by
  induction items with
  | nil => exact Nat.le_refl 0
  | cons item items ih =>
      rw [List.forall_mem_cons] at h
      have hpos := List.length_pos_iff.mpr h.left
      have hothers := ih h.right
      rw [List.flatMap_cons, List.length_append, List.length_cons]
      omega

section Repeats

variable {α β : Type} {part : Reader (Option β)} {loop : Nat -> Reader (List β)}

/-- A loop reads a part after another until there is none. -/
structure Repeats (part : Reader (Option β)) (loop : Nat -> Reader (List β)) :
    Prop where
  zero : loop 0 = pure []
  succ : forall fuel, loop (fuel + 1) = do
    (<- part).elim (pure []) fun found => do return found :: (<- loop fuel)

variable {between ending : Follow} {tokens : α -> List Token} {result : α -> β}
  (hloop : Repeats part loop) (hnone : Takes ending part [] none)
  (hending : forall next, ending next -> between next)

include hloop hnone hending

theorem takes_repeatedFrom {items : List α}
    (hitems : forall item, item ∈ items ->
      Takes between part (tokens item) (some (result item)) ∧
        exists token, (tokens item).head? = some token ∧ between (some token))
    (fuel : Nat) (hfuel : items.length <= fuel) :
    Takes ending (loop fuel) (items.flatMap tokens) (items.map result) := by
  induction items generalizing fuel with
  | nil =>
      cases fuel with
      | zero =>
          rw [hloop.zero]
          exact Takes.pure []
      | succ fuel =>
          rw [hloop.succ]
          exact Takes.bind hnone (Takes.pure []) (fun _ hnext => hnext)
  | cons item items ih =>
      cases fuel with
      | zero => exact absurd hfuel (Nat.not_succ_le_zero _)
      | succ fuel =>
          rw [List.forall_mem_cons] at hitems
          have hothers := (ih hitems.right fuel (Nat.le_of_succ_le_succ hfuel)).map
            (fun others => result item :: others)
          rw [map_eq_pure_bind] at hothers
          rw [hloop.succ]
          apply Takes.bind hitems.left.left hothers
          intro next hnext
          -- Behind an item stands the next one, or what follows the whole list.
          cases items with
          | nil => exact hending next hnext
          | cons second others =>
              rcases (hitems.right second List.mem_cons_self).right with
                ⟨token, hhead, hbetween⟩
              change between (((second :: others).flatMap tokens).head?.or next)
              rwa [List.flatMap_cons, List.head?_append, hhead]

theorem takes_repeated {items : List α}
    (hitems : forall item, item ∈ items ->
      Takes between part (tokens item) (some (result item)) ∧
        exists token, (tokens item).head? = some token ∧ between (some token)) :
    Takes ending (do loop (<- get).length) (items.flatMap tokens)
      (items.map result) := by
  have hlength : items.length <= (items.flatMap tokens).length := by
    apply length_le_flatMap
    intro item hmem hnil
    rcases (hitems item hmem).right with ⟨token, hhead, _⟩
    rw [hnil] at hhead
    cases hhead
  intro lexemes rest hlexemes hrest
  have hget : (get : Reader _).run (lexemes ++ rest) =
      .ok (lexemes ++ rest, lexemes ++ rest) := rfl
  rw [<- hlexemes.tokens_eq, List.length_map] at hlength
  rw [Reader.run_bind hget]
  apply takes_repeatedFrom hloop hnone hending hitems _ _ _ _ hlexemes hrest
  rw [List.length_append]
  omega

end Repeats

end Sql
end TableStore
