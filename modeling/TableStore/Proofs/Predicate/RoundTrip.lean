import Mathlib
import TableStore.Proofs.Predicate.Encoding

/-!
# Predicates and their documents

The documents that are read as predicates are those of a grammar, and nothing of
them is lost: the predicate is written as the same document, in the same order.
Conversely a predicate that is compiled is read back from its document, unless it
repeats a name where an object cannot.

Both ways overlap in their shapes: a negation over an object whose only member
is a list of branches negates the branches, and any other negates a set.
-/

namespace TableStore
namespace Predicate

/-!
# The grammar of documents
-/

/-- An operand is a truth value, a number or a text. -/
inductive IsOperand : Json -> Prop
  | bool (value : Bool) : IsOperand (.bool value)
  | num (value : Number) : IsOperand (.num value)
  | str (text : String) : IsOperand (.str text)

mutual

/-- The members of the object of a predicate. -/
inductive IsMap : List (String × Json) -> Prop
  | nil : IsMap []
  | operand {column : String} {value : Json} {rest : List (String × Json)}
      (hcolumn : isOperatorKey column = false) (hvalue : IsOperand value)
      (hrest : IsMap rest) : IsMap ((column, value) :: rest)
  | set {column : String} {members rest : List (String × Json)}
      (hcolumn : isOperatorKey column = false) (hne : members ≠ [])
      (hset : IsSet members) (hrest : IsMap rest) :
      IsMap ((column, .obj members) :: rest)
  | anyOf {items : List Json} {rest : List (String × Json)}
      (hne : items ≠ []) (hitems : IsBranches items) (hrest : IsMap rest) :
      IsMap ((orKey, .arr items) :: rest)

/-- The items of a list of branches. -/
inductive IsBranches : List Json -> Prop
  | nil : IsBranches []
  | cons {members : List (String × Json)} {rest : List Json}
      (hne : members ≠ []) (hmap : IsMap members) (hrest : IsBranches rest) :
      IsBranches (.obj members :: rest)

/-- The members of the object of a set of comparisons. -/
inductive IsSet : List (String × Json) -> Prop
  | nil : IsSet []
  | test (comparison : Comparison) {value : Json}
      {rest : List (String × Json)} (hvalue : IsOperand value)
      (hrest : IsSet rest) : IsSet ((comparison.key, value) :: rest)
  | not {members rest : List (String × Json)} (hne : members ≠ [])
      (hset : IsSet members) (hrest : IsSet rest) :
      IsSet ((notKey, .obj members) :: rest)
  | notAnyOf {items : List Json} {rest : List (String × Json)}
      (hne : items ≠ []) (hitems : IsBranches items) (hrest : IsSet rest) :
      IsSet ((notKey, .obj [(orKey, .arr items)]) :: rest)

end

/-- The documents of predicates. -/
def IsPredicateDocument (document : Json) : Prop :=
  exists members, document = .obj members ∧ IsMap members

/-!
# Reading, member by member
-/

/-- The result of reading a list from what its head and its tail give. -/
def listResult {α : Type} (head : Except ShapeError α)
    (tail : Except ShapeError (List α)) : Except ShapeError (List α) := do
  let first <- head
  let others <- tail
  return first :: others

/-- The entry that one member of an object stands for. -/
def entryOfMember (key : String) (value : Json) : Except ShapeError Entry :=
  if key = orKey then (branchesOfDocument value).map .anyOf
  else if isOperatorKey key then .error (.operatorOutsideColumn key)
  else entryOfDocument key value

/-- The comparison that one member of a set stands for. -/
def comparatorOfMember (column key : String) (value : Json) :
    Except ShapeError Comparator :=
  if key = notKey then negationOfDocument column value
  else
    match Comparison.ofKey? key with
    | some comparison =>
        (operandOfDocument column value).map (.test comparison)
    | none => .error (.unknownOperator key column)

theorem listResult_eq_ok_iff {α : Type} {head : Except ShapeError α}
    {tail : Except ShapeError (List α)} {all : List α} :
    listResult head tail = .ok all <->
      exists first others,
        head = .ok first ∧ tail = .ok others ∧ first :: others = all := by
  cases head with
  | error fault => simp [listResult, bind, Except.bind]
  | ok first =>
      cases tail with
      | error fault => simp [listResult, bind, Except.bind]
      | ok others => simp [listResult, bind, Except.bind, pure, Except.pure]

theorem map_eq_ok_iff {α β : Type} {first : Except ShapeError α} {f : α -> β}
    {result : β} :
    first.map f = .ok result <->
      exists value, first = .ok value ∧ f value = result := by
  cases first with
  | error fault => simp [Except.map]
  | ok value => simp [Except.map]

theorem entriesOfMembers_cons (key : String) (value : Json)
    (rest : List (String × Json)) :
    entriesOfMembers ((key, value) :: rest) =
      listResult (entryOfMember key value) (entriesOfMembers rest) := by
  rw [entriesOfMembers, entryOfMember]
  by_cases hor : key = orKey
  · rw [if_pos hor, if_pos hor]
    rfl
  · rw [if_neg hor, if_neg hor]
    cases isOperatorKey key with
    | true => rfl
    | false => rfl

theorem setOfMembers_cons (column key : String) (value : Json)
    (rest : List (String × Json)) :
    setOfMembers column ((key, value) :: rest) =
      listResult (comparatorOfMember column key value)
        (setOfMembers column rest) := by
  rw [setOfMembers, comparatorOfMember]
  by_cases hnot : key = notKey
  · rw [if_pos hnot, if_pos hnot]
    rfl
  · rw [if_neg hnot, if_neg hnot]
    cases Comparison.ofKey? key with
    | none => rfl
    | some comparison => rfl

theorem branchesOfItems_cons (item : Json) (rest : List Json) :
    branchesOfItems (item :: rest) =
      listResult (branchOfDocument item) (branchesOfItems rest) := by
  rw [branchesOfItems]
  rfl

theorem entryOfMember_orKey (value : Json) :
    entryOfMember orKey value = (branchesOfDocument value).map .anyOf :=
  if_pos rfl

theorem entryOfMember_of_column {column : String}
    (hcolumn : isOperatorKey column = false) (value : Json) :
    entryOfMember column value = entryOfDocument column value := by
  rw [entryOfMember, if_neg (ne_orKey_of_plain hcolumn), hcolumn]
  rfl

theorem entryOfMember_eq_ok {key : String} {value : Json} {entry : Entry}
    (hread : entryOfMember key value = .ok entry) :
    (key = orKey ∧ exists branches,
      branchesOfDocument value = .ok branches ∧ .anyOf branches = entry) ∨
    (isOperatorKey key = false ∧ entryOfDocument key value = .ok entry) := by
  rw [entryOfMember] at hread
  by_cases hor : key = orKey
  · rw [if_pos hor, map_eq_ok_iff] at hread
    exact .inl ⟨hor, hread⟩
  · rw [if_neg hor] at hread
    cases hkey : isOperatorKey key with
    | true =>
        rw [hkey] at hread
        cases hread
    | false =>
        rw [hkey] at hread
        exact .inr ⟨rfl, hread⟩

theorem comparatorOfMember_notKey (column : String) (value : Json) :
    comparatorOfMember column notKey value = negationOfDocument column value :=
  if_pos rfl

theorem comparatorOfMember_key (column : String) (comparison : Comparison)
    (value : Json) :
    comparatorOfMember column comparison.key value =
      (operandOfDocument column value).map (.test comparison) := by
  rw [comparatorOfMember, if_neg (key_ne_notKey comparison),
    Comparison.ofKey?_key]

theorem key_of_ofKey? {key : String} {comparison : Comparison}
    (hfound : Comparison.ofKey? key = some comparison) :
    comparison.key = key := by
  have hkey := List.find?_some hfound
  exact of_decide_eq_true hkey

theorem comparatorOfMember_eq_ok {column key : String} {value : Json}
    {comparator : Comparator}
    (hread : comparatorOfMember column key value = .ok comparator) :
    (key = notKey ∧ negationOfDocument column value = .ok comparator) ∨
    (exists comparison operand, comparison.key = key ∧
      operandOfDocument column value = .ok operand ∧
        .test comparison operand = comparator) := by
  rw [comparatorOfMember] at hread
  by_cases hnot : key = notKey
  · rw [if_pos hnot] at hread
    exact .inl ⟨hnot, hread⟩
  · rw [if_neg hnot] at hread
    cases hfound : Comparison.ofKey? key with
    | none =>
        rw [hfound] at hread
        cases hread
    | some comparison =>
        rw [hfound] at hread
        rcases map_eq_ok_iff.mp hread with ⟨operand, hoperand, heq⟩
        exact .inr ⟨comparison, operand, key_of_ofKey? hfound, hoperand, heq⟩

theorem ofNumber_kept {n : Number}
    (hfits : forall word, word ∈ (Json.num n).integers ->
      Json.FitsInt64 word) :
    operandDocument (Value.ofNumber n) = .num n := by
  cases n with
  | float x => rfl
  | int m =>
      have hm : Json.FitsInt64 m := by
        apply hfits
        simp [Json.integers]
      rcases Json.int64?_of_fitsInt64 hm with ⟨word, hword, htoInt⟩
      rw [Value.ofNumber, hword]
      simp [operandDocument, Value.document, htoInt]

theorem operandOfDocument_kept {column : String} {value : Json}
    {operand : Value} (hread : operandOfDocument column value = .ok operand) :
    IsOperand value ∧
      ((forall n, n ∈ value.integers -> Json.FitsInt64 n) ->
        operandDocument operand = value) := by
  cases value with
  | null => cases hread
  | arr items => cases hread
  | obj members => cases hread
  | bool b =>
      cases hread
      exact ⟨.bool b, fun _ => rfl⟩
  | str text =>
      cases hread
      exact ⟨.str text, fun _ => rfl⟩
  | num n =>
      cases hread
      exact ⟨.num n, ofNumber_kept⟩

theorem entryOfDocument_eq_ok {column : String} {value : Json} {entry : Entry}
    (hread : entryOfDocument column value = .ok entry) :
    (exists operand, operandOfDocument column value = .ok operand ∧
      .equal column operand = entry) ∨
    (exists members set, value = .obj members ∧ members ≠ [] ∧
      setOfMembers column members = .ok set ∧ .compare column set = entry) := by
  cases value with
  | obj members =>
      cases members with
      | nil =>
          rw [entryOfDocument] at hread
          cases hread
      | cons member rest =>
          rw [entryOfDocument, map_eq_ok_iff] at hread
          rcases hread with ⟨set, hset, heq⟩
          exact .inr ⟨member :: rest, set, rfl, List.cons_ne_nil _ _, hset, heq⟩
  | _ =>
      rw [entryOfDocument, map_eq_ok_iff] at hread
      · exact .inl hread
      all_goals
        intros
        contradiction

/-!
# What is read is in the grammar, and is written as it was
-/

theorem branchesOfDocument_eq_ok {value : Json} {branches : List (List Entry)}
    (hread : branchesOfDocument value = .ok branches) :
    exists items, value = .arr items ∧ items ≠ [] ∧
      branchesOfItems items = .ok branches := by
  cases value with
  | arr items =>
      cases items with
      | nil =>
          rw [branchesOfDocument] at hread
          cases hread
      | cons item rest =>
          rw [branchesOfDocument] at hread
          exact ⟨item :: rest, rfl, List.cons_ne_nil _ _, hread⟩
  | _ =>
      rw [branchesOfDocument] at hread
      · cases hread
      all_goals
        intros
        contradiction

theorem branchOfDocument_eq_ok {item : Json} {branch : List Entry}
    (hread : branchOfDocument item = .ok branch) :
    exists members, item = .obj members ∧ members ≠ [] ∧
      entriesOfMembers members = .ok branch := by
  cases item with
  | obj members =>
      cases members with
      | nil =>
          rw [branchOfDocument] at hread
          cases hread
      | cons member rest =>
          rw [branchOfDocument] at hread
          exact ⟨member :: rest, rfl, List.cons_ne_nil _ _, hread⟩
  | _ =>
      rw [branchOfDocument] at hread
      · cases hread
      all_goals
        intros
        contradiction

theorem negationOfDocument_eq_ok {column : String} {value : Json}
    {comparator : Comparator}
    (hread : negationOfDocument column value = .ok comparator) :
    (exists inner branches, value = .obj [(orKey, inner)] ∧
      branchesOfDocument inner = .ok branches ∧
        .notAnyOf branches = comparator) ∨
    (exists members set, value = .obj members ∧ members ≠ [] ∧
      setOfMembers column members = .ok set ∧ .not set = comparator) := by
  cases value with
  | obj members =>
      rcases members with _ | ⟨⟨key, inner⟩, _ | ⟨second, rest⟩⟩
      · rw [negationOfDocument] at hread
        cases hread
      · rw [negationOfDocument] at hread
        by_cases hor : key = orKey
        · rw [if_pos hor, map_eq_ok_iff] at hread
          rcases hread with ⟨branches, hbranches, heq⟩
          rw [hor]
          exact .inl ⟨inner, branches, rfl, hbranches, heq⟩
        · rw [if_neg hor, map_eq_ok_iff] at hread
          rcases hread with ⟨set, hset, heq⟩
          exact .inr ⟨_, set, rfl, List.cons_ne_nil _ _, hset, heq⟩
      · rw [negationOfDocument, map_eq_ok_iff] at hread
        rcases hread with ⟨set, hset, heq⟩
        exact .inr ⟨_, set, rfl, List.cons_ne_nil _ _, hset, heq⟩
  | _ =>
      rw [negationOfDocument] at hread
      · cases hread
      all_goals
        intros
        contradiction

mutual

theorem entriesOfMembers_kept :
    forall {members : List (String × Json)} {entries : List Entry},
      entriesOfMembers members = .ok entries ->
        IsMap members ∧
          ((forall n, n ∈ Json.memberIntegers members -> Json.FitsInt64 n) ->
            entryMembers entries = members)
  | [], entries, hread => by
      rw [entriesOfMembers] at hread
      cases hread
      exact ⟨.nil, fun _ => by rw [entryMembers]⟩
  | (key, value) :: rest, entries, hread => by
      rw [entriesOfMembers_cons, listResult_eq_ok_iff] at hread
      rcases hread with ⟨entry, others, hentry, hothers, hentries⟩
      rcases entriesOfMembers_kept hothers with ⟨hrest, hback⟩
      rw [<- hentries, Json.memberIntegers]
      simp only [List.forall_mem_append]
      cases entryOfMember_eq_ok hentry with
      | inl hor =>
          rcases hor with ⟨hkey, branches, hbranches, heq⟩
          rcases branchesOfDocument_eq_ok hbranches with
            ⟨items, hvalue, hne, hitems⟩
          subst hvalue
          rcases branchesOfItems_kept hitems with ⟨hgrammar, hwritten⟩
          rw [hkey, <- heq, entryMembers]
          refine ⟨.anyOf hne hgrammar hrest, ?_⟩
          intro hfits
          rw [hwritten hfits.left, hback hfits.right]
      | inr hcolumn =>
          rcases hcolumn with ⟨hplain, hentry⟩
          cases entryOfDocument_eq_ok hentry with
          | inl hequal =>
              rcases hequal with ⟨operand, hoperand, heq⟩
              rcases operandOfDocument_kept hoperand with
                ⟨hgrammar, hwritten⟩
              rw [<- heq, entryMembers]
              refine ⟨.operand hplain hgrammar hrest, ?_⟩
              intro hfits
              rw [hwritten hfits.left, hback hfits.right]
          | inr hcompare =>
              rcases hcompare with ⟨members, set, hvalue, hne, hset, heq⟩
              subst hvalue
              rcases setOfMembers_kept hset with ⟨hgrammar, hwritten⟩
              rw [<- heq, entryMembers]
              refine ⟨.set hplain hne hgrammar hrest, ?_⟩
              intro hfits
              rw [hwritten hfits.left, hback hfits.right]
  termination_by members => sizeOf members

theorem branchesOfItems_kept :
    forall {items : List Json} {branches : List (List Entry)},
      branchesOfItems items = .ok branches ->
        IsBranches items ∧
          ((forall n, n ∈ Json.itemIntegers items -> Json.FitsInt64 n) ->
            branchItems branches = items)
  | [], branches, hread => by
      rw [branchesOfItems] at hread
      cases hread
      exact ⟨.nil, fun _ => by rw [branchItems]⟩
  | item :: rest, branches, hread => by
      rw [branchesOfItems_cons, listResult_eq_ok_iff] at hread
      rcases hread with ⟨branch, others, hbranch, hothers, hbranches⟩
      rcases branchesOfItems_kept hothers with ⟨hrest, hback⟩
      rcases branchOfDocument_eq_ok hbranch with
        ⟨members, hitem, hne, hentries⟩
      subst hitem
      rcases entriesOfMembers_kept hentries with ⟨hgrammar, hwritten⟩
      rw [<- hbranches, Json.itemIntegers, branchItems]
      simp only [List.forall_mem_append]
      refine ⟨.cons hne hgrammar hrest, ?_⟩
      intro hfits
      rw [hwritten hfits.left, hback hfits.right]
  termination_by items => sizeOf items

theorem setOfMembers_kept {column : String} :
    forall {members : List (String × Json)} {set : List Comparator},
      setOfMembers column members = .ok set ->
        IsSet members ∧
          ((forall n, n ∈ Json.memberIntegers members -> Json.FitsInt64 n) ->
            comparatorMembers set = members)
  | [], set, hread => by
      rw [setOfMembers] at hread
      cases hread
      exact ⟨.nil, fun _ => by rw [comparatorMembers]⟩
  | (key, value) :: rest, set, hread => by
      rw [setOfMembers_cons, listResult_eq_ok_iff] at hread
      rcases hread with ⟨comparator, others, hcomparator, hothers, hset⟩
      rcases setOfMembers_kept hothers with ⟨hrest, hback⟩
      rw [<- hset, Json.memberIntegers]
      simp only [List.forall_mem_append]
      cases comparatorOfMember_eq_ok hcomparator with
      | inl hnot =>
          rcases hnot with ⟨hkey, hnegation⟩
          rw [hkey]
          cases negationOfDocument_eq_ok hnegation with
          | inl hany =>
              rcases hany with ⟨inner, branches, hvalue, hbranches, heq⟩
              rcases branchesOfDocument_eq_ok hbranches with
                ⟨items, hinner, hne, hitems⟩
              subst hinner
              subst hvalue
              rcases branchesOfItems_kept hitems with ⟨hgrammar, hwritten⟩
              rw [<- heq, comparatorMembers]
              refine ⟨.notAnyOf hne hgrammar hrest, ?_⟩
              intro hfits
              simp only [Json.integers, Json.memberIntegers,
                List.append_nil] at hfits
              rw [hwritten hfits.left, hback hfits.right]
          | inr hinner =>
              rcases hinner with ⟨members, inner, hvalue, hne, hinner, heq⟩
              subst hvalue
              rcases setOfMembers_kept hinner with ⟨hgrammar, hwritten⟩
              rw [<- heq, comparatorMembers]
              refine ⟨.not hne hgrammar hrest, ?_⟩
              intro hfits
              rw [hwritten hfits.left, hback hfits.right]
      | inr htest =>
          rcases htest with ⟨comparison, operand, hkey, hoperand, heq⟩
          rcases operandOfDocument_kept hoperand with ⟨hgrammar, hwritten⟩
          rw [<- hkey, <- heq, comparatorMembers]
          refine ⟨.test comparison hgrammar hrest, ?_⟩
          intro hfits
          rw [hwritten hfits.left, hback hfits.right]
  termination_by members => sizeOf members

end

/-!
# What is in the grammar is read
-/

theorem entryOfDocument_of_isOperand {value : Json}
    (hvalue : IsOperand value) (column : String) :
    entryOfDocument column value =
      (operandOfDocument column value).map (.equal column) := by
  cases hvalue with
  | _ =>
      rw [entryOfDocument]
      all_goals
        intros
        contradiction

theorem IsOperand.read {value : Json} (hvalue : IsOperand value)
    (column : String) :
    exists operand, operandOfDocument column value = .ok operand := by
  cases hvalue with
  | bool b => exact ⟨.bool b, rfl⟩
  | num n => exact ⟨Value.ofNumber n, rfl⟩
  | str text => exact ⟨.text text, rfl⟩

theorem entryOfDocument_obj {members : List (String × Json)}
    (hne : members ≠ []) (column : String) :
    entryOfDocument column (.obj members) =
      (setOfMembers column members).map (.compare column) := by
  cases members with
  | nil => exact absurd rfl hne
  | cons member rest => rw [entryOfDocument]

theorem branchesOfDocument_arr {items : List Json} (hne : items ≠ []) :
    branchesOfDocument (.arr items) = branchesOfItems items := by
  cases items with
  | nil => exact absurd rfl hne
  | cons item rest => rw [branchesOfDocument]

theorem branchOfDocument_obj {members : List (String × Json)}
    (hne : members ≠ []) :
    branchOfDocument (.obj members) = entriesOfMembers members := by
  cases members with
  | nil => exact absurd rfl hne
  | cons member rest => rw [branchOfDocument]

theorem negationOfDocument_orKey (column : String) (inner : Json) :
    negationOfDocument column (.obj [(orKey, inner)]) =
      (branchesOfDocument inner).map .notAnyOf := by
  rw [negationOfDocument, if_pos rfl]

theorem negationOfDocument_obj {members : List (String × Json)}
    (hne : members ≠ []) (hkeys : orKey ∉ Keyed.keys members)
    (column : String) :
    negationOfDocument column (.obj members) =
      (setOfMembers column members).map .not := by
  rcases members with _ | ⟨⟨key, inner⟩, _ | ⟨second, rest⟩⟩
  · exact absurd rfl hne
  · have hor : key ≠ orKey := by
      intro heq
      apply hkeys
      rw [heq, Keyed.keys_cons]
      exact List.mem_cons_self
    rw [negationOfDocument, if_neg hor]
  · rw [negationOfDocument]

theorem key_ne_orKey (comparison : Comparison) : orKey ≠ comparison.key := by
  cases comparison <;> decide

theorem notKey_ne_orKey : orKey ≠ notKey := by
  decide

theorem IsSet.orKey_not_mem :
    forall {members : List (String × Json)},
      IsSet members -> orKey ∉ Keyed.keys members
  | _, .nil => List.not_mem_nil
  | _, .test comparison _ hrest =>
      List.not_mem_cons_of_ne_of_not_mem (key_ne_orKey comparison)
        hrest.orKey_not_mem
  | _, .not _ _ hrest =>
      List.not_mem_cons_of_ne_of_not_mem notKey_ne_orKey hrest.orKey_not_mem
  | _, .notAnyOf _ _ hrest =>
      List.not_mem_cons_of_ne_of_not_mem notKey_ne_orKey hrest.orKey_not_mem

mutual

theorem IsMap.read :
    forall {members : List (String × Json)}, IsMap members ->
      exists entries, entriesOfMembers members = .ok entries
  | _, .nil => by
      exists []
  | _, @IsMap.operand column _ _ hcolumn hvalue hrest => by
      rcases hvalue.read column with ⟨operand, hoperand⟩
      rcases hrest.read with ⟨others, hothers⟩
      exists .equal column operand :: others
      rw [entriesOfMembers_cons, entryOfMember_of_column hcolumn,
        entryOfDocument_of_isOperand hvalue, hoperand, hothers]
      rfl
  | _, @IsMap.set column _ _ hcolumn hne hset hrest => by
      rcases hset.read column with ⟨set, hset⟩
      rcases hrest.read with ⟨others, hothers⟩
      exists .compare column set :: others
      rw [entriesOfMembers_cons, entryOfMember_of_column hcolumn,
        entryOfDocument_obj hne, hset, hothers]
      rfl
  | _, .anyOf hne hitems hrest => by
      rcases hitems.read with ⟨branches, hbranches⟩
      rcases hrest.read with ⟨others, hothers⟩
      exists .anyOf branches :: others
      rw [entriesOfMembers_cons, entryOfMember_orKey,
        branchesOfDocument_arr hne, hbranches, hothers]
      rfl

theorem IsBranches.read :
    forall {items : List Json}, IsBranches items ->
      exists branches, branchesOfItems items = .ok branches
  | _, .nil => by
      exists []
  | _, .cons hne hmap hrest => by
      rcases hmap.read with ⟨branch, hbranch⟩
      rcases hrest.read with ⟨others, hothers⟩
      exists branch :: others
      rw [branchesOfItems_cons, branchOfDocument_obj hne, hbranch, hothers]
      rfl

theorem IsSet.read :
    forall {members : List (String × Json)}, IsSet members ->
      forall column, exists set, setOfMembers column members = .ok set
  | _, .nil, column => by
      exists []
  | _, .test comparison hvalue hrest, column => by
      rcases hvalue.read column with ⟨operand, hoperand⟩
      rcases hrest.read column with ⟨others, hothers⟩
      exists .test comparison operand :: others
      rw [setOfMembers_cons, comparatorOfMember_key, hoperand, hothers]
      rfl
  | _, .not hne hset hrest, column => by
      rcases hset.read column with ⟨set, hread⟩
      rcases hrest.read column with ⟨others, hothers⟩
      exists .not set :: others
      rw [setOfMembers_cons, comparatorOfMember_notKey,
        negationOfDocument_obj hne hset.orKey_not_mem, hread, hothers]
      rfl
  | _, .notAnyOf hne hitems hrest, column => by
      rcases hitems.read with ⟨branches, hbranches⟩
      rcases hrest.read column with ⟨others, hothers⟩
      exists .notAnyOf branches :: others
      rw [setOfMembers_cons, comparatorOfMember_notKey,
        negationOfDocument_orKey, branchesOfDocument_arr hne, hbranches,
        hothers]
      rfl

end

theorem exists_ofDocument_iff (document : Json) :
    (exists predicate, ofDocument document = .ok predicate) <->
      IsPredicateDocument document := by
  constructor
  · intro hread
    rcases hread with ⟨predicate, hread⟩
    cases document with
    | obj members => exact ⟨members, rfl, (entriesOfMembers_kept hread).left⟩
    | _ => cases hread
  · intro hgrammar
    rcases hgrammar with ⟨members, heq, hmap⟩
    rw [heq]
    exact hmap.read

theorem document_of_ofDocument {document : Json} {predicate : Predicate}
    (hread : ofDocument document = .ok predicate)
    (hfits : forall n, n ∈ document.integers -> Json.FitsInt64 n) :
    predicate.document = document := by
  cases document with
  | obj members =>
      rw [Predicate.document, (entriesOfMembers_kept hread).right hfits]
  | _ => cases hread

/-!
# What is written is read back
-/

theorem isOperand_operandDocument {value : Value}
    (hliteral : value.isLiteral = true) :
    IsOperand (operandDocument value) := by
  cases value with
  | null => cases hliteral
  | blob bytes => cases hliteral
  | bool b => exact .bool b
  | int word => exact .num (.int word.toInt)
  | real x => exact .num (.float x)
  | text s => exact .str s

theorem operandOfDocument_operandDocument {value : Value}
    (hliteral : value.isLiteral = true) (column : String) :
    operandOfDocument column (operandDocument value) = .ok value := by
  cases value with
  | null => cases hliteral
  | blob bytes => cases hliteral
  | int word =>
      simp [operandDocument, Value.document, operandOfDocument,
        Value.ofNumber, Decimal.int64?_toInt]
  | _ => rfl

theorem entryMembers_ne_nil {entries : List Entry}
    (hne : entries.isEmpty = false) : entryMembers entries ≠ [] := by
  intro hnil
  rcases entries with _ | ⟨_ | _ | _, rest⟩
  · cases hne
  all_goals
    rw [entryMembers] at hnil
    cases hnil

theorem branchItems_ne_nil {branches : List (List Entry)}
    (hne : branches.isEmpty = false) : branchItems branches ≠ [] := by
  intro hnil
  cases branches with
  | nil => cases hne
  | cons branch rest =>
      rw [branchItems] at hnil
      cases hnil

theorem comparatorMembers_ne_nil {set : List Comparator}
    (hne : set.isEmpty = false) : comparatorMembers set ≠ [] := by
  intro hnil
  rcases set with _ | ⟨_ | _ | _, rest⟩
  · cases hne
  all_goals
    rw [comparatorMembers] at hnil
    cases hnil

theorem orKey_not_mem_comparatorMembers (set : List Comparator) :
    orKey ∉ Keyed.keys (comparatorMembers set) := by
  intro hmem
  cases mem_keys_comparatorMembers hmem with
  | inl hfound =>
      rcases hfound with ⟨comparison, _, heq⟩
      exact key_ne_orKey comparison heq
  | inr heq => exact notKey_ne_orKey heq

mutual

theorem entriesOfMembers_entryMembers :
    forall {seen : Bool} {entries : List Entry},
      entryViolations seen entries = [] -> PlainMap entries ->
        PlainInside entries ->
          entriesOfMembers (entryMembers entries) = .ok entries
  | _, [], _, _, _ => by
      rw [entryMembers, entriesOfMembers]
  | seen, .equal column value :: rest, hfree, hmap, hinside => by
      rw [entryViolations_equal_eq_nil_iff] at hfree
      rw [PlainInside] at hinside
      rcases hmap.of_column rfl with ⟨hcolumn, _, hmap⟩
      have hliteral := isLiteral_of_operandViolations hfree.left
      rw [entryMembers, entriesOfMembers_cons, entryOfMember_of_column hcolumn,
        entryOfDocument_of_isOperand (isOperand_operandDocument hliteral),
        operandOfDocument_operandDocument hliteral,
        entriesOfMembers_entryMembers hfree.right hmap hinside]
      rfl
  | seen, .compare column set :: rest, hfree, hmap, hinside => by
      rw [entryViolations_compare_eq_nil_iff] at hfree
      rw [PlainInside] at hinside
      rcases hmap.of_column rfl with ⟨hcolumn, _, hmap⟩
      rcases hfree with ⟨hne, hset, hrest⟩
      rw [entryMembers, entriesOfMembers_cons, entryOfMember_of_column hcolumn,
        entryOfDocument_obj (comparatorMembers_ne_nil hne),
        setOfMembers_comparatorMembers hset hinside.2.1,
        entriesOfMembers_entryMembers hrest hmap hinside.2.2]
      rfl
  | seen, .anyOf branches :: rest, hfree, hmap, hinside => by
      rw [entryViolations_anyOf_eq_nil_iff] at hfree
      rw [PlainInside] at hinside
      rcases hfree with ⟨_, hne, hany, hbranches, hrest⟩
      rw [entryMembers, entriesOfMembers_cons, entryOfMember_orKey,
        branchesOfDocument_arr (branchItems_ne_nil hne),
        branchesOfItems_branchItems hany hbranches hinside.left,
        entriesOfMembers_entryMembers hrest hmap.of_anyOf hinside.right]
      rfl
  termination_by _ entries => sizeOf entries

theorem branchesOfItems_branchItems :
    forall {branches : List (List Entry)},
      branches.any List.isEmpty = false -> branchViolations branches = [] ->
        PlainBranches branches ->
          branchesOfItems (branchItems branches) = .ok branches
  | [], _, _, _ => by
      rw [branchItems, branchesOfItems]
  | branch :: rest, hany, hfree, hplain => by
      rw [List.any_cons, Bool.or_eq_false_iff] at hany
      rw [branchViolations_cons_eq_nil_iff] at hfree
      rw [PlainBranches] at hplain
      rcases hplain with ⟨hmap, hinside, hplain⟩
      rw [branchItems, branchesOfItems_cons,
        branchOfDocument_obj (entryMembers_ne_nil hany.left),
        entriesOfMembers_entryMembers hfree.left hmap hinside,
        branchesOfItems_branchItems hany.right hfree.right hplain]
      rfl
  termination_by branches => sizeOf branches

theorem setOfMembers_comparatorMembers {column : String} :
    forall {seen : Bool} {set : List Comparator},
      comparatorViolations column seen set = [] -> PlainInsideSet set ->
        setOfMembers column (comparatorMembers set) = .ok set
  | _, [], _, _ => by
      rw [comparatorMembers, setOfMembers]
  | seen, .test comparison value :: rest, hfree, hinside => by
      rw [comparatorViolations_test_eq_nil_iff] at hfree
      rw [PlainInsideSet] at hinside
      have hliteral := isLiteral_of_operandViolations hfree.left
      rw [comparatorMembers, setOfMembers_cons, comparatorOfMember_key,
        operandOfDocument_operandDocument hliteral,
        setOfMembers_comparatorMembers hfree.right hinside]
      rfl
  | seen, .not set :: rest, hfree, hinside => by
      rw [comparatorViolations_not_eq_nil_iff] at hfree
      rw [PlainInsideSet] at hinside
      rcases hfree with ⟨_, hne, hset, hrest⟩
      rw [comparatorMembers, setOfMembers_cons, comparatorOfMember_notKey,
        negationOfDocument_obj (comparatorMembers_ne_nil hne)
          (orKey_not_mem_comparatorMembers set),
        setOfMembers_comparatorMembers hset hinside.2.1,
        setOfMembers_comparatorMembers hrest hinside.2.2]
      rfl
  | seen, .notAnyOf branches :: rest, hfree, hinside => by
      rw [comparatorViolations_notAnyOf_eq_nil_iff] at hfree
      rw [PlainInsideSet] at hinside
      rcases hfree with ⟨_, hne, hany, hbranches, hrest⟩
      rw [comparatorMembers, setOfMembers_cons, comparatorOfMember_notKey,
        negationOfDocument_orKey,
        branchesOfDocument_arr (branchItems_ne_nil hne),
        branchesOfItems_branchItems hany hbranches hinside.left,
        setOfMembers_comparatorMembers hrest hinside.right]
      rfl
  termination_by _ set => sizeOf set

end

theorem violations_of_compile {mode : Rendering} {predicate : Predicate}
    {clause : Fragment} (hok : compile mode predicate = .ok clause) :
    violations predicate = [] := by
  rw [compile_eq_verdict, verdict_eq_ok_iff] at hok
  exact hok.left

/-!
# Documents and predicates correspond
-/

/--
A document is read exactly if it is in the grammar, and the predicate that is
read from it is written as the same document.  Conversely, a compiled predicate
whose maps and sets are plain is written as a well-formed document, and is read
back from it.
-/
theorem ofDocument_round_trip :
    (forall document : Json,
      ((exists predicate, ofDocument document = .ok predicate) <->
        IsPredicateDocument document) ∧
      forall predicate, ofDocument document = .ok predicate ->
        document.WellFormed -> predicate.document = document) ∧
    (forall (mode : Rendering) (predicate : Predicate) (clause : Fragment),
      compile mode predicate = .ok clause -> predicate.Plain ->
        predicate.document.WellFormed ∧
          ofDocument predicate.document = .ok predicate) := by
  constructor
  · intro document
    constructor
    · exact exists_ofDocument_iff document
    · intro predicate hread hformed
      exact document_of_ofDocument hread hformed.integersFit
  · intro mode predicate clause hok hplain
    have hfree := violations_of_compile hok
    constructor
    · exact wellFormed_document hfree hplain
    · exact entriesOfMembers_entryMembers hfree hplain.left hplain.right

theorem ofDocument_round_trip_negated_branches :
    ofDocument
        (.obj [("a", .obj [("$gte", .num (.int 17)),
          ("$not", .obj [("$or", .arr [.obj [("b", .str "x")]])])])]) =
      .ok [.compare "a"
        [.test .ge (.int 17), .notAnyOf [[.equal "b" (.text "x")]]]] ∧
      document
          [.compare "a"
            [.test .ge (.int 17), .notAnyOf [[.equal "b" (.text "x")]]]] =
        .obj [("a", .obj [("$gte", .num (.int 17)),
          ("$not", .obj [("$or", .arr [.obj [("b", .str "x")]])])])] := by
  have hok :
      compile .inline
          [.compare "a"
            [.test .ge (.int 17), .notAnyOf [[.equal "b" (.text "x")]]]] =
        .ok ⟨"(a >= 17 AND NOT (((b = 'x'))))", []⟩ := by
    cbv
  have hplain :
      Plain
        [.compare "a"
          [.test .ge (.int 17), .notAnyOf [[.equal "b" (.text "x")]]]] := by
    constructor
    · exact ⟨by decide, by decide⟩
    · simp only [PlainInside, PlainInsideSet, PlainBranches]
      have hset :
          PlainSet
            [.test .ge (.int 17), .notAnyOf [[.equal "b" (.text "x")]]] := by
        unfold PlainSet
        decide
      have hmap : PlainMap [.equal "b" (.text "x")] :=
        ⟨by decide, by decide⟩
      exact ⟨hset, ⟨⟨hmap, trivial, trivial⟩, trivial⟩, trivial⟩
  rcases ofDocument_round_trip.right .inline _ _ hok hplain with
    ⟨hformed, hread⟩
  have hdocument :
      document
          [.compare "a"
            [.test .ge (.int 17), .notAnyOf [[.equal "b" (.text "x")]]]] =
        .obj [("a", .obj [("$gte", .num (.int 17)),
          ("$not", .obj [("$or", .arr [.obj [("b", .str "x")]])])])] := by
    cbv
  rw [hdocument] at hformed hread
  exact ⟨hread, (ofDocument_round_trip.left _).right _ hread hformed⟩
end Predicate
end TableStore
