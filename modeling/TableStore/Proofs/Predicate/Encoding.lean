import TableStore.Predicate.Document
import TableStore.Proofs.Json.Contents
import TableStore.Proofs.Predicate.Contents

/-!
# The document of a predicate

A predicate is written as an object whose members follow its entries: a column
with its operand or with the object of its comparisons, and the branches as a
list of objects.  A negation holds the object of the negated set, or an object
whose only member is the list of branches.

What is written of a predicate is a document in good order, provided that the
predicate is compiled and that it repeats no name where an object cannot.
-/

namespace TableStore
namespace Predicate

/-!
# Writing
-/

def operandDocument : Value -> Json
  | .real x => .num (.float x)
  | value => value.document

mutual

def entryMembers : List Entry -> List (String × Json)
  | [] => []
  | .equal column value :: rest =>
      (column, operandDocument value) :: entryMembers rest
  | .compare column set :: rest =>
      (column, .obj (comparatorMembers set)) :: entryMembers rest
  | .anyOf branches :: rest =>
      (orKey, .arr (branchItems branches)) :: entryMembers rest
  termination_by entries => sizeOf entries

def branchItems : List (List Entry) -> List Json
  | [] => []
  | branch :: rest => .obj (entryMembers branch) :: branchItems rest
  termination_by branches => sizeOf branches

def comparatorMembers : List Comparator -> List (String × Json)
  | [] => []
  | .test comparison value :: rest =>
      (comparison.key, operandDocument value) :: comparatorMembers rest
  | .not set :: rest =>
      (notKey, .obj (comparatorMembers set)) :: comparatorMembers rest
  | .notAnyOf branches :: rest =>
      (notKey, .obj [(orKey, .arr (branchItems branches))]) ::
        comparatorMembers rest
  termination_by set => sizeOf set

end

/-- The document that a predicate is written as. -/
def document (predicate : Predicate) : Json :=
  .obj (entryMembers predicate)

/-!
# Predicates that an object can hold
-/

def mapColumns : List Entry -> List String
  | [] => []
  | .equal column _ :: rest => column :: mapColumns rest
  | .compare column _ :: rest => column :: mapColumns rest
  | .anyOf _ :: rest => mapColumns rest

def setComparisons : List Comparator -> List Comparison
  | [] => []
  | .test comparison _ :: rest => comparison :: setComparisons rest
  | .not _ :: rest => setComparisons rest
  | .notAnyOf _ :: rest => setComparisons rest

/--
The columns of one map are distinct, and none is spelled like the key of an
operator.
-/
structure PlainMap (entries : List Entry) : Prop where
  distinct : (mapColumns entries).Nodup
  names : forall column, column ∈ mapColumns entries ->
    isOperatorKey column = false

/-- No comparison is made twice in one set. -/
def PlainSet (set : List Comparator) : Prop :=
  (setComparisons set).Nodup

mutual

def PlainInside : List Entry -> Prop
  | [] => True
  | .equal _ _ :: rest => PlainInside rest
  | .compare _ set :: rest =>
      PlainSet set ∧ PlainInsideSet set ∧ PlainInside rest
  | .anyOf branches :: rest => PlainBranches branches ∧ PlainInside rest
  termination_by entries => sizeOf entries

def PlainBranches : List (List Entry) -> Prop
  | [] => True
  | branch :: rest =>
      PlainMap branch ∧ PlainInside branch ∧ PlainBranches rest
  termination_by branches => sizeOf branches

def PlainInsideSet : List Comparator -> Prop
  | [] => True
  | .test _ _ :: rest => PlainInsideSet rest
  | .not set :: rest =>
      PlainSet set ∧ PlainInsideSet set ∧ PlainInsideSet rest
  | .notAnyOf branches :: rest => PlainBranches branches ∧ PlainInsideSet rest
  termination_by set => sizeOf set

end

/-- Every map and every set of the predicate is plain, at any depth. -/
def Plain (predicate : Predicate) : Prop :=
  PlainMap predicate ∧ PlainInside predicate

theorem PlainMap.of_column {column : String} {entries rest : List Entry}
    (hplain : PlainMap entries)
    (hcolumns : mapColumns entries = column :: mapColumns rest) :
    isOperatorKey column = false ∧ column ∉ mapColumns rest ∧
      PlainMap rest := by
  have hdistinct := hplain.distinct
  have hnames := hplain.names
  rw [hcolumns, List.nodup_cons] at hdistinct
  rw [hcolumns, List.forall_mem_cons] at hnames
  exact ⟨hnames.left, hdistinct.left, hdistinct.right, hnames.right⟩

theorem PlainMap.of_anyOf {branches : List (List Entry)} {rest : List Entry}
    (hplain : PlainMap (.anyOf branches :: rest)) : PlainMap rest :=
  ⟨hplain.distinct, hplain.names⟩

theorem ne_orKey_of_plain {column : String}
    (hplain : isOperatorKey column = false) : column ≠ orKey := by
  intro heq
  rw [heq] at hplain
  revert hplain
  decide

/-!
# Unique keys
-/

theorem mem_keys_entryMembers {key : String} :
    forall {entries : List Entry}, key ∈ Keyed.keys (entryMembers entries) ->
      key ∈ mapColumns entries ∨ key = orKey
  | [], hmem => by
      rw [entryMembers] at hmem
      cases hmem
  | .equal column value :: rest, hmem => by
      rw [entryMembers, Keyed.keys_cons, List.mem_cons] at hmem
      rw [mapColumns, List.mem_cons]
      cases hmem with
      | inl heq => exact .inl (.inl heq)
      | inr hrest =>
          exact (mem_keys_entryMembers hrest).imp .inr id
  | .compare column set :: rest, hmem => by
      rw [entryMembers, Keyed.keys_cons, List.mem_cons] at hmem
      rw [mapColumns, List.mem_cons]
      cases hmem with
      | inl heq => exact .inl (.inl heq)
      | inr hrest =>
          exact (mem_keys_entryMembers hrest).imp .inr id
  | .anyOf branches :: rest, hmem => by
      rw [entryMembers, Keyed.keys_cons, List.mem_cons] at hmem
      rw [mapColumns]
      cases hmem with
      | inl heq => exact .inr heq
      | inr hrest => exact mem_keys_entryMembers hrest

theorem not_mem_keys_entryMembers {column : String} {rest : List Entry}
    (hname : isOperatorKey column = false) (hnew : column ∉ mapColumns rest) :
    column ∉ Keyed.keys (entryMembers rest) := by
  intro hmem
  cases mem_keys_entryMembers hmem with
  | inl hcolumn => exact hnew hcolumn
  | inr heq => exact ne_orKey_of_plain hname heq

/-- The keys are distinct, and a key that is used up is none of them. -/
def FreshKeys (used : Bool) (key : String) (members : List (String × Json)) :
    Prop :=
  (Keyed.keys members).Nodup ∧ (used = true -> key ∉ Keyed.keys members)

theorem FreshKeys.cons {used : Bool} {key name : String} {value : Json}
    {members : List (String × Json)} (hfresh : FreshKeys used key members)
    (hnew : name ∉ Keyed.keys members) (hne : name ≠ key) :
    FreshKeys used key ((name, value) :: members) := by
  constructor
  · rw [Keyed.keys_cons, List.nodup_cons]
    exact ⟨hnew, hfresh.left⟩
  · intro hused
    rw [Keyed.keys_cons]
    exact List.not_mem_cons_of_ne_of_not_mem hne.symm (hfresh.right hused)

theorem FreshKeys.cons_key {used : Bool} {key : String} {value : Json}
    {members : List (String × Json)} (hfresh : FreshKeys true key members)
    (hused : used = false) : FreshKeys used key ((key, value) :: members) := by
  constructor
  · rw [Keyed.keys_cons, List.nodup_cons]
    exact ⟨hfresh.right rfl, hfresh.left⟩
  · intro htrue
    rw [hused] at htrue
    cases htrue

theorem freshKeys_nil (used : Bool) (key : String) : FreshKeys used key [] :=
  ⟨List.nodup_nil, fun _ => List.not_mem_nil⟩

theorem freshKeys_entryMembers :
    forall {seen : Bool} {entries : List Entry},
      entryViolations seen entries = [] -> PlainMap entries ->
        FreshKeys seen orKey (entryMembers entries)
  | seen, [], _, _ => by
      rw [entryMembers]
      exact freshKeys_nil seen orKey
  | seen, .equal column value :: rest, hfree, hplain => by
      rw [entryViolations_equal_eq_nil_iff] at hfree
      rcases hplain.of_column rfl with ⟨hname, hnew, hrest⟩
      rw [entryMembers]
      exact (freshKeys_entryMembers hfree.right hrest).cons
        (not_mem_keys_entryMembers hname hnew) (ne_orKey_of_plain hname)
  | seen, .compare column set :: rest, hfree, hplain => by
      rw [entryViolations_compare_eq_nil_iff] at hfree
      rcases hplain.of_column rfl with ⟨hname, hnew, hrest⟩
      rw [entryMembers]
      exact (freshKeys_entryMembers hfree.right.right hrest).cons
        (not_mem_keys_entryMembers hname hnew) (ne_orKey_of_plain hname)
  | seen, .anyOf branches :: rest, hfree, hplain => by
      rw [entryViolations_anyOf_eq_nil_iff] at hfree
      rcases hfree with ⟨hseen, _, _, _, hfree⟩
      rw [entryMembers]
      exact (freshKeys_entryMembers hfree hplain.of_anyOf).cons_key hseen

theorem key_injective {first second : Comparison}
    (heq : first.key = second.key) : first = second := by
  have hfound := Comparison.ofKey?_key first
  rw [heq, Comparison.ofKey?_key] at hfound
  exact (Option.some.inj hfound).symm

theorem key_ne_notKey (comparison : Comparison) :
    comparison.key ≠ notKey := by
  cases comparison <;> decide

theorem mem_keys_comparatorMembers {key : String} :
    forall {set : List Comparator}, key ∈ Keyed.keys (comparatorMembers set) ->
      (exists comparison,
        comparison ∈ setComparisons set ∧ key = comparison.key) ∨
      key = notKey
  | [], hmem => by
      rw [comparatorMembers] at hmem
      cases hmem
  | .test comparison value :: rest, hmem => by
      rw [comparatorMembers, Keyed.keys_cons, List.mem_cons] at hmem
      rw [setComparisons]
      cases hmem with
      | inl heq => exact .inl ⟨comparison, List.mem_cons_self, heq⟩
      | inr hrest =>
          cases mem_keys_comparatorMembers hrest with
          | inl hfound =>
              rcases hfound with ⟨other, hother, heq⟩
              exact .inl ⟨other, List.mem_cons_of_mem comparison hother, heq⟩
          | inr heq => exact .inr heq
  | .not set :: rest, hmem => by
      rw [comparatorMembers, Keyed.keys_cons, List.mem_cons] at hmem
      rw [setComparisons]
      cases hmem with
      | inl heq => exact .inr heq
      | inr hrest => exact mem_keys_comparatorMembers hrest
  | .notAnyOf branches :: rest, hmem => by
      rw [comparatorMembers, Keyed.keys_cons, List.mem_cons] at hmem
      rw [setComparisons]
      cases hmem with
      | inl heq => exact .inr heq
      | inr hrest => exact mem_keys_comparatorMembers hrest

theorem not_mem_keys_comparatorMembers {comparison : Comparison}
    {rest : List Comparator} (hnew : comparison ∉ setComparisons rest) :
    comparison.key ∉ Keyed.keys (comparatorMembers rest) := by
  intro hmem
  cases mem_keys_comparatorMembers hmem with
  | inl hfound =>
      rcases hfound with ⟨other, hother, heq⟩
      rw [key_injective heq] at hnew
      exact hnew hother
  | inr heq => exact key_ne_notKey comparison heq

theorem freshKeys_comparatorMembers {column : String} :
    forall {seen : Bool} {set : List Comparator},
      comparatorViolations column seen set = [] -> PlainSet set ->
        FreshKeys seen notKey (comparatorMembers set)
  | seen, [], _, _ => by
      rw [comparatorMembers]
      exact freshKeys_nil seen notKey
  | seen, .test comparison value :: rest, hfree, hplain => by
      rw [comparatorViolations_test_eq_nil_iff] at hfree
      rw [PlainSet, setComparisons, List.nodup_cons] at hplain
      rw [comparatorMembers]
      exact (freshKeys_comparatorMembers hfree.right hplain.right).cons
        (not_mem_keys_comparatorMembers hplain.left) (key_ne_notKey comparison)
  | seen, .not set :: rest, hfree, hplain => by
      rw [comparatorViolations_not_eq_nil_iff] at hfree
      rcases hfree with ⟨hseen, _, _, hfree⟩
      rw [comparatorMembers]
      exact (freshKeys_comparatorMembers hfree hplain).cons_key hseen
  | seen, .notAnyOf branches :: rest, hfree, hplain => by
      rw [comparatorViolations_notAnyOf_eq_nil_iff] at hfree
      rcases hfree with ⟨hseen, _, _, _, hfree⟩
      rw [comparatorMembers]
      exact (freshKeys_comparatorMembers hfree hplain).cons_key hseen

/-!
# What is written is well-formed
-/

theorem wellFormed_operandDocument {value : Value}
    (hliteral : value.isLiteral = true) :
    (operandDocument value).WellFormed := by
  constructor
  · intro members hmem
    cases value with
    | null => cases hliteral
    | blob bytes => cases hliteral
    | _ => cases hmem
  · intro n hmem
    cases value with
    | null => cases hliteral
    | blob bytes => cases hliteral
    | int word =>
        rw [List.mem_singleton.mp hmem]
        exact Json.fitsInt64_toInt word
    | _ => cases hmem

mutual

theorem wellFormed_entryMembers :
    forall {seen : Bool} {entries : List Entry},
      entryViolations seen entries = [] -> PlainInside entries ->
        forall member, member ∈ entryMembers entries -> member.2.WellFormed
  | _, [], _, _ => by
      rw [entryMembers]
      exact List.forall_mem_nil _
  | seen, .equal column value :: rest, hfree, hplain => by
      rw [entryViolations_equal_eq_nil_iff] at hfree
      rw [PlainInside] at hplain
      rw [entryMembers, List.forall_mem_cons]
      constructor
      · exact wellFormed_operandDocument
          (isLiteral_of_operandViolations hfree.left)
      · exact wellFormed_entryMembers hfree.right hplain
  | seen, .compare column set :: rest, hfree, hplain => by
      rw [entryViolations_compare_eq_nil_iff] at hfree
      rw [PlainInside] at hplain
      rcases hfree with ⟨_, hset, hrest⟩
      rcases hplain with ⟨hown, hinside, hplain⟩
      rw [entryMembers, List.forall_mem_cons]
      constructor
      · exact .obj (freshKeys_comparatorMembers hset hown).left
          (wellFormed_comparatorMembers hset hinside)
      · exact wellFormed_entryMembers hrest hplain
  | seen, .anyOf branches :: rest, hfree, hplain => by
      rw [entryViolations_anyOf_eq_nil_iff] at hfree
      rw [PlainInside] at hplain
      rcases hfree with ⟨_, _, _, hbranches, hrest⟩
      rw [entryMembers, List.forall_mem_cons]
      constructor
      · exact .arr (wellFormed_branchItems hbranches hplain.left)
      · exact wellFormed_entryMembers hrest hplain.right
  termination_by _ entries => sizeOf entries

theorem wellFormed_branchItems :
    forall {branches : List (List Entry)},
      branchViolations branches = [] -> PlainBranches branches ->
        forall item, item ∈ branchItems branches -> item.WellFormed
  | [], _, _ => by
      rw [branchItems]
      exact List.forall_mem_nil _
  | branch :: rest, hfree, hplain => by
      rw [branchViolations_cons_eq_nil_iff] at hfree
      rw [PlainBranches] at hplain
      rcases hplain with ⟨hown, hinside, hplain⟩
      rw [branchItems, List.forall_mem_cons]
      constructor
      · exact .obj (freshKeys_entryMembers hfree.left hown).left
          (wellFormed_entryMembers hfree.left hinside)
      · exact wellFormed_branchItems hfree.right hplain
  termination_by branches => sizeOf branches

theorem wellFormed_comparatorMembers {column : String} :
    forall {seen : Bool} {set : List Comparator},
      comparatorViolations column seen set = [] -> PlainInsideSet set ->
        forall member, member ∈ comparatorMembers set -> member.2.WellFormed
  | _, [], _, _ => by
      rw [comparatorMembers]
      exact List.forall_mem_nil _
  | seen, .test comparison value :: rest, hfree, hplain => by
      rw [comparatorViolations_test_eq_nil_iff] at hfree
      rw [PlainInsideSet] at hplain
      rw [comparatorMembers, List.forall_mem_cons]
      constructor
      · exact wellFormed_operandDocument
          (isLiteral_of_operandViolations hfree.left)
      · exact wellFormed_comparatorMembers hfree.right hplain
  | seen, .not set :: rest, hfree, hplain => by
      rw [comparatorViolations_not_eq_nil_iff] at hfree
      rw [PlainInsideSet] at hplain
      rcases hfree with ⟨_, _, hset, hrest⟩
      rcases hplain with ⟨hown, hinside, hplain⟩
      rw [comparatorMembers, List.forall_mem_cons]
      constructor
      · exact .obj (freshKeys_comparatorMembers hset hown).left
          (wellFormed_comparatorMembers hset hinside)
      · exact wellFormed_comparatorMembers hrest hplain
  | seen, .notAnyOf branches :: rest, hfree, hplain => by
      rw [comparatorViolations_notAnyOf_eq_nil_iff] at hfree
      rw [PlainInsideSet] at hplain
      rcases hfree with ⟨_, _, _, hbranches, hrest⟩
      rw [comparatorMembers, List.forall_mem_cons]
      constructor
      · refine .obj (List.pairwise_singleton _ orKey) ?_
        rw [List.forall_mem_singleton]
        exact .arr (wellFormed_branchItems hbranches hplain.left)
      · exact wellFormed_comparatorMembers hrest hplain.right
  termination_by _ set => sizeOf set

end

theorem wellFormed_document {predicate : Predicate}
    (hfree : violations predicate = []) (hplain : predicate.Plain) :
    (document predicate).WellFormed :=
  .obj (freshKeys_entryMembers hfree hplain.left).left
    (wellFormed_entryMembers hfree hplain.right)

end Predicate
end TableStore
