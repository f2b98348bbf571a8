import TableStore.Proofs.Decimal.Rounding
import TableStore.Proofs.Predicate.RoundTrip
import TableStore.Proofs.Statement.Build

/-!
# Predicates that are read are compiled

Reading and compiling check a predicate independently of each other, and by
different means: reading looks at the keys and the kinds of a document, compiling
at the tree.  What reading accepts has nothing wrong with it at any depth.

A second list of branches, or a second negation, cannot be read, because it would
need the same key twice.  So the induction carries which key is used up, next to
the distinct keys of all objects and the finite numbers.
-/

namespace TableStore
namespace Predicate

/-!
# Keys that are used up
-/

theorem FreshKeys.of_nodup {key : String} {members : List (String × Json)}
    (hnodup : (Keyed.keys members).Nodup) : FreshKeys false key members :=
  ⟨hnodup, fun hused => nomatch hused⟩

theorem FreshKeys.tail {used : Bool} {key name : String} {value : Json}
    {members : List (String × Json)}
    (hfresh : FreshKeys used key ((name, value) :: members)) :
    FreshKeys used key members := by
  rcases hfresh with ⟨hnodup, hused⟩
  rw [Keyed.keys_cons] at hnodup hused
  constructor
  · exact (List.nodup_cons.mp hnodup).right
  · intro htrue hmem
    exact hused htrue (List.mem_cons_of_mem name hmem)

theorem FreshKeys.tail_key {used : Bool} {key : String} {value : Json}
    {members : List (String × Json)}
    (hfresh : FreshKeys used key ((key, value) :: members)) :
    used = false ∧ FreshKeys true key members := by
  rcases hfresh with ⟨hnodup, hused⟩
  rw [Keyed.keys_cons] at hnodup hused
  rcases List.nodup_cons.mp hnodup with ⟨hnew, hrest⟩
  constructor
  · rw [Bool.eq_false_iff]
    intro htrue
    exact hused htrue List.mem_cons_self
  · exact ⟨hrest, fun _ => hnew⟩

/-!
# Nothing is wrong with what is read
-/

theorem isLiteral_ofNumber {n : Number} (hfinite : Json.FiniteNumber n) :
    (Value.ofNumber n).isLiteral = true := by
  cases n with
  | float x => exact hfinite
  | int m =>
      rw [Value.ofNumber]
      cases Decimal.int64? m with
      | some word => rfl
      | none =>
          rcases hfinite with ⟨hlow, hhigh⟩
          rw [Decimal.int64Bound] at hlow
          rw [Decimal.uint64Bound] at hhigh
          exact Decimal.Binary64.isFinite_ofInt (by omega) (by omega)

theorem operandViolations_of_read {column : String} {value : Json}
    {operand : Value} (hread : operandOfDocument column value = .ok operand)
    (hproper : value.Proper) : operandViolations column operand = [] := by
  apply operandViolations_of_isLiteral
  cases value with
  | null => cases hread
  | arr items => cases hread
  | obj members => cases hread
  | bool b =>
      cases hread
      rfl
  | str text =>
      cases hread
      rfl
  | num n =>
      cases hread
      apply isLiteral_ofNumber
      apply hproper.finiteNumbers
      rw [Json.numbers]
      exact List.mem_singleton_self n

theorem isEmpty_of_listResult {α : Type} {head : Except ShapeError α}
    {tail : Except ShapeError (List α)} {all : List α}
    (hread : listResult head tail = .ok all) : all.isEmpty = false := by
  rcases listResult_eq_ok_iff.mp hread with ⟨first, others, _, _, heq⟩
  rw [<- heq]
  rfl

theorem isEmpty_entries_of_read {members : List (String × Json)}
    {entries : List Entry} (hread : entriesOfMembers members = .ok entries)
    (hne : members ≠ []) : entries.isEmpty = false := by
  rcases members with _ | ⟨⟨key, value⟩, rest⟩
  · exact absurd rfl hne
  · rw [entriesOfMembers_cons] at hread
    exact isEmpty_of_listResult hread

theorem isEmpty_branches_of_read {items : List Json}
    {branches : List (List Entry)}
    (hread : branchesOfItems items = .ok branches) (hne : items ≠ []) :
    branches.isEmpty = false := by
  rcases items with _ | ⟨item, rest⟩
  · exact absurd rfl hne
  · rw [branchesOfItems_cons] at hread
    exact isEmpty_of_listResult hread

theorem isEmpty_set_of_read {column : String} {members : List (String × Json)}
    {set : List Comparator} (hread : setOfMembers column members = .ok set)
    (hne : members ≠ []) : set.isEmpty = false := by
  rcases members with _ | ⟨⟨key, value⟩, rest⟩
  · exact absurd rfl hne
  · rw [setOfMembers_cons] at hread
    exact isEmpty_of_listResult hread

mutual

theorem entryViolations_of_read :
    forall {seen : Bool} {members : List (String × Json)}
      {entries : List Entry},
      entriesOfMembers members = .ok entries ->
        FreshKeys seen orKey members ->
          (forall member, member ∈ members -> member.2.Proper) ->
            entryViolations seen entries = []
  | seen, [], entries, hread, _, _ => by
      rw [entriesOfMembers] at hread
      cases hread
      rw [entryViolations]
  | seen, (key, value) :: rest, entries, hread, hfresh, hproper => by
      rw [entriesOfMembers_cons, listResult_eq_ok_iff] at hread
      rcases hread with ⟨entry, others, hentry, hothers, hentries⟩
      rw [List.forall_mem_cons] at hproper
      rcases hproper with ⟨hvalue, hrest⟩
      subst hentries
      cases entryOfMember_eq_ok hentry with
      | inl hor =>
          rcases hor with ⟨hkey, branches, hbranches, heq⟩
          rcases branchesOfDocument_eq_ok hbranches with
            ⟨items, hlist, hne, hitems⟩
          subst hkey hlist heq
          rcases hfresh.tail_key with ⟨hseen, hfresh⟩
          rcases branchViolations_of_read hitems
            (fun item => hvalue.item) with ⟨hany, hfree⟩
          rw [entryViolations, hseen, isEmpty_branches_of_read hitems hne,
            hany, hfree, entryViolations_of_read hothers hfresh hrest]
          rfl
      | inr hcolumn =>
          have hothers :=
            entryViolations_of_read hothers hfresh.tail hrest
          cases entryOfDocument_eq_ok hcolumn.right with
          | inl hequal =>
              rcases hequal with ⟨operand, hoperand, heq⟩
              rw [<- heq, entryViolations, hothers,
                operandViolations_of_read hoperand hvalue]
              rfl
          | inr hcompare =>
              rcases hcompare with ⟨members, set, hobject, hne, hset, heq⟩
              subst hobject
              have hfree :=
                comparatorViolations_of_read hset
                  (FreshKeys.of_nodup hvalue.keys) (fun member => hvalue.member)
              rw [<- heq, entryViolations, isEmpty_set_of_read hset hne, hfree,
                hothers]
              rfl
  termination_by _ members => sizeOf members

theorem branchViolations_of_read :
    forall {items : List Json} {branches : List (List Entry)},
      branchesOfItems items = .ok branches ->
        (forall item, item ∈ items -> item.Proper) ->
          branches.any List.isEmpty = false ∧ branchViolations branches = []
  | [], branches, hread, _ => by
      rw [branchesOfItems] at hread
      cases hread
      rw [branchViolations]
      exact ⟨rfl, rfl⟩
  | item :: rest, branches, hread, hproper => by
      rw [branchesOfItems_cons, listResult_eq_ok_iff] at hread
      rcases hread with ⟨branch, others, hbranch, hothers, hbranches⟩
      rw [List.forall_mem_cons] at hproper
      rcases hproper with ⟨hitem, hrest⟩
      rcases branchOfDocument_eq_ok hbranch with
        ⟨members, hobject, hne, hentries⟩
      subst hobject
      rcases branchViolations_of_read hothers hrest with ⟨hany, hfree⟩
      have hbranch :=
        entryViolations_of_read hentries (FreshKeys.of_nodup hitem.keys)
          (fun member => hitem.member)
      rw [<- hbranches, List.any_cons, branchViolations, hany, hfree, hbranch,
        isEmpty_entries_of_read hentries hne]
      exact ⟨rfl, rfl⟩
  termination_by items => sizeOf items

theorem comparatorViolations_of_read {column : String} :
    forall {seen : Bool} {members : List (String × Json)}
      {set : List Comparator},
      setOfMembers column members = .ok set ->
        FreshKeys seen notKey members ->
          (forall member, member ∈ members -> member.2.Proper) ->
            comparatorViolations column seen set = []
  | seen, [], set, hread, _, _ => by
      rw [setOfMembers] at hread
      cases hread
      rw [comparatorViolations]
  | seen, (key, value) :: rest, set, hread, hfresh, hproper => by
      rw [setOfMembers_cons, listResult_eq_ok_iff] at hread
      rcases hread with ⟨comparator, others, hcomparator, hothers, hset⟩
      rw [List.forall_mem_cons] at hproper
      rcases hproper with ⟨hvalue, hrest⟩
      subst hset
      cases comparatorOfMember_eq_ok hcomparator with
      | inl hnot =>
          rcases hnot with ⟨hkey, hnegation⟩
          subst hkey
          rcases hfresh.tail_key with ⟨hseen, hfresh⟩
          have hothers := comparatorViolations_of_read hothers hfresh hrest
          cases negationOfDocument_eq_ok hnegation with
          | inl hany =>
              rcases hany with ⟨inner, branches, hobject, hbranches, heq⟩
              rcases branchesOfDocument_eq_ok hbranches with
                ⟨items, hlist, hne, hitems⟩
              subst hobject hlist
              have hinner := hvalue.member List.mem_cons_self
              rcases branchViolations_of_read hitems
                (fun item => hinner.item) with ⟨hany, hfree⟩
              rw [<- heq, comparatorViolations, hseen,
                isEmpty_branches_of_read hitems hne, hany, hfree, hothers]
              rfl
          | inr hinner =>
              rcases hinner with ⟨members, inner, hobject, hne, hinner, heq⟩
              subst hobject
              have hfree :=
                comparatorViolations_of_read hinner
                  (FreshKeys.of_nodup hvalue.keys) (fun member => hvalue.member)
              rw [<- heq, comparatorViolations, hseen,
                isEmpty_set_of_read hinner hne, hfree, hothers]
              rfl
      | inr htest =>
          rcases htest with ⟨comparison, operand, _, hoperand, heq⟩
          rw [<- heq, comparatorViolations,
            operandViolations_of_read hoperand hvalue,
            comparatorViolations_of_read hothers hfresh.tail hrest]
          rfl
  termination_by _ members => sizeOf members

end

theorem violations_of_ofDocument {document : Json} {predicate : Predicate}
    (hread : ofDocument document = .ok predicate)
    (hproper : document.Proper) : violations predicate = [] := by
  cases document with
  | obj members =>
      exact entryViolations_of_read hread (FreshKeys.of_nodup hproper.keys)
        (fun member => hproper.member)
  | _ => cases hread

/--
A predicate that is read from a document with unique keys and finite numbers is
compiled in either rendering, and every statement with it as a filter is built.
-/
theorem ofDocument_compiles {document : Json} {predicate : Predicate}
    (hproper : document.Proper) (hread : ofDocument document = .ok predicate)
    (mode : Rendering) :
    (exists clause, compile mode predicate = .ok clause) ∧
      forall (table : String) (options : Options),
        options.filter? = some predicate ->
          (exists statement,
            Statement.select mode table options = .ok statement) ∧
          (forall changes, exists statement,
            Statement.update mode table changes options = .ok statement) ∧
          (exists statement,
            Statement.delete mode table options.filter? = .ok statement) ∧
          (forall computed, exists statement,
            Statement.aggregate mode table computed options.filter? =
              .ok statement) := by
  have hfree := violations_of_ofDocument hread hproper
  constructor
  · rw [compile_eq_verdict, hfree]
    exact ⟨_, verdict_nil _⟩
  · intro table options hfilter
    have hfilter : Statement.filterViolations options.filter? = [] := by
      rw [hfilter]
      exact hfree
    rw [Statement.select_eq, Statement.delete_eq, hfilter]
    refine ⟨⟨_, verdict_nil _⟩, ?_, ⟨_, verdict_nil _⟩, ?_⟩
    · intro changes
      rw [Statement.update_eq, hfilter]
      exact ⟨_, verdict_nil _⟩
    · intro computed
      rw [Statement.aggregate_eq, hfilter]
      exact ⟨_, verdict_nil _⟩

theorem ofDocument_compiles_negated_branches :
    exists clause,
      compile .inline
          [.anyOf [[.equal "a" (.real (.ofInt Decimal.int64Bound)),
            .compare "b" [.notAnyOf [[.equal "a" (.text "x")]],
              .test .lt (.bool true)]]]] =
        .ok clause := by
  have hproper :
      (Json.obj [("$or", .arr [.obj [("a", .num (.int Decimal.int64Bound)),
        ("b", .obj [("$not", .obj [("$or", .arr [.obj [("a", .str "x")]])]),
          ("$lt", .bool true)])]])]).Proper := by
    constructor
    · decide
    · simp [Json.numbers, Json.memberNumbers, Json.itemNumbers,
        Json.FiniteNumber, Decimal.int64Bound, Decimal.uint64Bound]
  have hread :
      ofDocument
          (.obj [("$or", .arr [.obj [("a", .num (.int Decimal.int64Bound)),
            ("b", .obj [("$not", .obj [("$or", .arr [.obj [("a", .str "x")]])]),
              ("$lt", .bool true)])]])]) =
        .ok [.anyOf [[.equal "a" (.real (.ofInt Decimal.int64Bound)),
          .compare "b" [.notAnyOf [[.equal "a" (.text "x")]],
            .test .lt (.bool true)]]]] := by
    rfl
  exact (ofDocument_compiles hproper hread .inline).left

end Predicate
end TableStore
