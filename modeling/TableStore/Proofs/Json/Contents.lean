import TableStore.Decimal.Range
import TableStore.Json.Document

/-!
# Objects and numbers of a document

The objects and the numbers of a document, at any depth, in the order in which
they are written.  A document has unique keys when no object in it names a
member twice; that is a property of all its objects, not of the outer one.
-/

namespace TableStore
namespace Json

mutual

def objects : Json -> List (List (String × Json))
  | .arr items => itemObjects items
  | .obj members => members :: memberObjects members
  | .null | .bool _ | .num _ | .str _ => []

def itemObjects : List Json -> List (List (String × Json))
  | [] => []
  | item :: rest => objects item ++ itemObjects rest

def memberObjects : List (String × Json) -> List (List (String × Json))
  | [] => []
  | (_, value) :: rest => objects value ++ memberObjects rest

end

mutual

def integers : Json -> List Int
  | .num (.int n) => [n]
  | .arr items => itemIntegers items
  | .obj members => memberIntegers members
  | .null | .bool _ | .num (.float _) | .str _ => []

def itemIntegers : List Json -> List Int
  | [] => []
  | item :: rest => integers item ++ itemIntegers rest

def memberIntegers : List (String × Json) -> List Int
  | [] => []
  | (_, value) :: rest => integers value ++ memberIntegers rest

end

def FitsInt64 (n : Int) : Prop :=
  -Decimal.int64Bound <= n ∧ n < Decimal.int64Bound

/-- A document that keeps its meaning when it is read as a predicate. -/
structure WellFormed (document : Json) : Prop where
  uniqueKeys : forall members, members ∈ document.objects ->
    (Keyed.keys members).Nodup
  integersFit : forall n, n ∈ document.integers -> FitsInt64 n

theorem fitsInt64_toInt (n : Int64) : FitsInt64 n.toInt :=
  ⟨Int64.le_toInt n, Int64.toInt_lt n⟩

theorem int64?_of_fitsInt64 {n : Int} (hfits : FitsInt64 n) :
    exists word, Decimal.int64? n = some word ∧ word.toInt = n := by
  have hword : Decimal.int64? n = some (Int64.ofInt n) := by
    simp [Decimal.int64?, hfits.left, hfits.right]
  exact ⟨Int64.ofInt n, hword, Decimal.toInt_of_int64? hword⟩

/-!
# Documents are well-formed when their parts are
-/

theorem mem_itemObjects_iff {members : List (String × Json)}
    {items : List Json} :
    members ∈ itemObjects items <->
      exists item, item ∈ items ∧ members ∈ item.objects := by
  induction items with
  | nil => simp [itemObjects]
  | cons item rest ih => simp [itemObjects, ih]

theorem mem_memberObjects_iff {inner outer : List (String × Json)} :
    inner ∈ memberObjects outer <->
      exists member, member ∈ outer ∧ inner ∈ member.2.objects := by
  induction outer with
  | nil => simp [memberObjects]
  | cons member rest ih =>
      rcases member with ⟨key, value⟩
      simp only [memberObjects, List.mem_append, List.mem_cons, ih,
        or_and_right, exists_or, exists_eq_left]

theorem mem_itemIntegers_iff {n : Int} {items : List Json} :
    n ∈ itemIntegers items <->
      exists item, item ∈ items ∧ n ∈ item.integers := by
  induction items with
  | nil => simp [itemIntegers]
  | cons item rest ih => simp [itemIntegers, ih]

theorem mem_memberIntegers_iff {n : Int} {members : List (String × Json)} :
    n ∈ memberIntegers members <->
      exists member, member ∈ members ∧ n ∈ member.2.integers := by
  induction members with
  | nil => simp [memberIntegers]
  | cons member rest ih =>
      rcases member with ⟨key, value⟩
      simp only [memberIntegers, List.mem_append, List.mem_cons, ih,
        or_and_right, exists_or, exists_eq_left]

theorem WellFormed.arr {items : List Json}
    (hitems : forall item, item ∈ items -> item.WellFormed) :
    (Json.arr items).WellFormed := by
  constructor
  · intro members hmem
    rw [objects] at hmem
    rcases mem_itemObjects_iff.mp hmem with ⟨item, hitem, hin⟩
    exact (hitems item hitem).uniqueKeys members hin
  · intro n hmem
    rw [integers] at hmem
    rcases mem_itemIntegers_iff.mp hmem with ⟨item, hitem, hin⟩
    exact (hitems item hitem).integersFit n hin

theorem WellFormed.obj {members : List (String × Json)}
    (hkeys : (Keyed.keys members).Nodup)
    (hmembers : forall member, member ∈ members -> member.2.WellFormed) :
    (Json.obj members).WellFormed := by
  constructor
  · intro inner hmem
    rw [objects, List.mem_cons] at hmem
    cases hmem with
    | inl heq =>
        rw [heq]
        exact hkeys
    | inr hmem =>
        rcases mem_memberObjects_iff.mp hmem with ⟨member, hmember, hin⟩
        exact (hmembers member hmember).uniqueKeys inner hin
  · intro n hmem
    rw [integers] at hmem
    rcases mem_memberIntegers_iff.mp hmem with ⟨member, hmember, hin⟩
    exact (hmembers member hmember).integersFit n hin

/-!
# Documents as they can be given
-/

mutual

def numbers : Json -> List Number
  | .num n => [n]
  | .arr items => itemNumbers items
  | .obj members => memberNumbers members
  | .null | .bool _ | .str _ => []

def itemNumbers : List Json -> List Number
  | [] => []
  | item :: rest => numbers item ++ itemNumbers rest

def memberNumbers : List (String × Json) -> List Number
  | [] => []
  | (_, value) :: rest => numbers value ++ memberNumbers rest

end

/--
A number that a document can hold: a whole number of sixty-four bits, with or
without sign, or a finite binary number.
-/
def FiniteNumber : Number -> Prop
  | .int n => -Decimal.int64Bound <= n ∧ n < Decimal.uint64Bound
  | .float x => x.isFinite = true

/-- A document with unique keys and finite numbers. -/
structure Proper (document : Json) : Prop where
  uniqueKeys : forall members, members ∈ document.objects ->
    (Keyed.keys members).Nodup
  finiteNumbers : forall n, n ∈ document.numbers -> FiniteNumber n

theorem mem_itemNumbers_iff {n : Number} {items : List Json} :
    n ∈ itemNumbers items <-> exists item, item ∈ items ∧ n ∈ item.numbers := by
  induction items with
  | nil => simp [itemNumbers]
  | cons item rest ih => simp [itemNumbers, ih]

theorem mem_memberNumbers_iff {n : Number} {members : List (String × Json)} :
    n ∈ memberNumbers members <->
      exists member, member ∈ members ∧ n ∈ member.2.numbers := by
  induction members with
  | nil => simp [memberNumbers]
  | cons member rest ih =>
      rcases member with ⟨key, value⟩
      simp only [memberNumbers, List.mem_append, List.mem_cons, ih,
        or_and_right, exists_or, exists_eq_left]

theorem finiteNumbers_num {n : Number} (h : FiniteNumber n) :
    forall m, m ∈ (Json.num n).numbers -> FiniteNumber m := by
  intro m hmem
  rw [numbers, List.mem_singleton] at hmem
  rwa [hmem]

theorem finiteNumbers_arr {α : Type} {items : List α} {document : α -> Json}
    (h : forall item, item ∈ items ->
      forall n, n ∈ (document item).numbers -> FiniteNumber n) :
    forall n, n ∈ (Json.arr (items.map document)).numbers -> FiniteNumber n := by
  intro n hmem
  rw [numbers, mem_itemNumbers_iff] at hmem
  rcases hmem with ⟨found, hfound, hn⟩
  rcases List.mem_map.mp hfound with ⟨item, hitem, rfl⟩
  exact h item hitem n hn

theorem finiteNumbers_obj {members : List (String × Json)}
    (h : forall member, member ∈ members ->
      forall n, n ∈ member.2.numbers -> FiniteNumber n) :
    forall n, n ∈ (Json.obj members).numbers -> FiniteNumber n := by
  intro n hmem
  rw [numbers, mem_memberNumbers_iff] at hmem
  rcases hmem with ⟨member, hmember, hn⟩
  exact h member hmember n hn

theorem Proper.item {items : List Json} (hproper : (Json.arr items).Proper)
    {item : Json} (hitem : item ∈ items) : item.Proper := by
  constructor
  · intro members hmem
    apply hproper.uniqueKeys
    rw [objects]
    exact mem_itemObjects_iff.mpr ⟨item, hitem, hmem⟩
  · intro n hmem
    apply hproper.finiteNumbers
    rw [numbers]
    exact mem_itemNumbers_iff.mpr ⟨item, hitem, hmem⟩

theorem Proper.keys {members : List (String × Json)}
    (hproper : (Json.obj members).Proper) : (Keyed.keys members).Nodup := by
  apply hproper.uniqueKeys
  rw [objects]
  exact List.mem_cons_self

theorem Proper.member {members : List (String × Json)}
    (hproper : (Json.obj members).Proper) {member : String × Json}
    (hmember : member ∈ members) : member.2.Proper := by
  constructor
  · intro inner hmem
    apply hproper.uniqueKeys
    rw [objects]
    exact List.mem_cons_of_mem members
      (mem_memberObjects_iff.mpr ⟨member, hmember, hmem⟩)
  · intro n hmem
    apply hproper.finiteNumbers
    rw [numbers]
    exact mem_memberNumbers_iff.mpr ⟨member, hmember, hmem⟩

end Json
end TableStore
