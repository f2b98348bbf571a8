import TableStore.Engine.Query
import TableStore.Proofs.Decimal.Order

/-!
# Arrangements

The order of cells is total up to cells that compare equal, and so is the order of
rows by orderings.  A list of rows is arranged if it is sorted by the orderings; rows
that no ordering tells apart stand in it in any order.
-/

namespace TableStore
namespace Engine

open Decimal (Binary64 twoTo)
open Std (OrientedCmp TransCmp)

/-!
# The order of cells
-/

namespace Cell

/-- The value of a number, as a multiple of the least positive binary number. -/
def units : Cell -> Int
  | .int n => n.toInt * twoTo 1074
  | .real x => x.signedUnits
  | _ => 0

def letters : Cell -> String
  | .text s => s
  | _ => ""

def content : Cell -> List UInt8
  | .blob bytes => bytes
  | _ => []

theorem compareBytes_eq (bytes others : List UInt8) :
    compareBytes bytes others = Ord.compare bytes others := by
  induction bytes generalizing others with
  | nil => cases others <;> rfl
  | cons first bytes ih =>
      cases others with
      | nil => rfl
      | cons second others =>
          have hdefinition : Ord.compare first second =
              if first < second then .lt else if first = second then .eq else .gt :=
            rfl
          have hcons : Ord.compare (first :: bytes) (second :: others) =
              (Ord.compare first second).then (Ord.compare bytes others) :=
            List.compareLex_cons_cons
          rw [compareBytes, ih, hcons, hdefinition]
          by_cases hless : first < second
          · rw [if_pos hless, if_pos hless]
            rfl
          · rw [if_neg hless, if_neg hless]
            by_cases hmore : second < first
            · rw [if_pos hmore, if_neg (UInt8.ne_of_lt hmore).symm]
              rfl
            · rw [if_neg hmore, if_pos (UInt8.le_antisymm
                (UInt8.not_lt.mp hmore) (UInt8.not_lt.mp hless))]
              rfl

theorem compareInt_eq_units (n : Int64) (x : Binary64) :
    Binary64.compareInt n.toInt x =
      Ord.compare (n.toInt * twoTo 1074) x.signedUnits := by
  apply Binary64.compareInt_eq
  have hlow := Int64.le_toInt n
  have hhigh := Int64.toInt_lt n
  have hbound : twoTo 64 = 2 ^ 64 := rfl
  omega

theorem compare_eq_units {a b : Cell} (ha : a.rank = 1) (hb : b.rank = 1) :
    Cell.compare a b = Ord.compare a.units b.units := by
  have htwo : (0 : Int) < twoTo 1074 := Int.natCast_pos.mpr (Decimal.twoTo_pos _)
  cases a with
  | null => cases ha
  | text s => cases ha
  | blob bytes => cases ha
  | int n =>
      cases b with
      | null => cases hb
      | text s => cases hb
      | blob bytes => cases hb
      | int m => exact (Binary64.compare_mul_right n.toInt m.toInt htwo).symm
      | real y => exact compareInt_eq_units n y
  | real x =>
      cases b with
      | null => cases hb
      | text s => cases hb
      | blob bytes => cases hb
      | int m =>
          rw [compare, compareInt_eq_units]
          exact Binary64.compare_swap _ _
      | real y => exact Binary64.compare_eq x y

theorem compare_text (s t : String) :
    Cell.compare (.text s) (.text t) = Ord.compare s t := rfl

theorem compare_blob (bytes others : List UInt8) :
    Cell.compare (.blob bytes) (.blob others) = Ord.compare bytes others :=
  compareBytes_eq bytes others

theorem compare_eq_compareLex :
    Cell.compare = compareLex (compareOn rank) (compareLex (compareOn units)
      (compareLex (compareOn letters) (compareOn content))) := by
  funext a b
  by_cases hnumbers : a.rank = 1 ∧ b.rank = 1
  · have hothers : a.letters = "" ∧ b.letters = "" ∧
        a.content = [] ∧ b.content = [] := by
      cases a <;> cases b <;> simp_all [rank, letters, content]
    rw [compare_eq_units hnumbers.left hnumbers.right]
    simp [compareLex, compareOn, hnumbers, hothers]
  · cases a <;> cases b <;>
      first
      | rfl
      | exact absurd ⟨rfl, rfl⟩ hnumbers
      | simp [compareLex, compareOn, compare_text, compare_blob, rank, units,
          letters, content]

instance : TransCmp Cell.compare := by
  rw [compare_eq_compareLex]
  infer_instance

theorem compare_swap (a b : Cell) : Cell.compare a b = (Cell.compare b a).swap :=
  OrientedCmp.eq_swap

theorem isLE_compare_trans {a b c : Cell} (hab : (Cell.compare a b).isLE = true)
    (hbc : (Cell.compare b c).isLE = true) : (Cell.compare a c).isLE = true :=
  TransCmp.isLE_trans hab hbc

end Cell

/-!
# The order of rows
-/

section Rows

variable [Conversions]

def SortKey.compare (key : SortKey) (a b : Record) : Ordering :=
  match key.2 with
  | .ascending => Cell.compare (key.1.eval a) (key.1.eval b)
  | .descending => Cell.compare (key.1.eval b) (key.1.eval a)

instance (key : SortKey) : TransCmp key.compare := by
  rcases key with ⟨formula, _ | _⟩
  · exact
      { eq_swap := Cell.compare_swap _ _
        isLE_trans := Cell.isLE_compare_trans }
  · exact
      { eq_swap := Cell.compare_swap _ _
        isLE_trans := fun hab hbc => Cell.isLE_compare_trans hbc hab }

theorem compareRows_cons (key : SortKey) (orderings : List SortKey) :
    compareRows (key :: orderings) =
      compareLex key.compare (compareRows orderings) := by
  funext a b
  rcases key with ⟨formula, _ | _⟩
  · rw [compareRows, compareLex, SortKey.compare]
    cases Cell.compare (formula.eval a) (formula.eval b) <;> rfl
  · rw [compareRows, compareLex, SortKey.compare,
      Cell.compare_swap (formula.eval b)]
    cases Cell.compare (formula.eval a) (formula.eval b) <;> rfl

instance (orderings : List SortKey) : TransCmp (compareRows orderings) := by
  induction orderings with
  | nil => exact { eq_swap := rfl, isLE_trans := fun _ _ => rfl }
  | cons key orderings ih =>
      rw [compareRows_cons]
      infer_instance

/-!
# Arranged rows
-/

structure Arranges (orderings : List SortKey) (records arranged : List Record) :
    Prop where
  perm : arranged.Perm records
  sorted : arranged.Pairwise fun a b => (compareRows orderings a b).isLE = true

theorem arranges_sortRecords (orderings : List SortKey)
    {records visited : List Record} (hvisited : visited.Perm records) :
    Arranges orderings records (sortRecords orderings visited) where
  perm := (List.mergeSort_perm visited _).trans hvisited
  sorted := by
    have hle (order : Ordering) : (order != .gt) = order.isLE := by
      cases order <;> rfl
    rw [sortRecords]
    simp only [hle]
    apply List.pairwise_mergeSort
    · intro a b c
      exact TransCmp.isLE_trans
    · intro a b
      rw [Bool.or_eq_true, <- OrientedCmp.isGE_iff_isLE (a := a) (b := b)]
      cases compareRows orderings a b <;> simp

/-- Two arrangements of the same rows have rows in every place that tie. -/
theorem Arranges.tied {orderings : List SortKey}
    {records first second : List Record}
    (hfirst : Arranges orderings records first)
    (hsecond : Arranges orderings records second) :
    List.Forall₂ (fun a b => compareRows orderings a b = .eq) first second := by
  -- A row is known up to ties by the rows that are not behind it.
  let below (a : Record) : Record -> Prop := fun b =>
    (compareRows orderings b a).isLE = true
  have hsorted {rows : List Record} (h : Arranges orderings records rows) :
      (rows.map below).Pairwise fun p q => forall a, p a -> q a :=
    List.pairwise_map.mpr (h.sorted.imp fun hab _ hc =>
      TransCmp.isLE_trans hc hab)
  have hmaps : first.map below = second.map below :=
    ((hfirst.perm.trans hsecond.perm.symm).map below).eq_of_pairwise
      (fun p q _ _ hpq hqp => funext fun a => propext ⟨hpq a, hqp a⟩)
      (hsorted hfirst) (hsorted hsecond)
  rw [<- List.forall₂_eq_eq_eq, List.forall₂_map_left_iff,
    List.forall₂_map_right_iff] at hmaps
  refine hmaps.imp fun a b hbelow => OrientedCmp.isLE_antisymm ?_ ?_
  · exact (congrFun hbelow a).mp Std.ReflCmp.isLE_rfl
  · exact (congrFun hbelow b).mpr Std.ReflCmp.isLE_rfl

theorem Arranges.eq_of_distinct {orderings : List SortKey}
    {records first second : List Record}
    (hfirst : Arranges orderings records first)
    (hsecond : Arranges orderings records second)
    (hdistinct : forall a b, a ∈ records -> b ∈ records ->
      compareRows orderings a b = .eq -> a = b) :
    first = second :=
  (hfirst.perm.trans hsecond.perm.symm).eq_of_pairwise
    (fun a b ha hb hab hba => hdistinct a b (hfirst.perm.mem_iff.mp ha)
      (hsecond.perm.mem_iff.mp hb) (OrientedCmp.isLE_antisymm hab hba))
    hfirst.sorted hsecond.sorted

end Rows

end Engine
end TableStore
