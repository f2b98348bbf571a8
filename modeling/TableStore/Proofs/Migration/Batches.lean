import Mathlib.Data.List.Induction
import Mathlib.Data.List.Nodup
import Mathlib.Data.List.Sort
import TableStore.Migration.Batch

/-!
# Batches as maps in which the last addition wins

Batches that are added in any order stand by ascending versions, each version with
the statements of its last addition.  The pending batches are a slice of them, from
the first version on and below the second one, and are looked for only where there
is something between the two.
-/

namespace TableStore

/-!
# Conditions that hold of the first items only
-/

section Prefix

variable {α : Type} {holds : α -> Bool} {items : List α}

theorem takeWhile_eq_filter_of_pairwise
    (h : items.Pairwise fun first second =>
      holds second = true -> holds first = true) :
    items.takeWhile holds = items.filter holds := by
  induction items with
  | nil => rfl
  | cons item items ih =>
      rcases List.pairwise_cons.mp h with ⟨hitem, hitems⟩
      by_cases hholds : holds item = true
      · rw [List.takeWhile_cons_of_pos hholds, List.filter_cons_of_pos hholds,
          ih hitems]
      · rw [List.takeWhile_cons_of_neg hholds, eq_comm, List.filter_eq_nil_iff,
          List.forall_mem_cons]
        exact ⟨hholds, fun other hmem hother => hholds (hitem other hmem hother)⟩

theorem dropWhile_eq_filter_not_of_pairwise
    (h : items.Pairwise fun first second =>
      holds second = true -> holds first = true) :
    items.dropWhile holds = items.filter fun item => !holds item := by
  induction items with
  | nil => rfl
  | cons item items ih =>
      rcases List.pairwise_cons.mp h with ⟨hitem, hitems⟩
      by_cases hholds : holds item = true
      · rw [List.dropWhile_cons_of_pos hholds, ih hitems, List.filter_cons_of_neg]
        simpa using hholds
      · rw [List.dropWhile_cons_of_neg hholds, eq_comm, List.filter_eq_self,
          List.forall_mem_cons]
        refine ⟨by simpa using hholds, fun other hmem => ?_⟩
        simpa using fun hother => hholds (hitem other hmem hother)

end Prefix

/-!
# Ascending batches
-/

namespace Migration

theorem Ascending.takeWhile_lt {batches : List Batch} (h : Ascending batches)
    (upper : UInt32) :
    (batches.takeWhile fun batch => batch.version < upper) =
      batches.filter fun batch => batch.version < upper := by
  apply takeWhile_eq_filter_of_pairwise
  apply h.imp
  intro first second hlt hupper
  rw [decide_eq_true_eq] at hupper ⊢
  exact UInt32.lt_trans hlt hupper

theorem Ascending.dropWhile_lt {batches : List Batch} (h : Ascending batches)
    (lower : UInt32) :
    (batches.dropWhile fun batch => batch.version < lower) =
      batches.filter fun batch => lower <= batch.version := by
  rw [dropWhile_eq_filter_not_of_pairwise]
  · apply List.filter_congr
    intro batch _
    rw [<- decide_not, decide_eq_decide, UInt32.not_lt]
  · apply h.imp
    intro first second hlt hlower
    rw [decide_eq_true_eq] at hlower ⊢
    exact UInt32.lt_trans hlt hlower

theorem Ascending.pairwise_versions {batches : List Batch} (h : Ascending batches) :
    (batches.map (·.version)).Pairwise (· < ·) :=
  List.pairwise_map.mpr h

theorem Ascending.eq_of_version_eq {batches : List Batch} (h : Ascending batches)
    {first second : Batch} (hfirst : first ∈ batches) (hsecond : second ∈ batches)
    (hversion : first.version = second.version) : first = second := by
  have hdistinct : (batches.map (·.version)).Nodup :=
    h.pairwise_versions.imp UInt32.ne_of_lt
  exact List.inj_on_of_nodup_map hdistinct hfirst hsecond hversion

instance : Std.Irrefl fun first second : Batch => first.version < second.version :=
  ⟨fun batch => UInt32.lt_irrefl batch.version⟩

instance : Std.Antisymm fun first second : Batch => first.version < second.version :=
  ⟨fun _ _ hlt hgt => absurd hgt (UInt32.lt_asymm hlt)⟩

/-- Ascending batches are determined by which batches there are. -/
theorem Ascending.eq_of_mem_iff {batches others : List Batch}
    (h : Ascending batches) (hothers : Ascending others)
    (hmem : forall batch, batch ∈ batches ↔ batch ∈ others) : batches = others :=
  List.Pairwise.eq_of_mem_iff h hothers hmem

theorem version_of_find? {batches : List Batch} {version : UInt32} {batch : Batch}
    (h : (batches.find? fun other => other.version = version) = some batch) :
    batch.version = version := by
  simpa using List.find?_some h

theorem Ascending.find?_eq_some_iff {batches : List Batch} (h : Ascending batches)
    {version : UInt32} {batch : Batch} :
    (batches.find? fun other => other.version = version) = some batch ↔
      batch ∈ batches ∧ batch.version = version := by
  constructor
  · intro hfound
    exact ⟨List.mem_of_find?_eq_some hfound, version_of_find? hfound⟩
  · rintro ⟨hmem, rfl⟩
    cases hfound : batches.find? (fun other => other.version = batch.version) with
    | none =>
        rw [List.find?_eq_none] at hfound
        exact absurd (decide_eq_true rfl) (hfound batch hmem)
    | some found =>
        rw [h.eq_of_version_eq (List.mem_of_find?_eq_some hfound) hmem
          (version_of_find? hfound)]

theorem find?_insertBatch (batch : Batch) (batches : List Batch)
    (version : UInt32) :
    (insertBatch batch batches).find? (fun other => other.version = version) =
      if batch.version = version then some batch
      else batches.find? fun other => other.version = version := by
  induction batches with
  | nil => by_cases hversion : batch.version = version <;> simp [insertBatch, hversion]
  | cons first rest ih =>
      rw [insertBatch]
      split
      · by_cases hversion : batch.version = version <;> simp [hversion]
      · split
        · rename_i hsame
          by_cases hversion : batch.version = version
          · simp [hversion]
          · have hfirst : first.version ≠ version := fun heq =>
              hversion (hsame.trans heq)
            simp [hversion, hfirst]
        · rename_i hother
          rw [List.find?_cons, List.find?_cons, ih]
          by_cases hfirst : first.version = version
          · have hversion : batch.version ≠ version := fun heq =>
              hother (heq.trans hfirst.symm)
            simp [hfirst, hversion]
          · simp [hfirst]

end Migration

namespace Migrations

open Migration (Ascending Batch normalize)

theorem eq_of_batches_eq {first second : Migrations}
    (h : first.batches = second.batches) : first = second := by
  cases first
  cases second
  cases h
  rfl

/-!
# Statements of a version
-/

theorem get?_put (migrations : Migrations) (batch : Batch) (version : UInt32) :
    (migrations.put batch).get? version =
      if batch.version = version then some batch.statements
      else migrations.get? version := by
  rw [get?, put, Migration.find?_insertBatch]
  split <;> rfl

theorem get?_eq_some_iff (migrations : Migrations) (version : UInt32)
    (statements : List String) :
    migrations.get? version = some statements ↔
      ⟨version, statements⟩ ∈ migrations.batches := by
  rw [get?, Option.map_eq_some_iff]
  constructor
  · rintro ⟨found, hfound, rfl⟩
    rw [migrations.ascending.find?_eq_some_iff] at hfound
    rcases hfound with ⟨hmem, rfl⟩
    exact hmem
  · intro hmem
    exact ⟨_, migrations.ascending.find?_eq_some_iff.mpr ⟨hmem, rfl⟩, rfl⟩

theorem mem_versions_iff (migrations : Migrations) (version : UInt32) :
    version ∈ migrations.versions ↔ (migrations.get? version).isSome := by
  rw [versions, List.mem_map, Option.isSome_iff_exists]
  constructor
  · rintro ⟨batch, hmem, rfl⟩
    exact ⟨batch.statements, (get?_eq_some_iff migrations _ _).mpr hmem⟩
  · rintro ⟨statements, hget⟩
    exact ⟨_, (get?_eq_some_iff migrations _ _).mp hget, rfl⟩

theorem eq_of_get? {first second : Migrations}
    (h : forall version, first.get? version = second.get? version) :
    first = second := by
  apply eq_of_batches_eq
  apply first.ascending.eq_of_mem_iff second.ascending
  rintro ⟨version, statements⟩
  rw [<- get?_eq_some_iff, <- get?_eq_some_iff, h]

theorem put_of_get? {migrations : Migrations} {batch : Batch}
    (h : migrations.get? batch.version = some batch.statements) :
    migrations.put batch = migrations := by
  apply eq_of_get?
  intro version
  rw [get?_put]
  split
  · rename_i hversion
    rw [<- hversion, h]
  · rfl

/-!
# Histories of additions
-/

def LastAddition (version : UInt32) (statements : List String)
    (additions : List Batch) : Prop :=
  exists before after, additions = before ++ ⟨version, statements⟩ :: after ∧
    forall later, later ∈ after -> later.version ≠ version

/-- What batches hold behind a history of additions that starts without any. -/
structure LastAdditionWins (additions : List Batch) (migrations : Migrations) :
    Prop where
  versions_ascending : migrations.versions.Pairwise (· < ·)
  mem_versions_iff : forall version,
    version ∈ migrations.versions ↔ version ∈ additions.map (·.version)
  get?_eq_some_iff : forall version stored,
    migrations.get? version = some stored ↔
      exists statements, LastAddition version statements additions ∧
        stored = statements.map normalize
  mem_batches_iff : forall batch, batch ∈ migrations.batches ↔
    exists statements, LastAddition batch.version statements additions ∧
      batch.statements = statements.map normalize

theorem find?_reverse_eq_some_iff (additions : List Batch) (version : UInt32)
    (statements : List String) :
    (additions.reverse.find? fun added => added.version = version) =
        some ⟨version, statements⟩ ↔
      LastAddition version statements additions := by
  rw [List.find?_eq_some_iff_append]
  constructor
  · rintro ⟨-, behind, before, hadditions, hbehind⟩
    refine ⟨before.reverse, behind.reverse, ?_, fun later hlater => ?_⟩
    · rw [List.reverse_eq_iff] at hadditions
      simpa using hadditions
    · simpa using hbehind later (List.mem_reverse.mp hlater)
  · rintro ⟨before, after, hadditions, hafter⟩
    refine ⟨decide_eq_true rfl, after.reverse, before.reverse, ?_, fun later hlater => ?_⟩
    · rw [hadditions]
      simp
    · simpa using hafter later (List.mem_reverse.mp hlater)

theorem ofList_concat (additions : List Batch) (added : Batch) :
    ofList (additions ++ [added]) =
      (ofList additions).insert added.version added.statements := by
  rw [ofList, List.foldl_append]
  rfl

theorem get?_ofList (additions : List Batch) (version : UInt32) :
    (ofList additions).get? version =
      (additions.reverse.find? fun added => added.version = version).map
        fun added => added.statements.map normalize := by
  -- Added last means found first from behind, so the induction takes the last one off.
  induction additions using List.reverseRecOn with
  | nil => rfl
  | append_singleton additions added ih =>
      rw [ofList_concat, insert, get?_put, ih, List.reverse_concat,
        List.find?_cons]
      by_cases hversion : added.version = version <;> simp [hversion]

theorem get?_ofList_eq_some_iff (additions : List Batch) (version : UInt32)
    (stored : List String) :
    (ofList additions).get? version = some stored ↔
      exists statements, LastAddition version statements additions ∧
        stored = statements.map normalize := by
  rw [get?_ofList, Option.map_eq_some_iff]
  constructor
  · rintro ⟨⟨found, statements⟩, hfound, rfl⟩
    cases Migration.version_of_find? hfound
    exact ⟨statements, (find?_reverse_eq_some_iff additions _ _).mp hfound, rfl⟩
  · rintro ⟨statements, hlast, rfl⟩
    exact ⟨_, (find?_reverse_eq_some_iff additions version statements).mpr hlast, rfl⟩

theorem lastAdditionWins_ofList (additions : List Batch) :
    LastAdditionWins additions (ofList additions) where
  versions_ascending := (ofList additions).ascending.pairwise_versions
  mem_versions_iff version := by
    rw [mem_versions_iff, get?_ofList, Option.isSome_map, List.find?_isSome,
      List.mem_map]
    simp
  get?_eq_some_iff := get?_ofList_eq_some_iff additions
  mem_batches_iff batch := by
    rw [<- get?_ofList_eq_some_iff, get?_eq_some_iff]

theorem ofList_eq_of_lastAddition {additions others : List Batch}
    (h : forall version statements, LastAddition version statements additions ↔
      LastAddition version statements others) :
    ofList additions = ofList others := by
  apply eq_of_get?
  intro version
  ext stored
  rw [get?_ofList_eq_some_iff, get?_ofList_eq_some_iff]
  simp only [h]

/-!
# Pending batches
-/

structure Slice (migrations : Migrations) (current target : UInt32)
    (slice : List Batch) : Prop where
  ascending : Ascending slice
  mem_iff : forall batch, batch ∈ slice ↔
    batch ∈ migrations.batches ∧ current <= batch.version ∧ batch.version < target

theorem range?_eq_some (migrations : Migrations) {lower upper : UInt32}
    (h : lower <= upper) :
    migrations.range? lower upper = some (migrations.batches.filter fun batch =>
      lower <= batch.version && batch.version < upper) := by
  have hfound : Ascending (migrations.batches.filter fun batch =>
      lower <= batch.version) :=
    List.Pairwise.filter _ migrations.ascending
  rw [range?, if_neg (UInt32.not_lt.mpr h), migrations.ascending.dropWhile_lt,
    hfound.takeWhile_lt, List.filter_filter]
  simp only [Bool.and_comm]

theorem pending_eq_filter (migrations : Migrations) (current target : UInt32) :
    migrations.pending current target = migrations.batches.filter fun batch =>
      current <= batch.version && batch.version < target := by
  rw [pending]
  split
  · rename_i hlt
    exact Option.get_of_eq_some _ (range?_eq_some migrations (UInt32.le_of_lt hlt))
  · rename_i hge
    rw [eq_comm, List.filter_eq_nil_iff]
    intro batch _ hbetween
    rw [Bool.and_eq_true, decide_eq_true_eq, decide_eq_true_eq] at hbetween
    exact hge (UInt32.lt_of_le_of_lt hbetween.left hbetween.right)

theorem mem_pending_iff {migrations : Migrations} {current target : UInt32}
    {batch : Batch} :
    batch ∈ migrations.pending current target ↔
      batch ∈ migrations.batches ∧ current <= batch.version ∧
        batch.version < target := by
  rw [pending_eq_filter, List.mem_filter, Bool.and_eq_true, decide_eq_true_eq,
    decide_eq_true_eq]

theorem slice_pending (migrations : Migrations) (current target : UInt32) :
    Slice migrations current target (migrations.pending current target) where
  ascending := by
    rw [pending_eq_filter]
    exact List.Pairwise.filter _ migrations.ascending
  mem_iff _ := mem_pending_iff

theorem pending_eq_iff (migrations : Migrations) (current target : UInt32)
    (slice : List Batch) :
    migrations.pending current target = slice ↔
      Slice migrations current target slice := by
  have hpending := slice_pending migrations current target
  constructor
  · rintro rfl
    exact hpending
  · intro h
    apply hpending.ascending.eq_of_mem_iff h.ascending
    intro batch
    rw [hpending.mem_iff, h.mem_iff]

theorem range?_eq_some_pending (migrations : Migrations)
    {current target : UInt32} (h : current < target) :
    migrations.range? current target = some (migrations.pending current target) := by
  rw [pending_eq_filter, range?_eq_some migrations (UInt32.le_of_lt h)]

/--
Batches that are added one after another stand by ascending versions, each with
the normalized statements of its last addition, whatever the order of the
additions.  The pending batches between two versions are exactly the slice of the
batches from the first version on and below the second one, and the range that is
looked for to find them is never refused.
-/
theorem last_additions_sorted_and_sliced :
    (forall additions : List Batch,
      LastAdditionWins additions (ofList additions)) ∧
    (forall additions others : List Batch,
      (forall version statements, LastAddition version statements additions ↔
        LastAddition version statements others) ->
      ofList additions = ofList others) ∧
    forall (migrations : Migrations) (current target : UInt32),
      (current < target -> migrations.range? current target =
        some (migrations.pending current target)) ∧
      forall slice, migrations.pending current target = slice ↔
        Slice migrations current target slice := by
  refine ⟨lastAdditionWins_ofList, ?_, ?_⟩
  · intro additions others hlast
    exact ofList_eq_of_lastAddition hlast
  · intro migrations current target
    exact ⟨range?_eq_some_pending migrations,
      pending_eq_iff migrations current target⟩

def replacing : List Batch :=
  [⟨3, ["SELECT 3"]⟩, ⟨0, ["SELECT 0"]⟩, ⟨3, [" SELECT 4; \n", "SELECT 5"]⟩]

def reordered : List Batch :=
  [⟨0, []⟩, ⟨3, [" SELECT 4; \n", "SELECT 5"]⟩, ⟨0, ["SELECT 0"]⟩]

theorem last_additions_sorted_and_sliced_of_reordered :
    (forall version statements, LastAddition version statements replacing ↔
      LastAddition version statements reordered) ∧
    ofList replacing = ofList reordered ∧
    (1 : UInt32) < 4294967295 ∧
    (ofList replacing).range? 1 4294967295 =
      some [⟨3, ["SELECT 4;", "SELECT 5;"]⟩] ∧
    Slice (ofList replacing) 4 2 [] := by
  have hlast : forall version statements,
      LastAddition version statements replacing ↔
        LastAddition version statements reordered := by
    intro version statements
    rw [<- find?_reverse_eq_some_iff, <- find?_reverse_eq_some_iff, replacing,
      reordered]
    by_cases hthree : (3 : UInt32) = version
    · subst hthree
      rfl
    · by_cases hzero : (0 : UInt32) = version <;> simp [hthree, hzero]
  have hslices := last_additions_sorted_and_sliced.right.right (ofList replacing)
  have hrange := (hslices 1 4294967295).left (by decide)
  have hpending : (ofList replacing).pending 1 4294967295 =
      [⟨3, ["SELECT 4;", "SELECT 5;"]⟩] := by
    decide +kernel
  rw [hpending] at hrange
  exact ⟨hlast, last_additions_sorted_and_sliced.right.left _ _ hlast, by decide,
    hrange, ((hslices 4 2).right []).mp (by decide +kernel)⟩

end Migrations
end TableStore
