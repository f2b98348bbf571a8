import TableStore.Proofs.Engine.Machine
import TableStore.Proofs.Migration.Batches

/-!
# Plans of migrations

A plan is the statements of the batches between two versions, one after another.  How
far the statements come on a store is said without a host: they stop at the first one
that fails.  Two plans, one behind the other, come as far as a single one.
-/

namespace TableStore

/-!
# Plans
-/

namespace Migrations

/-- The pending batches up to a version, and those from there on, are all of them. -/
theorem pending_append (migrations : Migrations)
    {current middle target : UInt32} (hmiddle : current <= middle)
    (htarget : middle <= target) :
    migrations.pending current middle ++ migrations.pending middle target =
      migrations.pending current target := by
  have hfirst := slice_pending migrations current middle
  have hsecond := slice_pending migrations middle target
  rw [eq_comm, pending_eq_iff]
  constructor
  · rw [Migration.Ascending, List.pairwise_append]
    refine ⟨hfirst.ascending, hsecond.ascending, fun batch hbatch other hother => ?_⟩
    have hbelow := ((hfirst.mem_iff batch).mp hbatch).right.right
    have habove := ((hsecond.mem_iff other).mp hother).right.left
    exact UInt32.lt_of_lt_of_le hbelow habove
  · intro batch
    rw [List.mem_append, hfirst.mem_iff, hsecond.mem_iff]
    constructor
    · rintro (⟨hmem, hlow, hhigh⟩ | ⟨hmem, hlow, hhigh⟩)
      · exact ⟨hmem, hlow, UInt32.lt_of_lt_of_le hhigh htarget⟩
      · exact ⟨hmem, UInt32.le_trans hmiddle hlow, hhigh⟩
    · rintro ⟨hmem, hlow, hhigh⟩
      by_cases hbelow : batch.version < middle
      · exact .inl ⟨hmem, hlow, hbelow⟩
      · exact .inr ⟨hmem, UInt32.not_lt.mp hbelow, hhigh⟩

theorem pending_eq_nil (migrations : Migrations) {current target : UInt32}
    (h : target <= current) : migrations.pending current target = [] := by
  rw [pending, dif_neg (UInt32.not_lt.mpr h)]

section Version

variable [Engine.Machine]

/-- No statement of the batches stores a version. -/
def KeepVersion (migrations : Migrations) : Prop :=
  forall batch, batch ∈ migrations.batches ->
    forall statement, statement ∈ batch.statements ->
      (Fragment.ofText statement).KeepsVersion

/-- No statement of the batches is about the version. -/
def IgnoreVersion (migrations : Migrations) : Prop :=
  forall batch, batch ∈ migrations.batches ->
    forall statement, statement ∈ batch.statements ->
      (Fragment.ofText statement).IgnoresVersion

theorem IgnoreVersion.keepVersion [Engine.Machine.Lawful] {migrations : Migrations}
    (h : migrations.IgnoreVersion) : migrations.KeepVersion :=
  fun batch hbatch statement hstatement =>
    (h batch hbatch statement hstatement).keepsVersion

end Version

end Migrations

namespace Migration

open Engine (Machine)
open Engine.Machine (Store)

/-!
# Steps
-/

abbrev Step := UInt32 × String

def Batch.steps (batch : Batch) : List Step :=
  batch.statements.map fun statement => (batch.version, statement)

def stepsBetween (migrations : Migrations) (current target : UInt32) :
    List Step :=
  (migrations.pending current target).flatMap Batch.steps

theorem stepsBetween_append (migrations : Migrations)
    {current middle target : UInt32} (hmiddle : current <= middle)
    (htarget : middle <= target) :
    stepsBetween migrations current middle ++
        stepsBetween migrations middle target =
      stepsBetween migrations current target := by
  rw [stepsBetween, stepsBetween, <- List.flatMap_append,
    migrations.pending_append hmiddle htarget]
  rfl

theorem forall_stepsBetween {migrations : Migrations}
    {holds : String -> Prop}
    (h : forall batch, batch ∈ migrations.batches ->
      forall statement, statement ∈ batch.statements -> holds statement)
    (current target : UInt32) :
    forall step, step ∈ stepsBetween migrations current target ->
      holds step.2 := by
  intro step hmem
  rcases List.mem_flatMap.mp hmem with ⟨batch, hbatch, hstep⟩
  rcases List.mem_map.mp hstep with ⟨statement, hstatement, rfl⟩
  exact h batch (Migrations.mem_pending_iff.mp hbatch).left statement hstatement

variable [Machine]

structure Progress where
  executed : List Step
  store : Store
  failed? : Option (Step × Engine.Error)

/-- Executes steps one after another, up to the first one that fails. -/
def progress (store : Store) : List Step -> Progress
  | [] => ⟨[], store, none⟩
  | step :: rest =>
      match Machine.execute store step.2 with
      | .error error => ⟨[], store, some (step, error)⟩
      | .ok next =>
          let behind := progress next rest
          ⟨step :: behind.executed, behind.store, behind.failed?⟩

def Progress.followedBy (first second : Progress) : Progress :=
  ⟨first.executed ++ second.executed, second.store, second.failed?⟩

def Progress.withVersion (version : Int) (done : Progress) : Progress :=
  ⟨done.executed, Machine.withVersion version done.store, done.failed?⟩

section Progress

variable {store : Store} {steps others : List Step} {step : Step}
  {error : Engine.Error}

theorem progress_cons_error (h : Machine.execute store step.2 = .error error) :
    progress store (step :: steps) = ⟨[], store, some (step, error)⟩ := by
  rw [progress, h]

theorem progress_cons_ok {next : Store}
    (h : Machine.execute store step.2 = .ok next) :
    progress store (step :: steps) =
      (Progress.mk [step] next none).followedBy (progress next steps) := by
  rw [progress, h]
  rfl

theorem progress_append_of_failed {found : Step × Engine.Error}
    (h : (progress store steps).failed? = some found) :
    progress store (steps ++ others) = progress store steps := by
  induction steps generalizing store with
  | nil => cases h
  | cons step steps ih =>
      cases hstep : Machine.execute store step.2 with
      | error error =>
          rw [List.cons_append, progress_cons_error hstep,
            progress_cons_error hstep]
      | ok next =>
          rw [progress_cons_ok hstep] at h
          rw [List.cons_append, progress_cons_ok hstep,
            progress_cons_ok hstep, ih h]

theorem progress_append (h : (progress store steps).failed? = none) :
    progress store (steps ++ others) =
      (progress store steps).followedBy
        (progress (progress store steps).store others) := by
  induction steps generalizing store with
  | nil => rfl
  | cons step steps ih =>
      cases hstep : Machine.execute store step.2 with
      | error error =>
          rw [progress_cons_error hstep] at h
          cases h
      | ok next =>
          rw [progress_cons_ok hstep] at h
          rw [List.cons_append, progress_cons_ok hstep,
            progress_cons_ok hstep, ih h]
          rfl

theorem executed_of_none (h : (progress store steps).failed? = none) :
    (progress store steps).executed = steps := by
  induction steps generalizing store with
  | nil => rfl
  | cons step steps ih =>
      cases hstep : Machine.execute store step.2 with
      | error error =>
          rw [progress_cons_error hstep] at h
          cases h
      | ok next =>
          rw [progress_cons_ok hstep] at h ⊢
          exact congrArg (step :: ·) (ih h)

theorem eq_append_of_failed
    (h : (progress store steps).failed? = some (step, error)) :
    exists rest, steps = (progress store steps).executed ++ step :: rest := by
  induction steps generalizing store with
  | nil => cases h
  | cons first steps ih =>
      cases hstep : Machine.execute store first.2 with
      | error found =>
          rw [progress_cons_error hstep] at h ⊢
          cases h
          exact ⟨steps, rfl⟩
      | ok next =>
          rw [progress_cons_ok hstep] at h ⊢
          rcases ih h with ⟨rest, hrest⟩
          exact ⟨rest, congrArg (first :: ·) hrest⟩

/-- What every step preserves is preserved as far as the steps come. -/
theorem version_progress
    (h : forall step, step ∈ steps ->
      (Fragment.ofText step.2).KeepsVersion) :
    Machine.version (progress store steps).store = Machine.version store := by
  induction steps generalizing store with
  | nil => rfl
  | cons step steps ih =>
      rw [List.forall_mem_cons] at h
      cases hstep : Machine.execute store step.2 with
      | error error => rw [progress_cons_error hstep]
      | ok next =>
          rw [progress_cons_ok hstep]
          exact (ih h.right).trans (h.left.version_of_execute hstep)

theorem progress_withVersion (version : Int)
    (h : forall step, step ∈ steps ->
      (Fragment.ofText step.2).IgnoresVersion) :
    progress (Machine.withVersion version store) steps =
      (progress store steps).withVersion version := by
  induction steps generalizing store with
  | nil => rfl
  | cons step steps ih =>
      rw [List.forall_mem_cons] at h
      have hmoved := h.left.execute_withVersion version store
      cases hstep : Machine.execute store step.2 with
      | error error =>
          rw [hstep] at hmoved
          rw [progress_cons_error hstep, progress_cons_error hmoved]
          rfl
      | ok next =>
          rw [hstep] at hmoved
          rw [progress_cons_ok hstep, progress_cons_ok hmoved, ih h.right]
          rfl

end Progress

end Migration
end TableStore
