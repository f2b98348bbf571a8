import TableStore.Text.Blank

/-!
# Migration batches

Statements grouped by the version of the schema that they lead away from.

## Main statements

The versions of a set of batches ascend strictly, by its type.
-/

namespace TableStore
namespace Migration

/--
The normal form of a statement: no blanks around it, and a semicolon at its
end.
-/
def normalize (statement : String) : String :=
  let trimmed := Text.trim statement
  if trimmed.toList.getLast? = some ';' then trimmed else trimmed ++ ";"

structure Batch where
  version : UInt32
  statements : List String
deriving DecidableEq

/-- Puts a batch in its place; a batch of the same version is replaced. -/
def insertBatch (batch : Batch) : List Batch -> List Batch
  | [] => [batch]
  | first :: rest =>
      if batch.version < first.version then batch :: first :: rest
      else if batch.version = first.version then batch :: rest
      else first :: insertBatch batch rest

def Ascending (batches : List Batch) : Prop :=
  batches.Pairwise fun first second => first.version < second.version

theorem mem_insertBatch {batch other : Batch} {batches : List Batch}
    (h : other ∈ insertBatch batch batches) :
    other = batch ∨ other ∈ batches := by
  induction batches with
  | nil => simpa [insertBatch] using h
  | cons first rest ih =>
      simp only [insertBatch] at h
      split at h
      · simpa using h
      · split at h
        · rcases List.mem_cons.1 h with h | h
          · exact Or.inl h
          · exact Or.inr (List.mem_cons_of_mem _ h)
        · rcases List.mem_cons.1 h with h | h
          · exact Or.inr (h ▸ List.mem_cons_self)
          · rcases ih h with h | h
            · exact Or.inl h
            · exact Or.inr (List.mem_cons_of_mem _ h)

theorem ascending_insertBatch {batch : Batch} {batches : List Batch}
    (h : Ascending batches) : Ascending (insertBatch batch batches) := by
  induction batches with
  | nil => simp [insertBatch, Ascending]
  | cons first rest ih =>
      have hfirst := (List.pairwise_cons.1 h).1
      have hrest : Ascending rest := (List.pairwise_cons.1 h).2
      simp only [insertBatch]
      split
      · rename_i hlt
        refine List.pairwise_cons.2 ⟨fun other hother => ?_, h⟩
        rcases List.mem_cons.1 hother with hother | hother
        · exact hother ▸ hlt
        · exact UInt32.lt_trans hlt (hfirst other hother)
      · split
        · rename_i _ heq
          refine List.pairwise_cons.2 ⟨fun other hother => ?_, hrest⟩
          exact heq ▸ hfirst other hother
        · rename_i hge hne
          refine List.pairwise_cons.2 ⟨fun other hother => ?_, ih hrest⟩
          rcases mem_insertBatch hother with hother | hother
          · rw [hother, UInt32.lt_iff_toNat_lt]
            rw [UInt32.lt_iff_toNat_lt] at hge
            have : batch.version.toNat ≠ first.version.toNat :=
              fun heq => hne (UInt32.toNat_inj.1 heq)
            omega
          · exact hfirst other hother

end Migration

structure Migrations where
  batches : List Migration.Batch
  ascending : Migration.Ascending batches

namespace Migrations

def empty : Migrations :=
  ⟨[], List.Pairwise.nil⟩

/-- The batches with one added or replaced, its statements as they are. -/
def put (migrations : Migrations) (batch : Migration.Batch) : Migrations :=
  ⟨Migration.insertBatch batch migrations.batches,
    Migration.ascending_insertBatch migrations.ascending⟩

def insert (migrations : Migrations) (version : UInt32)
    (statements : List String) : Migrations :=
  migrations.put ⟨version, statements.map Migration.normalize⟩

def ofList (batches : List Migration.Batch) : Migrations :=
  batches.foldl (fun all batch => all.insert batch.version batch.statements) empty

def get? (migrations : Migrations) (version : UInt32) : Option (List String) :=
  (migrations.batches.find? fun batch => batch.version = version).map
    (·.statements)

def versions (migrations : Migrations) : List UInt32 :=
  migrations.batches.map (·.version)

/--
The batches from one version on and below another, found by both ends.  A range
whose end lies before its start is refused.
-/
def range? (migrations : Migrations) (lower upper : UInt32) :
    Option (List Migration.Batch) :=
  if upper < lower then none
  else
    some <|
      (migrations.batches.dropWhile fun batch => batch.version < lower).takeWhile
        fun batch => batch.version < upper

theorem range?_eq_none_iff (migrations : Migrations) (lower upper : UInt32) :
    migrations.range? lower upper = none ↔ upper < lower := by
  rw [range?]
  split
  · rename_i h
    exact iff_of_true rfl h
  · rename_i h
    exact iff_of_false nofun h

theorem isSome_range? (migrations : Migrations) {lower upper : UInt32}
    (h : lower <= upper) : (migrations.range? lower upper).isSome := by
  rw [Option.isSome_iff_ne_none, Ne, range?_eq_none_iff, UInt32.not_lt]
  exact h

/--
The batches that lead from one version to another.  No range is looked for unless
the first version lies before the second one.
-/
def pending (migrations : Migrations) (current target : UInt32) :
    List Migration.Batch :=
  if h : current < target then
    (migrations.range? current target).get
      (migrations.isSome_range? (UInt32.le_of_lt h))
  else []

def size (migrations : Migrations) : Nat :=
  migrations.batches.length

def isEmpty (migrations : Migrations) : Bool :=
  migrations.batches.isEmpty

end Migrations
end TableStore
