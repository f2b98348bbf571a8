import Mathlib.Data.List.DropRight
import TableStore.Proofs.Migration.Batches

/-!
# Normal forms of statements

A statement in normal form has no blanks around it and ends with a semicolon.  The
normal form of a statement is what stands between its blanks, with a semicolon
behind it unless there is one.  It does not depend on the blanks, and normalizing it
again changes nothing, so a stored batch can be added again.
-/

namespace TableStore

/-!
# Texts between blanks
-/

namespace Text

def Blank (text : String) : Prop :=
  forall c, c ∈ text.toList -> isBlank c = true

instance (text : String) : Decidable (Blank text) :=
  decidable_of_iff (text.toList.all isBlank = true) List.all_eq_true

structure Trimmed (text : String) : Prop where
  head : forall c, text.toList.head? = some c -> isBlank c = false
  last : forall c, text.toList.getLast? = some c -> isBlank c = false

/-- What stands between the blanks at both ends of a text. -/
def Core (text core : String) : Prop :=
  exists before after, text = before ++ core ++ after ∧ Blank before ∧
    Blank after ∧ Trimmed core

theorem Blank.append {text other : String} (h : Blank text) (hother : Blank other) :
    Blank (text ++ other) := by
  intro c hmem
  rw [String.toList_append, List.mem_append] at hmem
  exact hmem.elim (h c) (hother c)

theorem Trimmed.core {text : String} (h : Trimmed text) : Core text text :=
  ⟨"", "", by simp, by simp [Blank], by simp [Blank], h⟩

theorem Core.surround {text core before after : String} (h : Core text core)
    (hbefore : Blank before) (hafter : Blank after) :
    Core (before ++ text ++ after) core := by
  rcases h with ⟨front, back, rfl, hfront, hback, hcore⟩
  refine ⟨before ++ front, back ++ after, ?_, hbefore.append hfront,
    hback.append hafter, hcore⟩
  simp only [String.append_assoc]

theorem trimStart_append_of_blank {before : List Char}
    (h : forall c, c ∈ before -> isBlank c = true) (s : List Char) :
    trimStart (before ++ s) = trimStart s :=
  List.dropWhile_append_of_pos h

theorem trimStart_of_head {s : List Char}
    (h : forall c, s.head? = some c -> isBlank c = false) : trimStart s = s := by
  cases s with
  | nil => rfl
  | cons c s => exact trimStart_cons_of_not_blank (h c rfl) s

theorem trimEnd_append_of_blank {after : List Char}
    (h : forall c, c ∈ after -> isBlank c = true) (s : List Char) :
    trimEnd (s ++ after) = trimEnd s := by
  have hafter : forall c, c ∈ after.reverse -> isBlank c = true :=
    fun c hmem => h c (List.mem_reverse.mp hmem)
  rw [trimEnd_eq, List.reverse_append, trimStart_append_of_blank hafter, trimEnd_eq]

theorem trimEnd_of_last {s : List Char}
    (h : forall c, s.getLast? = some c -> isBlank c = false) : trimEnd s = s := by
  rw [trimEnd_eq, trimStart_of_head, List.reverse_reverse]
  intro c hhead
  rw [List.head?_reverse] at hhead
  exact h c hhead

/-- Blanks around a text without blanks at its ends are all that is left out. -/
theorem trimEnd_trimStart_of_core {before core after : List Char}
    (hbefore : forall c, c ∈ before -> isBlank c = true)
    (hafter : forall c, c ∈ after -> isBlank c = true)
    (hhead : forall c, core.head? = some c -> isBlank c = false)
    (hlast : forall c, core.getLast? = some c -> isBlank c = false) :
    trimEnd (trimStart (before ++ core ++ after)) = core := by
  rw [List.append_assoc, trimStart_append_of_blank hbefore]
  cases core with
  | nil =>
      -- Nothing stands between the blanks, so those behind go with those before.
      have hnothing := trimStart_append_of_blank hafter []
      rw [List.append_nil] at hnothing
      rw [List.nil_append, hnothing]
      rfl
  | cons c core =>
      rw [List.cons_append, trimStart_cons_of_not_blank (hhead c rfl),
        <- List.cons_append, trimEnd_append_of_blank hafter, trimEnd_of_last hlast]

theorem Core.trim_eq {text core : String} (h : Core text core) : trim text = core := by
  rcases h with ⟨before, after, rfl, hbefore, hafter, hcore⟩
  rw [trim, String.toList_append, String.toList_append,
    trimEnd_trimStart_of_core hbefore hafter hcore.head hcore.last,
    String.ofList_toList]

theorem isBlank_of_head?_trimStart {s : List Char} {c : Char}
    (h : (trimStart s).head? = some c) : isBlank c = false := by
  have hfirst := List.head?_dropWhile_not isBlank s
  rw [trimStart] at h
  rw [h] at hfirst
  exact hfirst

theorem head?_of_head?_trimEnd {s : List Char} {c : Char}
    (h : (trimEnd s).head? = some c) : s.head? = some c := by
  have hprefix : trimEnd s <+: s := s.rdropWhile_prefix isBlank
  rcases hprefix with ⟨rest, hrest⟩
  rw [<- hrest, List.head?_append, h]
  rfl

theorem trimmed_trim (text : String) : Trimmed (trim text) where
  head c hhead := by
    rw [trim, String.toList_ofList] at hhead
    exact isBlank_of_head?_trimStart (head?_of_head?_trimEnd hhead)
  last c hlast := by
    rw [trim, String.toList_ofList, trimEnd_eq, List.getLast?_reverse] at hlast
    exact isBlank_of_head?_trimStart hlast

theorem core_trim (text : String) : Core text (trim text) := by
  have hstart : text.toList =
      text.toList.takeWhile isBlank ++ trimStart text.toList :=
    List.takeWhile_append_dropWhile.symm
  have hend : trimStart text.toList =
      trimEnd (trimStart text.toList) ++
        (trimStart text.toList).rtakeWhile isBlank :=
    List.rdropWhile_append_rtakeWhile.symm
  refine ⟨String.ofList (text.toList.takeWhile isBlank),
    String.ofList ((trimStart text.toList).rtakeWhile isBlank), ?_, ?_, ?_,
    trimmed_trim text⟩
  · rw [trim, <- String.ofList_append, <- String.ofList_append, List.append_assoc,
      <- hend, <- hstart, String.ofList_toList]
  · intro c hmem
    rw [String.toList_ofList] at hmem
    exact List.mem_takeWhile_imp hmem
  · intro c hmem
    rw [String.toList_ofList] at hmem
    exact List.mem_rtakeWhile_imp hmem

end Text

/-!
# Normal forms
-/

namespace Migration

open Text (Blank Core Trimmed)

def Terminated (statement : String) : Prop :=
  statement.toList.getLast? = some ';'

/--
The normal form of a statement: a semicolon ends it, no blanks are around it, and
it is what stands between the blanks of the statement, with a semicolon behind it
only if there is none.
-/
structure NormalForm (statement normal : String) : Prop where
  trimmed : Trimmed normal
  terminated : Terminated normal
  of_core : exists core, Core statement core ∧
    (normal = core ∨ ¬ Terminated core ∧ normal = core ++ ";")

theorem terminated_append_semicolon (text : String) : Terminated (text ++ ";") := by
  rw [Terminated, String.toList_append]
  exact List.getLast?_concat

theorem trimmed_append_semicolon {text : String} (h : Trimmed text) :
    Trimmed (text ++ ";") where
  head c hhead := by
    rw [String.toList_append, List.head?_append] at hhead
    cases hfirst : text.toList.head? with
    | none =>
        rw [hfirst] at hhead
        cases hhead
        rfl
    | some first =>
        rw [hfirst] at hhead
        cases hhead
        exact h.head c hfirst
  last c hlast := by
    rw [terminated_append_semicolon text] at hlast
    cases hlast
    rfl

theorem normalForm_normalize (statement : String) :
    NormalForm statement (normalize statement) := by
  have hcore := Text.core_trim statement
  have htrimmed := Text.trimmed_trim statement
  rw [normalize]
  split
  · rename_i hterminated
    exact ⟨htrimmed, hterminated, _, hcore, .inl rfl⟩
  · rename_i hopen
    exact ⟨trimmed_append_semicolon htrimmed, terminated_append_semicolon _,
      _, hcore, .inr ⟨hopen, rfl⟩⟩

theorem normalize_eq_iff (statement normal : String) :
    normalize statement = normal ↔ NormalForm statement normal := by
  constructor
  · rintro rfl
    exact normalForm_normalize statement
  · intro h
    rcases h.of_core with ⟨core, hcore, hnormal⟩
    rw [normalize, hcore.trim_eq]
    rcases hnormal with rfl | ⟨hopen, rfl⟩
    · exact if_pos h.terminated
    · exact if_neg hopen

theorem NormalForm.self {statement normal : String}
    (h : NormalForm statement normal) : NormalForm normal normal :=
  ⟨h.trimmed, h.terminated, normal, h.trimmed.core, .inl rfl⟩

theorem normalize_normalize (statement : String) :
    normalize (normalize statement) = normalize statement :=
  (normalize_eq_iff _ _).mpr (normalForm_normalize statement).self

theorem normalize_surround {before after : String} (statement : String)
    (hbefore : Blank before) (hafter : Blank after) :
    normalize (before ++ statement ++ after) = normalize statement := by
  have h := normalForm_normalize statement
  rcases h.of_core with ⟨core, hcore, hnormal⟩
  rw [normalize_eq_iff]
  exact ⟨h.trimmed, h.terminated, core, hcore.surround hbefore hafter, hnormal⟩

end Migration

/-!
# Batches in normal form
-/

namespace Migrations

open Migration (Batch normalize)

theorem map_normalize_of_get?_ofList {additions : List Batch} {version : UInt32}
    {statements : List String}
    (h : (ofList additions).get? version = some statements) :
    statements.map normalize = statements := by
  rw [get?_ofList_eq_some_iff] at h
  rcases h with ⟨added, -, rfl⟩
  rw [List.map_map]
  apply List.map_congr_left
  intro statement _
  rw [Function.comp_apply, Migration.normalize_normalize]

theorem insert_stored {additions : List Batch} {version : UInt32}
    {statements : List String}
    (h : (ofList additions).get? version = some statements) :
    (ofList additions).insert version statements = ofList additions := by
  rw [insert, map_normalize_of_get?_ofList h]
  exact put_of_get? h

end Migrations

namespace Migration

open Text (Blank)

/--
Normalizing gives every statement its normal form, and nothing else is one.
Normalizing it again, or with other blanks around the statement, gives the same.  So
adding the stored batch of a version again leaves all batches as they are.
-/
theorem normalize_gives_normal_form :
    (forall statement normal,
      normalize statement = normal ↔ NormalForm statement normal) ∧
    (forall statement, normalize (normalize statement) = normalize statement) ∧
    (forall statement before after, Blank before -> Blank after ->
      normalize (before ++ statement ++ after) = normalize statement) ∧
    forall additions version statements,
      (Migrations.ofList additions).get? version = some statements ->
      (Migrations.ofList additions).insert version statements =
        Migrations.ofList additions := by
  refine ⟨normalize_eq_iff, normalize_normalize, ?_, ?_⟩
  · intro statement before after hbefore hafter
    exact normalize_surround statement hbefore hafter
  · intro additions version statements hstored
    exact Migrations.insert_stored hstored

theorem normalize_gives_normal_form_between_blanks :
    Blank "\t\u00a0" ∧ Blank "\u3000\n" ∧
    normalize ("\t\u00a0" ++ "SELECT ';'" ++ "\u3000\n") = normalize "SELECT ';'" ∧
    (Migrations.ofList [⟨3, [" SELECT 1 ; ", "\t"]⟩]).get? 3 =
      some ["SELECT 1 ;", ";"] ∧
    (Migrations.ofList [⟨3, [" SELECT 1 ; ", "\t"]⟩]).insert 3 ["SELECT 1 ;", ";"] =
      Migrations.ofList [⟨3, [" SELECT 1 ; ", "\t"]⟩] := by
  have hbefore : Blank "\t\u00a0" := by decide +kernel
  have hafter : Blank "\u3000\n" := by decide +kernel
  have hstored : (Migrations.ofList [⟨3, [" SELECT 1 ; ", "\t"]⟩]).get? 3 =
      some ["SELECT 1 ;", ";"] := by
    decide +kernel
  rcases normalize_gives_normal_form with ⟨-, -, hsurround, hinsert⟩
  exact ⟨hbefore, hafter, hsurround _ _ _ hbefore hafter, hstored,
    hinsert _ _ _ hstored⟩

end Migration
end TableStore
