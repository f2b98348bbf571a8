import TableStore.Config.Document
import TableStore.Proofs.Column.RoundTrip
import TableStore.Proofs.Migration.Batches

/-!
# Configurations are read back

A configuration is written as a document and read from its text.  What is read differs
from what was written only in the defaults of columns that no document keeps, and what
is written again is read without a difference.
-/

namespace TableStore

open Json (FiniteNumber fieldsFrom fieldsFrom_cons outline)

/-!
# Batches
-/

namespace Migration

theorem insertBatch_of_last {batches : List Batch} {batch : Batch}
    (h : forall other, other ∈ batches -> other.version < batch.version) :
    insertBatch batch batches = batches ++ [batch] := by
  induction batches with
  | nil => rfl
  | cons first batches ih =>
      rw [List.forall_mem_cons] at h
      have hlt := h.left
      rw [UInt32.lt_iff_toNat_lt] at hlt
      rw [insertBatch, if_neg, if_neg, ih h.right]
      · rfl
      · intro heq
        rw [heq] at hlt
        exact Nat.lt_irrefl _ hlt
      · rw [UInt32.lt_iff_toNat_lt]
        omega

end Migration

namespace Migrations

open Migration (Ascending Batch)

theorem flatMap_escapeChar_digits (n : Nat) :
    (Decimal.digits n).flatMap Json.escapeChar = Decimal.digits n := by
  have hescape : Decimal.digitChars.all (fun c =>
      Json.escapeChar c == [c]) = true := by
    decide
  have hall := Decimal.all_isDigit_digits n
  generalize Decimal.digits n = s at hall
  induction s with
  | nil => rfl
  | cons c s ih =>
      rw [List.all_cons, Bool.and_eq_true] at hall
      have hc := Decimal.digit_all hall.left hescape
      rw [List.flatMap_cons, eq_of_beq hc, ih hall.right]
      rfl

theorem readKey_of_scan {key : Json.TextToken} {c : Char} {tail : List Char}
    {n : Number} {version : UInt32} (hraw : key.raw = c :: tail)
    (hdigit : Decimal.isDigit c = true)
    (hscan : Json.scanNumber (c :: tail) = .ok (.ok n, ['"']))
    (hversion : Json.Number.version n = .ok version) :
    readKey key = .ok version := by
  rw [readKey, hraw]
  dsimp only
  rw [if_pos (by rw [hdigit, Bool.or_true]), hscan]
  dsimp only [Json.ofFault, Except.mapError, bind, Except.bind]
  rw [hversion]
  rfl

theorem version_toNat (version : UInt32) :
    Json.Number.version (.int version.toNat) = .ok version := by
  rw [Json.Number.version, Decimal.uint32?_toNat]

theorem readKey_natText (version : UInt32) :
    readKey (.ofText (Decimal.natText version.toNat)) = .ok version := by
  have hlt := version.toNat_lt
  have hfinite := Json.finiteNumber_natCast hlt
  have hends : Json.EndsNumber ['"'] := Json.endsNumber_cons [] (by decide)
  have hscan := Json.scanNumber_intDigits hfinite hends
  have hdigits : Decimal.intDigits version.toNat =
      Decimal.digits version.toNat := if_neg (by omega)
  have hraw : (Json.TextToken.ofText (Decimal.natText version.toNat)).raw =
      Decimal.digits version.toNat ++ ['"'] := by
    rw [Json.TextToken.ofText, Decimal.natText, String.toList_ofList,
      flatMap_escapeChar_digits]
  have hall := Decimal.all_isDigit_digits version.toNat
  rw [hdigits] at hscan
  cases hchars : Decimal.digits version.toNat with
  | nil => exact absurd hchars (Decimal.digits_ne_nil _)
  | cons c tail =>
      rw [hchars] at hraw hscan hall
      rw [List.all_cons, Bool.and_eq_true] at hall
      exact readKey_of_scan hraw hall.left hscan (version_toNat version)

theorem list_statements (statements : List String) :
    (outline (.arr (statements.map fun statement => .str statement))).list
      Json.Outline.text = .ok statements :=
  Json.list_outline_self fun _ _ => rfl

/-- Batches by ascending versions take their places behind those before them. -/
theorem foldRead_batches {rest : List Batch} (migrations : Migrations)
    (h : Ascending (migrations.batches ++ rest)) :
    (Json.memberOutlines (rest.map fun batch =>
        (Decimal.natText batch.version.toNat,
          .arr (batch.statements.map fun statement => .str statement)))).foldRead
        readBatch migrations =
      .ok ⟨migrations.batches ++ rest, h⟩ := by
  induction rest generalizing migrations with
  | nil =>
      exact congrArg Except.ok
        (eq_of_batches_eq (List.append_nil migrations.batches).symm)
  | cons batch rest ih =>
      -- The batches are written by ascending versions, so each goes behind the others.
      have hbefore : forall other, other ∈ migrations.batches ->
          other.version < batch.version := fun other hmem =>
        (List.pairwise_append.mp h).right.right other hmem batch (.head _)
      have hput : (migrations.put batch).batches =
          migrations.batches ++ [batch] :=
        Migration.insertBatch_of_last hbefore
      have hstep : readBatch migrations
          (.ofText (Decimal.natText batch.version.toNat))
          (outline (.arr (batch.statements.map fun statement =>
            .str statement))) = .ok (migrations.put batch) := by
        rw [readBatch, readKey_natText, list_statements]
        rfl
      have hall : (migrations.put batch).batches ++ rest =
          migrations.batches ++ batch :: rest := by
        rw [hput, List.append_assoc]
        rfl
      rw [List.map_cons, Json.foldRead_member hstep, ih _ (hall ▸ h)]
      exact congrArg Except.ok (eq_of_batches_eq hall)

theorem read_document (migrations : Migrations) :
    read (outline migrations.document) = .ok migrations := by
  rw [document, outline, read, Json.Outline.entries]
  exact foldRead_batches empty migrations.ascending

theorem finiteNumbers_document (migrations : Migrations) :
    forall n, n ∈ migrations.document.numbers -> FiniteNumber n := by
  apply Json.finiteNumbers_obj
  intro member hmember
  rcases List.mem_map.mp hmember with ⟨batch, _, rfl⟩
  exact Json.finiteNumbers_arr fun _ _ => nofun

end Migrations

/-!
# Tables
-/

namespace TableDeclaration

def kept (table : TableDeclaration) : TableDeclaration :=
  ⟨table.name, table.columns.kept⟩

theorem read_document (table : TableDeclaration) (room : Nat) :
    read (room + 1) (outline table.document) = .ok table.kept := by
  have hname : (outline (.str table.name)).text = .ok table.name := rfl
  have hcolumns := table.columns.read_document room
  have hfields : fieldsFrom (Fields.step (room + 1)) ⟨none, none⟩
      [("name", .str table.name), ("columns", table.columns.document)] =
        .ok ⟨some table.name, some table.columns.kept⟩ := by
    rw [fieldsFrom_cons (Json.readField_bind hname fun name =>
        Fields.mk name none),
      fieldsFrom_cons (Json.readField_bind hcolumns fun columns =>
        Fields.mk _ columns)]
    rfl
  exact Json.record_object hfields

theorem finiteNumbers_document (table : TableDeclaration) :
    forall n, n ∈ table.document.numbers -> FiniteNumber n := by
  apply Json.finiteNumbers_obj
  intro member hmember
  rw [List.mem_pair] at hmember
  rcases hmember with rfl | rfl
  · exact nofun
  · exact table.columns.finiteNumbers_document

end TableDeclaration

/-!
# Configurations
-/

namespace Config

def kept (config : Config) : Config :=
  { config with tables := config.tables.map TableDeclaration.kept }

theorem kept_kept (config : Config) : config.kept.kept = config.kept := by
  have htables : (config.tables.map TableDeclaration.kept).map
      TableDeclaration.kept = config.tables.map TableDeclaration.kept := by
    rw [List.map_map]
    exact List.map_congr_left fun table _ =>
      congrArg (TableDeclaration.mk table.name) table.columns.kept_kept
  rw [kept, kept, htables]

theorem readTables_document (tables : List TableDeclaration) (room : Nat) :
    readTables (room + 1)
        (outline (.arr (tables.map TableDeclaration.document))) =
      .ok (tables.map TableDeclaration.kept) :=
  Json.list_outline fun table _ => table.read_document room

theorem version_outline (n : Number) :
    (outline (.num n)).version = Json.Number.version n := rfl

theorem read_document (config : Config) (room : Nat) :
    read (room + 1) (outline config.document) = .ok config.kept := by
  have hname : (outline (.str config.name)).text = .ok config.name := rfl
  have hversion := (version_outline (.int config.version.toNat)).trans
    (Migrations.version_toNat config.version)
  have hmigrations := config.migrations.read_document
  have hmigrate : (outline (.bool config.autoMigrate)).flag =
      .ok config.autoMigrate := rfl
  have hcreate : (outline (.bool config.autoCreate)).flag =
      .ok config.autoCreate := rfl
  have htables := readTables_document config.tables room
  have hfields : fieldsFrom (Fields.step (room + 1))
      ⟨none, none, none, none, none, none⟩
      [("name", .str config.name),
        ("version", .num (.int config.version.toNat)),
        ("migrations", config.migrations.document),
        ("auto_migrate", .bool config.autoMigrate),
        ("auto_create_tables", .bool config.autoCreate),
        ("tables", .arr (config.tables.map TableDeclaration.document))] =
      .ok ⟨some config.name, some config.version, some config.migrations,
        some config.autoMigrate, some config.autoCreate,
        some (config.tables.map TableDeclaration.kept)⟩ := by
    -- The digits of the version would be computed.
    generalize Json.num (.int config.version.toNat) = number at hversion ⊢
    rw [fieldsFrom_cons (Json.readField_bind hname fun name =>
        Fields.mk name none none none none none),
      fieldsFrom_cons (Json.readField_bind hversion fun version =>
        Fields.mk _ version none none none none),
      fieldsFrom_cons (Json.readField_bind hmigrations fun migrations =>
        Fields.mk _ _ migrations none none none),
      fieldsFrom_cons (Json.readField_bind hmigrate fun flag =>
        Fields.mk _ _ _ flag none none),
      fieldsFrom_cons (Json.readField_bind hcreate fun flag =>
        Fields.mk _ _ _ _ flag none),
      fieldsFrom_cons (Json.readField_bind htables fun tables =>
        Fields.mk _ _ _ _ _ tables)]
    rfl
  exact Json.record_object hfields

theorem finiteNumbers_document (config : Config) :
    forall n, n ∈ config.document.numbers -> FiniteNumber n := by
  apply Json.finiteNumbers_obj
  intro member hmember
  simp only [List.mem_cons, List.not_mem_nil, or_false] at hmember
  rcases hmember with rfl | rfl | rfl | rfl | rfl | rfl
  · exact nofun
  · exact Json.finiteNumbers_num
      (Json.finiteNumber_natCast config.version.toNat_lt)
  · exact config.migrations.finiteNumbers_document
  · exact nofun
  · exact nofun
  · exact Json.finiteNumbers_arr fun table _ => table.finiteNumbers_document

theorem ofText_text_document (config : Config) :
    ofText (Json.text config.document) = .ok config.kept := by
  rw [ofText, Json.readText_text _ config.finiteNumbers_document]
  exact config.read_document _

/--
A configuration that is written is read back, but for defaults that no document keeps;
from then on it is written and read without a change.
-/
theorem written_config_read_back (config : Config) :
    ofText (Json.text config.document) = .ok config.kept ∧
    ofText (Json.text config.kept.document) = .ok config.kept := by
  constructor
  · exact config.ofText_text_document
  · rw [config.kept.ofText_text_document, config.kept_kept]

end Config
end TableStore
