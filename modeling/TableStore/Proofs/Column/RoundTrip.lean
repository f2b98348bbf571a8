import TableStore.Column.Document
import TableStore.Proofs.Json.Reading

/-!
# Columns are read back

The column that is read from a written one differs from it only in a default that is
nothing or no finite number: it has no document of its own and is read as absent.
-/

namespace TableStore

open Json (FiniteNumber fieldsFrom fieldsFrom_cons outline)

/-!
# Values
-/

namespace Value

/-- The value that is read back from the document of a value. -/
def kept? : Value -> Option Value
  | .null => none
  | .real x => if x.isFinite then some (.real x) else none
  | value => some value

theorem kept?_of_kept? {value kept : Value} (h : value.kept? = some kept) :
    kept = value ∧ kept.kept? = some kept := by
  cases value with
  | null => cases h
  | real x =>
      rw [kept?] at h
      split at h
      · rename_i hfinite
        cases h
        exact ⟨rfl, if_pos hfinite⟩
      · cases h
  | _ =>
      cases h
      exact ⟨rfl, rfl⟩

theorem byteOfDocument?_byte (byte : UInt8) :
    byteOfDocument? (.num (.int byte.toNat)) = some byte := by
  have hlt := byte.toNat_lt
  rw [byteOfDocument?, if_pos, Int.toNat_natCast, UInt8.ofNat_toNat]
  rw [Bool.and_eq_true, decide_eq_true_iff, decide_eq_true_iff]
  omega

theorem mapM_byteOfDocument? (bytes : List UInt8) :
    (bytes.map fun byte => Json.num (.int byte.toNat)).mapM
        byteOfDocument? = some bytes := by
  induction bytes with
  | nil => rfl
  | cons byte bytes ih =>
      rw [List.map_cons, List.mapM_cons, byteOfDocument?_byte, ih]
      rfl

theorem read_of_document {part : Json.Outline} {document : Json}
    {value : Value} {room : Nat} (hpart : part.document room = .ok document)
    (hvalue : ofDocument? document = some value) :
    read room part = .ok value := by
  rw [read, hpart]
  dsimp only [bind, Except.bind, Json.ofFault, Except.mapError]
  rw [hvalue]
  rfl

theorem document_outline (value : Value) (room : Nat) :
    (outline value.document).document (room + 1) = .ok value.document := by
  cases value with
  | blob bytes =>
      rw [document, outline, Json.Outline.document,
        Json.documents_itemOutlines]
      · rfl
      · intro item hmem
        rcases List.mem_map.mp hmem with ⟨byte, _, rfl⟩
        rfl
  | real x =>
      rw [document]
      split <;> rfl
  | _ => rfl

theorem ofDocument?_document {value : Value} (h : value.kept? = some value) :
    ofDocument? value.document = some value := by
  cases value with
  | null => cases h
  | int n =>
      rw [document, ofDocument?, ofNumber, Decimal.int64?_toInt]
  | real x =>
      rw [kept?] at h
      split at h
      · rename_i hfinite
        rw [document, if_pos hfinite]
        rfl
      · cases h
  | blob bytes =>
      rw [document, ofDocument?, mapM_byteOfDocument?]
      rfl
  | _ => rfl

theorem document_eq_null {value : Value} (h : value.kept? = none) :
    value.document = .null := by
  cases value with
  | null => rfl
  | real x =>
      rw [kept?] at h
      split at h
      · cases h
      · rename_i hfinite
        rw [document, if_neg hfinite]
  | _ => cases h

theorem readOptional_of_kept {value : Value} (h : value.kept? = some value)
    (room : Nat) :
    readOptional room (outline value.document) =
      (read room (outline value.document)).map some := by
  cases value with
  | null => cases h
  | real x =>
      rw [kept?] at h
      split at h
      · rename_i hfinite
        rw [document, if_pos hfinite]
        rfl
      · cases h
  | _ => rfl

/-- A value that is written is read back, or nothing is in its place. -/
theorem readOptional_document (value : Value) (room : Nat) :
    readOptional (room + 1) (outline value.document) = .ok value.kept? := by
  cases hkept : value.kept? with
  | none =>
      -- What is not kept is written as nothing, and that is read as absent.
      rw [document_eq_null hkept]
      rfl
  | some kept =>
      rcases kept?_of_kept? hkept with ⟨rfl, _⟩
      rw [readOptional_of_kept hkept,
        read_of_document (document_outline kept room)
          (ofDocument?_document hkept)]
      rfl

theorem finiteNumbers_document (value : Value) :
    forall n, n ∈ value.document.numbers -> FiniteNumber n := by
  cases value with
  | int word =>
      have hlow := Int64.le_toInt word
      have hhigh := Int64.toInt_lt word
      apply Json.finiteNumbers_num
      unfold FiniteNumber Decimal.int64Bound Decimal.uint64Bound
      omega
  | real x =>
      rw [document]
      split
      · rename_i hfinite
        exact Json.finiteNumbers_num hfinite
      · exact nofun
  | blob bytes =>
      apply Json.finiteNumbers_arr
      intro byte _
      have hlt := byte.toNat_lt
      exact Json.finiteNumbers_num (Json.finiteNumber_natCast (by omega))
  | _ => exact nofun

end Value

/-!
# Columns
-/

namespace Column

/-- The column that is read back. -/
def kept (column : Column) : Column :=
  { column with default? := column.default?.bind Value.kept? }

theorem kept_kept (column : Column) : column.kept.kept = column.kept := by
  rcases column with ⟨name, type, constraints, _ | value⟩
  · rfl
  · rw [kept, kept]
    dsimp only [Option.bind_some]
    cases hkept : value.kept? with
    | none => rfl
    | some other => rw [Option.bind_some, (Value.kept?_of_kept? hkept).right]

theorem readType_name (type : ColumnType) :
    readType (outline (.str type.name)) = .ok type := by
  cases type <;> rfl

theorem readConstraint_name (constraint : Constraint) :
    readConstraint (outline (.str constraint.name)) = .ok constraint := by
  cases constraint <;> rfl

theorem readConstraints_names (constraints : List Constraint) :
    readConstraints (outline
        (.arr (constraints.map fun constraint => .str constraint.name))) =
      .ok constraints :=
  Json.list_outline_self fun constraint _ => readConstraint_name constraint

section Fields

variable {room : Nat} {fields : Fields} {rest : List (String × Json)}

theorem fieldsFrom_name (hname : fields.name = none) (name : String) :
    fieldsFrom (Fields.step room) fields (("name", .str name) :: rest) =
      fieldsFrom (Fields.step room) { fields with name := some name } rest := by
  apply fieldsFrom_cons
  have hread : (outline (.str name)).text = .ok name := rfl
  rw [Fields.step, hname]
  exact Json.readField_bind hread fun name => { fields with name := name }

theorem fieldsFrom_type (htype : fields.type = none) (type : ColumnType) :
    fieldsFrom (Fields.step room) fields (("type", .str type.name) :: rest) =
      fieldsFrom (Fields.step room) { fields with type := some type } rest := by
  apply fieldsFrom_cons
  rw [Fields.step, htype]
  exact Json.readField_bind (readType_name type) fun type =>
    { fields with type := type }

theorem fieldsFrom_constraints (hconstraints : fields.constraints = none)
    (constraints : List Constraint) :
    fieldsFrom (Fields.step room) fields
        ((if constraints.isEmpty then []
          else [("constraints", .arr (constraints.map fun constraint =>
            .str constraint.name))]) ++ rest) =
      fieldsFrom (Fields.step room)
        { fields with
          constraints := if constraints.isEmpty then none
            else some constraints } rest := by
  split
  · rw [<- hconstraints]
    rfl
  · apply fieldsFrom_cons
    rw [Fields.step, hconstraints]
    exact Json.readField_bind (readConstraints_names constraints)
      fun constraints => { fields with constraints := constraints }

theorem fieldsFrom_default (hdefault : fields.default? = none)
    (default? : Option Value) :
    fieldsFrom (Fields.step (room + 1)) fields
        (match default? with
          | some value => [("default", value.document)]
          | none => []) =
      .ok { fields with default? := default?.map Value.kept? } := by
  cases default? with
  | none =>
      rw [Option.map_none, <- hdefault]
      rfl
  | some value =>
      apply fieldsFrom_cons
      rw [Fields.step, hdefault]
      exact Json.readField_bind (value.readOptional_document room)
        fun default? => { fields with default? := default? }

end Fields

/-- A column is read back, but for a default that is not kept. -/
theorem read_document (column : Column) (room : Nat) :
    read (room + 1) (outline column.document) = .ok column.kept := by
  have hfields : fieldsFrom (Fields.step (room + 1)) Fields.start
      ([("name", .str column.name), ("type", .str column.type.name)] ++
        (if column.constraints.isEmpty then []
          else [("constraints", .arr (column.constraints.map fun constraint =>
            .str constraint.name))]) ++
        (match column.default? with
          | some value => [("default", value.document)]
          | none => [])) =
      .ok ⟨some column.name, some column.type,
        if column.constraints.isEmpty then none else some column.constraints,
        column.default?.map Value.kept?⟩ := by
    rw [List.append_assoc, List.cons_append, List.cons_append, List.nil_append,
      fieldsFrom_name rfl, fieldsFrom_type rfl, fieldsFrom_constraints rfl,
      fieldsFrom_default rfl]
  have hread : read (room + 1) (outline column.document) =
      Fields.finish ⟨some column.name, some column.type,
        if column.constraints.isEmpty then none else some column.constraints,
        column.default?.map Value.kept?⟩ :=
    Json.record_object hfields
  rw [hread, Fields.finish, kept]
  have hconstraints : (if column.constraints.isEmpty then none
      else some column.constraints).getD [] = column.constraints := by
    cases column.constraints <;> rfl
  have hdefault : (column.default?.map Value.kept?).getD none =
      column.default?.bind Value.kept? := by
    cases column.default? <;> rfl
  rw [hconstraints, hdefault]
  rfl

theorem finiteNumbers_document (column : Column) :
    forall n, n ∈ column.document.numbers -> FiniteNumber n := by
  apply Json.finiteNumbers_obj
  intro member hmember
  rw [List.mem_append, List.mem_append, List.mem_pair] at hmember
  rcases hmember with ((rfl | rfl) | hconstraints) | hdefault
  · exact nofun
  · exact nofun
  · split at hconstraints
    · cases hconstraints
    · rw [List.mem_singleton.mp hconstraints]
      exact Json.finiteNumbers_arr fun _ _ => nofun
  · split at hdefault
    · rw [List.mem_singleton.mp hdefault]
      exact Value.finiteNumbers_document _
    · cases hdefault

end Column

namespace Columns

/-- The columns that are read back. -/
def kept (columns : Columns) : Columns :=
  ⟨columns.toList.map Column.kept⟩

theorem kept_kept (columns : Columns) : columns.kept.kept = columns.kept := by
  rw [kept, kept, List.map_map]
  exact congrArg Columns.mk
    (List.map_congr_left fun column _ => column.kept_kept)

theorem read_document (columns : Columns) (room : Nat) :
    read (room + 1) (outline columns.document) = .ok columns.kept := by
  rw [document, read,
    Json.list_outline fun column _ => column.read_document room]
  rfl

theorem finiteNumbers_document (columns : Columns) :
    forall n, n ∈ columns.document.numbers -> FiniteNumber n :=
  Json.finiteNumbers_arr fun column _ => column.finiteNumbers_document

end Columns
end TableStore
