import Mathlib.Data.List.Forall2
import TableStore.Proofs.Engine.Version

/-!
# Tables in order

The records of a table stand by ascending numbers, each of them has a cell for every
column, and the column that holds the numbers of the records does hold them.  A new
store has no tables, and no command leaves a table without this order.
-/

namespace TableStore
namespace Engine

/-!
# Computations that succeed
-/

section Computations

variable {α β : Type}

theorem bind_eq_ok {first : Except Error α} {next : α -> Except Error β}
    {result : β} :
    (first >>= next) = .ok result ↔
      exists middle, first = .ok middle ∧ next middle = .ok result := by
  constructor
  · intro h
    cases first with
    | error error => cases h
    | ok middle => exact ⟨middle, rfl, h⟩
  · rintro ⟨middle, rfl, h⟩
    exact h

theorem foldlM_preserves {step : β -> α -> Except Error β}
    (keeps : β -> Prop) {items : List α}
    (hstep : forall item, item ∈ items -> forall before after, keeps before ->
      step before item = .ok after -> keeps after)
    {start finish : β} (hstart : keeps start)
    (hrun : items.foldlM step start = .ok finish) : keeps finish := by
  induction items generalizing start with
  | nil =>
      cases hrun
      exact hstart
  | cons item items ih =>
      rw [List.forall_mem_cons] at hstep
      rw [List.foldlM_cons, bind_eq_ok] at hrun
      rcases hrun with ⟨middle, hfirst, hrest⟩
      exact ih hstep.right (hstep.left start middle hstart hfirst) hrest

theorem forall₂_of_mapM_ok {step : α -> Except Error β}
    {relation : α -> β -> Prop} {items : List α}
    (hrelation : forall item, item ∈ items -> forall result,
      step item = .ok result -> relation item result)
    {results : List β} (h : items.mapM step = .ok results) :
    List.Forall₂ relation items results := by
  induction items generalizing results with
  | nil =>
      cases h
      exact .nil
  | cons item items ih =>
      rw [List.forall_mem_cons] at hrelation
      rw [List.mapM_cons, bind_eq_ok] at h
      rcases h with ⟨first, hfirst, h⟩
      rcases bind_eq_ok.mp h with ⟨rest, hrest, h⟩
      cases h
      exact .cons (hrelation.left first hfirst) (ih hrelation.right hrest)

theorem length_of_mapM_ok {step : α -> Except Error β} {items : List α}
    {results : List β} (h : items.mapM step = .ok results) :
    results.length = items.length :=
  (forall₂_of_mapM_ok (fun _ _ _ hitem => hitem) h).length_eq.symm

theorem map_eq_map_of_forall₂ {γ : Type} {relation : α -> β -> Prop}
    {f : α -> γ} {g : β -> γ} {items : List α} {others : List β}
    (h : List.Forall₂ relation items others)
    (heq : forall item other, relation item other -> f item = g other) :
    items.map f = others.map g := by
  induction h with
  | nil => rfl
  | cons hfirst _ ih => rw [List.map_cons, List.map_cons, heq _ _ hfirst, ih]

end Computations

namespace Table

/-!
# Placing records
-/

theorem perm_placeRecord (record : Record) (records : List Record) :
    (placeRecord record records).Perm (record :: records) := by
  induction records with
  | nil => exact .refl _
  | cons first rest ih =>
      rw [placeRecord]
      split
      · exact .refl _
      · exact (ih.cons first).trans (.swap record first rest)

theorem pairwise_placeRecord {record : Record} {records : List Record}
    (h : records.Pairwise fun a b => a.id < b.id)
    (hfresh : forall other, other ∈ records -> other.id ≠ record.id) :
    (placeRecord record records).Pairwise fun a b => a.id < b.id := by
  induction records with
  | nil => exact List.pairwise_singleton _ _
  | cons first rest ih =>
      rw [List.pairwise_cons] at h
      rw [List.forall_mem_cons] at hfresh
      rw [placeRecord]
      split
      · rename_i hlt
        rw [List.pairwise_cons, List.forall_mem_cons]
        refine ⟨⟨hlt, fun other hother => ?_⟩, List.pairwise_cons.mpr h⟩
        exact Int64.lt_trans hlt (h.left other hother)
      · rename_i hlt
        have hbefore : first.id < record.id :=
          Int64.lt_of_le_of_ne (Int64.not_lt.mp hlt) hfresh.left
        rw [List.pairwise_cons]
        refine ⟨fun other hother => ?_, ih h.right hfresh.right⟩
        rcases List.mem_cons.mp ((perm_placeRecord record rest).subset hother) with
          rfl | hother
        · exact hbefore
        · exact h.left other hother

/-!
# The order of a table
-/

/-- A table in order. -/
structure Regular (table : Table) : Prop where
  ascending : table.records.Pairwise fun a b => a.id < b.id
  width : forall record, record ∈ table.records ->
    record.cells.length = table.fields.length
  key_lt : forall position, table.keyField? = some position ->
    position < table.fields.length
  key_cell : forall position, table.keyField? = some position ->
    forall record, record ∈ table.records ->
      record.cells[position]? = some (.int record.id)

theorem regular_of_no_records {table : Table} (hrecords : table.records = [])
    (hkey : forall position, table.keyField? = some position ->
      position < table.fields.length) : table.Regular where
  ascending := by
    rw [hrecords]
    exact .nil
  width record hmem := by
    rw [hrecords] at hmem
    cases hmem
  key_lt := hkey
  key_cell position _ record hmem := by
    rw [hrecords] at hmem
    cases hmem

theorem Regular.sublist {table : Table} (h : table.Regular)
    {records : List Record} (hsub : records.Sublist table.records) :
    Regular { table with records := records } where
  ascending := h.ascending.sublist hsub
  width record hmem := h.width record (hsub.subset hmem)
  key_lt := h.key_lt
  key_cell position hposition record hmem :=
    h.key_cell position hposition record (hsub.subset hmem)

theorem Regular.dropRecord {table : Table} (h : table.Regular) (id : Int64) :
    (table.dropRecord id).Regular :=
  h.sublist List.filter_sublist

/-- A record that fits into a table that may hold other records. -/
structure Fits (table : Table) (record : Record) : Prop where
  fresh : forall other, other ∈ table.records -> other.id ≠ record.id
  width : record.cells.length = table.fields.length
  key_cell : forall position, table.keyField? = some position ->
    record.cells[position]? = some (.int record.id)

theorem Regular.addRecord {table : Table} (h : table.Regular) {record : Record}
    (hfits : table.Fits record) : (table.addRecord record).Regular where
  ascending := pairwise_placeRecord h.ascending hfits.fresh
  width other hmem := by
    rcases List.mem_cons.mp ((perm_placeRecord record _).subset hmem) with
      rfl | hmem
    · exact hfits.width
    · exact h.width other hmem
  key_lt := h.key_lt
  key_cell position hposition other hmem := by
    rcases List.mem_cons.mp ((perm_placeRecord record _).subset hmem) with
      rfl | hmem
    · exact hfits.key_cell position hposition
    · exact h.key_cell position hposition other hmem

/-!
# The numbers of records
-/

theorem length_withId (table : Table) (id : Int64) (cells : List Cell) :
    (table.withId id cells).length = cells.length := by
  rw [withId]
  split
  · exact List.length_set
  · rfl

theorem getElem?_withId_key {table : Table} {position : Nat}
    (hposition : table.keyField? = some position) (id : Int64) {cells : List Cell}
    (hlt : position < cells.length) :
    (table.withId id cells)[position]? = some (.int id) := by
  rw [withId, hposition]
  exact List.getElem?_set_self hlt

theorem getElem?_withId_of_ne {table : Table} {position : Nat}
    (hposition : table.keyField? ≠ some position) (id : Int64)
    (cells : List Cell) :
    (table.withId id cells)[position]? = cells[position]? := by
  rw [withId]
  split
  · rename_i key hkey
    apply List.getElem?_set_ne
    rintro rfl
    exact hposition hkey
  · rfl

theorem fits_withId {table : Table} (h : table.Regular) {id : Int64}
    {cells : List Cell} (hwidth : cells.length = table.fields.length)
    (hfresh : forall other, other ∈ table.records -> other.id ≠ id) :
    table.Fits ⟨id, table.withId id cells⟩ where
  fresh := hfresh
  width := by rw [length_withId, hwidth]
  key_cell position hposition :=
    getElem?_withId_key hposition id (hwidth ▸ h.key_lt position hposition)

/-!
# New rows
-/

theorem le_lastId {table : Table} (h : table.Regular) {record : Record}
    (hmem : record ∈ table.records) :
    exists last, table.lastId? = some last ∧ record.id.toInt <= last.toInt := by
  have hascending := h.ascending
  unfold lastId?
  rcases List.eq_nil_or_concat table.records with hnil | ⟨before, last, hsplit⟩
  · rw [hnil] at hmem
    cases hmem
  · rw [hsplit, List.concat_eq_append] at hmem hascending ⊢
    refine ⟨last.id, by simp, ?_⟩
    rcases List.mem_append.mp hmem with hbefore | hlast
    · have hlt := (List.pairwise_append.mp hascending).right.right record hbefore
        last (List.mem_singleton.mpr rfl)
      exact Int.le_of_lt (Int64.lt_iff_toInt_lt.mp hlt)
    · have heq := List.mem_singleton.mp hlast
      exact Int.le_of_eq (congrArg (fun record => record.id.toInt) heq)

theorem fresh_of_nextId {table : Table} (h : table.Regular) {id : Int64}
    (hid : table.nextId = .ok id) :
    forall other, other ∈ table.records -> other.id ≠ id := by
  rintro other hmem rfl
  rcases le_lastId h hmem with ⟨last, hlast, hle⟩
  unfold nextId at hid
  rw [hlast, Option.map_some, Option.getD_some] at hid
  dsimp only at hid
  generalize hstart : (if table.neverReused = true then
    max last.toInt table.highest.toInt else last.toInt) = start at hid
  have hstart : last.toInt <= start := by
    rw [<- hstart]
    split <;> omega
  cases hnext : Decimal.int64? (start + 1) with
  | none =>
      rw [hnext] at hid
      cases hid
  | some next =>
      rw [hnext] at hid
      cases hid
      have hvalue := Decimal.toInt_of_int64? hnext
      omega

section
variable [Conversions]

theorem accept_eq_ok {table after : Table} {concerned : Nat -> Bool}
    {record : Record} (h : table.accept concerned record = .ok after) :
    after = table.addRecord record ∧
      (table.keyField? ≠ none ->
        forall other, other ∈ table.records -> other.id ≠ record.id) := by
  unfold accept at h
  simp only [bind_eq_ok] at h
  rcases h with ⟨_, _, _, _, _, hid, _, _, hafter⟩
  cases hafter
  refine ⟨rfl, fun hkey other hmem heq => ?_⟩
  unfold checkId at hid
  cases hposition : table.keyField? with
  | none => exact hkey hposition
  | some position =>
      rw [hposition] at hid
      dsimp only at hid
      rw [if_pos (List.any_eq_true.mpr ⟨other, hmem, by simpa using heq⟩)] at hid
      cases hid

/-- The cells of a new row as its columns store them. -/
def converted (table : Table) (cells : List Cell) : List Cell :=
  (table.fields.zip cells).map fun (field, cell) => cell.stored field.affinity

theorem insertCells_eq_ok {table after : Table} {cells : List Cell}
    (h : table.insertCells cells = .ok after) :
    exists id, table.newId (table.converted cells) = .ok id ∧
      (table.keyField? ≠ none ->
        forall other, other ∈ table.records -> other.id ≠ id) ∧
      after = { table.addRecord ⟨id, table.withId id (table.converted cells)⟩ with
        highest := if table.highest < id then id else table.highest } := by
  unfold insertCells at h
  simp only [bind_eq_ok] at h
  rcases h with ⟨id, hid, accepted, haccepted, hafter⟩
  rcases accept_eq_ok haccepted with ⟨rfl, hfresh⟩
  cases hafter
  exact ⟨id, hid, hfresh, rfl⟩

theorem Regular.insertCells {table after : Table} (h : table.Regular)
    {cells : List Cell} (hwidth : cells.length = table.fields.length)
    (hinsert : table.insertCells cells = .ok after) : after.Regular := by
  rcases insertCells_eq_ok hinsert with ⟨id, hid, hchecked, rfl⟩
  have hfresh : forall other, other ∈ table.records -> other.id ≠ id := by
    cases hkey : table.keyField? with
    | none =>
        rw [newId, hkey] at hid
        exact fresh_of_nextId h hid
    | some position => exact hchecked (by simp [hkey])
  have hconverted : (table.converted cells).length = table.fields.length := by
    rw [converted, List.length_map, List.length_zip, hwidth, Nat.min_self]
  have hadded := h.addRecord (fits_withId h hconverted hfresh)
  exact ⟨hadded.ascending, hadded.width, hadded.key_lt, hadded.key_cell⟩

end

/-!
# Changed records
-/

theorem length_foldl_set {α : Type} (position : α -> Nat) (cell : α -> Cell)
    (items : List α) (cells : List Cell) :
    (items.foldl (fun cells item => cells.set (position item) (cell item))
      cells).length = cells.length := by
  induction items generalizing cells with
  | nil => rfl
  | cons item items ih =>
      rw [List.foldl_cons, ih]
      exact List.length_set

theorem getElem?_foldl_set {α : Type} (position : α -> Nat) (cell : α -> Cell)
    {items : List α} {place : Nat}
    (h : forall item, item ∈ items -> position item ≠ place)
    (cells : List Cell) :
    (items.foldl (fun cells item => cells.set (position item) (cell item))
      cells)[place]? = cells[place]? := by
  induction items generalizing cells with
  | nil => rfl
  | cons item items ih =>
      rw [List.forall_mem_cons] at h
      rw [List.foldl_cons, ih h.right]
      exact List.getElem?_set_ne h.left

/--
A change of a record: only the cells in the given positions may be others, and with
them the number of the record, if one of them holds it.
-/
structure Alters (table : Table) (positions : List Nat) (record after : Record) :
    Prop where
  width : after.cells.length = record.cells.length
  cell_eq : forall position, position ∉ positions ->
    after.cells[position]? = record.cells[position]?
  id_eq : (forall position, table.keyField? = some position ->
    position ∉ positions) -> after.id = record.id

variable [Conversions]

/-- The record that assignments make of a record. -/
def changed (table : Table) (assignments : List (Nat × Formula))
    (record : Record) : Except Error Record := do
  let cells := table.assign assignments record
  let id <- table.changedId cells record
  return ⟨id, table.withId id cells⟩

theorem updateRecord_eq (assignments : List (Nat × Formula)) (table : Table)
    (record : Record) :
    table.updateRecord assignments record =
      (table.changed assignments record >>=
        (table.dropRecord record.id).accept fun position =>
          assignments.any fun (target, _) => target = position) := by
  unfold updateRecord changed
  simp only [bind_assoc, pure_bind]

/-- The cell that an assignment gives a record. -/
def assigned (table : Table) (record : Record) (assignment : Nat × Formula) :
    Cell :=
  (assignment.2.eval record).stored
    ((table.fields[assignment.1]?.map (·.affinity)).getD .blob)

theorem assign_eq (table : Table) (assignments : List (Nat × Formula))
    (record : Record) :
    table.assign assignments record =
      assignments.foldl (fun cells assignment =>
        cells.set assignment.1 (table.assigned record assignment))
        record.cells := rfl

theorem length_assign (table : Table) (assignments : List (Nat × Formula))
    (record : Record) :
    (table.assign assignments record).length = record.cells.length := by
  rw [assign_eq, length_foldl_set]

theorem getElem?_assign_of_not_mem (table : Table)
    {assignments : List (Nat × Formula)} {position : Nat}
    (h : position ∉ assignments.map Prod.fst) (record : Record) :
    (table.assign assignments record)[position]? = record.cells[position]? := by
  rw [assign_eq]
  apply getElem?_foldl_set
  rintro assignment hmem rfl
  exact h (List.mem_map_of_mem hmem)

theorem changedId_of_key {table : Table} {key : Nat}
    (hkey : table.keyField? = some key) {cells : List Cell} {id : Int64}
    (hcell : cells[key]? = some (.int id)) (record : Record) :
    table.changedId cells record = .ok id := by
  rw [changedId, hkey]
  dsimp only
  rw [hcell]
  rfl

theorem Regular.alters {table : Table} (h : table.Regular) {record after : Record}
    (hmem : record ∈ table.records) {assignments : List (Nat × Formula)}
    (hchanged : table.changed assignments record = .ok after) :
    table.Alters (assignments.map Prod.fst) record after := by
  unfold changed at hchanged
  simp only [bind_eq_ok] at hchanged
  rcases hchanged with ⟨id, hid, hafter⟩
  cases hafter
  -- The number of a record is that in its key, so it stays with the key.
  have hkept : (forall position, table.keyField? = some position ->
      position ∉ assignments.map Prod.fst) -> id = record.id := by
    intro hkeys
    cases hkey : table.keyField? with
    | none =>
        rw [changedId, hkey] at hid
        exact (Except.ok.inj hid).symm
    | some key =>
        have hcell := getElem?_assign_of_not_mem table (hkeys key hkey) record
        rw [h.key_cell key hkey record hmem] at hcell
        rw [changedId_of_key hkey hcell] at hid
        exact (Except.ok.inj hid).symm
  refine ⟨?_, ?_, hkept⟩
  · rw [length_withId, length_assign]
  · intro position hposition
    have hcell := getElem?_assign_of_not_mem table hposition record
    by_cases hkey : table.keyField? = some position
    · have hlt : position < (table.assign assignments record).length := by
        rw [length_assign, h.width record hmem]
        exact h.key_lt position hkey
      have hid_eq : id = record.id := hkept fun other hother => by
        rw [hkey] at hother
        cases hother
        exact hposition
      rw [getElem?_withId_key hkey id hlt, hid_eq,
        h.key_cell position hkey record hmem]
    · rw [getElem?_withId_of_ne hkey, hcell]

theorem Regular.forall_alters {table : Table} (h : table.Regular)
    {assignments : List (Nat × Formula)} {records news : List Record}
    (hmem : forall record, record ∈ records -> record ∈ table.records)
    (hnews : List.Forall₂
      (fun record new => table.changed assignments record = .ok new)
      records news) :
    List.Forall₂ (table.Alters (assignments.map Prod.fst)) records news := by
  induction hnews with
  | nil => exact .nil
  | cons hfirst _ ih =>
      rw [List.forall_mem_cons] at hmem
      exact .cons (h.alters hmem.left hfirst) (ih hmem.right)

theorem Regular.fits_changed {table : Table} (h : table.Regular)
    {record after : Record} (hmem : record ∈ table.records)
    {assignments : List (Nat × Formula)}
    (hchanged : table.changed assignments record = .ok after)
    (hchecked : table.keyField? ≠ none ->
      forall other, other ∈ (table.dropRecord record.id).records ->
        other.id ≠ after.id) :
    (table.dropRecord record.id).Fits after := by
  have hfresh : forall other, other ∈ (table.dropRecord record.id).records ->
      other.id ≠ after.id := by
    cases hkey : table.keyField? with
    | some key => exact hchecked (by simp [hkey])
    | none =>
        have hid := (h.alters hmem hchanged).id_eq fun position hposition => by
          rw [hkey] at hposition
          cases hposition
        intro other hother
        rw [hid]
        simpa using (List.mem_filter.mp hother).right
  unfold changed at hchanged
  simp only [bind_eq_ok] at hchanged
  rcases hchanged with ⟨id, _, hafter⟩
  cases hafter
  apply fits_withId (h.dropRecord record.id) _ hfresh
  rw [length_assign]
  exact h.width record hmem

theorem Regular.updateRecord {table after : Table} (h : table.Regular)
    {record : Record} {others : List Record}
    (hperm : table.records.Perm (record :: others))
    {assignments : List (Nat × Formula)}
    (hupdate : table.updateRecord assignments record = .ok after) :
    exists new, table.changed assignments record = .ok new ∧ after.Regular ∧
      after = { table with records := after.records } ∧
      after.records.Perm (new :: others) := by
  have hmem : record ∈ table.records :=
    hperm.mem_iff.mpr (List.mem_cons_self ..)
  rw [updateRecord_eq, bind_eq_ok] at hupdate
  rcases hupdate with ⟨new, hnew, haccepted⟩
  rcases accept_eq_ok haccepted with ⟨rfl, hchecked⟩
  refine ⟨new, hnew, (h.dropRecord record.id).addRecord
    (h.fits_changed hmem hnew hchecked), rfl, ?_⟩
  have hdistinct : (record :: others).Pairwise fun a b => a.id ≠ b.id := by
    have hne : table.records.Pairwise fun a b => a.id ≠ b.id := by
      apply h.ascending.imp
      intro a b hlt heq
      rw [heq] at hlt
      exact Int64.lt_irrefl hlt
    exact (hperm.pairwise_iff fun hne => hne.symm).mp hne
  have hdropped : (table.dropRecord record.id).records.Perm others := by
    have hfilter := hperm.filter fun other => other.id != record.id
    have hothers : others.filter (fun other => other.id != record.id) =
        others := by
      rw [List.filter_eq_self]
      intro other hother
      have hne := (List.pairwise_cons.mp hdistinct).left other hother
      simpa using hne.symm
    rw [List.filter_cons_of_neg (by simp), hothers] at hfilter
    exact hfilter
  exact (perm_placeRecord new _).trans (hdropped.cons new)

theorem changed_congr {table other : Table} (hfields : other.fields = table.fields)
    (hkey : other.keyField? = table.keyField?)
    (assignments : List (Nat × Formula)) (record : Record) :
    other.changed assignments record = table.changed assignments record := by
  unfold changed changedId withId
  rw [assign_eq, assign_eq, hkey]
  simp only [assigned, hfields]

/--
Records that are changed one after another: each is replaced by what the assignments
make of it, the others stay.
-/
theorem Regular.foldlM_updateRecord {table after : Table} (h : table.Regular)
    {assignments : List (Nat × Formula)} {chosen others : List Record}
    (hperm : table.records.Perm (chosen ++ others))
    (hupdate : chosen.foldlM (Table.updateRecord assignments) table =
      .ok after) :
    exists news,
      List.Forall₂ (fun record new => table.changed assignments record = .ok new)
        chosen news ∧
      after.Regular ∧ after = { table with records := after.records } ∧
      after.records.Perm (news ++ others) := by
  induction chosen generalizing table others with
  | nil =>
      cases hupdate
      exact ⟨[], .nil, h, rfl, hperm⟩
  | cons record chosen ih =>
      rw [List.foldlM_cons, bind_eq_ok] at hupdate
      rcases hupdate with ⟨middle, hfirst, hrest⟩
      rcases h.updateRecord hperm hfirst with
        ⟨new, hnew, hmiddle, hsame, hmoved⟩
      have hnext : middle.records.Perm (chosen ++ new :: others) :=
        hmoved.trans List.perm_middle.symm
      rcases ih hmiddle hnext hrest with ⟨news, hnews, hafter, hkept, hdone⟩
      refine ⟨new :: news, .cons hnew ?_, hafter, ?_, ?_⟩
      · refine hnews.imp fun item made hmade => ?_
        rw [<- hmade, hsame]
        exact (changed_congr rfl rfl assignments item).symm
      · rw [hkept, hsame]
      · exact hdone.trans List.perm_middle

end Table
end Engine
end TableStore
