import TableStore.Json.Reading
import TableStore.Proofs.Json.Scanning

/-!
# Parts of documents are read back

What typed readers find in the outline of a document: its texts, lists and members, one
after another.
-/

namespace TableStore
namespace Json

/-!
# Lists
-/

theorem mapRead_itemOutlines {α β : Type} {read : Outline -> Read β}
    {document : α -> Json} {found : α -> β} {items : List α}
    (h : forall item, item ∈ items ->
      read (outline (document item)) = .ok (found item)) :
    (itemOutlines (items.map document)).mapRead read =
      .ok (items.map found) := by
  induction items with
  | nil => rfl
  | cons item items ih =>
      rw [List.forall_mem_cons] at h
      rw [List.map_cons, itemOutlines, Items.mapRead, h.left, ih h.right]
      rfl

theorem list_outline {α β : Type} {read : Outline -> Read β}
    {document : α -> Json} {found : α -> β} {items : List α}
    (h : forall item, item ∈ items ->
      read (outline (document item)) = .ok (found item)) :
    (outline (.arr (items.map document))).list read =
      .ok (items.map found) := by
  rw [outline]
  exact mapRead_itemOutlines h

/-- A list of which each item is read back is read back. -/
theorem list_outline_self {α : Type} {read : Outline -> Read α}
    {document : α -> Json} {items : List α}
    (h : forall item, item ∈ items ->
      read (outline (document item)) = .ok item) :
    (outline (.arr (items.map document))).list read = .ok items := by
  rw [list_outline h, List.map_id']

theorem documents_itemOutlines {items : List Json} {room : Nat}
    (h : forall item, item ∈ items ->
      (outline item).document room = .ok item) :
    (itemOutlines items).documents room = .ok items := by
  induction items with
  | nil => rfl
  | cons item items ih =>
      rw [List.forall_mem_cons] at h
      rw [itemOutlines, Items.documents, h.left, ih h.right]
      rfl

/-!
# Members
-/

section Members

variable {σ : Type} {key : String} {value : Json}
  {rest : List (String × Json)}

theorem foldRead_member {step : σ -> TextToken -> Outline -> Read σ}
    {state next : σ}
    (h : step state (.ofText key) (outline value) = .ok next) :
    (memberOutlines ((key, value) :: rest)).foldRead step state =
      (memberOutlines rest).foldRead step next := by
  rw [memberOutlines, Entries.foldRead, h]
  rfl

/-- A field that has had no value so far gets the one that is read. -/
theorem readField_bind {α : Type} {name : String} {read : Outline -> Read α}
    {part : Outline} {found : α} (h : read part = .ok found)
    (put : Option α -> σ) :
    (do return put (<- readField name none read part) : Read σ) =
      .ok (put (some found)) := by
  rw [readField, h]
  rfl

def fieldsFrom (step : σ -> String -> Outline -> Read σ) (state : σ) :
    List (String × Json) -> Read σ
  | [] => .ok state
  | (key, value) :: rest => do
      let next <- step state key (outline value)
      fieldsFrom step next rest

theorem fieldsFrom_cons {step : σ -> String -> Outline -> Read σ}
    {state next : σ} (h : step state key (outline value) = .ok next) :
    fieldsFrom step state ((key, value) :: rest) =
      fieldsFrom step next rest := by
  rw [fieldsFrom, h]
  rfl

theorem foldRead_fields (step : σ -> String -> Outline -> Read σ) (state : σ)
    (members : List (String × Json)) :
    (memberOutlines members).foldRead
        (fun state key value => do
          let name <- ofFault key.content
          step state name value) state =
      fieldsFrom step state members := by
  induction members generalizing state with
  | nil => rfl
  | cons member members ih =>
      rcases member with ⟨key, value⟩
      rw [memberOutlines, Entries.foldRead, fieldsFrom]
      have hname : (do
            let name <- ofFault (TextToken.ofText key).content
            step state name (outline value) : Read σ) =
          step state key (outline value) := rfl
      rw [hname]
      cases step state key (outline value) with
      | error refusal => rfl
      | ok next => exact ih next

theorem record_object {α : Type} {wanted : String} {ofItems : Items -> Read α}
    {start : σ} {step : σ -> String -> Outline -> Read σ}
    {finish : σ -> Read α} {members : List (String × Json)} {state : σ}
    (h : fieldsFrom step start members = .ok state) :
    (outline (.obj members)).record wanted ofItems start step finish =
      finish state := by
  rw [outline, Outline.record, foldRead_fields, h]
  rfl

end Members

end Json
end TableStore
