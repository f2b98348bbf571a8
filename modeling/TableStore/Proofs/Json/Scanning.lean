import TableStore.Json.Reading
import TableStore.Proofs.Json.Numbers
import TableStore.Proofs.Json.Texts

/-!
# Documents are read back

The text of a document with finite numbers is scanned to an outline that shows the
document as a whole, whatever follows the text.  Each part of the outline takes its part
of the text; the fuel lasts because no part is empty.
-/

namespace TableStore
namespace Json

open Decimal (isDigit)

/-!
# The outline of a document
-/

mutual

/-- The outline of the text of a document. -/
def outline : Json -> Outline
  | .null => .null
  | .bool b => .bool b
  | .num n => .num (.ok n)
  | .str s => .str (.ofText s)
  | .arr items => .arr (itemOutlines items)
  | .obj members => .obj (memberOutlines members)

/-- The outlines of the items of a list. -/
def itemOutlines : List Json -> Items
  | [] => .nil
  | item :: rest => .cons (outline item) (itemOutlines rest)

/-- The outlines of the members of an object. -/
def memberOutlines : List (String × Json) -> Entries
  | [] => .nil
  | (key, value) :: rest =>
      .cons (.ofText key) (outline value) (memberOutlines rest)

end

/-!
# Starts of documents
-/

theorem skipBlanks_cons {c : Char} (h : isBlank c = false) (rest : List Char) :
    skipBlanks (c :: rest) = c :: rest := by
  rw [skipBlanks, List.dropWhile_cons_of_neg]
  rw [h]
  exact Bool.false_ne_true

/-- A character that a document starts with. -/
def StartsDocument (c : Char) : Prop :=
  isBlank c = false ∧ c ≠ ']'

theorem startsDocument_digit {c : Char}
    (h : (decide (c = '-') || isDigit c) = true) : StartsDocument c := by
  rw [Bool.or_eq_true, decide_eq_true_iff] at h
  rcases h with rfl | hdigit
  · exact ⟨by decide, by decide⟩
  · have hblank : Decimal.digitChars.all (fun d => !isBlank d) = true := by
      decide
    have hnot := Decimal.digit_all hdigit hblank
    rw [Bool.not_eq_true'] at hnot
    exact ⟨hnot, Decimal.ne_of_isDigit hdigit (by decide)⟩

theorem exists_chars_cons {document : Json}
    (h : forall n, n ∈ document.numbers -> FiniteNumber n) :
    exists c tail, chars document = c :: tail ∧ StartsDocument c := by
  cases document with
  | null => exact ⟨'n', _, rfl, by decide, by decide⟩
  | bool b =>
      cases b with
      | true => exact ⟨'t', _, rfl, by decide, by decide⟩
      | false => exact ⟨'f', _, rfl, by decide, by decide⟩
  | str text => exact ⟨'"', _, by rw [chars]; rfl, by decide, by decide⟩
  | arr items => exact ⟨'[', _, by rw [chars]; rfl, by decide, by decide⟩
  | obj members =>
      exact ⟨'\x7b', _, by rw [chars]; rfl, by decide, by decide⟩
  | num n =>
      have hfinite : FiniteNumber n := by
        apply h
        rw [numbers]
        exact List.mem_singleton_self n
      rcases head?_numberChars hfinite with ⟨c, hhead, hstart⟩
      rw [chars]
      cases hchars : numberChars n with
      | nil =>
          rw [hchars] at hhead
          cases hhead
      | cons first tail =>
          rw [hchars] at hhead
          cases hhead
          exact ⟨c, tail, rfl, startsDocument_digit hstart⟩

/-!
# Single parts
-/

theorem scanWord_append (value : Outline) (word rest : List Char) :
    scanWord value word (word ++ rest) = (value, some rest) := by
  induction word with
  | nil => rfl
  | cons c word ih => rw [List.cons_append, scanWord, if_pos rfl, ih]

theorem scanValue_number {n : Number} (h : FiniteNumber n) {rest : List Char}
    (hrest : EndsNumber rest) (fuel : Nat) :
    scanValue (fuel + 1) (numberChars n ++ rest) =
      (.num (.ok n), some rest) := by
  have hscan := scanNumber_numberChars h hrest
  rcases head?_numberChars h with ⟨c, hhead, hstart⟩
  cases hchars : numberChars n with
  | nil =>
      rw [hchars] at hhead
      cases hhead
  | cons first tail =>
      rw [hchars] at hhead hscan
      cases hhead
      have hnot (other : Char)
          (hother : (decide (other = '-') || isDigit other) = false) :
          c ≠ other := by
        rintro rfl
        rw [hstart] at hother
        cases hother
      rw [List.cons_append] at hscan ⊢
      rw [scanValue, skipBlanks_cons (startsDocument_digit hstart).left]
      dsimp only
      rw [if_neg (hnot '"' (by decide)), if_neg (hnot '[' (by decide)),
        if_neg (hnot '\x7b' (by decide)), if_pos hstart, hscan]

theorem scanValue_text (text : String) (rest : List Char) (fuel : Nat) :
    scanValue (fuel + 1) (quotedChars text ++ rest) =
      (.str (.ofText text), some rest) := by
  have hscan := scanText_quoted text rest
  rw [quotedChars, List.cons_append, List.cons_append, List.append_assoc,
    List.singleton_append, scanValue, skipBlanks_cons (by decide)]
  dsimp only
  rw [if_pos rfl, hscan]

/-!
# Lists and objects
-/

theorem endsNumber_furtherItems (items : List Json) (rest : List Char) :
    EndsNumber (furtherItemChars items ++ ']' :: rest) := by
  cases items with
  | nil => exact endsNumber_cons rest (by decide)
  | cons item items =>
      rw [furtherItemChars]
      exact endsNumber_cons _ (by decide)

theorem endsNumber_furtherMembers (members : List (String × Json))
    (rest : List Char) :
    EndsNumber (furtherMemberChars members ++ '\x7d' :: rest) := by
  rcases members with _ | ⟨⟨key, value⟩, members⟩
  · exact endsNumber_cons rest (by decide)
  · rw [furtherMemberChars]
    exact endsNumber_cons _ (by decide)

theorem scanFurtherItems_end (rest : List Char) (fuel : Nat) :
    scanFurtherItems (fuel + 1) (']' :: rest) = (.nil, some rest) := by
  rw [scanFurtherItems, skipBlanks_cons (by decide)]
  rfl

theorem scanFurtherItems_comma {c : Char} (h : StartsDocument c)
    (tail : List Char) (fuel : Nat) :
    scanFurtherItems (fuel + 1) (',' :: c :: tail) =
      scanItem fuel (c :: tail) := by
  rw [scanFurtherItems, skipBlanks_cons (by decide)]
  dsimp only
  rw [if_neg (by decide), if_pos rfl, skipBlanks_cons h.left]
  dsimp only
  rw [if_neg h.right]

theorem scanItems_item {c : Char} (h : StartsDocument c) (tail : List Char)
    (fuel : Nat) :
    scanItems (fuel + 1) (c :: tail) = scanItem fuel (c :: tail) := by
  rw [scanItems, skipBlanks_cons h.left]
  dsimp only
  rw [if_neg h.right]

theorem scanFurtherEntries_end (rest : List Char) (fuel : Nat) :
    scanFurtherEntries (fuel + 1) ('\x7d' :: rest) = (.nil, some rest) := by
  rw [scanFurtherEntries, skipBlanks_cons (by decide)]
  rfl

theorem scanFurtherEntries_comma (tail : List Char) (fuel : Nat) :
    scanFurtherEntries (fuel + 1) (',' :: '"' :: tail) =
      scanEntry fuel tail := by
  rw [scanFurtherEntries, skipBlanks_cons (by decide)]
  dsimp only
  rw [if_neg (by decide), if_pos rfl, skipBlanks_cons (by decide)]
  rfl

theorem scanEntries_entry (tail : List Char) (fuel : Nat) :
    scanEntries (fuel + 1) ('"' :: tail) = scanEntry fuel tail := by
  rw [scanEntries, skipBlanks_cons (by decide)]
  rfl

theorem scanMember_colon (tail : List Char) (fuel : Nat) :
    scanMember (fuel + 1) (':' :: tail) = scanValue fuel tail := by
  rw [scanMember, skipBlanks_cons (by decide)]
  rfl

/-!
A list or an object is read back if its parts are.
-/

theorem scanValue_list (items : List Json) {rest : List Char} {fuel : Nat}
    (hscan : scanItems fuel (itemChars items ++ ']' :: rest) =
      (itemOutlines items, some rest)) :
    scanValue (fuel + 1) (chars (.arr items) ++ rest) =
      (outline (.arr items), some rest) := by
  rw [chars, outline, List.cons_append, List.cons_append, List.append_assoc,
    List.singleton_append, scanValue, skipBlanks_cons (by decide)]
  dsimp only
  rw [if_neg (by decide), if_pos rfl, hscan]

theorem scanValue_object (members : List (String × Json)) {rest : List Char}
    {fuel : Nat}
    (hscan : scanEntries fuel (memberChars members ++ '\x7d' :: rest) =
      (memberOutlines members, some rest)) :
    scanValue (fuel + 1) (chars (.obj members) ++ rest) =
      (outline (.obj members), some rest) := by
  rw [chars, outline, List.cons_append, List.cons_append, List.append_assoc,
    List.singleton_append, scanValue, skipBlanks_cons (by decide)]
  dsimp only
  rw [if_neg (by decide), if_neg (by decide), if_pos rfl, hscan]

theorem scanItem_cons {item : Json} {items : List Json} {rest : List Char}
    {fuel : Nat}
    (hitem : scanValue fuel
        (chars item ++ (furtherItemChars items ++ ']' :: rest)) =
      (outline item, some (furtherItemChars items ++ ']' :: rest)))
    (hitems : scanFurtherItems fuel (furtherItemChars items ++ ']' :: rest) =
      (itemOutlines items, some rest)) :
    scanItem (fuel + 1)
        (chars item ++ (furtherItemChars items ++ ']' :: rest)) =
      (itemOutlines (item :: items), some rest) := by
  rw [scanItem, hitem]
  dsimp only
  rw [hitems, itemOutlines]

/-- What stands behind the opening quote of the key of a member. -/
def entryChars (member : String × Json) (rest : List (String × Json)) :
    List Char :=
  member.1.toList.flatMap escapeChar ++
    '"' :: ':' :: (chars member.2 ++ furtherMemberChars rest)

section Members

variable (member : String × Json) (members : List (String × Json))

theorem sizeOf_snd_lt : sizeOf member.2 < sizeOf (member :: members) := by
  rcases member with ⟨key, value⟩
  simp only [Prod.mk.sizeOf_spec, List.cons.sizeOf_spec]
  omega

theorem memberChars_cons :
    memberChars (member :: members) = '"' :: entryChars member members := by
  rw [memberChars, quotedChars, entryChars]
  simp

theorem furtherMemberChars_cons :
    furtherMemberChars (member :: members) =
      ',' :: '"' :: entryChars member members := by
  rw [furtherMemberChars, quotedChars, entryChars]
  simp

theorem scanEntry_cons {rest : List Char} {fuel : Nat}
    (hvalue : scanValue fuel
        (chars member.2 ++ (furtherMemberChars members ++ '\x7d' :: rest)) =
      (outline member.2,
        some (furtherMemberChars members ++ '\x7d' :: rest)))
    (hmembers : scanFurtherEntries (fuel + 1)
        (furtherMemberChars members ++ '\x7d' :: rest) =
      (memberOutlines members, some rest)) :
    scanEntry (fuel + 2) (entryChars member members ++ '\x7d' :: rest) =
      (memberOutlines (member :: members), some rest) := by
  have hkey := scanText_quoted member.1 (':' :: (chars member.2 ++
    (furtherMemberChars members ++ '\x7d' :: rest)))
  rw [entryChars, List.append_assoc, List.cons_append, List.cons_append,
    List.append_assoc, scanEntry, hkey]
  dsimp only
  rw [scanMember_colon, hvalue]
  dsimp only
  rw [hmembers, memberOutlines]

end Members

mutual

theorem scanValue_chars (document : Json) {rest : List Char} {fuel : Nat}
    (h : forall n, n ∈ document.numbers -> FiniteNumber n)
    (hrest : EndsNumber rest)
    (hfuel : 4 * (chars document).length + 1 <= fuel) :
    scanValue fuel (chars document ++ rest) =
      (outline document, some rest) := by
  rcases fuel with _ | fuel
  · omega
  cases document with
  | null =>
      rw [chars, outline]
      exact scanWord_append .null "null".toList rest
  | bool b =>
      cases b with
      | true => exact scanWord_append (.bool true) "true".toList rest
      | false => exact scanWord_append (.bool false) "false".toList rest
  | num n =>
      rw [chars, outline]
      exact scanValue_number (h n (by simp [numbers])) hrest fuel
  | str text =>
      rw [chars, outline]
      exact scanValue_text text rest fuel
  | arr items =>
      rw [numbers] at h
      rw [chars, List.length_append, List.length_cons,
        List.length_singleton] at hfuel
      apply scanValue_list
      rcases fuel with _ | fuel
      · omega
      cases items with
      | nil => rfl
      | cons item items =>
          -- No item starts with a closing bracket, so the list does not end here.
          have hitem : forall n, n ∈ item.numbers -> FiniteNumber n :=
            fun n hn => h n (List.mem_append_left _ hn)
          rcases exists_chars_cons hitem with ⟨c, tail, hchars, hstarts⟩
          rw [itemChars] at hfuel ⊢
          have hscan := scanItem_chars item items rest fuel h (by omega)
          rw [hchars, List.append_assoc, List.cons_append,
            scanItems_item hstarts, <- List.cons_append, <- hchars, hscan]
  | obj members =>
      rw [numbers] at h
      rw [chars, List.length_append, List.length_cons,
        List.length_singleton] at hfuel
      apply scanValue_object
      rcases fuel with _ | fuel
      · omega
      cases members with
      | nil => rfl
      | cons member members =>
          rw [memberChars_cons, List.length_cons] at hfuel
          rw [memberChars_cons, List.cons_append, scanEntries_entry]
          exact scanEntry_chars member members h (by omega)
  termination_by sizeOf document

theorem scanItem_chars (item : Json) (items : List Json) (rest : List Char)
    (fuel : Nat)
    (h : forall n, n ∈ itemNumbers (item :: items) -> FiniteNumber n)
    (hfuel : 4 * (chars item ++ furtherItemChars items).length + 2 <= fuel) :
    scanItem fuel (chars item ++ (furtherItemChars items ++ ']' :: rest)) =
      (itemOutlines (item :: items), some rest) := by
  rw [itemNumbers] at h
  rw [List.length_append] at hfuel
  rcases fuel with _ | _ | fuel
  · omega
  · omega
  apply scanItem_cons
  · exact scanValue_chars item (fun n hn => h n (List.mem_append_left _ hn))
      (endsNumber_furtherItems items rest) (by omega)
  · cases items with
    | nil => exact scanFurtherItems_end rest fuel
    | cons next items =>
        have hnumbers : forall n, n ∈ itemNumbers (next :: items) ->
            FiniteNumber n := fun n hn => h n (List.mem_append_right _ hn)
        have hnext : forall n, n ∈ next.numbers -> FiniteNumber n :=
          fun n hn => hnumbers n (List.mem_append_left _ hn)
        rcases exists_chars_cons hnext with ⟨c, tail, hchars, hstarts⟩
        rw [furtherItemChars, List.cons_append, List.length_cons] at hfuel
        have hscan := scanItem_chars next items rest fuel hnumbers (by omega)
        rw [furtherItemChars, List.cons_append, List.cons_append,
          List.append_assoc, hchars, List.cons_append,
          scanFurtherItems_comma hstarts, <- List.cons_append, <- hchars,
          hscan]
  termination_by sizeOf (item :: items)

theorem scanEntry_chars (member : String × Json)
    (members : List (String × Json)) {rest : List Char} {fuel : Nat}
    (h : forall n, n ∈ memberNumbers (member :: members) -> FiniteNumber n)
    (hfuel : 4 * (entryChars member members).length + 2 <= fuel) :
    scanEntry fuel (entryChars member members ++ '\x7d' :: rest) =
      (memberOutlines (member :: members), some rest) := by
  rw [memberNumbers] at h
  rw [entryChars, List.length_append, List.length_cons, List.length_cons,
    List.length_append] at hfuel
  rcases fuel with _ | _ | fuel
  · omega
  · omega
  apply scanEntry_cons
  · have hsmaller := sizeOf_snd_lt member members
    exact scanValue_chars member.2
      (fun n hn => h n (List.mem_append_left _ hn))
      (endsNumber_furtherMembers members rest) (by omega)
  · cases members with
    | nil => exact scanFurtherEntries_end rest fuel
    | cons next members =>
        rw [furtherMemberChars_cons, List.length_cons, List.length_cons]
          at hfuel
        rw [furtherMemberChars_cons, List.cons_append, List.cons_append,
          scanFurtherEntries_comma]
        exact scanEntry_chars next members
          (fun n hn => h n (List.mem_append_right _ hn)) (by omega)
  termination_by sizeOf (member :: members)

end

/-- The outline of a text that has been written is that of the document. -/
theorem readText_text {α : Type} (read : Outline -> Read α) {document : Json}
    (h : forall n, n ∈ document.numbers -> FiniteNumber n) :
    readText read (text document) = read (outline document) := by
  have hfuel : 4 * (chars document).length + 1 <=
      4 * (chars document).length + 4 := by omega
  have hscan := scanValue_chars document h endsNumber_nil hfuel
  rw [List.append_nil] at hscan
  rw [readText, readWhole, text, String.toList_ofList]
  dsimp only
  rw [hscan]
  dsimp only
  cases read (outline document) <;> rfl

end Json
end TableStore
