import TableStore.Json.Printer
import TableStore.Json.Scan

/-!
# Texts in documents

Every character of a quoted text is one part of it, which is decoded to the character,
however it is written.
-/

namespace TableStore

namespace Text

theorem numberOfHex?_hexOfNumber {n : Nat} (h : n < 32) :
    numberOfHex? (hexOfNumber 4 n) = some n := by
  have hall : forall n : Fin 32,
      numberOfHex? (hexOfNumber 4 n.val) = some n.val := by
    decide
  exact hall ⟨n, h⟩

end Text

namespace Json

/-!
# Characters
-/

def Piece.Yields (part : Piece) (c : Char) : Prop :=
  forall (ending : Except Fault Unit) (parts : List Piece),
    decodePieces ending none (part :: parts) =
      (decodePieces ending none parts).map (c :: ·)

theorem yields_char (c : Char) : (Piece.char c).Yields c :=
  fun _ _ => rfl

theorem yields_unit {c : Char} (h : c.toNat < 32) :
    (Piece.unit c.toNat).Yields c := by
  intro ending parts
  rw [decodePieces, if_neg (by simp; omega), if_neg (by simp; omega),
    Char.ofNat_toNat]

def Spelled (c : Char) : Prop :=
  exists part : Piece, part.Yields c ∧ forall rest,
    scanPieces (escapeChar c ++ rest) =
      (scanPieces rest).push part (escapeChar c)

theorem scanPieces_letter {c letter : Char} (hletter : letter ≠ 'u')
    (h : escaped? letter = some c) (rest : List Char) :
    scanPieces ('\\' :: letter :: rest) =
      (scanPieces rest).push (.char c) ['\\', letter] := by
  rw [scanPieces]
  · rw [h]
  · intro _ _ _ _ _ heq
    exact absurd heq hletter
  · exact hletter

theorem spelled_letter {c letter : Char}
    (hescape : escapeChar c = ['\\', letter]) (hletter : letter ≠ 'u')
    (h : escaped? letter = some c) : Spelled c := by
  refine ⟨.char c, yields_char c, fun rest => ?_⟩
  rw [hescape]
  exact scanPieces_letter hletter h rest

theorem scanPieces_plain {c : Char} (hquote : c ≠ '"') (hslash : c ≠ '\\')
    (hvisible : ¬ c.toNat < 32) (rest : List Char) :
    scanPieces (c :: rest) = (scanPieces rest).push (.char c) [c] := by
  rw [scanPieces, if_neg hvisible]
  · exact hquote
  · exact fun _ _ _ _ _ heq _ => hslash heq
  · exact fun _ heq _ => hslash heq
  · exact fun _ _ heq _ => hslash heq
  · exact fun heq _ => hslash heq

theorem scanPieces_unit {n : Nat} (h : n < 32) (rest : List Char) :
    scanPieces ('\\' :: 'u' :: (Text.hexOfNumber 4 n ++ rest)) =
      (scanPieces rest).push (.unit n)
        ('\\' :: 'u' :: Text.hexOfNumber 4 n) := by
  have hnumber := Text.numberOfHex?_hexOfNumber h
  have hfour (a b c d : Char) (hdigits : Text.hexOfNumber 4 n = [a, b, c, d]) :
      scanPieces ('\\' :: 'u' :: ([a, b, c, d] ++ rest)) =
        (scanPieces rest).push (.unit n) ('\\' :: 'u' :: [a, b, c, d]) := by
    rw [hdigits] at hnumber
    rw [List.cons_append, List.cons_append, List.cons_append, List.cons_append,
      List.nil_append, scanPieces, hnumber]
  exact hfour _ _ _ _ rfl

def lettered : List Char :=
  ['"', '\\', '\x08', '\t', '\n', '\x0c', '\r']

theorem spelled_of_mem_lettered {c : Char} (h : c ∈ lettered) : Spelled c := by
  simp only [lettered, List.mem_cons, List.not_mem_nil, or_false] at h
  rcases h with rfl | rfl | rfl | rfl | rfl | rfl | rfl
  all_goals exact spelled_letter rfl (by decide) rfl

theorem escapeChar_of_not_mem_lettered {c : Char} (h : c ∉ lettered) :
    escapeChar c =
      if c.toNat < 32 then '\\' :: 'u' :: Text.hexOfNumber 4 c.toNat
      else [c] := by
  simp only [lettered, List.mem_cons, List.not_mem_nil, or_false, not_or] at h
  rcases h with ⟨hquote, hslash, hback, htab, hline, hpage, hreturn⟩
  rw [escapeChar, if_neg hquote, if_neg hslash, if_neg hback, if_neg htab,
    if_neg hline, if_neg hpage, if_neg hreturn]

theorem spelled (c : Char) : Spelled c := by
  by_cases hletter : c ∈ lettered
  · exact spelled_of_mem_lettered hletter
  · have hescape := escapeChar_of_not_mem_lettered hletter
    by_cases hcontrol : c.toNat < 32
    · rw [if_pos hcontrol] at hescape
      refine ⟨.unit c.toNat, yields_unit hcontrol, fun rest => ?_⟩
      rw [hescape]
      exact scanPieces_unit hcontrol rest
    · rw [if_neg hcontrol] at hescape
      have hquote : c ≠ '"' := fun heq => hletter (heq ▸ by decide)
      have hslash : c ≠ '\\' := fun heq => hletter (heq ▸ by decide)
      refine ⟨.char c, yields_char c, fun rest => ?_⟩
      rw [hescape]
      exact scanPieces_plain hquote hslash hcontrol rest

/-!
# Texts
-/

def TextToken.ofText (text : String) : TextToken :=
  ⟨text.toList.flatMap escapeChar ++ ['"'], .ok text, .ok ()⟩

theorem scanPieces_flatMap (chars rest : List Char) :
    exists parts,
      scanPieces (chars.flatMap escapeChar ++ '"' :: rest) =
        ⟨parts, chars.flatMap escapeChar ++ ['"'], .ok (), rest⟩ ∧
      decodePieces (.ok ()) none parts = .ok chars := by
  induction chars with
  | nil => exact ⟨[], rfl, rfl⟩
  | cons c chars ih =>
      rcases ih with ⟨parts, hscan, hdecode⟩
      rcases spelled c with ⟨part, hyields, hspelled⟩
      refine ⟨part :: parts, ?_, ?_⟩
      · rw [List.flatMap_cons, List.append_assoc, hspelled, hscan, Pieces.push,
          List.append_assoc]
      · rw [hyields, hdecode]
        rfl

/-- A quoted text is read back, whatever follows its closing quote. -/
theorem scanText_quoted (text : String) (rest : List Char) :
    scanText (text.toList.flatMap escapeChar ++ '"' :: rest) =
      (.ofText text, some rest) := by
  rcases scanPieces_flatMap text.toList rest with ⟨parts, hscan, hdecode⟩
  rw [scanText, hscan]
  dsimp only
  rw [hdecode, Except.map, String.ofList_toList]
  rfl

end Json
end TableStore
