import Mathlib.Data.List.TakeWhile
import ProgramIndex.Text.Blank
import ProgramIndex.Text.Delimited

/-!
Pieces that are joined come apart again at the same places, as long as none of
them holds the separator. One piece is needed at least: no pieces and a single
empty one are joined to the same text. The blanks around a piece can be taken off it again.
-/

namespace ProgramIndex.Text

theorem split_of_not_mem {separator : Char} {piece : List Char} (hPiece : separator ∉ piece) :
    split separator piece = [piece] := by
  induction piece with
  | nil => rfl
  | cons c rest ih =>
      rw [List.mem_cons, not_or] at hPiece
      have hNe : c ≠ separator := fun hSame => hPiece.1 hSame.symm
      rw [split, if_neg hNe, ih hPiece.2]

/-- The piece before the first separator is the first one. -/
theorem split_append {separator : Char} {piece : List Char} (hPiece : separator ∉ piece)
    (rest : List Char) :
    split separator (piece ++ separator :: rest) = piece :: split separator rest := by
  induction piece with
  | nil => rw [List.nil_append, split, if_pos rfl]
  | cons c others ih =>
      rw [List.mem_cons, not_or] at hPiece
      have hNe : c ≠ separator := fun hSame => hPiece.1 hSame.symm
      rw [List.cons_append, split, if_neg hNe, ih hPiece.2]

/-- Joined pieces come apart as they were. -/
theorem split_join {separator : Char} {pieces : List (List Char)} (hSome : pieces ≠ [])
    (hPieces : ∀ piece ∈ pieces, separator ∉ piece) :
    split separator (join separator pieces) = pieces := by
  induction pieces with
  | nil => exact absurd rfl hSome
  | cons piece rest ih =>
      have hPiece := hPieces piece List.mem_cons_self
      cases rest with
      | nil => exact split_of_not_mem hPiece
      | cons next others =>
          have hRest := ih (List.cons_ne_nil next others) fun other hOther =>
            hPieces other (List.mem_cons_of_mem piece hOther)
          rw [join, split_append hPiece, hRest]
          exact List.cons_ne_nil next others

theorem dropWhile_of_forall_not_blank {text : List Char}
    (hText : ∀ c ∈ text, isBlank c = false) : text.dropWhile isBlank = text := by
  cases text with
  | nil => rfl
  | cons c rest => rw [List.dropWhile_cons_of_neg (by simp [hText c List.mem_cons_self])]

/-- The blanks around a text that holds none are removed, and nothing else. -/
theorem trim_append_append {before text after : List Char}
    (hBefore : ∀ c ∈ before, isBlank c = true) (hText : ∀ c ∈ text, isBlank c = false)
    (hAfter : ∀ c ∈ after, isBlank c = true) : trim (before ++ text ++ after) = text := by
  have hStart : trimStart (before ++ text ++ after) = trimStart (text ++ after) := by
    rw [trimStart, List.append_assoc, List.dropWhile_append_of_pos hBefore, trimStart]
  rw [trim, hStart]
  cases text with
  | nil =>
      have hNone : trimStart after = [] := List.dropWhile_eq_nil_iff.mpr hAfter
      rw [List.nil_append, hNone]
      rfl
  | cons c rest =>
      have hKept : trimStart (c :: rest ++ after) = c :: rest ++ after :=
        List.dropWhile_cons_of_neg (by simp [hText c List.mem_cons_self])
      have hReverse : ∀ d ∈ after.reverse, isBlank d = true := fun d hMem =>
        hAfter d (List.mem_reverse.mp hMem)
      have hText' : ∀ d ∈ (c :: rest).reverse, isBlank d = false := fun d hMem =>
        hText d (List.mem_reverse.mp hMem)
      rw [hKept, trimEnd, List.reverse_append, List.dropWhile_append_of_pos hReverse,
        dropWhile_of_forall_not_blank hText', List.reverse_reverse]

/-- A text without blanks is not trimmed. -/
theorem trim_of_forall_not_blank {text : List Char} (hText : ∀ c ∈ text, isBlank c = false) :
    trim text = text := by
  have hTrim := @trim_append_append [] text [] nofun hText nofun
  rwa [List.nil_append, List.append_nil] at hTrim

/-- What is removed from a text are blanks before and after the rest. -/
theorem exists_blanks_around (text : List Char) :
    ∃ before after, text = before ++ trim text ++ after ∧
      (∀ c ∈ before, isBlank c = true) ∧ ∀ c ∈ after, isBlank c = true := by
  refine ⟨text.takeWhile isBlank, ((trimStart text).reverse.takeWhile isBlank).reverse, ?_, ?_, ?_⟩
  · have hEnd : trim text ++ ((trimStart text).reverse.takeWhile isBlank).reverse =
        trimStart text := by
      rw [trim, trimEnd, ← List.reverse_append, List.takeWhile_append_dropWhile,
        List.reverse_reverse]
    rw [List.append_assoc, hEnd, trimStart, List.takeWhile_append_dropWhile]
  · exact fun c hMem => List.mem_takeWhile_imp hMem
  · exact fun c hMem => List.mem_takeWhile_imp (List.mem_reverse.mp hMem)

end ProgramIndex.Text
