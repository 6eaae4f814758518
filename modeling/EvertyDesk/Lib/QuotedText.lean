import Mathlib.Data.List.Basic
import Mathlib.Data.List.TakeWhile

/-!
Texts of pieces between marks. A marked word is looked for in the whole text; where the
pieces have no marks themselves it is found as the first piece that is the word, and the
pieces behind it are what follows.
-/

namespace EvertyDesk

variable {Item : Type*} [DecidableEq Item]

/-- What follows the first place where a pattern stands. -/
def afterFirst (pattern : List Item) : List Item → Option (List Item)
  | [] => if pattern = [] then some [] else none
  | item :: items =>
      if pattern.isPrefixOf (item :: items) then some ((item :: items).drop pattern.length)
      else afterFirst pattern items

/-- What comes before the first of these items, if there is one. -/
def beforeFirst (item : Item) (items : List Item) : Option (List Item) :=
  if item ∈ items then some (items.takeWhile (· ≠ item)) else none

/-- The pieces behind the first one that is the word. The last piece has no mark behind it. -/
def afterPiece (word : List Item) : List (List Item) → Option (List (List Item))
  | [] => none
  | [_] => none
  | piece :: next :: rest =>
      if piece = word then some (next :: rest) else afterPiece word (next :: rest)

def marked (mark : Item) (word : List Item) : List Item := mark :: (word ++ [mark])

variable {mark : Item} {word piece front items : List Item} {pieces : List (List Item)}

theorem afterPiece_cons_of_ne (h : piece ≠ word) :
    afterPiece word (piece :: pieces) = afterPiece word pieces := by
  cases pieces with
  | nil => rfl
  | cons next pieces => exact if_neg h

theorem not_mem_of_beforeFirst {found : List Item} (h : beforeFirst mark items = some found) :
    mark ∉ found := by
  rw [beforeFirst] at h
  split at h
  · cases h
    intro hmem
    have hother := List.mem_takeWhile_imp hmem
    exact of_decide_eq_true hother rfl
  · cases h

theorem beforeFirst_clean (h : mark ∉ front) (items : List Item) :
    beforeFirst mark (front ++ mark :: items) = some front := by
  have hfront : ∀ item ∈ front, decide (item ≠ mark) = true := by
    intro item hitem
    exact decide_eq_true fun heq => h (heq ▸ hitem)
  rw [beforeFirst, if_pos (by simp), List.takeWhile_append_of_pos hfront,
    List.takeWhile_cons_of_neg (by simp), List.append_nil]

theorem beforeFirst_none (h : mark ∉ items) : beforeFirst mark items = none := if_neg h

/-- Nothing of the pattern stands where its first item does not. -/
theorem afterFirst_clean_append (h : mark ∉ front) (pattern items : List Item) :
    afterFirst (mark :: pattern) (front ++ items) = afterFirst (mark :: pattern) items := by
  induction front with
  | nil => rfl
  | cons item front ih =>
      obtain ⟨hitem, hfront⟩ := not_or.mp (mt List.mem_cons.mpr h)
      rw [List.cons_append, afterFirst, if_neg (by simp [hitem])]
      exact ih hfront

/-- A word and its mark stand before a piece only where the piece is the word. -/
theorem prefix_pieces_iff (hword : mark ∉ word) (hpiece : mark ∉ piece) :
    word ++ [mark] <+: [mark].intercalate (piece :: pieces) ↔ piece = word ∧ pieces ≠ [] := by
  cases pieces with
  | nil =>
      rw [List.intercalate_singleton]
      refine ⟨fun h => absurd (h.subset (by simp)) hpiece, fun h => absurd rfl h.2⟩
  | cons next pieces =>
      rw [List.intercalate_cons_cons]
      constructor
      · rintro ⟨rest, hrest⟩
        have hsame := congrArg (beforeFirst mark) hrest
        rw [List.append_assoc, List.append_assoc] at hsame
        rw [List.singleton_append, List.singleton_append, beforeFirst_clean hword,
          beforeFirst_clean hpiece] at hsame
        exact ⟨(Option.some.inj hsame).symm, List.cons_ne_nil _ _⟩
      · rintro ⟨rfl, -⟩
        exact List.prefix_append _ _

/-- A marked word is found at the piece that it is. -/
theorem afterFirst_pieces (hword : mark ∉ word) (hpieces : ∀ piece ∈ pieces, mark ∉ piece)
    (hfront : mark ∉ front) :
    afterFirst (marked mark word) ([mark].intercalate (front :: pieces)) =
      (afterPiece word pieces).map [mark].intercalate := by
  induction pieces generalizing front with
  | nil =>
      rw [List.intercalate_singleton, ← List.append_nil front, marked,
        afterFirst_clean_append hfront]
      rfl
  | cons piece pieces ih =>
      obtain ⟨hpiece, hrest⟩ := List.forall_mem_cons.mp hpieces
      have hstands : word ++ [mark] <+: [mark].intercalate (piece :: pieces) ↔
          piece = word ∧ pieces ≠ [] := prefix_pieces_iff hword hpiece
      rw [List.intercalate_cons_cons, List.append_assoc, marked, afterFirst_clean_append hfront,
        List.singleton_append, afterFirst]
      simp only [List.isPrefixOf_cons_cons_self, List.isPrefixOf_iff_prefix, hstands]
      cases pieces with
      | nil =>
          rw [if_neg fun h => absurd rfl h.2]
          exact ih hrest hpiece
      | cons next pieces =>
          by_cases hsame : piece = word
          · obtain rfl := hsame
            rw [if_pos ⟨rfl, List.cons_ne_nil _ _⟩, afterPiece, if_pos rfl,
              List.intercalate_cons_cons, ← List.cons_append, ← List.cons_append,
              List.drop_left' (by simp)]
            rfl
          · rw [if_neg fun h => hsame h.1, afterPiece, if_neg hsame]
            exact ih hrest hpiece

end EvertyDesk
