import Mathlib.Data.List.Basic

/-!
Lists cut at separators. What is put in front of a list or after it belongs to the first
or to the last piece, unless it has separators itself.
-/

namespace EvertyDesk

variable {Item : Type*} {separator : Item → Bool}

theorem splitOnP_clean_append {front : List Item} (h : ∀ item ∈ front, separator item = false)
    {items first : List Item} {rest : List (List Item)}
    (hitems : items.splitOnP separator = first :: rest) :
    (front ++ items).splitOnP separator = (front ++ first) :: rest := by
  induction front with
  | nil => exact hitems
  | cons item front ih =>
      have hrest := ih fun other hother => h other (List.mem_cons_of_mem _ hother)
      rw [List.cons_append, List.splitOnP_cons_eq_if_modifyHead,
        if_neg (by simp [h item List.mem_cons_self]), hrest]
      rfl

theorem splitOnP_append_clean {back : List Item} (h : ∀ item ∈ back, separator item = false)
    (items : List Item) :
    (items ++ back).splitOnP separator =
      (items.splitOnP separator).dropLast ++ [(items.splitOnP separator).getLastD [] ++ back] := by
  induction items with
  | nil => exact List.splitOnP_eq_singleton h
  | cons item items ih =>
      rw [List.cons_append, List.splitOnP_cons_eq_if_modifyHead, ih,
        List.splitOnP_cons_eq_if_modifyHead]
      obtain ⟨first, rest, hpieces⟩ :=
        List.exists_cons_of_ne_nil (List.splitOnP_ne_nil separator items)
      rw [hpieces]
      cases rest with
      | nil => split <;> rfl
      | cons second rest => split <;> rfl

theorem splitOnP_congr {other : Item → Bool} {items : List Item}
    (h : ∀ item ∈ items, separator item = other item) :
    items.splitOnP separator = items.splitOnP other := by
  induction items with
  | nil => rfl
  | cons item items ih =>
      rw [List.splitOnP_cons_eq_if_modifyHead, List.splitOnP_cons_eq_if_modifyHead,
        h item List.mem_cons_self, ih fun later hlater => h later (List.mem_cons_of_mem _ hlater)]

/-- An item is the separator or in a piece. -/
theorem mem_splitOn_of_mem [DecidableEq Item] (between : Item) {item : Item} {items : List Item}
    (h : item ∈ items) : item = between ∨ ∃ piece ∈ items.splitOn between, item ∈ piece := by
  induction items with
  | nil => cases h
  | cons next items ih =>
      obtain ⟨first, rest, hpieces⟩ :=
        List.exists_cons_of_ne_nil (List.splitOn_ne_nil between items)
      rw [hpieces] at ih
      rw [List.splitOn_cons_eq_if_modifyHead, hpieces]
      by_cases hnext : next = between
      · rw [if_pos (beq_iff_eq.mpr hnext)]
        rcases List.mem_cons.mp h with rfl | hlater
        · exact .inl hnext
        · exact (ih hlater).imp_right fun ⟨piece, hpiece, hmem⟩ =>
            ⟨piece, List.mem_cons_of_mem _ hpiece, hmem⟩
      · rw [if_neg (by simpa using hnext), List.modifyHead_cons]
        rcases List.mem_cons.mp h with rfl | hlater
        · exact .inr ⟨_, List.mem_cons_self, List.mem_cons_self⟩
        · refine (ih hlater).imp_right fun ⟨piece, hpiece, hmem⟩ => ?_
          rcases List.mem_cons.mp hpiece with rfl | hrest
          · exact ⟨_, List.mem_cons_self, List.mem_cons_of_mem _ hmem⟩
          · exact ⟨piece, List.mem_cons_of_mem _ hrest, hmem⟩

theorem length_intercalate_map_le {pieces : List (List Item)} {change : List Item → List Item}
    (h : ∀ piece ∈ pieces, (change piece).length ≤ piece.length) (between : List Item) :
    (between.intercalate (pieces.map change)).length ≤ (between.intercalate pieces).length := by
  induction pieces with
  | nil => exact Nat.le_refl _
  | cons piece pieces ih =>
      have hrest := ih fun other hother => h other (List.mem_cons_of_mem _ hother)
      have hfirst := h piece List.mem_cons_self
      cases pieces with
      | nil => simpa using hfirst
      | cons second pieces =>
          simp only [List.map_cons, List.intercalate_cons_cons, List.length_append] at hrest ⊢
          omega

/-- Pieces that were joined at separators are found again. -/
theorem splitOnP_intercalate {between : Item} (hbetween : separator between = true)
    {pieces : List (List Item)} (hsome : pieces ≠ [])
    (hclean : ∀ piece ∈ pieces, ∀ item ∈ piece, separator item = false) :
    ([between].intercalate pieces).splitOnP separator = pieces := by
  induction pieces with
  | nil => exact absurd rfl hsome
  | cons piece pieces ih =>
      obtain ⟨hfirst, hrest⟩ := List.forall_mem_cons.mp hclean
      cases pieces with
      | nil =>
          rw [List.intercalate_singleton]
          exact List.splitOnP_eq_singleton hfirst
      | cons second pieces =>
          rw [List.intercalate_cons_cons, List.append_assoc, List.singleton_append,
            List.splitOnP_append_cons_of_forall_mem hfirst between hbetween,
            ih (List.cons_ne_nil _ _) hrest]

/-- Only separators are lost. -/
theorem flatten_splitOnP (items : List Item) :
    (items.splitOnP separator).flatten = items.filter fun item => !separator item := by
  induction items with
  | nil => rfl
  | cons item items ih =>
      rw [List.splitOnP_cons_eq_if_modifyHead]
      split
      next hseparator => rw [List.filter_cons_of_neg (by simp [hseparator])]; exact ih
      next hclean =>
          obtain ⟨first, rest, hpieces⟩ :=
            List.exists_cons_of_ne_nil (List.splitOnP_ne_nil separator items)
          rw [hpieces, List.flatten_cons] at ih
          rw [hpieces, List.modifyHead_cons, List.flatten_cons, List.cons_append, ih,
            List.filter_cons_of_pos (by simpa using hclean)]

end EvertyDesk
