import Mathlib.Data.Finset.Card
import Mathlib.Data.List.Induction

/-!
Counting the different items of a sequence with no more memory than the last of them.
The count is exact just if equal items stand together.
-/

namespace EvertyDesk.Recount

variable {Item : Type*} {items : List Item} {item : Item}

/-- Between two equal items there is no other. -/
def Gathered (items : List Item) : Prop :=
  ∀ before between after item, items = before ++ item :: (between ++ item :: after) →
    ∀ other ∈ between, other = item

/-- A sequence stays gathered when its items do not come back. -/
theorem gathered_concat :
    Gathered (items ++ [item]) ↔ Gathered items ∧ (item ∈ items → items.getLast? = some item) := by
  constructor
  · intro h
    constructor
    · rintro before between after repeated rfl
      exact h before between (after ++ [item]) repeated (by simp)
    · intro hmember
      obtain ⟨before, between, rfl⟩ := List.append_of_mem hmember
      have hall := h before between [] item (by simp)
      rw [List.getLast?_append_of_ne_nil before (List.cons_ne_nil item between)]
      cases between using List.reverseRecOn with
      | nil => rfl
      | append_singleton between last =>
          rw [← List.cons_append, List.getLast?_concat, hall last (by simp)]
  · rintro ⟨hgathered, hlast⟩ before between after repeated heq
    cases after using List.reverseRecOn with
    | nil =>
        obtain ⟨rfl, hitem⟩ : items = before ++ repeated :: between ∧ item = repeated := by
          have hconcat : items ++ [item] = (before ++ repeated :: between) ++ [repeated] := by
            simpa using heq
          exact ⟨(List.append_inj' hconcat rfl).1,
            List.singleton_inj.mp (List.append_inj' hconcat rfl).2⟩
        subst hitem
        cases between using List.reverseRecOn with
        | nil => simp
        | append_singleton between last =>
            have hback := hlast (by simp)
            rw [← List.cons_append, ← List.append_assoc, List.getLast?_concat] at hback
            rw [Option.some.inj hback] at hgathered ⊢
            have hall := hgathered before between [] item (by simp)
            intro other hother
            rcases List.mem_append.mp hother with hbetween | hend
            · exact hall other hbetween
            · exact List.mem_singleton.mp hend
    | append_singleton after last =>
        have hconcat : items ++ [item] =
            (before ++ repeated :: (between ++ repeated :: after)) ++ [last] := by
          simpa using heq
        exact hgathered before between after repeated (List.append_inj' hconcat rfl).1

variable [DecidableEq Item]

/-- The last item and the count, after one more item. -/
def note (s : Option Item × Nat) (item : Item) : Option Item × Nat :=
  if s.1 = some item then s else (some item, s.2 + 1)

def count (items : List Item) : Nat := (items.foldl note (none, 0)).2

theorem last_foldl (items : List Item) : (items.foldl note (none, 0)).1 = items.getLast? := by
  induction items using List.reverseRecOn with
  | nil => rfl
  | append_singleton items item ih =>
      rw [List.foldl_append, List.foldl_cons, List.foldl_nil, List.getLast?_concat, note]
      split
      · next hsame => exact hsame
      · rfl

theorem count_concat (items : List Item) (item : Item) :
    count (items ++ [item]) =
      if items.getLast? = some item then count items else count items + 1 := by
  rw [count, List.foldl_append, List.foldl_cons, List.foldl_nil, note, last_foldl]
  split <;> rfl

theorem card_concat (items : List Item) (item : Item) :
    (items ++ [item]).toFinset.card =
      if item ∈ items then items.toFinset.card else items.toFinset.card + 1 := by
  have hinsert : (items ++ [item]).toFinset = insert item items.toFinset := by
    ext other
    simp
  rw [hinsert]
  split
  · next hmember =>
      rw [Finset.insert_eq_of_mem (List.mem_toFinset.mpr hmember)]
  · next hnew =>
      exact Finset.card_insert_of_notMem fun hmember => hnew (List.mem_toFinset.mp hmember)

/-- No item is missed. -/
theorem card_le_count (items : List Item) : items.toFinset.card ≤ count items := by
  induction items using List.reverseRecOn with
  | nil => exact Nat.le_refl 0
  | append_singleton items item ih =>
      rw [count_concat, card_concat]
      by_cases hlast : items.getLast? = some item
      · rw [if_pos hlast, if_pos (List.mem_of_getLast? hlast)]
        exact ih
      · rw [if_neg hlast]
        split <;> omega

/-- The count is the number of different items if and only if they are gathered. -/
theorem count_eq_card_iff (items : List Item) :
    count items = items.toFinset.card ↔ Gathered items := by
  induction items using List.reverseRecOn with
  | nil =>
      refine ⟨fun _ => ?_, fun _ => rfl⟩
      intro before between after item heq
      simp at heq
  | append_singleton items item ih =>
      have hle := card_le_count items
      rw [count_concat, card_concat, gathered_concat, ← ih]
      by_cases hlast : items.getLast? = some item
      · rw [if_pos hlast, if_pos (List.mem_of_getLast? hlast)]
        exact ⟨fun h => ⟨h, fun _ => hlast⟩, fun h => h.1⟩
      · rw [if_neg hlast]
        by_cases hmember : item ∈ items
        · rw [if_pos hmember]
          constructor
          · intro hcount
            omega
          · intro h
            exact absurd (h.2 hmember) hlast
        · rw [if_neg hmember, Nat.add_right_cancel_iff]
          exact ⟨fun h => ⟨h, fun hin => absurd hin hmember⟩, fun h => h.1⟩

end EvertyDesk.Recount
