import Mathlib.Data.List.Basic

/-!
Digests that are taken item by item. One that mixes every item in without losing anything
tells lists apart that differ in one place.
-/

namespace EvertyDesk

variable {State Item : Type*}

/-- A step loses neither what came before nor the item. -/
structure Mixes (step : State → Item → State) : Prop where
  state : ∀ s t item, step s item = step t item → s = t
  item : ∀ s item other, step s item = step s other → item = other

/-- Two lists differ in one place only. -/
def DifferInOne (left right : List Item) : Prop :=
  ∃ before item other after, item ≠ other ∧ left = before ++ item :: after ∧
    right = before ++ other :: after

namespace Mixes

variable {step : State → Item → State}

theorem foldl_injective (h : Mixes step) {s t : State} {items : List Item}
    (hsame : items.foldl step s = items.foldl step t) : s = t := by
  induction items generalizing s t with
  | nil => exact hsame
  | cons item items ih => exact h.state s t item (ih hsame)

theorem foldl_ne (h : Mixes step) {left right : List Item} (hdiffer : DifferInOne left right)
    (s : State) : left.foldl step s ≠ right.foldl step s := by
  obtain ⟨before, item, other, after, hne, rfl, rfl⟩ := hdiffer
  rw [List.foldl_append, List.foldl_append, List.foldl_cons, List.foldl_cons]
  intro hsame
  exact hne (h.item _ item other (h.foldl_injective hsame))

end Mixes

end EvertyDesk
