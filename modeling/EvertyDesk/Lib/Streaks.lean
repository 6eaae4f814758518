import Mathlib.Data.List.Basic

/-!
Counting how many items at the end of a history have a property: a counter that goes
up with such an item and back to zero with any other.
-/

namespace EvertyDesk

variable {Item : Type*}

/-- The number of items with the property after the last one without it. -/
def streak (p : Item → Bool) (history : List Item) : Nat := (history.reverse.takeWhile p).length

@[simp] theorem streak_nil (p : Item → Bool) : streak p [] = 0 := rfl

theorem streak_append_singleton (p : Item → Bool) (history : List Item) (item : Item) :
    streak p (history ++ [item]) = if p item then streak p history + 1 else 0 := by
  rw [streak, List.reverse_append, List.reverse_singleton, List.singleton_append,
    List.takeWhile_cons]
  split <;> rfl

theorem streak_le_length (p : Item → Bool) (history : List Item) :
    streak p history ≤ history.length := by
  have hle := (List.takeWhile_prefix p (l := history.reverse)).length_le
  rwa [List.length_reverse] at hle

end EvertyDesk
