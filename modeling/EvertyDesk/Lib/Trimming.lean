import Mathlib.Data.List.DropRight
import Mathlib.Data.List.TakeWhile

/-!
Lists without the blank items at both ends. A list is its trimmed part between two blank
ones, and the trimmed part neither starts nor ends with a blank.
-/

namespace EvertyDesk

variable {Item : Type*} {blank : Item → Bool} {items : List Item}

def trimBy (blank : Item → Bool) (items : List Item) : List Item :=
  ((items.dropWhile blank).reverse.dropWhile blank).reverse

/-- Neither end is blank. -/
structure Tight (blank : Item → Bool) (items : List Item) : Prop where
  head : ∀ item, items.head? = some item → blank item = false
  last : ∀ item, items.getLast? = some item → blank item = false

theorem dropWhile_tight (h : ∀ item, items.head? = some item → blank item = false) :
    items.dropWhile blank = items := by
  cases items with
  | nil => rfl
  | cons item items => exact List.dropWhile_cons_of_neg (by simp [h item rfl])

theorem trimBy_of_tight (h : Tight blank items) : trimBy blank items = items := by
  rw [trimBy, dropWhile_tight h.head, dropWhile_tight, List.reverse_reverse]
  intro item hitem
  rw [List.head?_reverse] at hitem
  exact h.last item hitem

theorem trimBy_split (blank : Item → Bool) (items : List Item) :
    ∃ front back, items = front ++ trimBy blank items ++ back ∧
      (∀ item ∈ front, blank item = true) ∧ ∀ item ∈ back, blank item = true := by
  refine ⟨items.takeWhile blank, ((items.dropWhile blank).reverse.takeWhile blank).reverse, ?_,
    fun item hitem => List.mem_takeWhile_imp hitem, fun item hitem => ?_⟩
  · rw [trimBy, List.append_assoc, ← List.reverse_append, List.takeWhile_append_dropWhile,
      List.reverse_reverse, List.takeWhile_append_dropWhile]
  · exact List.mem_takeWhile_imp (List.mem_reverse.mp hitem)

theorem dropWhile_head {item : Item} (h : (items.dropWhile blank).head? = some item) :
    blank item = false := by
  have hnot := List.head?_dropWhile_not blank items
  rw [h] at hnot
  exact hnot

theorem trimBy_tight (blank : Item → Bool) (items : List Item) :
    Tight blank (trimBy blank items) := by
  constructor
  · intro item hitem
    obtain ⟨more, hmore⟩ : trimBy blank items <+: items.dropWhile blank :=
      List.rdropWhile_prefix _ _
    have hhead : (items.dropWhile blank).head? = some item := by
      rw [← hmore, List.head?_append, hitem]
      rfl
    exact dropWhile_head hhead
  · intro item hitem
    rw [trimBy, List.getLast?_reverse] at hitem
    exact dropWhile_head hitem

@[simp] theorem trimBy_trimBy (blank : Item → Bool) (items : List Item) :
    trimBy blank (trimBy blank items) = trimBy blank items :=
  trimBy_of_tight (trimBy_tight blank items)

end EvertyDesk
