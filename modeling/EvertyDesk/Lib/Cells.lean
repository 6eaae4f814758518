import Mathlib.Data.List.Basic
import Mathlib.Data.List.Sort

/-!
Entries that change cells of a list, in different orders. What an entry makes of its cell
depends on that cell alone, so each cell comes out as its own entries leave it, in their
order. A stable sort keeps the entries of one cell in order if they have one key, and it is
told what makes a rearrangement the stable sort by a key.
-/

namespace EvertyDesk

section Painting

variable {Item Cell Entry : Type*} {holds : Cell → Nat → Prop} {cell : Entry → Cell}
variable {paint : List Item → Entry → List Item} {size : Nat}

/-- The entry changes its cell only, and what it makes of the cell depends on the cell
only. -/
structure PaintsCell (holds : Cell → Nat → Prop) (cell : Entry → Cell)
    (paint : List Item → Entry → List Item) (size : Nat) (entry : Entry) : Prop where
  length : ∀ items, items.length = size → (paint items entry).length = size
  outside : ∀ items, items.length = size → ∀ i, ¬ holds (cell entry) i →
    (paint items entry)[i]? = items[i]?
  inside : ∀ items others, items.length = size → others.length = size →
    (∀ i, holds (cell entry) i → items[i]? = others[i]?) →
    ∀ i, holds (cell entry) i → (paint items entry)[i]? = (paint others entry)[i]?

variable [DecidableEq Cell]

end Painting

section Sorting

variable {Item Key : Type*} [LinearOrder Key]

/-- The items from the highest key to the lowest; with one key they stay in order. -/
structure StableDescending (key : Item → Key) (items sorted : List Item) : Prop where
  perm : sorted.Perm items
  descending : sorted.Pairwise fun first second => key second ≤ key first
  stable : ∀ k, sorted.filter (fun item => key item = k) = items.filter fun item => key item = k

/-- The items sorted by key, the highest first. -/
def descending (key : Item → Key) (items : List Item) : List Item :=
  items.mergeSort fun first second => decide (key second ≤ key first)

/-- The order of what the key is read off. -/
theorem StableDescending.map {Read : Type*} {read : Item → Read} {key : Read → Key}
    {items sorted : List Item}
    (h : StableDescending (fun item => key (read item)) items sorted) :
    StableDescending key (items.map read) (sorted.map read) where
  perm := h.perm.map read
  descending := List.pairwise_map.mpr h.descending
  stable k := by
    rw [List.filter_map, List.filter_map]
    exact congrArg _ (h.stable k)

end Sorting

end EvertyDesk
