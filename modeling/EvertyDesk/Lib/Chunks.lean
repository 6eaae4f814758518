import Mathlib.Data.List.Basic
import Mathlib.Data.List.Range
import Mathlib.Algebra.Order.Group.Nat

/-!
Cutting a list into consecutive pieces of one size, the last of which may be
shorter, and putting the pieces together again.
-/

namespace EvertyDesk

variable {Item : Type*}

/-- Division rounded up. -/
def divCeil (n size : Nat) : Nat := (n + size - 1) / size

/-- The piece with this index. -/
def chunk (size : Nat) (items : List Item) (index : Nat) : List Item :=
  (items.drop (index * size)).take size

/-- All pieces, in order. -/
def chunks (size : Nat) (items : List Item) : List (List Item) :=
  (List.range (divCeil items.length size)).map (chunk size items)

theorem lt_divCeil {n size index : Nat} (hsize : 0 < size) :
    index < divCeil n size ↔ index * size < n := by
  rw [divCeil, Nat.lt_div_iff_mul_lt hsize]
  omega

@[simp] theorem chunks_length (size : Nat) (items : List Item) :
    (chunks size items).length = divCeil items.length size := by
  simp [chunks]

theorem chunks_getElem? (size : Nat) (items : List Item) (index : Nat) :
    (chunks size items)[index]? =
      if index < divCeil items.length size then some (chunk size items index)
      else none := by
  simp only [chunks, List.getElem?_map]
  split <;> simp_all

theorem chunk_length_le (size : Nat) (items : List Item) (index : Nat) :
    (chunk size items index).length ≤ size := by
  simp [chunk]

theorem mem_chunks_length_le {size : Nat} {items piece : List Item}
    (h : piece ∈ chunks size items) : piece.length ≤ size := by
  obtain ⟨index, _, rfl⟩ := List.mem_map.mp h
  exact chunk_length_le size items index

theorem chunk_length_pos {size index : Nat} {items : List Item}
    (hsize : 0 < size) (h : index < divCeil items.length size) :
    0 < (chunk size items index).length := by
  have := (lt_divCeil hsize).mp h
  simp only [chunk, List.length_take, List.length_drop]
  omega

theorem chunk_getElem? {size index offset : Nat} {items : List Item} (hoffset : offset < size) :
    (chunk size items index)[offset]? = items[index * size + offset]? := by
  rw [chunk, List.getElem?_take_of_lt hoffset, List.getElem?_drop]

/-- The first pieces make up the front of the list. -/
theorem flatten_map_chunk (size : Nat) (items : List Item) (count : Nat) :
    ((List.range count).map (chunk size items)).flatten = items.take (count * size) := by
  induction count with
  | zero => simp
  | succ count ih =>
      rw [List.range_succ, List.map_append, List.flatten_append, ih,
        Nat.add_mul, Nat.one_mul, List.take_add]
      simp [chunk]

/-- The pieces in order make up the list. -/
@[simp] theorem chunks_flatten {size : Nat} (hsize : 0 < size)
    (items : List Item) : (chunks size items).flatten = items := by
  rw [chunks, flatten_map_chunk]
  apply List.take_of_length_le
  by_contra short
  have := (lt_divCeil hsize).mpr (Nat.lt_of_not_le short)
  omega

@[simp] theorem chunks_nil (size : Nat) : chunks size ([] : List Item) = [] := by
  have hnone : divCeil 0 size = 0 := by
    rw [divCeil, Nat.zero_add]
    exact Nat.div_eq_zero_iff.mpr (by omega)
  simp [chunks, hnone]

/-- The first piece, and the pieces of the rest. -/
theorem chunks_of_ne_nil {size : Nat} (hsize : 0 < size) {items : List Item}
    (h : items ≠ []) : chunks size items = items.take size :: chunks size (items.drop size) := by
  have hlength : 0 < items.length := List.length_pos_iff.mpr h
  have hcount : divCeil items.length size = divCeil (items.drop size).length size + 1 := by
    rw [divCeil, divCeil, List.length_drop]
    rcases Nat.lt_or_ge items.length size with hshort | hlong
    · have hone : (items.length + size - 1) / size = 1 := (Nat.div_eq_iff hsize).mpr (by omega)
      have hnone : (items.length - size + size - 1) / size = 0 := Nat.div_eq_zero_iff.mpr (by omega)
      rw [hone, hnone]
    · have hmore : items.length + size - 1 = (items.length - size + size - 1) + size := by
        omega
      rw [hmore, Nat.add_div_right _ hsize]
  have hrest : ∀ index, chunk size items (index + 1) = chunk size (items.drop size) index := by
    intro index
    rw [chunk, chunk, List.drop_drop, Nat.add_mul, Nat.one_mul, Nat.add_comm]
  rw [chunks, hcount, List.range_succ_eq_map, List.map_cons, List.map_map, chunks]
  congr 1
  · simp [chunk]
  · exact List.map_congr_left fun index _ => hrest index

theorem zipIdx_chunks (size : Nat) (items : List Item) :
    (chunks size items).zipIdx =
      (List.range (divCeil items.length size)).map fun i => (chunk size items i, i) := by
  apply List.ext_getElem
  · simp
  · intro index _ _
    simp [chunks]

/-- The pieces of a table are the tables of consecutive arguments. -/
theorem chunk_map_range (size count : Nat) (value : Nat → Item) (index : Nat) :
    chunk size ((List.range count).map value) index =
      (List.range' (index * size) (min size (count - index * size))).map value := by
  have hdrop : (List.range count).drop (index * size) =
      List.range' (index * size) (count - index * size) := by
    rw [List.range_eq_range', List.drop_range', Nat.mul_one, Nat.zero_add]
  rw [chunk, ← List.map_drop, ← List.map_take, hdrop]
  rcases Nat.le_total (count - index * size) size with hshort | hlong
  · rw [List.take_range'_of_length_le hshort, Nat.min_eq_right hshort]
  · rw [List.take_range'_of_length_ge hlong, Nat.min_eq_left hlong]

theorem zipIdx_map_range' (start count : Nat) (value : Nat → Item) :
    ((List.range' start count).map value).zipIdx =
      (List.range' start count).map fun i => (value i, i - start) := by
  apply List.ext_getElem
  · simp
  · intro index _ _
    simp

end EvertyDesk
