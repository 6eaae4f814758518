import EvertyDesk.Lib.Checked
import Mathlib.Data.List.Induction
import Mathlib.Logic.Function.Basic

/-!
Loops that fill buffers item by item. A program with several buffers writes to one
position of one of them at a time. If every item it writes is the one that belongs at its
position, and every position is written, the buffers hold what belongs there, in whatever
order it was written and whatever they held before.
-/

namespace EvertyDesk

variable {Name Item Index : Type} [DecidableEq Name]

/-- Several buffers under different names. -/
abbrev Buffers (Name Item : Type) := Name → List Item

structure Write (Name Item : Type) where
  buffer : Name
  position : Nat
  item : Item

namespace Buffers

/-- Write one item into a buffer. -/
def put (buffers : Buffers Name Item) (write : Write Name Item) : Buffers Name Item :=
  Function.update buffers write.buffer ((buffers write.buffer).set write.position write.item)

def putAll (buffers : Buffers Name Item) (writes : List (Write Name Item)) : Buffers Name Item :=
  writes.foldl put buffers

/-- Write one item, inside the buffer only. -/
def write (buffers : Buffers Name Item) (name : Name) (position : Nat) (item : Item) :
    Checked (Buffers Name Item) :=
  if position < (buffers name).length then .ok (buffers.put ⟨name, position, item⟩)
  else .error .outOfBounds

/-- The buffers have these lengths. -/
def Sized (buffers : Buffers Name Item) (size : Name → Nat) : Prop :=
  ∀ name, (buffers name).length = size name

variable {buffers : Buffers Name Item} {size : Name → Nat} {writes : List (Write Name Item)}

theorem Sized.put (h : buffers.Sized size) (write : Write Name Item) :
    (buffers.put write).Sized size := by
  intro name
  by_cases hname : name = write.buffer
  · subst hname
    rw [Buffers.put, Function.update_self, List.length_set]
    exact h _
  · rw [Buffers.put, Function.update_of_ne hname]
    exact h name

theorem Sized.putAll (h : buffers.Sized size) (writes : List (Write Name Item)) :
    (buffers.putAll writes).Sized size := by
  induction writes generalizing buffers with
  | nil => exact h
  | cons write writes ih => exact ih (h.put write)

theorem write_ok {name : Name} {position : Nat} {item : Item} (h : buffers.Sized size)
    (hposition : position < size name) :
    buffers.write name position item = .ok (buffers.put ⟨name, position, item⟩) := by
  apply if_pos
  rw [h name]
  exact hposition

theorem putAll_append (writes others : List (Write Name Item)) :
    buffers.putAll (writes ++ others) = (buffers.putAll writes).putAll others :=
  List.foldl_append

/-- A loop of which every step makes its writes makes all of them. -/
theorem foldlM_putAll {step : Buffers Name Item → Index → Checked (Buffers Name Item)}
    {made : Index → List (Write Name Item)} {indices : List Index}
    (hstep : ∀ buffers : Buffers Name Item, buffers.Sized size → ∀ i ∈ indices,
      step buffers i = .ok (buffers.putAll (made i))) (h : buffers.Sized size) :
    indices.foldlM step buffers = .ok (buffers.putAll (indices.flatMap made)) := by
  induction indices generalizing buffers with
  | nil => rfl
  | cons i indices ih =>
      have hfirst := hstep buffers h i List.mem_cons_self
      have hrest := ih (fun buffers hsized other hother =>
        hstep buffers hsized other (List.mem_cons_of_mem _ hother)) (h.putAll (made i))
      rw [List.foldlM_cons, Checked.bind_ok hfirst, hrest, List.flatMap_cons, putAll_append]

variable {content : Name → Nat → Item}

/-- What is found at a position after one more write. -/
theorem getElem?_put (h : buffers.Sized size) (write : Write Name Item) {name : Name}
    {position : Nat} (hposition : position < size name) :
    (buffers.put write name)[position]? =
      if write.buffer = name ∧ write.position = position then some write.item
      else (buffers name)[position]? := by
  by_cases hname : name = write.buffer
  · subst hname
    have hlength := h write.buffer
    rw [Buffers.put, Function.update_self, List.getElem?_set]
    by_cases hsame : write.position = position
    · rw [if_pos hsame, if_pos (by omega), if_pos ⟨rfl, hsame⟩]
    · rw [if_neg hsame, if_neg fun hboth => hsame hboth.2]
  · rw [Buffers.put, Function.update_of_ne hname, if_neg fun hboth => hname hboth.1.symm]

/-- A position that has been written holds what belongs there. -/
theorem getElem?_putAll
    (hright : ∀ write ∈ writes, write.item = content write.buffer write.position)
    (h : buffers.Sized size) {name : Name} {position : Nat} (hposition : position < size name)
    (hwritten : ∃ write ∈ writes, write.buffer = name ∧ write.position = position) :
    (buffers.putAll writes name)[position]? = some (content name position) := by
  induction writes using List.reverseRecOn with
  | nil =>
      obtain ⟨_, hnone, -⟩ := hwritten
      cases hnone
  | append_singleton writes last ih =>
      rw [putAll_append, putAll, List.foldl_cons, List.foldl_nil,
        getElem?_put (h.putAll writes) last hposition]
      by_cases hlast : last.buffer = name ∧ last.position = position
      · have hitem := hright last (List.mem_append_right _ (List.mem_singleton_self last))
        rw [if_pos hlast, hitem, hlast.1, hlast.2]
      · rw [if_neg hlast]
        apply ih fun write hwrite => hright write (List.mem_append_left _ hwrite)
        obtain ⟨write, hmem, hplace⟩ := hwritten
        rcases List.mem_append.mp hmem with hbefore | hlater
        · exact ⟨write, hbefore, hplace⟩
        · rw [List.mem_singleton.mp hlater] at hplace
          exact absurd hplace hlast

/-- The rule for filling buffers. -/
theorem putAll_eq (hright : ∀ write ∈ writes, write.item = content write.buffer write.position)
    (hall : ∀ name, ∀ position < size name,
      ∃ write ∈ writes, write.buffer = name ∧ write.position = position)
    (h : buffers.Sized size) (name : Name) :
    buffers.putAll writes name = (List.range (size name)).map (content name) := by
  apply List.ext_getElem?
  intro position
  by_cases hposition : position < size name
  · rw [getElem?_putAll hright h hposition (hall name position hposition), List.getElem?_map,
      List.getElem?_range hposition, Option.map_some]
  · have hlength := h.putAll writes name
    rw [List.getElem?_eq_none (by omega), List.getElem?_eq_none]
    rw [List.length_map, List.length_range]
    omega

/-- Two nested loops fill the buffers if each round writes what belongs where it writes,
and every position has its round. What the outer loop prepares for a row does not fail. -/
theorem nested_loops_fill {outer : Buffers Name Item → Nat → Checked (Buffers Name Item)}
    {round : Nat → Buffers Name Item → Nat → Checked (Buffers Name Item)}
    {made : Nat → Nat → List (Write Name Item)} {rows cols : Nat}
    (houter : ∀ buffers : Buffers Name Item, buffers.Sized size → ∀ row < rows,
      outer buffers row = (List.range cols).foldlM (round row) buffers)
    (hround : ∀ buffers : Buffers Name Item, buffers.Sized size → ∀ row < rows, ∀ col < cols,
      round row buffers col = .ok (buffers.putAll (made row col)))
    (hright : ∀ row < rows, ∀ col < cols, ∀ write ∈ made row col,
      write.item = content write.buffer write.position)
    (hall : ∀ name, ∀ position < size name, ∃ row < rows, ∃ col < cols,
      ∃ write ∈ made row col, write.buffer = name ∧ write.position = position)
    (h : buffers.Sized size) :
    (List.range rows).foldlM outer buffers =
      .ok fun name => (List.range (size name)).map (content name) := by
  have hrow : ∀ buffers : Buffers Name Item, buffers.Sized size → ∀ row ∈ List.range rows,
      outer buffers row = .ok (buffers.putAll ((List.range cols).flatMap (made row))) := by
    intro buffers hsized row hmem
    rw [houter buffers hsized row (List.mem_range.mp hmem)]
    apply foldlM_putAll _ hsized
    intro buffers hsized col hcol
    exact hround buffers hsized row (List.mem_range.mp hmem) col (List.mem_range.mp hcol)
  rw [foldlM_putAll hrow h]
  apply congrArg Except.ok
  funext name
  apply putAll_eq _ _ h
  · intro write hwrite
    obtain ⟨row, hrow, hwrite⟩ := List.mem_flatMap.mp hwrite
    obtain ⟨col, hcol, hwrite⟩ := List.mem_flatMap.mp hwrite
    exact hright row (List.mem_range.mp hrow) col (List.mem_range.mp hcol) write hwrite
  · intro name position hposition
    obtain ⟨row, hrow, col, hcol, write, hwrite, hplace⟩ := hall name position hposition
    refine ⟨write, List.mem_flatMap.mpr ⟨row, List.mem_range.mpr hrow, ?_⟩, hplace⟩
    exact List.mem_flatMap.mpr ⟨col, List.mem_range.mpr hcol, hwrite⟩

end Buffers

/-! Places in rows of equal length. -/

theorem place_lt {row rows col cols : Nat} (hrow : row < rows) (hcol : col < cols) :
    row * cols + col < rows * cols := by
  have hle : (row + 1) * cols ≤ rows * cols := Nat.mul_le_mul_right cols hrow
  rw [Nat.succ_mul] at hle
  omega

theorem place_div {row col cols : Nat} (h : col < cols) : (row * cols + col) / cols = row := by
  rw [Nat.mul_comm, Nat.mul_add_div (by omega), Nat.div_eq_of_lt h, Nat.add_zero]

theorem place_mod {row col cols : Nat} (h : col < cols) : (row * cols + col) % cols = col := by
  rw [Nat.mul_add_mod', Nat.mod_eq_of_lt h]

/-- Every place lies in a row. -/
theorem place_split {place rows cols : Nat} (h : place < cols * rows) :
    place / cols < rows ∧ place % cols < cols ∧ place / cols * cols + place % cols = place := by
  have hpos := Nat.pos_of_mul_pos_right (Nat.zero_lt_of_lt h)
  exact ⟨Nat.div_lt_of_lt_mul h, Nat.mod_lt place hpos, Nat.div_add_mod' place cols⟩

theorem place_eq_iff {row col other col' cols : Nat} (h : col < cols) (h' : col' < cols) :
    row * cols + col = other * cols + col' ↔ row = other ∧ col = col' := by
  constructor
  · intro hsame
    have hrow : (row * cols + col) / cols = row := place_div h
    have hcol : (row * cols + col) % cols = col := place_mod h
    rw [hsame, place_div h'] at hrow
    rw [hsame, place_mod h'] at hcol
    exact ⟨hrow.symm, hcol.symm⟩
  · rintro ⟨rfl, rfl⟩
    rfl

end EvertyDesk
