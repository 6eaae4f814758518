import EvertyDesk.Lib.Bytes
import EvertyDesk.Lib.Checked
import Mathlib.Data.List.Nodup
import Mathlib.Tactic.Ring

/-!
Rasters: rows of equal length one after the other in one list, as frame buffers
hold them. A row or a rectangle is changed by overwriting parts of the list.
What a loop of such changes comes to is told position by position: every
position lies in one cell (a row, or a tile), and each cell is changed once.
-/

namespace EvertyDesk

variable {Item : Type*}

/-- The items with a part of them overwritten from `start` on. -/
def overwrite (items : List Item) (start : Nat) (part : List Item) : List Item :=
  items.take start ++ part ++ items.drop (start + part.length)

/-- Copy into a slice of the same length. -/
def Checked.write (items : List Item) (start stop : Nat) (part : List Item) : Checked (List Item) :=
  if start ≤ stop ∧ stop ≤ items.length ∧ part.length = stop - start then
    .ok (overwrite items start part)
  else .error .outOfBounds

theorem Checked.write_ok {items part : List Item} {start stop : Nat}
    (hstop : stop ≤ items.length) (hpart : start + part.length = stop) :
    Checked.write items start stop part = .ok (overwrite items start part) :=
  if_pos ⟨by omega, hstop, by omega⟩

theorem overwrite_length {items part : List Item} {start : Nat}
    (h : start + part.length ≤ items.length) :
    (overwrite items start part).length = items.length := by
  simp only [overwrite, List.length_append, List.length_take, List.length_drop]
  omega

theorem overwrite_getElem? {items part : List Item} {start : Nat}
    (h : start + part.length ≤ items.length) (i : Nat) :
    (overwrite items start part)[i]? =
      if start ≤ i ∧ i < start + part.length then part[i - start]? else items[i]? := by
  have htake : (items.take start).length = start := by
    rw [List.length_take]
    omega
  rw [overwrite, List.append_assoc]
  by_cases hbefore : i < start
  · rw [List.getElem?_append_left (by omega), List.getElem?_take_of_lt hbefore, if_neg (by omega)]
  · rw [List.getElem?_append_right (by omega), htake]
    by_cases hin : i < start + part.length
    · rw [List.getElem?_append_left (by omega), if_pos (by omega)]
    · rw [List.getElem?_append_right (by omega), List.getElem?_drop, if_neg (by omega)]
      congr 1
      omega

/-- A part of a row, as positions of the raster. -/
theorem mem_row_iff {stride left right row i : Nat} (hright : right ≤ stride) :
    row * stride + left ≤ i ∧ i < row * stride + right ↔
      i / stride = row ∧ left ≤ i % stride ∧ i % stride < right := by
  constructor
  · rintro ⟨hleft, hlt⟩
    have hrow : i / stride = row := by
      apply Nat.div_eq_of_lt_le
      · omega
      · rw [Nat.succ_mul]
        omega
    have hdiv := Nat.div_add_mod' i stride
    rw [hrow] at hdiv
    exact ⟨hrow, by omega, by omega⟩
  · rintro ⟨rfl, hleft, hlt⟩
    have hdiv := Nat.div_add_mod' i stride
    omega

/-- Rows that have been gathered one after the other are found again. -/
theorem field_gather {row : Nat → List UInt8} {size : Nat} (top : Nat)
    (hrow : ∀ y, (row y).length = size) {count k : Nat} (hk : k < count) :
    field ((List.range' top count).flatMap row) (k * size) size = row (top + k) := by
  induction count generalizing top k with
  | zero => omega
  | succ count ih =>
      rw [List.range'_succ, List.flatMap_cons]
      cases k with
      | zero =>
          rw [Nat.zero_mul]
          exact field_here (hrow top)
      | succ k =>
          have hlong : (row top).length ≤ (k + 1) * size := by
            rw [hrow, Nat.succ_mul]
            omega
          rw [field_skip hlong, hrow, Nat.succ_mul, Nat.add_sub_cancel, ih (top + 1) (by omega)]
          congr 1
          omega

theorem gather_length {row : Nat → List UInt8} {size : Nat} (top count : Nat)
    (hrow : ∀ y, (row y).length = size) :
    ((List.range' top count).flatMap row).length = count * size := by
  induction count generalizing top with
  | zero => simp
  | succ count ih =>
      rw [List.range'_succ, List.flatMap_cons, List.length_append, hrow, ih,
        Nat.succ_mul, Nat.add_comm]

section Overwriting

variable {rows : List Nat} {start : Nat → Nat} {part : List Item → Nat → List Item} {size : Nat}

theorem foldl_overwrite_length {items : List Item}
    (hfits : ∀ items : List Item, items.length = size → ∀ y ∈ rows,
      start y + (part items y).length ≤ size) (hitems : items.length = size) :
    (rows.foldl (fun items y => overwrite items (start y) (part items y)) items).length =
      size := by
  induction rows generalizing items with
  | nil => exact hitems
  | cons y rows ih =>
      have hfirst := hfits items hitems y List.mem_cons_self
      refine ih (fun items hlength other hother =>
        hfits items hlength other (List.mem_cons_of_mem _ hother)) ?_
      exact (overwrite_length (hitems ▸ hfirst)).trans hitems

/-- What a loop overwrites lies in a region, and what it writes depends on that region: the
rest stays, and two lists that agree there agree there afterwards. -/
theorem foldl_overwrite_region {region : Nat → Prop}
    (hfits : ∀ items : List Item, items.length = size → ∀ y ∈ rows,
      start y + (part items y).length ≤ size)
    (hregion : ∀ items : List Item, items.length = size → ∀ y ∈ rows, ∀ i, start y ≤ i →
      i < start y + (part items y).length → region i)
    (hpart : ∀ items others : List Item, items.length = size → others.length = size →
      (∀ i, region i → items[i]? = others[i]?) → ∀ y ∈ rows, part items y = part others y)
    {items others : List Item} (hitems : items.length = size) (hothers : others.length = size)
    (hsame : ∀ i, region i → items[i]? = others[i]?) :
    let write := fun (items : List Item) y => overwrite items (start y) (part items y)
    (∀ i, ¬ region i → (rows.foldl write items)[i]? = items[i]?) ∧
      ∀ i, region i → (rows.foldl write items)[i]? = (rows.foldl write others)[i]? := by
  intro write
  induction rows generalizing items others with
  | nil => exact ⟨fun _ _ => rfl, hsame⟩
  | cons y rows ih =>
      have hroom := hfits items hitems y List.mem_cons_self
      have hroom' := hfits others hothers y List.mem_cons_self
      have heq : part items y = part others y :=
        hpart items others hitems hothers hsame y List.mem_cons_self
      have hnext : (write items y).length = size := (overwrite_length (hitems ▸ hroom)).trans hitems
      have hnext' : (write others y).length = size :=
        (overwrite_length (hothers ▸ hroom')).trans hothers
      have hstep : ∀ i, (write items y)[i]? =
          if start y ≤ i ∧ i < start y + (part items y).length then (part items y)[i - start y]?
          else items[i]? := overwrite_getElem? (hitems ▸ hroom)
      have hstep' : ∀ i, (write others y)[i]? =
          if start y ≤ i ∧ i < start y + (part others y).length then
            (part others y)[i - start y]?
          else others[i]? := overwrite_getElem? (hothers ▸ hroom')
      obtain ⟨houtside, hinside⟩ := ih
        (fun items hlength other hother =>
          hfits items hlength other (List.mem_cons_of_mem _ hother))
        (fun items hlength other hother =>
          hregion items hlength other (List.mem_cons_of_mem _ hother))
        (fun items others hlength hlength' hsame other hother =>
          hpart items others hlength hlength' hsame other (List.mem_cons_of_mem _ hother))
        hnext hnext' (fun i hi => by
          rw [hstep, hstep', heq, hsame i hi])
      refine ⟨fun i hi => ?_, hinside⟩
      rw [List.foldl_cons, houtside i hi, hstep, if_neg]
      rintro ⟨hge, hlt⟩
      exact hi (hregion items hitems y List.mem_cons_self i hge hlt)

end Overwriting

/-- A loop that changes some cells, each of them once: a changed cell holds
what its change makes of the old items, the others are as they were. -/
theorem foldl_cells {Cell : Type*} (cell : Nat → Cell)
    (old new : Nat → Option Item) (paint : List Item → Cell → List Item) {size : Nat}
    {cells : List Cell}
    (hpaint : ∀ items, ∀ c ∈ cells, items.length = size →
      (∀ i, cell i = c → items[i]? = old i) →
      (paint items c).length = size ∧
        ∀ i, (cell i = c → (paint items c)[i]? = new i) ∧
          (cell i ≠ c → (paint items c)[i]? = items[i]?))
    (hnodup : cells.Nodup) {items : List Item} (hsize : items.length = size)
    (hold : ∀ i, cell i ∈ cells → items[i]? = old i) :
    (cells.foldl paint items).length = size ∧
      ∀ i, (cell i ∈ cells → (cells.foldl paint items)[i]? = new i) ∧
        (cell i ∉ cells → (cells.foldl paint items)[i]? = items[i]?) := by
  induction cells generalizing items with
  | nil => exact ⟨hsize, fun i => ⟨by simp, fun _ => rfl⟩⟩
  | cons c cells ih =>
      obtain ⟨hfresh, hnodup⟩ := List.nodup_cons.mp hnodup
      obtain ⟨hlength, hitems⟩ := hpaint items c List.mem_cons_self hsize
        fun i hi => hold i (hi ▸ List.mem_cons_self)
      have hother : ∀ i, cell i ∈ cells → (paint items c)[i]? = old i := by
        intro i hi
        have hne : cell i ≠ c := fun heq => hfresh (heq ▸ hi)
        rw [(hitems i).2 hne]
        exact hold i (List.mem_cons_of_mem _ hi)
      obtain ⟨hdone, hrest⟩ := ih
        (fun items other hmember => hpaint items other (List.mem_cons_of_mem _ hmember))
        hnodup hlength hother
      refine ⟨hdone, fun i => ⟨fun hi => ?_, fun hi => ?_⟩⟩
      · by_cases hlater : cell i ∈ cells
        · exact (hrest i).1 hlater
        · have hthis : cell i = c := by
            rcases List.mem_cons.mp hi with hthis | hlater'
            · exact hthis
            · exact absurd hlater' hlater
          rw [List.foldl_cons, (hrest i).2 hlater]
          exact (hitems i).1 hthis
      · rw [List.mem_cons, not_or] at hi
        rw [List.foldl_cons, (hrest i).2 hi.2]
        exact (hitems i).2 hi.1

/-- A loop that overwrites the same columns of some rows with those of a target,
as far as it finds there what it expects. -/
theorem foldl_rows {stride left right : Nat} {rows : List Nat}
    {part : List UInt8 → Nat → List UInt8} {old target : List UInt8}
    (hleft : left ≤ right) (hright : right ≤ stride) (hnodup : rows.Nodup)
    (hrows : ∀ y ∈ rows, (y + 1) * stride ≤ target.length)
    (hpart : ∀ items, ∀ y ∈ rows, items.length = target.length →
      (∀ i, y * stride + left ≤ i → i < y * stride + right → items[i]? = old[i]?) →
      part items y = field target (y * stride + left) (right - left))
    {items : List UInt8} (hlength : items.length = target.length)
    (hold : ∀ i, i / stride ∈ rows → left ≤ i % stride → i % stride < right → items[i]? = old[i]?) :
    let painted := rows.foldl (fun items y =>
      overwrite items (y * stride + left) (part items y)) items
    painted.length = target.length ∧ ∀ i, painted[i]? =
      if i / stride ∈ rows ∧ left ≤ i % stride ∧ i % stride < right then target[i]?
      else items[i]? := by
  intro painted
  obtain ⟨hdone, hcells⟩ := foldl_cells (fun i => i / stride) (fun i => items[i]?)
    (fun i => if left ≤ i % stride ∧ i % stride < right then target[i]?
      else items[i]?)
    (fun items y => overwrite items (y * stride + left) (part items y))
    (fun current y hy hcurrent hsame => by
      have hend := hrows y hy
      rw [Nat.succ_mul] at hend
      have hrow := hpart current y hy hcurrent (fun i hge hlt => by
        obtain ⟨hi, hcolumn⟩ := (mem_row_iff hright).mp ⟨hge, hlt⟩
        rw [hsame i hi]
        exact hold i (hi ▸ hy) hcolumn.1 hcolumn.2)
      have hsize : (part current y).length = right - left := by
        rw [hrow, field, List.length_take, List.length_drop]
        omega
      have hroom : y * stride + left + (part current y).length ≤ current.length := by
        omega
      refine ⟨(overwrite_length hroom).trans hcurrent, fun i => ?_⟩
      rw [overwrite_getElem? hroom, hsize,
        show y * stride + left + (right - left) = y * stride + right by omega]
      simp only [mem_row_iff hright]
      constructor
      · intro hi
        by_cases hcolumn : left ≤ i % stride ∧ i % stride < right
        · have hdiv := Nat.div_add_mod' i stride
          rw [hi] at hdiv
          rw [if_pos ⟨hi, hcolumn⟩, if_pos hcolumn, hrow, field,
            List.getElem?_take_of_lt (by omega), List.getElem?_drop]
          congr 1
          omega
        · rw [if_neg (fun h => hcolumn h.2), if_neg hcolumn]
          exact hsame i hi
      · intro hi
        rw [if_neg (fun h => hi h.1)])
    hnodup hlength (fun i _ => rfl)
  refine ⟨hdone, fun i => ?_⟩
  by_cases hrow : i / stride ∈ rows
  · rw [(hcells i).1 hrow]
    simp only [hrow, true_and]
  · rw [(hcells i).2 hrow, if_neg (fun h => hrow h.1)]

end EvertyDesk
