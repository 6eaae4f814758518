import EvertyDesk.Lib.Chunks
import EvertyDesk.Lib.Raster
import Mathlib.Data.List.Count

/-!
Counting in how many places two lists differ, while the second one is made equal to the
first. The scan goes over lanes of several items at once; a lane that is the same is
skipped, any other one is copied as a whole. A list of which only some places have been
made equal is told place by place.
-/

namespace EvertyDesk

variable {Item : Type*}

section Counting

variable [DecidableEq Item]

/-- The number of places in which two lists of one length differ. -/
def differences (left right : List Item) : Nat :=
  (left.zip right).countP fun pair => pair.1 != pair.2

theorem differences_append {left right left' right' : List Item} (h : left.length = right.length) :
    differences (left ++ left') (right ++ right') =
      differences left right + differences left' right' := by
  rw [differences, List.zip_append h, List.countP_append]
  rfl

@[simp] theorem differences_self (items : List Item) : differences items items = 0 := by
  apply List.countP_eq_zero.mpr
  intro pair hpair
  obtain ⟨i, hi, rfl⟩ := List.mem_iff_getElem.mp hpair
  simp

/-- The places, counted one by one. -/
theorem differences_eq_countP {left right : List Item} (h : left.length = right.length) :
    differences left right = (List.range left.length).countP fun i => left[i]? != right[i]? := by
  induction left generalizing right with
  | nil => rfl
  | cons item left ih =>
      cases right with
      | nil => cases h
      | cons other right =>
          have hrest := ih (Nat.succ.inj h)
          rw [differences] at hrest
          rw [differences, List.zip_cons_cons, List.countP_cons, hrest, List.length_cons,
            List.range_succ_eq_map, List.countP_cons, List.countP_map]
          rfl

/-- The places of a region in which two lists differ. -/
def differencesIn (left right : List Item) (region : Nat → Bool) : Nat :=
  (List.range left.length).countP fun i => region i && left[i]? != right[i]?

theorem differencesIn_congr {left right : List Item} {region other : Nat → Bool}
    (h : ∀ i < left.length, region i = other i) :
    differencesIn left right region = differencesIn left right other := by
  apply List.countP_congr
  intro i hi
  rw [h i (List.mem_range.mp hi)]

theorem differencesIn_none (left right : List Item) :
    differencesIn left right (fun _ => false) = 0 :=
  List.countP_eq_zero.mpr fun _ _ => by simp

/-- Regions without a common place. -/
theorem differencesIn_or {left right : List Item} {region other : Nat → Bool}
    (h : ∀ i, ¬ (region i = true ∧ other i = true)) :
    differencesIn left right (fun i => region i || other i) =
      differencesIn left right region + differencesIn left right other := by
  unfold differencesIn
  induction List.range left.length with
  | nil => rfl
  | cons i places ih =>
      have hboth := h i
      rw [List.countP_cons, List.countP_cons, List.countP_cons, ih]
      rcases Bool.eq_false_or_eq_true (region i) with hregion | hregion
      · have hother : other i = false := Bool.eq_false_iff.mpr fun hother => hboth ⟨hregion, hother⟩
        simp only [hregion, hother, Bool.or_false, Bool.false_and, Bool.false_eq_true, if_false]
        omega
      · simp only [hregion, Bool.false_or, Bool.false_and, Bool.false_eq_true, if_false]
        omega

/-- The places from `start` on, so many of them. -/
def within (start count i : Nat) : Bool := decide (start ≤ i ∧ i < start + count)

theorem differencesIn_within {left right : List Item} {start count : Nat}
    (hlength : left.length = right.length) (hstop : start + count ≤ left.length) :
    differencesIn left right (within start count) =
      differences ((left.drop start).take count) ((right.drop start).take count) := by
  have hparts : List.range left.length = List.range start ++
      (List.range count).map (start + ·) ++
      (List.range (left.length - (start + count))).map (start + count + ·) := by
    rw [← List.range_add, ← List.range_add]
    congr 1
    omega
  have hleft : ((left.drop start).take count).length = count := by
    rw [List.length_take, List.length_drop]
    omega
  have hright : ((right.drop start).take count).length = count := by
    rw [List.length_take, List.length_drop]
    omega
  have hbefore : (List.range start).countP
      (fun i => within start count i && left[i]? != right[i]?) = 0 := by
    apply List.countP_eq_zero.mpr
    intro i hi
    have hlt := List.mem_range.mp hi
    rw [within, decide_eq_false (by omega), Bool.false_and]
    exact Bool.false_ne_true
  have hafter : ((List.range (left.length - (start + count))).map (start + count + ·)).countP
      (fun i => within start count i && left[i]? != right[i]?) = 0 := by
    apply List.countP_eq_zero.mpr
    intro i hi
    obtain ⟨j, -, rfl⟩ := List.mem_map.mp hi
    rw [within, decide_eq_false (by omega), Bool.false_and]
    exact Bool.false_ne_true
  rw [differencesIn, hparts, List.countP_append, List.countP_append, hbefore, hafter,
    differences_eq_countP (hleft.trans hright.symm), hleft, List.countP_map, Nat.zero_add,
    Nat.add_zero]
  apply List.countP_congr
  intro i hi
  have hlt := List.mem_range.mp hi
  rw [Function.comp, within, decide_eq_true (by omega), Bool.true_and,
    List.getElem?_take_of_lt hlt, List.getElem?_take_of_lt hlt, List.getElem?_drop,
    List.getElem?_drop]

end Counting

/-! Scanning. -/

section Scanning

variable (size : Nat) (differs : List Item → List Item → Bool)
  (count : List Item → List Item → Nat) (cur : List Item)

/-- One lane: what has been counted before it, and the list that is made equal. -/
def scanLane (scanned : Nat × List Item) (lane : Nat) : Nat × List Item :=
  let now := chunk size cur lane
  let before := chunk size scanned.2 lane
  if differs now before then
    (scanned.1 + count now before, overwrite scanned.2 (lane * size) now)
  else scanned

/-- All whole lanes. -/
def scanLanes (prev : List Item) : Nat × List Item :=
  (List.range (cur.length / size)).foldl (scanLane size differs count cur) (0, prev)

/-- All whole lanes, and another scan for what is left. -/
def scanLanesThen (rest : List Item → List Item → Nat × List Item) (prev : List Item) :
    Nat × List Item :=
  let start := cur.length / size * size
  let scanned := scanLanes size differs count cur prev
  let tail := rest (cur.drop start) (scanned.2.drop start)
  (scanned.1 + tail.1, scanned.2.take start ++ tail.2)

end Scanning

section Laws

variable [DecidableEq Item] {size : Nat} {differs : List Item → List Item → Bool}
  {count : List Item → List Item → Nat}

/-- What is left alone is the same, and the count of a lane is right. -/
def CountsLanes (size : Nat) (differs : List Item → List Item → Bool)
    (count : List Item → List Item → Nat) : Prop :=
  ∀ now before : List Item, now.length = size → before.length = size →
    (differs now before = false → now = before) ∧
      (differs now before = true → count now before = differences now before)

/-- A scan counts the differences and leaves nothing different. -/
def Scans (scan : List Item → List Item → Nat × List Item) : Prop :=
  ∀ cur prev : List Item, cur.length = prev.length → scan cur prev = (differences cur prev, cur)

theorem scanLane_eq (hlanes : CountsLanes size differs count) {cur prev : List Item}
    (hlength : cur.length = prev.length) {lane : Nat} (hroom : (lane + 1) * size ≤ cur.length) :
    scanLane size differs count cur
        (differences (cur.take (lane * size)) (prev.take (lane * size)),
          cur.take (lane * size) ++ prev.drop (lane * size)) lane =
      (differences (cur.take ((lane + 1) * size)) (prev.take ((lane + 1) * size)),
        cur.take ((lane + 1) * size) ++ prev.drop ((lane + 1) * size)) := by
  have hstop : (lane + 1) * size = lane * size + size := Nat.succ_mul lane size
  have hfront : (cur.take (lane * size)).length = lane * size := by
    rw [List.length_take]
    omega
  have hfront' : (prev.take (lane * size)).length = lane * size := by
    rw [List.length_take]
    omega
  have hnow : (chunk size cur lane).length = size := by
    rw [chunk, List.length_take, List.length_drop]
    omega
  have hbefore : (chunk size prev lane).length = size := by
    rw [chunk, List.length_take, List.length_drop]
    omega
  have hchunk : chunk size (cur.take (lane * size) ++ prev.drop (lane * size)) lane =
      chunk size prev lane := by
    rw [chunk, List.drop_left' hfront, chunk]
  have hcounted : differences (cur.take ((lane + 1) * size)) (prev.take ((lane + 1) * size)) =
      differences (cur.take (lane * size)) (prev.take (lane * size)) +
        differences (chunk size cur lane) (chunk size prev lane) := by
    rw [hstop, List.take_add, List.take_add, differences_append (hfront.trans hfront'.symm)]
    rfl
  have hcopied : cur.take ((lane + 1) * size) ++ prev.drop ((lane + 1) * size) =
      cur.take (lane * size) ++ chunk size cur lane ++ prev.drop (lane * size + size) := by
    rw [hstop, List.take_add]
    rfl
  obtain ⟨hsame, hcount⟩ := hlanes _ _ hnow hbefore
  rw [scanLane]
  dsimp only
  rw [hchunk, hcounted, hcopied]
  cases hdiffers : differs (chunk size cur lane) (chunk size prev lane) with
  | false =>
      rw [if_neg Bool.false_ne_true, hsame hdiffers, differences_self, Nat.add_zero,
        List.append_assoc, chunk, ← List.drop_drop, List.take_append_drop]
  | true =>
      rw [if_pos rfl, hcount hdiffers, overwrite, List.take_left' hfront, List.drop_append, hfront,
        List.drop_of_length_le (by omega), List.nil_append, List.drop_drop, hnow,
        Nat.add_sub_cancel_left]

theorem scanLanes_eq (hlanes : CountsLanes size differs count) {cur prev : List Item}
    (hlength : cur.length = prev.length) :
    scanLanes size differs count cur prev =
      (differences (cur.take (cur.length / size * size)) (prev.take (cur.length / size * size)),
        cur.take (cur.length / size * size) ++ prev.drop (cur.length / size * size)) := by
  have hlanesTo : ∀ lanes, lanes * size ≤ cur.length →
      (List.range lanes).foldl (scanLane size differs count cur) (0, prev) =
        (differences (cur.take (lanes * size)) (prev.take (lanes * size)),
          cur.take (lanes * size) ++ prev.drop (lanes * size)) := by
    intro lanes
    induction lanes with
    | zero =>
        intro _
        rw [Nat.zero_mul]
        rfl
    | succ lane ih =>
        intro hroom
        have hbefore : lane * size ≤ (lane + 1) * size := Nat.mul_le_mul_right size (by omega)
        rw [List.range_succ, List.foldl_append, ih (by omega)]
        exact scanLane_eq hlanes hlength hroom
  exact hlanesTo _ (Nat.div_mul_le_self _ _)

/-- A scan of the lanes, and one of the rest after it, are one of the whole. -/
theorem scanLanesThen_scans (hlanes : CountsLanes size differs count)
    {rest : List Item → List Item → Nat × List Item} (hrest : Scans rest) :
    Scans fun cur prev => scanLanesThen size differs count cur rest prev := by
  intro cur prev hlength
  have hstart := Nat.div_mul_le_self cur.length size
  have hfront : (cur.take (cur.length / size * size)).length = cur.length / size * size := by
    rw [List.length_take]
    omega
  have htail : (cur.drop (cur.length / size * size)).length =
      (prev.drop (cur.length / size * size)).length := by
    rw [List.length_drop, List.length_drop, hlength]
  have hboth : (cur.take (cur.length / size * size)).length =
      (prev.take (cur.length / size * size)).length := by
    rw [List.length_take, List.length_take, hlength]
  simp only [scanLanesThen, scanLanes_eq hlanes hlength, List.drop_left' hfront,
    List.take_left' hfront, hrest _ _ htail, List.take_append_drop]
  rw [← differences_append hboth, List.take_append_drop, List.take_append_drop]

end Laws

/-! Lists of which some places have been made equal. -/

/-- The places of the region are those of one list, the others those of another. -/
structure Merged (cur old items : List Item) (region : Nat → Bool) : Prop where
  length : items.length = cur.length
  done : ∀ i, region i = true → items[i]? = cur[i]?
  left : ∀ i, region i = false → items[i]? = old[i]?

namespace Merged

variable {cur old items : List Item} {region : Nat → Bool} {start count : Nat}

theorem none (h : old.length = cur.length) : Merged cur old old fun _ => false where
  length := h
  done _ hregion := absurd hregion Bool.false_ne_true
  left _ _ := rfl

theorem congr {other : Nat → Bool} (h : Merged cur old items region)
    (hsame : ∀ i < cur.length, region i = other i) (hold : old.length = cur.length) :
    Merged cur old items other where
  length := h.length
  done i hi := by
    rcases Nat.lt_or_ge i cur.length with hlt | hge
    · exact h.done i ((hsame i hlt).trans hi)
    · have hlength := h.length
      rw [List.getElem?_eq_none (by omega), List.getElem?_eq_none hge]
  left i hi := by
    rcases Nat.lt_or_ge i cur.length with hlt | hge
    · exact h.left i ((hsame i hlt).trans hi)
    · have hlength := h.length
      rw [List.getElem?_eq_none (by omega), List.getElem?_eq_none (by omega)]

/-- Everything has been made equal. -/
theorem eq_of_all (h : Merged cur old items region)
    (hall : ∀ i < cur.length, region i = true) : items = cur := by
  apply List.ext_getElem?
  intro i
  rcases Nat.lt_or_ge i cur.length with hlt | hge
  · exact h.done i (hall i hlt)
  · have hlength := h.length
    rw [List.getElem?_eq_none (by omega), List.getElem?_eq_none hge]

/-- A part that has not been reached is the old one. -/
theorem part_eq (h : Merged cur old items region)
    (hnew : ∀ i, start ≤ i → i < start + count → region i = false) :
    (items.drop start).take count = (old.drop start).take count := by
  apply List.ext_getElem?
  intro i
  rcases Nat.lt_or_ge i count with hlt | hge
  · rw [List.getElem?_take_of_lt hlt, List.getElem?_take_of_lt hlt, List.getElem?_drop,
      List.getElem?_drop]
    exact h.left _ (hnew _ (by omega) (by omega))
  · rw [List.getElem?_take_eq_none hge, List.getElem?_take_eq_none hge]

/-- One more part is copied. -/
theorem copy (h : Merged cur old items region) (hstop : start + count ≤ cur.length) :
    Merged cur old (overwrite items start ((cur.drop start).take count)) fun i =>
      region i || within start count i := by
  have hpart : ((cur.drop start).take count).length = count := by
    rw [List.length_take, List.length_drop]
    omega
  have hroom : start + ((cur.drop start).take count).length ≤ items.length := by
    rw [hpart, h.length]
    exact hstop
  have hcell := overwrite_getElem? hroom
  rw [hpart] at hcell
  constructor
  · rw [overwrite_length hroom, h.length]
  · intro i hi
    rw [hcell]
    split
    · rw [List.getElem?_take_of_lt (by omega), List.getElem?_drop]
      congr 1
      omega
    · rename_i hout
      rw [within, decide_eq_false hout, Bool.or_false] at hi
      exact h.done i hi
  · intro i hi
    obtain ⟨hregion, hout⟩ := Bool.or_eq_false_iff.mp hi
    rw [hcell, if_neg (of_decide_eq_false hout)]
    exact h.left i hregion

end Merged

/-! Lists filled in order. -/

/-- The first `k` items are new. -/
def filled (size : Nat) (new old : Nat → Item) (k : Nat) : List Item :=
  (List.range size).map fun i => if i < k then new i else old i

section Filled

variable {size k : Nat} {new old : Nat → Item}

theorem filled_zero : filled size new old 0 = (List.range size).map old := by
  apply List.map_congr_left
  intro i _
  exact if_neg (Nat.not_lt_zero i)

theorem filled_all : filled size new old size = (List.range size).map new := by
  apply List.map_congr_left
  intro i hi
  exact if_pos (List.mem_range.mp hi)

theorem filled_index (hk : k < size) : Checked.index (filled size new old k) k = .ok (old k) := by
  rw [Checked.index, filled, List.getElem?_map, List.getElem?_range hk, Option.map_some,
    if_neg (Nat.lt_irrefl k)]

theorem filled_replace (hk : k < size) :
    Checked.replace (filled size new old k) k (new k) = .ok (filled size new old (k + 1)) := by
  rw [Checked.replace_ok (by rwa [filled, List.length_map, List.length_range])]
  congr 1
  apply List.ext_getElem?
  intro i
  rw [filled, filled, List.getElem?_set, List.getElem?_map, List.getElem?_map, List.length_map,
    List.length_range]
  by_cases hi : k = i
  · subst hi
    rw [if_pos rfl, if_pos hk, List.getElem?_range hk, Option.map_some, if_pos (Nat.lt_succ_self k)]
  · have hsame : i < k + 1 ↔ i < k := by omega
    rw [if_neg hi]
    rcases Nat.lt_or_ge i size with hlt | hge
    · rw [List.getElem?_range hlt, Option.map_some, Option.map_some, if_congr hsame rfl rfl]
    · rw [List.getElem?_eq_none (by rwa [List.length_range])]
      rfl

end Filled

end EvertyDesk
