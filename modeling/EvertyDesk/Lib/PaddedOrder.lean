import Mathlib.Data.List.GetD
import Mathlib.Data.List.Range
import Mathlib.Order.PiLex

/-!
Lists compared from the front, where the shorter one goes on with a default item. The
first place where they differ decides, so the lists are ordered as sequences are, and two
lists are level if they are the same sequence.
-/

namespace EvertyDesk

variable {Item : Type*} [LinearOrder Item]

/-- The first pair of different items decides. -/
def firstExceeds : List (Item × Item) → Bool
  | [] => false
  | (left, right) :: pairs => if left ≠ right then decide (right < left) else firstExceeds pairs

/-- The items at each index of the longer list. -/
def pairedWith (filler : Item) (left right : List Item) : List (Item × Item) :=
  (List.range (max left.length right.length)).map fun i =>
    (left.getD i filler, right.getD i filler)

/-- The list as a sequence that goes on forever. -/
def padded (filler : Item) (items : List Item) : Lex (Nat → Item) :=
  toLex fun i => items.getD i filler

theorem firstExceeds_range (left right : Nat → Item) (n : Nat) :
    firstExceeds ((List.range n).map fun i => (left i, right i)) = true ↔
      ∃ i < n, (∀ j < i, right j = left j) ∧ right i < left i := by
  induction n generalizing left right with
  | zero => simp [firstExceeds]
  | succ n ih =>
      rw [List.range_succ_eq_map, List.map_cons, List.map_map, firstExceeds]
      by_cases hsame : left 0 = right 0
      · rw [if_neg (not_not.mpr hsame)]
        refine (ih (left ∘ Nat.succ) (right ∘ Nat.succ)).trans ?_
        constructor
        · rintro ⟨i, hi, hbefore, hless⟩
          refine ⟨i + 1, Nat.succ_lt_succ hi, fun j hj => ?_, hless⟩
          cases j with
          | zero => exact hsame.symm
          | succ j => exact hbefore j (Nat.lt_of_succ_lt_succ hj)
        · rintro ⟨i, hi, hbefore, hless⟩
          cases i with
          | zero => exact absurd hsame hless.ne'
          | succ i =>
              exact ⟨i, Nat.lt_of_succ_lt_succ hi,
                fun j hj => hbefore (j + 1) (Nat.succ_lt_succ hj), hless⟩
      · rw [if_pos hsame, decide_eq_true_iff]
        constructor
        · exact fun hless => ⟨0, Nat.succ_pos n, fun j hj => absurd hj (Nat.not_lt_zero j), hless⟩
        · rintro ⟨i, -, hbefore, hless⟩
          cases i with
          | zero => exact hless
          | succ i => exact absurd (hbefore 0 (Nat.succ_pos i)).symm hsame

/-- The comparison is that of the sequences. -/
theorem firstExceeds_paired {filler : Item} {left right : List Item} :
    firstExceeds (pairedWith filler left right) = true ↔
      padded filler right < padded filler left := by
  have hlex : padded filler right < padded filler left ↔
      ∃ i, (∀ j < i, right.getD j filler = left.getD j filler) ∧
        right.getD i filler < left.getD i filler := Iff.rfl
  rw [pairedWith, firstExceeds_range (left.getD · filler) (right.getD · filler), hlex]
  constructor
  · rintro ⟨i, -, hi⟩
    exact ⟨i, hi⟩
  · rintro ⟨i, hbefore, hless⟩
    refine ⟨i, ?_, hbefore, hless⟩
    by_contra hbeyond
    -- beyond both lists there are only fillers
    rw [Nat.not_lt, Nat.max_le] at hbeyond
    rw [List.getD_eq_default _ _ hbeyond.1, List.getD_eq_default _ _ hbeyond.2] at hless
    exact lt_irrefl filler hless

/-- Lists neither of which exceeds the other are the same sequence. -/
theorem padded_eq_of_level {filler : Item} {left right : List Item}
    (h : firstExceeds (pairedWith filler left right) = false)
    (hback : firstExceeds (pairedWith filler right left) = false) :
    padded filler left = padded filler right := by
  rw [← Bool.not_eq_true, firstExceeds_paired] at h hback
  exact le_antisymm (not_lt.mp h) (not_lt.mp hback)

theorem firstExceeds_congr {filler : Item} {left left' right right' : List Item}
    (hleft : padded filler left = padded filler left')
    (hright : padded filler right = padded filler right') :
    firstExceeds (pairedWith filler left right) =
      firstExceeds (pairedWith filler left' right') := by
  rw [Bool.eq_iff_iff, firstExceeds_paired, firstExceeds_paired, hleft, hright]

omit [LinearOrder Item] in
theorem padded_eq_iff {filler : Item} {left right : List Item} :
    padded filler left = padded filler right ↔ ∀ i, left.getD i filler = right.getD i filler :=
  ⟨fun h i => congrFun (congrArg ofLex h) i, fun h => congrArg toLex (funext h)⟩

omit [LinearOrder Item] in
theorem padded_eq_of_length {filler : Item} {left right : List Item}
    (h : left.length = right.length) :
    padded filler left = padded filler right ↔ left = right := by
  rw [padded_eq_iff]
  constructor
  · intro hsame
    apply List.ext_getElem h
    intro i hleft hright
    have hi := hsame i
    rwa [List.getD_eq_getElem _ _ hleft, List.getD_eq_getElem _ _ hright] at hi
  · rintro rfl
    exact fun _ => rfl

/-- Whatever is compared by such a list is ordered up to being level. -/
theorem strictWeakOrder_of_padded {Value : Type*} {exceeds : Value → Value → Prop}
    (filler : Item) (items : Value → List Item)
    (h : ∀ a b, exceeds a b ↔ firstExceeds (pairedWith filler (items a) (items b)) = true) :
    IsStrictWeakOrder Value exceeds := by
  have hlt : ∀ a b, exceeds a b ↔ padded filler (items b) < padded filler (items a) :=
    fun a b => (h a b).trans firstExceeds_paired
  obtain rfl : exceeds = fun a b => padded filler (items b) < padded filler (items a) :=
    funext₂ fun a b => propext (hlt a b)
  exact {
    irrefl := fun a => lt_irrefl _
    trans := fun a b c hab hbc => hbc.trans hab
    incomp_trans := fun a b c hab hbc => by
      have hsame := le_antisymm (not_lt.mp hab.1) (not_lt.mp hab.2)
      rwa [hsame] }

end EvertyDesk
