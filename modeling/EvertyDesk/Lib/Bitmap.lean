import Mathlib.Algebra.BigOperators.Group.List.Basic
import Mathlib.Algebra.GroupWithZero.Nat
import Mathlib.Algebra.Order.Group.Nat
import Mathlib.Data.List.Nodup

/-!
Bitmaps in byte strings, least significant bit first, and how many of their
bits are set.
-/

namespace EvertyDesk

/-- The number of bits set in a byte. -/
def countOnes (byte : UInt8) : Nat := (List.range 8).countP fun bit => byte.toNat.testBit bit

/-- The number of bits set in a bitmap. -/
def popCount (map : List UInt8) : Nat := (map.map countOnes).sum

def setBit (map : List UInt8) (bit : Nat) : List UInt8 :=
  map.modify (bit / 8) fun byte => byte ||| (1 <<< UInt8.ofNat (bit % 8))

def hasBit (map : List UInt8) (bit : Nat) : Bool := (map[bit / 8]?.getD 0).toNat.testBit (bit % 8)

@[simp] theorem setBit_length (map : List UInt8) (bit : Nat) :
    (setBit map bit).length = map.length := by
  simp [setBit]

@[simp] theorem foldl_setBit_length (map : List UInt8) (bits : List Nat) :
    (bits.foldl setBit map).length = map.length := by
  induction bits generalizing map with
  | nil => rfl
  | cons bit bits ih => rw [List.foldl_cons, ih, setBit_length]

private theorem testBit_or_shift (byte : UInt8) {bit : Nat} (hbit : bit < 8) (k : Nat) :
    (byte ||| (1 <<< UInt8.ofNat bit)).toNat.testBit k =
      (byte.toNat.testBit k || decide (k = bit)) := by
  have hmasks : ∀ bit < 8, (1 <<< UInt8.ofNat bit : UInt8).toNat = 2 ^ bit := by
    decide
  have hmask := hmasks bit hbit
  rw [UInt8.toNat_or, hmask, Nat.testBit_or, Nat.testBit_two_pow]
  simp [eq_comm]

theorem hasBit_setBit {map : List UInt8} {bit : Nat} (h : bit < 8 * map.length)
    (k : Nat) : hasBit (setBit map bit) k = (hasBit map k || decide (k = bit)) := by
  have hbyte : bit / 8 < map.length := by omega
  simp only [hasBit, setBit, List.getElem?_modify]
  by_cases hsame : bit / 8 = k / 8
  · simp only [← hsame, List.getElem?_eq_getElem hbyte, if_true, Option.map_eq_map,
      Option.map_some, Option.getD_some]
    rw [testBit_or_shift _ (Nat.mod_lt _ (by decide))]
    congr 2
    apply propext
    omega
  · have hne : k ≠ bit := by
      rintro rfl
      exact hsame rfl
    simp [hsame, hne]

private theorem countP_or_eq {bits : List Nat} {bit : Nat} {p : Nat → Bool}
    (hnodup : bits.Nodup) (hmem : bit ∈ bits) (hnew : p bit = false) :
    bits.countP (fun k => p k || decide (k = bit)) = bits.countP p + 1 := by
  induction bits with
  | nil => cases hmem
  | cons first bits ih =>
      obtain ⟨hfresh, hnodup⟩ := List.nodup_cons.mp hnodup
      rw [List.countP_cons, List.countP_cons]
      by_cases hsame : first = bit
      · subst hsame
        have hrest : bits.countP (fun k => p k || decide (k = first)) = bits.countP p := by
          apply List.countP_congr
          intro k hk
          have hne : k ≠ first := fun heq => hfresh (heq ▸ hk)
          simp [hne]
        simp [hrest, hnew]
      · have hmember : bit ∈ bits := by
          rcases List.mem_cons.mp hmem with heq | hmember
          · exact absurd heq.symm hsame
          · exact hmember
        rw [ih hnodup hmember]
        simp only [hsame, decide_false, Bool.or_false]
        omega

private theorem sum_modify {map : List UInt8} {index : Nat} {f : UInt8 → UInt8}
    (h : index < map.length) (hf : countOnes (f map[index]) = countOnes map[index] + 1) :
    popCount (map.modify index f) = popCount map + 1 := by
  induction map generalizing index with
  | nil => simp at h
  | cons byte map ih =>
      cases index with
      | zero =>
          simp only [List.getElem_cons_zero] at hf
          simp only [popCount, List.modify_zero_cons, List.map_cons, List.sum_cons, hf]
          omega
      | succ index =>
          have hrest := ih (Nat.lt_of_succ_lt_succ h) hf
          simp only [popCount] at hrest
          simp only [popCount, List.modify_succ_cons, List.map_cons, List.sum_cons, hrest]
          omega

/-- A bit that was not set yet counts one more. -/
theorem popCount_setBit {map : List UInt8} {bit : Nat} (h : bit < 8 * map.length)
    (hnew : hasBit map bit = false) : popCount (setBit map bit) = popCount map + 1 := by
  have hbyte : bit / 8 < map.length := by omega
  apply sum_modify hbyte
  rw [hasBit, List.getElem?_eq_getElem hbyte, Option.getD_some] at hnew
  simp only [countOnes, testBit_or_shift _ (Nat.mod_lt bit (by decide : 0 < 8))]
  exact countP_or_eq List.nodup_range (List.mem_range.mpr (Nat.mod_lt _ (by decide))) hnew

/-- A bitmap with one bit set for each of some different numbers counts them. -/
theorem popCount_foldl_setBit {bits : List Nat} {size : Nat} (hnodup : bits.Nodup)
    (hbits : ∀ bit ∈ bits, bit < 8 * size) :
    popCount (bits.foldl setBit (List.replicate size 0)) = bits.length := by
  have hfold : ∀ (bits : List Nat) (map : List UInt8), bits.Nodup → map.length = size →
      (∀ bit ∈ bits, bit < 8 * size ∧ hasBit map bit = false) →
      popCount (bits.foldl setBit map) = popCount map + bits.length := by
    intro bits
    induction bits with
    | nil => exact fun _ _ _ _ => rfl
    | cons bit bits ih =>
        intro map hnodup hsize hfree
        obtain ⟨hfresh, hnodup⟩ := List.nodup_cons.mp hnodup
        obtain ⟨hlt, hclear⟩ := hfree bit List.mem_cons_self
        rw [← hsize] at hlt
        have hcount := popCount_setBit hlt hclear
        rw [List.foldl_cons, ih (setBit map bit) hnodup (by rw [setBit_length, hsize])]
        · rw [hcount, List.length_cons]
          omega
        · intro other hother
          obtain ⟨hinside, hother'⟩ := hfree other (List.mem_cons_of_mem _ hother)
          have hne : other ≠ bit := fun heq => hfresh (heq ▸ hother)
          exact ⟨hinside, by rw [hasBit_setBit hlt, hother']; simp [hne]⟩
  have hzero : ∀ bit, hasBit (List.replicate size 0) bit = false := by
    intro bit
    simp only [hasBit, List.getElem?_replicate]
    split <;> simp
  have hnone : popCount (List.replicate size 0) = 0 := by
    have hbyte : countOnes 0 = 0 := by decide
    simp [popCount, hbyte]
  rw [hfold bits _ hnodup List.length_replicate fun bit hbit => ⟨hbits bit hbit, hzero bit⟩,
    hnone, Nat.zero_add]

@[simp] theorem popCount_append (left right : List UInt8) :
    popCount (left ++ right) = popCount left + popCount right := by
  simp [popCount]

theorem eq_zero_of_countOnes {byte : UInt8} (h : countOnes byte = 0) : byte = 0 := by
  rw [countOnes, List.countP_eq_zero] at h
  rw [← UInt8.toNat_inj]
  apply Nat.eq_of_testBit_eq
  intro bit
  by_cases hbit : bit < 8
  · simpa using h bit (List.mem_range.mpr hbit)
  · have hlt : byte.toNat < 2 ^ bit :=
      Nat.lt_of_lt_of_le byte.toNat_lt (Nat.pow_le_pow_right (by decide) (by omega))
    rw [Nat.testBit_lt_two_pow hlt]
    simp

/-- A bitmap without a bit set. -/
theorem eq_zeros_of_popCount {map : List UInt8} (h : popCount map = 0) :
    map = List.replicate map.length 0 := by
  induction map with
  | nil => rfl
  | cons byte map ih =>
      have hsum : countOnes byte + popCount map = 0 := h
      have hbyte : byte = 0 := eq_zero_of_countOnes (by omega)
      rw [List.length_cons, List.replicate_succ, hbyte, ← ih (by omega)]

end EvertyDesk
