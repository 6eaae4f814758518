import Mathlib.Data.Nat.Bitwise
import Mathlib.Data.Nat.Size
import Mathlib.Data.Nat.Factorization.Basic
import Mathlib.Data.Nat.ModEq
import Mathlib.Data.ZMod.Units
import Mathlib.Tactic.LinearCombination

/-!
A number that is xored with a mask, and the same number a step later. Two numbers that
agree on a modulus after the mask need not agree there after the step, if the mask reaches
above the power of two in the modulus and the step below the top of the mask: an odd
modulus does not see which bits the mask has turned.
-/

namespace EvertyDesk

variable {mask : Nat}

theorem xor_add_two_mul_and (x mask : Nat) : (x ^^^ mask) + 2 * (x &&& mask) = x + mask := by
  induction x using Nat.strong_induction_on generalizing mask with
  | _ x ih =>
      rcases Nat.eq_zero_or_pos x with rfl | hpos
      · simp
      · have hhalf := ih (x / 2) (Nat.div_lt_self hpos (by norm_num)) (mask / 2)
        have hxor := Nat.xor_div_two_pow (a := x) (b := mask) (n := 1)
        have hand := Nat.and_div_two (a := x) (b := mask)
        have hxor0 := Nat.xor_mod_two_eq (m := x) (n := mask)
        have hand0 := Nat.and_mod_two_eq_one (a := x) (b := mask)
        rw [pow_one] at hxor
        rw [← hxor, ← hand] at hhalf
        omega

/-- Only the bits below the top of the mask matter. -/
theorem and_congr_mask {x y bits : Nat} (hmask : mask < 2 ^ bits)
    (h : x ≡ y [MOD 2 ^ bits]) : x &&& mask = y &&& mask := by
  have hlow : ∀ z, z &&& mask = (z % 2 ^ bits) &&& mask := by
    intro z
    calc z &&& mask = (z &&& mask) % 2 ^ bits :=
          (Nat.mod_eq_of_lt (Nat.and_lt_two_pow z hmask)).symm
      _ = (z % 2 ^ bits) &&& mask := by
          rw [Nat.and_mod_two_pow, Nat.mod_eq_of_lt hmask]
  rw [hlow x, hlow y, h]

theorem xor_congr_mask {x y bits : Nat} (h : x ≡ y [MOD 2 ^ bits]) :
    (x ^^^ mask) ≡ (y ^^^ mask) [MOD 2 ^ bits] := by
  rw [Nat.ModEq, Nat.xor_mod_two_pow, Nat.xor_mod_two_pow, h]

/-- An odd multiple of the top bit of the mask has that bit of the mask, and no other. -/
theorem top_and_mask {top odd : Nat} (hsize : mask.size = top + 1) (hodd : Odd odd) :
    2 ^ top * odd &&& mask = 2 ^ top := by
  have hlow : 2 ^ top ≤ mask := Nat.lt_size.mp (by omega)
  have hlt : mask < 2 ^ (top + 1) := Nat.size_le.mp hsize.le
  have hsame : 2 ^ top * odd ≡ 2 ^ top [MOD 2 ^ (top + 1)] := by
    obtain ⟨half, rfl⟩ := hodd
    have hsplit : 2 ^ top * (2 * half + 1) = 2 ^ top + 2 ^ (top + 1) * half := by ring
    rw [hsplit, Nat.ModEq, Nat.add_mul_mod_self_left]
  have hbit : mask.testBit top = true := by
    have hone : mask / 2 ^ top = 1 := by
      rw [pow_succ] at hlt
      exact Nat.div_eq_of_lt_le (by omega) (by omega)
    rw [Nat.testBit_eq_decide_div_mod_eq, hone]
    rfl
  rw [and_congr_mask hlt hsame, Nat.two_pow_and, hbit, Bool.toNat_true, mul_one]

section

variable {modulus : Nat}

theorem isUnit_two (hodd : Odd modulus) : IsUnit (2 : ZMod modulus) := by
  have hcast : ((2 : Nat) : ZMod modulus) = 2 := by norm_cast
  rw [← hcast, ZMod.isUnit_iff_coprime]
  exact hodd.coprime_two_left

/-- If a step of the number changes what the mask has of it always by the same, seen by an
odd modulus, then the step does not change it at all. -/
theorem dvd_of_and_step {step : Nat} (hodd : Odd modulus) (hone : 1 < modulus)
    {change : ZMod modulus}
    (h : ∀ x : Nat, (((x + step) &&& mask : Nat) : ZMod modulus) =
      ((x &&& mask : Nat) : ZMod modulus) + change) :
    2 ^ mask.size ∣ step := by
  have : Fact (1 < modulus) := ⟨hone⟩
  have hrun : ∀ times : Nat, ((times * step &&& mask : Nat) : ZMod modulus) = times * change := by
    intro times
    induction times with
    | zero => simp
    | succ times ih =>
        rw [Nat.add_one_mul, h, ih]
        push_cast
        ring
  -- After a full turn the mask has nothing of the number again.
  have hstill : change = 0 := by
    have hturn : 2 ^ mask.size * step &&& mask = 0 := by
      rw [and_congr_mask (Nat.lt_size_self mask)
        (Nat.modEq_zero_iff_dvd.mpr (Dvd.intro step rfl)), Nat.zero_and]
    have hzero := hrun (2 ^ mask.size)
    rw [hturn] at hzero
    push_cast at hzero
    exact ((isUnit_two hodd).pow mask.size).mul_right_eq_zero.mp hzero.symm
  rcases eq_or_ne step 0 with rfl | hstep
  · exact dvd_zero _
  obtain ⟨place, odd, hoddpart, rfl⟩ := Nat.exists_eq_two_pow_mul_odd hstep
  by_contra hdvd
  have hlt : place < mask.size := by
    by_contra hge
    exact hdvd ((pow_dvd_pow 2 (Nat.not_lt.mp hge)).mul_right odd)
  obtain ⟨rest, hsize⟩ := Nat.exists_eq_add_of_lt hlt
  -- This many steps move the number by an odd multiple of the top bit.
  have htop := hrun (2 ^ rest)
  have hmul : 2 ^ rest * (2 ^ place * odd) = 2 ^ (place + rest) * odd := by ring
  rw [hstill, mul_zero, hmul, top_and_mask hsize hoddpart] at htop
  push_cast at htop
  exact ((isUnit_two hodd).pow (place + rest)).ne_zero htop

theorem xor_cast (x mask : Nat) : ((x ^^^ mask : Nat) : ZMod modulus) =
    x + mask - 2 * ((x &&& mask : Nat) : ZMod modulus) := by
  have hcast : (((x ^^^ mask) + 2 * (x &&& mask) : Nat) : ZMod modulus) = ((x + mask : Nat) :) :=
    congrArg _ (xor_add_two_mul_and x mask)
  push_cast at hcast
  rw [← hcast, add_sub_cancel_right]

end

/-- What the number under the mask leaves on the first modulus settles what it leaves on
the second one a step later. -/
def Determines (mask step modulus later : Nat) : Prop :=
  ∀ x y, (x ^^^ mask) ≡ (y ^^^ mask) [MOD modulus] →
    ((x + step) ^^^ mask) ≡ ((y + step) ^^^ mask) [MOD later]

section

variable {step low low' odd odd' : Nat}

/-- A mask below the power of two turns only bits that the modulus sees. -/
theorem determines_of_lt (hmask : mask < 2 ^ low) (hlow : low' ≤ low) (hdvd : odd' ∣ odd) :
    Determines mask step (2 ^ low * odd) (2 ^ low' * odd') := by
  intro x y h
  have hbits : x ≡ y [MOD 2 ^ low] := by
    have hlowbits := @xor_congr_mask mask _ _ _ (h.of_mul_right odd)
    rwa [Nat.xor_assoc, Nat.xor_self, Nat.xor_zero, Nat.xor_assoc, Nat.xor_self,
      Nat.xor_zero] at hlowbits
  have hsame : x ≡ y [MOD 2 ^ low * odd] := by
    rw [← ZMod.natCast_eq_natCast_iff] at h ⊢
    rw [xor_cast, xor_cast, and_congr_mask hmask hbits] at h
    exact add_right_cancel (sub_left_injective h)
  have hlater : ((x + step) ^^^ mask) ≡ ((y + step) ^^^ mask) [MOD 2 ^ low * odd] := by
    have hstep : (x + step) &&& mask = (y + step) &&& mask :=
      and_congr_mask hmask (hbits.add_right step)
    rw [← ZMod.natCast_eq_natCast_iff] at hsame ⊢
    rw [xor_cast, xor_cast, hstep]
    push_cast
    rw [hsame]
  exact hlater.of_dvd (mul_dvd_mul (pow_dvd_pow 2 hlow) hdvd)

/-- A step above the mask does not touch the bits that it turns. -/
theorem determines_of_dvd {modulus later : Nat} (hstep : 2 ^ mask.size ∣ step)
    (hdvd : later ∣ modulus) : Determines mask step modulus later := by
  have hshift : ∀ x, (x + step) ^^^ mask = (x ^^^ mask) + step := by
    intro x
    have hsame : (x + step) &&& mask = x &&& mask :=
      and_congr_mask (Nat.lt_size_self mask) ((Nat.modEq_zero_iff_dvd.mpr hstep).add_left x)
    have hbefore := xor_add_two_mul_and x mask
    have hafter := xor_add_two_mul_and (x + step) mask
    rw [hsame] at hafter
    omega
  intro x y h
  rw [hshift, hshift]
  exact (h.of_dvd hdvd).add_right step

/-- Under the mask the number can leave nothing on an odd modulus, whatever its bits below
the top of the mask are. -/
theorem exists_clear (hodd : Odd odd) (x mask : Nat) :
    ∃ u, u ≡ x [MOD 2 ^ mask.size] ∧ (u ^^^ mask) ≡ 0 [MOD odd] := by
  have hcoprime : (2 ^ mask.size).Coprime odd := hodd.coprime_two_left.pow_left _
  obtain ⟨v, hbits, hclear⟩ := Nat.chineseRemainder hcoprime (x ^^^ mask) 0
  have hback : ∀ z, z ^^^ mask ^^^ mask = z := by
    intro z
    rw [Nat.xor_assoc, Nat.xor_self, Nat.xor_zero]
  refine ⟨v ^^^ mask, ?_, ?_⟩
  · have hturned := @xor_congr_mask mask _ _ _ hbits
    rwa [hback] at hturned
  · rwa [hback]

theorem and_split (x mask low : Nat) : x &&& mask =
    2 ^ low * (x / 2 ^ low &&& mask / 2 ^ low) + (x % 2 ^ low &&& mask % 2 ^ low) := by
  rw [← Nat.and_div_two_pow, ← Nat.and_mod_two_pow, Nat.div_add_mod]

/-- What the step changes of the masked number is settled by the bits that the modulus
sees. -/
theorem and_step_congr (hodd : Odd odd) (hdvd : odd' ∣ odd) (hmask : 2 ^ low ≤ mask)
    (h : Determines mask step (2 ^ low * odd) (2 ^ low' * odd')) {x y : Nat}
    (hxy : x ≡ y [MOD 2 ^ low]) :
    (((x + step) &&& mask : Nat) : ZMod odd') - ((x &&& mask : Nat) : ZMod odd') =
      (((y + step) &&& mask : Nat) : ZMod odd') - ((y &&& mask : Nat) : ZMod odd') := by
  have hlow : low ≤ mask.size := (Nat.lt_size.mpr hmask).le
  have hlt := Nat.lt_size_self mask
  obtain ⟨u, hu, huclear⟩ := exists_clear hodd x mask
  obtain ⟨v, hv, hvclear⟩ := exists_clear hodd y mask
  have huv : (u ^^^ mask) ≡ (v ^^^ mask) [MOD 2 ^ low * odd] := by
    rw [← Nat.modEq_and_modEq_iff_modEq_mul (hodd.coprime_two_left.pow_left low)]
    have hbits : u ≡ v [MOD 2 ^ low] :=
      ((hu.of_dvd (pow_dvd_pow 2 hlow)).trans hxy).trans (hv.of_dvd (pow_dvd_pow 2 hlow)).symm
    exact ⟨xor_congr_mask hbits, huclear.trans hvclear.symm⟩
  have hnow := huv.of_dvd (hdvd.mul_left (2 ^ low))
  have hlater := (h u v huv).of_dvd (Dvd.intro_left (2 ^ low') rfl)
  rw [← ZMod.natCast_eq_natCast_iff, xor_cast, xor_cast] at hnow hlater
  rw [and_congr_mask hlt (hu.symm.add_right step), and_congr_mask hlt hu.symm,
    and_congr_mask hlt (hv.symm.add_right step), and_congr_mask hlt hv.symm]
  have htwice : (2 : ZMod odd') * ((((u + step) &&& mask : Nat) : ZMod odd') -
        ((u &&& mask : Nat) : ZMod odd')) =
      2 * ((((v + step) &&& mask : Nat) : ZMod odd') - ((v &&& mask : Nat) : ZMod odd')) := by
    push_cast at hlater
    linear_combination hnow - hlater
  exact (isUnit_two (hodd.of_dvd_nat hdvd)).mul_left_cancel htwice

/-- The bits above the power of two are moved by no carry from below that the mask lets
show. -/
theorem dvd_carry (hodd : Odd odd) (hone : 1 < odd') (hdvd : odd' ∣ odd) (hmask : 2 ^ low ≤ mask)
    (h : Determines mask step (2 ^ low * odd) (2 ^ low' * odd')) {part : Nat}
    (hpart : part < 2 ^ low) :
    2 ^ (mask / 2 ^ low).size ∣ (part + step) / 2 ^ low := by
  have hodd' : Odd odd' := hodd.of_dvd_nat hdvd
  have hpos : 0 < 2 ^ low := Nat.two_pow_pos low
  have hbefore : ∀ x, (2 ^ low * x + part) &&& mask =
      2 ^ low * (x &&& mask / 2 ^ low) + (part &&& mask % 2 ^ low) := by
    intro x
    rw [and_split _ mask low, Nat.mul_add_div hpos, Nat.div_eq_of_lt hpart,
      Nat.mul_add_mod, Nat.mod_eq_of_lt hpart, add_zero]
  have hafter : ∀ x, (2 ^ low * x + part + step) &&& mask =
      2 ^ low * (x + (part + step) / 2 ^ low &&& mask / 2 ^ low) +
        ((part + step) % 2 ^ low &&& mask % 2 ^ low) := by
    intro x
    rw [and_split _ mask low, Nat.add_assoc, Nat.mul_add_div hpos, Nat.mul_add_mod]
  have hsame : ∀ x : Nat,
      (((x + (part + step) / 2 ^ low) &&& mask / 2 ^ low : Nat) : ZMod odd') =
        ((x &&& mask / 2 ^ low : Nat) : ZMod odd') +
          (((0 + (part + step) / 2 ^ low) &&& mask / 2 ^ low : Nat) : ZMod odd') := by
    intro x
    have hxy : 2 ^ low * x + part ≡ 2 ^ low * 0 + part [MOD 2 ^ low] := by
      rw [Nat.ModEq, Nat.mul_add_mod, Nat.mul_add_mod]
    have hstep := and_step_congr hodd hdvd hmask h hxy
    rw [hbefore, hbefore, hafter, hafter, Nat.zero_and] at hstep
    push_cast at hstep
    refine ((isUnit_two hodd').pow low).mul_left_cancel ?_
    linear_combination hstep
  exact dvd_of_and_step hodd' hone hsame

/-- Otherwise the step moves the bits that the modulus does not see. -/
theorem dvd_of_determines (hodd : Odd odd) (hone : 1 < odd') (hdvd : odd' ∣ odd)
    (hmask : 2 ^ low ≤ mask)
    (h : Determines mask step (2 ^ low * odd) (2 ^ low' * odd')) : 2 ^ mask.size ∣ step := by
  have hpos : 0 < 2 ^ low := Nat.two_pow_pos low
  have hhigh : 0 < (mask / 2 ^ low).size := Nat.size_pos.mpr (Nat.div_pos hmask hpos)
  have hfirst := dvd_carry hodd hone hdvd hmask h hpos
  have hlast := dvd_carry hodd hone hdvd hmask h (Nat.sub_one_lt hpos.ne')
  rw [Nat.zero_add] at hfirst
  -- A carry out of the low bits would be a multiple of two as well.
  have hround : step % 2 ^ low = 0 := by
    by_contra hne
    have hcarry : (2 ^ low - 1 + step) / 2 ^ low = step / 2 ^ low + 1 := by
      have hsplit := Nat.div_add_mod step (2 ^ low)
      have hone := Nat.add_one_mul (step / 2 ^ low) (2 ^ low)
      have htwo := Nat.add_one_mul (step / 2 ^ low + 1) (2 ^ low)
      rw [Nat.mul_comm] at hsplit
      exact Nat.div_eq_of_lt_le (by omega) (by omega)
    rw [hcarry, Nat.dvd_add_right hfirst] at hlast
    exact hhigh.ne' (Nat.pow_eq_one.mp (Nat.dvd_one.mp hlast) |>.resolve_left (by norm_num))
  have hsize : mask.size ≤ low + (mask / 2 ^ low).size := by
    rw [Nat.size_le, pow_add, Nat.mul_comm, ← Nat.div_lt_iff_lt_mul hpos]
    exact Nat.lt_size_self _
  calc 2 ^ mask.size ∣ 2 ^ low * 2 ^ (mask / 2 ^ low).size := by
        rw [← pow_add]
        exact pow_dvd_pow 2 hsize
    _ ∣ 2 ^ low * (step / 2 ^ low) := Nat.mul_dvd_mul_left _ hfirst
    _ = step := Nat.mul_div_cancel' (Nat.dvd_of_mod_eq_zero hround)

theorem determines_iff (hodd : Odd odd) (hone : 1 < odd') (hdvd : odd' ∣ odd) (hlow : low' ≤ low) :
    Determines mask step (2 ^ low * odd) (2 ^ low' * odd') ↔
      mask < 2 ^ low ∨ 2 ^ mask.size ∣ step := by
  constructor
  · intro h
    rcases Nat.lt_or_ge mask (2 ^ low) with hlt | hge
    · exact .inl hlt
    · exact .inr (dvd_of_determines hodd hone hdvd hge h)
  · rintro (hlt | hstep)
    · exact determines_of_lt hlt hlow hdvd
    · exact determines_of_dvd hstep (mul_dvd_mul (pow_dvd_pow 2 hlow) hdvd)

end

end EvertyDesk
