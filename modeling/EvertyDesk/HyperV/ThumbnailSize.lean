import EvertyDesk.Lib.Checked
import EvertyDesk.Lib.Machine
import EvertyDesk.Lib.Rounding
import Mathlib.Tactic.FieldSimp
import Mathlib.Tactic.SplitIfs

/-!
The size in which the screen of a Hyper-V machine is captured. It starts within 1280 × 720,
gets smaller when a capture is judged slow and larger again when captures are fast, but
never as large as it was when it was slow. The sizes are numbers of 16 bits.

How fast a capture is counts by an average; a capture here comes with the judgement on it.
-/

namespace EvertyDesk.HyperV

def asU16 (q : ℚ) : Nat := min ⌊q⌋.toNat (2 ^ 16 - 1)

/-- The number without its last bit. -/
def evenFloor (n : Nat) : Nat := n / 2 * 2

/-- The size within a frame, in single precision. -/
def capResolution (w h maxW maxH : Nat) : Nat × Nat :=
  if w = 0 ∨ h = 0 then (maxW, maxH)
  else if w ≤ maxW ∧ h ≤ maxH then (evenFloor w, evenFloor h)
  else
    let scale := min (roundBinary32 (maxW / w)) (roundBinary32 (maxH / h))
    let nw := evenFloor (max (asU16 (roundBinary32 (w * scale))) 2)
    let nh := evenFloor (max (asU16 (roundBinary32 (h * scale))) 2)
    (nw, nh)

/-- A multiplication of 16-bit numbers, which wraps in a build without overflow checks. -/
def mulU16 (overflowChecks : Bool) (left right : Nat) : Checked Nat :=
  if left * right < 2 ^ 16 then .ok (left * right)
  else if overflowChecks then .error .overflow
  else .ok (left * right % 2 ^ 16)

/-- How a capture ends: it fails, or its time is judged. -/
inductive Capture where
  | failed
  | slow
  | neutral
  | fast
deriving DecidableEq, Repr

structure CaptureSize where
  curW : Nat
  curH : Nat
  ceilingW : Nat
  upscaleCooldown : Nat
deriving DecidableEq, Repr

namespace CaptureSize

def cooldownFrames : Nat := 60

def start (width height : Nat) : CaptureSize where
  curW := width
  curH := height
  ceilingW := width
  upscaleCooldown := 0

variable (s : CaptureSize)

def afterFrame : CaptureSize := { s with upscaleCooldown := s.upscaleCooldown - 1 }

/-- The width is judged slow, and the ceiling is put below it. -/
def reduce (overflowChecks : Bool) : Checked CaptureSize := do
  let w ← mulU16 overflowChecks s.curW 2
  let h ← mulU16 overflowChecks s.curH 2
  return { curW := max (w / 3) 320
           curH := max (h / 3) 240
           ceilingW := min s.ceilingW (s.curW - 1)
           upscaleCooldown := cooldownFrames }

def raise (overflowChecks : Bool) (height : Nat) : Checked CaptureSize := do
  let w ← mulU16 overflowChecks s.curW 5
  let h ← mulU16 overflowChecks s.curH 5
  return { s with
    curW := min (w / 4) s.ceilingW
    curH := min (h / 4) height
    upscaleCooldown := cooldownFrames }

/-- The size after a capture, where the first capture had this height. -/
def capture (overflowChecks : Bool) (height : Nat) : Capture → Checked CaptureSize
  | .failed => .ok s
  | .slow =>
      if 320 < s.curW then s.afterFrame.reduce overflowChecks else .ok s.afterFrame
  | .neutral => .ok s.afterFrame
  | .fast =>
      if s.curW < s.ceilingW ∧ s.afterFrame.upscaleCooldown = 0 then
        s.afterFrame.raise overflowChecks height
      else .ok s.afterFrame

end CaptureSize

/-- The capture loop. After a panic there is no next size. -/
def captureLoop (overflowChecks : Bool) (height : Nat) :
    Machine CaptureSize Capture (Checked Unit) where
  step s capture :=
    match s.capture overflowChecks height capture with
    | .ok next => (next, .ok ())
    | .error panic => (s, .error panic)

/-! What the loop should keep to. -/

/-- The size is even and at most the first one. -/
def Encodable (width height : Nat) (s : CaptureSize) : Prop :=
  s.curW % 2 = 0 ∧ s.curH % 2 = 0 ∧ s.curW ≤ width ∧ s.curH ≤ height

/-- The loop judges a width slow only where it can be reduced. -/
def JudgedSlow (s : CaptureSize) (capture : Capture) : Prop := capture = .slow ∧ 320 < s.curW

/-- One for a capture after which the size is another. -/
def changes (overflowChecks : Bool) (height : Nat) (s : CaptureSize) (capture : Capture) : Nat :=
  let next := ((captureLoop overflowChecks height).step s capture).1
  if (next.curW, next.curH) = (s.curW, s.curH) then 0 else 1

/-- The resolution settles in a run and stays encodable. -/
structure Settles (overflowChecks : Bool) (width height : Nat) (captures : List Capture) :
    Prop where
  /-- Where the overflow would stop the loop, nothing does. -/
  noOverflow : (captureLoop overflowChecks height).Along
    (fun s capture => ∃ next, s.capture true height capture = .ok next)
    (CaptureSize.start width height) captures
  neverAgain : ∀ before capture between after,
    captures = before ++ capture :: (between ++ after) →
      let judged := (captureLoop overflowChecks height).run (CaptureSize.start width height) before
      JudgedSlow judged capture →
        ((captureLoop overflowChecks height).run judged (capture :: between)).curW ≠ judged.curW
  /-- The bound does not depend on the run. -/
  finitely : (captureLoop overflowChecks height).tally (changes overflowChecks height)
    (CaptureSize.start width height) captures ≤ width * (width + 1)
  encodable : ∀ before after, captures = before ++ after →
    Encodable width height
      ((captureLoop overflowChecks height).run (CaptureSize.start width height) before)

/-- Two thirds of the size, with their floors, are even and not above the first height. -/
def ReducesEvenly (height : Nat) (s : CaptureSize) : Prop :=
  (s.curW ≤ 481 ∨ s.curW % 6 ≠ 2) ∧ (s.curH ≤ 361 ∨ s.curH % 6 ≠ 2) ∧ 240 ≤ height

/-- Five quarters of the size, up to the ceiling and the first height, are even. -/
def RaisesEvenly (height : Nat) (s : CaptureSize) : Prop :=
  (if s.curW * 5 / 4 < s.ceilingW then s.curW % 8 = 0 ∨ s.curW % 8 = 2
    else s.ceilingW % 2 = 0) ∧
    (height ≤ s.curH * 5 / 4 ∨ s.curH % 8 = 0 ∨ s.curH % 8 = 2)

/-- A change of the size, if the capture brings one, leads to an even one. -/
def ChangesEvenly (height : Nat) (s : CaptureSize) : Capture → Prop
  | .slow => 320 < s.curW → ReducesEvenly height s
  | .fast => s.curW < s.ceilingW → s.upscaleCooldown ≤ 1 → RaisesEvenly height s
  | _ => True

/-! The first size. -/

theorem evenFloor_even (n : Nat) : evenFloor n % 2 = 0 := Nat.mul_mod_left _ _

theorem evenFloor_le (n : Nat) : evenFloor n ≤ n := Nat.div_mul_le_self n 2

/-- A side scaled down to its share of the frame is at most that, as less than one pixel is
rounded up. -/
theorem scaled_le {side most : Nat} {scale : ℚ} (hside : 0 < side) (hwide : side < 2 ^ 16)
    (hmost : 2 ≤ most) (hlt : most < 2000) (hpos : 0 < scale)
    (hscale : scale ≤ roundBinary32 (most / side)) :
    asU16 (roundBinary32 (side * scale)) ≤ most := by
  have hsideQ : (0 : ℚ) < side := by exact_mod_cast hside
  have hwideQ : (side : ℚ) < 65536 := by exact_mod_cast hwide
  have hmostQ : (2 : ℚ) ≤ most := by exact_mod_cast hmost
  have hltQ : (most : ℚ) < 2000 := by exact_mod_cast hlt
  have hnormal : (2 : ℚ) ^ (-126 : ℤ) ≤ most / side := by
    rw [le_div_iff₀ hsideQ]
    norm_num
    linarith
  have hshare := hscale.trans (roundBinary32_le_of_normal hnormal)
  have hproduct : (side : ℚ) * scale ≤ most + most * 2 ^ (-24 : ℤ) := by
    calc (side : ℚ) * scale ≤ side * (most / side + most / side * 2 ^ (-24 : ℤ)) :=
          mul_le_mul_of_nonneg_left hshare hsideQ.le
      _ = most + most * 2 ^ (-24 : ℤ) := by
          field_simp
  have hround := roundBinary32_le_of_lt (q := side * scale) (k := 11)
    (mul_pos hsideQ hpos).le (by norm_num at hproduct ⊢; linarith) (by decide)
  have hfloor : ⌊roundBinary32 (side * scale)⌋ < most + 1 := by
    rw [Int.floor_lt]
    push_cast
    norm_num at hproduct hround
    linarith
  rw [asU16]
  omega

theorem share_pos {side most : Nat} (hside : 0 < side) (hwide : side < 2 ^ 16)
    (hmost : 2 ≤ most) : 0 < roundBinary32 (most / side) := by
  have hsideQ : (0 : ℚ) < side := by exact_mod_cast hside
  have hwideQ : (side : ℚ) < 65536 := by exact_mod_cast hwide
  have hmostQ : (2 : ℚ) ≤ most := by exact_mod_cast hmost
  apply roundBinary32_pos
  rw [le_div_iff₀ hsideQ]
  norm_num
  linarith

/-- The first size is even and within the frame. -/
theorem capResolution_spec {w h maxW maxH : Nat} (hw : w < 2 ^ 16) (hh : h < 2 ^ 16)
    (hmaxW : maxW % 2 = 0) (hmaxH : maxH % 2 = 0) (hwide : 2 ≤ maxW ∧ maxW < 2000)
    (hhigh : 2 ≤ maxH ∧ maxH < 2000) :
    ((capResolution w h maxW maxH).1 % 2 = 0 ∧ (capResolution w h maxW maxH).2 % 2 = 0) ∧
      (capResolution w h maxW maxH).1 ≤ maxW ∧ (capResolution w h maxW maxH).2 ≤ maxH := by
  unfold capResolution
  split_ifs with hzero hfits
  · exact ⟨⟨hmaxW, hmaxH⟩, le_refl _, le_refl _⟩
  · exact ⟨⟨evenFloor_even _, evenFloor_even _⟩, (evenFloor_le _).trans hfits.1,
      (evenFloor_le _).trans hfits.2⟩
  · obtain ⟨hwpos, hhpos⟩ := not_or.mp hzero
    have hscale : 0 < min (roundBinary32 (maxW / w)) (roundBinary32 (maxH / h)) :=
      lt_min (share_pos (Nat.pos_of_ne_zero hwpos) hw hwide.1)
        (share_pos (Nat.pos_of_ne_zero hhpos) hh hhigh.1)
    refine ⟨⟨evenFloor_even _, evenFloor_even _⟩, (evenFloor_le _).trans (max_le ?_ hwide.1),
      (evenFloor_le _).trans (max_le ?_ hhigh.1)⟩
    · exact scaled_le (Nat.pos_of_ne_zero hwpos) hw hwide.1 hwide.2 hscale (min_le_left _ _)
    · exact scaled_le (Nat.pos_of_ne_zero hhpos) hh hhigh.1 hhigh.2 hscale (min_le_right _ _)

/-! One capture. -/

/-- What always holds of the size: it is below the ceiling, and far from zero where it may
be raised. -/
structure UnderCeiling (width : Nat) (s : CaptureSize) : Prop where
  curW_le : s.curW ≤ s.ceilingW
  ceiling_le : s.ceilingW ≤ width
  wide : s.curW < s.ceilingW → 320 ≤ s.curW
  curH_le : s.curH ≤ 720

/-- What a capture does to the size. -/
inductive CaptureStep (height : Nat) (s : CaptureSize) (capture : Capture) : CaptureSize → Prop
  | still (next : CaptureSize) (hw : next.curW = s.curW) (hh : next.curH = s.curH)
      (hceiling : next.ceilingW = s.ceilingW) (hslow : capture = .slow → ¬ 320 < s.curW)
      (hfast : capture = .fast → s.curW < s.ceilingW → ¬ s.upscaleCooldown ≤ 1) :
      CaptureStep height s capture next
  | reduced (hslow : capture = .slow) (hwide : 320 < s.curW) :
      CaptureStep height s capture
        ⟨max (s.curW * 2 / 3) 320, max (s.curH * 2 / 3) 240, min s.ceilingW (s.curW - 1),
          CaptureSize.cooldownFrames⟩
  | raised (hfast : capture = .fast) (hbelow : s.curW < s.ceilingW)
      (hcooled : s.upscaleCooldown ≤ 1) :
      CaptureStep height s capture
        ⟨min (s.curW * 5 / 4) s.ceilingW, min (s.curH * 5 / 4) height, s.ceilingW,
          CaptureSize.cooldownFrames⟩

section

variable {overflowChecks : Bool} {width height : Nat} {s next : CaptureSize} {c : Capture}

theorem mulU16_ok {left right : Nat} (h : left * right < 2 ^ 16) :
    mulU16 overflowChecks left right = .ok (left * right) := if_pos h

/-- A capture does not overflow. -/
theorem capture_step (height : Nat) (h : UnderCeiling width s) (hwidth : width ≤ 1280)
    (c : Capture) :
    ∃ next, (∀ overflowChecks, s.capture overflowChecks height c = .ok next) ∧
      CaptureStep height s c next := by
  have hw := h.curW_le.trans (h.ceiling_le.trans hwidth)
  have hh := h.curH_le
  cases c with
  | failed =>
      exact ⟨s, fun _ => rfl, .still s rfl rfl rfl (fun hc => by cases hc) fun hc => by cases hc⟩
  | neutral =>
      exact ⟨s.afterFrame, fun _ => rfl,
        .still _ rfl rfl rfl (fun hc => by cases hc) fun hc => by cases hc⟩
  | slow =>
      by_cases hwide : 320 < s.curW
      · refine ⟨_, fun overflowChecks => ?_, .reduced rfl hwide⟩
        rw [CaptureSize.capture, if_pos hwide, CaptureSize.reduce,
          Checked.bind_ok (mulU16_ok (by dsimp only [CaptureSize.afterFrame]; omega)),
          Checked.bind_ok (mulU16_ok (by dsimp only [CaptureSize.afterFrame]; omega))]
        rfl
      · refine ⟨s.afterFrame, fun _ => ?_,
          .still _ rfl rfl rfl (fun _ => hwide) fun hc => by cases hc⟩
        rw [CaptureSize.capture, if_neg hwide]
  | fast =>
      by_cases hready : s.curW < s.ceilingW ∧ s.afterFrame.upscaleCooldown = 0
      · have hcooled : s.upscaleCooldown ≤ 1 := by
          have hzero := hready.2
          simp only [CaptureSize.afterFrame] at hzero
          omega
        refine ⟨_, fun overflowChecks => ?_, .raised rfl hready.1 hcooled⟩
        rw [CaptureSize.capture, if_pos hready, CaptureSize.raise,
          Checked.bind_ok (mulU16_ok (by dsimp only [CaptureSize.afterFrame]; omega)),
          Checked.bind_ok (mulU16_ok (by dsimp only [CaptureSize.afterFrame]; omega))]
        rfl
      · refine ⟨s.afterFrame, fun _ => ?_, .still _ rfl rfl rfl (fun hc => by cases hc)
          fun _ hbelow hcooled => hready ⟨hbelow, ?_⟩⟩
        · rw [CaptureSize.capture, if_neg hready]
        · simp only [CaptureSize.afterFrame]
          omega

theorem CaptureStep.underCeiling (hstep : CaptureStep height s c next)
    (h : UnderCeiling width s) (hheight : height ≤ 720) : UnderCeiling width next := by
  have hw := h.curW_le
  have hceiling := h.ceiling_le
  have hh := h.curH_le
  cases hstep with
  | still next hsameW hsameH hsame =>
      exact { curW_le := by omega
              ceiling_le := by omega
              wide := fun hlt => by have hwide := h.wide; omega
              curH_le := by omega }
  | reduced hslow hwide =>
      exact { curW_le := by dsimp only; omega
              ceiling_le := by dsimp only; omega
              wide := fun _ => le_max_right _ _
              curH_le := by dsimp only; omega }
  | raised hfast hbelow hcooled =>
      have hwide := h.wide hbelow
      exact { curW_le := min_le_right _ _
              ceiling_le := hceiling
              wide := fun _ => by dsimp only; omega
              curH_le := by dsimp only; omega }

theorem CaptureStep.ceiling_le (hstep : CaptureStep height s c next) :
    next.ceilingW ≤ s.ceilingW := by
  cases hstep with
  | still next hsameW hsameH hsame => exact hsame.le
  | reduced hslow hwide => exact min_le_left _ _
  | raised hfast hbelow hcooled => exact le_refl _

/-- How many changes there may still be: each of the widths for each of the ceilings. -/
def changesLeft (width : Nat) (s : CaptureSize) : Nat :=
  s.ceilingW * (width + 1) + (s.ceilingW - s.curW)

/-- A judgement lowers the ceiling, and a raise goes towards it. -/
theorem CaptureStep.changesLeft_le (hstep : CaptureStep height s c next)
    (h : UnderCeiling width s) :
    (if (next.curW, next.curH) = (s.curW, s.curH) then 0 else 1) + changesLeft width next ≤
      changesLeft width s := by
  have hw := h.curW_le
  have hceiling := h.ceiling_le
  cases hstep with
  | still next hsameW hsameH hsame =>
      rw [hsameW, hsameH, if_pos rfl, changesLeft, changesLeft, hsame, hsameW, Nat.zero_add]
  | reduced hslow hwide =>
      have hlower : min s.ceilingW (s.curW - 1) + 1 ≤ s.ceilingW := by omega
      have hmul := Nat.mul_le_mul_right (width + 1) hlower
      rw [Nat.add_mul, Nat.one_mul] at hmul
      simp only [changesLeft]
      split_ifs <;> omega
  | raised hfast hbelow hcooled =>
      have hwide := h.wide hbelow
      simp only [changesLeft]
      split_ifs <;> omega

theorem five_quarters_even {n : Nat} (h : n % 2 = 0) :
    n * 5 / 4 % 2 = 0 ↔ n % 8 = 0 ∨ n % 8 = 2 := by
  have hcases : n % 8 = 0 ∨ n % 8 = 2 ∨ n % 8 = 4 ∨ n % 8 = 6 := by omega
  rcases hcases with hmod | hmod | hmod | hmod <;> omega

/-- Exactly the even changes lead from an even size to an even one. -/
theorem CaptureStep.encodable_iff (hstep : CaptureStep height s c next)
    (h : UnderCeiling width s) (hheight : height % 2 = 0) (heven : Encodable width height s) :
    ChangesEvenly height s c ↔ Encodable width height next := by
  obtain ⟨hevenW, hevenH, hw, hh⟩ := heven
  have hceiling := h.ceiling_le
  cases hstep with
  | still next hsameW hsameH hsame hslow hfast =>
      have hnext : Encodable width height next := by
        rw [Encodable, hsameW, hsameH]
        exact ⟨hevenW, hevenH, hw, hh⟩
      refine ⟨fun _ => hnext, fun _ => ?_⟩
      cases c with
      | slow => exact fun hwide => absurd hwide (hslow rfl)
      | fast => exact fun hbelow hcooled => absurd hcooled (hfast rfl hbelow)
      | failed => trivial
      | neutral => trivial
  | reduced hslow hwide =>
      subst hslow
      rw [ChangesEvenly, forall_prop_of_true hwide, ReducesEvenly, Encodable]
      dsimp only
      omega
  | raised hfast hbelow hcooled =>
      subst hfast
      rw [ChangesEvenly, forall_prop_of_true hbelow, forall_prop_of_true hcooled, RaisesEvenly,
        Encodable, ← five_quarters_even hevenW, ← five_quarters_even hevenH]
      dsimp only
      split_ifs <;> omega

/-! Whole runs. -/

theorem start_underCeiling (hheight : height ≤ 720) :
    UnderCeiling width (CaptureSize.start width height) where
  curW_le := le_refl _
  ceiling_le := le_refl _
  wide := fun h => absurd h (lt_irrefl _)
  curH_le := hheight

/-- A step of the loop is what the capture does. -/
theorem captureLoop_step (overflowChecks : Bool) (height : Nat) (h : UnderCeiling width s)
    (hwidth : width ≤ 1280) (c : Capture) :
    CaptureStep height s c ((captureLoop overflowChecks height).step s c).1 := by
  obtain ⟨next, hrun, hstep⟩ := capture_step height h hwidth c
  simp only [captureLoop, hrun overflowChecks]
  exact hstep

section Ceiling

variable (h : UnderCeiling width s) (hwidth : width ≤ 1280) (hheight : height ≤ 720)

include h hwidth hheight

theorem run_underCeiling (captures : List Capture) :
    UnderCeiling width ((captureLoop overflowChecks height).run s captures) := by
  have hstep : ∀ s c, UnderCeiling width s → True →
      UnderCeiling width ((captureLoop overflowChecks height).step s c).1 :=
    fun s c hs _ => (captureLoop_step _ _ hs hwidth c).underCeiling hs hheight
  exact Machine.invariant _ hstep h (Machine.along_of_forall _ (fun _ _ => trivial) _ _)

/-- The ceiling stays below a width that it has been put below. -/
theorem run_below {bound : Nat} (hbound : s.ceilingW < bound) (captures : List Capture) :
    ((captureLoop overflowChecks height).run s captures).curW < bound := by
  have hstep : ∀ s c, UnderCeiling width s ∧ s.ceilingW < bound → True →
      UnderCeiling width ((captureLoop overflowChecks height).step s c).1 ∧
        ((captureLoop overflowChecks height).step s c).1.ceilingW < bound := by
    intro s c hs _
    have hnext := captureLoop_step overflowChecks height hs.1 hwidth c
    exact ⟨hnext.underCeiling hs.1 hheight, lt_of_le_of_lt hnext.ceiling_le hs.2⟩
  have hend := Machine.invariant _ hstep ⟨h, hbound⟩
    (Machine.along_of_forall _ (fun _ _ => trivial) s captures)
  exact lt_of_le_of_lt hend.1.curW_le hend.2

theorem tally_changes_le (captures : List Capture) :
    (captureLoop overflowChecks height).tally (changes overflowChecks height) s captures ≤
      changesLeft width s := by
  induction captures generalizing s with
  | nil => exact Nat.zero_le _
  | cons c captures ih =>
      have hstep := captureLoop_step overflowChecks height h hwidth c
      have hrest := ih (hstep.underCeiling h hheight)
      have hfirst := hstep.changesLeft_le h
      rw [Machine.tally, changes]
      omega

end Ceiling

/-- All but the evenness holds in every run. -/
theorem settles_of_encodable (hwidth : width ≤ 1280) (hheight : height ≤ 720)
    {captures : List Capture}
    (h : ∀ before after, captures = before ++ after → Encodable width height
      ((captureLoop overflowChecks height).run (CaptureSize.start width height) before)) :
    Settles overflowChecks width height captures where
  noOverflow := by
    rw [Machine.along_iff]
    intro before c after _
    have hheld : UnderCeiling width ((captureLoop overflowChecks height).run
        (CaptureSize.start width height) before) :=
      run_underCeiling (start_underCeiling hheight) hwidth hheight before
    obtain ⟨next, hrun, _⟩ := capture_step height hheld hwidth c
    exact ⟨next, hrun true⟩
  neverAgain := by
    intro before c between after _ judged hjudged
    have hheld : UnderCeiling width judged :=
      run_underCeiling (start_underCeiling hheight) hwidth hheight before
    have hstep := captureLoop_step overflowChecks height hheld hwidth c
    have hceiling : ((captureLoop overflowChecks height).step judged c).1.ceilingW <
        judged.curW := by
      obtain ⟨rfl, hwide⟩ := hjudged
      generalize ((captureLoop overflowChecks height).step judged .slow).1 = next at hstep
      cases hstep with
      | still next hsameW hsameH hsame hslow hfast => exact absurd hwide (hslow rfl)
      | reduced hslow hwide =>
          dsimp only
          omega
      | raised hfast hbelow hcooled => cases hfast
    exact (run_below (hstep.underCeiling hheld hheight) hwidth hheight hceiling between).ne
  finitely := by
    have hleft : changesLeft width (CaptureSize.start width height) = width * (width + 1) := by
      simp [changesLeft, CaptureSize.start]
    rw [← hleft]
    exact tally_changes_le (start_underCeiling hheight) hwidth hheight captures
  encodable := h

end

/-- For the first size that any screen gets: the resolution settles and stays encodable in
a run exactly as long as every change of the size leads to an even one within the first. -/
theorem settles_iff_changesEvenly (overflowChecks : Bool) (w h : UInt16) (captures : List Capture) :
    let first := capResolution w.toNat h.toNat 1280 720
    Settles overflowChecks first.1 first.2 captures ↔
      (captureLoop overflowChecks first.2).Along (ChangesEvenly first.2)
        (CaptureSize.start first.1 first.2) captures := by
  intro first
  obtain ⟨⟨hevenW, hevenH⟩, hwidth, hheight⟩ :=
    @capResolution_spec _ _ 1280 720 w.toNat_lt h.toNat_lt (by decide) (by decide) (by decide)
      (by decide)
  have hstep : ∀ s c, True → UnderCeiling first.1 s → Encodable first.1 first.2 s →
      UnderCeiling first.1 ((captureLoop overflowChecks first.2).step s c).1 ∧
        (ChangesEvenly first.2 s c ↔
          Encodable first.1 first.2 ((captureLoop overflowChecks first.2).step s c).1) := by
    intro s c _ hs heven
    have hnext := captureLoop_step overflowChecks first.2 hs hwidth c
    exact ⟨hnext.underCeiling hs hheight, hnext.encodable_iff hs hevenH heven⟩
  rw [Machine.along_iff_every_state _ hstep (fun _ _ => trivial) (start_underCeiling hheight)
    ⟨hevenW, hevenH, le_refl _, le_refl _⟩]
  exact ⟨fun hsettles => hsettles.encodable, settles_of_encodable hwidth hheight⟩

/-- The usual first size becomes an odd width at the first slow capture. -/
theorem slow_capture_odd_width : ¬ Settles true 1280 720 [.slow] := by
  intro h
  have heven := h.encodable [.slow] [] rfl
  revert heven
  simp only [Encodable]
  decide

end EvertyDesk.HyperV
