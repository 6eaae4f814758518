import EvertyDesk.Host.MultiEncoder
import EvertyDesk.Lib.Rounding

/-!
The steps in which a client session changes the frame rate and the quality that it asks
the host for. Rates of arrival are binary32 numbers, given by their values.
-/

namespace EvertyDesk.Transport

open Host (CodecPreference)

inductive ImageQuality where
  | notSet
  | low
  | balanced
  | best
deriving DecidableEq, Repr

/-- `clamp` of signed numbers. -/
def clampFps (fps low high : Int) : Int := max low (min fps high)

/-- The first rung below the rate that is not below the minimum. -/
def rungBelow (next minFps : Int) : Option Int :=
  ([60, 30, 20, 15, 10, 5].filter fun fps => decide (fps < next)).find? fun fps =>
    decide (minFps ≤ fps)

def lowerOnce (next minFps : Int) : Int := (rungBelow next minFps).getD next

def lowerAdaptiveFps (current minFps : Int) (severe : Bool) : Int :=
  let next := lowerOnce (clampFps current 5 60) minFps
  let next := if severe then lowerOnce next minFps else next
  max next (clampFps minFps 5 60)

def backlogRecoveryMinFps (initialFps minFps : Int) : Int :=
  let initial := clampFps initialFps 5 60
  let minFps := clampFps minFps 5 initial
  if initial ≥ 45 then min (max minFps 30) initial else minFps

def raiseLadder : List Int := [5, 10, 15, 20, 30, 60]

def raiseAdaptiveFps (current maxFps : Int) : Int :=
  (raiseLadder.find? fun fps => decide (fps > current ∧ fps ≤ maxFps)).getD current

/-- The product of a rate and a constant, both rounded. -/
def scaledFps (target : Int) (factor : ℚ) : ℚ := roundBinary32 (target * roundBinary32 factor)

def bestQualityMinInputFps (targetFps : Int) : ℚ :=
  let target := clampFps targetFps 5 60
  if target ≥ 45 then scaledFps target 0.85
  else if target ≥ 30 then scaledFps target 0.8
  else max (scaledFps target 0.75) 10

def balancedQualityMinInputFps (targetFps : Int) : ℚ :=
  let target := clampFps targetFps 5 60
  if target ≥ 45 then 30 else if target ≥ 30 then 18 else 10

def nextQualityAfterStability (current : ImageQuality) (targetFps : Int) (inputFps : ℚ) :
    Option ImageQuality :=
  match current with
  | .low => if inputFps ≥ balancedQualityMinInputFps targetFps then some .balanced else none
  | .balanced => if inputFps ≥ bestQualityMinInputFps targetFps then some .best else none
  | _ => none

def downgradeOneQuality : ImageQuality → ImageQuality
  | .best => .balanced
  | .balanced => .low
  | current => current

def qualityDropIsSevere (targetFps : Int) (inputFps : ℚ) : Bool :=
  decide (inputFps < max (scaledFps (clampFps targetFps 5 60) 0.15) 6)

def downgradeQualityForLowInput (current : ImageQuality) (targetFps : Int) (inputFps : ℚ) :
    Option ImageQuality :=
  let target := clampFps targetFps 5 60
  match current with
  | .best => if inputFps < max (scaledFps target 0.35) 10 then some .balanced else none
  | .balanced => if inputFps < max (scaledFps target 0.25) 8 then some .low else none
  | _ => none

def decoderLatencyNeedsRecovery (queueMs decodeMs : Nat) : Bool :=
  decide (queueMs ≥ 350) || decide (decodeMs ≥ 90)

/-- A concrete hardware codec asks for the best quality, the other modes save it at high
rates. -/
def initialStreamQuality (fps : Int) : CodecPreference → ImageQuality
  | .h264 | .h265 | .av1 | .vp9 => .best
  | .evrtck | .auto => if fps ≥ 45 then .low else .balanced

/-! How the rates compare. -/

section Rates

theorem clampFps_bounds {low high : Int} (fps : Int) (h : low ≤ high) :
    low ≤ clampFps fps low high ∧ clampFps fps low high ≤ high := by
  unfold clampFps
  omega

theorem clampFps_id {low high fps : Int} (hlow : low ≤ fps) (hhigh : fps ≤ high) :
    clampFps fps low high = fps := by
  unfold clampFps
  omega

theorem rungBelow_eq_some {next minFps fps : Int} (h : rungBelow next minFps = some fps) :
    fps < next ∧ minFps ≤ fps ∧ 5 ≤ fps ∧ fps ≤ 60 := by
  have hmem := List.mem_of_find?_eq_some h
  have hmin := List.find?_some h
  obtain ⟨hrung, hlt⟩ := List.mem_filter.mp hmem
  have hbounds : 5 ≤ fps ∧ fps ≤ 60 := by
    simp only [List.mem_cons, List.not_mem_nil, or_false] at hrung
    omega
  exact ⟨of_decide_eq_true hlt, of_decide_eq_true hmin, hbounds⟩

/-- One step down goes to a lower rung, or nowhere. -/
theorem lowerOnce_bounds (next minFps : Int) :
    lowerOnce next minFps = next ∨
      (lowerOnce next minFps < next ∧ minFps ≤ lowerOnce next minFps ∧
        5 ≤ lowerOnce next minFps ∧ lowerOnce next minFps ≤ 60) := by
  unfold lowerOnce
  cases hrung : rungBelow next minFps with
  | none => exact .inl rfl
  | some fps => exact .inr (rungBelow_eq_some hrung)

/-- A lowered rate is at least the minimum, and no higher than it was or the minimum. -/
theorem lowerAdaptiveFps_bounds (current minFps : Int) (severe : Bool) :
    clampFps minFps 5 60 ≤ lowerAdaptiveFps current minFps severe ∧
      lowerAdaptiveFps current minFps severe ≤
        max (clampFps current 5 60) (clampFps minFps 5 60) := by
  have hfirst := lowerOnce_bounds (clampFps current 5 60) minFps
  have hsecond := lowerOnce_bounds (lowerOnce (clampFps current 5 60) minFps) minFps
  unfold lowerAdaptiveFps
  dsimp only
  split <;> omega

/-- The minimum after a backlog lies between the minimum and the initial rate. -/
theorem backlogRecoveryMinFps_bounds {initialFps minFps : Int} (hlow : 5 ≤ minFps)
    (hle : minFps ≤ initialFps) (hhigh : initialFps ≤ 60) :
    minFps ≤ backlogRecoveryMinFps initialFps minFps ∧
      backlogRecoveryMinFps initialFps minFps ≤ initialFps := by
  unfold backlogRecoveryMinFps clampFps
  dsimp only
  split <;> omega

/-- A raised rate is a higher rung up to the highest rate, or the rate itself. -/
theorem raiseAdaptiveFps_cases (current maxFps : Int) :
    raiseAdaptiveFps current maxFps = current ∨
      (current < raiseAdaptiveFps current maxFps ∧ raiseAdaptiveFps current maxFps ≤ maxFps ∧
        raiseAdaptiveFps current maxFps ∈ raiseLadder) := by
  unfold raiseAdaptiveFps
  cases hrung : raiseLadder.find? fun fps => decide (fps > current ∧ fps ≤ maxFps) with
  | none => exact .inl rfl
  | some fps =>
      have hmem := List.mem_of_find?_eq_some hrung
      have hfound := List.find?_some hrung
      rw [decide_eq_true_eq] at hfound
      exact .inr ⟨hfound.1, hfound.2, hmem⟩

/-- Above all steps of the ladder up to one, a raised rate is at least the next one. -/
theorem raiseLadder_take_succ {current maxFps : Int} {k : Nat}
    (h : ∀ rung ∈ raiseLadder.take k, rung ≤ maxFps → rung ≤ current) :
    ∀ rung ∈ raiseLadder.take (k + 1), rung ≤ maxFps → rung ≤ raiseAdaptiveFps current maxFps := by
  have hle : current ≤ raiseAdaptiveFps current maxFps := by
    obtain heq | ⟨hlt, -⟩ := raiseAdaptiveFps_cases current maxFps
    · exact Int.le_of_eq heq.symm
    · exact Int.le_of_lt hlt
  intro rung hmem hmax
  rw [List.take_add_one, List.mem_append, Option.mem_toList] at hmem
  obtain hbefore | hnext := hmem
  · exact Int.le_trans (h rung hbefore hmax) hle
  · obtain hahead | hpassed := Int.lt_or_le current rung
    · -- It is the first step of the ladder above the rate.
      obtain ⟨hlt, hget⟩ := List.getElem?_eq_some_iff.mp hnext
      have hsplit : raiseLadder = raiseLadder.take k ++ rung :: raiseLadder.drop (k + 1) := by
        rw [← hget, List.getElem_cons_drop, List.take_append_drop]
      have hnone : (raiseLadder.take k).find? (fun fps => decide (fps > current ∧ fps ≤ maxFps)) =
          none := by
        rw [List.find?_eq_none]
        intro fps hfps hfound
        have hfound := of_decide_eq_true hfound
        have hpassed := h fps hfps hfound.2
        omega
      unfold raiseAdaptiveFps
      rw [hsplit, List.find?_append, hnone, Option.none_or]
      simp [hahead, hmax]
    · exact Int.le_trans hpassed hle

theorem initialStreamQuality_ne_notSet (fps : Int) (codec : CodecPreference) :
    initialStreamQuality fps codec ≠ .notSet := by
  cases codec <;> simp only [initialStreamQuality] <;> (try split) <;> simp

end Rates

end EvertyDesk.Transport
