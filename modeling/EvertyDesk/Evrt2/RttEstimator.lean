import EvertyDesk.Lib.Checked
import EvertyDesk.Lib.Rounding
import EvertyDesk.Lib.Streaks
import Mathlib.Data.Rat.Defs
import Mathlib.Algebra.Order.Field.Rat
import Mathlib.Data.Nat.Log
import Mathlib.Tactic.SplitIfs

/-!
When a path counts as degraded: three round trips in a row that took more than three
times as long as the first five on average. The first five are added up in 32 bits, and
so are the slow round trips counted; a peer that answers with old times can make the
sum overflow.

The average and its comparison with a round trip are taken exactly. The smoothed round
trip time is for display only and left out.
-/

namespace EvertyDesk.Evrt2

def baselineSamples : Nat := 5
def degradationFactor : ℚ := 3
def consecutiveBreachesRequired : Nat := 3

/-- The conversion to 32 bits saturates. -/
def asU32 (n : Nat) : Nat := min n (2 ^ 32 - 1)

/-- An addition of 32-bit numbers, which wraps in a build without overflow checks. -/
def add32 (overflowChecks : Bool) (left right : Nat) : Checked Nat :=
  if left + right < 2 ^ 32 then .ok (left + right)
  else if overflowChecks then .error .overflow
  else .ok ((left + right) % 2 ^ 32)

structure RttEstimator where
  baselineUs : Option ℚ
  samplesForBaseline : List Nat
  consecutiveBreaches : Nat
deriving DecidableEq

namespace RttEstimator

def new : RttEstimator where
  baselineUs := none
  samplesForBaseline := []
  consecutiveBreaches := 0

variable (s : RttEstimator)

/-- A round trip of so many microseconds; whether the path is to be switched now. -/
def onSample (overflowChecks : Bool) (micros : Nat) : Checked (RttEstimator × Bool) :=
  let us := asF32 micros
  match s.baselineUs with
  | none => do
      let samples := s.samplesForBaseline ++ [asU32 us]
      if baselineSamples ≤ samples.length then
        let sum ← samples.foldlM (add32 overflowChecks) 0
        let baseline : ℚ := sum / samples.length
        return ({ s with samplesForBaseline := samples, baselineUs := some baseline }, false)
      else return ({ s with samplesForBaseline := samples }, false)
  | some baseline =>
      if (us : ℚ) > baseline * degradationFactor then do
        let breaches ← add32 overflowChecks s.consecutiveBreaches 1
        return ({ s with consecutiveBreaches := breaches }, breaches == consecutiveBreachesRequired)
      else return ({ s with consecutiveBreaches := 0 }, false)

def resetBaseline (_ : RttEstimator) : RttEstimator where
  baselineUs := none
  samplesForBaseline := []
  consecutiveBreaches := 0

end RttEstimator

inductive RttInput where
  | sample (micros : Nat)
  | resetBaseline
deriving DecidableEq, Repr

/-- The estimator after a list of inputs, and what it answered to each. -/
def feed (overflowChecks : Bool) (s : RttEstimator) :
    List RttInput → Checked (RttEstimator × List (Option Bool))
  | [] => .ok (s, [])
  | .sample micros :: inputs => do
      let (next, degraded) ← s.onSample overflowChecks micros
      let (last, answers) ← feed overflowChecks next inputs
      return (last, some degraded :: answers)
  | .resetBaseline :: inputs => do
      let (last, answers) ← feed overflowChecks s.resetBaseline inputs
      return (last, none :: answers)

/-! What the answers should be, by the samples since the last reset. -/

def baselineSum (samples : List Nat) : Nat := ((samples.take baselineSamples).map asU32).sum

/-- The sample took longer than three times the average of the first five. -/
def breaches (samples : List Nat) (us : Nat) : Bool :=
  (us : ℚ) > (baselineSum samples : ℚ) / baselineSamples * degradationFactor

/-- The slow samples in a row at the end, of those after the first five. -/
def breachStreak (samples : List Nat) : Nat :=
  streak (breaches samples) (samples.drop baselineSamples)

def degraded (samples : List Nat) : Bool := breachStreak samples == consecutiveBreachesRequired

def answersFrom (samples : List Nat) : List RttInput → List (Option Bool)
  | [] => []
  | .sample micros :: inputs =>
      some (degraded (samples ++ [asF32 micros])) :: answersFrom (samples ++ [asF32 micros]) inputs
  | .resetBaseline :: inputs => none :: answersFrom [] inputs

/-- The sum of the first five samples and the number of slow ones in a row fit into
32 bits. -/
def Fits (samples : List Nat) : Prop :=
  (baselineSamples ≤ samples.length → baselineSum samples < 2 ^ 32) ∧ breachStreak samples < 2 ^ 32

def FitsFrom (samples : List Nat) : List RttInput → Prop
  | [] => True
  | .sample micros :: inputs =>
      Fits (samples ++ [asF32 micros]) ∧ FitsFrom (samples ++ [asF32 micros]) inputs
  | .resetBaseline :: inputs => FitsFrom [] inputs

/-! One sample. -/

theorem add32_ok {overflowChecks : Bool} {left right : Nat} (h : left + right < 2 ^ 32) :
    add32 overflowChecks left right = .ok (left + right) := if_pos h

theorem add32_panics {left right : Nat} (h : ¬ left + right < 2 ^ 32) :
    add32 true left right = .error .overflow := by
  rw [add32, if_neg h, if_pos rfl]

theorem foldlM_add32_ok {overflowChecks : Bool} {numbers : List Nat} {start : Nat}
    (h : start + numbers.sum < 2 ^ 32) :
    numbers.foldlM (add32 overflowChecks) start = .ok (start + numbers.sum) := by
  induction numbers generalizing start with
  | nil => rfl
  | cons number numbers ih =>
      rw [List.sum_cons] at h ⊢
      rw [List.foldlM_cons, Checked.bind_ok (add32_ok (by omega)), ih (by omega), Nat.add_assoc]

theorem foldlM_add32_panics {numbers : List Nat} {start : Nat} (hstart : start < 2 ^ 32)
    (h : ¬ start + numbers.sum < 2 ^ 32) :
    numbers.foldlM (add32 true) start = .error .overflow := by
  induction numbers generalizing start with
  | nil => cases h hstart
  | cons number numbers ih =>
      rw [List.sum_cons] at h
      rw [List.foldlM_cons]
      by_cases hfirst : start + number < 2 ^ 32
      · rw [Checked.bind_ok (add32_ok hfirst)]
        apply ih hfirst
        omega
      · rw [Checked.bind_panics (add32_panics hfirst)]

/-- The estimator that has seen these samples since the last reset. -/
def RttEstimator.ofSamples (samples : List Nat) : RttEstimator where
  baselineUs :=
    if baselineSamples ≤ samples.length then some (baselineSum samples / baselineSamples)
    else none
  samplesForBaseline := (samples.take baselineSamples).map asU32
  consecutiveBreaches := breachStreak samples

/-- A breach is counted once the baseline is there, and the samples of the baseline
stay what they are. -/
theorem breachStreak_append_singleton {samples : List Nat} {us : Nat}
    (h : baselineSamples ≤ samples.length) :
    breachStreak (samples ++ [us]) =
      if breaches samples us then breachStreak samples + 1 else 0 := by
  have hbaseline : breaches (samples ++ [us]) = breaches samples := by
    funext other
    rw [breaches, baselineSum, List.take_append_of_le_length h]
    rfl
  rw [breachStreak, hbaseline, List.drop_append_of_le_length h, streak_append_singleton]
  rfl

theorem breachStreak_eq_zero {samples : List Nat} (h : samples.length ≤ baselineSamples) :
    breachStreak samples = 0 := by
  rw [breachStreak, List.drop_eq_nil_of_le h, streak_nil]

theorem fits_nil : Fits [] := by
  refine ⟨fun hfull => ?_, by decide⟩
  cases hfull

theorem baselineSum_eq {samples : List Nat} (h : samples.length ≤ baselineSamples) :
    baselineSum samples = (samples.map asU32).sum := by
  rw [baselineSum, List.take_of_length_le h]

theorem length_of_degraded {samples : List Nat} (h : degraded samples) :
    baselineSamples + consecutiveBreachesRequired ≤ samples.length := by
  have hle := streak_le_length (breaches samples) (samples.drop baselineSamples)
  have hthree : breachStreak samples = consecutiveBreachesRequired := beq_iff_eq.mp h
  rw [List.length_drop] at hle
  rw [breachStreak] at hthree
  have hpos : 0 < consecutiveBreachesRequired := by decide
  omega

namespace RttEstimator

variable {samples : List Nat} {micros : Nat}

theorem onSample_judged {overflowChecks : Bool} (h : baselineSamples ≤ samples.length) :
    (ofSamples samples).onSample overflowChecks micros =
      if breaches samples (asF32 micros) then do
        let count ← add32 overflowChecks (breachStreak samples) 1
        return ({ ofSamples samples with consecutiveBreaches := count },
          count == consecutiveBreachesRequired)
      else .ok ({ ofSamples samples with consecutiveBreaches := 0 }, false) := by
  simp only [onSample, ofSamples, if_pos h, breaches, decide_eq_true_eq]
  rfl

theorem ofSamples_judged (h : baselineSamples ≤ samples.length) (us : Nat) :
    ofSamples (samples ++ [us]) =
      { ofSamples samples with consecutiveBreaches := breachStreak (samples ++ [us]) } := by
  have hlonger : baselineSamples ≤ (samples ++ [us]).length := by
    rw [List.length_append]
    omega
  simp only [ofSamples, if_pos h, if_pos hlonger, baselineSum, List.take_append_of_le_length h]

theorem onSample_collected {overflowChecks : Bool} (h : samples.length < baselineSamples) :
    (ofSamples samples).onSample overflowChecks micros =
      if baselineSamples ≤ samples.length + 1 then do
        let sum ← ((samples ++ [asF32 micros]).map asU32).foldlM (add32 overflowChecks) 0
        let baseline : ℚ := sum / (samples.length + 1 : Nat)
        return ({ ofSamples samples with
          samplesForBaseline := (samples ++ [asF32 micros]).map asU32
          baselineUs := some baseline }, false)
      else .ok ({ ofSamples samples with
          samplesForBaseline := (samples ++ [asF32 micros]).map asU32 }, false) := by
  have hnone : (ofSamples samples).baselineUs = none := if_neg (by omega)
  have hcollected : (ofSamples samples).samplesForBaseline = samples.map asU32 := by
    rw [ofSamples, List.take_of_length_le h.le]
  have hlength : (samples.map asU32 ++ [asU32 (asF32 micros)]).length = samples.length + 1 := by
    rw [List.length_append, List.length_map, List.length_singleton]
  rw [onSample]
  simp only [hnone, hcollected, hlength, List.map_append, List.map_singleton]
  rfl

theorem ofSamples_collected (h : samples.length < baselineSamples) (us : Nat) :
    ofSamples (samples ++ [us]) =
      { ofSamples samples with
        samplesForBaseline := (samples ++ [us]).map asU32
        baselineUs :=
          if baselineSamples ≤ samples.length + 1 then
            some (((samples ++ [us]).map asU32).sum / (samples.length + 1 : Nat))
          else none } := by
  have hlength : (samples ++ [us]).length = samples.length + 1 := by
    rw [List.length_append, List.length_singleton]
  have hall : (samples ++ [us]).take baselineSamples = samples ++ [us] := by
    apply List.take_of_length_le
    omega
  simp only [ofSamples, baselineSum, hall, hlength, breachStreak_eq_zero h.le]
  rw [breachStreak_eq_zero (by omega)]
  split_ifs with hfull
  · have hfive : samples.length + 1 = baselineSamples := by omega
    rw [hfive]
  · rfl

/-- A sample that fits is taken up, and the answer is the right one. -/
theorem onSample_ok {overflowChecks : Bool} (h : Fits (samples ++ [asF32 micros])) :
    (ofSamples samples).onSample overflowChecks micros =
      .ok (ofSamples (samples ++ [asF32 micros]), degraded (samples ++ [asF32 micros])) := by
  by_cases hjudged : baselineSamples ≤ samples.length
  · have hfits := h.2
    rw [onSample_judged hjudged, ofSamples_judged hjudged, degraded]
    rw [breachStreak_append_singleton hjudged] at hfits ⊢
    split_ifs at hfits ⊢ with hslow
    · rw [Checked.bind_ok (add32_ok hfits)]
      rfl
    · rfl
  · have hcollecting : samples.length < baselineSamples := Nat.lt_of_not_le hjudged
    have hlength : (samples ++ [asF32 micros]).length = samples.length + 1 := by
      rw [List.length_append, List.length_singleton]
    have hnot : degraded (samples ++ [asF32 micros]) = false := by
      rw [degraded, breachStreak_eq_zero (by omega)]
      rfl
    rw [onSample_collected hcollecting, ofSamples_collected hcollecting, hnot]
    split_ifs with hfull
    · have hsum := h.1 (by omega)
      rw [baselineSum_eq (by omega)] at hsum
      rw [Checked.bind_ok (foldlM_add32_ok (by omega)), Nat.zero_add]
      rfl
    · have hnone : (ofSamples samples).baselineUs = none := if_neg hjudged
      rw [← hnone]

/-- A sample that does not fit is the end of a build with overflow checks. -/
theorem onSample_panics (hbefore : Fits samples) (h : ¬ Fits (samples ++ [asF32 micros])) :
    (ofSamples samples).onSample true micros = .error .overflow := by
  by_cases hjudged : baselineSamples ≤ samples.length
  · have hbaseline : baselineSum (samples ++ [asF32 micros]) = baselineSum samples := by
      rw [baselineSum, List.take_append_of_le_length hjudged]
      rfl
    have hcount : ¬ breachStreak (samples ++ [asF32 micros]) < 2 ^ 32 := by
      intro hcount
      apply h
      refine ⟨fun _ => ?_, hcount⟩
      rw [hbaseline]
      exact hbefore.1 hjudged
    rw [onSample_judged hjudged]
    rw [breachStreak_append_singleton hjudged] at hcount
    split_ifs at hcount ⊢ with hslow
    · rw [Checked.bind_panics (add32_panics hcount)]
    · cases hcount (by decide)
  · have hcollecting : samples.length < baselineSamples := Nat.lt_of_not_le hjudged
    have hlength : (samples ++ [asF32 micros]).length = samples.length + 1 := by
      rw [List.length_append, List.length_singleton]
    have hzero := @breachStreak_eq_zero (samples ++ [asF32 micros]) (by omega)
    have hsum : ¬ (baselineSamples ≤ samples.length + 1 →
        ((samples ++ [asF32 micros]).map asU32).sum < 2 ^ 32) := by
      intro hsum
      apply h
      refine ⟨fun hfull => ?_, by omega⟩
      rw [baselineSum_eq (by omega)]
      exact hsum (by omega)
    obtain ⟨hfull, hlarge⟩ := Classical.not_imp.mp hsum
    rw [onSample_collected hcollecting, if_pos hfull,
      Checked.bind_panics (foldlM_add32_panics (by decide) (by omega))]

end RttEstimator

/-! Whole histories. -/

open RttEstimator

theorem feed_ok {overflowChecks : Bool} {samples : List Nat} {inputs : List RttInput}
    (h : FitsFrom samples inputs) :
    ∃ s, feed overflowChecks (ofSamples samples) inputs = .ok (s, answersFrom samples inputs) := by
  induction inputs generalizing samples with
  | nil => exact ⟨_, rfl⟩
  | cons input inputs ih =>
      cases input with
      | sample micros =>
          obtain ⟨s, hs⟩ := ih h.2
          refine ⟨s, ?_⟩
          rw [feed, Checked.bind_ok (onSample_ok h.1)]
          dsimp only
          rw [Checked.bind_ok hs]
          rfl
      | resetBaseline =>
          obtain ⟨s, hs⟩ := @ih [] h
          refine ⟨s, ?_⟩
          change (do
            let (last, answers) ← feed overflowChecks (ofSamples []) inputs
            return (last, none :: answers)) = _
          rw [Checked.bind_ok hs]
          rfl

theorem feed_panics {samples : List Nat} {inputs : List RttInput} (hbefore : Fits samples)
    (h : ¬ FitsFrom samples inputs) :
    feed true (ofSamples samples) inputs = .error .overflow := by
  induction inputs generalizing samples with
  | nil => cases h trivial
  | cons input inputs ih =>
      cases input with
      | sample micros =>
          by_cases hfits : Fits (samples ++ [asF32 micros])
          · have hlater : ¬ FitsFrom (samples ++ [asF32 micros]) inputs := fun hlater =>
              h ⟨hfits, hlater⟩
            rw [feed, Checked.bind_ok (onSample_ok hfits)]
            dsimp only
            rw [Checked.bind_panics (ih hfits hlater)]
          · rw [feed, Checked.bind_panics (onSample_panics hbefore hfits)]
      | resetBaseline =>
          have hrest := ih fits_nil h
          change (do
            let (last, answers) ← feed true (ofSamples []) inputs
            return (last, none :: answers)) = _
          rw [Checked.bind_panics hrest]

/-- With and without overflow checks, every sample is answered as it should be. -/
def AnsweredExactly (inputs : List RttInput) : Prop :=
  ∀ overflowChecks, ∃ s, feed overflowChecks .new inputs = .ok (s, answersFrom [] inputs)

/-- The estimator is exact as long as its 32-bit sum and counter are, and no sooner
answers yes than after the samples of the baseline and three more. -/
theorem answeredExactly_iff (inputs : List RttInput) :
    (AnsweredExactly inputs ↔ FitsFrom [] inputs) ∧
      ∀ samples, degraded samples →
        baselineSamples + consecutiveBreachesRequired ≤ samples.length := by
  refine ⟨⟨fun hexact => ?_, fun hfits overflowChecks => feed_ok hfits⟩,
    fun samples hdegraded => length_of_degraded hdegraded⟩
  apply Classical.byContradiction
  intro hnot
  obtain ⟨s, hs⟩ := hexact true
  have hpanics : feed true (ofSamples []) inputs = .error .overflow := feed_panics fits_nil hnot
  have hstart : ofSamples [] = .new := rfl
  rw [hstart, hs] at hpanics
  cases hpanics

/-- Five round trips of a quarter of an hour: the sum overflows, and in a build without
overflow checks the next three of the same length count as a degradation. -/
theorem slowBaseline_overflows :
    feed true .new (List.replicate 5 (.sample 900000000)) = .error .overflow ∧
      (feed false .new (List.replicate 8 (.sample 900000000))).map (·.2) =
        .ok [some false, some false, some false, some false, some false, some false,
          some false, some true] ∧
      ¬ AnsweredExactly (List.replicate 5 (.sample 900000000)) := by
  refine ⟨by decide +kernel, by decide +kernel, ?_⟩
  intro hexact
  obtain ⟨s, hs⟩ := hexact true
  have hpanics : feed true .new (List.replicate 5 (.sample 900000000)) = .error .overflow := by
    decide +kernel
  rw [hpanics] at hs
  cases hs

end EvertyDesk.Evrt2
