import EvertyDesk.Lib.Checked
import EvertyDesk.Lib.Machine
import Mathlib.Algebra.Group.Int.Defs
import Mathlib.Tactic.SplitIfs

/-!
How the host relieves a client that cannot keep up. Every report of the client either
adds to a score of strain or counts as recovery; enough strain tightens the bitrate by one
step, enough recovery loosens it by one. A step is announced first and taken when the
encoder asks for it. Times are readings of the clock in nanoseconds.
-/

namespace EvertyDesk.Host

inductive Pressure where
  | normal
  | high
  | critical
deriving DecidableEq, Repr

/-- What a client reports of itself, as far as the relief reads it. -/
structure ReceiverFeedback where
  pressure : Pressure
  backlogFrames : Nat
  decodeFps : Nat
  presentDeltaMs : Int
  inputEstimateMs : Int
deriving DecidableEq, Repr

namespace ReceiverFeedback

variable (fb : ReceiverFeedback) (targetFps : Nat)

/-- Slow decoding counts only with frames waiting and past the decoder's warmup. -/
def decodeBehind : Bool :=
  fb.backlogFrames > 0 && fb.decodeFps ≥ 10 && fb.decodeFps ≤ max (targetFps - 3) 28

def decodeCollapsed : Bool :=
  fb.backlogFrames > 0 && fb.decodeFps ≥ 10 && fb.decodeFps ≤ max (targetFps - 8) 24

def presentElevated : Bool := fb.presentDeltaMs ≥ 20

def presentHigh : Bool := fb.presentDeltaMs ≥ 26

def strained : Bool :=
  fb.pressure == .critical || fb.pressure == .high || fb.decodeBehind targetFps ||
    fb.presentElevated

def severe : Bool := fb.pressure == .critical || fb.decodeCollapsed targetFps || fb.presentHigh

/-- What a strained report adds to the score. -/
def weight : Int :=
  let pressure : Int :=
    if fb.pressure == .critical then 3 else if fb.pressure == .high then 2 else 0
  let decode : Int :=
    if fb.decodeBehind targetFps then (if fb.decodeCollapsed targetFps then 3 else 2) else 0
  let present : Int :=
    if fb.presentElevated then (if fb.presentHigh then 2 else 1) else 0
  max (pressure + decode + present) 1

/-- The report allows the bitrate to be raised again; an input delay that is not
measured does not stand against it. -/
def recovered : Bool :=
  fb.pressure == .normal && (fb.decodeFps == 0 || fb.decodeFps ≥ targetFps - 1) &&
    fb.presentDeltaMs ≥ 0 && fb.presentDeltaMs ≤ 16 &&
    (fb.inputEstimateMs < 0 || fb.inputEstimateMs ≤ 45)

end ReceiverFeedback

/-- An addition of signed 32-bit numbers, which wraps in a build without overflow
checks. -/
def addI32 (overflowChecks : Bool) (left right : Int) : Checked Int :=
  if -2 ^ 31 ≤ left + right ∧ left + right < 2 ^ 31 then .ok (left + right)
  else if overflowChecks then .error .overflow
  else .ok ((left + right).bmod (2 ^ 32))

structure AdaptiveRelief where
  enabled : Bool
  step : Nat
  strainScore : Int
  recoveryScore : Int
  lastChangeAt : Option Nat
  pendingStep : Option Nat
  sessionStart : Nat
deriving DecidableEq, Repr

/-- The readings of the clock in one call: for the grace period, for the cooldown and
for the time of a change. -/
structure ReliefClock where
  grace : Nat
  cooldown : Nat
  change : Nat
deriving DecidableEq, Repr

namespace AdaptiveRelief

def cooldown : Nat := 1800000000
def gracePeriod : Nat := 3000000000

def new (enabled : Bool) (now : Nat) : AdaptiveRelief where
  enabled := enabled
  step := 0
  strainScore := 0
  recoveryScore := 0
  lastChangeAt := none
  pendingStep := none
  sessionStart := now

variable (s : AdaptiveRelief)

def coolingDown (now : Nat) : Bool :=
  match s.lastChangeAt with
  | some t => now - t < cooldown
  | none => false

/-- The scores after a report. -/
def score (overflowChecks : Bool) (fb : ReceiverFeedback) (targetFps : Nat) :
    Checked AdaptiveRelief :=
  if fb.strained targetFps then do
    let strain ← addI32 overflowChecks s.strainScore (fb.weight targetFps)
    return { s with strainScore := strain, recoveryScore := 0 }
  else do
    let recovery ← addI32 overflowChecks s.recoveryScore 1
    let strain ← addI32 overflowChecks s.strainScore (-1)
    return { s with strainScore := max strain 0, recoveryScore := recovery }

/-- The strain from which on the bitrate is tightened. -/
def threshold (fb : ReceiverFeedback) (targetFps : Nat) : Int :=
  if s.step = 0 then 4 else if fb.severe targetFps then 4 else 6

/-- The step that the scores call for, if it is another one. -/
def considerStep (fb : ReceiverFeedback) (targetFps now : Nat) : AdaptiveRelief × Option Nat :=
  if s.step < 2 ∧ s.threshold fb targetFps ≤ s.strainScore then
    ({ s with
      pendingStep := some (s.step + 1)
      strainScore := 0
      lastChangeAt := some now }, some (s.step + 1))
  else if 0 < s.step ∧ 10 ≤ s.recoveryScore ∧ fb.recovered targetFps then
    ({ s with
      pendingStep := some (s.step - 1)
      recoveryScore := 0
      lastChangeAt := some now }, some (s.step - 1))
  else (s, none)

/-- One report; the step that the encoder is to be set to, if it is another one. -/
def onFeedback (overflowChecks : Bool) (fb : ReceiverFeedback) (targetFps : Nat)
    (clock : ReliefClock) : Checked (AdaptiveRelief × Option Nat) :=
  if s.enabled = false then .ok (s, none)
  else if clock.grace - s.sessionStart < gracePeriod then .ok (s, none)
  else if s.coolingDown clock.cooldown then .ok (s, none)
  else do
    let scored ← s.score overflowChecks fb targetFps
    return scored.considerStep fb targetFps clock.change

def bitrateScaleMilli (step : Nat) : Nat :=
  match step with
  | 0 => 1000
  | 1 => 880
  | _ => 800

def applyPendingMilli : AdaptiveRelief × Option Nat :=
  match s.pendingStep with
  | none => (s, none)
  | some step => ({ s with step := step, pendingStep := none }, some (bitrateScaleMilli step))

end AdaptiveRelief

inductive ReliefCall where
  | onFeedback (fb : ReceiverFeedback) (targetFps : Nat) (clock : ReliefClock)
  | applyPendingMilli
deriving DecidableEq, Repr

/-- A history of calls, each with what it answers. A call that panics has no next
state. -/
def reliefHistory (overflowChecks : Bool) :
    Machine AdaptiveRelief ReliefCall (Checked (Option Nat)) where
  step s
    | .onFeedback fb targetFps clock =>
        match s.onFeedback overflowChecks fb targetFps clock with
        | .ok (next, answer) => (next, .ok answer)
        | .error panic => (s, .error panic)
    | .applyPendingMilli =>
        let (next, scale) := s.applyPendingMilli
        (next, .ok scale)

/-! What a call should do, and when it does. -/

/-- Two different steps with none between them. -/
def NextTo (step other : Nat) : Prop := step ≤ 2 ∧ other ≤ 2 ∧ (other = step + 1 ∨ step = other + 1)

/-- The scores stay 32-bit numbers, the answer to a report is a neighbouring step, a
higher one only if the report is strained, and the encoder moves by one step at most. -/
def Relieves (overflowChecks : Bool) (s : AdaptiveRelief) : ReliefCall → Prop
  | .onFeedback fb targetFps clock =>
      (∃ result, s.onFeedback true fb targetFps clock = .ok result) ∧
        ∀ next answer, s.onFeedback overflowChecks fb targetFps clock = .ok (next, answer) →
          next.step = s.step ∧ ∀ step ∈ answer,
            NextTo s.step step ∧ (s.step < step → fb.strained targetFps)
  | .applyPendingMilli =>
      s.applyPendingMilli.1.step = s.step ∨ NextTo s.step s.applyPendingMilli.1.step

/-- The report is one that is not ignored. -/
def Heeded (s : AdaptiveRelief) (clock : ReliefClock) : Prop :=
  s.enabled ∧ AdaptiveRelief.gracePeriod ≤ clock.grace - s.sessionStart ∧
    s.coolingDown clock.cooldown = false

/-- The strain left over is low enough for a report without strain, and no score has
reached its last number. -/
def Worn (s : AdaptiveRelief) : ReliefCall → Prop
  | .onFeedback fb targetFps clock =>
      Heeded s clock →
        if fb.strained targetFps then s.strainScore + fb.weight targetFps < 2 ^ 31
        else s.recoveryScore + 1 < 2 ^ 31 ∧
          (s.step < 2 → s.strainScore ≤ if s.step = 0 then 4 else 6)
  | .applyPendingMilli => True

/-- What holds of the relief between two calls. -/
structure Poised (s : AdaptiveRelief) : Prop where
  step_le : s.step ≤ 2
  strain_nonneg : 0 ≤ s.strainScore
  strain_lt : s.strainScore < 2 ^ 31
  recovery_nonneg : 0 ≤ s.recoveryScore
  pending : ∀ step ∈ s.pendingStep, NextTo s.step step

theorem poised_new (enabled : Bool) (now : Nat) : Poised (AdaptiveRelief.new enabled now) where
  step_le := by simp [AdaptiveRelief.new]
  strain_nonneg := by simp [AdaptiveRelief.new]
  strain_lt := by simp [AdaptiveRelief.new]
  recovery_nonneg := by simp [AdaptiveRelief.new]
  pending := by simp [AdaptiveRelief.new]

/-! The scores. -/

theorem addI32_ok {overflowChecks : Bool} {left right : Int} (hlow : -2 ^ 31 ≤ left + right)
    (hhigh : left + right < 2 ^ 31) : addI32 overflowChecks left right = .ok (left + right) :=
  if_pos ⟨hlow, hhigh⟩

theorem addI32_panics {left right : Int} (h : ¬ left + right < 2 ^ 31) :
    addI32 true left right = .error .overflow := by
  rw [addI32, if_neg fun hfits => h hfits.2, if_pos rfl]

namespace ReceiverFeedback

variable {fb : ReceiverFeedback} {targetFps : Nat}

theorem weight_pos : 1 ≤ fb.weight targetFps := le_max_right _ _

theorem decodeBehind_of_decodeCollapsed (h : fb.decodeCollapsed targetFps) :
    fb.decodeBehind targetFps := by
  simp only [decodeCollapsed, decodeBehind, Bool.and_eq_true, decide_eq_true_eq] at h ⊢
  refine ⟨h.1, h.2.trans ?_⟩
  omega

theorem presentElevated_of_presentHigh (h : fb.presentHigh) : fb.presentElevated := by
  simp only [presentHigh, presentElevated, decide_eq_true_eq] at h ⊢
  omega

/-- A severe report is a strained one. -/
theorem strained_of_severe (h : fb.severe targetFps) : fb.strained targetFps := by
  simp only [severe, strained, Bool.or_eq_true] at h ⊢
  rcases h with (hcritical | hcollapsed) | hhigh
  · exact .inl (.inl (.inl hcritical))
  · exact .inl (.inr (decodeBehind_of_decodeCollapsed hcollapsed))
  · exact .inr (presentElevated_of_presentHigh hhigh)

end ReceiverFeedback

namespace AdaptiveRelief

variable {s : AdaptiveRelief} {overflowChecks : Bool} {fb : ReceiverFeedback}
  {targetFps : Nat} {clock : ReliefClock}

theorem score_strained (h : Poised s) (hstrained : fb.strained targetFps)
    (hfits : s.strainScore + fb.weight targetFps < 2 ^ 31) :
    s.score overflowChecks fb targetFps = .ok { s with
      strainScore := s.strainScore + fb.weight targetFps, recoveryScore := 0 } := by
  have hstrain := h.strain_nonneg
  have hweight : 1 ≤ fb.weight targetFps := ReceiverFeedback.weight_pos
  rw [score, if_pos hstrained, Checked.bind_ok (addI32_ok (by omega) hfits)]
  rfl

theorem score_healthy (h : Poised s) (hstrained : ¬ fb.strained targetFps)
    (hfits : s.recoveryScore + 1 < 2 ^ 31) :
    s.score overflowChecks fb targetFps = .ok { s with
      strainScore := max (s.strainScore - 1) 0, recoveryScore := s.recoveryScore + 1 } := by
  have hrecovery := h.recovery_nonneg
  have hstrain := h.strain_nonneg
  have hlast := h.strain_lt
  rw [score, if_neg hstrained, Checked.bind_ok (addI32_ok (by omega) hfits),
    Checked.bind_ok (addI32_ok (by omega) (by omega))]
  rfl

theorem onFeedback_ignored (h : ¬ Heeded s clock) :
    s.onFeedback overflowChecks fb targetFps clock = .ok (s, none) := by
  unfold onFeedback
  split_ifs with henabled hgrace hcooling
  · rfl
  · rfl
  · rfl
  · refine absurd ⟨?_, ?_, ?_⟩ h
    · simpa using henabled
    · omega
    · simpa using hcooling

theorem onFeedback_heeded (h : Heeded s clock) :
    s.onFeedback overflowChecks fb targetFps clock = (do
      let scored ← s.score overflowChecks fb targetFps
      return scored.considerStep fb targetFps clock.change) := by
  obtain ⟨henabled, hgrace, hcooling⟩ := h
  unfold onFeedback
  rw [if_neg (by simp [henabled]), if_neg (by omega), if_neg (by simp [hcooling])]

/-- Where the report is healthy, the strain must exceed what a step allows. -/
theorem threshold_of_healthy (h : ¬ fb.strained targetFps) :
    s.threshold fb targetFps = if s.step = 0 then 4 else 6 := by
  rw [threshold, if_neg (mt ReceiverFeedback.strained_of_severe h)]

theorem considerStep_step (fb : ReceiverFeedback) (targetFps now : Nat) :
    (s.considerStep fb targetFps now).1.step = s.step := by
  unfold considerStep
  split_ifs <;> rfl

theorem considerStep_nextTo (fb : ReceiverFeedback) (targetFps now : Nat) (h : s.step ≤ 2) :
    ∀ step ∈ (s.considerStep fb targetFps now).2, NextTo s.step step := by
  unfold considerStep
  intro step hstep
  split_ifs at hstep with htighten hloosen
  · obtain rfl := Option.mem_some.mp hstep
    exact ⟨h, by omega, .inl rfl⟩
  · obtain rfl := Option.mem_some.mp hstep
    exact ⟨h, by omega, .inr (by omega)⟩
  · cases hstep

/-- The bitrate is tightened exactly when the strain has reached the threshold. -/
theorem considerStep_tightens_iff (fb : ReceiverFeedback) (targetFps now : Nat) (h : s.step ≤ 2) :
    (∃ step ∈ (s.considerStep fb targetFps now).2, s.step < step) ↔
      s.step < 2 ∧ s.threshold fb targetFps ≤ s.strainScore := by
  unfold considerStep
  split_ifs with htighten hloosen
  · exact ⟨fun _ => htighten, fun _ => ⟨_, rfl, Nat.lt_succ_self _⟩⟩
  · refine ⟨fun ⟨step, hstep, hlt⟩ => ?_, fun hboth => absurd hboth htighten⟩
    obtain rfl := Option.mem_some.mp hstep
    omega
  · refine ⟨fun ⟨step, hstep, _⟩ => ?_, fun hboth => absurd hboth htighten⟩
    cases hstep

theorem considerStep_poised {now : Nat} (h : Poised s) :
    Poised (s.considerStep fb targetFps now).1 := by
  have hstep := considerStep_nextTo fb targetFps now h.step_le
  unfold considerStep at hstep ⊢
  split_ifs at hstep ⊢ with htighten hloosen
  · exact { h with
      strain_nonneg := le_refl _
      strain_lt := by simp
      pending := hstep }
  · exact { h with
      recovery_nonneg := le_refl _
      pending := hstep }
  · exact h

theorem applyPendingMilli_poised (h : Poised s) : Poised s.applyPendingMilli.1 := by
  unfold applyPendingMilli
  cases hpending : s.pendingStep with
  | none => exact h
  | some step =>
      have hnext := h.pending step hpending
      exact { h with
        step_le := hnext.2.1
        pending := fun other hother => by cases hother }

/-- What is announced is next to the step in force. -/
theorem applyPendingMilli_step (h : Poised s) :
    s.applyPendingMilli.1.step = s.step ∨ NextTo s.step s.applyPendingMilli.1.step := by
  unfold applyPendingMilli
  cases hpending : s.pendingStep with
  | none => exact .inl rfl
  | some step => exact .inr (h.pending step hpending)

end AdaptiveRelief

/-! Whole histories. -/

section

variable {s : AdaptiveRelief} {overflowChecks : Bool} {fb : ReceiverFeedback}
  {targetFps : Nat} {clock : ReliefClock}

/-- A report for which the scores are known does what a report should exactly when it
does not tighten the bitrate without strain. -/
theorem relieves_scored_iff {scored : AdaptiveRelief} (hheeded : Heeded s clock)
    (hscore : ∀ overflowChecks, s.score overflowChecks fb targetFps = .ok scored)
    (hstep : scored.step = s.step) (hle : s.step ≤ 2) :
    Relieves overflowChecks s (.onFeedback fb targetFps clock) ↔
      (s.step < 2 → scored.threshold fb targetFps ≤ scored.strainScore →
        fb.strained targetFps) := by
  have hrun : ∀ overflowChecks, s.onFeedback overflowChecks fb targetFps clock =
      .ok (scored.considerStep fb targetFps clock.change) := by
    intro overflowChecks
    rw [AdaptiveRelief.onFeedback_heeded hheeded, Checked.bind_ok (hscore overflowChecks)]
    rfl
  have htightens := AdaptiveRelief.considerStep_tightens_iff fb targetFps clock.change (hstep ▸ hle)
  rw [hstep] at htightens
  constructor
  · rintro ⟨_, hall⟩ hlt hthreshold
    obtain ⟨step, hmem, hhigher⟩ := htightens.mpr ⟨hlt, hthreshold⟩
    exact ((hall _ _ (hrun overflowChecks)).2 step hmem).2 hhigher
  · intro h
    refine ⟨⟨_, hrun true⟩, fun next answer hanswer => ?_⟩
    have hresult : scored.considerStep fb targetFps clock.change = (next, answer) :=
      Except.ok.inj ((hrun overflowChecks).symm.trans hanswer)
    have hnextTo := AdaptiveRelief.considerStep_nextTo fb targetFps clock.change (hstep ▸ hle)
    have hkept := scored.considerStep_step fb targetFps clock.change
    rw [hresult] at htightens
    rw [hresult, hstep] at hnextTo hkept
    refine ⟨hkept, fun step hmem => ⟨hnextTo step hmem, fun hhigher => ?_⟩⟩
    obtain ⟨hlt, hthreshold⟩ := htightens.mp ⟨step, hmem, hhigher⟩
    exact h hlt hthreshold

/-- From a poised state a call does what it should exactly when the strain is worn. -/
theorem relieves_iff_worn {call : ReliefCall} (h : Poised s) :
    Relieves overflowChecks s call ↔ Worn s call := by
  cases call with
  | applyPendingMilli => exact ⟨fun _ => trivial, fun _ => s.applyPendingMilli_step h⟩
  | onFeedback fb targetFps clock =>
      by_cases hheeded : Heeded s clock
      · rw [Worn, forall_prop_of_true hheeded]
        by_cases hstrained : fb.strained targetFps
        · rw [if_pos hstrained]
          by_cases hfits : s.strainScore + fb.weight targetFps < 2 ^ 31
          · rw [relieves_scored_iff hheeded
              (fun _ => AdaptiveRelief.score_strained h hstrained hfits) rfl h.step_le]
            exact ⟨fun _ => hfits, fun _ _ _ => hstrained⟩
          · refine ⟨fun ⟨⟨result, hresult⟩, _⟩ => ?_, fun hlt => absurd hlt hfits⟩
            rw [AdaptiveRelief.onFeedback_heeded hheeded, AdaptiveRelief.score,
              if_pos hstrained, addI32_panics hfits] at hresult
            cases hresult
        · rw [if_neg hstrained]
          by_cases hfits : s.recoveryScore + 1 < 2 ^ 31
          · rw [relieves_scored_iff hheeded
              (fun _ => AdaptiveRelief.score_healthy h hstrained hfits) rfl h.step_le,
              AdaptiveRelief.threshold_of_healthy hstrained]
            simp only [hstrained, hfits, true_and, Bool.false_eq_true, imp_false]
            split_ifs <;> omega
          · refine ⟨fun ⟨⟨result, hresult⟩, _⟩ => ?_, fun hlt => absurd hlt.1 hfits⟩
            rw [AdaptiveRelief.onFeedback_heeded hheeded, AdaptiveRelief.score,
              if_neg hstrained, addI32_panics hfits] at hresult
            cases hresult
      · refine ⟨fun _ hheed => absurd hheed hheeded, fun _ =>
          ⟨⟨_, AdaptiveRelief.onFeedback_ignored hheeded⟩, fun next answer hanswer => ?_⟩⟩
        rw [AdaptiveRelief.onFeedback_ignored hheeded] at hanswer
        obtain ⟨rfl, rfl⟩ := Prod.mk.inj (Except.ok.inj hanswer)
        exact ⟨rfl, fun step hstep => by cases hstep⟩

/-- Worn calls leave the relief poised. -/
theorem poised_step {call : ReliefCall} (h : Poised s) (hworn : Worn s call) :
    Poised ((reliefHistory overflowChecks).step s call).1 := by
  cases call with
  | applyPendingMilli => exact s.applyPendingMilli_poised h
  | onFeedback fb targetFps clock =>
      by_cases hheeded : Heeded s clock
      · have hworn := hworn hheeded
        have hscored : ∃ scored, s.score overflowChecks fb targetFps = .ok scored ∧
            Poised scored := by
          have hstrain := h.strain_nonneg
          have hlast := h.strain_lt
          have hrecovery := h.recovery_nonneg
          by_cases hstrained : fb.strained targetFps
          · rw [if_pos hstrained] at hworn
            have hweight : 1 ≤ fb.weight targetFps := ReceiverFeedback.weight_pos
            exact ⟨_, AdaptiveRelief.score_strained h hstrained hworn, { h with
              strain_nonneg := by dsimp only; omega
              strain_lt := hworn
              recovery_nonneg := le_refl _ }⟩
          · rw [if_neg hstrained] at hworn
            exact ⟨_, AdaptiveRelief.score_healthy h hstrained hworn.1, { h with
              strain_nonneg := le_max_right _ _
              strain_lt := by dsimp only; omega
              recovery_nonneg := by dsimp only; omega }⟩
        obtain ⟨scored, hscore, hpoised⟩ := hscored
        have hrun : s.onFeedback overflowChecks fb targetFps clock =
            .ok (scored.considerStep fb targetFps clock.change) := by
          rw [AdaptiveRelief.onFeedback_heeded hheeded, Checked.bind_ok hscore]
          rfl
        simp only [reliefHistory, hrun]
        exact AdaptiveRelief.considerStep_poised hpoised
      · simp only [reliefHistory, AdaptiveRelief.onFeedback_ignored hheeded]
        exact h

end

/-- In every history of a session, each call does what it should, exactly as long as the
reports without strain find the strain worn and the scores keep to their numbers. -/
theorem relieves_along_iff_worn (overflowChecks enabled : Bool) (sessionStart : Nat)
    (calls : List ReliefCall) :
    (reliefHistory overflowChecks).Along (Relieves overflowChecks)
        (AdaptiveRelief.new enabled sessionStart) calls ↔
      (reliefHistory overflowChecks).Along Worn
        (AdaptiveRelief.new enabled sessionStart) calls := by
  apply Machine.along_congr
  · intro s call h
    exact ⟨relieves_iff_worn h, fun hworn => poised_step h hworn⟩
  · exact poised_new enabled sessionStart

/-! An overloaded client that has recovered. -/

/-- A report that comes so many milliseconds after the start of the session. -/
def reportAt (fb : ReceiverFeedback) (millis : Nat) : ReliefCall :=
  .onFeedback fb 30 ⟨millis * 1000000, millis * 1000000, millis * 1000000⟩

def overloadedReport : ReceiverFeedback where
  pressure := .critical
  backlogFrames := 4
  decodeFps := 30
  presentDeltaMs := 30
  inputEstimateMs := -1

def healthyReport : ReceiverFeedback where
  pressure := .normal
  backlogFrames := 0
  decodeFps := 30
  presentDeltaMs := 0
  inputEstimateMs := -1

/-- Two steps are taken, the client stays overloaded for four reports more and then
recovers, which takes one step back. -/
def overloadThenRecovery : List ReliefCall :=
  [reportAt overloadedReport 4000, .applyPendingMilli,
    reportAt overloadedReport 6000, .applyPendingMilli] ++
  [8000, 8500, 9000, 9500].map (reportAt overloadedReport) ++
  [10000, 10500, 11000, 11500, 12000, 12500, 13000, 13500, 14000, 14500].map
    (reportAt healthyReport) ++
  [.applyPendingMilli]

/-- The next healthy report tightens the bitrate again. -/
theorem healthy_report_tightens :
    ¬ (reliefHistory true).Along (Relieves true) (AdaptiveRelief.new true 0)
      (overloadThenRecovery ++ [reportAt healthyReport 17000]) := by
  intro h
  have hlast := ((Machine.along_append _ _ _ _ _).mp h).2.1
  have hanswer : (((reliefHistory true).run (AdaptiveRelief.new true 0)
      overloadThenRecovery).onFeedback true healthyReport 30
        ⟨17000000000, 17000000000, 17000000000⟩) = .ok (⟨true, 1, 0, 1, some 17000000000,
          some 2, 0⟩, some 2) := by
    decide
  have htightened := (hlast.2 _ _ hanswer).2 2 rfl
  have hstrained := htightened.2 (by decide)
  revert hstrained
  decide

end EvertyDesk.Host
