import EvertyDesk.Transport.AdaptiveStream

/-!
Whether a rate that was lowered comes back. While the frames are decoded well the session
climbs the ladder one step at a time, and so reaches the rate that it was started with
just where that rate is a step of the ladder.
-/

namespace EvertyDesk.Transport

open RunSession

def LoopStep.calm (step : LoopStep) : Bool :=
  !step.interferes && step.reported.all SessionFeedback.healthy

/-- A stretch in which only good frames are reported: enough of them for any rate, and one
more when eight seconds are over. -/
structure CalmStretch (since finish : Nat) (steps : List LoopStep) : Prop where
  calm : ∀ step ∈ steps, step.calm = true
  within : ∀ t ∈ steps.filterMap LoopStep.reportedAt, t ≤ finish
  ripe : ∃ before t report after, steps = before ++ .feedback t report :: after ∧
    since + seconds 8 ≤ t ∧ 479 ≤ (before.filterMap LoopStep.reported).length

/-- Stretches one after the other. -/
def CalmStretches : Nat → List (List LoopStep) → Prop
  | _, [] => True
  | since, stretch :: rest =>
      ∃ finish, since ≤ finish ∧ CalmStretch since finish stretch ∧ CalmStretches finish rest

/-- A session that adapts its rate and has not done so lately. -/
structure Adapting (cfg : SessionConfig) (last : Nat) (s : RunSession) : Prop where
  adaptive : s.adaptiveQuality = true
  running : s.returned = false
  low : 5 ≤ s.targetVideoFps
  high : s.targetVideoFps ≤ cfg.initialVideoFps
  past : s.lastAdaptiveRaise ≤ last

section Climb

variable (cfg : SessionConfig)

theorem raiseQuality_adaptation (s : RunSession) (now queueMs decodeMs : Nat) :
    (s.raiseQuality cfg now queueMs decodeMs).adaptation = s.adaptation := by
  unfold raiseQuality
  split
  · split
    · split <;> rfl
    · rfl
  · rfl

theorem recoverLatency_of_not_late (s : RunSession) (now queueMs decodeMs : Nat)
    (h : decoderLatencyNeedsRecovery queueMs decodeMs = false) :
    s.recoverLatency cfg now queueMs decodeMs = s := by
  unfold recoverLatency
  rw [h, Bool.and_false]
  rfl

/-- After a good frame the rate is raised, or it stays and the frame is counted. -/
theorem raiseStream_healthy (s : RunSession) (now queueMs decodeMs : Nat)
    (hadaptive : s.adaptiveQuality = true) (hqueue : queueMs ≤ 120) (hdecode : decodeMs ≤ 45)
    (hbelow : s.targetVideoFps < cfg.initialVideoFps) :
    let t := s.raiseStream cfg now queueMs decodeMs
    let next := raiseAdaptiveFps s.targetVideoFps cfg.initialVideoFps
    let counted := saturating 32 (s.stableDecodedFrames + 1)
    t.adaptation = (next, now, 0, true, s.returned) ∨
      t.adaptation = (s.targetVideoFps, s.lastAdaptiveRaise, counted, true, s.returned) ∧
        (neededStableFrames s.targetVideoFps ≤ counted →
          seconds 8 ≤ now - s.lastAdaptiveRaise → next = s.targetVideoFps) := by
  have hwell : s.decodesWell cfg queueMs decodeMs = true := by
    simp only [decodesWell, hadaptive, hqueue, hdecode, hbelow, decide_true, Bool.and_self]
  dsimp only
  unfold raiseStream
  rw [if_pos hwell]
  dsimp only
  split
  · split
    · left
      simp only [adaptation, sendVideoStart, write, hadaptive]
    · next hnot =>
        have hcases := raiseAdaptiveFps_cases s.targetVideoFps cfg.initialVideoFps
        refine .inr ⟨?_, fun _ _ => hcases.resolve_right fun h => hnot h.1⟩
        simp only [adaptation, hadaptive]
  · next hnot =>
      refine .inr ⟨?_, fun hneeded hwait => absurd ⟨hneeded, hwait⟩ hnot⟩
      simp only [adaptation, hadaptive]

/-- What a good frame does, below the highest rate and at it. -/
theorem onFeedback_healthy (s : RunSession) (now : Nat) (feedback : SessionFeedback)
    (hadaptive : s.adaptiveQuality = true) (hhealthy : feedback.healthy = true) :
    let t := s.onFeedback cfg now feedback
    let next := raiseAdaptiveFps s.targetVideoFps cfg.initialVideoFps
    let counted := saturating 32 (s.stableDecodedFrames + 1)
    if s.targetVideoFps < cfg.initialVideoFps then
      t.adaptation = (next, now, 0, true, s.returned) ∨
        t.adaptation = (s.targetVideoFps, s.lastAdaptiveRaise, counted, true, s.returned) ∧
          (neededStableFrames s.targetVideoFps ≤ counted →
            seconds 8 ≤ now - s.lastAdaptiveRaise → next = s.targetVideoFps)
    else t.adaptation = (s.targetVideoFps, s.lastAdaptiveRaise, 0, true, s.returned) := by
  cases feedback with
  | frameDecoded codec queueMs decodeMs =>
      have hcleared : (s.clearDecodeFailures codec).adaptation = s.adaptation := by
        cases codec <;> rfl
      have hlate : decoderLatencyNeedsRecovery queueMs decodeMs = false :=
        not_late_of_healthy hhealthy
      simp only [SessionFeedback.healthy, Bool.and_eq_true, decide_eq_true_eq] at hhealthy
      simp only [onFeedback, onFrameDecoded, recoverLatency_of_not_late cfg _ now _ _ hlate]
      have himproved := (raiseQuality_adaptation cfg (s.clearDecodeFailures codec) now queueMs
        decodeMs).trans hcleared
      generalize (s.clearDecodeFailures codec).raiseQuality cfg now queueMs decodeMs = improved
        at himproved
      simp only [adaptation, Prod.mk.injEq] at himproved
      obtain ⟨hfps, hlast, hstable, hadaptive', hreturned⟩ := himproved
      split
      · next hbelow =>
          have hraise := raiseStream_healthy cfg improved now queueMs decodeMs
            (hadaptive'.trans hadaptive) hhealthy.1 hhealthy.2 (hfps ▸ hbelow)
          rwa [hfps, hlast, hstable, hreturned] at hraise
      · next htop =>
          have hnot : improved.decodesWell cfg queueMs decodeMs = false := by
            simp only [decodesWell, hfps, htop, decide_false, Bool.and_false, Bool.false_and]
          unfold raiseStream
          rw [hnot, if_neg Bool.false_ne_true]
          simp only [adaptation, hfps, hlast, hadaptive', hadaptive, hreturned]
  | _ => contradiction

theorem min_le_saturating (n : Nat) : min 479 n ≤ saturating 32 n :=
  Nat.le_min.mpr ⟨Nat.min_le_right 479 n, Nat.le_trans (Nat.min_le_left 479 n) (by decide)⟩

/-- How far a session has come from a state in which it adapts: a step of the ladder, or
no step yet and so many more good frames. -/
def Progress (s t : RunSession) (frames : Nat) : Prop :=
  raiseAdaptiveFps s.targetVideoFps cfg.initialVideoFps ≤ t.targetVideoFps ∨
    t.targetVideoFps = s.targetVideoFps ∧ t.lastAdaptiveRaise = s.lastAdaptiveRaise ∧
      min 479 (s.stableDecodedFrames + frames) ≤ t.stableDecodedFrames

variable {cfg}

theorem raiseAdaptiveFps_le {s : RunSession} {last : Nat} (h : Adapting cfg last s) :
    s.targetVideoFps ≤ raiseAdaptiveFps s.targetVideoFps cfg.initialVideoFps ∧
      raiseAdaptiveFps s.targetVideoFps cfg.initialVideoFps ≤ cfg.initialVideoFps := by
  have hhigh := h.high
  have hcases := raiseAdaptiveFps_cases s.targetVideoFps cfg.initialVideoFps
  omega

theorem Adapting.mono {s : RunSession} {last finish : Nat} (h : Adapting cfg last s)
    (hle : last ≤ finish) : Adapting cfg finish s :=
  ⟨h.adaptive, h.running, h.low, h.high, Nat.le_trans h.past hle⟩

theorem Progress.trans {s t u : RunSession} {m n : Nat} (hst : Progress cfg s t m)
    (htu : Progress cfg t u n) (hle : t.targetVideoFps ≤ u.targetVideoFps) :
    Progress cfg s u (m + n) := by
  obtain hstep | ⟨hfps, hlast, hcount⟩ := hst
  · exact .inl (Int.le_trans hstep hle)
  · obtain hstep | ⟨hfps', hlast', hcount'⟩ := htu
    · rw [hfps] at hstep
      exact .inl hstep
    · exact .inr ⟨hfps'.trans hfps, hlast'.trans hlast, by omega⟩

/-- One part of a calm turn. -/
theorem Adapting.step {s : RunSession} {finish : Nat} {step : LoopStep}
    (h : Adapting cfg finish s) (hcalm : step.calm = true)
    (hclock : ∀ t, step.reportedAt = some t → t ≤ finish) :
    let t := ((runSession cfg).step s step).1
    Adapting cfg finish t ∧ s.targetVideoFps ≤ t.targetVideoFps ∧
      Progress cfg s t (step.reported.toList.length) := by
  have hclimb := raiseAdaptiveFps_le h
  have hlow := h.low
  have hhigh := h.high
  have hpast := h.past
  dsimp only
  rw [step_of_not_returned cfg h.running]
  simp only [LoopStep.calm, Bool.and_eq_true, Bool.not_eq_true'] at hcalm
  cases hreport : step.reported with
  | none =>
      have hsame := act_adaptation cfg s hreport hcalm.1
      simp only [adaptation, Prod.mk.injEq] at hsame
      obtain ⟨hfps, hlast, hstable, hadaptive, hreturned⟩ := hsame
      refine ⟨⟨hadaptive.trans h.adaptive, hreturned.trans h.running, by omega, by omega,
        by omega⟩, by omega, .inr ⟨hfps, hlast, ?_⟩⟩
      rw [Option.toList_none, List.length_nil]
      omega
  | some report =>
      obtain ⟨now, rfl⟩ := feedback_of_reported hreport
      have hnow : now ≤ finish := hclock now rfl
      have hhealthy : report.healthy = true := hcalm.2
      have hdone := onFeedback_healthy cfg s now report h.adaptive hhealthy
      rw [Option.toList_some, List.length_singleton]
      simp only [act]
      dsimp only at hdone
      split at hdone
      · obtain hraised | ⟨hcounted, -⟩ := hdone
        · simp only [adaptation, Prod.mk.injEq] at hraised
          obtain ⟨hfps, hlast, hstable, hadaptive, hreturned⟩ := hraised
          exact ⟨⟨hadaptive, hreturned.trans h.running, by omega, by omega, by omega⟩,
            by omega, .inl (by omega)⟩
        · simp only [adaptation, Prod.mk.injEq] at hcounted
          obtain ⟨hfps, hlast, hstable, hadaptive, hreturned⟩ := hcounted
          refine ⟨⟨hadaptive, hreturned.trans h.running, by omega, by omega, by omega⟩,
            by omega, .inr ⟨hfps, hlast, ?_⟩⟩
          rw [hstable]
          exact min_le_saturating (s.stableDecodedFrames + 1)
      · simp only [adaptation, Prod.mk.injEq] at hdone
        obtain ⟨hfps, hlast, hstable, hadaptive, hreturned⟩ := hdone
        exact ⟨⟨hadaptive, hreturned.trans h.running, by omega, by omega, by omega⟩,
          by omega, .inl (by omega)⟩

/-- The way through calm turns. -/
theorem Adapting.run {s : RunSession} {finish : Nat} {steps : List LoopStep}
    (h : Adapting cfg finish s) (hcalm : ∀ step ∈ steps, step.calm = true)
    (hclock : ∀ t ∈ steps.filterMap LoopStep.reportedAt, t ≤ finish) :
    let t := (runSession cfg).run s steps
    Adapting cfg finish t ∧ s.targetVideoFps ≤ t.targetVideoFps ∧
      Progress cfg s t (steps.filterMap LoopStep.reported).length := by
  induction steps generalizing s with
  | nil => exact ⟨h, Int.le_refl _, .inr ⟨rfl, rfl, Nat.min_le_right _ _⟩⟩
  | cons step steps ih =>
      have hnow : ∀ t, step.reportedAt = some t → t ≤ finish := by
        intro t ht
        exact hclock t (by rw [List.filterMap_cons_some ht]; exact List.mem_cons_self)
      have hlater : ∀ t ∈ steps.filterMap LoopStep.reportedAt, t ≤ finish := by
        intro t ht
        obtain ⟨i, hi, hti⟩ := List.mem_filterMap.mp ht
        exact hclock t (List.mem_filterMap.mpr ⟨i, List.mem_cons_of_mem _ hi, hti⟩)
      obtain ⟨hadapting, hle, hprogress⟩ := h.step (hcalm step List.mem_cons_self) hnow
      obtain ⟨hadapting', hle', hprogress'⟩ := ih hadapting
        (fun i hi => hcalm i (List.mem_cons_of_mem _ hi)) hlater
      refine ⟨hadapting', Int.le_trans hle hle', ?_⟩
      have hlength : (step :: steps |>.filterMap LoopStep.reported).length =
          step.reported.toList.length + (steps.filterMap LoopStep.reported).length := by
        rw [List.filterMap_cons]
        cases step.reported with
        | none => rw [Option.toList_none, List.length_nil, Nat.zero_add]
        | some report =>
            rw [Option.toList_some, List.length_singleton, List.length_cons, Nat.add_comm]
      rw [hlength]
      exact hprogress.trans hprogress' hle'

theorem neededStableFrames_lt {fps : Int} (h : fps < 60) : neededStableFrames fps < 480 := by
  have hle : neededStableFrames fps ≤ (max fps 5).toNat * 8 := Nat.min_le_left _ _
  omega

/-- A frame after 479 good ones and eight seconds without a change. -/
theorem ripe_step {s : RunSession} {finish now : Nat} {report : SessionFeedback}
    (h : Adapting cfg finish s) (hhealthy : report.healthy = true)
    (hstable : 479 ≤ s.stableDecodedFrames) (hwait : s.lastAdaptiveRaise + seconds 8 ≤ now) :
    raiseAdaptiveFps s.targetVideoFps cfg.initialVideoFps ≤
      (((runSession cfg).step s (.feedback now report)).1).targetVideoFps := by
  have hclimb := raiseAdaptiveFps_le h
  have hordered := cfg.rates_ordered
  have hdone := onFeedback_healthy cfg s now report h.adaptive hhealthy
  rw [step_of_not_returned cfg h.running]
  simp only [act]
  dsimp only at hdone
  split at hdone
  · next hbelow =>
      obtain hraised | ⟨hcounted, hdue⟩ := hdone
      · simp only [adaptation, Prod.mk.injEq] at hraised
        exact Int.le_of_eq hraised.1.symm
      · simp only [adaptation, Prod.mk.injEq] at hcounted
        have hneeded := neededStableFrames_lt (show s.targetVideoFps < 60 by omega)
        have hcount := min_le_saturating (s.stableDecodedFrames + 1)
        have hsame := hdue (by omega) (Nat.le_sub_of_add_le (by omega))
        omega
  · simp only [adaptation, Prod.mk.injEq] at hdone
    omega

/-- In a calm stretch the rate goes up at least one step. -/
theorem Adapting.climbs {s : RunSession} {since finish : Nat} {steps : List LoopStep}
    (h : Adapting cfg since s) (hle : since ≤ finish) (hstretch : CalmStretch since finish steps) :
    let t := (runSession cfg).run s steps
    Adapting cfg finish t ∧
      raiseAdaptiveFps s.targetVideoFps cfg.initialVideoFps ≤ t.targetVideoFps := by
  obtain ⟨hcalm, hwithin, before, now, report, after, rfl, hlong, hmany⟩ := hstretch
  have hend := ((h.mono hle).run hcalm hwithin).1
  refine ⟨hend, ?_⟩
  obtain ⟨hcalm₁, hcalm₂⟩ := List.forall_mem_append.mp hcalm
  rw [List.filterMap_append] at hwithin
  obtain ⟨hwithin₁, hwithin₂⟩ := List.forall_mem_append.mp hwithin
  obtain ⟨hripe, hcalm₃⟩ := List.forall_mem_cons.mp hcalm₂
  have hwithin₃ : ∀ t ∈ after.filterMap LoopStep.reportedAt, t ≤ finish :=
    fun t ht => hwithin₂ t (List.mem_cons_of_mem now ht)
  obtain ⟨hbefore, hle₁, hprogress⟩ := (h.mono hle).run hcalm₁ hwithin₁
  obtain ⟨hat, hle₂, -⟩ := hbefore.step hripe fun t ht =>
    Option.some.inj ht ▸ hwithin₂ now List.mem_cons_self
  obtain ⟨-, hle₃, -⟩ := hat.run hcalm₃ hwithin₃
  rw [Machine.run_append, Machine.run_cons]
  obtain hstep | ⟨hfps, hlast, hcount⟩ := hprogress
  · exact Int.le_trans hstep (Int.le_trans hle₂ hle₃)
  · have hpast := h.past
    simp only [LoopStep.calm, Bool.and_eq_true] at hripe
    have hwait : ((runSession cfg).run s before).lastAdaptiveRaise + seconds 8 ≤ now := by omega
    have hraise := ripe_step hbefore hripe.2 (by omega) hwait
    rw [hfps] at hraise
    exact Int.le_trans hraise hle₃

/-- All steps of the ladder up to one, as far as the session may go, lie behind it. -/
def Passed (cfg : SessionConfig) (k : Nat) (fps : Int) : Prop :=
  ∀ rung ∈ raiseLadder.take k, rung ≤ cfg.initialVideoFps → rung ≤ fps

/-- Each stretch takes the session past one more step. -/
theorem Adapting.passes {s : RunSession} {since k : Nat} {stretches : List (List LoopStep)}
    (h : Adapting cfg since s) (hpassed : Passed cfg k s.targetVideoFps)
    (hstretches : CalmStretches since stretches) :
    let t := (runSession cfg).run s stretches.flatten
    t.targetVideoFps ≤ cfg.initialVideoFps ∧ s.targetVideoFps ≤ t.targetVideoFps ∧
      Passed cfg (k + stretches.length) t.targetVideoFps := by
  induction stretches generalizing s since k with
  | nil => exact ⟨h.high, Int.le_refl _, hpassed⟩
  | cons stretch rest ih =>
      obtain ⟨finish, hle, hstretch, hrest⟩ := hstretches
      obtain ⟨hadapting, hclimb⟩ := h.climbs hle hstretch
      have hpassed' : Passed cfg (k + 1) ((runSession cfg).run s stretch).targetVideoFps := by
        intro rung hmem hmax
        exact Int.le_trans (raiseLadder_take_succ hpassed rung hmem hmax) hclimb
      obtain ⟨hhigh, hlow, hall⟩ := ih hadapting hpassed' hrest
      rw [List.flatten_cons, Machine.run_append, List.length_cons, ← Nat.add_assoc,
        Nat.add_right_comm k]
      have hup := (raiseAdaptiveFps_le h).1
      exact ⟨hhigh, Int.le_trans (Int.le_trans hup hclimb) hlow, hall⟩

/-- A session whose viewer chooses no rate stays between its rates. -/
structure Between (cfg : SessionConfig) (s : RunSession) : Prop where
  low : cfg.minVideoFps ≤ s.targetVideoFps
  high : s.targetVideoFps ≤ cfg.initialVideoFps

theorem backlogMin_lt (cfg : SessionConfig) {fps : Int} (hlow : cfg.minVideoFps ≤ fps)
    (hbelow : fps < cfg.initialVideoFps) : cfg.backlogMinVideoFps < cfg.initialVideoFps := by
  have hordered := cfg.rates_ordered
  unfold SessionConfig.backlogMinVideoFps backlogRecoveryMinFps
  dsimp only
  rw [clampFps_id (by omega) hordered.2.2.2, clampFps_id hordered.1 (by omega)]
  split <;> omega

/-- A step without a choice of the viewer. Off the ladder there is no way back up to the
initial rate. -/
theorem Between.step {s : RunSession} {step : LoopStep} (h : Between cfg s)
    (hviewer : step.setsRate = false) :
    let t := ((runSession cfg).step s step).1
    Between cfg t ∧ (cfg.initialVideoFps ∉ raiseLadder →
      s.targetVideoFps < cfg.initialVideoFps → t.targetVideoFps < cfg.initialVideoFps) := by
  have hordered := cfg.rates_ordered
  obtain ⟨hlow, hhigh⟩ := h
  dsimp only
  cases hreturned : s.returned with
  | true =>
      rw [step_of_returned cfg hreturned]
      exact ⟨⟨hlow, hhigh⟩, fun _ hbelow => hbelow⟩
  | false =>
      rw [step_of_not_returned cfg hreturned]
      cases hreport : step.reported with
      | none =>
          obtain hrate | ⟨hsets, -⟩ := act_rate cfg s hreport
          · simp only [rate, Prod.mk.injEq] at hrate
            exact ⟨⟨by omega, by omega⟩, fun _ hbelow => by omega⟩
          · rw [hviewer] at hsets
            contradiction
      | some report =>
          obtain ⟨now, rfl⟩ := feedback_of_reported hreport
          have hchange : RateChange cfg now report s (s.onFeedback cfg now report) :=
            onFeedback_rateChange cfg report (by omega) (by omega)
          simp only [act]
          have hcases := raiseAdaptiveFps_cases s.targetVideoFps cfg.initialVideoFps
          cases hchange with
          | kept hfps hlast hstable =>
              exact ⟨⟨by omega, by omega⟩, fun _ hbelow => by omega⟩
          | lowered hfps hfloor hlast hstable =>
              exact ⟨⟨by omega, by omega⟩, fun _ hbelow => by omega⟩
          | switched hcodec hfps hlast hstable =>
              exact ⟨⟨by omega, by omega⟩, fun _ hbelow => by omega⟩
          | floored hlate hbelow hfps hlast hstable =>
              refine ⟨⟨by omega, by omega⟩, fun _ hless => ?_⟩
              have hbacklog := backlogMin_lt cfg hlow hless
              omega
          | raised hhealthy hfps hhigher hneeded hwait hlast hstable =>
              refine ⟨⟨by omega, by omega⟩, fun hoff _ => ?_⟩
              obtain hsame | ⟨-, hmax, hmem⟩ := hcases
              · omega
              · rw [hfps]
                exact lt_of_le_of_ne hmax fun heq => hoff (heq ▸ hmem)

theorem Between.run {s : RunSession} {steps : List LoopStep} (h : Between cfg s)
    (hviewer : ∀ step ∈ steps, step.setsRate = false) :
    let t := (runSession cfg).run s steps
    Between cfg t ∧ (cfg.initialVideoFps ∉ raiseLadder →
      s.targetVideoFps < cfg.initialVideoFps → t.targetVideoFps < cfg.initialVideoFps) := by
  induction steps generalizing s with
  | nil => exact ⟨h, fun _ hbelow => hbelow⟩
  | cons step steps ih =>
      obtain ⟨hfirst, hrest⟩ := List.forall_mem_cons.mp hviewer
      obtain ⟨hnext, hbelow⟩ := h.step hfirst
      obtain ⟨hend, hbelow'⟩ := ih hnext hrest
      exact ⟨hend, fun hoff hless => hbelow' hoff (hbelow hoff hless)⟩

theorem between_start (t₀ : Nat) : Between cfg (start cfg t₀) := by
  have hordered := cfg.rates_ordered
  have hstart := start_rate cfg t₀
  simp only [rate, Prod.mk.injEq] at hstart
  exact ⟨by omega, by omega⟩

theorem setsRate_of_calm {step : LoopStep} (h : step.calm = true) : step.setsRate = false := by
  unfold LoopStep.calm LoopStep.interferes at h
  unfold LoopStep.setsRate SessionCommand.setsRate
  split
  · split
    · simp at h
    · simp at h
    · rfl
  · rfl

theorem calm_flatten {since : Nat} {stretches : List (List LoopStep)}
    (h : CalmStretches since stretches) : ∀ step ∈ stretches.flatten, step.calm = true := by
  induction stretches generalizing since with
  | nil => intro step hmem; contradiction
  | cons stretch rest ih =>
      obtain ⟨finish, -, hstretch, hrest⟩ := h
      intro step hmem
      obtain hfirst | hlater := List.mem_append.mp hmem
      · exact hstretch.calm step hfirst
      · exact ih hrest step hlater

/-- Five calm stretches after any run in which the viewer chose no rate, the session is
back at its initial rate just if that is a step of the ladder or was never left. -/
theorem comes_back_iff (t₀ since : Nat) (before : List LoopStep) (s : RunSession)
    (hs : s = (runSession cfg).run (start cfg t₀) before)
    (hviewer : ∀ step ∈ before, step.setsRate = false)
    (hadaptive : s.adaptiveQuality = true) (hrunning : s.returned = false)
    (hsince : s.lastAdaptiveRaise ≤ since) (stretches : List (List LoopStep))
    (hcalm : CalmStretches since stretches) (hfive : 5 ≤ stretches.length) :
    ((runSession cfg).run s stretches.flatten).targetVideoFps = cfg.initialVideoFps ↔
      cfg.initialVideoFps ∈ raiseLadder ∨ s.targetVideoFps = cfg.initialVideoFps := by
  have hordered := cfg.rates_ordered
  have hbetween : Between cfg s := hs ▸ ((between_start t₀).run hviewer).1
  have hlow := hbetween.low
  have hadapting : Adapting cfg since s := ⟨hadaptive, hrunning, by omega, hbetween.high, hsince⟩
  have hfirst : Passed cfg 1 s.targetVideoFps := by
    intro rung hmem hmax
    obtain rfl := List.mem_singleton.mp hmem
    omega
  obtain ⟨hhigh, hup, hpassed⟩ := hadapting.passes hfirst hcalm
  constructor
  · intro hback
    by_contra hnot
    obtain ⟨hoff, hleft⟩ := not_or.mp hnot
    have hquiet : ∀ step ∈ stretches.flatten, step.setsRate = false :=
      fun step hmem => setsRate_of_calm (calm_flatten hcalm step hmem)
    have hbelow := (hbetween.run hquiet).2 hoff (lt_of_le_of_ne hbetween.high hleft)
    exact absurd hback (Int.ne_of_lt hbelow)
  · rintro (hrung | hnever)
    · have hall : raiseLadder.take (1 + stretches.length) = raiseLadder :=
        List.take_of_length_le (by rw [show raiseLadder.length = 6 from rfl]; omega)
      have hreached := hpassed cfg.initialVideoFps (by rwa [hall]) (Int.le_refl _)
      omega
    · omega

private theorem calmStretch_replicate (since : Nat) :
    CalmStretch since (since + seconds 8)
      (List.replicate 480 (.feedback (since + seconds 8) (.frameDecoded .h264 0 0))) where
  calm step hmem := by rw [List.eq_of_mem_replicate hmem]; rfl
  within t ht := by
    obtain ⟨step, hmem, ht⟩ := List.mem_filterMap.mp ht
    rw [List.eq_of_mem_replicate hmem] at ht
    exact Nat.le_of_eq (Option.some.inj ht).symm
  ripe := by
    refine ⟨List.replicate 479 (.feedback (since + seconds 8) (.frameDecoded .h264 0 0)),
      since + seconds 8, .frameDecoded .h264 0 0, [], ?_, Nat.le_refl _, ?_⟩
    · exact List.replicate_succ'
    · have hreport : LoopStep.reported (.feedback (since + seconds 8) (.frameDecoded .h264 0 0)) =
          some (.frameDecoded .h264 0 0) := rfl
      rw [List.filterMap_replicate_of_some hreport, List.length_replicate]

/-- From 20 frames a second back to 60. -/
theorem comes_back_sixty :
    let cfg : SessionConfig := ⟨false, .auto, 60, 10, true, ⟨true, false, false, true, false⟩⟩
    let s := (runSession cfg).run (start cfg 0)
      [.feedback (seconds 5) (.decodeFailed .h264), .feedback (seconds 10) (.decodeFailed .h264)]
    let frames := fun t => List.replicate 480 (.feedback t (.frameDecoded .h264 0 0))
    s.targetVideoFps = 20 ∧
      ((runSession cfg).run s [frames (seconds 18), frames (seconds 26), frames (seconds 34),
        frames (seconds 42), frames (seconds 50)].flatten).targetVideoFps = 60 := by
  intro cfg s frames
  have hcalm : CalmStretches (seconds 10) [frames (seconds 18), frames (seconds 26),
      frames (seconds 34), frames (seconds 42), frames (seconds 50)] :=
    ⟨_, by decide, calmStretch_replicate (seconds 10), _, by decide,
      calmStretch_replicate (seconds 18), _, by decide, calmStretch_replicate (seconds 26), _,
      by decide, calmStretch_replicate (seconds 34), _, by decide,
      calmStretch_replicate (seconds 42), trivial⟩
  refine ⟨by decide +kernel, ?_⟩
  exact (comes_back_iff 0 (seconds 10) [.feedback (seconds 5) (.decodeFailed .h264),
    .feedback (seconds 10) (.decodeFailed .h264)] s rfl (by decide) (by decide +kernel)
    (by decide +kernel) (by decide +kernel) _ hcalm (by decide)).mpr (.inl (by decide))

end Climb

end EvertyDesk.Transport
