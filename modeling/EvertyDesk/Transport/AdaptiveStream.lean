import EvertyDesk.Lib.Observations
import EvertyDesk.Lib.Streaks
import EvertyDesk.Transport.SessionLoop

/-!
When a session asks the host for a higher frame rate. What the decoder reports lowers the
rate at once; it raises the rate after a streak of frames that were decoded well, and
where the rate was below the minimum of the step that acts.
-/

namespace EvertyDesk.Transport

open RunSession

/-- A frame that waited and was decoded for a short time only. -/
def SessionFeedback.healthy : SessionFeedback → Bool
  | .frameDecoded _ queueMs decodeMs => decide (queueMs ≤ 120) && decide (decodeMs ≤ 45)
  | _ => false

def SessionFeedback.late : SessionFeedback → Bool
  | .frameDecoded _ queueMs decodeMs => decoderLatencyNeedsRecovery queueMs decodeMs
  | _ => false

namespace SessionConfig

variable (cfg : SessionConfig)

theorem rates_ordered :
    5 ≤ cfg.minVideoFps ∧ cfg.minVideoFps ≤ cfg.backlogMinVideoFps ∧
      cfg.backlogMinVideoFps ≤ cfg.initialVideoFps ∧ cfg.initialVideoFps ≤ 60 := by
  have hinitial : 5 ≤ cfg.initialVideoFps ∧ cfg.initialVideoFps ≤ 60 :=
    clampFps_bounds _ (by decide)
  have hmin : 5 ≤ cfg.minVideoFps ∧ cfg.minVideoFps ≤ cfg.initialVideoFps :=
    clampFps_bounds _ hinitial.1
  have hbacklog := backlogRecoveryMinFps_bounds hmin.1 hmin.2 hinitial.2
  exact ⟨hmin.1, hbacklog.1, hbacklog.2, hinitial.2⟩

end SessionConfig

/-- What one report of the decoder does to the rate. -/
inductive RateChange (cfg : SessionConfig) (now : Nat) (feedback : SessionFeedback)
    (s s' : RunSession) : Prop
  | kept (hfps : s'.targetVideoFps = s.targetVideoFps)
      (hlast : s'.lastAdaptiveRaise = s.lastAdaptiveRaise ∨ s'.lastAdaptiveRaise = now)
      (hstable : s'.stableDecodedFrames = 0 ∨
        feedback.healthy = true ∧ s'.stableDecodedFrames ≤ s.stableDecodedFrames + 1)
  | lowered (hfps : s'.targetVideoFps < s.targetVideoFps)
      (hfloor : cfg.minVideoFps ≤ s'.targetVideoFps)
      (hlast : s'.lastAdaptiveRaise = now) (hstable : s'.stableDecodedFrames = 0)
  | switched (hcodec : s'.codecPreference ≠ s.codecPreference)
      (hfps : s'.targetVideoFps = max (min s.targetVideoFps cfg.initialVideoFps) cfg.minVideoFps)
      (hlast : s'.lastAdaptiveRaise = s.lastAdaptiveRaise)
      (hstable : s'.stableDecodedFrames = 0)
  | floored (hlate : feedback.late = true) (hbelow : s.targetVideoFps < cfg.backlogMinVideoFps)
      (hfps : s'.targetVideoFps = cfg.backlogMinVideoFps)
      (hlast : s'.lastAdaptiveRaise = now) (hstable : s'.stableDecodedFrames = 0)
  | raised (hhealthy : feedback.healthy = true)
      (hfps : s'.targetVideoFps = raiseAdaptiveFps s.targetVideoFps cfg.initialVideoFps)
      (hhigher : s.targetVideoFps < s'.targetVideoFps)
      (hneeded : neededStableFrames s.targetVideoFps ≤ s.stableDecodedFrames + 1)
      (hwait : seconds 8 ≤ now - s.lastAdaptiveRaise)
      (hlast : s'.lastAdaptiveRaise = now) (hstable : s'.stableDecodedFrames = 0)

section Feedback

variable (cfg : SessionConfig) {now : Nat} {s : RunSession}

theorem lowerStream_cases (s : RunSession) (now : Nat) (minFps : Int) :
    s.lowerStream cfg now minFps = s ∨
      ((s.lowerStream cfg now minFps).targetVideoFps =
          lowerAdaptiveFps s.targetVideoFps minFps false ∧
        (s.lowerStream cfg now minFps).targetVideoFps < s.targetVideoFps ∧
        (s.lowerStream cfg now minFps).lastAdaptiveRaise = now ∧
        (s.lowerStream cfg now minFps).stableDecodedFrames = s.stableDecodedFrames) := by
  unfold lowerStream
  split
  · dsimp only
    split
    · next hlower => exact .inr ⟨rfl, hlower, rfl, rfl⟩
    · exact .inl rfl
  · exact .inl rfl

/-- A stream that is lowered after a failure keeps at least the minimum. -/
private theorem rateChange_lowerStream {feedback : SessionFeedback} {t : RunSession} {minFps : Int}
    (hfps : t.targetVideoFps = s.targetVideoFps)
    (hlast : t.lastAdaptiveRaise = s.lastAdaptiveRaise) (hstable : t.stableDecodedFrames = 0)
    (hmin : cfg.minVideoFps ≤ minFps) (hmax : minFps ≤ 60) :
    RateChange cfg now feedback s (t.lowerStream cfg now minFps) := by
  obtain hsame | ⟨hnext, hlower, hnow, hkept⟩ := lowerStream_cases cfg t now minFps
  · rw [hsame]
    exact .kept hfps (.inl hlast) (.inl hstable)
  · have hordered := cfg.rates_ordered
    have hbounds := lowerAdaptiveFps_bounds t.targetVideoFps minFps false
    rw [clampFps_id (by omega) hmax] at hbounds
    exact .lowered (hfps ▸ hlower) (by omega) hnow (hkept.trans hstable)

theorem codecSwitched_eq_some {t : RunSession} {codec : DecodedCodec}
    (h : s.codecSwitched cfg codec = some t) :
    t.codecPreference ≠ s.codecPreference ∧ t.targetVideoFps = s.targetVideoFps ∧
      t.lastAdaptiveRaise = s.lastAdaptiveRaise ∧
      t.stableDecodedFrames = s.stableDecodedFrames ∧ t.currentDisplay = s.currentDisplay ∧
      t.relay = s.relay := by
  cases codec <;> simp only [codecSwitched] at h
  case other => contradiction
  all_goals
    split at h
    · next hswitch =>
        obtain rfl := Option.some.inj h
        refine ⟨fun heq => ?_, rfl, rfl, rfl, rfl, rfl⟩
        dsimp only at heq
        rw [heq] at hswitch
        tauto
    · contradiction

theorem onDecodeFailed_rateChange (codec : DecodedCodec) :
    RateChange cfg now (.decodeFailed codec) s (s.onDecodeFailed cfg now codec) := by
  have hordered := cfg.rates_ordered
  have hcounted : ∀ t : RunSession, (t.countDecodeFailure codec).targetVideoFps = t.targetVideoFps ∧
      (t.countDecodeFailure codec).lastAdaptiveRaise = t.lastAdaptiveRaise ∧
      (t.countDecodeFailure codec).stableDecodedFrames = t.stableDecodedFrames ∧
      (t.countDecodeFailure codec).codecPreference = t.codecPreference := by
    intro t
    cases codec <;> exact ⟨rfl, rfl, rfl, rfl⟩
  obtain ⟨hfps, hlast, hstable, hcodec⟩ := hcounted { s with stableDecodedFrames := 0 }
  unfold onDecodeFailed
  dsimp only
  split
  · next t hswitch =>
      obtain ⟨hcodec', hfps', hlast', hstable', -⟩ := codecSwitched_eq_some cfg hswitch
      refine .switched ?_ ?_ (hlast'.trans hlast) (hstable'.trans hstable)
      · exact fun heq => hcodec' (heq.trans hcodec.symm)
      · exact congrArg (fun fps => max (min fps _) _) (hfps'.trans hfps)
  · exact rateChange_lowerStream cfg hfps hlast hstable (Int.le_refl _) (by omega)

/-- A recovery from late decoding lowers the rate or, where it lies below the minimum
after a backlog, sets it to that minimum. -/
theorem recoverLatency_cases (s : RunSession) (now queueMs decodeMs : Nat)
    (hlow : 5 ≤ s.targetVideoFps) (hhigh : s.targetVideoFps ≤ 60) :
    let t := s.recoverLatency cfg now queueMs decodeMs
    (t.targetVideoFps = s.targetVideoFps ∧ t.lastAdaptiveRaise = s.lastAdaptiveRaise ∧
        (t.stableDecodedFrames = s.stableDecodedFrames ∨
          decoderLatencyNeedsRecovery queueMs decodeMs = true)) ∨
      (decoderLatencyNeedsRecovery queueMs decodeMs = true ∧ t.lastAdaptiveRaise = now ∧
        (t.targetVideoFps ≤ s.targetVideoFps ∧ cfg.minVideoFps ≤ t.targetVideoFps ∨
          s.targetVideoFps < cfg.backlogMinVideoFps ∧
            t.targetVideoFps = cfg.backlogMinVideoFps)) := by
  have hordered := cfg.rates_ordered
  have hbounds := lowerAdaptiveFps_bounds s.targetVideoFps cfg.backlogMinVideoFps
    (latencyIsSevere queueMs decodeMs)
  rw [clampFps_id hlow hhigh, clampFps_id (by omega) (by omega)] at hbounds
  unfold recoverLatency
  dsimp only
  split
  · next hneeds =>
      have hlate : decoderLatencyNeedsRecovery queueMs decodeMs = true :=
        (Bool.and_eq_true_iff.mp hneeds).2
      split
      · split
        · refine .inr ⟨hlate, rfl, ?_⟩
          change lowerAdaptiveFps _ _ _ ≤ _ ∧ _ ≤ lowerAdaptiveFps _ _ _ ∨
            _ ∧ lowerAdaptiveFps _ _ _ = _
          omega
        · exact .inl ⟨rfl, rfl, .inr hlate⟩
      · exact .inl ⟨rfl, rfl, .inr hlate⟩
  · exact .inl ⟨rfl, rfl, .inl rfl⟩

theorem raiseQuality_rate (s : RunSession) (now queueMs decodeMs : Nat) :
    let t := s.raiseQuality cfg now queueMs decodeMs
    t.targetVideoFps = s.targetVideoFps ∧ t.lastAdaptiveRaise = s.lastAdaptiveRaise ∧
      t.stableDecodedFrames = s.stableDecodedFrames := by
  dsimp only
  unfold raiseQuality
  split
  · split
    · split <;> exact ⟨rfl, rfl, rfl⟩
    · exact ⟨rfl, rfl, rfl⟩
  · exact ⟨rfl, rfl, rfl⟩

theorem raiseStream_cases (codec : DecodedCodec) (s : RunSession) (now queueMs decodeMs : Nat) :
    let t := s.raiseStream cfg now queueMs decodeMs
    let feedback := SessionFeedback.frameDecoded codec queueMs decodeMs
    (t.targetVideoFps = s.targetVideoFps ∧ t.lastAdaptiveRaise = s.lastAdaptiveRaise ∧
        (t.stableDecodedFrames = 0 ∨
          feedback.healthy = true ∧ t.stableDecodedFrames ≤ s.stableDecodedFrames + 1)) ∨
      (feedback.healthy = true ∧
        t.targetVideoFps = raiseAdaptiveFps s.targetVideoFps cfg.initialVideoFps ∧
        s.targetVideoFps < t.targetVideoFps ∧
        neededStableFrames s.targetVideoFps ≤ s.stableDecodedFrames + 1 ∧
        seconds 8 ≤ now - s.lastAdaptiveRaise ∧ t.lastAdaptiveRaise = now ∧
        t.stableDecodedFrames = 0) := by
  dsimp only
  unfold raiseStream
  split
  · next hwell =>
      simp only [decodesWell, Bool.and_eq_true] at hwell
      have hhealthy : (SessionFeedback.frameDecoded codec queueMs decodeMs).healthy = true :=
        Bool.and_eq_true_iff.mpr ⟨hwell.1.2, hwell.2⟩
      have hcount : saturating 32 (s.stableDecodedFrames + 1) ≤ s.stableDecodedFrames + 1 :=
        Nat.min_le_left _ _
      dsimp only
      split
      · next hdue =>
          split
          · next hraise =>
              exact .inr ⟨hhealthy, rfl, hraise, Nat.le_trans hdue.1 hcount, hdue.2, rfl, rfl⟩
          · exact .inl ⟨rfl, rfl, .inr ⟨hhealthy, hcount⟩⟩
      · exact .inl ⟨rfl, rfl, .inr ⟨hhealthy, hcount⟩⟩
  · exact .inl ⟨rfl, rfl, .inl rfl⟩

theorem not_late_of_healthy {feedback : SessionFeedback} (h : feedback.healthy = true) :
    feedback.late = false := by
  cases feedback with
  | frameDecoded codec queueMs decodeMs =>
      simp only [SessionFeedback.healthy, Bool.and_eq_true, decide_eq_true_eq] at h
      simp only [SessionFeedback.late, decoderLatencyNeedsRecovery, Bool.or_eq_false_iff,
        decide_eq_false_iff_not]
      omega
  | _ => rfl

theorem onFrameDecoded_rateChange (codec : DecodedCodec) (queueMs decodeMs : Nat)
    (hlow : 5 ≤ s.targetVideoFps) (hhigh : s.targetVideoFps ≤ 60) :
    RateChange cfg now (.frameDecoded codec queueMs decodeMs) s
      (s.onFrameDecoded cfg now codec queueMs decodeMs) := by
  have hcleared : (s.clearDecodeFailures codec).targetVideoFps = s.targetVideoFps ∧
      (s.clearDecodeFailures codec).lastAdaptiveRaise = s.lastAdaptiveRaise ∧
      (s.clearDecodeFailures codec).stableDecodedFrames = s.stableDecodedFrames := by
    cases codec <;> exact ⟨rfl, rfl, rfl⟩
  unfold onFrameDecoded
  generalize s.clearDecodeFailures codec = cleared at hcleared
  obtain ⟨hfps₀, hlast₀, hstable₀⟩ := hcleared
  have hrecovery := recoverLatency_cases cfg cleared now queueMs decodeMs (by omega) (by omega)
  generalize cleared.recoverLatency cfg now queueMs decodeMs = recovered at hrecovery
  have hquality := raiseQuality_rate cfg recovered now queueMs decodeMs
  generalize recovered.raiseQuality cfg now queueMs decodeMs = improved at hquality
  have hraise := raiseStream_cases cfg codec improved now queueMs decodeMs
  generalize improved.raiseStream cfg now queueMs decodeMs = last at hraise
  dsimp only at hrecovery hquality hraise
  obtain ⟨hfps₂, hlast₂, hstable₂⟩ := hquality
  -- A healthy frame is not late, so nothing was recovered before it.
  have huntouched : (SessionFeedback.frameDecoded codec queueMs decodeMs).healthy = true →
      recovered.targetVideoFps = cleared.targetVideoFps ∧
        recovered.lastAdaptiveRaise = cleared.lastAdaptiveRaise ∧
        recovered.stableDecodedFrames = cleared.stableDecodedFrames := by
    intro hhealthy
    have hnot : decoderLatencyNeedsRecovery queueMs decodeMs ≠ true :=
      Bool.eq_false_iff.mp (not_late_of_healthy hhealthy)
    obtain ⟨hfps, hlast, hstable⟩ | ⟨hlate, -⟩ := hrecovery
    · exact ⟨hfps, hlast, hstable.resolve_right hnot⟩
    · exact absurd hlate hnot
  obtain ⟨hfps, hlast, hstable⟩ | ⟨hhealthy, hfps, hhigher, hneeded, hwait, hlast, hstable⟩ :=
    hraise
  · obtain hzero | ⟨hhealthy, hcount⟩ := hstable
    · obtain ⟨hfps₁, hlast₁, -⟩ | ⟨hlate, hlast₁, hfps₁⟩ := hrecovery
      · exact .kept (by omega) (.inl (by omega)) (.inl hzero)
      · obtain ⟨hle, hmin⟩ | ⟨hbelow, hfloor⟩ := hfps₁
        · obtain hlt | heq := Int.lt_or_eq_of_le hle
          · exact .lowered (by omega) (by omega) (by omega) hzero
          · exact .kept (by omega) (.inr (by omega)) (.inl hzero)
        · exact .floored hlate (by omega) (by omega) (by omega) hzero
    · obtain ⟨hfps₁, hlast₁, hstable₁⟩ := huntouched hhealthy
      exact .kept (by omega) (.inl (by omega)) (.inr ⟨hhealthy, by omega⟩)
  · obtain ⟨hfps₁, hlast₁, hstable₁⟩ := huntouched hhealthy
    rw [hfps₂, hfps₁, hfps₀] at hfps hhigher hneeded
    exact .raised hhealthy hfps hhigher (by omega) (by omega) hlast hstable

theorem onFeedback_rateChange (feedback : SessionFeedback) (hlow : 5 ≤ s.targetVideoFps)
    (hhigh : s.targetVideoFps ≤ 60) :
    RateChange cfg now feedback s (s.onFeedback cfg now feedback) := by
  cases feedback with
  | backlogTrimmed =>
      have hordered := cfg.rates_ordered
      exact rateChange_lowerStream cfg rfl rfl rfl hordered.2.1 (by omega)
  | evrtckChainBroken => exact .kept rfl (.inl rfl) (.inl rfl)
  | decodeFailed codec => exact onDecodeFailed_rateChange cfg codec
  | frameDecoded codec queueMs decodeMs =>
      exact onFrameDecoded_rateChange cfg codec queueMs decodeMs hlow hhigh

end Feedback

/-! The other parts of a turn. -/

/-- What the raising of the rate depends on. -/
def RunSession.adaptation (s : RunSession) : Int × Nat × Nat × Bool × Bool :=
  (s.targetVideoFps, s.lastAdaptiveRaise, s.stableDecodedFrames, s.adaptiveQuality, s.returned)

def RunSession.rate (s : RunSession) : Int × Nat × Nat :=
  (s.targetVideoFps, s.lastAdaptiveRaise, s.stableDecodedFrames)

/-- The viewer has chosen a rate. -/
def SessionCommand.setsRate : SessionCommand → Bool
  | .setVideoFps _ | .setVideoProfile .. => true
  | _ => false

def LoopStep.setsRate : LoopStep → Bool
  | .command _ cmd => cmd.setsRate
  | _ => false

/-- The viewer decides about the rate, or the session ends. -/
def LoopStep.interferes : LoopStep → Bool
  | .command _ (.setVideoFps _) | .command _ (.setVideoProfile ..)
  | .command _ (.setAdaptiveQuality _) | .command _ .close | .read _ .failed => true
  | _ => false

def LoopStep.reported : LoopStep → Option SessionFeedback
  | .feedback _ report => some report
  | _ => none

def LoopStep.reportedAt : LoopStep → Option Nat
  | .feedback now _ => some now
  | _ => none

theorem feedback_of_reported {step : LoopStep} {report : SessionFeedback}
    (h : step.reported = some report) : ∃ now, step = .feedback now report := by
  cases step with
  | feedback now feedback => exact ⟨now, by rw [Option.some.inj h]⟩
  | _ => contradiction

section Others

variable (cfg : SessionConfig) (s : RunSession)

theorem flushPendingMouseMove_adaptation :
    s.flushPendingMouseMove.adaptation = s.adaptation := by
  unfold flushPendingMouseMove
  split <;> rfl

theorem onInputCommand_adaptation (command : SessionCommand) :
    (s.onInputCommand command).adaptation = s.adaptation := by
  cases command <;> rfl

theorem onCommand_adaptation (now : Nat) (command : SessionCommand)
    (h : (LoopStep.command now command).interferes = false) :
    (s.onCommand cfg now command).adaptation = s.adaptation := by
  have hflushed := flushPendingMouseMove_adaptation s
  cases command with
  | mouseMove x y => rfl
  | setVideoFps fps => contradiction
  | setVideoProfile fps codec => contradiction
  | setAdaptiveQuality enabled => contradiction
  | close => contradiction
  | screenshot =>
      refine Eq.trans ?_ hflushed
      simp only [onCommand, onOtherCommand]
      split <;> rfl
  | setDisplay index =>
      refine Eq.trans ?_ hflushed
      simp only [onCommand, onOtherCommand]
      split <;> rfl
  | setAutoRefresh enabled millis =>
      refine Eq.trans ?_ hflushed
      simp only [onCommand, onOtherCommand]
      split <;> rfl
  | refreshVideo =>
      refine Eq.trans ?_ hflushed
      simp only [onCommand, onOtherCommand]
      split <;> rfl
  | attachVm vmId => exact hflushed
  | _ => exact (onInputCommand_adaptation _ _).trans hflushed

theorem handleSessionMessage_adaptation (received : Received) :
    (s.handleSessionMessage cfg received).1.adaptation = s.adaptation := by
  have hselected : ∀ windowsSessions,
      (s.sendSelectedWindowsSession windowsSessions).adaptation = s.adaptation := by
    intro windowsSessions
    unfold sendSelectedWindowsSession
    split
    · split <;> rfl
    · rfl
  have hstart : ∀ t : RunSession, (t.sendVideoStartMessages cfg).adaptation = t.adaptation := by
    intro t
    unfold sendVideoStartMessages
    split <;> rfl
  cases received with
  | videoFrame codec bytes sizeKnown => simp only [handleSessionMessage]; split <;> rfl
  | testDelay fromClient => simp only [handleSessionMessage]; split <;> rfl
  | loginResponse windowsSessions => exact (hstart _).trans (hselected windowsSessions)
  | peerInfo windowsSessions => exact (hstart _).trans (hselected windowsSessions)
  | _ => rfl

theorem lowerQuality_adaptation (now : Nat) (fps : ℚ) :
    (s.lowerQuality cfg now fps).adaptation = s.adaptation := by
  unfold lowerQuality
  split
  · split
    · dsimp only
      split <;> rfl
    · rfl
  · rfl

theorem onVideo_adaptation (now : Nat) :
    (s.onVideo cfg now).adaptation = s.adaptation := by
  unfold onVideo
  dsimp only
  split
  · exact lowerQuality_adaptation cfg _ now _
  · rfl

theorem onFrameSource_adaptation (now : Nat) (source : Option FrameSource) :
    (s.onFrameSource cfg now source).adaptation = s.adaptation := by
  unfold onFrameSource
  split
  · unfold onSkippedVideo
    dsimp only
    split <;> rfl
  · rfl
  · exact onVideo_adaptation cfg _ now
  · rfl

theorem onRead_adaptation (now : Nat) {received : Received}
    (h : received ≠ .failed) : (s.onRead cfg now received).adaptation = s.adaptation := by
  unfold onRead
  split
  · split <;> rfl
  · contradiction
  · exact (onFrameSource_adaptation cfg _ now _).trans (handleSessionMessage_adaptation cfg s _)

theorem autoRefreshTick_adaptation (now : Nat) (androidEvrtFrameSeen : Bool) :
    (s.autoRefreshTick cfg now androidEvrtFrameSeen).adaptation = s.adaptation := by
  have hretry : ∀ live, (s.retryLiveVideo cfg now live).adaptation = s.adaptation := by
    intro live
    unfold retryLiveVideo
    split <;> rfl
  unfold autoRefreshTick
  split
  · dsimp only
    split
    · exact hretry _
    · exact hretry _
  · rfl

/-- A part of a turn in which nothing is reported and nobody interferes. -/
theorem act_adaptation {step : LoopStep} (h : step.reported = none)
    (hquiet : step.interferes = false) : (s.act cfg step).adaptation = s.adaptation := by
  cases step with
  | feedback now feedback => contradiction
  | relayOut bytes => rfl
  | command now command => exact onCommand_adaptation cfg s now command hquiet
  | commandsDrained => exact flushPendingMouseMove_adaptation s
  | read now received =>
      apply onRead_adaptation
      rintro rfl
      contradiction
  | qosFeedback now =>
      simp only [act, sendQosFeedback]
      split <;> rfl
  | autoRefresh now androidEvrtFrameSeen =>
      exact autoRefreshTick_adaptation cfg s now androidEvrtFrameSeen

theorem rate_of_adaptation {s t : RunSession} (h : s.adaptation = t.adaptation) :
    s.rate = t.rate := by
  simp only [adaptation, Prod.mk.injEq] at h
  simp only [rate, h]

/-- Where nothing is reported, the rate changes only as the viewer chooses. -/
theorem act_rate (s : RunSession) {step : LoopStep} (h : step.reported = none) :
    (s.act cfg step).rate = s.rate ∨
      step.setsRate = true ∧ ∃ fps, (s.act cfg step).rate =
        (clampFps fps 5 60, s.lastAdaptiveRaise, s.stableDecodedFrames) := by
  cases hquiet : step.interferes with
  | false => exact .inl (rate_of_adaptation (act_adaptation cfg s h hquiet))
  | true =>
      have hflushed := rate_of_adaptation (flushPendingMouseMove_adaptation s)
      have hsame : s.flushPendingMouseMove.lastAdaptiveRaise = s.lastAdaptiveRaise ∧
          s.flushPendingMouseMove.stableDecodedFrames = s.stableDecodedFrames := by
        simp only [rate, Prod.mk.injEq] at hflushed
        exact hflushed.2
      unfold LoopStep.interferes at hquiet
      split at hquiet
      · next now fps =>
          refine .inr ⟨rfl, fps, ?_⟩
          rw [← hsame.1, ← hsame.2]
          simp only [act, onCommand, onOtherCommand]
          split <;> rfl
      · next now fps codec =>
          refine .inr ⟨rfl, fps, ?_⟩
          rw [← hsame.1, ← hsame.2]
          simp only [act, onCommand, onOtherCommand]
          split <;> rfl
      · exact .inl hflushed
      · exact .inl hflushed
      · exact .inl rfl
      · contradiction

end Others

/-! Whole runs. -/

/-- When a report changed the rate, other than with the codec. -/
def rateChangedAt (cfg : SessionConfig) (s : RunSession) : LoopStep → Option Nat
  | .feedback now feedback =>
      let s' := s.onFeedback cfg now feedback
      if s.returned = false ∧ s'.targetVideoFps ≠ s.targetVideoFps ∧
        s'.codecPreference = s.codecPreference then some now
      else none
  | _ => none

/-- What a run leads to, as far as raising the rate is concerned. -/
structure Tracked (cfg : SessionConfig) (t₀ : Nat) (steps : List LoopStep) (s : RunSession) :
    Prop where
  low : 5 ≤ s.targetVideoFps
  high : s.targetVideoFps ≤ 60
  counted : s.returned = true ∨
    s.stableDecodedFrames ≤ streak SessionFeedback.healthy (steps.filterMap LoopStep.reported)
  known : ∀ t ∈ (runSession cfg).observe (rateChangedAt cfg) (start cfg t₀) steps,
    t ∈ steps.filterMap LoopStep.reportedAt
  past : ∀ t ∈ (runSession cfg).observe (rateChangedAt cfg) (start cfg t₀) steps,
    t ≤ s.lastAdaptiveRaise

section Runs

variable (cfg : SessionConfig) (t₀ : Nat)

theorem start_rate : (start cfg t₀).rate = (cfg.initialVideoFps, t₀, 0) := by
  unfold start
  dsimp only
  split <;> rfl

theorem RateChange.fps_bounds {now : Nat} {feedback : SessionFeedback} {s s' : RunSession}
    (h : RateChange cfg now feedback s s') (hlow : 5 ≤ s.targetVideoFps)
    (hhigh : s.targetVideoFps ≤ 60) : 5 ≤ s'.targetVideoFps ∧ s'.targetVideoFps ≤ 60 := by
  have hordered := cfg.rates_ordered
  cases h with
  | kept hfps hlast hstable => omega
  | lowered hfps hfloor hlast hstable => omega
  | switched hcodec hfps hlast hstable => omega
  | floored hlate hbelow hfps hlast hstable => omega
  | raised hhealthy hfps hhigher hneeded hwait hlast hstable =>
      have hraise := raiseAdaptiveFps_cases s.targetVideoFps cfg.initialVideoFps
      omega

theorem RateChange.stable_le {now : Nat} {feedback : SessionFeedback} {s s' : RunSession}
    (h : RateChange cfg now feedback s s') (history : List SessionFeedback)
    (hs : s.stableDecodedFrames ≤ streak SessionFeedback.healthy history) :
    s'.stableDecodedFrames ≤ streak SessionFeedback.healthy (history ++ [feedback]) := by
  obtain hzero | ⟨hhealthy, hcount⟩ : s'.stableDecodedFrames = 0 ∨
      feedback.healthy = true ∧ s'.stableDecodedFrames ≤ s.stableDecodedFrames + 1 := by
    cases h with
    | kept hfps hlast hstable => exact hstable
    | lowered hfps hfloor hlast hstable => exact .inl hstable
    | switched hcodec hfps hlast hstable => exact .inl hstable
    | floored hlate hbelow hfps hlast hstable => exact .inl hstable
    | raised hhealthy hfps hhigher hneeded hwait hlast hstable => exact .inl hstable
  · omega
  · rw [streak_append_singleton, if_pos hhealthy]
    omega

theorem RateChange.last_cases {now : Nat} {feedback : SessionFeedback} {s s' : RunSession}
    (h : RateChange cfg now feedback s s') :
    s'.lastAdaptiveRaise = now ∨ s'.lastAdaptiveRaise = s.lastAdaptiveRaise ∧
      (s'.targetVideoFps = s.targetVideoFps ∨ s'.codecPreference ≠ s.codecPreference) := by
  cases h with
  | kept hfps hlast hstable => exact hlast.symm.imp_right fun h => ⟨h, .inl hfps⟩
  | lowered hfps hfloor hlast hstable => exact .inl hlast
  | switched hcodec hfps hlast hstable => exact .inr ⟨hlast, .inr hcodec⟩
  | floored hlate hbelow hfps hlast hstable => exact .inl hlast
  | raised hhealthy hfps hhigher hneeded hwait hlast hstable => exact .inl hlast

theorem observe_concat (steps : List LoopStep) (step : LoopStep) :
    (runSession cfg).observe (rateChangedAt cfg) (start cfg t₀) (steps ++ [step]) =
      (runSession cfg).observe (rateChangedAt cfg) (start cfg t₀) steps ++
        (rateChangedAt cfg ((runSession cfg).run (start cfg t₀) steps) step).toList := by
  rw [Machine.observe_append, Machine.observe_cons, Machine.observe_nil, List.append_nil]

theorem step_of_returned {s : RunSession} (h : s.returned = true) (step : LoopStep) :
    ((runSession cfg).step s step).1 = s := if_pos h

theorem step_of_not_returned {s : RunSession} (h : s.returned = false) (step : LoopStep) :
    ((runSession cfg).step s step).1 = s.act cfg step :=
  if_neg (Bool.eq_false_iff.mp h)

theorem rateChangedAt_eq_none {s : RunSession} {step : LoopStep}
    (h : s.returned = true ∨ step.reported = none) : rateChangedAt cfg s step = none := by
  cases step with
  | feedback now feedback =>
      obtain hreturned | hreport := h
      · exact if_neg fun hnot => Bool.eq_false_iff.mp hnot.1 hreturned
      · contradiction
  | _ => rfl

/-- A step at which nothing is reported, or that is not taken any more. -/
private theorem tracked_quiet {steps : List LoopStep} {step : LoopStep} {s s' : RunSession}
    (hs : s = (runSession cfg).run (start cfg t₀) steps) (h : Tracked cfg t₀ steps s)
    (hlow : 5 ≤ s'.targetVideoFps) (hhigh : s'.targetVideoFps ≤ 60)
    (hlast : s'.lastAdaptiveRaise = s.lastAdaptiveRaise)
    (hquiet : s.returned = true ∧ s' = s ∨
      step.reported = none ∧ s'.stableDecodedFrames = s.stableDecodedFrames ∧ s.returned = false) :
    Tracked cfg t₀ (steps ++ [step]) s' := by
  have hnone : rateChangedAt cfg s step = none :=
    rateChangedAt_eq_none cfg (hquiet.imp And.left And.left)
  have hsame : (runSession cfg).observe (rateChangedAt cfg) (start cfg t₀) (steps ++ [step]) =
      (runSession cfg).observe (rateChangedAt cfg) (start cfg t₀) steps := by
    rw [observe_concat, ← hs, hnone, Option.toList_none, List.append_nil]
  constructor
  case low => exact hlow
  case high => exact hhigh
  case counted =>
    obtain ⟨hreturned, rfl⟩ | ⟨hreport, hstable, hnot⟩ := hquiet
    · exact .inl hreturned
    · right
      rw [List.filterMap_append, List.filterMap_cons_none hreport, List.filterMap_nil,
        List.append_nil, hstable]
      exact h.counted.resolve_left (Bool.eq_false_iff.mp hnot)
  case known =>
    intro t ht
    rw [hsame] at ht
    rw [List.filterMap_append]
    exact List.mem_append_left _ (h.known t ht)
  case past =>
    intro t ht
    rw [hsame] at ht
    rw [hlast]
    exact h.past t ht

private theorem tracked_feedback {steps : List LoopStep} {now : Nat}
    {feedback : SessionFeedback} {s : RunSession}
    (hs : s = (runSession cfg).run (start cfg t₀) steps) (h : Tracked cfg t₀ steps s)
    (hnot : s.returned = false)
    (hclock : ∀ t ∈ steps.filterMap LoopStep.reportedAt, t ≤ now) :
    Tracked cfg t₀ (steps ++ [.feedback now feedback]) (s.onFeedback cfg now feedback) := by
  have hchange : RateChange cfg now feedback s (s.onFeedback cfg now feedback) :=
    onFeedback_rateChange cfg feedback h.low h.high
  have hbounds := hchange.fps_bounds cfg h.low h.high
  have hseen : ∀ t ∈ (runSession cfg).observe (rateChangedAt cfg) (start cfg t₀)
      (steps ++ [.feedback now feedback]),
      t ∈ (runSession cfg).observe (rateChangedAt cfg) (start cfg t₀) steps ∨
        t = now ∧ (s.onFeedback cfg now feedback).lastAdaptiveRaise = now := by
    intro t ht
    rw [observe_concat, ← hs, List.mem_append] at ht
    refine ht.imp_right fun ht => ?_
    simp only [rateChangedAt, Option.mem_toList, Option.ite_none_right_eq_some] at ht
    obtain ⟨⟨-, hfps, hcodec⟩, heq⟩ := ht
    refine ⟨(Option.some.inj heq).symm, ?_⟩
    obtain hlast | ⟨-, hsame | hother⟩ := hchange.last_cases cfg
    · exact hlast
    · exact absurd hsame hfps
    · exact absurd hcodec hother
  constructor
  case low => exact hbounds.1
  case high => exact hbounds.2
  case counted =>
    right
    rw [List.filterMap_append]
    exact hchange.stable_le cfg _ (h.counted.resolve_left (Bool.eq_false_iff.mp hnot))
  case known =>
    intro t ht
    rw [List.filterMap_append, List.mem_append]
    obtain hold | ⟨rfl, -⟩ := hseen t ht
    · exact .inl (h.known t hold)
    · exact .inr List.mem_cons_self
  case past =>
    intro t ht
    obtain hold | ⟨rfl, hlast⟩ := hseen t ht
    · obtain hlast | ⟨hlast, -⟩ := hchange.last_cases cfg
      · rw [hlast]
        exact hclock t (h.known t hold)
      · rw [hlast]
        exact h.past t hold
    · exact Nat.le_of_eq hlast.symm

theorem tracked_run (steps : List LoopStep)
    (hclock : (steps.filterMap LoopStep.reportedAt).Pairwise (· ≤ ·)) :
    Tracked cfg t₀ steps ((runSession cfg).run (start cfg t₀) steps) := by
  induction steps using List.reverseRecOn with
  | nil =>
      have hordered := cfg.rates_ordered
      have hstart := start_rate cfg t₀
      simp only [rate, Prod.mk.injEq] at hstart
      obtain ⟨hfps, hlast, hstable⟩ := hstart
      constructor
      case low => rw [Machine.run_nil]; omega
      case high => rw [Machine.run_nil]; omega
      case counted => exact .inr (Nat.le_of_eq hstable)
      case known => intro t ht; contradiction
      case past => intro t ht; contradiction
  | append_singleton steps step ih =>
      rw [List.filterMap_append] at hclock
      obtain ⟨hbefore, -, hlater⟩ := List.pairwise_append.mp hclock
      have htracked := ih hbefore
      rw [Machine.run_append, Machine.run_cons, Machine.run_nil]
      generalize hs : (runSession cfg).run (start cfg t₀) steps = s at htracked
      cases hreturned : s.returned with
      | true =>
          rw [step_of_returned cfg hreturned]
          exact tracked_quiet cfg t₀ hs.symm htracked htracked.low htracked.high rfl
            (.inl ⟨hreturned, rfl⟩)
      | false =>
          rw [step_of_not_returned cfg hreturned]
          cases hreport : step.reported with
          | some report =>
              obtain ⟨now, rfl⟩ := feedback_of_reported hreport
              exact tracked_feedback cfg t₀ hs.symm htracked hreturned
                fun t ht => hlater t ht now List.mem_cons_self
          | none =>
              obtain hrate | ⟨-, fps, hrate⟩ := act_rate cfg s hreport
              all_goals
                simp only [rate, Prod.mk.injEq] at hrate
                obtain ⟨hfps, hlast, hstable⟩ := hrate
              · exact tracked_quiet cfg t₀ hs.symm htracked (hfps ▸ htracked.low)
                  (hfps ▸ htracked.high) hlast (.inr ⟨hreport, hstable, hreturned⟩)
              · have hbounds := clampFps_bounds fps (show (5 : Int) ≤ 60 by decide)
                exact tracked_quiet cfg t₀ hs.symm htracked (hfps ▸ hbounds.1)
                  (hfps ▸ hbounds.2) hlast (.inr ⟨hreport, hstable, hreturned⟩)

/-- What the decoder reports raises the rate in three ways only: to the next step of the
ladder, when eight times as many frames as the rate have been decoded well in a row and
eight seconds have gone since any change that a report made, other than with a switch of the
codec; up to the minimum after a backlog, when a frame is late and the rate was below it; and
up to the configured minimum, when the codec is switched. -/
theorem raised_cases (before : List LoopStep) (now : Nat) (feedback : SessionFeedback)
    (hclock : ((before ++ [LoopStep.feedback now feedback]).filterMap
      LoopStep.reportedAt).Pairwise (· ≤ ·))
    (s s' : RunSession) (hs : s = (runSession cfg).run (start cfg t₀) before)
    (hs' : s' = ((runSession cfg).step s (.feedback now feedback)).1)
    (hraised : s.targetVideoFps < s'.targetVideoFps) :
    (feedback.healthy = true ∧
        s'.targetVideoFps = raiseAdaptiveFps s.targetVideoFps cfg.initialVideoFps ∧
        8 * s.targetVideoFps ≤ streak SessionFeedback.healthy
          (before.filterMap LoopStep.reported ++ [feedback]) ∧
        ∀ t ∈ (runSession cfg).observe (rateChangedAt cfg) (start cfg t₀) before,
          t + seconds 8 ≤ now) ∨
      (feedback.late = true ∧ s.targetVideoFps < cfg.backlogMinVideoFps ∧
        s'.targetVideoFps = cfg.backlogMinVideoFps) ∨
      (s'.codecPreference ≠ s.codecPreference ∧ s.targetVideoFps < cfg.minVideoFps ∧
        s'.targetVideoFps = cfg.minVideoFps) := by
  rw [List.filterMap_append] at hclock
  have htracked := tracked_run cfg t₀ before (List.pairwise_append.mp hclock).1
  rw [← hs] at htracked
  have hordered := cfg.rates_ordered
  cases hreturned : s.returned with
  | true =>
      rw [hs', step_of_returned cfg hreturned] at hraised
      omega
  | false =>
      rw [step_of_not_returned cfg hreturned] at hs'
      have hchange : RateChange cfg now feedback s s' :=
        hs' ▸ onFeedback_rateChange cfg feedback htracked.low htracked.high
      cases hchange with
      | kept hfps hlast hstable => omega
      | lowered hfps hfloor hlast hstable => omega
      | switched hcodec hfps hlast hstable => exact .inr (.inr ⟨hcodec, by omega, by omega⟩)
      | floored hlate hbelow hfps hlast hstable => exact .inr (.inl ⟨hlate, hbelow, hfps⟩)
      | raised hhealthy hfps hhigher hneeded hwait hlast hstable =>
          refine .inl ⟨hhealthy, hfps, ?_, ?_⟩
          · have hcounted := htracked.counted.resolve_left (Bool.eq_false_iff.mp hreturned)
            have hlow := htracked.low
            have hhigh := htracked.high
            rw [streak_append_singleton, if_pos hhealthy]
            unfold neededStableFrames saturating at hneeded
            omega
          · intro t ht
            have hpast := htracked.past t ht
            unfold seconds at hwait ⊢
            omega

/-- After two failures a late frame sets the rate from 20 to 30 frames. -/
theorem raised_cases_late :
    let cfg : SessionConfig := ⟨false, .auto, 60, 10, true, ⟨true, false, false, true, false⟩⟩
    let s := (runSession cfg).run (start cfg 0)
      [.read 0 (.videoFrame .h264 100 true), .feedback (seconds 5) (.decodeFailed .h264),
        .feedback (seconds 10) (.decodeFailed .h264)]
    let s' := ((runSession cfg).step s (.feedback (seconds 20) (.frameDecoded .h264 400 10))).1
    s.targetVideoFps = 20 ∧ s'.targetVideoFps = cfg.backlogMinVideoFps := by
  intro cfg s s'
  have hfps : s.targetVideoFps = 20 := by decide +kernel
  have hraised : s.targetVideoFps < s'.targetVideoFps := by decide +kernel
  have hcodec : s'.codecPreference = s.codecPreference := by decide +kernel
  have hcases := raised_cases cfg 0 [.read 0 (.videoFrame .h264 100 true),
    .feedback (seconds 5) (.decodeFailed .h264), .feedback (seconds 10) (.decodeFailed .h264)]
    (seconds 20) (.frameDecoded .h264 400 10) (by decide) s s' rfl rfl hraised
  have hlate := hcases.resolve_left fun h => absurd h.1 (by decide)
  exact ⟨hfps, (hlate.resolve_right fun h => h.1 hcodec).2.2⟩

end Runs

end EvertyDesk.Transport
