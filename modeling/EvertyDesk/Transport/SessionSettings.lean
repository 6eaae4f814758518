import EvertyDesk.Transport.AdaptiveStream

/-!
The two ends of a session: what the host has been told of the stream, and what the client
takes it to be. The host keeps the rate, the quality, the codec and the display that the
last message about them asked for.
-/

namespace EvertyDesk.Transport

open Host (CodecPreference ClientVideoSupport)
open RunSession

/-- What the host streams, as the client's messages set it. -/
structure HostStream where
  targetFps : Int
  qualityMilli : Nat
  clientVideo : ClientVideoSupport
  subscribedDisplays : List Int

def lowQualityMilli : Nat := 700
def balancedQualityMilli : Nat := 1000
def bestQualityMilli : Nat := 1800

def optionQualityMilli (option : OptionMessage) : Option Nat :=
  match option.imageQuality with
  | .best => some bestQualityMilli
  | .balanced => some balancedQualityMilli
  | .low => some lowQualityMilli
  | .notSet =>
      if option.customImageQuality > 0 then
        let raw := (option.customImageQuality.toNat >>> 8) &&& 0xfff
        if raw > 0 then some (max lowQualityMilli (min (raw * 20) 4000)) else none
      else none

namespace HostStream

def onOption (host : HostStream) (option : OptionMessage) : HostStream where
  targetFps := if option.customFps > 0 then clampFps option.customFps 5 60 else host.targetFps
  qualityMilli := (optionQualityMilli option).getD host.qualityMilli
  clientVideo :=
    match option.supportedDecoding with
    | some sd => ⟨sd.abilityH264, sd.abilityH265, sd.abilityAv1, sd.prefer⟩
    | none => host.clientVideo
  subscribedDisplays := host.subscribedDisplays

def handleClientInput (host : HostStream) : PeerMessage → HostStream
  | .option option => host.onOption option
  | .switchDisplay display => { host with subscribedDisplays := [max display 0] }
  | .captureDisplaysSet displays =>
      if displays.isEmpty then host
      else { host with subscribedDisplays := displays.map fun display => max display 0 }
  | _ => host

end HostStream

/-- The host after all messages of the session. -/
def RunSession.told (host : HostStream) (s : RunSession) : HostStream :=
  s.relay.foldl HostStream.handleClientInput host

/-- What stays so in every session. -/
structure Sound (s : RunSession) : Prop where
  low : 5 ≤ s.targetVideoFps
  high : s.targetVideoFps ≤ 60
  quality : s.currentQuality ≠ .notSet
  display : 0 ≤ s.currentDisplay

/-- The number that stands for a quality that is set. -/
def ImageQuality.milli : ImageQuality → Nat
  | .best => bestQualityMilli
  | .low => lowQualityMilli
  | .balanced | .notSet => balancedQualityMilli

/-- The host streams what the client takes it to stream. -/
structure InTune (cfg : SessionConfig) (s : RunSession) (host : HostStream) : Prop where
  fps : host.targetFps = s.targetVideoFps
  quality : host.qualityMilli = s.currentQuality.milli
  codec : host.clientVideo = ⟨cfg.caps.h264, cfg.caps.h265, cfg.caps.av1,
    preferredCodec cfg.caps s.codecPreference⟩
  display : host.subscribedDisplays = [s.currentDisplay]

/-- The messages that say nothing of the stream. -/
def PeerMessage.neutral : PeerMessage → Bool
  | .option _ | .switchDisplay _ | .captureDisplaysSet _ => false
  | _ => true

section Told

variable {host : HostStream} {s t : RunSession}

theorem told_write (messages : List PeerMessage) :
    (s.write messages).told host = messages.foldl HostStream.handleClientInput (s.told host) :=
  List.foldl_append

theorem handleClientInput_neutral {message : PeerMessage} (h : message.neutral = true) :
    host.handleClientInput message = host := by
  cases message <;> first | rfl | contradiction

theorem told_write_neutral {messages : List PeerMessage} (h : ∀ m ∈ messages, m.neutral = true) :
    (s.write messages).told host = s.told host := by
  rw [told_write]
  generalize s.told host = told
  induction messages with
  | nil => rfl
  | cons message messages ih =>
      obtain ⟨hfirst, hrest⟩ := List.forall_mem_cons.mp h
      rw [List.foldl_cons, handleClientInput_neutral hfirst, ih hrest]

theorem optionQualityMilli_set {caps : VideoCaps} {fps : Int} {codec : CodecPreference}
    {quality : ImageQuality} (h : quality ≠ .notSet) :
    optionQualityMilli (videoOptionMessage caps fps codec quality) = some quality.milli := by
  cases quality with
  | notSet => contradiction
  | _ => rfl

theorem milli_injective {q q' : ImageQuality} (hq : q ≠ .notSet) (hq' : q' ≠ .notSet)
    (h : q.milli = q'.milli) : q = q' := by
  cases q <;> cases q' <;> first | rfl | contradiction

/-- An option message sets all but the display. -/
theorem onOption_video (host : HostStream) (caps : VideoCaps) {fps : Int}
    (codec : CodecPreference) {quality : ImageQuality} (hlow : 5 ≤ fps) (hhigh : fps ≤ 60)
    (hquality : quality ≠ .notSet) :
    host.onOption (videoOptionMessage caps fps codec quality) =
      ⟨fps, quality.milli, ⟨caps.h264, caps.h265, caps.av1, preferredCodec caps codec⟩,
        host.subscribedDisplays⟩ := by
  have hclamp : clampFps fps 5 60 = fps := clampFps_id hlow hhigh
  unfold HostStream.onOption
  rw [optionQualityMilli_set hquality]
  simp only [videoOptionMessage, hclamp, if_pos (show fps > 0 by omega), Option.getD_some,
    supportedDecoding]

theorem told_videoStart (host : HostStream) (s : RunSession) (caps : VideoCaps) (display : Int)
    (refreshAll : Bool) {fps : Int} (codec : CodecPreference) {quality : ImageQuality}
    (hlow : 5 ≤ fps) (hhigh : fps ≤ 60) (hquality : quality ≠ .notSet) :
    (s.write (videoStartMessages caps display refreshAll fps codec quality)).told host =
      ⟨fps, quality.milli, ⟨caps.h264, caps.h265, caps.av1, preferredCodec caps codec⟩,
        (s.told host).subscribedDisplays⟩ := by
  rw [told_write, ← onOption_video (s.told host) caps codec hlow hhigh hquality]
  cases refreshAll <;> rfl

/-- Sound, and the host is in step. -/
structure Tuned (cfg : SessionConfig) (host : HostStream) (s : RunSession) : Prop where
  sound : Sound s
  inStep : InTune cfg s (s.told host)

variable {cfg : SessionConfig}

/-- The messages of a video start put the host in step. -/
theorem tuned_sendVideoStart (hsound : Sound s)
    (hdisplay : (s.told host).subscribedDisplays = [s.currentDisplay]) (now : Nat)
    (refreshAll : Bool) : Tuned cfg host (s.sendVideoStart cfg now refreshAll) := by
  have htold := told_videoStart host s cfg.caps s.currentDisplay refreshAll
    s.codecPreference hsound.low hsound.high hsound.quality
  have htold' : (s.sendVideoStart cfg now refreshAll).told host = _ := htold
  refine ⟨⟨hsound.low, hsound.high, hsound.quality, hsound.display⟩, ?_⟩
  rw [htold']
  exact ⟨rfl, rfl, rfl, hdisplay⟩

/-- Nothing that the host is told changes. -/
def SameStream (host : HostStream) (s t : RunSession) : Prop :=
  t.targetVideoFps = s.targetVideoFps ∧ t.currentQuality = s.currentQuality ∧
    t.codecPreference = s.codecPreference ∧ t.currentDisplay = s.currentDisplay ∧
      t.told host = s.told host

theorem SameStream.sound (h : SameStream host s t) (hsound : Sound s) : Sound t := by
  obtain ⟨hfps, hquality, -, hdisplay, -⟩ := h
  exact ⟨hfps ▸ hsound.low, hfps ▸ hsound.high, hquality ▸ hsound.quality,
    hdisplay ▸ hsound.display⟩

theorem SameStream.tuned (h : SameStream host s t) (htuned : Tuned cfg host s) :
    Tuned cfg host t := by
  refine ⟨h.sound htuned.sound, ?_⟩
  obtain ⟨hfps, hquality, hcodec, hdisplay, htold⟩ := h
  obtain ⟨hfps', hquality', hcodec', hdisplay'⟩ := htuned.inStep
  rw [htold]
  exact ⟨hfps'.trans hfps.symm, by rw [hquality', hquality], by rw [hcodec', hcodec],
    by rw [hdisplay', hdisplay]⟩

theorem SameStream.trans {u : RunSession} (h : SameStream host s t) (h' : SameStream host t u) :
    SameStream host s u := by
  obtain ⟨hfps, hquality, hcodec, hdisplay, htold⟩ := h
  obtain ⟨hfps', hquality', hcodec', hdisplay', htold'⟩ := h'
  exact ⟨hfps'.trans hfps, hquality'.trans hquality, hcodec'.trans hcodec,
    hdisplay'.trans hdisplay, htold'.trans htold⟩

theorem sameStream_write {messages : List PeerMessage} (h : ∀ m ∈ messages, m.neutral = true) :
    SameStream host s (s.write messages) :=
  ⟨rfl, rfl, rfl, rfl, told_write_neutral h⟩

theorem sameStream_refl : SameStream host s s := ⟨rfl, rfl, rfl, rfl, rfl⟩

end Told

/-! What the decoder thread reports. -/

section Reports

variable {cfg : SessionConfig} {host : HostStream} {s : RunSession}

theorem tuned_lowerStream (h : Tuned cfg host s) (now : Nat) (minFps : Int) :
    Tuned cfg host (s.lowerStream cfg now minFps) := by
  have hbounds := lowerAdaptiveFps_bounds s.targetVideoFps minFps false
  have hmin := clampFps_bounds minFps (show (5 : Int) ≤ 60 by decide)
  have hhigh := h.sound.high
  unfold lowerStream
  split
  · dsimp only
    split
    · next hlower =>
        apply tuned_sendVideoStart
        case hsound =>
          exact ⟨Int.le_trans hmin.1 hbounds.1, Int.le_trans (Int.le_of_lt hlower) hhigh,
            initialStreamQuality_ne_notSet _ _, h.sound.display⟩
        case hdisplay => exact h.inStep.display
    · exact h
  · exact h

theorem tuned_onDecodeFailed (h : Tuned cfg host s) (now : Nat) (codec : DecodedCodec) :
    Tuned cfg host (s.onDecodeFailed cfg now codec) := by
  have hordered := cfg.rates_ordered
  have hcounted : SameStream host s
      ({ s with stableDecodedFrames := 0 }.countDecodeFailure codec) := by
    cases codec <;> exact sameStream_refl
  have htuned := hcounted.tuned h
  unfold onDecodeFailed
  dsimp only
  split
  · next t hswitch =>
      obtain ⟨-, -, -, -, hdisplay, hrelay⟩ := codecSwitched_eq_some cfg hswitch
      have hold := htuned.inStep.display
      have hsound := htuned.sound.display
      apply tuned_sendVideoStart
      case hsound =>
        refine ⟨?_, ?_, initialStreamQuality_ne_notSet _ _, hdisplay ▸ hsound⟩
        · dsimp only
          omega
        · dsimp only
          omega
      case hdisplay =>
        unfold told at hold ⊢
        dsimp only
        rw [hrelay, hdisplay]
        exact hold
  · exact tuned_lowerStream htuned now _

theorem downgradeOneQuality_ne_notSet {quality : ImageQuality} (h : quality ≠ .notSet) :
    downgradeOneQuality quality ≠ .notSet := by
  cases quality with
  | notSet => contradiction
  | _ => exact ImageQuality.noConfusion

theorem tuned_recoverLatency (h : Tuned cfg host s) (now queueMs decodeMs : Nat) :
    Tuned cfg host (s.recoverLatency cfg now queueMs decodeMs) := by
  have hordered := cfg.rates_ordered
  have hbounds := lowerAdaptiveFps_bounds s.targetVideoFps cfg.backlogMinVideoFps
    (latencyIsSevere queueMs decodeMs)
  have hlow := h.sound.low
  have hhigh := h.sound.high
  rw [clampFps_id hlow hhigh, clampFps_id (by omega) (by omega)] at hbounds
  have hreset : SameStream host s { s with stableDecodedFrames := 0 } := sameStream_refl
  unfold recoverLatency
  split
  · dsimp only
    split
    · split
      · apply tuned_sendVideoStart
        case hsound =>
          refine ⟨?_, ?_, ?_, h.sound.display⟩
          · dsimp only
            omega
          · dsimp only
            omega
          · unfold recoveryQuality
            dsimp only
            split
            · exact ImageQuality.noConfusion
            · exact downgradeOneQuality_ne_notSet h.sound.quality
        case hdisplay => exact h.inStep.display
      · exact hreset.tuned h
    · exact hreset.tuned h
  · exact h

theorem nextQualityAfterStability_ne_notSet {quality next : ImageQuality} {fps : Int} {input : ℚ}
    (h : nextQualityAfterStability quality fps input = some next) : next ≠ .notSet := by
  unfold nextQualityAfterStability at h
  split at h <;> (try split at h) <;> first | contradiction | skip
  all_goals
    obtain rfl := Option.some.inj h
    exact ImageQuality.noConfusion

theorem tuned_raiseQuality (h : Tuned cfg host s) (now queueMs decodeMs : Nat) :
    Tuned cfg host (s.raiseQuality cfg now queueMs decodeMs) := by
  unfold raiseQuality
  split
  · split
    · next next hnext =>
        split
        · apply tuned_sendVideoStart
          case hsound =>
            exact ⟨h.sound.low, h.sound.high, nextQualityAfterStability_ne_notSet hnext,
              h.sound.display⟩
          case hdisplay => exact h.inStep.display
        · exact h
    · exact h
  · exact h

theorem tuned_raiseStream (h : Tuned cfg host s) (now queueMs decodeMs : Nat) :
    Tuned cfg host (s.raiseStream cfg now queueMs decodeMs) := by
  have hordered := cfg.rates_ordered
  have hcases := raiseAdaptiveFps_cases s.targetVideoFps cfg.initialVideoFps
  have hlow := h.sound.low
  have hcount : ∀ n, SameStream host s { s with stableDecodedFrames := n } :=
    fun _ => sameStream_refl
  unfold raiseStream
  split
  · dsimp only
    split
    · split
      · next hraise =>
          apply tuned_sendVideoStart
          case hsound =>
            refine ⟨?_, ?_, initialStreamQuality_ne_notSet _ _, h.sound.display⟩
            · exact Int.le_trans hlow (Int.le_of_lt hraise)
            · dsimp only
              omega
          case hdisplay => exact h.inStep.display
      · exact (hcount _).tuned h
    · exact (hcount _).tuned h
  · exact (hcount 0).tuned h

theorem tuned_onFeedback (h : Tuned cfg host s) (now : Nat) (feedback : SessionFeedback) :
    Tuned cfg host (s.onFeedback cfg now feedback) := by
  cases feedback with
  | backlogTrimmed =>
      have hreset : SameStream host s { s with stableDecodedFrames := 0 } := sameStream_refl
      exact tuned_lowerStream (hreset.tuned h) now _
  | evrtckChainBroken =>
      apply tuned_sendVideoStart
      case hsound => exact ⟨h.sound.low, h.sound.high, h.sound.quality, h.sound.display⟩
      case hdisplay => exact h.inStep.display
  | decodeFailed codec => exact tuned_onDecodeFailed h now codec
  | frameDecoded codec queueMs decodeMs =>
      have hcleared : SameStream host s (s.clearDecodeFailures codec) := by
        cases codec <;> exact sameStream_refl
      exact tuned_raiseStream (tuned_raiseQuality (tuned_recoverLatency (hcleared.tuned h) now _ _)
        now _ _) now _ _

end Reports

/-! What the viewer asks for. -/

section Commands

variable {cfg : SessionConfig} {host : HostStream} {s : RunSession}

theorem sameStream_flushPendingMouseMove : SameStream host s s.flushPendingMouseMove := by
  have hneutral : ∀ x y, ∀ m ∈ [PeerMessage.mouseEvent mouseTypeMove x y], m.neutral = true := by
    simp [PeerMessage.neutral]
  unfold flushPendingMouseMove
  split
  · next x y _ => exact (sameStream_write (hneutral x y)).trans sameStream_refl
  · exact sameStream_refl

theorem sameStream_onInputCommand (command : SessionCommand) :
    SameStream host s (s.onInputCommand command) := by
  cases command with
  | keyText text =>
      apply sameStream_write
      simp [PeerMessage.neutral]
  | keyTextWithModifiers text modifiers =>
      apply sameStream_write
      simp [PeerMessage.neutral]
  | _ => first
    | exact sameStream_refl
    | exact sameStream_write fun _ hm => List.mem_singleton.mp hm ▸ rfl

theorem sameStream_requestScreenshot (now : Nat) : SameStream host s (s.requestScreenshot now) :=
  SameStream.trans (sameStream_write fun _ hm => List.mem_singleton.mp hm ▸ rfl) sameStream_refl

/-- A start of the video after choices of the viewer. -/
theorem tuned_onOtherCommand (hvideo : cfg.controlOnly = false) (h : Tuned cfg host s) (now : Nat)
    (command : SessionCommand) : Tuned cfg host (s.onOtherCommand cfg now command) := by
  have hnot : ¬ cfg.controlOnly = true := Bool.eq_false_iff.mp hvideo
  cases command with
  | screenshot =>
      simp only [onOtherCommand, if_neg hnot]
      exact (sameStream_requestScreenshot now).tuned h
  | setDisplay index =>
      simp only [onOtherCommand, if_neg hnot]
      refine (sameStream_requestScreenshot now).tuned ?_
      apply tuned_sendVideoStart
      case hsound => exact ⟨h.sound.low, h.sound.high, h.sound.quality, Int.le_max_right _ _⟩
      case hdisplay =>
        rw [told_write]
        simp [switchDisplayMessages, HostStream.handleClientInput, write]
  | setAutoRefresh enabled millis =>
      simp only [onOtherCommand, if_neg hnot]
      apply tuned_sendVideoStart
      case hsound => exact ⟨h.sound.low, h.sound.high, h.sound.quality, h.sound.display⟩
      case hdisplay => exact h.inStep.display
  | refreshVideo =>
      simp only [onOtherCommand, if_neg hnot]
      apply tuned_sendVideoStart
      case hsound => exact ⟨h.sound.low, h.sound.high, h.sound.quality, h.sound.display⟩
      case hdisplay => exact h.inStep.display
  | setVideoFps fps =>
      have hclamp := clampFps_bounds fps (show (5 : Int) ≤ 60 by decide)
      simp only [onOtherCommand, if_neg hnot]
      apply tuned_sendVideoStart
      case hsound =>
        exact ⟨hclamp.1, hclamp.2, initialStreamQuality_ne_notSet _ _, h.sound.display⟩
      case hdisplay => exact h.inStep.display
  | setAdaptiveQuality enabled =>
      have hsame : SameStream host s (s.onOtherCommand cfg now (.setAdaptiveQuality enabled)) :=
        sameStream_refl
      exact hsame.tuned h
  | setVideoProfile fps codec =>
      have hclamp := clampFps_bounds fps (show (5 : Int) ≤ 60 by decide)
      simp only [onOtherCommand, if_neg hnot]
      apply tuned_sendVideoStart
      case hsound =>
        exact ⟨hclamp.1, hclamp.2, initialStreamQuality_ne_notSet _ _, h.sound.display⟩
      case hdisplay => exact h.inStep.display
  | attachVm vmId =>
      have hsame : SameStream host s (s.onOtherCommand cfg now (.attachVm vmId)) :=
        SameStream.trans (sameStream_write fun _ hm => List.mem_singleton.mp hm ▸ rfl)
          sameStream_refl
      exact hsame.tuned h
  | close =>
      have hsame : SameStream host s (s.onOtherCommand cfg now .close) := sameStream_refl
      exact hsame.tuned h
  | _ =>
      simp only [onOtherCommand]
      exact (sameStream_onInputCommand _).tuned h

theorem tuned_onCommand (hvideo : cfg.controlOnly = false) (h : Tuned cfg host s) (now : Nat)
    (command : SessionCommand) : Tuned cfg host (s.onCommand cfg now command) := by
  have hflushed := sameStream_flushPendingMouseMove.tuned h
  cases command with
  | mouseMove x y =>
      have hsame : SameStream host s (s.onCommand cfg now (.mouseMove x y)) := sameStream_refl
      exact hsame.tuned h
  | _ =>
      simp only [onCommand]
      exact tuned_onOtherCommand hvideo hflushed now _

end Commands

/-! What comes from the host, and the clocks. -/

/-- A message that asks for another stream than the one in use: the initial quality after a
login or the displays, and the codec to fall back to after the first frame that cannot be
decoded. -/
def detours (cfg : SessionConfig) (s : RunSession) : LoopStep → Bool
  | .read _ (.loginResponse _) | .read _ (.peerInfo _) =>
      !s.returned &&
        decide (initialStreamQuality s.targetVideoFps s.codecPreference ≠ s.currentQuality)
  | .read _ (.videoFrame codec bytes sizeKnown) =>
      let fallback := fallbackCodecPreference cfg.caps
      !s.returned && decide (frameSource cfg codec bytes sizeKnown = some .skippedVideo) &&
        decide (s.skippedVideoCount = 0) &&
        (decide (initialStreamQuality s.targetVideoFps fallback ≠ s.currentQuality) ||
          decide (preferredCodec cfg.caps fallback ≠ preferredCodec cfg.caps s.codecPreference))
  | _ => false

section Reads

variable {cfg : SessionConfig} {host : HostStream} {s : RunSession}

theorem downgradeQualityForLowInput_ne_notSet {quality next : ImageQuality} {fps : Int} {input : ℚ}
    (h : downgradeQualityForLowInput quality fps input = some next) : next ≠ .notSet := by
  unfold downgradeQualityForLowInput at h
  dsimp only at h
  split at h <;> (try split at h) <;> first | contradiction | skip
  all_goals
    obtain rfl := Option.some.inj h
    exact ImageQuality.noConfusion

theorem tuned_lowerQuality (h : Tuned cfg host s) (now : Nat) (fps : ℚ) :
    Tuned cfg host (s.lowerQuality cfg now fps) := by
  have hcount : ∀ n, SameStream host s { s with lowInputQualityWindows := n } :=
    fun _ => sameStream_refl
  unfold lowerQuality
  split
  · split
    · next next hnext =>
        dsimp only
        split
        · apply tuned_sendVideoStart
          case hsound =>
            exact ⟨h.sound.low, h.sound.high, downgradeQualityForLowInput_ne_notSet hnext,
              h.sound.display⟩
          case hdisplay => exact h.inStep.display
        · exact (hcount _).tuned h
    · exact (hcount 0).tuned h
  · exact h

theorem tuned_onVideo (h : Tuned cfg host s) (now : Nat) : Tuned cfg host (s.onVideo cfg now) := by
  have hcounted : SameStream host s { s.write [.videoReceived] with
      videoMetricPackets := saturating 64 (s.videoMetricPackets + 1) } :=
    SameStream.trans (sameStream_write fun _ hm => List.mem_singleton.mp hm ▸ rfl) sameStream_refl
  have htuned := hcounted.tuned h
  have hlive : ∀ t : RunSession, SameStream host t { t with liveVideoSeen := true } :=
    fun _ => sameStream_refl
  have hwindow : ∀ (t : RunSession) (n : Nat), SameStream host t
      { t with videoMetricPackets := 0, lastVideoPacketMetrics := n } :=
    fun _ _ => sameStream_refl
  have hmeasured : ∀ (t : RunSession) (fps : ℚ), SameStream host t
      { t with latestInputFps := fps } :=
    fun _ _ => sameStream_refl
  unfold onVideo
  dsimp only
  split
  · unfold onVideoWindow
    refine (hlive _).tuned ((hwindow _ now).tuned ?_)
    exact tuned_lowerQuality ((hmeasured _ _).tuned htuned) now _
  · exact (hlive _).tuned htuned

/-- The host is asked for a stream with another quality or codec than the one in use. -/
structure Asked (cfg : SessionConfig) (host : HostStream) (s t : RunSession)
    (quality : ImageQuality) (codec : CodecPreference) : Prop where
  sameFps : t.targetVideoFps = s.targetVideoFps
  sameQuality : t.currentQuality = s.currentQuality
  sameCodec : t.codecPreference = s.codecPreference
  sameDisplay : t.currentDisplay = s.currentDisplay
  told : t.told host = ⟨s.targetVideoFps, quality.milli, ⟨cfg.caps.h264, cfg.caps.h265,
    cfg.caps.av1, preferredCodec cfg.caps codec⟩, (s.told host).subscribedDisplays⟩

theorem Asked.inStep_iff {t : RunSession} {quality : ImageQuality} {codec : CodecPreference}
    (h : Asked cfg host s t quality codec) (htuned : Tuned cfg host s)
    (hquality : quality ≠ .notSet) :
    Sound t ∧ (InTune cfg t (t.told host) ↔ quality = s.currentQuality ∧
      preferredCodec cfg.caps codec = preferredCodec cfg.caps s.codecPreference) := by
  obtain ⟨hfps, hcurrent, hcodec, hdisplay, htold⟩ := h
  refine ⟨⟨hfps ▸ htuned.sound.low, hfps ▸ htuned.sound.high, hcurrent ▸ htuned.sound.quality,
    hdisplay ▸ htuned.sound.display⟩, ?_⟩
  rw [htold]
  constructor
  · rintro ⟨-, hmilli, hvideo, -⟩
    rw [hcurrent] at hmilli
    rw [hcodec] at hvideo
    exact ⟨milli_injective hquality htuned.sound.quality hmilli,
      congrArg ClientVideoSupport.prefer hvideo⟩
  · rintro ⟨rfl, hprefer⟩
    refine ⟨hfps.symm, by rw [hcurrent], ?_, ?_⟩
    · rw [hprefer, hcodec]
    · exact htuned.inStep.display.trans (by rw [hdisplay])

variable (host) in
theorem asked_sendVideoStartMessages (hvideo : cfg.controlOnly = false) (hsound : Sound s) :
    Asked cfg host s (s.sendVideoStartMessages cfg)
      (initialStreamQuality s.targetVideoFps s.codecPreference) s.codecPreference := by
  unfold sendVideoStartMessages
  rw [if_neg (Bool.eq_false_iff.mp hvideo)]
  exact ⟨rfl, rfl, rfl, rfl, told_videoStart host s cfg.caps _ false _ hsound.low hsound.high
    (initialStreamQuality_ne_notSet _ _)⟩

variable (host) in
theorem asked_onSkippedVideo (hsound : Sound s) (hfirst : s.skippedVideoCount = 0) :
    Asked cfg host s (s.onSkippedVideo cfg)
      (initialStreamQuality s.targetVideoFps (fallbackCodecPreference cfg.caps))
      (fallbackCodecPreference cfg.caps) := by
  unfold onSkippedVideo
  dsimp only
  rw [if_pos (by omega)]
  refine ⟨rfl, rfl, rfl, rfl, ?_⟩
  rw [told_write]
  exact onOption_video _ _ _ hsound.low hsound.high (initialStreamQuality_ne_notSet _ _)

variable (cfg host) in
theorem sameStream_onSkippedVideo (hlater : s.skippedVideoCount ≠ 0) :
    SameStream host s (s.onSkippedVideo cfg) := by
  unfold onSkippedVideo
  dsimp only
  rw [if_neg (by omega)]
  exact sameStream_refl

theorem sameStream_sendSelectedWindowsSession (windowsSessions : Option WindowsSessions) :
    SameStream host s (s.sendSelectedWindowsSession windowsSessions) := by
  unfold sendSelectedWindowsSession
  split
  · split
    · exact sameStream_refl
    · exact sameStream_write fun _ hm => List.mem_singleton.mp hm ▸ rfl
  · exact sameStream_refl

/-- An answer to a login, or the displays. -/
theorem step_login (hvideo : cfg.controlOnly = false) (h : Tuned cfg host s)
    (windowsSessions : Option WindowsSessions) :
    let t := (s.sendSelectedWindowsSession windowsSessions).sendVideoStartMessages cfg
    Sound t ∧ (initialStreamQuality s.targetVideoFps s.codecPreference = s.currentQuality ↔
      InTune cfg t (t.told host)) := by
  have hselected : SameStream host s (s.sendSelectedWindowsSession windowsSessions) :=
    sameStream_sendSelectedWindowsSession windowsSessions
  have htuned := hselected.tuned h
  obtain ⟨hfps, hquality, hcodec, -, -⟩ := hselected
  obtain ⟨hsound, hiff⟩ := (asked_sendVideoStartMessages host hvideo
    htuned.sound).inStep_iff htuned (initialStreamQuality_ne_notSet _ _)
  refine ⟨hsound, ?_⟩
  rw [hiff, hfps, hquality, hcodec]
  exact ⟨fun heq => ⟨heq, rfl⟩, And.left⟩

theorem tuned_onRead_video (h : Tuned cfg host s) (now : Nat) :
    Tuned cfg host ({ s with screenshotPending := false, lastFrameReceived := now }.onVideo
      cfg now) := by
  have hseen : SameStream host s { s with screenshotPending := false, lastFrameReceived := now } :=
    sameStream_refl
  exact tuned_onVideo (hseen.tuned h) now

/-- A video message is answered, and its frame decoded or skipped. -/
theorem step_videoFrame (hvideo : cfg.controlOnly = false) (h : Tuned cfg host s) (now : Nat)
    (hrunning : s.returned = false) (codec : VideoUnion) (bytes : Nat) (sizeKnown : Bool) :
    let t := s.onRead cfg now (.videoFrame codec bytes sizeKnown)
    Sound t ∧ (detours cfg s (.read now (.videoFrame codec bytes sizeKnown)) = false ↔
      InTune cfg t (t.told host)) := by
  have hanswered : SameStream host s (s.write [.videoReceived]) :=
    sameStream_write fun _ hm => List.mem_singleton.mp hm ▸ rfl
  have htuned := hanswered.tuned h
  have hnot : ¬ cfg.controlOnly = true := Bool.eq_false_iff.mp hvideo
  simp only [onRead, handleSessionMessage, if_neg hnot, detours, hrunning, Bool.not_false,
    Bool.true_and]
  cases hsource : frameSource cfg codec bytes sizeKnown with
  | none => exact ⟨htuned.sound, iff_of_true (by simp) htuned.inStep⟩
  | some source =>
      cases source with
      | screenshot =>
          have hseen : SameStream host (s.write [.videoReceived])
              ((s.write [.videoReceived]).onFrameSource cfg now (some .screenshot)) :=
            sameStream_refl
          exact ⟨hseen.sound htuned.sound, iff_of_true (by simp) (hseen.tuned htuned).inStep⟩
      | video size =>
          have hdecoded := tuned_onRead_video htuned now
          exact ⟨hdecoded.sound, iff_of_true (by simp) hdecoded.inStep⟩
      | skippedVideo =>
          simp only [onFrameSource]
          obtain hfirst | hlater := Nat.eq_zero_or_pos s.skippedVideoCount
          · obtain ⟨hsound, hiff⟩ := (asked_onSkippedVideo host htuned.sound
              hfirst).inStep_iff htuned (initialStreamQuality_ne_notSet _ _)
            refine ⟨hsound, ?_⟩
            rw [hiff]
            simp [hfirst, write]
          · have hsame := (sameStream_onSkippedVideo cfg host (s := s.write [.videoReceived])
              (Nat.ne_of_gt hlater)).tuned htuned
            exact ⟨hsame.sound, iff_of_true (by simp [Nat.ne_of_gt hlater]) hsame.inStep⟩

theorem tuned_sendQosFeedback (h : Tuned cfg host s) (now : Nat) :
    Tuned cfg host (s.sendQosFeedback cfg now) := by
  unfold sendQosFeedback
  split
  · have hclamp : clampFps s.targetVideoFps 5 60 = s.targetVideoFps :=
      clampFps_id h.sound.low h.sound.high
    refine ⟨⟨h.sound.low, h.sound.high, h.sound.quality, h.sound.display⟩, ?_⟩
    have htold : ((s.write (streamQosFeedback s.targetVideoFps)).told host) =
        { s.told host with targetFps := s.targetVideoFps } := by
      rw [told_write]
      have hpositive := h.sound.low
      simp only [streamQosFeedback, customFpsOptionMessage, List.foldl_cons, List.foldl_nil,
        HostStream.handleClientInput, HostStream.onOption, hclamp,
        if_pos (show s.targetVideoFps > 0 by omega)]
      rfl
    obtain ⟨-, hquality, hcodec, hdisplay⟩ := h.inStep
    have hstep : InTune cfg (s.write (streamQosFeedback s.targetVideoFps))
        ((s.write (streamQosFeedback s.targetVideoFps)).told host) := by
      rw [htold]
      exact ⟨rfl, hquality, hcodec, hdisplay⟩
    exact ⟨hstep.fps, hstep.quality, hstep.codec, hstep.display⟩
  · exact h

theorem tuned_autoRefreshTick (h : Tuned cfg host s) (now : Nat) (androidEvrtFrameSeen : Bool) :
    Tuned cfg host (s.autoRefreshTick cfg now androidEvrtFrameSeen) := by
  have hretry : ∀ live, Tuned cfg host (s.retryLiveVideo cfg now live) := by
    intro live
    unfold retryLiveVideo
    split
    · refine SameStream.tuned (sameStream_write fun _ hm => List.mem_singleton.mp hm ▸ rfl) ?_
      exact tuned_sendVideoStart h.sound h.inStep.display now true
    · exact h
  unfold autoRefreshTick
  split
  · dsimp only
    split
    · exact (sameStream_requestScreenshot now).tuned (hretry _)
    · exact hretry _
  · exact h

/-- One part of a turn keeps the host in step just if it is no detour. -/
theorem step_inStep (hvideo : cfg.controlOnly = false) (h : Tuned cfg host s) (step : LoopStep) :
    let t := ((runSession cfg).step s step).1
    Sound t ∧ (detours cfg s step = false ↔ InTune cfg t (t.told host)) := by
  have hnot : ¬ cfg.controlOnly = true := Bool.eq_false_iff.mp hvideo
  have hdone : ∀ {t : RunSession}, Tuned cfg host t → detours cfg s step = false →
      Sound t ∧ (detours cfg s step = false ↔ InTune cfg t (t.told host)) :=
    fun htuned hno => ⟨htuned.sound, iff_of_true hno htuned.inStep⟩
  dsimp only
  cases hreturned : s.returned with
  | true =>
      rw [step_of_returned cfg hreturned]
      refine hdone h ?_
      unfold detours
      rw [hreturned]
      split <;> rfl
  | false =>
      rw [step_of_not_returned cfg hreturned]
      cases step with
      | feedback now feedback => exact hdone (tuned_onFeedback h now feedback) rfl
      | relayOut bytes =>
          exact hdone (SameStream.tuned
            (sameStream_write fun _ hm => List.mem_singleton.mp hm ▸ rfl) h) rfl
      | command now command => exact hdone (tuned_onCommand hvideo h now command) rfl
      | commandsDrained => exact hdone (sameStream_flushPendingMouseMove.tuned h) rfl
      | qosFeedback now => exact hdone (tuned_sendQosFeedback h now) rfl
      | autoRefresh now androidEvrtFrameSeen =>
          exact hdone (tuned_autoRefreshTick h now androidEvrtFrameSeen) rfl
      | read now received =>
          cases received with
          | timeout =>
              have hidle : s.onRead cfg now .timeout = s := by
                simp only [onRead, hvideo, Bool.false_and, if_neg Bool.false_ne_true]
              rw [act, hidle]
              exact hdone h rfl
          | failed =>
              have hsame : SameStream host s (s.act cfg (.read now .failed)) := sameStream_refl
              exact hdone (hsame.tuned h) rfl
          | screenshotResponse =>
              have hsame : SameStream host s (s.act cfg (.read now .screenshotResponse)) := by
                simp only [act, onRead, handleSessionMessage, if_neg hnot, onFrameSource]
                exact sameStream_refl
              exact hdone (hsame.tuned h) rfl
          | videoFrame codec bytes sizeKnown =>
              exact step_videoFrame hvideo h now hreturned codec bytes sizeKnown
          | tcpEvrtckFrame bytes =>
              have htuned : Tuned cfg host (s.act cfg (.read now (.tcpEvrtckFrame bytes))) := by
                simp only [act, onRead, handleSessionMessage, if_neg hnot, onFrameSource]
                exact tuned_onRead_video h now
              exact hdone htuned rfl
          | testDelay fromClient =>
              have hsame : SameStream host s (s.act cfg (.read now (.testDelay fromClient))) := by
                simp only [act, onRead, handleSessionMessage, onFrameSource]
                split
                · exact sameStream_refl
                · exact sameStream_write fun _ hm => List.mem_singleton.mp hm ▸ rfl
              exact hdone (hsame.tuned h) rfl
          | loginResponse windowsSessions =>
              have hlogin := step_login hvideo h windowsSessions
              simp only [detours, hreturned, Bool.not_false, Bool.true_and,
                decide_eq_false_iff_not, ne_eq, Decidable.not_not]
              exact hlogin
          | peerInfo windowsSessions =>
              have hlogin := step_login hvideo h windowsSessions
              simp only [detours, hreturned, Bool.not_false, Bool.true_and,
                decide_eq_false_iff_not, ne_eq, Decidable.not_not]
              exact hlogin
          | other =>
              have hsame : SameStream host s (s.act cfg (.read now .other)) := sameStream_refl
              exact hdone (hsame.tuned h) rfl

theorem tuned_start (hvideo : cfg.controlOnly = false) (host : HostStream) (t₀ : Nat) :
    Tuned cfg host (start cfg t₀) := by
  have hordered := cfg.rates_ordered
  unfold start
  dsimp only
  rw [if_neg (Bool.eq_false_iff.mp hvideo)]
  refine (sameStream_requestScreenshot t₀).tuned ?_
  refine SameStream.tuned (sameStream_write fun _ hm => List.mem_singleton.mp hm ▸ rfl) ?_
  apply tuned_sendVideoStart
  case hsound =>
    exact ⟨by dsimp only [write]; omega, by dsimp only [write]; omega,
      initialStreamQuality_ne_notSet _ _, Int.le_refl _⟩
  case hdisplay =>
    rw [told_write]
    rfl

end Reads

/-- In a session with video, the host streams at the rate, in the quality, with the codec
and from the display that the client takes it to, in every state of a run, if and only if
no message of the run takes a detour. -/
theorem in_step_iff (cfg : SessionConfig) (hvideo : cfg.controlOnly = false) (host : HostStream)
    (t₀ : Nat) (steps : List LoopStep) :
    (runSession cfg).Along (fun s step => detours cfg s step = false) (start cfg t₀) steps ↔
      ∀ before after, steps = before ++ after →
        InTune cfg ((runSession cfg).run (start cfg t₀) before)
          (((runSession cfg).run (start cfg t₀) before).told host) := by
  have hstart := tuned_start hvideo host t₀
  have hstep : ∀ (s : RunSession) (step : LoopStep), True → Sound s → InTune cfg s (s.told host) →
      Sound ((runSession cfg).step s step).1 ∧ (detours cfg s step = false ↔
        InTune cfg ((runSession cfg).step s step).1 (((runSession cfg).step s step).1.told host)) :=
    fun _ step _ hsound hinStep => step_inStep hvideo ⟨hsound, hinStep⟩ step
  exact Machine.along_iff_every_state _ hstep (fun _ _ => trivial) hstart.sound hstart.inStep

/-- A late frame costs the game codec one step of quality; the displays that come after it
ask for the best one again. -/
theorem in_step_peerInfo :
    let cfg : SessionConfig := ⟨false, .h264, 60, 10, true, ⟨true, false, false, true, false⟩⟩
    let steps : List LoopStep := [.read 0 (.videoFrame .h264 100 true),
      .feedback (seconds 5) (.frameDecoded .h264 400 10), .read (seconds 6) (.peerInfo none)]
    let host : HostStream := ⟨30, 1000, ⟨true, true, true, .auto⟩, []⟩
    ¬ ∀ before after, steps = before ++ after →
      InTune cfg ((runSession cfg).run (start cfg 0) before)
        (((runSession cfg).run (start cfg 0) before).told host) := by
  intro cfg steps host hall
  have halong := (in_step_iff cfg rfl host 0 steps).mpr hall
  have hnot : ¬ (runSession cfg).Along (fun s step => detours cfg s step = false)
      (start cfg 0) steps := by
    decide +kernel
  exact hnot halong

end EvertyDesk.Transport
