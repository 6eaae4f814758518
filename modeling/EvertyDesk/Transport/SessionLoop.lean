import EvertyDesk.Desktop.RemoteInput
import EvertyDesk.Host.Pipeline
import EvertyDesk.Lib.Machine
import EvertyDesk.Transport.StreamQuality

/-!
The loop of a client session on the relay: what the decoder thread reports, what the
viewer asks for and what the host sends decide which frame rate, quality and codec the
host is asked for. Times are in nanoseconds. Writes to the relay succeed; what the loop
tells the viewer is left out.
-/

namespace EvertyDesk.Transport

open Desktop (ControlKey)
open Host (CodecPreference PreferCodec)

def millis (n : Nat) : Nat := n * 1000000

def seconds (n : Nat) : Nat := n * 1000000000

/-- The codecs that this machine can decode. -/
structure VideoCaps where
  h264 : Bool
  h265 : Bool
  av1 : Bool
  vp9 : Bool
  vp8 : Bool
deriving DecidableEq, Repr

structure SupportedDecoding where
  abilityVp9 : Bool
  abilityH264 : Bool
  abilityH265 : Bool
  prefer : PreferCodec
  abilityVp8 : Bool
  abilityAv1 : Bool
deriving DecidableEq, Repr

/-- A choice that this machine cannot decode falls back to one that it can. -/
def preferredCodec (caps : VideoCaps) : CodecPreference → PreferCodec
  | .evrtck | .auto => .auto
  | .av1 => if caps.av1 then .av1 else fallback
  | .h265 => if caps.h265 then .h265 else fallback
  | .h264 => if caps.h264 then .h264 else fallback
  | .vp9 => if caps.vp9 then .vp9 else fallback
where
  fallback : PreferCodec :=
    if caps.h265 then .h265
    else if caps.h264 then .h264
    else if caps.av1 then .av1
    else if caps.vp9 then .vp9
    else .auto

def supportedDecoding (caps : VideoCaps) (codecPreference : CodecPreference) :
    SupportedDecoding where
  abilityVp9 := caps.vp9
  abilityH264 := caps.h264
  abilityH265 := caps.h265
  prefer := preferredCodec caps codecPreference
  abilityVp8 := caps.vp8
  abilityAv1 := caps.av1

def fallbackCodecPreference (caps : VideoCaps) : CodecPreference :=
  if caps.h264 then .h264
  else if caps.vp9 then .vp9
  else if caps.h265 then .h265
  else if caps.av1 then .av1
  else .auto

inductive ShellMessageKind where
  | start
  | input
  | stop
deriving DecidableEq, Repr

structure OptionMessage where
  imageQuality : ImageQuality
  customImageQuality : Int
  supportedDecoding : Option SupportedDecoding
  customFps : Int
deriving DecidableEq, Repr

/-- The messages that a session writes to the relay. -/
inductive PeerMessage where
  | mouseEvent (mask x y : Int)
  | unicode (ch : Char) (modifiers : List ControlKey)
  | controlKeyPress (key : ControlKey) (modifiers : List ControlKey)
  | controlKeyState (key : ControlKey) (down : Bool)
  | clipboard (text : String)
  | screenshotRequest (display : Int) (number : Nat)
  | option (option : OptionMessage)
  | refreshVideo
  | refreshVideoDisplay (display : Int)
  | switchDisplay (display : Int)
  | captureDisplaysSet (displays : List Int)
  | messageQuerySwitchDisplay (display : Int)
  | videoReceived
  | autoAdjustFps (fps : Int)
  | serverTestDelayAck
  | clientTestDelay
  | echoTestDelay
  | selectedSid (sid : Nat)
  | shell (kind : ShellMessageKind) (data : String)
  | vmListRequest
  | vmAttach (vmId : String)
  | vmPowerOp (json : String)
  | vmCapabilityRequest (vmId : String)
  | vmCheckpointOp (json : String)
  | vmRescueInput (json : String)
  | setHostVolume (volume : Nat)
  | evrt2ExperimentRequest
  | evrt2RelayWrap (bytes : List UInt8)
  /-- A frame of length zero. -/
  | keepalive

inductive SessionCommand where
  | mouseMove (x y : Int)
  | mouseDown (x y : Int)
  | mouseUp (x y : Int)
  | mouseRightDown (x y : Int)
  | mouseRightUp (x y : Int)
  | mouseMiddleDown (x y : Int)
  | mouseMiddleUp (x y : Int)
  | mouseWheel (x y : Int)
  | keyText (text : String)
  | setClipboardText (text : String)
  | keyControl (key : ControlKey)
  | keyControlState (key : ControlKey) (down : Bool)
  | keyTextWithModifiers (text : String) (modifiers : List ControlKey)
  | keyControlWithModifiers (key : ControlKey) (modifiers : List ControlKey)
  | keyEnter
  | screenshot
  | setDisplay (index : Int)
  | setAutoRefresh (enabled : Bool) (millis : Nat)
  | refreshVideo
  | setVideoFps (fps : Int)
  | setAdaptiveQuality (enabled : Bool)
  | setVideoProfile (fps : Int) (codec : CodecPreference)
  | shellStart
  | shellInput (input : String)
  | shellStop
  | listVms
  | attachVm (vmId : String)
  | vmPowerOp (json : String)
  | vmCapabilityRequest (vmId : String)
  | vmCheckpointOp (json : String)
  | vmRescueInput (json : String)
  | setHostVolume (volume : Nat)
  | startEvrt2Experiment
  | close

inductive DecodedCodec where
  | h264
  | vp9
  | h265
  | av1
  | other
deriving DecidableEq, Repr

/-- `DecoderFeedback`, all that the decoder thread reports. -/
inductive SessionFeedback where
  | backlogTrimmed
  | evrtckChainBroken
  | decodeFailed (codec : DecodedCodec)
  | frameDecoded (codec : DecodedCodec) (queueMs decodeMs : Nat)
deriving DecidableEq, Repr

inductive VideoUnion where
  | h264
  | vp8
  | vp9
  | h265
  | av1
  | unsupported
deriving DecidableEq, Repr

structure WindowsSessions where
  sessions : List Nat
  currentSid : Nat
deriving DecidableEq, Repr

/-- What is read from the relay, as far as the loop answers it. -/
inductive Received where
  | timeout
  | failed
  | screenshotResponse
  /-- The size of the display in view may be known or not. -/
  | videoFrame (codec : VideoUnion) (bytes : Nat) (sizeKnown : Bool)
  | tcpEvrtckFrame (bytes : Nat)
  | testDelay (fromClient : Bool)
  | loginResponse (windowsSessions : Option WindowsSessions)
  | peerInfo (windowsSessions : Option WindowsSessions)
  | other
deriving DecidableEq, Repr

inductive FrameSource where
  | screenshot
  | video (bytes : Nat)
  | skippedVideo
deriving DecidableEq, Repr

/-- What a session is started with. -/
structure SessionConfig where
  controlOnly : Bool
  codec : CodecPreference
  targetFps : Nat
  minFps : Nat
  adaptiveQuality : Bool
  caps : VideoCaps
deriving DecidableEq, Repr

namespace SessionConfig

variable (cfg : SessionConfig)

def initialVideoFps : Int := clampFps cfg.targetFps 5 60

def minVideoFps : Int := clampFps cfg.minFps 5 (clampFps cfg.targetFps 5 60)

def backlogMinVideoFps : Int := backlogRecoveryMinFps cfg.initialVideoFps cfg.minVideoFps

end SessionConfig

/-- What `run_session` keeps from one step of its loop to the next. -/
structure RunSession where
  /-- Everything written to the relay so far. -/
  relay : List PeerMessage
  currentDisplay : Int
  autoRefresh : Bool
  autoRefreshMillis : Nat
  screenshotId : Nat
  screenshotPending : Bool
  liveVideoSeen : Bool
  lastFrameReceived : Nat
  lastClientKeepalive : Nat
  videoMetricPackets : Nat
  lastVideoPacketMetrics : Nat
  latestInputFps : ℚ
  targetVideoFps : Int
  lastDecoderRecovery : Option Nat
  lastAdaptiveRaise : Nat
  stableDecodedFrames : Nat
  currentQuality : ImageQuality
  lastQualityChange : Nat
  lowInputQualityWindows : Nat
  h264DecodeFailures : Nat
  vp9DecodeFailures : Nat
  h265DecodeFailures : Nat
  av1DecodeFailures : Nat
  lastLiveBootstrap : Nat
  skippedVideoCount : Nat
  lastScreenshotSent : Option Nat
  lastQosFeedbackSent : Option Nat
  adaptiveQuality : Bool
  codecPreference : CodecPreference
  pendingMouseMove : Option (Int × Int)
  evrtStop : Bool
  returned : Bool

def saturating (width n : Nat) : Nat := min n (2 ^ width - 1)

def switchDisplayMessages (display : Int) : List PeerMessage :=
  [.switchDisplay (max display 0), .captureDisplaysSet [max display 0],
    .messageQuerySwitchDisplay (max display 0)]

def videoOptionMessage (caps : VideoCaps) (fps : Int) (codec : CodecPreference)
    (quality : ImageQuality) : OptionMessage where
  imageQuality := quality
  customImageQuality := 0
  supportedDecoding := some (supportedDecoding caps codec)
  customFps := clampFps fps 5 60

def videoStartMessages (caps : VideoCaps) (display : Int) (refreshAll : Bool) (fps : Int)
    (codec : CodecPreference) (quality : ImageQuality) : List PeerMessage :=
  [.option (videoOptionMessage caps fps codec quality)] ++
    (if refreshAll then [.refreshVideo] else []) ++ [.refreshVideoDisplay (max display 0)]

def customFpsOptionMessage (fps : Int) : OptionMessage where
  imageQuality := .notSet
  customImageQuality := 0
  supportedDecoding := none
  customFps := clampFps fps 5 60

def streamQosFeedback (fps : Int) : List PeerMessage :=
  [.option (customFpsOptionMessage fps), .autoAdjustFps (clampFps fps 5 60), .videoReceived,
    .serverTestDelayAck, .clientTestDelay]

/-- A duration in seconds as a binary32 number, from whole seconds and nanoseconds. -/
def secsF32 (elapsed : Nat) : ℚ :=
  roundBinary32 (roundBinary32 (elapsed / seconds 1 : Nat) +
    roundBinary32 (roundBinary32 (elapsed % seconds 1 : Nat) / seconds 1))

/-- The rate of the packets in a window, at most one packet a thousandth of a second. -/
def inputFps (packets elapsed : Nat) : ℚ :=
  roundBinary32 (roundBinary32 packets / max (secsF32 elapsed) (roundBinary32 0.001))

namespace RunSession

def write (s : RunSession) (messages : List PeerMessage) : RunSession :=
  { s with relay := s.relay ++ messages }

def sendMouse (s : RunSession) (mask x y : Int) : RunSession := s.write [.mouseEvent mask x y]

def mouseTypeMove : Int := 0
def mouseTypeDown : Int := 1
def mouseTypeUp : Int := 2
def mouseTypeWheel : Int := 3
def mouseButtonLeft : Int := 1
def mouseButtonRight : Int := 2
def mouseButtonWheel : Int := 4

def flushPendingMouseMove (s : RunSession) : RunSession :=
  match s.pendingMouseMove with
  | some (x, y) => { s.sendMouse mouseTypeMove x y with pendingMouseMove := none }
  | none => s

def requestScreenshot (s : RunSession) (now : Nat) : RunSession :=
  { s.write [.screenshotRequest (max s.currentDisplay 0) (s.screenshotId + 1)] with
    screenshotId := s.screenshotId + 1
    lastScreenshotSent := some now
    screenshotPending := true }

/-- `None` is long ago. -/
def elapsedAtLeast (since : Option Nat) (now span : Nat) : Bool :=
  since.all fun t => decide (span ≤ now - t)

section Steps

variable (cfg : SessionConfig)

def sendVideoStart (s : RunSession) (now : Nat) (refreshAll : Bool) : RunSession :=
  { s.write (videoStartMessages cfg.caps s.currentDisplay refreshAll s.targetVideoFps
      s.codecPreference s.currentQuality) with
    lastLiveBootstrap := now }

def start (now : Nat) : RunSession :=
  let quality := initialStreamQuality cfg.initialVideoFps cfg.codec
  let s : RunSession := {
    relay := []
    currentDisplay := 0
    autoRefresh := true
    autoRefreshMillis := 80
    screenshotId := 0
    screenshotPending := false
    liveVideoSeen := false
    lastFrameReceived := now
    lastClientKeepalive := now
    videoMetricPackets := 0
    lastVideoPacketMetrics := now
    latestInputFps := 0
    targetVideoFps := cfg.initialVideoFps
    lastDecoderRecovery := none
    lastAdaptiveRaise := now
    stableDecodedFrames := 0
    currentQuality := quality
    lastQualityChange := now
    lowInputQualityWindows := 0
    h264DecodeFailures := 0
    vp9DecodeFailures := 0
    h265DecodeFailures := 0
    av1DecodeFailures := 0
    lastLiveBootstrap := now
    skippedVideoCount := 0
    lastScreenshotSent := none
    lastQosFeedbackSent := none
    adaptiveQuality := cfg.adaptiveQuality
    codecPreference := cfg.codec
    pendingMouseMove := none
    evrtStop := false
    returned := false }
  if cfg.controlOnly then s
  else
    (((s.write (switchDisplayMessages 0)).sendVideoStart cfg now true).write
      [.videoReceived]).requestScreenshot now

/-! What the decoder thread reports. -/

/-- A lower rate is asked for, unless a recovery was less than four seconds ago. -/
def lowerStream (s : RunSession) (now : Nat) (minFps : Int) : RunSession :=
  if s.adaptiveQuality && elapsedAtLeast s.lastDecoderRecovery now (seconds 4) then
    let nextFps := lowerAdaptiveFps s.targetVideoFps minFps false
    if nextFps < s.targetVideoFps then
      { s with
        targetVideoFps := nextFps
        currentQuality := initialStreamQuality nextFps s.codecPreference
        lastDecoderRecovery := some now
        lastAdaptiveRaise := now
        lastQualityChange := now
        lowInputQualityWindows := 0 }.sendVideoStart cfg now false
    else s
  else s

def onBacklogTrimmed (s : RunSession) (now : Nat) : RunSession :=
  { s with stableDecodedFrames := 0 }.lowerStream cfg now cfg.backlogMinVideoFps

def onEvrtckChainBroken (s : RunSession) (now : Nat) : RunSession :=
  { s with
    stableDecodedFrames := 0
    liveVideoSeen := false
    lastDecoderRecovery := some now }.sendVideoStart cfg now true

def countDecodeFailure (s : RunSession) : DecodedCodec → RunSession
  | .h264 => { s with h264DecodeFailures := s.h264DecodeFailures + 1 }
  | .vp9 => { s with vp9DecodeFailures := s.vp9DecodeFailures + 1 }
  | .h265 => { s with h265DecodeFailures := s.h265DecodeFailures + 1 }
  | .av1 => { s with av1DecodeFailures := s.av1DecodeFailures + 1 }
  | .other => s

/-- The session with another codec, if a codec fails too often. -/
def codecSwitched (s : RunSession) : DecodedCodec → Option RunSession
  | .vp9 =>
      if s.vp9DecodeFailures ≥ 3 ∧ cfg.caps.h264 ∧ s.codecPreference ≠ .h264 then
        some { s with codecPreference := .h264, vp9DecodeFailures := 0 }
      else none
  | .h264 =>
      if s.h264DecodeFailures ≥ 3 ∧ cfg.caps.vp9 ∧ s.codecPreference ≠ .vp9 then
        some { s with codecPreference := .vp9, h264DecodeFailures := 0 }
      else none
  | .av1 =>
      let fallback := fallbackCodecPreference cfg.caps
      if s.av1DecodeFailures ≥ 2 ∧ s.codecPreference ≠ fallback then
        some { s with codecPreference := fallback, av1DecodeFailures := 0 }
      else none
  | .h265 =>
      let fallback := fallbackCodecPreference cfg.caps
      if s.h265DecodeFailures ≥ 2 ∧ s.codecPreference ≠ fallback then
        some { s with codecPreference := fallback, h265DecodeFailures := 0 }
      else none
  | .other => none

def onDecodeFailed (s : RunSession) (now : Nat) (codec : DecodedCodec) : RunSession :=
  let s := { s with stableDecodedFrames := 0 }.countDecodeFailure codec
  match s.codecSwitched cfg codec with
  | some s =>
      let fps := max (min s.targetVideoFps cfg.initialVideoFps) cfg.minVideoFps
      { s with
        targetVideoFps := fps
        currentQuality := initialStreamQuality fps s.codecPreference
        lastDecoderRecovery := some now
        lastQualityChange := now
        lowInputQualityWindows := 0 }.sendVideoStart cfg now true
  | none => s.lowerStream cfg now cfg.minVideoFps

def clearDecodeFailures (s : RunSession) : DecodedCodec → RunSession
  | .h264 => { s with h264DecodeFailures := 0 }
  | .vp9 => { s with vp9DecodeFailures := 0 }
  | .h265 => { s with h265DecodeFailures := 0 }
  | .av1 => { s with av1DecodeFailures := 0 }
  | .other => s

def latencyIsSevere (queueMs decodeMs : Nat) : Bool :=
  decide (queueMs ≥ 700) || decide (decodeMs ≥ 140)

def recoveryQuality (severe : Bool) (current : ImageQuality) : ImageQuality :=
  if severe then .low else downgradeOneQuality current

/-- Decoding is late: a lower rate or a lower quality is asked for, unless a recovery was
less than two seconds ago. -/
def recoverLatency (s : RunSession) (now queueMs decodeMs : Nat) : RunSession :=
  if s.adaptiveQuality && s.liveVideoSeen && decoderLatencyNeedsRecovery queueMs decodeMs then
    let s := { s with stableDecodedFrames := 0 }
    if elapsedAtLeast s.lastDecoderRecovery now (seconds 2) then
      let severe := latencyIsSevere queueMs decodeMs
      let nextFps := lowerAdaptiveFps s.targetVideoFps cfg.backlogMinVideoFps severe
      let nextQuality := recoveryQuality severe s.currentQuality
      if nextFps < s.targetVideoFps ∨ nextQuality ≠ s.currentQuality then
        { s with
          targetVideoFps := nextFps
          currentQuality := nextQuality
          lastDecoderRecovery := some now
          lastAdaptiveRaise := now
          lastQualityChange := now
          lowInputQualityWindows := 0 }.sendVideoStart cfg now true
      else s
    else s
  else s

def qualityRaiseBootstrapWait : ImageQuality → Nat
  | .best => seconds 12
  | _ => seconds 6

def raiseQuality (s : RunSession) (now queueMs decodeMs : Nat) : RunSession :=
  if s.liveVideoSeen && decide (queueMs ≤ 200) && decide (decodeMs ≤ 60) &&
      decide (seconds 8 ≤ now - s.lastQualityChange) then
    match nextQualityAfterStability s.currentQuality s.targetVideoFps s.latestInputFps with
    | some nextQuality =>
        if qualityRaiseBootstrapWait nextQuality ≤ now - s.lastLiveBootstrap then
          { s with
            currentQuality := nextQuality
            lastQualityChange := now
            lowInputQualityWindows := 0 }.sendVideoStart cfg now false
        else s
    | none => s
  else s

/-- Decoding keeps up with a rate that was lowered. -/
def decodesWell (s : RunSession) (queueMs decodeMs : Nat) : Bool :=
  s.adaptiveQuality && decide (s.targetVideoFps < cfg.initialVideoFps) &&
    decide (queueMs ≤ 120) && decide (decodeMs ≤ 45)

/-- How many frames in a row have to be decoded well before the rate is raised. -/
def neededStableFrames (fps : Int) : Nat := saturating 32 ((max fps 5).toNat * 8)

def raiseStream (s : RunSession) (now queueMs decodeMs : Nat) : RunSession :=
  if s.decodesWell cfg queueMs decodeMs then
    let s := { s with stableDecodedFrames := saturating 32 (s.stableDecodedFrames + 1) }
    if neededStableFrames s.targetVideoFps ≤ s.stableDecodedFrames ∧
        seconds 8 ≤ now - s.lastAdaptiveRaise then
      let nextFps := raiseAdaptiveFps s.targetVideoFps cfg.initialVideoFps
      if nextFps > s.targetVideoFps then
        { s with
          targetVideoFps := nextFps
          currentQuality := initialStreamQuality nextFps s.codecPreference
          stableDecodedFrames := 0
          lastAdaptiveRaise := now
          lastQualityChange := now
          lowInputQualityWindows := 0 }.sendVideoStart cfg now false
      else s
    else s
  else { s with stableDecodedFrames := 0 }

def onFrameDecoded (s : RunSession) (now : Nat) (codec : DecodedCodec) (queueMs decodeMs : Nat) :
    RunSession :=
  (((s.clearDecodeFailures codec).recoverLatency cfg now queueMs decodeMs).raiseQuality cfg now
    queueMs decodeMs).raiseStream cfg now queueMs decodeMs

def onFeedback (s : RunSession) (now : Nat) : SessionFeedback → RunSession
  | .backlogTrimmed => s.onBacklogTrimmed cfg now
  | .evrtckChainBroken => s.onEvrtckChainBroken cfg now
  | .decodeFailed codec => s.onDecodeFailed cfg now codec
  | .frameDecoded codec queueMs decodeMs => s.onFrameDecoded cfg now codec queueMs decodeMs

/-! What the viewer asks for. -/

/-- Enter is a press of the return key. -/
def onInputCommand (s : RunSession) : SessionCommand → RunSession
  | .mouseDown x y => s.sendMouse (mouseButtonLeft <<< (3 : Nat) + mouseTypeDown) x y
  | .mouseUp x y => s.sendMouse (mouseButtonLeft <<< (3 : Nat) + mouseTypeUp) x y
  | .mouseRightDown x y => s.sendMouse (mouseButtonRight <<< (3 : Nat) + mouseTypeDown) x y
  | .mouseRightUp x y => s.sendMouse (mouseButtonRight <<< (3 : Nat) + mouseTypeUp) x y
  | .mouseMiddleDown x y => s.sendMouse (mouseButtonWheel <<< (3 : Nat) + mouseTypeDown) x y
  | .mouseMiddleUp x y => s.sendMouse (mouseButtonWheel <<< (3 : Nat) + mouseTypeUp) x y
  | .mouseWheel x y => s.sendMouse mouseTypeWheel x y
  | .keyText text => s.write (text.toList.map fun ch => .unicode ch [])
  | .setClipboardText text => s.write [.clipboard text]
  | .keyControl key => s.write [.controlKeyPress key []]
  | .keyControlState key down => s.write [.controlKeyState key down]
  | .keyTextWithModifiers text modifiers =>
      s.write (text.toList.map fun ch => .unicode ch modifiers)
  | .keyControlWithModifiers key modifiers => s.write [.controlKeyPress key modifiers]
  | .keyEnter => s.write [.controlKeyPress .returnKey []]
  | .shellStart => s.write [.shell .start ""]
  | .shellInput input => s.write [.shell .input input]
  | .shellStop => s.write [.shell .stop ""]
  | .listVms => s.write [.vmListRequest]
  | .vmPowerOp json => s.write [.vmPowerOp json]
  | .vmCapabilityRequest vmId => s.write [.vmCapabilityRequest vmId]
  | .vmCheckpointOp json => s.write [.vmCheckpointOp json]
  | .vmRescueInput json => s.write [.vmRescueInput json]
  | .setHostVolume volume => s.write [.setHostVolume (min volume 100)]
  | .startEvrt2Experiment => s.write [.evrt2ExperimentRequest]
  | _ => s

/-- A command after the mouse move that waited before it. Without video only the choices
are kept. -/
def onOtherCommand (s : RunSession) (now : Nat) : SessionCommand → RunSession
  | .screenshot => if cfg.controlOnly then s else s.requestScreenshot now
  | .setDisplay index =>
      let s := { s with currentDisplay := max index 0 }
      if cfg.controlOnly then s
      else
        (({ s with liveVideoSeen := false }.write
          (switchDisplayMessages s.currentDisplay)).sendVideoStart cfg now
            false).requestScreenshot now
  | .setAutoRefresh enabled millis =>
      let s := { s with autoRefresh := enabled, autoRefreshMillis := max millis 50 }
      if cfg.controlOnly then s else s.sendVideoStart cfg now false
  | .refreshVideo =>
      if cfg.controlOnly then s
      else
        { s with liveVideoSeen := false, lastDecoderRecovery := some now }.sendVideoStart cfg
          now false
  | .setVideoFps fps =>
      let target := clampFps fps 5 60
      let s := { s with
        targetVideoFps := target
        currentQuality := initialStreamQuality target s.codecPreference }
      if cfg.controlOnly then s
      else
        { s with
          lastDecoderRecovery := some now
          lastQualityChange := now
          lowInputQualityWindows := 0 }.sendVideoStart cfg now false
  | .setAdaptiveQuality enabled =>
      { s with
        adaptiveQuality := enabled
        lowInputQualityWindows := 0
        lastQualityChange := now }
  | .setVideoProfile fps codec =>
      let target := clampFps fps 5 60
      let s := { s with
        targetVideoFps := target
        codecPreference := codec
        currentQuality := initialStreamQuality target codec }
      if cfg.controlOnly then s
      else
        { s with
          liveVideoSeen := false
          lastDecoderRecovery := some now
          lastQualityChange := now
          lowInputQualityWindows := 0 }.sendVideoStart cfg now true
  | .attachVm vmId =>
      { s.write [.vmAttach vmId] with
        liveVideoSeen := false
        lastDecoderRecovery := some now }
  | .close => { s with evrtStop := true, returned := true }
  | command => s.onInputCommand command

/-- A mouse move waits for the next command; a later one takes its place. -/
def onCommand (s : RunSession) (now : Nat) : SessionCommand → RunSession
  | .mouseMove x y => { s with pendingMouseMove := some (x, y) }
  | command => s.flushPendingMouseMove.onOtherCommand cfg now command

/-! What comes from the host. -/

def sendSelectedWindowsSession (s : RunSession) : Option WindowsSessions → RunSession
  | some ⟨sessions, currentSid⟩ =>
      if sessions.isEmpty || currentSid == 0 then s else s.write [.selectedSid currentSid]
  | none => s

/-- The quality is not the one in use but the initial one. -/
def sendVideoStartMessages (s : RunSession) : RunSession :=
  if cfg.controlOnly then s
  else
    s.write (videoStartMessages cfg.caps s.currentDisplay false s.targetVideoFps
      s.codecPreference (initialStreamQuality s.targetVideoFps s.codecPreference))

/-- Whether a live frame can be decoded: H.265 and AV1 need the size of the display. -/
def frameSource (codec : VideoUnion) (bytes : Nat) (sizeKnown : Bool) : Option FrameSource :=
  match codec with
  | .h264 => some (.video bytes)
  | .vp8 => some (if cfg.caps.vp8 then .video bytes else .skippedVideo)
  | .vp9 => some (if cfg.caps.vp9 then .video bytes else .skippedVideo)
  | .h265 => some (if cfg.caps.h265 && sizeKnown then .video bytes else .skippedVideo)
  | .av1 => some (if cfg.caps.av1 && sizeKnown then .video bytes else .skippedVideo)
  | .unsupported => none

def handleSessionMessage (s : RunSession) : Received → RunSession × Option FrameSource
  | .screenshotResponse => (s, if cfg.controlOnly then none else some .screenshot)
  | .videoFrame codec bytes sizeKnown =>
      if cfg.controlOnly then (s, none)
      else (s.write [.videoReceived], frameSource cfg codec bytes sizeKnown)
  | .tcpEvrtckFrame bytes => (s, if cfg.controlOnly then none else some (.video bytes))
  | .testDelay fromClient => (if fromClient then s else s.write [.echoTestDelay], none)
  | .loginResponse windowsSessions | .peerInfo windowsSessions =>
      ((s.sendSelectedWindowsSession windowsSessions).sendVideoStartMessages cfg, none)
  | .timeout | .failed | .other => (s, none)

def lowInputWindows (targetFps : Int) (fps : ℚ) : Nat :=
  if qualityDropIsSevere targetFps fps then 2 else 1

/-- The quality is lowered after two windows of low input, a severe one counting twice. -/
def lowerQuality (s : RunSession) (now : Nat) (fps : ℚ) : RunSession :=
  if s.adaptiveQuality && s.liveVideoSeen then
    match downgradeQualityForLowInput s.currentQuality s.targetVideoFps fps with
    | some nextQuality =>
        let windows := saturating 32
          (s.lowInputQualityWindows + lowInputWindows s.targetVideoFps fps)
        if windows ≥ 2 ∧ seconds 2 ≤ now - s.lastQualityChange then
          { s with
            currentQuality := nextQuality
            lastQualityChange := now
            lowInputQualityWindows := 0 }.sendVideoStart cfg now false
        else { s with lowInputQualityWindows := windows }
    | none => { s with lowInputQualityWindows := 0 }
  else s

/-- The end of a window of video packets. -/
def onVideoWindow (s : RunSession) (now : Nat) : RunSession :=
  let fps := inputFps s.videoMetricPackets (now - s.lastVideoPacketMetrics)
  { { s with latestInputFps := fps }.lowerQuality cfg now fps with
    videoMetricPackets := 0
    lastVideoPacketMetrics := now }

def onVideo (s : RunSession) (now : Nat) : RunSession :=
  let s := { s.write [.videoReceived] with
    videoMetricPackets := saturating 64 (s.videoMetricPackets + 1) }
  let s := if millis 750 ≤ now - s.lastVideoPacketMetrics then s.onVideoWindow cfg now else s
  { s with liveVideoSeen := true }

/-- The host is asked once for a codec that this machine can decode. -/
def onSkippedVideo (s : RunSession) : RunSession :=
  let s := { s with skippedVideoCount := s.skippedVideoCount + 1 }
  if s.skippedVideoCount = 1 then
    let fallback := fallbackCodecPreference cfg.caps
    s.write [.option (videoOptionMessage cfg.caps s.targetVideoFps fallback
      (initialStreamQuality s.targetVideoFps fallback))]
  else s

def onFrameSource (s : RunSession) (now : Nat) : Option FrameSource → RunSession
  | some .skippedVideo => s.onSkippedVideo cfg
  | some .screenshot => { s with screenshotPending := false, lastFrameReceived := now }
  | some (.video _) =>
      { s with screenshotPending := false, lastFrameReceived := now }.onVideo cfg now
  | none => s

def onRead (s : RunSession) (now : Nat) : Received → RunSession
  | .timeout =>
      if cfg.controlOnly && decide (seconds 1 ≤ now - s.lastClientKeepalive) then
        { s.write [.keepalive] with lastClientKeepalive := now }
      else s
  | .failed => { s with evrtStop := true, returned := true }
  | received =>
      let (s, source) := s.handleSessionMessage cfg received
      s.onFrameSource cfg now source

/-! What is done in every turn. -/

def sendQosFeedback (s : RunSession) (now : Nat) : RunSession :=
  if !cfg.controlOnly && elapsedAtLeast s.lastQosFeedbackSent now (seconds 1) then
    { s.write (streamQosFeedback s.targetVideoFps) with lastQosFeedbackSent := some now }
  else s

def retryLiveVideo (s : RunSession) (now : Nat) (effectivelyLive : Bool) : RunSession :=
  if !effectivelyLive && decide (seconds 3 ≤ now - s.lastLiveBootstrap) then
    (s.sendVideoStart cfg now true).write [.videoReceived]
  else s

def requestExpiry (autoRefreshMillis : Nat) : Nat :=
  millis (max 700 (min (autoRefreshMillis * 8) 2000))

/-- The clock of the screenshots. Frames that a platform decodes past the loop count as
live video. -/
def autoRefreshTick (s : RunSession) (now : Nat) (androidEvrtFrameSeen : Bool) : RunSession :=
  if s.autoRefresh && !cfg.controlOnly then
    let elapsed := s.lastScreenshotSent.elim (seconds 999) fun t => now - t
    let requestExpired := decide (requestExpiry s.autoRefreshMillis ≤ elapsed)
    let effectivelyLive := s.liveVideoSeen || androidEvrtFrameSeen
    let videoIsFresh := androidEvrtFrameSeen ||
      (s.liveVideoSeen && decide (now - s.lastFrameReceived < millis 1200))
    let liveBootstrapGrace := !effectivelyLive && decide (now - s.lastLiveBootstrap < millis 2500)
    let s := s.retryLiveVideo cfg now effectivelyLive
    if decide (millis s.autoRefreshMillis ≤ elapsed) && !videoIsFresh &&
        !liveBootstrapGrace && (!s.screenshotPending || requestExpired) then
      s.requestScreenshot now
    else s
  else s

end Steps

end RunSession

/-- The parts of a turn of the loop. In each turn the loop takes the feedback of the
decoder, the bytes of the experimental transport and the commands until there are none,
sends the last mouse move, and reads once. -/
inductive LoopStep where
  | feedback (now : Nat) (feedback : SessionFeedback)
  | relayOut (bytes : List UInt8)
  | command (now : Nat) (command : SessionCommand)
  | commandsDrained
  | read (now : Nat) (received : Received)
  | qosFeedback (now : Nat)
  | autoRefresh (now : Nat) (androidEvrtFrameSeen : Bool)

def RunSession.act (cfg : SessionConfig) (s : RunSession) : LoopStep → RunSession
  | .feedback now feedback => s.onFeedback cfg now feedback
  | .relayOut bytes => s.write [.evrt2RelayWrap bytes]
  | .command now command => s.onCommand cfg now command
  | .commandsDrained => s.flushPendingMouseMove
  | .read now received => s.onRead cfg now received
  | .qosFeedback now => s.sendQosFeedback cfg now
  | .autoRefresh now androidEvrtFrameSeen => s.autoRefreshTick cfg now androidEvrtFrameSeen

/-- A loop that has returned does nothing any more. -/
def runSession (cfg : SessionConfig) : Machine RunSession LoopStep Unit where
  step s step := (if s.returned then s else s.act cfg step, ())

end EvertyDesk.Transport
