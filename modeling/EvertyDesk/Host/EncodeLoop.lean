import EvertyDesk.Evrtck.Encoder
import EvertyDesk.Host.CaptureSlot
import EvertyDesk.Host.ChangeDetector

/-!
The encoder loop of one display while it encodes EVRTCK. It takes a picture from
the slot, skips it if the screen stands still, decides whether it becomes a key
frame, has it encoded, and puts it into the channel of the EVRT session or into
that of the relay, which may be full.

What the loop shares with the capture thread is the slot alone, and it takes from
it once in an iteration, so an iteration is one step. An iteration is given what
the loop reads from clocks and other threads: whether the frame is due, whether
there is an EVRT session, requests for key frames, and what becomes of a frame
that is put into a channel. The size of the frame that a scaling gives and the
sharpening of pictures are computed with floating point and are parameters. Rates
and measurements are left out.
-/

namespace EvertyDesk.Host

/-! Times are in nanoseconds. -/

def idrMinRequested : Nat := 500000000

def idrMinForced : Nat := 300000000

structure EncodeLoopConfig where
  allowStaticSkip : Bool
  idrIntervalSecs : Nat
  /-- The filter over pictures of given dimensions, if there is one. -/
  fsr : Option (UInt32 → UInt32 → List UInt8 → List UInt8)
  scaleEvenToFit : UInt32 → UInt32 → UInt32 → UInt32 → UInt32 × UInt32

def EncodeLoopConfig.idrMinEvrtck (cfg : EncodeLoopConfig) : Nat :=
  max 5 (min cfg.idrIntervalSecs 120) * 1000000000

def softwareNativeMaxW : UInt32 := 1920

def softwareNativeMaxH : UInt32 := 1080

section Scaling

variable (cfg : EncodeLoopConfig)

def clientCapResolution (srcW srcH clientW clientH : UInt32) : Option (UInt32 × UInt32) :=
  if srcW = 0 ∨ srcH = 0 ∨ clientW = 0 ∨ clientH = 0 then none
  else if srcW ≤ clientW ∧ srcH ≤ clientH then none
  else
    let scaled := cfg.scaleEvenToFit srcW srcH clientW clientH
    if scaled.1 ≠ srcW ∨ scaled.2 ≠ srcH then some scaled else none

def softwareEncoderDownscaleTarget (width height : UInt32) : Option (UInt32 × UInt32) :=
  if width = 0 ∨ height = 0 then none
  else if width ≤ softwareNativeMaxW ∧ height ≤ softwareNativeMaxH ∧
      width.toNat * height.toNat ≤ 1920 * 1080 then none
  else
    let scaled := cfg.scaleEvenToFit width height softwareNativeMaxW softwareNativeMaxH
    if scaled.1 ≠ width ∨ scaled.2 ≠ height then some scaled else none

theorem otherDims_ne {scaled : UInt32 × UInt32} {width height : UInt32} :
    (if scaled.1 ≠ width ∨ scaled.2 ≠ height then some scaled else none) ≠
      some (width, height) := by
  intro hsame
  split at hsame
  next hother =>
    cases hsame
    simp at hother
  next => cases hsame

/-- A scaling is to other dimensions. -/
theorem clientCapResolution_ne (srcW srcH clientW clientH : UInt32) :
    clientCapResolution cfg srcW srcH clientW clientH ≠ some (srcW, srcH) := by
  unfold clientCapResolution
  split
  · simp
  · split
    · simp
    · exact otherDims_ne

theorem softwareEncoderDownscaleTarget_ne (width height : UInt32) :
    softwareEncoderDownscaleTarget cfg width height ≠ some (width, height) := by
  unfold softwareEncoderDownscaleTarget
  split
  · simp
  · split
    · simp
    · exact otherDims_ne

/-- Every pixel is that of the source next to it, opaque. -/
def downscaleBgra (src : List UInt8) (srcW srcH dstW dstH : UInt32) : List UInt8 :=
  let sw := srcW.toNat
  let sh := srcH.toNat
  let dw := dstW.toNat
  let dh := dstH.toNat
  if sw = 0 ∨ sh = 0 ∨ dw = 0 ∨ dh = 0 ∨ src.length < sw * sh * 4 then
    List.replicate (dw * dh * 4) 0
  else
    let xRatio := sw * 2 ^ 16 / dw
    let yRatio := sh * 2 ^ 16 / dh
    (List.range (dw * dh)).flatMap fun pixel =>
      let sy := pixel / dw * yRatio / 2 ^ 16
      let sx := pixel % dw * xRatio / 2 ^ 16
      let s := (sy * sw + sx) * 4
      [src.getD s 0, src.getD (s + 1) 0, src.getD (s + 2) 0, 255]

end Scaling

/-! Hints. -/

def CaptureRect.width (rect : CaptureRect) : UInt32 :=
  UInt32.ofNat (rect.right.toNat - rect.left.toNat)

def CaptureRect.height (rect : CaptureRect) : UInt32 :=
  UInt32.ofNat (rect.bottom.toNat - rect.top.toNat)

def CaptureMoveRect.copyRect (rect : CaptureMoveRect) : Evrtck.CopyRect where
  srcX := rect.sourceLeft
  srcY := rect.sourceTop
  dstX := rect.dest.left
  dstY := rect.dest.top
  width := rect.dest.width
  height := rect.dest.height

def CaptureRect.dirtyRect (rect : CaptureRect) : Evrtck.DirtyRect where
  left := rect.left
  top := rect.top
  right := rect.right
  bottom := rect.bottom

/-- A picture that is encoded in other dimensions than it was captured in has no
hints. -/
def evrtckCopyRects (f : CapturedFrame) (encW encH : UInt32) : List Evrtck.CopyRect :=
  if encW = f.width ∧ encH = f.height then
    (f.frameMeta.moveRects.map CaptureMoveRect.copyRect).filter fun rect =>
      rect.width > 0 ∧ rect.height > 0
  else []

def evrtckDirtyRects (f : CapturedFrame) (encW encH : UInt32) : List Evrtck.DirtyRect :=
  if encW = f.width ∧ encH = f.height then
    (f.frameMeta.dirtyRects.map CaptureRect.dirtyRect).filter fun rect =>
      rect.right > rect.left ∧ rect.bottom > rect.top
  else []

/-! Channels. -/

/-- What a channel of bounded capacity does with an item. -/
inductive TrySend where
  | ok
  | full
  | disconnected
deriving DecidableEq, Repr

inductive TcpVideoSend where
  | sent
  | dropped
  | disconnected
deriving DecidableEq, Repr

/-- One attempt to put a frame into the relay's channel. -/
structure Attempt where
  outcome : TrySend
  /-- The loop is to stop, or the frame has waited too long. -/
  giveUp : Bool
deriving DecidableEq, Repr

/-- A key frame waits for a full channel until it has waited too long, where the
attempts end. -/
def sendTcpVideoFrame (isIdr : Bool) : List Attempt → TcpVideoSend
  | [] => .dropped
  | attempt :: attempts =>
      match attempt.outcome with
      | .ok => .sent
      | .disconnected => .disconnected
      | .full =>
          if isIdr && !attempt.giveUp then sendTcpVideoFrame isIdr attempts else .dropped

/-! The loop. -/

/-- What one iteration reads. -/
structure Iteration where
  /-- There is an EVRT session. -/
  evrtOn : Bool
  /-- The time for the next frame has come. -/
  due : Bool
  /-- Key frames have been requested since the last frame was due. -/
  externalIdr : Bool
  /-- The clock, as the reasons for a key frame and the change detector read it,
  and when the frame has been encoded. -/
  forcedAt : Nat
  requestedAt : Nat
  periodicAt : Nat
  decidedAt : Nat
  encodedAt : Nat
  vmFrameSeq : Option UInt64
  /-- The client's largest resolution, packed; zero if it told none. -/
  clientMaxRes : UInt64
  /-- The pointer's position, packed; zero if it is not known. -/
  cursorPos : UInt64
  hasActiveHardwareBackend : Bool
  evrtTrySend : TrySend
  tcpAttempts : List Attempt

/-- A frame that has been encoded, with the calls that made the encoder do it. -/
structure Encoded where
  frameId : UInt32
  isIdr : Bool
  width : UInt32
  height : UInt32
  bgra : List UInt8
  calls : List Evrtck.Call
  /-- It was put into the relay's channel. -/
  relayed : Bool

structure EncodeLoop where
  capture : Capture
  changeDetector : FrameChangeDetector
  /-- The dimensions of the encoder, if there is one. -/
  encoder : Option (UInt32 × UInt32)
  downscaleTo : Option (UInt32 × UInt32)
  softwareProfileActive : Bool
  frameId : UInt32
  lastIdr : Nat
  forceRecoveryKey : Bool
  evrtckBaselineDirty : Bool
  evrtDisconnectSpins : UInt8
  wasEvrtOn : Bool
  lastVmSeq : UInt64
  stop : Bool
  /-- The frames encoded so far, the last one first. The code does not keep them. -/
  frames : List Encoded

namespace EncodeLoop

/-- The loop starts at a time of its own. -/
def start (now : Nat) : EncodeLoop where
  capture := Capture.start
  changeDetector := FrameChangeDetector.new
  encoder := none
  downscaleTo := none
  softwareProfileActive := false
  frameId := 0
  lastIdr := now
  forceRecoveryKey := true
  evrtckBaselineDirty := false
  evrtDisconnectSpins := 0
  wasEvrtOn := false
  lastVmSeq := 0
  stop := false
  frames := []

variable (cfg : EncodeLoopConfig) (s : EncodeLoop) (i : Iteration)

/-! Reasons for a key frame. -/

/-- Even a key frame that is forced keeps its distance from the last one. -/
def forcedAllowed : Bool :=
  s.forceRecoveryKey && (s.frameId == 0 || decide (idrMinForced ≤ i.forcedAt - s.lastIdr))

def recoveryDue : Bool :=
  (i.externalIdr || s.evrtckBaselineDirty) &&
    decide (min idrMinRequested cfg.idrMinEvrtck ≤ i.requestedAt - s.lastIdr)

def periodicDue : Bool := decide (cfg.idrMinEvrtck < i.periodicAt - s.lastIdr)

def periodicKey : Bool := s.forcedAllowed i || s.recoveryDue cfg i || s.periodicDue cfg i

/-! The picture. -/

def validGeometry (f : CapturedFrame) : Bool :=
  f.width != 0 && f.height != 0 && f.picture.bgra.length == f.width.toNat * f.height.toNat * 4

def processed (f : CapturedFrame) : List UInt8 :=
  match cfg.fsr with
  | some processBgra => processBgra f.width f.height f.picture.bgra
  | none => f.picture.bgra

def vmSeqChanged : Bool :=
  match i.vmFrameSeq with
  | some seq => seq != s.lastVmSeq
  | none => false

/-- The detector's decision about a picture. -/
def decision (f : CapturedFrame) : FrameChangeDetector × FrameDecision :=
  s.changeDetector.decide f.width f.height (processed cfg f)
    (s.periodicKey cfg i || s.vmSeqChanged i) i.decidedAt

def skips (f : CapturedFrame) : Bool :=
  !(s.decision cfg i f).2.send && (cfg.allowStaticSkip && !s.vmSeqChanged i)

/-- The scaling of the picture and of those after it. -/
def nextDownscale (f : CapturedFrame) : Option (UInt32 × UInt32) :=
  if i.evrtOn then
    if i.clientMaxRes > 0 then
      clientCapResolution cfg f.width f.height
        (UInt32.ofNat (i.clientMaxRes.toNat / 2 ^ 32))
        (UInt32.ofNat (i.clientMaxRes.toNat % 2 ^ 32))
    else s.downscaleTo
  else if s.softwareProfileActive then softwareEncoderDownscaleTarget cfg f.width f.height
  else s.downscaleTo

def wantIdr (f : CapturedFrame) : Bool :=
  (if i.evrtOn then s.periodicKey cfg i
    else (s.decision cfg i f).2.forceKey || s.periodicKey cfg i) ||
    s.nextDownscale cfg i f != s.downscaleTo

/-- The dimensions and the bytes that are encoded. -/
def scaled (f : CapturedFrame) : UInt32 × UInt32 × List UInt8 :=
  match s.nextDownscale cfg i f with
  | some (dw, dh) => (dw, dh, downscaleBgra (processed cfg f) f.width f.height dw dh)
  | none => (f.width, f.height, processed cfg f)

/-- The encoder is made ready for the picture. -/
def setupCalls (f : CapturedFrame) : List Evrtck.Call :=
  let (encW, encH, _) := s.scaled cfg i f
  let fresh :=
    if s.encoder = some (encW, encH) then []
    else [.new encW.toNat encH.toNat, .requestKeyframe]
  let key := if s.wantIdr cfg i f then [.requestKeyframe] else []
  let focus :=
    if i.cursorPos ≠ 0 then
      [.setFocusPixel (UInt32.ofNat (i.cursorPos.toNat / 2 ^ 32))
        (UInt32.ofNat (i.cursorPos.toNat % 2 ^ 32))]
    else []
  fresh ++ key ++ focus

def encodeCall (f : CapturedFrame) : Evrtck.Call :=
  let (encW, encH, bgra) := s.scaled cfg i f
  let copyRects := evrtckCopyRects f encW encH
  let dirtyRects := evrtckDirtyRects f encW encH
  if copyRects.isEmpty ∧ dirtyRects.isEmpty then
    .encodeWithScrollDetection bgra s.frameId
  else .encodeWithCaptureHints bgra s.frameId copyRects dirtyRects

/-- What remains of a hardware encoder decides about scaling, also here where it
is not used. -/
def withProfile (encW encH : UInt32) : EncodeLoop :=
  let isSoftware := !i.hasActiveHardwareBackend
  if isSoftware = s.softwareProfileActive then s
  else if isSoftware then
    { s with
      softwareProfileActive := true
      downscaleTo := softwareEncoderDownscaleTarget cfg encW encH }
  else
    { s with
      softwareProfileActive := false
      downscaleTo := none
      forceRecoveryKey := s.forceRecoveryKey || s.downscaleTo.isSome }

/-- The frame goes into one of the channels. -/
def dispatch (isIdr : Bool) : EncodeLoop :=
  if i.evrtOn then
    match i.evrtTrySend with
    | .ok =>
        { s with
          evrtDisconnectSpins := 0
          forceRecoveryKey := s.forceRecoveryKey && !isIdr
          evrtckBaselineDirty := s.evrtckBaselineDirty && !isIdr }
    | .full => { s with evrtckBaselineDirty := true }
    | .disconnected =>
        { s with
          forceRecoveryKey := true
          evrtDisconnectSpins := s.evrtDisconnectSpins + 1
          stop := s.stop || decide (3 ≤ s.evrtDisconnectSpins + 1) }
  else
    match sendTcpVideoFrame isIdr i.tcpAttempts with
    | .sent => { s with forceRecoveryKey := s.forceRecoveryKey && !isIdr }
    | .dropped => { s with forceRecoveryKey := true }
    | .disconnected => { s with stop := true }

def relays (isIdr : Bool) : Bool := !i.evrtOn && sendTcpVideoFrame isIdr i.tcpAttempts == .sent

def encoded (f : CapturedFrame) : Encoded where
  frameId := s.frameId + 1
  isIdr := s.wantIdr cfg i f
  width := (s.scaled cfg i f).1
  height := (s.scaled cfg i f).2.1
  bgra := (s.scaled cfg i f).2.2
  calls := s.setupCalls cfg i f ++ [s.encodeCall cfg i f]
  relayed := relays i (s.wantIdr cfg i f)

/-- The state once the picture is encoded. -/
def withEncoded (f : CapturedFrame) : EncodeLoop :=
  let (encW, encH, bgra) := s.scaled cfg i f
  let next := s.nextDownscale cfg i f
  { s with
    encoder := some (encW, encH)
    downscaleTo := next
    forceRecoveryKey := s.forceRecoveryKey || !i.evrtOn && next != s.downscaleTo
    frameId := s.frameId + 1
    lastIdr := if s.wantIdr cfg i f then i.encodedAt else s.lastIdr
    lastVmSeq := i.vmFrameSeq.getD s.lastVmSeq
    changeDetector := (s.decision cfg i f).1.markSent encW encH bgra i.encodedAt
    frames := s.encoded cfg i f :: s.frames }

/-- The picture is encoded, and the frame dispatched. -/
def encode (f : CapturedFrame) : EncodeLoop :=
  let (encW, encH, _) := s.scaled cfg i f
  ((s.withEncoded cfg i f).withProfile cfg i encW encH).dispatch i (s.wantIdr cfg i f)

/-- The loop looks for the EVRT session before anything else; whether it came or
went, the next frame is to be a key frame. -/
def observe : EncodeLoop :=
  { s with
    forceRecoveryKey := s.forceRecoveryKey || i.evrtOn != s.wasEvrtOn
    wasEvrtOn := i.evrtOn }

/-- The picture that this iteration encodes. -/
def toEncode : Option CapturedFrame :=
  if s.stop || !i.due then none
  else
    match s.capture.slot with
    | none => none
    | some f => if validGeometry f && !(s.observe i).skips cfg i f then some f else none

def iterate : EncodeLoop :=
  if s.stop then s
  else
    let s := s.observe i
    if !i.due then s
    else
      let (capture, taken) := s.capture.take
      let s := { s with capture := capture }
      match taken with
      | none => s
      | some f =>
          if !validGeometry f then { s with forceRecoveryKey := true }
          else if s.skips cfg i f then
            { s with
              lastVmSeq := i.vmFrameSeq.getD s.lastVmSeq
              changeDetector := (s.decision cfg i f).1 }
          else s.encode cfg i f

section Steps

variable {cfg : EncodeLoopConfig} {s : EncodeLoop} {i : Iteration}

theorem withProfile_rest (cfg : EncodeLoopConfig) (s : EncodeLoop) (i : Iteration)
    (encW encH : UInt32) :
    ∃ active downscale force, s.withProfile cfg i encW encH =
      { s with
        softwareProfileActive := active
        downscaleTo := downscale
        forceRecoveryKey := force } := by
  unfold withProfile
  dsimp only
  split
  · exact ⟨_, _, _, rfl⟩
  · split
    · exact ⟨_, _, _, rfl⟩
    · exact ⟨_, _, _, rfl⟩

theorem dispatch_rest (s : EncodeLoop) (i : Iteration) (isIdr : Bool) :
    ∃ force dirty spins stop, s.dispatch i isIdr =
      { s with
        forceRecoveryKey := force
        evrtckBaselineDirty := dirty
        evrtDisconnectSpins := spins
        stop := stop } := by
  unfold dispatch
  split
  · cases i.evrtTrySend <;> exact ⟨_, _, _, _, rfl⟩
  · cases sendTcpVideoFrame isIdr i.tcpAttempts <;> exact ⟨_, _, _, _, rfl⟩

/-- What follows the encoding leaves the encoder, the slot and the frames alone. -/
theorem encode_rest (cfg : EncodeLoopConfig) (s : EncodeLoop) (i : Iteration) (f : CapturedFrame) :
    (s.encode cfg i f).frames = s.encoded cfg i f :: s.frames ∧
      (s.encode cfg i f).encoder = some ((s.scaled cfg i f).1, (s.scaled cfg i f).2.1) ∧
      (s.encode cfg i f).capture = s.capture ∧
      (s.encode cfg i f).wasEvrtOn = s.wasEvrtOn := by
  unfold encode
  dsimp only
  obtain ⟨active, downscale, profiled, hprofile⟩ := withProfile_rest cfg
    (s.withEncoded cfg i f) i (s.scaled cfg i f).1 (s.scaled cfg i f).2.1
  rw [hprofile]
  obtain ⟨force, dirty, spins, stop, hdispatch⟩ := dispatch_rest
    { s.withEncoded cfg i f with
      softwareProfileActive := active
      downscaleTo := downscale
      forceRecoveryKey := profiled } i (s.wantIdr cfg i f)
  rw [hdispatch]
  exact ⟨rfl, rfl, rfl, rfl⟩

/-- What an iteration that encodes nothing leaves behind. -/
structure QuietAfter (s : EncodeLoop) (i : Iteration) (next : EncodeLoop) : Prop where
  frames : next.frames = s.frames
  encoder : next.encoder = s.encoder
  capture : next.capture = s.capture ∨ next.capture = s.capture.take.1
  stop : next.stop = s.stop
  wasEvrtOn : next.wasEvrtOn = i.evrtOn
  armed : (s.observe i).forceRecoveryKey = true → next.forceRecoveryKey = true

theorem iterate_quiet (h : s.toEncode cfg i = none) :
    s.iterate cfg i = s ∧ (s.stop = true) ∨ QuietAfter s i (s.iterate cfg i) := by
  unfold iterate
  unfold toEncode at h
  cases hstop : s.stop with
  | true => exact .inl ⟨rfl, rfl⟩
  | false =>
      cases hdue : i.due with
      | false => exact .inr ⟨rfl, rfl, .inl rfl, rfl, rfl, id⟩
      | true =>
          cases hslot : s.capture.slot with
          | none =>
              have htake : (s.observe i).capture.take = (s.capture.take.1, none) := by
                simp [observe, Capture.take, hslot]
              simp only [Bool.not_true, Bool.false_eq_true, if_false, htake]
              exact .inr ⟨rfl, rfl, .inr rfl, rfl, rfl, id⟩
          | some f =>
              have htake : (s.observe i).capture.take = (s.capture.take.1, some f) := by
                simp [observe, Capture.take, hslot]
              simp only [hstop, hdue, hslot] at h
              simp only [Bool.not_true, Bool.false_eq_true, if_false, htake]
              cases hvalid : validGeometry f with
              | false => exact .inr ⟨rfl, rfl, .inr rfl, rfl, rfl, fun _ => rfl⟩
              | true =>
                  have hskips : (s.observe i).skips cfg i f = true := by
                    simpa [hvalid] using h
                  have hsame : EncodeLoop.skips cfg
                      { s.observe i with capture := s.capture.take.1 } i f = true := hskips
                  simp only [Bool.not_true, Bool.false_eq_true, if_false, hsame, if_true]
                  exact .inr ⟨rfl, rfl, .inr rfl, rfl, rfl, id⟩

theorem iterate_encodes {f : CapturedFrame} (h : s.toEncode cfg i = some f) :
    s.stop = false ∧ s.capture.slot = some f ∧ validGeometry f = true ∧
      s.iterate cfg i = { s.observe i with capture := s.capture.take.1 }.encode cfg i f := by
  unfold iterate
  unfold toEncode at h
  cases hstop : s.stop with
  | true => simp [hstop] at h
  | false =>
      cases hdue : i.due with
      | false => simp [hdue] at h
      | true =>
          cases hslot : s.capture.slot with
          | none => simp [hstop, hdue, hslot] at h
          | some taken =>
              have htake : (s.observe i).capture.take = (s.capture.take.1, some taken) := by
                simp [observe, Capture.take, hslot]
              simp only [hstop, hdue, hslot, Bool.not_true, Bool.or_false,
                Bool.false_eq_true, if_false] at h
              split at h
              next hgood =>
                cases h
                obtain ⟨hvalid, hskips⟩ := Bool.and_eq_true_iff.mp hgood
                have hsend : (s.observe i).skips cfg i f = false := by simpa using hskips
                have hsame : EncodeLoop.skips cfg
                    { s.observe i with capture := s.capture.take.1 } i f = false := hsend
                simp only [Bool.not_true, Bool.false_eq_true, if_false, htake, hvalid, hsame]
                exact ⟨trivial, trivial, trivial, trivial⟩
              next => cases h

end Steps

end EncodeLoop

inductive EncodeLoopInput where
  | capture (result : CaptureResult)
  | iterate (i : Iteration)
  | stop

def encodeLoop (cfg : EncodeLoopConfig) : Machine EncodeLoop EncodeLoopInput Unit where
  step s
    | .capture result => ({ s with capture := s.capture.capture result }, ())
    | .iterate i => (s.iterate cfg i, ())
    | .stop => ({ s with stop := true }, ())

/-! A small setting. -/

/-- Key frames every twenty seconds, without a filter; small pictures are not
scaled. -/
def plainConfig : EncodeLoopConfig where
  allowStaticSkip := true
  idrIntervalSecs := 20
  fsr := none
  scaleEvenToFit := fun width height _ _ => (width, height)

/-- An iteration without an EVRT session. -/
def relayIteration (now : Nat) (outcome : TrySend) : Iteration where
  evrtOn := false
  due := true
  externalIdr := false
  forcedAt := now
  requestedAt := now
  periodicAt := now
  decidedAt := now
  encodedAt := now
  vmFrameSeq := none
  clientMaxRes := 0
  cursorPos := 0
  hasActiveHardwareBackend := true
  evrtTrySend := .disconnected
  tcpAttempts := [⟨outcome, false⟩]

end EvertyDesk.Host
