import EvertyDesk.Host.EncodeLoop

/-!
The encoder loop with either codec: EVRTCK, or the one of the session's video encoder,
which may take a picture and give nothing for it. In game mode the picture taken last is
encoded again when there is no new one. The loop asks the change detector about a picture
as it was captured, and tells it that the picture was sent as it was encoded. While
pictures are scaled down the two differ in size.
-/

namespace EvertyDesk.Host

def idrMinH264 : Nat := 1200000000

def idrMinEvrtHxxx : Nat := 2000000000

structure CodecIteration extends Iteration where
  wantEvrtck : Bool
  /-- It is read once more after a picture has been taken from the slot. -/
  stillEvrtck : Bool
  /-- What the video encoder would give for the picture, and whether as a key frame. -/
  output : Option Bool

def CodecIteration.isGameModeEnc (i : CodecIteration) : Bool := i.evrtOn && !i.stillEvrtck

/-- What the detector was asked about a picture, and what became of it. -/
structure Decided where
  picture : List UInt8
  sizeChanged : Bool
  /-- A key frame, a new picture of a virtual machine, or a refresh. -/
  due : Bool
  decision : FrameDecision
  skipped : Bool
  sent : Bool
deriving DecidableEq, Repr

structure CodecLoop where
  loop : EncodeLoop
  lastGameFrame : Option CapturedFrame
  /-- The decisions, the last one first. The code does not keep them. -/
  history : List Decided

namespace CodecLoop

def start (now : Nat) : CodecLoop where
  loop := EncodeLoop.start now
  lastGameFrame := none
  history := []

section Picture

variable (cfg : EncodeLoopConfig) (s : EncodeLoop) (i : CodecIteration) (f : CapturedFrame)

def currentIdrMin : Nat :=
  if i.wantEvrtck then cfg.idrMinEvrtck
  else if i.evrtOn then idrMinEvrtHxxx
  else idrMinH264

def periodicKey : Bool :=
  s.forcedAllowed i.toIteration ||
    (i.externalIdr || s.evrtckBaselineDirty) &&
      decide (min idrMinRequested (currentIdrMin cfg i) ≤ i.requestedAt - s.lastIdr) ||
    decide (currentIdrMin cfg i < i.periodicAt - s.lastIdr)

def decision : FrameChangeDetector × FrameDecision :=
  s.changeDetector.decide f.width f.height (EncodeLoop.processed cfg f)
    (periodicKey cfg s i || s.vmSeqChanged i.toIteration) i.decidedAt

def skips : Bool :=
  !(decision cfg s i f).2.send && (cfg.allowStaticSkip && !s.vmSeqChanged i.toIteration)

def wantIdr : Bool :=
  (if i.evrtOn then periodicKey cfg s i
    else (decision cfg s i f).2.forceKey || periodicKey cfg s i) ||
    s.nextDownscale cfg i.toIteration f != s.downscaleTo

/-- EVRTCK always gives a frame. -/
def output : Option Bool :=
  if i.wantEvrtck then some (wantIdr cfg s i f) else i.output

/-- The state when the picture goes to an encoder. -/
def prepared : EncodeLoop :=
  let next := s.nextDownscale cfg i.toIteration f
  { s with
    downscaleTo := next
    forceRecoveryKey := s.forceRecoveryKey || !i.evrtOn && next != s.downscaleTo
    lastVmSeq := i.vmFrameSeq.getD s.lastVmSeq
    changeDetector := (decision cfg s i f).1 }

/-- The state once there is a frame. Those of the video encoder are not kept. -/
def withFrame (isIdr : Bool) : EncodeLoop :=
  let (encW, encH, bgra) := s.scaled cfg i.toIteration f
  let prepared := prepared cfg s i f
  { prepared with
    encoder := if i.wantEvrtck then some (encW, encH) else s.encoder
    frameId := s.frameId + 1
    lastIdr := if isIdr then i.encodedAt else s.lastIdr
    changeDetector := prepared.changeDetector.markSent encW encH bgra i.encodedAt
    frames := if i.wantEvrtck then s.encoded cfg i.toIteration f :: s.frames else s.frames }

/-- Only EVRTCK minds that a frame is dropped. -/
def dispatch (isIdr : Bool) : EncodeLoop :=
  if i.evrtOn && i.evrtTrySend == .full && !i.wantEvrtck then s
  else s.dispatch i.toIteration isIdr

def encode : EncodeLoop :=
  match output cfg s i f with
  | none => prepared cfg s i f
  | some isIdr =>
      let (encW, encH, _) := s.scaled cfg i.toIteration f
      dispatch ((withFrame cfg s i f isIdr).withProfile cfg i.toIteration encW encH) i isIdr

def decide : EncodeLoop :=
  if skips cfg s i f then
    { s with
      lastVmSeq := i.vmFrameSeq.getD s.lastVmSeq
      changeDetector := (decision cfg s i f).1 }
  else encode cfg s i f

def decided : Decided where
  picture := EncodeLoop.processed cfg f
  sizeChanged := s.changeDetector.sizeChanged f.width f.height
  due := periodicKey cfg s i || s.vmSeqChanged i.toIteration ||
    s.changeDetector.idleRefresh i.decidedAt
  decision := (decision cfg s i f).2
  skipped := skips cfg s i f
  sent := !skips cfg s i f && (output cfg s i f).isSome

end Picture

variable (cfg : EncodeLoopConfig) (s : CodecLoop) (i : CodecIteration)

/-- The picture that the loop gets. -/
def frame : Option CapturedFrame :=
  s.loop.capture.slot <|> if i.isGameModeEnc then s.lastGameFrame else none

def nextGameFrame : Option CapturedFrame :=
  if i.isGameModeEnc then s.loop.capture.slot <|> s.lastGameFrame else s.lastGameFrame

/-- The state after the picture has been taken. -/
def taking : EncodeLoop := { s.loop.observe i.toIteration with capture := s.loop.capture.take.1 }

def iterate : CodecLoop :=
  if s.loop.stop then s
  else if !i.due then { s with loop := s.loop.observe i.toIteration }
  else
    let s' := { s with loop := s.taking i, lastGameFrame := s.nextGameFrame i }
    match s.frame i with
    | none => s'
    | some f =>
        if !EncodeLoop.validGeometry f then
          { s' with loop := { s.taking i with forceRecoveryKey := true } }
        else
          { s' with
            loop := decide cfg (s.taking i) i f
            history := decided cfg (s.taking i) i f :: s.history }

end CodecLoop

inductive CodecInput where
  | capture (result : CaptureResult)
  | iterate (i : CodecIteration)
  | stop

def codecLoop (cfg : EncodeLoopConfig) : Machine CodecLoop CodecInput Unit where
  step s
    | .capture result =>
        ({ s with loop := { s.loop with capture := s.loop.capture.capture result } }, ())
    | .iterate i => (s.iterate cfg i, ())
    | .stop => ({ s with loop := { s.loop with stop := true } }, ())

namespace CodecLoop

variable {cfg : EncodeLoopConfig}

/-! While EVRTCK is wanted this is the loop of EVRTCK. -/

theorem periodicKey_evrtck {i : CodecIteration} (h : i.wantEvrtck = true) (s : EncodeLoop) :
    periodicKey cfg s i = s.periodicKey cfg i.toIteration := by
  simp [periodicKey, currentIdrMin, h, EncodeLoop.periodicKey, EncodeLoop.recoveryDue,
    EncodeLoop.periodicDue]

theorem decide_evrtck {i : CodecIteration} (h : i.wantEvrtck = true) (s : EncodeLoop)
    (f : CapturedFrame) :
    decide cfg s i f =
      if s.skips cfg i.toIteration f then
        { s with
          lastVmSeq := i.vmFrameSeq.getD s.lastVmSeq
          changeDetector := (s.decision cfg i.toIteration f).1 }
      else s.encode cfg i.toIteration f := by
  have hdecision : decision cfg s i f = s.decision cfg i.toIteration f := by
    rw [decision, periodicKey_evrtck h]
    rfl
  have hskips : skips cfg s i f = s.skips cfg i.toIteration f := by
    rw [skips, hdecision]
    rfl
  have hidr : wantIdr cfg s i f = s.wantIdr cfg i.toIteration f := by
    rw [wantIdr, hdecision, periodicKey_evrtck h]
    rfl
  have hframe : withFrame cfg s i f (s.wantIdr cfg i.toIteration f) =
      s.withEncoded cfg i.toIteration f := by
    simp [withFrame, prepared, hdecision, h, EncodeLoop.withEncoded]
  rw [decide, hskips, hdecision]
  simp [encode, output, h, hidr, hframe, dispatch, EncodeLoop.encode]

theorem iterate_evrtck {i : CodecIteration} (hwant : i.wantEvrtck = true)
    (hstill : i.stillEvrtck = true) (s : CodecLoop) :
    (s.iterate cfg i).loop = s.loop.iterate cfg i.toIteration := by
  unfold iterate EncodeLoop.iterate
  have hframe : s.frame i = s.loop.capture.slot := by
    simp [frame, CodecIteration.isGameModeEnc, hstill]
  cases hstop : s.loop.stop with
  | true => simp
  | false =>
      cases hdue : i.due with
      | false => simp
      | true =>
          rw [hframe]
          cases hslot : s.loop.capture.slot with
          | none => simp [EncodeLoop.observe, Capture.take, hslot, taking]
          | some f =>
              cases hvalid : EncodeLoop.validGeometry f with
              | false => simp [EncodeLoop.observe, Capture.take, hslot, taking, hvalid]
              | true => simp [EncodeLoop.observe, Capture.take, hslot, taking, hvalid,
                  decide_evrtck hwant]

/-! Static skip. -/

/-- Only the first decision reports a change of the size, and a picture that is the one
sent last is skipped if nothing else is due. -/
def SkipsStatic (cfg : EncodeLoopConfig) (history : List Decided) : Prop :=
  ∀ newer d older, history = newer ++ d :: older →
    (older ≠ [] → d.sizeChanged = false) ∧
      ∀ last, older.find? (·.sent) = some last → last.picture = d.picture → d.due = false →
        d.decision = { send := false, forceKey := false } ∧ d.skipped = cfg.allowStaticSkip

/-- The picture is to be encoded for another reason than its size. -/
def wanted (cfg : EncodeLoopConfig) (s : EncodeLoop) (i : CodecIteration)
    (f : CapturedFrame) : Bool :=
  !cfg.allowStaticSkip || periodicKey cfg s i || s.vmSeqChanged i.toIteration ||
    s.changeDetector.idleRefresh i.decidedAt ||
      s.changeDetector.frameChanged
        (FrameFingerprint.build f.width f.height (EncodeLoop.processed cfg f))

/-- Pictures that become a frame are not scaled down and are not taken for no picture at
all, and the first one becomes a frame. -/
def Unscaled (cfg : EncodeLoopConfig) (s : CodecLoop) : CodecInput → Prop
  | .iterate i => s.loop.stop = false → i.due = true →
      ∀ f, s.frame i = some f → EncodeLoop.validGeometry f = true →
        wanted cfg (s.taking i) i f = true →
          if i.wantEvrtck || i.output.isSome then
            (s.taking i).nextDownscale cfg i.toIteration f = none ∧
              frameSignature (EncodeLoop.processed cfg f) f.width.toNat f.height.toNat ≠ 0
          else s.history ≠ []
  | _ => True

def OfSize (width height : UInt32) : CodecInput → Prop
  | .capture (.frame w h _ _) => w = width ∧ h = height
  | .capture (.noChange w h) => w = width ∧ h = height
  | _ => True

end CodecLoop

/-! What the detector knows. -/

namespace FrameChangeDetector

/-- The picture is the one sent last. -/
structure Knows (d : FrameChangeDetector) (width height : UInt32) (bgra : List UInt8) :
    Prop where
  width_eq : d.width = width
  height_eq : d.height = height
  hash : d.lastHash = (FrameFingerprint.build width height bgra).hash
  tileCols : d.lastTileCols = (FrameFingerprint.build width height bgra).tileCols
  tileRows : d.lastTileRows = (FrameFingerprint.build width height bgra).tileRows
  tileHashes : d.lastTileHashes = (FrameFingerprint.build width height bgra).tileHashes

variable {d : FrameChangeDetector} {width height : UInt32} {bgra : List UInt8}

theorem build_hash (width height : UInt32) (bgra : List UInt8) :
    (FrameFingerprint.build width height bgra).hash =
      frameSignature bgra width.toNat height.toNat := by
  unfold FrameFingerprint.build
  dsimp only
  split <;> rfl

theorem build_dimensions (width height : UInt32) (bgra : List UInt8) :
    (FrameFingerprint.build width height bgra).width = width ∧
      (FrameFingerprint.build width height bgra).height = height := by
  unfold FrameFingerprint.build
  dsimp only
  split <;> exact ⟨rfl, rfl⟩

theorem Knows.sizeChanged (h : d.Knows width height bgra) : d.sizeChanged width height = false := by
  simp [FrameChangeDetector.sizeChanged, h.width_eq, h.height_eq]

theorem Knows.frameChanged (h : d.Knows width height bgra)
    (hsignature : frameSignature bgra width.toNat height.toNat ≠ 0) :
    d.frameChanged (FrameFingerprint.build width height bgra) = false := by
  rw [← build_hash] at hsignature
  simp [FrameChangeDetector.frameChanged, h.hash, h.tileCols, h.tileRows, h.tileHashes, hsignature]

/-- A decision leaves alone what is known. -/
theorem Knows.decide (h : d.Knows width height bgra) (w h' : UInt32) (other : List UInt8)
    (key : Bool) (now : Nat) : (d.decide w h' other key now).1.Knows width height bgra :=
  ⟨h.width_eq, h.height_eq, h.hash, h.tileCols, h.tileRows, h.tileHashes⟩

theorem markSent_knows (d : FrameChangeDetector) (width height : UInt32) (bgra : List UInt8)
    (key : Bool) (now sentAt : Nat) :
    ((d.decide width height bgra key now).1.markSent width height bgra sentAt).Knows
      width height bgra := by
  obtain ⟨hwidth, hheight⟩ := build_dimensions width height bgra
  have hpending : ((some (FrameFingerprint.build width height bgra)).filter
      fun fp => fp.width = width ∧ fp.height = height) =
        some (FrameFingerprint.build width height bgra) := by
    simp [hwidth, hheight]
  constructor
  · rfl
  · rfl
  all_goals
    simp only [FrameChangeDetector.decide, markSent, hpending, Option.getD_some]

end FrameChangeDetector

namespace CodecLoop

variable {cfg : EncodeLoopConfig} {s : EncodeLoop} {i : CodecIteration} {f : CapturedFrame}

theorem dispatch_rest (s : EncodeLoop) (i : CodecIteration) (isIdr : Bool) :
    (dispatch s i isIdr).capture = s.capture ∧
      (dispatch s i isIdr).changeDetector = s.changeDetector := by
  unfold dispatch
  split
  · exact ⟨rfl, rfl⟩
  · obtain ⟨force, dirty, spins, stop, hdispatch⟩ := EncodeLoop.dispatch_rest s i.toIteration isIdr
    rw [hdispatch]
    exact ⟨rfl, rfl⟩

/-- What a decision changes of the slot and the detector. -/
theorem decide_rest (cfg : EncodeLoopConfig) (s : EncodeLoop) (i : CodecIteration)
    (f : CapturedFrame) :
    (decide cfg s i f).capture = s.capture ∧
      (decide cfg s i f).changeDetector =
        if (decided cfg s i f).sent then
          (decision cfg s i f).1.markSent (s.scaled cfg i.toIteration f).1
            (s.scaled cfg i.toIteration f).2.1 (s.scaled cfg i.toIteration f).2.2 i.encodedAt
        else (decision cfg s i f).1 := by
  unfold decide encode
  cases hskips : skips cfg s i f with
  | true => simp [decided, hskips]
  | false =>
      cases houtput : output cfg s i f with
      | none => simp [decided, hskips, houtput, prepared]
      | some isIdr =>
          obtain ⟨active, downscale, force, hprofile⟩ := EncodeLoop.withProfile_rest cfg
            (withFrame cfg s i f isIdr) i.toIteration (s.scaled cfg i.toIteration f).1
            (s.scaled cfg i.toIteration f).2.1
          obtain ⟨hcapture, hdetector⟩ := dispatch_rest
            ((withFrame cfg s i f isIdr).withProfile cfg i.toIteration
              (s.scaled cfg i.toIteration f).1 (s.scaled cfg i.toIteration f).2.1) i isIdr
          rw [hprofile] at hcapture hdetector
          have hsent : (decided cfg s i f).sent = true := by simp [decided, hskips, houtput]
          rw [if_pos hsent]
          simp only [Bool.false_eq_true, if_false, hprofile]
          exact ⟨hcapture, hdetector⟩

theorem decision_steady (cfg : EncodeLoopConfig) (i : CodecIteration) {width height : UInt32}
    {last : List UInt8}
    (hknows : s.changeDetector.Knows width height last) (hwidth : f.width = width)
    (hheight : f.height = height) :
    (decided cfg s i f).sizeChanged = false ∧
      (frameSignature last width.toNat height.toNat ≠ 0 →
        last = (decided cfg s i f).picture → (decided cfg s i f).due = false →
          (decided cfg s i f).decision = { send := false, forceKey := false } ∧
            (decided cfg s i f).skipped = cfg.allowStaticSkip) := by
  subst hwidth hheight
  have hsize := hknows.sizeChanged
  refine ⟨hsize, fun hsignature hsame hdue => ?_⟩
  have hpicture : last = EncodeLoop.processed cfg f := hsame
  subst hpicture
  have hunchanged := hknows.frameChanged hsignature
  simp only [decided, Bool.or_eq_false_iff] at hdue
  obtain ⟨⟨hperiodic, hvm⟩, hidle⟩ := hdue
  have hdecision : (decision cfg s i f).2 = { send := false, forceKey := false } := by
    simp [decision, FrameChangeDetector.decide, hsize, hunchanged, hperiodic, hvm, hidle]
  exact ⟨hdecision, by simp [decided, skips, hdecision, hvm]⟩

/-- A picture that is not encoded for another reason is not encoded for its size. -/
theorem sent_wanted {width height : UInt32} {last : List UInt8}
    (hknows : s.changeDetector.Knows width height last) (hwidth : f.width = width)
    (hheight : f.height = height) (hsent : (decided cfg s i f).sent = true) :
    wanted cfg s i f = true := by
  subst hwidth hheight
  have hsize := hknows.sizeChanged
  simp only [decided, skips, Bool.and_eq_true] at hsent
  simp only [decision, FrameChangeDetector.decide, hsize] at hsent
  by_contra hunwanted
  simp only [wanted, Bool.not_eq_true, Bool.or_eq_false_iff] at hunwanted
  obtain ⟨⟨⟨⟨hallow, hperiodic⟩, hvm⟩, hidle⟩, hsame⟩ := hunwanted
  rw [Bool.not_eq_false'] at hallow
  simp [hallow, hperiodic, hvm, hidle, hsame] at hsent

/-- A picture that becomes a frame is the one that the detector knows afterwards. -/
theorem sent_knows {width height : UInt32} (hwidth : f.width = width)
    (hheight : f.height = height) (hsent : (decided cfg s i f).sent = true)
    (hunscaled : s.nextDownscale cfg i.toIteration f = none) :
    (decide cfg s i f).changeDetector.Knows width height (decided cfg s i f).picture := by
  subst hwidth hheight
  rw [(decide_rest cfg s i f).2, if_pos hsent, EncodeLoop.scaled, hunscaled]
  exact FrameChangeDetector.markSent_knows _ _ _ _ _ _ _

/-- A detector that has seen nothing wants every picture, and sends it. -/
theorem new_wants (hnew : s.changeDetector = .new) :
    wanted cfg s i f = true ∧
      ((output cfg s i f).isSome = true → (decided cfg s i f).sent = true) := by
  have hidle : s.changeDetector.idleRefresh i.decidedAt = true := by
    rw [hnew]
    rfl
  have hsend : (decision cfg s i f).2.send = true := by
    simp [decision, FrameChangeDetector.decide, hidle]
  exact ⟨by simp [wanted, hidle], fun houtput => by simp [decided, skips, hsend, houtput]⟩

/-- All pictures are of one size, and the detector knows the one sent last. -/
structure Steady (cfg : EncodeLoopConfig) (width height : UInt32) (s : CodecLoop) :
    Prop where
  history : SkipsStatic cfg s.history
  slot : ∀ f, s.loop.capture.slot = some f → f.width = width ∧ f.height = height
  game : ∀ f, s.lastGameFrame = some f → f.width = width ∧ f.height = height
  detector : s.history ≠ [] → ∃ last, s.history.find? (·.sent) = some last ∧
    s.loop.changeDetector.Knows width height last.picture ∧
      frameSignature last.picture width.toNat height.toNat ≠ 0
  fresh : s.history = [] → s.loop.changeDetector = .new

theorem SkipsStatic.cons {history : List Decided} (h : SkipsStatic cfg history) {d : Decided}
    (hsize : history ≠ [] → d.sizeChanged = false)
    (hstatic : ∀ last, history.find? (·.sent) = some last → last.picture = d.picture →
      d.due = false →
        d.decision = { send := false, forceKey := false } ∧ d.skipped = cfg.allowStaticSkip) :
    SkipsStatic cfg (d :: history) := by
  intro newer this older hsplit
  cases newer with
  | nil =>
      cases hsplit
      exact ⟨hsize, hstatic⟩
  | cons first newer =>
      rw [List.cons_append, List.cons.injEq] at hsplit
      exact h newer this older hsplit.2

section Steps

variable {width height : UInt32} {s : CodecLoop}

theorem start_steady (now : Nat) : Steady cfg width height (start now) where
  history := by
    intro newer d older hsplit
    cases newer <;> cases hsplit
  slot := by simp [start, EncodeLoop.start, Capture.start]
  game := by simp [start]
  detector h := absurd rfl h
  fresh _ := rfl

variable (h : Steady cfg width height s)

include h

theorem capture_steady {result : CaptureResult}
    (hsize : OfSize width height (.capture result)) :
    Steady cfg width height
      { s with loop := { s.loop with capture := s.loop.capture.capture result } } where
  history := h.history
  slot := by
    intro f hslot
    change (s.loop.capture.capture result).slot = some f at hslot
    cases result with
    | frame w h' bgra frameMeta =>
        rw [Capture.capture, publish_slot] at hslot
        cases hslot
        exact hsize
    | noChange w h' =>
        simp only [Capture.capture] at hslot
        split at hslot
        · rw [publish_slot] at hslot
          cases hslot
          exact hsize
        · exact h.slot f hslot
  game := h.game
  detector := h.detector
  fresh := h.fresh

/-- The loop decides about a picture of the size. -/
theorem decide_steady {i : CodecIteration} {f : CapturedFrame}
    (hwidth : f.width = width) (hheight : f.height = height)
    (hcondition : wanted cfg (s.taking i) i f = true →
      if i.wantEvrtck || i.output.isSome then
        (s.taking i).nextDownscale cfg i.toIteration f = none ∧
          frameSignature (EncodeLoop.processed cfg f) f.width.toNat f.height.toNat ≠ 0
      else s.history ≠ [])
    {game : Option CapturedFrame}
    (hgame : ∀ f, game = some f → f.width = width ∧ f.height = height) :
    Steady cfg width height
      { loop := decide cfg (s.taking i) i f
        lastGameFrame := game
        history := decided cfg (s.taking i) i f :: s.history } := by
  obtain ⟨hcapture, hdetector⟩ := decide_rest cfg (s.taking i) i f
  have hempty : (s.taking i).capture.slot = none := rfl
  have hgives : (i.wantEvrtck || i.output.isSome) = (output cfg (s.taking i) i f).isSome := by
    cases hwant : i.wantEvrtck <;> simp [output, hwant]
  have hmarked : (decided cfg (s.taking i) i f).sent = true →
      wanted cfg (s.taking i) i f = true →
        (decide cfg (s.taking i) i f).changeDetector.Knows width height
            (decided cfg (s.taking i) i f).picture ∧
          frameSignature (decided cfg (s.taking i) i f).picture width.toNat height.toNat ≠ 0 := by
    intro hsent hwanted
    have houtput : (output cfg (s.taking i) i f).isSome = true := by
      simp only [decided, Bool.and_eq_true] at hsent
      exact hsent.2
    have hframe := hcondition hwanted
    rw [hgives, if_pos houtput] at hframe
    obtain ⟨hunscaled, hsignature⟩ := hframe
    refine ⟨sent_knows hwidth hheight hsent hunscaled, ?_⟩
    subst hwidth hheight
    exact hsignature
  by_cases hfirst : s.history = []
  · have hnew : (s.taking i).changeDetector = .new := h.fresh hfirst
    obtain ⟨hwanted, hsends⟩ := @new_wants cfg _ i f hnew
    have houtput : (output cfg (s.taking i) i f).isSome = true := by
      by_contra hnone
      have hframe := hcondition hwanted
      rw [hgives, if_neg hnone] at hframe
      exact hframe hfirst
    have hsent := hsends houtput
    obtain ⟨hknows, hsignature⟩ := hmarked hsent hwanted
    constructor
    · apply SkipsStatic.cons h.history
      · exact fun hsome => absurd hfirst hsome
      · intro last hlast
        simp [hfirst] at hlast
    · simp [hcapture, hempty]
    · exact hgame
    · exact fun _ => ⟨_, List.find?_cons_of_pos hsent, hknows, hsignature⟩
    · exact fun hnil => absurd hnil (List.cons_ne_nil _ _)
  · obtain ⟨last, hlast, hknows, hsignature⟩ := h.detector hfirst
    have hknows : (s.taking i).changeDetector.Knows width height last.picture := hknows
    obtain ⟨hsize, hstatic⟩ := decision_steady cfg i hknows hwidth hheight
    constructor
    · apply SkipsStatic.cons h.history
      · exact fun _ => hsize
      · intro other hother
        rw [hlast, Option.some.injEq] at hother
        subst hother
        exact hstatic hsignature
    · simp [hcapture, hempty]
    · exact hgame
    · intro _
      cases hsent : (decided cfg (s.taking i) i f).sent with
      | true =>
          obtain ⟨hnext, hsignature⟩ := hmarked hsent (sent_wanted hknows hwidth hheight hsent)
          exact ⟨_, List.find?_cons_of_pos hsent, hnext, hsignature⟩
      | false =>
          refine ⟨last, ?_, ?_, hsignature⟩
          · rw [List.find?_cons_of_neg (by simp [hsent])]
            exact hlast
          · rw [hdetector, hsent]
            exact hknows.decide _ _ _ _ _
    · exact fun hnil => absurd hnil (List.cons_ne_nil _ _)

theorem frame_size {i : CodecIteration} {f : CapturedFrame}
    (hframe : s.frame i = some f) : f.width = width ∧ f.height = height := by
  unfold frame at hframe
  cases hslot : s.loop.capture.slot with
  | some taken =>
      rw [hslot] at hframe
      cases hframe
      exact h.slot f hslot
  | none =>
      rw [hslot] at hframe
      split at hframe
      · exact h.game f hframe
      · cases hframe

theorem nextGameFrame_size (i : CodecIteration)
    (f : CapturedFrame) (hframe : s.nextGameFrame i = some f) :
    f.width = width ∧ f.height = height := by
  unfold nextGameFrame at hframe
  split at hframe
  next hgame =>
    apply frame_size h (i := i)
    rw [frame, if_pos hgame]
    exact hframe
  · exact h.game f hframe

theorem iterate_steady {i : CodecIteration}
    (hcondition : Unscaled cfg s (.iterate i)) : Steady cfg width height (s.iterate cfg i) := by
  unfold iterate
  cases hstop : s.loop.stop with
  | true => exact h
  | false =>
      cases hdue : i.due with
      | false => exact ⟨h.history, h.slot, h.game, h.detector, h.fresh⟩
      | true =>
          simp only [Bool.false_eq_true, if_false, Bool.not_true]
          cases hframe : s.frame i with
          | none =>
              exact ⟨h.history, by simp [taking, Capture.take], nextGameFrame_size h i,
                h.detector, h.fresh⟩
          | some f =>
              cases hvalid : EncodeLoop.validGeometry f with
              | false =>
                  simp only [hvalid, Bool.not_false, if_true]
                  exact ⟨h.history, by simp [taking, Capture.take], nextGameFrame_size h i,
                    h.detector, h.fresh⟩
              | true =>
                  obtain ⟨hwidth, hheight⟩ := frame_size h hframe
                  simp only [hvalid, Bool.not_true, Bool.false_eq_true, if_false]
                  exact decide_steady h hwidth hheight (hcondition hstop hdue f hframe hvalid)
                    (nextGameFrame_size h i)

theorem step_steady {input : CodecInput}
    (hsize : OfSize width height input) (hcondition : Unscaled cfg s input) :
    Steady cfg width height ((codecLoop cfg).step s input).1 := by
  cases input with
  | capture result => exact capture_steady h hsize
  | iterate i => exact iterate_steady h hcondition
  | stop => exact ⟨h.history, h.slot, h.game, h.detector, h.fresh⟩

end Steps

/-- As long as no picture is scaled down, only the first one of a constant size is taken for
one of another size. -/
theorem static_skip {width height : UInt32} {now : Nat} {inputs : List CodecInput}
    (hsize : ∀ input ∈ inputs, OfSize width height input)
    (hunscaled : (codecLoop cfg).Along (Unscaled cfg) (start now) inputs) :
    SkipsStatic cfg ((codecLoop cfg).run (start now) inputs).history := by
  have hsteps := (codecLoop cfg).along_and
    ((codecLoop cfg).along_of_inputs hsize (start now)) hunscaled
  have hsteady : Steady cfg width height ((codecLoop cfg).run (start now) inputs) :=
    (codecLoop cfg).invariant (I := Steady cfg width height)
      (fun _ _ h hstep => step_steady h hstep.1 hstep.2) (start_steady now) hsteps
  exact hsteady.history

/-- An EVRT session whose client has told a largest resolution. -/
def evrtIteration (now : Nat) (clientMaxRes : UInt64) : CodecIteration where
  toIteration :=
    { relayIteration now .ok with
      evrtOn := true
      evrtTrySend := .ok
      clientMaxRes := clientMaxRes }
  wantEvrtck := true
  stillEvrtck := true
  output := none

def grayPicture : CodecInput := .capture (.frame 4 4 (List.replicate 64 128) .default)

/-- The same picture twice, half a second apart. -/
def grayTwice (clientMaxRes : UInt64) : List CodecInput :=
  [grayPicture, .iterate (evrtIteration 0 clientMaxRes), grayPicture,
    .iterate (evrtIteration 500000000 clientMaxRes)]

theorem static_skip_gray :
    SkipsStatic plainConfig ((codecLoop plainConfig).run (start 0) (grayTwice 0)).history ∧
      ((codecLoop plainConfig).run (start 0) (grayTwice 0)).history.map (·.skipped) =
        [true, false] := by
  refine ⟨?_, by decide +kernel⟩
  have hunscaled : (codecLoop plainConfig).Along (Unscaled plainConfig) (start 0)
      (grayTwice 0) := by
    refine ⟨trivial, ?_, trivial, ?_, trivial⟩
    · rintro - - f ⟨⟩ - -
      exact ⟨rfl, by decide +kernel⟩
    · rintro - - f ⟨⟩ - -
      exact ⟨rfl, by decide +kernel⟩
  have hsize : ∀ input ∈ grayTwice 0, OfSize 4 4 input := by
    simp [grayTwice, grayPicture, OfSize]
  exact static_skip hsize hunscaled

/-- Pictures are scaled down to half of their size. -/
def halvingConfig : EncodeLoopConfig :=
  { plainConfig with scaleEvenToFit := fun width height _ _ => (width / 2, height / 2) }

/-- The client takes two pixels by two. The second picture is taken for one of another size
and is sent again. -/
theorem scaled_picture_is_sent_again :
    (∀ input ∈ grayTwice 0x200000002, OfSize 4 4 input) ∧
      ¬ SkipsStatic halvingConfig
        ((codecLoop halvingConfig).run (start 0) (grayTwice 0x200000002)).history := by
  refine ⟨by simp [grayTwice, grayPicture, OfSize], fun h => ?_⟩
  have hhistory : ((codecLoop halvingConfig).run (start 0) (grayTwice 0x200000002)).history =
      [⟨List.replicate 64 128, true, false, ⟨true, true⟩, false, true⟩,
        ⟨List.replicate 64 128, true, true, ⟨true, true⟩, false, true⟩] := by
    decide +kernel
  have hsecond := (h [] _ _ hhistory).1 (List.cons_ne_nil _ _)
  cases hsecond

end CodecLoop

end EvertyDesk.Host
