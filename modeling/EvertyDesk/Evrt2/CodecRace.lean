import EvertyDesk.Evrtck.Lockstep
import EvertyDesk.Evrtck.Overlay

/-!
The encode loop of the EVRT2 host. EVRTCK and a silicon encoder race for every frame, and
the silicon encoder is trusted for a while after enough wins. The EVRTCK encoder predicts
from the frame that it encoded last, whether it was sent or not, while the client's decoder
goes on from the last picture that it showed, which may be a lossy one.
-/

namespace EvertyDesk.Evrt2

open Evrtck

/-- A frame of the capture, in the size that is encoded. -/
structure Captured where
  width : UInt32
  height : UInt32
  bgra : List UInt8
  size : bgra.length = width.toNat * height.toNat * 4

/-- What NVENC makes of a frame, or Media Foundation. -/
structure NvencPacket where
  bytes : List UInt8
  key : Bool
  fits : bytes.length < Checked.sizeLimit

/-! The container of a silicon frame with an overlay. -/

def spliceMagic : List UInt8 := [0x53, 0x50, 0x4C, 0x32]

/-- The payload, and where the overlay is in it. -/
def buildSplicedPayload (background overlay : List UInt8) : Checked (List UInt8 × (Nat × Nat)) := do
  Checked.allocate (4 + 4 + background.length + 4 + overlay.length)
  let head := spliceMagic ++ (beBytes 4 background.length ++ (background ++
    beBytes 4 overlay.length))
  return (head ++ overlay, (head.length, head.length + overlay.length))

/-- The background and the overlay; everything else is a plain bitstream. -/
def parseSplicedPayload (data : List UInt8) : Option (List UInt8 × List UInt8) :=
  if data.length < 8 ∨ data.take 4 ≠ spliceMagic then none
  else
    let bgLen := beNat (field data 4 4)
    let bgEnd := 8 + bgLen
    if data.length < bgEnd + 4 then none
    else
      let ovLen := beNat (field data bgEnd 4)
      let ovStart := bgEnd + 4
      if data.length < ovStart + ovLen then none
      else some (field data 8 bgLen, field data ovStart ovLen)

/-! The host. -/

def keyframeIntervalFrames : Nat := 120
def nvencTrustThreshold : Nat := 10
def nvencTrustRenewalThreshold : Nat := 2
def nvencTrustWindow : Nat := 600

inductive SiliconEncoder where
  | nvenc
  | mediaFoundation
deriving DecidableEq, Repr

/-- How the silicon encoder answers: a worker that does not answer in time has failed. -/
inductive EncodeReply where
  | encoded (packet : NvencPacket)
  | buffering
  | failed

/-- What an iteration of the loop finds and measures. -/
structure Iteration where
  captured : Captured
  /-- The tiles of the visible region, the most important one first. -/
  region : List UInt16
  keyframeOverdue : Bool
  clientRequestedKeyframe : Bool
  /-- The encoder that is opened if there is none and it is time to try. -/
  opened : Option SiliconEncoder
  reply : EncodeReply
  nvencFirst : Bool
  /-- The scheduler finds the silicon encoder cheaper. -/
  scheduled : Bool

structure VideoFrame where
  payload : List UInt8
  frameId : UInt32
  isKeyframe : Bool
  isSilicon : Bool
  isH265 : Bool
  visibleRanges : List (Nat × Nat)
deriving DecidableEq, Repr

structure SentFrame where
  frame : VideoFrame
  /-- Ghost: what was encoded. -/
  captured : Captured

structure EncodeLoop where
  encoder : Option EvrtckEncoder
  frameId : UInt32
  framesSinceKeyframe : Nat
  nvenc : Bool
  mfEncoder : Bool
  trustNvencFramesLeft : Nat
  consecutiveNvencWins : Nat
  nvencTrustEstablished : Bool
  /-- Ghost: the last frame that was sent is a silicon frame. -/
  siliconLast : Bool
deriving DecidableEq, Repr

namespace EncodeLoop

def start : EncodeLoop where
  encoder := none
  frameId := 0
  framesSinceKeyframe := 0
  nvenc := false
  mfEncoder := false
  trustNvencFramesLeft := 0
  consecutiveNvencWins := 0
  nvencTrustEstablished := false
  siliconLast := false

/-- A new session of the silicon encoder has yet to earn its trust. -/
def distrust (s : EncodeLoop) : EncodeLoop :=
  { s with
    trustNvencFramesLeft := 0
    consecutiveNvencWins := 0
    nvencTrustEstablished := false }

/-- For another resolution there are other encoders. -/
def encoderFor (s : EncodeLoop) (width height : Nat) : EvrtckEncoder × EncodeLoop :=
  let fresh := (EvrtckEncoder.new width height).requestKeyframe
  match s.encoder with
  | some e =>
      if e.width = width ∧ e.height = height then (e, s)
      else (fresh, { s.distrust with nvenc := false, mfEncoder := false })
  | none => (fresh, { s.distrust with nvenc := false, mfEncoder := false })

/-- Tiles near the most important one are encoded first. -/
def steer (e : EvrtckEncoder) (region : List UInt16) : EvrtckEncoder :=
  match region.head? with
  | some topTile =>
      let tilesX := tilesInDim e.width
      e.setFocusPixel (UInt32.ofNat (topTile.toNat % tilesX * Evrtck.tileSize))
        (UInt32.ofNat (topTile.toNat / tilesX * Evrtck.tileSize))
  | none => e

def isKeyframe (s : EncodeLoop) (i : Iteration) : Bool :=
  s.frameId == 0 || decide (s.framesSinceKeyframe ≥ keyframeIntervalFrames) ||
    i.keyframeOverdue || i.clientRequestedKeyframe

def openSilicon (s : EncodeLoop) (opened : Option SiliconEncoder) : EncodeLoop :=
  if s.nvenc || s.mfEncoder then s
  else
    match opened with
    | some .nvenc => { s with nvenc := true }
    | some .mediaFoundation => { s with mfEncoder := true }
    | none => s

/-- The encoder before it encodes, and the loop with a silicon encoder if one was opened. -/
def prepare (s : EncodeLoop) (i : Iteration) : EvrtckEncoder × EncodeLoop :=
  let due := s.isKeyframe i
  let (e, s) := s.encoderFor i.captured.width.toNat i.captured.height.toNat
  let e := steer e i.region
  let s := { s with framesSinceKeyframe := if due then 0 else s.framesSinceKeyframe + 1 }
  (if due then e.requestKeyframe else e, s.openSilicon i.opened)

section Racing

variable (wantH265 : Bool)

def forcedForH265 (s : EncodeLoop) : Bool := wantH265 && (s.nvenc || s.mfEncoder)

def skipsEvrtckRace (s : EncodeLoop) : Bool :=
  s.forcedForH265 wantH265 || decide (s.trustNvencFramesLeft > 0) && s.nvenc

/-- The packet of the silicon encoder; one that fails is dropped. -/
def receiveReply (s : EncodeLoop) (reply : EncodeReply) : EncodeLoop × Option NvencPacket :=
  if s.nvenc || s.mfEncoder then
    match reply with
    | .encoded packet => (s, some packet)
    | .buffering => (s, none)
    | .failed =>
        (if s.nvenc then { s.distrust with nvenc := false }
          else { s.distrust with mfEncoder := false }, none)
  else (s, none)

/-- One frame less of trust. Without overflow checks the counter wraps. -/
def countDown (overflowChecks : Bool) (left : Nat) : Checked Nat :=
  if left = 0 then (if overflowChecks then .error .overflow else .ok (2 ^ 32 - 1))
  else .ok (left - 1)

/-- A frame that the silicon encoder was trusted with. When the trust runs out, EVRTCK is to
go on with a key frame. -/
def spendTrust (forced overflowChecks : Bool) (s : EncodeLoop) (e : EvrtckEncoder) :
    Checked (EvrtckEncoder × EncodeLoop) := do
  if forced then return (e, s)
  else
    let left ← countDown overflowChecks s.trustNvencFramesLeft
    return (if left = 0 then e.requestKeyframe else e, { s with trustNvencFramesLeft := left })

/-- A race that both have finished. -/
def scoreRace (s : EncodeLoop) (nvencWon : Bool) : EncodeLoop :=
  let wins := if nvencWon then s.consecutiveNvencWins + 1 else 0
  let required :=
    if s.nvencTrustEstablished then nvencTrustRenewalThreshold else nvencTrustThreshold
  if wins ≥ required then
    { s with
      consecutiveNvencWins := 0
      trustNvencFramesLeft := nvencTrustWindow
      nvencTrustEstablished := true }
  else { s with consecutiveNvencWins := wins }

variable (zstd : Zstd)

/-- A silicon frame, with an overlay of the visible region if there is one. -/
def siliconFrame (frameId : UInt32) (captured : Captured) (region : List UInt16)
    (packet : NvencPacket) : Checked VideoFrame := do
  if region.isEmpty then
    return ⟨packet.bytes, frameId, packet.key, true, wantH265, []⟩
  else
    let overlay := encodeTileSubsetAbsolute zstd captured.bgra captured.width.toNat
      captured.height.toNat frameId region
    let (spliced, overlayRange) ← buildSplicedPayload packet.bytes overlay
    return ⟨spliced, frameId, packet.key, true, wantH265, [overlayRange]⟩

def evrtckFrame (frameId : UInt32) (isKeyframe : Bool) (region : List UInt16)
    (data : List UInt8) (offsets : List TileOffset) : VideoFrame where
  payload := data
  frameId := frameId
  isKeyframe := isKeyframe
  isSilicon := false
  isH265 := false
  visibleRanges :=
    (offsets.filter fun offset => region.contains offset.tileIdx).map fun offset =>
      (offset.byteStart, offset.byteStart + offset.byteLen)

/-- An iteration in which only the silicon encoder works. -/
def trusting (overflowChecks : Bool) (s : EncodeLoop) (e : EvrtckEncoder) (i : Iteration) :
    Checked (EncodeLoop × Option SentFrame) := do
  let forced := s.forcedForH265 wantH265
  let (s, packet) := s.receiveReply i.reply
  let s := { s with frameId := s.frameId + 1 }
  let (e, s) ← s.spendTrust forced overflowChecks e
  let s := { s with encoder := some e }
  match packet with
  | some packet => do
      let frame ← siliconFrame wantH265 zstd s.frameId i.captured i.region packet
      return ({ s with siliconLast := true }, some ⟨frame, i.captured⟩)
  | none => return (s, none)

/-- An iteration in which both encode the frame. -/
def racing (isKeyframe : Bool) (s : EncodeLoop) (e : EvrtckEncoder) (i : Iteration) :
    Checked (EncodeLoop × Option SentFrame) := do
  let (e, packet, _, offsets) :=
    e.encodeInnerImpl zstd i.captured.bgra s.frameId (!i.region.isEmpty)
  let (s, silicon) := s.receiveReply i.reply
  let s := { s with encoder := some e, frameId := s.frameId + 1 }
  match silicon with
  | some silicon => do
      -- Media Foundation encodes on this thread, after EVRTCK
      let s := s.scoreRace (s.nvenc && i.nvencFirst)
      if i.scheduled then do
        let frame ← siliconFrame wantH265 zstd s.frameId i.captured i.region silicon
        return ({ s with siliconLast := true }, some ⟨frame, i.captured⟩)
      else
        return ({ s with siliconLast := false },
          some ⟨evrtckFrame s.frameId isKeyframe i.region packet.data offsets, i.captured⟩)
  | none =>
      return ({ s with siliconLast := false },
        some ⟨evrtckFrame s.frameId isKeyframe i.region packet.data offsets, i.captured⟩)

/-- An iteration with a frame that is due. -/
def iterate (overflowChecks : Bool) (s : EncodeLoop) (i : Iteration) :
    Checked (EncodeLoop × Option SentFrame) :=
  let isKeyframe := s.isKeyframe i
  let (e, s) := s.prepare i
  if s.skipsEvrtckRace wantH265 then s.trusting wantH265 zstd overflowChecks e i
  else s.racing wantH265 zstd isKeyframe e i

end Racing

end EncodeLoop

/-- The host's thread, as long as it does not panic. -/
def runExperimentEncodeLoop (zstd : Zstd) (wantH265 overflowChecks : Bool) :
    Machine (Option EncodeLoop) Iteration (Option SentFrame) where
  step
    | some s, i =>
        match s.iterate wantH265 zstd overflowChecks i with
        | .ok (s, sent) => (some s, sent)
        | .error _ => (none, none)
    | none, _ => (none, none)

/-- The frames that are sent, in their order. -/
def sentFrames (zstd : Zstd) (wantH265 overflowChecks : Bool) (s : Option EncodeLoop)
    (iterations : List Iteration) : List SentFrame :=
  ((runExperimentEncodeLoop zstd wantH265 overflowChecks).outputs s iterations).filterMap id

/-! The client. -/

/-- A picture as the H.264 decoder hands it out. -/
structure DecodedPicture where
  width : Nat
  height : Nat
  rgba : List UInt8
  fits : rgba.length < Checked.sizeLimit

structure Shown where
  width : UInt32
  height : UInt32
  rgba : List UInt8
deriving DecidableEq, Repr

/-- A frame at the client. -/
structure Reception where
  sent : SentFrame
  /-- The picture, if the H.264 decoder has one for a silicon frame. -/
  decoded : Option DecodedPicture
  /-- The priorities of the last attention map. -/
  apfPriority : Option (Nat → Int)

/-- The picture that the H.264 decoder has, under the overlay. -/
def showSilicon (zstd : Zstd) (d : EvrtckDecoder) (payload : List UInt8)
    (picture : DecodedPicture) : Checked (EvrtckDecoder × Option Shown) := do
  let plain : Shown := ⟨UInt32.ofNat picture.width, UInt32.ofNat picture.height, picture.rgba⟩
  let d := d.syncFromRgba picture.rgba picture.width picture.height
  match parseSplicedPayload payload with
  | none => return (d, some plain)
  | some (_, overlay) => do
      let (d, outcome) ← d.applyAbsoluteOverlay zstd overlay
      match outcome with
      | .ok _ => return (d, some { plain with rgba := d.frame })
      | .error _ => return (d, some plain)

def showEvrtck (zstd : Zstd) (d : EvrtckDecoder) (payload : List UInt8)
    (apfPriority : Option (Nat → Int)) : Checked (EvrtckDecoder × Option Shown) := do
  let (d, outcome) ← d.decodeWirePrioritized zstd payload
    (apfPriority.map fun priority idx => some (priority idx))
  match outcome with
  | .ok (rgba, _) => return (d, some ⟨UInt32.ofNat d.width, UInt32.ofNat d.height, rgba⟩)
  | .error _ => return (d, none)

/-- The decoder after a frame, and what is shown. H.265 goes to the platform's decoder. -/
def receiveFrame (zstd : Zstd) (d : EvrtckDecoder) (r : Reception) :
    Checked (EvrtckDecoder × Option Shown) :=
  if r.sent.frame.isSilicon then
    if r.sent.frame.isH265 then .ok (d, none)
    else
      match r.decoded with
      | some picture => showSilicon zstd d r.sent.frame.payload picture
      | none => .ok (d, none)
  else showEvrtck zstd d r.sent.frame.payload r.apfPriority

/-- The client's thread, as long as it does not panic. -/
def runClientExperiment (zstd : Zstd) :
    Machine (Option EvrtckDecoder) Reception (Option Shown) where
  step
    | some d, r =>
        match receiveFrame zstd d r with
        | .ok (d, shown) => (some d, shown)
        | .error _ => (none, none)
    | none, _ => (none, none)

/-- An EVRTCK frame is shown as it was captured. -/
def ShowsCaptured (r : Reception) (shown : Option Shown) : Prop :=
  r.sent.frame.isSilicon = false →
    shown = some ⟨r.sent.captured.width, r.sent.captured.height, bgraToRgba r.sent.captured.bgra⟩

instance (r : Reception) (shown : Option Shown) : Decidable (ShowsCaptured r shown) :=
  inferInstanceAs (Decidable (_ → _))

/-! When the client can follow. -/

namespace EncodeLoop

/-- The iteration sends what EVRTCK made of the frame. -/
def sendsEvrtck (wantH265 : Bool) (s : EncodeLoop) (i : Iteration) : Bool :=
  !s.skipsEvrtckRace wantH265 && !((s.receiveReply i.reply).2.isSome && i.scheduled)

/-- The encoder for the frame has a key frame to send already. -/
def keyframePending (s : EncodeLoop) (i : Iteration) : Bool :=
  (s.encoderFor i.captured.width.toNat i.captured.height.toNat).1.pendingKeyframe

/-- An EVRTCK frame that follows a silicon frame is a key frame. -/
def KeyedAfterSilicon (wantH265 : Bool) (s : EncodeLoop) (i : Iteration) : Prop :=
  s.siliconLast = true → (s.prepare i).2.sendsEvrtck wantH265 i = true →
    (s.isKeyframe i || s.keyframePending i) = true

instance (wantH265 : Bool) (s : EncodeLoop) (i : Iteration) :
    Decidable (s.KeyedAfterSilicon wantH265 i) :=
  inferInstanceAs (Decidable (_ → _ → _))

end EncodeLoop

/-- The decoder's frame has the size of its dimensions, which is one that an object can
have. -/
structure Sized (d : EvrtckDecoder) : Prop where
  length : d.frame.length = d.width * d.height * 4
  small : d.frame.length < Checked.sizeLimit

section Client

variable {zstd : Zstd} {d : EvrtckDecoder}

theorem syncFromRgba_sized (hsized : Sized d) (picture : DecodedPicture) :
    Sized (d.syncFromRgba picture.rgba picture.width picture.height) := by
  unfold EvrtckDecoder.syncFromRgba
  split
  · exact hsized
  · next hsize => exact ⟨not_not.mp hsize, picture.fits⟩

theorem overlay_length_le {data background overlay : List UInt8}
    (h : parseSplicedPayload data = some (background, overlay)) :
    overlay.length ≤ data.length := by
  unfold parseSplicedPayload at h
  split at h
  · cases h
  · dsimp only at h
    split at h
    · cases h
    · split at h
      · cases h
      · cases h
        rw [field, List.length_take, List.length_drop]
        omega

/-- A silicon frame leaves the decoder with some picture. -/
theorem showSilicon_returns (zstd : Zstd) (hsized : Sized d) {payload : List UInt8}
    (hpayload : payload.length < Checked.sizeLimit) (picture : DecodedPicture) :
    ∃ d' shown, showSilicon zstd d payload picture = .ok (d', shown) ∧ Sized d' := by
  have hsynced := syncFromRgba_sized hsized picture
  unfold showSilicon
  dsimp only
  cases hparse : parseSplicedPayload payload with
  | none => exact ⟨_, _, rfl, hsynced⟩
  | some parts =>
      obtain ⟨background, overlay⟩ := parts
      have hoverlay := Nat.lt_of_le_of_lt (overlay_length_le hparse) hpayload
      obtain ⟨d', outcome, hrun, hwidth, hheight, hlength⟩ :=
        applyAbsoluteOverlay_returns zstd hoverlay hsynced.length hsynced.small
      have hsized' : Sized d' := by
        refine ⟨?_, hlength ▸ hsynced.small⟩
        rw [hlength, hwidth, hheight]
        exact hsynced.length
      dsimp only
      rw [Checked.bind_ok hrun]
      cases outcome with
      | ok applied => exact ⟨_, _, rfl, hsized'⟩
      | error error => exact ⟨_, _, rfl, hsized'⟩

theorem receiveFrame_silicon (zstd : Zstd) (hsized : Sized d) {r : Reception}
    (hsilicon : r.sent.frame.isSilicon = true)
    (hpayload : r.sent.frame.payload.length < Checked.sizeLimit) :
    ∃ d' shown, receiveFrame zstd d r = .ok (d', shown) ∧ Sized d' := by
  unfold receiveFrame
  rw [if_pos hsilicon]
  split
  · exact ⟨d, none, rfl, hsized⟩
  · cases r.decoded with
    | some picture => exact showSilicon_returns zstd hsized hpayload picture
    | none => exact ⟨d, none, rfl, hsized⟩

theorem numbered_map (apfPriority : Option (Nat → Int)) :
    Numbered (apfPriority.map fun priority idx => some (priority idx)) := by
  intro p hp idx
  cases apfPriority with
  | none => cases hp
  | some priority =>
      obtain rfl := Option.some.inj hp
      exact Option.some_ne_none _

theorem holding_sized {width height : Nat}
    (htiles : tilesInDim width * tilesInDim height ≤ 65536) {frame : List UInt8}
    (hframe : frame.length = width * height * 4) : Sized (holding width height frame) := by
  obtain ⟨hsame, hsmall⟩ := size_mod htiles
  have hlength : (bgraToRgba frame).length = width * height * 4 :=
    (bgraToRgba_length (by omega)).trans hframe
  exact ⟨hlength.trans hsame.symm, (hlength.trans hsame.symm).trans_lt hsmall⟩

theorem receiveFrame_evrtck {r : Reception} (hplain : r.sent.frame.isSilicon = false)
    {width height : UInt32} {frame : List UInt8}
    (hshows : ∀ {priority : Option (Nat → Priority)}, Numbered priority →
      ShowsBy zstd priority d r.sent.frame.payload width.toNat height.toNat frame) :
    receiveFrame zstd d r =
      .ok (holding width.toNat height.toNat frame, some ⟨width, height, bgraToRgba frame⟩) := by
  obtain ⟨order, hdecode⟩ := hshows (numbered_map r.apfPriority)
  have hwidth : UInt32.ofNat (width.toNat % 2 ^ 32) = width := by
    rw [Nat.mod_eq_of_lt width.toNat_lt, UInt32.ofNat_toNat]
  have hheight : UInt32.ofNat (height.toNat % 2 ^ 32) = height := by
    rw [Nat.mod_eq_of_lt height.toNat_lt, UInt32.ofNat_toNat]
  unfold receiveFrame showEvrtck
  rw [if_neg (by simp [hplain]), Checked.bind_ok hdecode]
  dsimp only [holding]
  rw [hwidth, hheight]
  rfl

end Client

namespace EncodeLoop

section Host

variable {zstd : Zstd} {wantH265 overflowChecks : Bool} {s s' : EncodeLoop} {i : Iteration}

/-- What EVRTCK makes of the frame of an iteration. -/
def encoded (zstd : Zstd) (s : EncodeLoop) (i : Iteration) :
    EvrtckEncoder × EvrtckPacket × FrameStats × List TileOffset :=
  (s.prepare i).1.encodeInnerImpl zstd i.captured.bgra (s.prepare i).2.frameId (!i.region.isEmpty)

theorem siliconFrame_ok {frameId : UInt32} {captured : Captured} {region : List UInt16}
    {packet : NvencPacket} {frame : VideoFrame}
    (h : siliconFrame wantH265 zstd frameId captured region packet = .ok frame) :
    frame.isSilicon = true ∧ frame.payload.length < Checked.sizeLimit := by
  unfold siliconFrame at h
  split at h
  · cases h
    exact ⟨rfl, packet.fits⟩
  · obtain ⟨⟨spliced, overlayRange⟩, hspliced, h⟩ := Checked.returns_of_bind h
    cases h
    refine ⟨rfl, ?_⟩
    unfold buildSplicedPayload at hspliced
    obtain ⟨_, hroom, hspliced⟩ := Checked.returns_of_bind hspliced
    cases hspliced
    unfold Checked.allocate at hroom
    split at hroom
    · next hfits =>
      simp only [List.length_append, beBytes_length, spliceMagic, List.length_cons, List.length_nil]
      omega
    · cases hroom

theorem spendTrust_ok {forced : Bool} {e e' : EvrtckEncoder}
    (h : spendTrust forced overflowChecks s e = .ok (e', s')) :
    (e' = e ∨ e' = e.requestKeyframe) ∧ s'.siliconLast = s.siliconLast := by
  unfold spendTrust at h
  split at h
  · cases h
    exact ⟨.inl rfl, rfl⟩
  · obtain ⟨left, _, h⟩ := Checked.returns_of_bind h
    cases h
    refine ⟨?_, rfl⟩
    split
    · exact .inr rfl
    · exact .inl rfl

theorem prepare_siliconLast : (s.prepare i).2.siliconLast = s.siliconLast := by
  have hencoder : ∀ width height, (s.encoderFor width height).2.siliconLast = s.siliconLast := by
    intro width height
    unfold encoderFor
    split
    · dsimp only
      split <;> rfl
    · rfl
  have hopen : ∀ (t : EncodeLoop) opened, (t.openSilicon opened).siliconLast = t.siliconLast := by
    intro t opened
    unfold openSilicon
    split
    · rfl
    · split <;> rfl
  exact (hopen _ _).trans (hencoder _ _)

theorem prepare_pending :
    (s.prepare i).1.pendingKeyframe = (s.isKeyframe i || s.keyframePending i) := by
  have hsteer : ∀ (e : EvrtckEncoder) region, (steer e region).pendingKeyframe =
      e.pendingKeyframe := by
    intro e region
    unfold steer
    split <;> rfl
  unfold prepare
  dsimp only
  cases s.isKeyframe i with
  | true => rfl
  | false => exact hsteer _ _

theorem receiveReply_siliconLast (reply : EncodeReply) :
    (s.receiveReply reply).1.siliconLast = s.siliconLast := by
  unfold receiveReply
  split
  · split
    · rfl
    · rfl
    · dsimp only
      split <;> rfl
  · rfl

theorem scoreRace_encoder (s : EncodeLoop) (nvencWon : Bool) :
    (s.scoreRace nvencWon).encoder = s.encoder := by
  unfold scoreRace
  exact (apply_ite encoder _ _ _).trans (ite_self _)

/-- How an iteration ends: with nothing to send, with a silicon frame, or with what EVRTCK
made of the frame. -/
inductive Iterated (zstd : Zstd) (wantH265 : Bool) (s : EncodeLoop) (i : Iteration)
    (s' : EncodeLoop) : Option SentFrame → Prop
  | quiet {e : EvrtckEncoder} (hencoder : s'.encoder = some e)
      (hkept : e = (s.prepare i).1 ∨ e = (s.prepare i).1.requestKeyframe)
      (hlast : s'.siliconLast = s.siliconLast) : Iterated zstd wantH265 s i s' none
  | silicon {e : EvrtckEncoder} {frame : VideoFrame} (hencoder : s'.encoder = some e)
      (hkept : e = (s.prepare i).1 ∨ e = (s.prepare i).1.requestKeyframe ∨ e = (s.encoded zstd i).1)
      (hlast : s'.siliconLast = true) (hsilicon : frame.isSilicon = true)
      (hpayload : frame.payload.length < Checked.sizeLimit) :
      Iterated zstd wantH265 s i s' (some ⟨frame, i.captured⟩)
  | evrtck {frame : VideoFrame} (hencoder : s'.encoder = some (s.encoded zstd i).1)
      (hlast : s'.siliconLast = false) (hplain : frame.isSilicon = false)
      (hpayload : frame.payload = (s.encoded zstd i).2.1.data)
      (hsends : (s.prepare i).2.sendsEvrtck wantH265 i = true) :
      Iterated zstd wantH265 s i s' (some ⟨frame, i.captured⟩)

theorem trusting_cases {sent : Option SentFrame}
    (h : (s.prepare i).2.trusting wantH265 zstd overflowChecks (s.prepare i).1 i =
      .ok (s', sent)) : Iterated zstd wantH265 s i s' sent := by
  have hreply := (s.prepare i).2.receiveReply_siliconLast i.reply
  unfold trusting at h
  cases hreceived : (s.prepare i).2.receiveReply i.reply with
  | mk received packet =>
      rw [hreceived] at h hreply
      obtain ⟨⟨e, spent⟩, hspend, h⟩ := Checked.returns_of_bind h
      obtain ⟨hkept, hlast⟩ := spendTrust_ok hspend
      cases packet with
      | none =>
          cases h
          exact .quiet rfl hkept (hlast.trans (hreply.trans prepare_siliconLast))
      | some packet =>
          obtain ⟨frame, hframe, h⟩ := Checked.returns_of_bind h
          cases h
          obtain ⟨hsilicon, hpayload⟩ := siliconFrame_ok hframe
          exact .silicon rfl (hkept.imp_right .inl) rfl hsilicon hpayload

theorem racing_cases {isKeyframe : Bool} {sent : Option SentFrame}
    (hraces : (s.prepare i).2.skipsEvrtckRace wantH265 = false)
    (h : (s.prepare i).2.racing wantH265 zstd isKeyframe (s.prepare i).1 i = .ok (s', sent)) :
    Iterated zstd wantH265 s i s' sent := by
  unfold racing at h
  cases hreceived : (s.prepare i).2.receiveReply i.reply with
  | mk received packet =>
      have hsends : packet = none ∨ i.scheduled = false →
          (s.prepare i).2.sendsEvrtck wantH265 i = true := by
        intro hneither
        unfold sendsEvrtck
        rw [hraces, hreceived]
        rcases hneither with rfl | hscheduled
        · rfl
        · simp [hscheduled]
      rw [hreceived] at h
      cases packet with
      | none =>
          cases h
          exact .evrtck rfl rfl rfl rfl (hsends (.inl rfl))
      | some packet =>
          dsimp only at h
          split at h
          · obtain ⟨frame, hframe, h⟩ := Checked.returns_of_bind h
            cases h
            obtain ⟨hsilicon, hpayload⟩ := siliconFrame_ok hframe
            exact .silicon (scoreRace_encoder _ _) (.inr (.inr rfl)) rfl hsilicon hpayload
          · next hscheduled =>
            cases h
            exact .evrtck (scoreRace_encoder _ _) rfl rfl rfl
              (hsends (.inr (Bool.eq_false_of_not_eq_true hscheduled)))

theorem iterate_cases {sent : Option SentFrame}
    (h : s.iterate wantH265 zstd overflowChecks i = .ok (s', sent)) :
    Iterated zstd wantH265 s i s' sent := by
  unfold iterate at h
  dsimp only at h
  split at h
  · exact trusting_cases h
  · next hraces => exact racing_cases (Bool.eq_false_of_not_eq_true hraces) h

end Host

end EncodeLoop

/-- The client's decoder holds what the encoder predicts from, unless a key frame is next or
the client was sent a silicon frame; the encoder is always in step with some decoder. -/
structure InStep (s : EncodeLoop) (d : EvrtckDecoder) : Prop where
  encoder : ∀ e, s.encoder = some e → ∃ held, Ready e held ∧ (s.siliconLast = false → held = d)
  sized : Sized d

section Following

variable {zstd : Zstd} {wantH265 overflowChecks : Bool} {s s' : EncodeLoop} {i : Iteration}
  {d : EvrtckDecoder}

theorem encoderFor_ready (hstep : InStep s d) {width height : Nat}
    (htiles : tilesInDim width * tilesInDim height ≤ 65536) :
    let e := (s.encoderFor width height).1
    (∃ held, Ready e held ∧ (s.siliconLast = false → held = d)) ∧ e.width = width ∧
      e.height = height := by
  have hfresh : Ready (EvrtckEncoder.new width height).requestKeyframe d :=
    ready_requestKeyframe (ready_new htiles d) d
  unfold EncodeLoop.encoderFor
  cases hencoder : s.encoder with
  | none => exact ⟨⟨d, hfresh, fun _ => rfl⟩, rfl, rfl⟩
  | some e =>
      dsimp only
      split
      · next hsame => exact ⟨hstep.encoder e hencoder, hsame.1, hsame.2⟩
      · exact ⟨⟨d, hfresh, fun _ => rfl⟩, rfl, rfl⟩

theorem prepare_ready (hstep : InStep s d)
    (htiles : tilesInDim i.captured.width.toNat * tilesInDim i.captured.height.toNat ≤ 65536) :
    (∃ held, Ready (s.prepare i).1 held ∧ (s.siliconLast = false → held = d)) ∧
      (s.prepare i).1.width = i.captured.width.toNat ∧
      (s.prepare i).1.height = i.captured.height.toNat := by
  obtain ⟨⟨held, hready, hheld⟩, hwidth, hheight⟩ := encoderFor_ready hstep htiles
  generalize hfound : s.encoderFor i.captured.width.toNat i.captured.height.toNat = found at *
  have hsteered : Ready (EncodeLoop.steer found.1 i.region) held ∧
      (EncodeLoop.steer found.1 i.region).width = found.1.width ∧
      (EncodeLoop.steer found.1 i.region).height = found.1.height := by
    unfold EncodeLoop.steer
    split
    · exact ⟨⟨hready.tiles, hready.length, hready.held⟩, rfl, rfl⟩
    · exact ⟨hready, rfl, rfl⟩
  have hprepared : (s.prepare i).1 =
      if s.isKeyframe i then (EncodeLoop.steer found.1 i.region).requestKeyframe
      else EncodeLoop.steer found.1 i.region := by
    rw [← hfound]
    rfl
  rw [hprepared]
  split
  · exact ⟨⟨held, ready_requestKeyframe hsteered.1 held, hheld⟩, hsteered.2.1.trans hwidth,
      hsteered.2.2.trans hheight⟩
  · exact ⟨⟨held, hsteered.1, hheld⟩, hsteered.2.1.trans hwidth, hsteered.2.2.trans hheight⟩

/-- A decoder that the encoder is in step with shows the frame, in any order of its tiles,
and the two are in step afterwards. -/
theorem encoded_follows (hzstd : zstd.Lawful) (hready : Ready (s.prepare i).1 d)
    (hwidth : (s.prepare i).1.width = i.captured.width.toNat)
    (hheight : (s.prepare i).1.height = i.captured.height.toNat) :
    Ready (s.encoded zstd i).1
        (holding i.captured.width.toNat i.captured.height.toNat i.captured.bgra) ∧
      ∀ {priority : Option (Nat → Priority)}, Numbered priority →
        ShowsBy zstd priority d (s.encoded zstd i).2.1.data i.captured.width.toNat
          i.captured.height.toNat i.captured.bgra := by
  have hbgra : i.captured.bgra.length = (s.prepare i).1.width * (s.prepare i).1.height * 4 := by
    rw [hwidth, hheight]
    exact i.captured.size
  have hsent := encodeInnerImpl_sent hzstd hready hbgra (s.prepare i).2.frameId (!i.region.isEmpty)
  have hnext := (hsent.ready hready.tiles).1
  rw [hwidth, hheight] at hnext
  refine ⟨hnext, fun hpriority => ?_⟩
  have hshows := encodeInnerImpl_showsBy hzstd hready hbgra (s.prepare i).2.frameId
    (!i.region.isEmpty) hpriority
  rw [hwidth, hheight] at hshows
  exact hshows

/-- Before an EVRTCK frame is sent the client's decoder is one that the encoder is in step
with. -/
theorem prepare_current (hkeyed : s.KeyedAfterSilicon wantH265 i)
    (hsends : (s.prepare i).2.sendsEvrtck wantH265 i = true) {held : EvrtckDecoder}
    (hready : Ready (s.prepare i).1 held) (hheld : s.siliconLast = false → held = d) :
    Ready (s.prepare i).1 d := by
  cases hsilicon : s.siliconLast with
  | false => exact hheld hsilicon ▸ hready
  | true =>
      have hpending := EncodeLoop.prepare_pending.trans (hkeyed hsilicon hsends)
      exact hready.of_pending hpending d

/-- What an iteration sends is received, and what EVRTCK made is shown as it was captured. -/
def KeepsStep (zstd : Zstd) (s' : EncodeLoop) (d : EvrtckDecoder) : Option SentFrame → Prop
  | none => InStep s' d
  | some sent => ∀ r : Reception, r.sent = sent → ∃ d' shown,
      receiveFrame zstd d r = .ok (d', shown) ∧ InStep s' d' ∧ ShowsCaptured r shown

theorem iterate_keepsStep (hzstd : zstd.Lawful) (hstep : InStep s d)
    (htiles : tilesInDim i.captured.width.toNat * tilesInDim i.captured.height.toNat ≤ 65536)
    (hkeyed : s.KeyedAfterSilicon wantH265 i) {sent : Option SentFrame}
    (h : s.iterate wantH265 zstd overflowChecks i = .ok (s', sent)) :
    KeepsStep zstd s' d sent := by
  obtain ⟨⟨held, hready, hheld⟩, hwidth, hheight⟩ := prepare_ready hstep htiles
  cases EncodeLoop.iterate_cases h with
  | quiet hencoder hkept hlast =>
      refine ⟨fun e he => ?_, hstep.sized⟩
      obtain rfl := Option.some.inj (hencoder.symm.trans he)
      rw [hlast]
      rcases hkept with rfl | rfl
      · exact ⟨held, hready, hheld⟩
      · exact ⟨held, ready_requestKeyframe hready held, hheld⟩
  | @silicon _ frame hencoder hkept hlast hsilicon hpayload =>
      rintro ⟨sent, decoded, apfPriority⟩ rfl
      obtain ⟨d', shown, hreceived, hsized⟩ := receiveFrame_silicon zstd
        (r := ⟨⟨frame, i.captured⟩, decoded, apfPriority⟩) hstep.sized hsilicon hpayload
      refine ⟨d', shown, hreceived, ⟨fun e he => ?_, hsized⟩, ?_⟩
      · obtain rfl := Option.some.inj (hencoder.symm.trans he)
        have hlater : s'.siliconLast = false → ∀ other, other = d' :=
          fun hplain => by cases hlast.symm.trans hplain
        rcases hkept with rfl | rfl | rfl
        · exact ⟨held, hready, fun hplain => hlater hplain held⟩
        · exact ⟨held, ready_requestKeyframe hready held, fun hplain => hlater hplain held⟩
        · exact ⟨_, (encoded_follows hzstd hready hwidth hheight).1, fun hplain => hlater hplain _⟩
      · exact fun hplain => by cases hsilicon.symm.trans hplain
  | evrtck hencoder hlast hplain hpayload hsends =>
      have hcurrent := prepare_current hkeyed hsends hready hheld
      obtain ⟨hnext, hshows⟩ := encoded_follows hzstd hcurrent hwidth hheight
      rintro ⟨sent, decoded, apfPriority⟩ rfl
      refine ⟨_, _, receiveFrame_evrtck hplain fun hpriority => hpayload ▸ hshows hpriority,
        ⟨fun e he => ?_, holding_sized htiles i.captured.size⟩, fun _ => rfl⟩
      obtain rfl := Option.some.inj (hencoder.symm.trans he)
      exact ⟨_, hnext, fun _ => rfl⟩

/-- A host that has panicked sends nothing. -/
theorem sentFrames_none (iterations : List Iteration) :
    sentFrames zstd wantH265 overflowChecks none iterations = [] := by
  induction iterations with
  | nil => rfl
  | cons i iterations ih => exact ih

theorem sentFrames_panics {panic : Panic}
    (h : s.iterate wantH265 zstd overflowChecks i = .error panic) (iterations : List Iteration) :
    sentFrames zstd wantH265 overflowChecks (some s) (i :: iterations) = [] := by
  have hstep : (runExperimentEncodeLoop zstd wantH265 overflowChecks).step (some s) i =
      (none, none) := by
    simp only [runExperimentEncodeLoop, h]
  unfold sentFrames
  rw [Machine.outputs_cons, hstep]
  exact sentFrames_none iterations

theorem sentFrames_cons {sent : Option SentFrame}
    (h : s.iterate wantH265 zstd overflowChecks i = .ok (s', sent))
    (iterations : List Iteration) :
    sentFrames zstd wantH265 overflowChecks (some s) (i :: iterations) =
      sent.toList ++ sentFrames zstd wantH265 overflowChecks (some s') iterations := by
  have hstep : (runExperimentEncodeLoop zstd wantH265 overflowChecks).step (some s) i =
      (some s', sent) := by
    simp only [runExperimentEncodeLoop, h]
  unfold sentFrames
  rw [Machine.outputs_cons, hstep]
  cases sent with
  | none => rfl
  | some sent => rfl

/-- Frames of at most 65536 tiles, and no EVRTCK frame after a silicon frame that is not a key
frame. -/
def Followable (wantH265 : Bool) (s : Option EncodeLoop) (i : Iteration) : Prop :=
  tilesInDim i.captured.width.toNat * tilesInDim i.captured.height.toNat ≤ 65536 ∧
    ∀ running ∈ s, EncodeLoop.KeyedAfterSilicon wantH265 running i

theorem run_follows (hzstd : zstd.Lawful) (hstep : InStep s d) {iterations : List Iteration}
    (hfollowable : (runExperimentEncodeLoop zstd wantH265 overflowChecks).Along
      (Followable wantH265) (some s) iterations)
    {receptions : List Reception}
    (hreceived : receptions.map Reception.sent <+:
      sentFrames zstd wantH265 overflowChecks (some s) iterations) :
    List.Forall₂ ShowsCaptured receptions
      ((runClientExperiment zstd).outputs (some d) receptions) := by
  induction iterations generalizing s d receptions with
  | nil =>
      rw [List.map_eq_nil_iff.mp (List.prefix_nil.mp hreceived)]
      exact .nil
  | cons i iterations ih =>
      obtain ⟨⟨htiles, hkeyed⟩, hlater⟩ := hfollowable
      cases hrun : s.iterate wantH265 zstd overflowChecks i with
      | error panic =>
          rw [sentFrames_panics hrun] at hreceived
          rw [List.map_eq_nil_iff.mp (List.prefix_nil.mp hreceived)]
          exact .nil
      | ok result =>
          obtain ⟨s', sent⟩ := result
          have hfollows := iterate_keepsStep hzstd hstep htiles
            (hkeyed s (Option.mem_some_self s)) hrun
          have hnext : ((runExperimentEncodeLoop zstd wantH265 overflowChecks).step (some s)
              i).1 = some s' := by
            simp only [runExperimentEncodeLoop, hrun]
          rw [hnext] at hlater
          rw [sentFrames_cons hrun] at hreceived
          cases sent with
          | none => exact ih hfollows hlater hreceived
          | some sent =>
              cases receptions with
              | nil => exact .nil
              | cons r receptions =>
                  obtain ⟨hsent, hrest⟩ := List.cons_prefix_cons.mp hreceived
                  obtain ⟨d', shown, hreceive, hstep', hshown⟩ := hfollows r hsent
                  have hclient : (runClientExperiment zstd).step (some d) r = (some d', shown) := by
                    simp only [runClientExperiment, hreceive]
                  rw [Machine.outputs_cons, hclient]
                  exact .cons hshown (ih hstep' hlater hrest)

end Following

/-- Over a channel that loses nothing and keeps the order, the client shows what EVRTCK made
of a frame as it was captured. -/
theorem evrtck_frames_are_exact {zstd : Zstd} (hzstd : zstd.Lawful)
    {wantH265 overflowChecks : Bool} {iterations : List Iteration}
    (hfollowable : (runExperimentEncodeLoop zstd wantH265 overflowChecks).Along
      (Followable wantH265) (some EncodeLoop.start) iterations)
    {receptions : List Reception}
    (hreceived : receptions.map Reception.sent <+:
      sentFrames zstd wantH265 overflowChecks (some EncodeLoop.start) iterations) :
    List.Forall₂ ShowsCaptured receptions
      ((runClientExperiment zstd).outputs (some EvrtckDecoder.new) receptions) := by
  have hstart : InStep EncodeLoop.start EvrtckDecoder.new :=
    ⟨fun e he => (Option.some_ne_none e he.symm).elim, ⟨rfl, by decide⟩⟩
  exact run_follows hzstd hstart hfollowable hreceived

/-- A row of two tiles, which differs from the others in its first byte. -/
def capturedRow (value : UInt8) : Captured where
  width := 33
  height := 1
  bgra := value :: List.replicate 131 1
  size := by simp

/-- A key frame of EVRTCK, a frame that NVENC wins, and one that EVRTCK makes. -/
def threeFrames (keyframeRequested : Bool) : List Iteration :=
  let waiting : Iteration :=
    ⟨capturedRow 0, [], false, false, some .nvenc, .buffering, false, false⟩
  [waiting,
    { waiting with
      captured := capturedRow 2
      reply := .encoded ⟨[0, 0, 0, 1], true, by decide⟩
      nvencFirst := true
      scheduled := true },
    { waiting with
      captured := capturedRow 3
      clientRequestedKeyframe := keyframeRequested }]

/-- The H.264 decoder has a black row for everything. -/
def receivedBlack (sent : List SentFrame) : List Reception :=
  sent.map fun frame => ⟨frame, some ⟨33, 1, List.replicate 132 0, by simp [Checked.sizeLimit]⟩,
    none⟩

theorem receivedBlack_sent (sent : List SentFrame) :
    (receivedBlack sent).map Reception.sent <+: sent := by
  rw [receivedBlack, List.map_map]
  exact (List.map_id' sent).symm ▸ List.prefix_refl sent

theorem evrtck_frames_are_exact_three_frames :
    List.Forall₂ ShowsCaptured
      (receivedBlack (sentFrames EvrtckDecoder.prefixing false true (some EncodeLoop.start)
        (threeFrames true)))
      ((runClientExperiment EvrtckDecoder.prefixing).outputs (some EvrtckDecoder.new)
        (receivedBlack (sentFrames EvrtckDecoder.prefixing false true (some EncodeLoop.start)
          (threeFrames true)))) := by
  have hfollowable : (runExperimentEncodeLoop EvrtckDecoder.prefixing false true).Along
      (Followable false) (some EncodeLoop.start) (threeFrames true) :=
    ⟨⟨by decide, by decide +kernel⟩, ⟨by decide, by decide +kernel⟩,
      ⟨by decide, by decide +kernel⟩, trivial⟩
  exact evrtck_frames_are_exact prefixing_lawful hfollowable (receivedBlack_sent _)

/-- What EVRTCK predicts from a frame that was never sent is applied to the lossy picture. -/
theorem delta_on_lossy_picture :
    ¬ ∀ (zstd : Zstd) (overflowChecks : Bool) (width height : UInt32)
      (iterations : List Iteration) (receptions : List Reception), zstd.Lawful →
      tilesInDim width.toNat * tilesInDim height.toNat ≤ 65536 →
      (∀ i ∈ iterations, i.captured.width = width ∧ i.captured.height = height) →
      receptions.map Reception.sent <+:
        sentFrames zstd false overflowChecks (some EncodeLoop.start) iterations →
      List.Forall₂ ShowsCaptured receptions
        ((runClientExperiment zstd).outputs (some EvrtckDecoder.new) receptions) := by
  intro hall
  have hexact := hall EvrtckDecoder.prefixing true 33 1 (threeFrames false)
    (receivedBlack (sentFrames EvrtckDecoder.prefixing false true (some EncodeLoop.start)
      (threeFrames false))) prefixing_lawful (by decide) (by decide) (receivedBlack_sent _)
  have hwrong : ((receivedBlack (sentFrames EvrtckDecoder.prefixing false true
      (some EncodeLoop.start) (threeFrames false))).zip
        ((runClientExperiment EvrtckDecoder.prefixing).outputs (some EvrtckDecoder.new)
          (receivedBlack (sentFrames EvrtckDecoder.prefixing false true
            (some EncodeLoop.start) (threeFrames false))))).all
      (fun outcome => decide (ShowsCaptured outcome.1 outcome.2)) = false := by
    decide +kernel
  rw [List.all_eq_false] at hwrong
  obtain ⟨outcome, hmember, hdiffers⟩ := hwrong
  exact hdiffers (decide_eq_true ((List.forall₂_iff_zip.mp hexact).2 hmember))

end EvertyDesk.Evrt2
