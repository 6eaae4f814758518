import EvertyDesk.Evrtck.Sync

/-!
Whole runs of an encoder and a decoder that gets its packets: from a key frame
on the decoder holds the frame of every packet. What a call needs for this is
that its frame has the encoder's dimensions, that they are not too large for the
wire format, and that a hint that is used leaves out nothing that changed.
-/

namespace EvertyDesk.Evrtck

/-- What a hint leaves out is a condition on the encoder, the frame, and the
rectangles of the hint. -/
abbrev HintCondition := EvrtckEncoder → List UInt8 → List CopyRect → List DirtyRect → Prop

/-- The call's frame has the encoder's dimensions, lists have the lengths that
the format has room for, and a hint that is used meets its condition. -/
def Fits (complete : HintCondition) (e : EvrtckEncoder) : Call → Prop
  | .encode bgra _ | .encodeWithOffsets bgra _ | .encodeWithScrollDetection bgra _ =>
      bgra.length = e.width * e.height * 4
  | .encodeWithCopyRects bgra _ copyRects =>
      bgra.length = e.width * e.height * 4 ∧ copyRects.length ≤ 65535
  | .encodeWithCaptureHints bgra _ copyRects dirtyRects =>
      bgra.length = e.width * e.height * 4 ∧ copyRects.length ≤ 65535 ∧
        (e.pendingKeyframe = false → complete e bgra copyRects dirtyRects)
  | .requestKeyframe | .setFocusPixel _ _ | .clearFocus => True
  | .new width height => tilesInDim width * tilesInDim height ≤ 65536

/-- The decoder, which puts out the frame that it holds after a packet, if it
could decode it. -/
def decoder (zstd : Zstd) : Machine EvrtckDecoder EvrtckPacket (Option (List UInt8)) where
  step d packet :=
    match d.decodeWire zstd packet.data with
    | .ok (d', .ok _) => (d', some d'.frame)
    | .ok (d', .error _) => (d', none)
    | .error _ => (d, none)

/-- The packets of a run of the encoder. -/
def packets (zstd : Zstd) (e : EvrtckEncoder) (calls : List Call) : List EvrtckPacket :=
  ((encoder zstd).outputs e calls).filterMap id

/-- The packet says that it is a key frame. -/
def EvrtckPacket.isKeyframe (packet : EvrtckPacket) : Bool :=
  packet.data.getD 5 0 &&& flagKeyframe != 0

theorem decoder_shows {zstd : Zstd} {d : EvrtckDecoder} {packet : EvrtckPacket}
    {width height : Nat} {frame : List UInt8}
    (h : Shows zstd d packet.data width height frame) :
    (decoder zstd).step d packet = (holding width height frame, some (bgraToRgba frame)) := by
  simp only [decoder]
  rw [h]
  rfl

theorem Fits.mono {complete complete' : HintCondition}
    (h : ∀ e bgra copyRects dirtyRects, complete e bgra copyRects dirtyRects →
      complete' e bgra copyRects dirtyRects) {e : EvrtckEncoder} {call : Call}
    (hfits : Fits complete e call) : Fits complete' e call := by
  cases call with
  | encodeWithCaptureHints bgra frameId copyRects dirtyRects =>
      obtain ⟨hlength, hrects, hcomplete⟩ := hfits
      exact ⟨hlength, hrects, fun hpending => h _ _ _ _ (hcomplete hpending)⟩
  | _ => exact hfits

section Steps

variable {zstd : Zstd} {e : EvrtckEncoder} {d : EvrtckDecoder}

theorem Sent.ready {bgra : List UInt8} {e' : EvrtckEncoder} {packet : EvrtckPacket}
    (htiles : tilesInDim e.width * tilesInDim e.height ≤ 65536)
    (h : Sent zstd e d bgra e' packet) :
    Ready e' (holding e.width e.height bgra) ∧
      holding e'.width e'.height e'.prev = holding e.width e.height bgra := by
  have hholding : holding e'.width e'.height e'.prev = holding e.width e.height bgra := by
    rw [holding, holding, h.width, h.height, h.prev]
  refine ⟨⟨?_, ?_, fun _ => hholding.symm⟩, hholding⟩
  · rw [h.width, h.height]
    exact htiles
  · rw [h.width, h.height]
    exact h.length

/-- A call with a frame sends it. -/
theorem call_sends (hzstd : zstd.Lawful) (hready : Ready e d) {call : Call}
    (hfits : Fits Marked e call) {bgra : List UInt8} (hframe : call.frame = some bgra) :
    ∃ packet, (e.call zstd call).2 = some packet ∧
      Sent zstd e d bgra (e.call zstd call).1 packet := by
  cases call with
  | encode bgra frameId =>
      cases hframe
      exact ⟨_, rfl, encodeInner_sent hzstd hready hfits frameId⟩
  | encodeWithOffsets bgra frameId =>
      cases hframe
      exact ⟨_, rfl, encodeInnerImpl_sent hzstd hready hfits frameId true⟩
  | encodeWithCopyRects bgra frameId copyRects =>
      cases hframe
      exact ⟨_, rfl, encodeInnerWithCopyRects_sent hzstd hready hfits.1 frameId hfits.2⟩
  | encodeWithCaptureHints bgra frameId copyRects dirtyRects =>
      cases hframe
      exact ⟨_, rfl, encodeInnerWithCaptureHints_sent hzstd hready hfits.1 frameId
        hfits.2.1 hfits.2.2⟩
  | encodeWithScrollDetection bgra frameId =>
      cases hframe
      exact ⟨_, rfl, encodeInnerWithScrollDetection_sent hzstd hready hfits frameId⟩
  | requestKeyframe => cases hframe
  | setFocusPixel x y => cases hframe
  | clearFocus => cases hframe
  | new width height => cases hframe

/-- With a key frame to send, the encoder is in step with every decoder. -/
theorem Ready.of_pending (hready : Ready e d) (hpending : e.pendingKeyframe = true)
    (other : EvrtckDecoder) : Ready e other :=
  ⟨hready.tiles, hready.length, fun hnone => by cases hpending.symm.trans hnone⟩

theorem ready_requestKeyframe (hready : Ready e d) (other : EvrtckDecoder) :
    Ready e.requestKeyframe other :=
  ⟨hready.tiles, List.length_replicate.trans hready.length, fun hpending => by cases hpending⟩

/-- A call without a frame sends nothing, and encoder and decoder stay in step. -/
theorem call_quiet (hready : Ready e d) {call : Call} (hfits : Fits Marked e call)
    (hframe : call.frame = none) :
    (e.call zstd call).2 = none ∧ Ready (e.call zstd call).1 d := by
  cases call with
  | requestKeyframe => exact ⟨rfl, ready_requestKeyframe hready d⟩
  | setFocusPixel x y => exact ⟨rfl, hready.tiles, hready.length, hready.held⟩
  | clearFocus => exact ⟨rfl, hready.tiles, hready.length, hready.held⟩
  | new width height =>
      exact ⟨rfl, hfits, List.length_replicate, fun hpending => by cases hpending⟩
  | encode bgra frameId => cases hframe
  | encodeWithOffsets bgra frameId => cases hframe
  | encodeWithCopyRects bgra frameId copyRects => cases hframe
  | encodeWithCaptureHints bgra frameId copyRects dirtyRects => cases hframe
  | encodeWithScrollDetection bgra frameId => cases hframe

end Steps

/-! Key frames. -/

section Keyframes

variable {zstd : Zstd} {e : EvrtckEncoder}

/-- The flags of a packet. -/
def flagsOf (data : List UInt8) : UInt8 := data.getD 5 0

theorem flagsOf_nop (frameId : UInt32) (width height : Nat) :
    flagsOf (nopPacketData frameId width height) = flagNop := rfl

theorem flagsOf_copyRectOnly (frameId : UInt32) (width height : Nat) (rects : List CopyRect) :
    flagsOf (copyRectOnlyPacketData frameId width height rects) = flagCopyRects := rfl

theorem flagsOf_assembled (ver flags : UInt8) (frameId : UInt32) (width height : Nat)
    (copied : List UInt8) (tiles : List DirtyTile) (focus : Option (Nat × Nat))
    (wantOffsets : Bool) :
    flagsOf (assembleFrame ver flags frameId width height copied tiles focus
      wantOffsets).data = flags := rfl

/-- A packet of an encoder that has no key frame to send is none. -/
def Predicted (data : List UInt8) : Prop := flagsOf data &&& flagKeyframe = 0

/-- What the flags of a packet say: it is a key frame only if one was to be sent, and
one that changes nothing is a bare header. -/
structure Flagged (e : EvrtckEncoder) (data : List UInt8) : Prop where
  predicted : e.pendingKeyframe = false → Predicted data
  nop : flagsOf data &&& flagNop ≠ 0 →
    e.pendingKeyframe = false ∧ ∃ frameId, data = nopPacketData frameId e.width e.height

theorem flagged_nop (hpending : e.pendingKeyframe = false) (frameId : UInt32) :
    Flagged e (nopPacketData frameId e.width e.height) :=
  ⟨fun _ => by rw [Predicted, flagsOf_nop]; decide, fun _ => ⟨hpending, frameId, rfl⟩⟩

/-- A packet with one of the other flags, or none. -/
theorem flagged_of_flags {data : List UInt8} {flags : UInt8} (hflags : flagsOf data = flags)
    (hnop : flags &&& flagNop = 0)
    (hkey : e.pendingKeyframe = false → flags &&& flagKeyframe = 0) : Flagged e data :=
  ⟨fun hpending => by rw [Predicted, hflags]; exact hkey hpending,
    fun habsurd => absurd (hflags ▸ hnop) habsurd⟩

theorem flagged_copyRectOnly (frameId : UInt32) (rects : List CopyRect) :
    Flagged e (copyRectOnlyPacketData frameId e.width e.height rects) :=
  flagged_of_flags (flagsOf_copyRectOnly ..) (by decide) fun _ => by decide

theorem encodeInnerImpl_flagged (bgra : List UInt8) (frameId : UInt32) (wantOffsets : Bool) :
    Flagged e (e.encodeInnerImpl zstd bgra frameId wantOffsets).2.1.data := by
  unfold EvrtckEncoder.encodeInnerImpl encodeFrameWithOffsets
  dsimp only [EvrtckEncoder.packet]
  split
  · next hquiet => exact flagged_nop (by simp_all) frameId
  · refine flagged_of_flags (flagsOf_assembled ..) ?_ ?_
    · split <;> decide
    · intro hpending
      rw [hpending]
      decide

theorem withCopyRectsFrame_flagged (bgra predicted : List UInt8) (frameId : UInt32)
    (rects : List CopyRect) (focus : Option (Nat × Nat)) (wantOffsets : Bool) :
    Flagged e (encodeFrameWithOffsetsAndCopyRects zstd bgra predicted e.width e.height frameId
      rects focus wantOffsets).data := by
  unfold encodeFrameWithOffsetsAndCopyRects
  dsimp only
  split
  · exact flagged_copyRectOnly frameId rects
  · exact flagged_of_flags (flagsOf_assembled ..) (by decide) fun _ => by decide

theorem hintedFrame_flagged (hpending : e.pendingKeyframe = false)
    (bgra predicted : List UInt8) (frameId : UInt32) (rects : List CopyRect)
    (indices : List Nat) :
    Flagged e (e.hintedFrame zstd bgra predicted frameId rects indices).data := by
  unfold EvrtckEncoder.hintedFrame
  split
  · split
    · exact flagged_nop hpending frameId
    · exact flagged_copyRectOnly frameId rects
  · split
    · exact flagged_of_flags (flagsOf_assembled ..) (by decide) fun _ => by decide
    · unfold encodeCopyRectFrameFromDirtyIndices
      dsimp only
      split
      · exact flagged_copyRectOnly frameId rects
      · exact flagged_of_flags (flagsOf_assembled ..) (by decide) fun _ => by decide

theorem encodeInnerWithCopyRects_flagged (bgra : List UInt8) (frameId : UInt32)
    (copyRects : List CopyRect) :
    Flagged e (e.encodeInnerWithCopyRects zstd bgra frameId copyRects).2.1.data := by
  unfold EvrtckEncoder.encodeInnerWithCopyRects
  split
  · exact encodeInnerImpl_flagged bgra frameId false
  · dsimp only
    split
    · exact encodeInnerImpl_flagged bgra frameId false
    · exact withCopyRectsFrame_flagged _ _ _ _ _ _

theorem encodeInnerWithScrollDetection_flagged (bgra : List UInt8) (frameId : UInt32) :
    Flagged e (e.encodeInnerWithScrollDetection zstd bgra frameId).2.1.data := by
  unfold EvrtckEncoder.encodeInnerWithScrollDetection
  split
  · exact encodeInnerImpl_flagged bgra frameId false
  · split
    · exact encodeInnerImpl_flagged bgra frameId false
    · split
      · exact encodeInnerWithCopyRects_flagged bgra frameId _
      · exact encodeInnerImpl_flagged bgra frameId false

theorem encodeInnerWithCaptureHints_flagged (bgra : List UInt8) (frameId : UInt32)
    (copyRects : List CopyRect) (dirtyRects : List DirtyRect) :
    Flagged e (e.encodeInnerWithCaptureHints zstd bgra frameId copyRects dirtyRects).2.1.data := by
  unfold EvrtckEncoder.encodeInnerWithCaptureHints
  split
  · exact encodeInnerImpl_flagged bgra frameId false
  · next hpending =>
    dsimp only
    split
    · exact hintedFrame_flagged (Bool.eq_false_of_not_eq_true hpending) _ _ _ _ _
    · split
      · exact encodeInnerWithScrollDetection_flagged bgra frameId
      · exact withCopyRectsFrame_flagged _ _ _ _ _ _

theorem call_flagged {call : Call} {packet : EvrtckPacket}
    (hpacket : (e.call zstd call).2 = some packet) : Flagged e packet.data := by
  cases call with
  | encode bgra frameId =>
      cases hpacket
      exact encodeInnerImpl_flagged bgra frameId false
  | encodeWithOffsets bgra frameId =>
      cases hpacket
      exact encodeInnerImpl_flagged bgra frameId true
  | encodeWithCopyRects bgra frameId copyRects =>
      cases hpacket
      exact encodeInnerWithCopyRects_flagged bgra frameId copyRects
  | encodeWithCaptureHints bgra frameId copyRects dirtyRects =>
      cases hpacket
      exact encodeInnerWithCaptureHints_flagged bgra frameId copyRects dirtyRects
  | encodeWithScrollDetection bgra frameId =>
      cases hpacket
      exact encodeInnerWithScrollDetection_flagged bgra frameId
  | requestKeyframe => cases hpacket
  | setFocusPixel x y => cases hpacket
  | clearFocus => cases hpacket
  | new width height => cases hpacket

/-- Key frames come from encoders that had one to send. -/
theorem pending_of_isKeyframe {call : Call} {packet : EvrtckPacket}
    (hpacket : (e.call zstd call).2 = some packet) (hkey : packet.isKeyframe = true) :
    e.pendingKeyframe = true := by
  by_contra hnone
  have hpredicted := (call_flagged hpacket).predicted (Bool.eq_false_of_not_eq_true hnone)
  rw [EvrtckPacket.isKeyframe, bne_iff_ne] at hkey
  exact hkey hpredicted

end Keyframes

/-! Runs. -/

section Runs

variable {zstd : Zstd}

theorem packets_cons (e : EvrtckEncoder) (call : Call) (calls : List Call) :
    packets zstd e (call :: calls) =
      (e.call zstd call).2.toList ++ packets zstd (e.call zstd call).1 calls := by
  unfold packets
  rw [Machine.outputs_cons]
  cases houtput : (e.call zstd call).2 with
  | none => exact List.filterMap_cons_none houtput
  | some packet => exact List.filterMap_cons_some houtput

/-- From encoder and decoder in step on, the decoder puts out the frames of the
calls. -/
theorem run_in_step (hzstd : zstd.Lawful) {e : EvrtckEncoder} {d : EvrtckDecoder}
    {calls : List Call} (hready : Ready e d)
    (hfits : (encoder zstd).Along (Fits Marked) e calls) :
    (decoder zstd).outputs d (packets zstd e calls) =
        (calls.filterMap Call.frame).map (fun bgra => some (bgraToRgba bgra)) ∧
      Ready ((encoder zstd).run e calls) ((decoder zstd).run d (packets zstd e calls)) := by
  induction calls generalizing e d with
  | nil => exact ⟨rfl, hready⟩
  | cons call calls ih =>
      obtain ⟨hfirst, hrest⟩ := hfits
      rw [packets_cons]
      cases hframe : call.frame with
      | none =>
          obtain ⟨hquiet, hready'⟩ := call_quiet hready hfirst hframe
          rw [hquiet, List.filterMap_cons_none hframe]
          exact ih hready' hrest
      | some bgra =>
          obtain ⟨packet, hpacket, hsent⟩ := call_sends hzstd hready hfirst hframe
          obtain ⟨hready', _⟩ := hsent.ready hready.tiles
          obtain ⟨houtputs, hdone⟩ := ih hready' hrest
          rw [hpacket, List.filterMap_cons_some hframe, List.map_cons]
          dsimp only [Option.toList, List.cons_append, List.nil_append]
          simp only [Machine.outputs_cons, Machine.run_cons, decoder_shows hsent.shown, houtputs]
          exact ⟨trivial, hdone⟩

/-- Hints that cover what has changed mark it. -/
theorem along_marked {e : EvrtckEncoder} {calls : List Call}
    (h : (encoder zstd).Along (Fits Covered) e calls) :
    (encoder zstd).Along (Fits Marked) e calls :=
  (encoder zstd).along_of_invariant (I := fun _ => True)
    (fun _ _ _ hfit => ⟨trivial, hfit.mono fun _ _ _ _ => marked_of_covered⟩) trivial h

/-- A new encoder is in step with every decoder: it has a key frame to send. -/
theorem ready_new {width height : Nat}
    (htiles : tilesInDim width * tilesInDim height ≤ 65536) (d : EvrtckDecoder) :
    Ready (EvrtckEncoder.new width height) d :=
  ⟨htiles, List.length_replicate, fun hpending => by cases hpending⟩

/-- From a key frame on, whatever the decoder was in before, it holds after each
packet the frame that was given to the encoder for it. -/
theorem decoder_follows (hzstd : zstd.Lawful) {width height : Nat}
    (htiles : tilesInDim width * tilesInDim height ≤ 65536)
    {before later : List Call} {key : Call} {packet : EvrtckPacket}
    (hfits : (encoder zstd).Along (Fits Covered) (EvrtckEncoder.new width height)
      (before ++ key :: later))
    (hpacket : ((encoder zstd).step
      ((encoder zstd).run (EvrtckEncoder.new width height) before) key).2 = some packet)
    (hkey : packet.isKeyframe = true) (d : EvrtckDecoder) :
    (decoder zstd).outputs d (packets zstd
        ((encoder zstd).run (EvrtckEncoder.new width height) before) (key :: later)) =
      ((key :: later).filterMap Call.frame).map fun bgra => some (bgraToRgba bgra) := by
  obtain ⟨hbefore, hlater⟩ := ((encoder zstd).along_append _ _ _ _).mp (along_marked hfits)
  obtain ⟨_, hready⟩ := run_in_step hzstd (ready_new htiles d) hbefore
  have hpending := pending_of_isKeyframe hpacket hkey
  exact (run_in_step hzstd (hready.of_pending hpending d) hlater).1

end Runs

/-! Small frames, with a library that puts a byte before what it is given. -/

theorem decoder_follows_two_frames :
    (decoder EvrtckDecoder.prefixing).outputs EvrtckDecoder.new
        (packets EvrtckDecoder.prefixing (EvrtckEncoder.new 1 1)
          [.encode [1, 2, 3, 4] 0, .encode [5, 6, 7, 8] 1]) =
      [some [3, 2, 1, 4], some [7, 6, 5, 8]] :=
  @decoder_follows _ prefixing_lawful 1 1 (by decide) [] [.encode [5, 6, 7, 8] 1]
    (.encode [1, 2, 3, 4] 0) _ ⟨rfl, rfl, trivial⟩ rfl (by decide) EvrtckDecoder.new

def whiteEnd : List UInt8 := List.replicate 128 0 ++ [255, 255, 255, 255]

/-- The hint names the second tile. -/
def hintedFrame : Call := .encodeWithCaptureHints whiteEnd 1 [] [⟨32, 0, 33, 1⟩]

end EvertyDesk.Evrtck
