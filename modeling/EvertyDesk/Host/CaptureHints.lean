import EvertyDesk.Evrtck.Sync
import EvertyDesk.Host.EncodeLoop

/-!
The hints that the loop gives the encoder. The rectangles of a capture tell what
has changed since the capture before it; the encoder wants to know what has
changed since the frame it encoded last. The two are the same only if that frame
shows the capture before.
-/

namespace EvertyDesk.Host

open Evrtck (applyCopyRects)

/-! What the encoder encoded last. -/

structure Reference where
  width : Nat
  height : Nat
  frame : Option (List UInt8)
deriving DecidableEq, Repr

def Reference.start : Reference where
  width := 0
  height := 0
  frame := none

/-- A new encoder has encoded nothing. -/
def reference : Machine Reference Evrtck.Call Unit where
  step r
    | .new width height => ({ width := width, height := height, frame := none }, ())
    | call => ({ r with frame := call.frame.or r.frame }, ())

/-- A hint covers every pixel that differs from the frame encoded before, after
the moves. -/
def Complete (r : Reference) : Evrtck.Call → Prop
  | .encodeWithCaptureHints bgra _ copyRects dirtyRects =>
      ∀ prev, r.frame = some prev →
        Evrtck.Covered ⟨prev, r.width, r.height, false, none⟩ bgra copyRects dirtyRects
  | _ => True

/-- All calls on encoders, oldest first. -/
def callsOf (frames : List Encoded) : List Evrtck.Call := frames.reverse.flatMap Encoded.calls

def HintsComplete (frames : List Encoded) : Prop := reference.Along Complete .start (callsOf frames)

/-! Captures. -/

/-- A dirty rectangle has the pixel in it. -/
def CaptureFrameMeta.Marks (frameMeta : CaptureFrameMeta) (x y : Nat) : Prop :=
  ∃ rect ∈ frameMeta.dirtyRects, rect.left.toNat ≤ x ∧ x < rect.right.toNat ∧
    rect.top.toNat ≤ y ∧ y < rect.bottom.toNat

/-- Every pixel that differs from the picture before, after the moves, is in a
dirty rectangle. In other dimensions every pixel differs. -/
def CapturedFrame.Explains (f prev : CapturedFrame) : Prop :=
  ∀ x < f.width.toNat, ∀ y < f.height.toNat,
    (f.width = prev.width → f.height = prev.height →
      field f.picture.bgra ((y * f.width.toNat + x) * 4) 4 ≠
        field (applyCopyRects prev.picture.bgra f.width.toNat f.height.toNat
          (f.frameMeta.moveRects.map CaptureMoveRect.copyRect))
          ((y * f.width.toNat + x) * 4) 4) →
    f.frameMeta.Marks x y

instance (frameMeta : CaptureFrameMeta) (x y : Nat) : Decidable (frameMeta.Marks x y) :=
  inferInstanceAs (Decidable (∃ rect ∈ frameMeta.dirtyRects, _))

instance (f prev : CapturedFrame) : Decidable (f.Explains prev) :=
  inferInstanceAs (Decidable (∀ x < f.width.toNat, ∀ y < f.height.toNat, _))

namespace EncodeLoop

/-- The rectangles of a capture cover what has changed since the capture before. -/
def CapturesCover (s : EncodeLoop) : EncodeLoopInput → Prop
  | .capture (.frame width height bgra frameMeta) =>
      ∀ prev, s.capture.shown.head? = some prev →
        CapturedFrame.Explains ⟨width, height, ⟨s.capture.shown.length + 1, bgra⟩, frameMeta⟩ prev
  | _ => True

/-- A picture that comes with rectangles is encoded as it was captured, and the
frame encoded last shows the picture captured before it. -/
def HintsCurrent (cfg : EncodeLoopConfig) (s : EncodeLoop) : EncodeLoopInput → Prop
  | .iterate i => ∀ f, s.toEncode cfg i = some f → f.frameMeta ≠ .default →
      cfg.fsr = none ∧ s.downscaleTo ≠ some (f.width, f.height) ∧
        ∀ frame older prev, s.frames.head? = some frame →
          s.capture.shown = f :: prev :: older →
          frame.width = f.width → frame.height = f.height →
          prev.width = f.width → prev.height = f.height →
          frame.bgra = prev.picture.bgra
  | _ => True

/-- The encoder is that of the last frame. -/
structure Encoding (s : EncodeLoop) : Prop where
  complete : HintsComplete s.frames
  referred : ∀ frame, s.frames.head? = some frame →
    reference.run .start (callsOf s.frames) =
      ⟨frame.width.toNat, frame.height.toNat, some frame.bgra⟩
  encoder : s.encoder = s.frames.head?.map fun frame => (frame.width, frame.height)

/-- What waits with rectangles is the picture captured last. -/
structure Waiting (s : EncodeLoop) : Prop where
  buf_shown : s.capture.buf.bgra ≠ [] → s.capture.shown ≠ []
  slot_shown : ∀ f, s.capture.slot = some f → f.picture.bgra ≠ [] → s.capture.shown ≠ []
  frames_shown : s.frames ≠ [] → s.capture.shown ≠ []
  waiting : ∀ f, s.capture.slot = some f → f.frameMeta ≠ .default →
    ∃ older, s.capture.shown = f :: older ∧ (s.frames ≠ [] → older ≠ []) ∧
      ∀ prev, older.head? = some prev → f.Explains prev

end EncodeLoop

/-! Hints. -/

theorem applyCopyRects_without {rects : List Evrtck.CopyRect} {width height : Nat}
    {p : Evrtck.CopyRect → Bool} (frame : List UInt8)
    (hp : ∀ rect, rect.isValid width height = true → p rect = true) :
    applyCopyRects frame width height (rects.filter p) =
      applyCopyRects frame width height rects := by
  rw [← Evrtck.applyCopyRects_filter frame width height (rects.filter p),
    ← Evrtck.applyCopyRects_filter frame width height rects, List.filter_filter]
  congr 1
  apply List.filter_congr
  intro rect _
  cases hvalid : rect.isValid width height with
  | false => rfl
  | true => simp [hp rect hvalid]

theorem not_empty_of_isValid {rect : Evrtck.CopyRect} {width height : Nat}
    (h : rect.isValid width height = true) :
    decide (rect.width > 0 ∧ rect.height > 0) = true := by
  obtain ⟨hwidth, hheight, _⟩ := (rect.isValid_iff width height).mp h
  exact decide_eq_true ⟨hwidth, hheight⟩

/-- The hint made from a capture's rectangles covers what they explain. -/
theorem hints_cover {f prev : CapturedFrame} {last : List UInt8} (hexplains : f.Explains prev)
    (hlast : f.width = prev.width → f.height = prev.height → last = prev.picture.bgra) :
    Evrtck.Covered ⟨last, f.width.toNat, f.height.toNat, false, none⟩ f.picture.bgra
      (evrtckCopyRects f f.width f.height) (evrtckDirtyRects f f.width f.height) := by
  intro x hx y hy hdiffers
  have hmarks : f.frameMeta.Marks x y := by
    apply hexplains x hx y hy
    intro hwidth hheight
    rw [← hlast hwidth hheight]
    have hcopy : applyCopyRects last f.width.toNat f.height.toNat
        (evrtckCopyRects f f.width f.height) =
        applyCopyRects last f.width.toNat f.height.toNat
          (f.frameMeta.moveRects.map CaptureMoveRect.copyRect) := by
      rw [evrtckCopyRects, if_pos ⟨rfl, rfl⟩]
      exact applyCopyRects_without last fun rect hvalid => not_empty_of_isValid hvalid
    rw [← hcopy]
    exact hdiffers
  obtain ⟨rect, hrect, hleft, hright, htop, hbottom⟩ := hmarks
  refine ⟨rect.dirtyRect, ?_, hleft, hright, htop, hbottom⟩
  rw [evrtckDirtyRects, if_pos ⟨rfl, rfl⟩, List.mem_filter]
  refine ⟨List.mem_map_of_mem hrect, decide_eq_true ⟨?_, ?_⟩⟩
  · exact UInt32.lt_iff_toNat_lt.mpr (Nat.lt_of_le_of_lt hleft hright)
  · exact UInt32.lt_iff_toNat_lt.mpr (Nat.lt_of_le_of_lt htop hbottom)

/-! Calls on the encoder. -/

theorem callsOf_cons (frame : Encoded) (frames : List Encoded) :
    callsOf (frame :: frames) = callsOf frames ++ frame.calls := by
  simp [callsOf]

namespace EncodeLoop

section Waits

variable {cfg : EncodeLoopConfig} {s : EncodeLoop} {i : Iteration}

theorem capture_waiting {result : CaptureResult} (h : s.Waiting)
    (hcovers : s.CapturesCover (.capture result)) :
    Waiting { s with capture := s.capture.capture result } := by
  cases result with
  | frame width height bgra frameMeta =>
      have hshown : (s.capture.capture (.frame width height bgra frameMeta)).shown =
          ⟨width, height, ⟨s.capture.shown.length + 1, bgra⟩, frameMeta⟩ ::
            s.capture.shown := publish_shown _ _ _
      have hslot : (s.capture.capture (.frame width height bgra frameMeta)).slot =
          some ⟨width, height, ⟨s.capture.shown.length + 1, bgra⟩, frameMeta⟩ :=
        publish_slot _ _ _
      have hnonempty : (s.capture.capture (.frame width height bgra frameMeta)).shown ≠ [] := by
        rw [hshown]
        exact List.cons_ne_nil _ _
      refine ⟨fun _ => hnonempty, fun _ _ _ => hnonempty, fun _ => hnonempty, ?_⟩
      intro f hf _
      cases hslot.symm.trans hf
      exact ⟨s.capture.shown, hshown, h.frames_shown, hcovers⟩
  | noChange width height =>
      unfold Capture.capture
      dsimp only
      split
      next hlength =>
        have hshown : (s.capture.publish width height .default).shown = s.capture.shown :=
          publish_shown _ _ _
        refine ⟨?_, ?_, ?_, ?_⟩
        · dsimp only
          rw [hshown]
          intro hbuf
          rcases publish_buf (c := s.capture) width height .default with hsame | ⟨f, hf, hsame⟩
          · exact h.buf_shown (hsame ▸ hbuf)
          · exact h.slot_shown f hf (hsame ▸ hbuf)
        · intro f hf hpicture
          cases (publish_slot _ _ _).symm.trans hf
          dsimp only
          rw [hshown]
          exact h.buf_shown hpicture
        · intro hframes
          dsimp only
          rw [hshown]
          exact h.frames_shown hframes
        · intro f hf hrects
          cases (publish_slot _ _ _).symm.trans hf
          exact absurd rfl hrects
      · exact h

theorem picture_of_valid {f : CapturedFrame} (h : validGeometry f = true) :
    f.picture.bgra ≠ [] := by
  intro hempty
  simp only [validGeometry, hempty, List.length_nil, Bool.and_eq_true, bne_iff_ne, ne_eq,
    beq_iff_eq] at h
  obtain ⟨⟨hwidth, hheight⟩, hlength⟩ := h
  have hw : f.width.toNat ≠ 0 := fun hzero => hwidth (UInt32.toNat_inj.mp hzero)
  have hh : f.height.toNat ≠ 0 := fun hzero => hheight (UInt32.toNat_inj.mp hzero)
  have hpositive : 0 < f.width.toNat * f.height.toNat * 4 :=
    Nat.mul_pos (Nat.mul_pos (Nat.pos_of_ne_zero hw) (Nat.pos_of_ne_zero hh)) (by decide)
  omega

theorem take_waiting (h : s.Waiting) {next : EncodeLoop}
    (hcapture : next.capture = s.capture.take.1)
    (hframes : next.frames ≠ [] → s.capture.shown ≠ []) : next.Waiting := by
  refine ⟨?_, ?_, ?_, ?_⟩
  · rw [hcapture]
    exact h.buf_shown
  · intro f hf
    rw [hcapture] at hf
    cases hf
  · rw [hcapture]
    exact hframes
  · intro f hf
    rw [hcapture] at hf
    cases hf

end Waits

section Calls

variable {cfg : EncodeLoopConfig} {s : EncodeLoop} {i : Iteration} {f : CapturedFrame}

/-- What is called before the picture is encoded has no hints. -/
theorem setupCalls_complete (r : Reference) :
    reference.Along Complete r (s.setupCalls cfg i f) := by
  unfold setupCalls
  dsimp only
  split <;> split <;> split <;> simp [Complete]

/-- A new encoder has encoded nothing, and an old one is left as it is. -/
theorem setupCalls_run (r : Reference) :
    reference.run r (s.setupCalls cfg i f) =
      if s.encoder = some ((s.scaled cfg i f).1, (s.scaled cfg i f).2.1) then r
      else ⟨(s.scaled cfg i f).1.toNat, (s.scaled cfg i f).2.1.toNat, none⟩ := by
  unfold setupCalls
  dsimp only
  split <;> split <;> split <;> rfl

/-- Encoding leaves the dimensions. -/
theorem encodeCall_step (r : Reference) :
    (reference.step r (s.encodeCall cfg i f)).1 = ⟨r.width, r.height, (s.scaled cfg i f).2.2⟩ := by
  unfold encodeCall
  dsimp only
  split <;> rfl

theorem nextDownscale_ne (hne : s.downscaleTo ≠ some (f.width, f.height)) :
    s.nextDownscale cfg i f ≠ some (f.width, f.height) := by
  unfold nextDownscale
  split
  · split
    · exact clientCapResolution_ne _ _ _ _ _
    · exact hne
  · split
    · exact softwareEncoderDownscaleTarget_ne _ _ _
    · exact hne

/-- A picture that is encoded in the dimensions that it was captured in is encoded
as it was captured. -/
theorem scaled_same (hfsr : cfg.fsr = none) (hne : s.downscaleTo ≠ some (f.width, f.height))
    (hwidth : (s.scaled cfg i f).1 = f.width) (hheight : (s.scaled cfg i f).2.1 = f.height) :
    (s.scaled cfg i f).2.2 = f.picture.bgra := by
  unfold scaled at hwidth hheight ⊢
  cases hnext : s.nextDownscale cfg i f with
  | none => simp [processed, hfsr]
  | some dims =>
      rw [hnext] at hwidth hheight
      have hsame : s.nextDownscale cfg i f = some (f.width, f.height) := by
        rw [hnext, ← hwidth, ← hheight]
      exact absurd hsame (nextDownscale_ne hne)

/-- The last call is the complete hint that it needs to be. -/
theorem encodeCall_complete {r : Reference} (hfsr : cfg.fsr = none)
    (hne : s.downscaleTo ≠ some (f.width, f.height))
    (hrw : r.width = (s.scaled cfg i f).1.toNat)
    (hrh : r.height = (s.scaled cfg i f).2.1.toNat)
    (hprev : ∀ last, r.frame = some last →
      (s.scaled cfg i f).1 = f.width → (s.scaled cfg i f).2.1 = f.height →
      ∃ prev, f.Explains prev ∧
        (f.width = prev.width → f.height = prev.height → last = prev.picture.bgra)) :
    Complete r (s.encodeCall cfg i f) := by
  unfold encodeCall
  dsimp only
  split
  · trivial
  next hhints =>
    intro last hlast
    have hcaptured : (s.scaled cfg i f).1 = f.width ∧ (s.scaled cfg i f).2.1 = f.height := by
      by_contra hother
      apply hhints
      rw [evrtckCopyRects, evrtckDirtyRects, if_neg hother, if_neg hother]
      exact ⟨rfl, rfl⟩
    obtain ⟨hwidth, hheight⟩ := hcaptured
    obtain ⟨prev, hexplains, hsame⟩ := hprev last hlast hwidth hheight
    rw [hrw, hrh, scaled_same hfsr hne hwidth hheight, hwidth, hheight]
    exact hints_cover hexplains hsame

theorem encodeCall_unhinted (r : Reference) (h : f.frameMeta = .default) :
    Complete r (s.encodeCall cfg i f) := by
  have hnone : evrtckCopyRects f (s.scaled cfg i f).1 (s.scaled cfg i f).2.1 = [] ∧
      evrtckDirtyRects f (s.scaled cfg i f).1 (s.scaled cfg i f).2.1 = [] := by
    simp [evrtckCopyRects, evrtckDirtyRects, h, CaptureFrameMeta.default]
  unfold encodeCall
  dsimp only
  rw [if_pos (by simp [hnone])]
  trivial

end Calls

section Steps

variable {cfg : EncodeLoopConfig} {s : EncodeLoop} {i : Iteration}

/-- The encoder that is ready for a picture has its dimensions, and has encoded the
last frame or none. -/
theorem Encoding.ready (h : s.Encoding) (cfg : EncodeLoopConfig) (i : Iteration)
    (f : CapturedFrame) {r : Reference}
    (hr : r = reference.run (reference.run .start (callsOf s.frames)) (s.setupCalls cfg i f)) :
    r.width = (s.scaled cfg i f).1.toNat ∧ r.height = (s.scaled cfg i f).2.1.toNat ∧
      ∀ last, r.frame = some last → ∃ frame, s.frames.head? = some frame ∧
        frame.width = (s.scaled cfg i f).1 ∧ frame.height = (s.scaled cfg i f).2.1 ∧
        frame.bgra = last := by
  rw [hr, setupCalls_run]
  split
  next hold =>
    rw [h.encoder] at hold
    cases hhead : s.frames.head? with
    | none =>
        rw [hhead] at hold
        cases hold
    | some frame =>
        rw [hhead] at hold
        obtain ⟨hwidth, hheight⟩ := Prod.mk.inj (Option.some.inj hold)
        rw [h.referred frame hhead]
        refine ⟨congrArg UInt32.toNat hwidth, congrArg UInt32.toNat hheight, ?_⟩
        intro last hlast
        exact ⟨frame, rfl, hwidth, hheight, Option.some.inj hlast⟩
  next hnew =>
    refine ⟨rfl, rfl, ?_⟩
    intro last hlast
    cases hlast

theorem encode_encoding {f : CapturedFrame} (h : s.Encoding)
    (hcall : Complete (reference.run (reference.run .start (callsOf s.frames))
      (s.setupCalls cfg i f)) (s.encodeCall cfg i f)) : (s.encode cfg i f).Encoding := by
  obtain ⟨hframes, hencoder, _, _⟩ := encode_rest cfg s i f
  obtain ⟨hwidth, hheight, _⟩ := h.ready cfg i f rfl
  have hcalls : callsOf (s.encoded cfg i f :: s.frames) =
      callsOf s.frames ++ (s.setupCalls cfg i f ++ [s.encodeCall cfg i f]) :=
    callsOf_cons _ _
  refine ⟨?_, ?_, ?_⟩
  · rw [HintsComplete, hframes, hcalls, Machine.along_append, Machine.along_append]
    exact ⟨h.complete, setupCalls_complete _, hcall, trivial⟩
  · intro frame hhead
    rw [hframes] at hhead ⊢
    cases hhead
    rw [hcalls, Machine.run_append, Machine.run_append, Machine.run_cons, Machine.run_nil,
      encodeCall_step, hwidth, hheight]
    rfl
  · rw [hencoder, hframes]
    rfl

theorem iterate_encoding (h : s.Encoding) (hwaiting : s.Waiting)
    (hcurrent : s.HintsCurrent cfg (.iterate i)) : (s.iterate cfg i).Encoding := by
  cases hencode : s.toEncode cfg i with
  | none =>
      rcases iterate_quiet hencode with ⟨hsame, _⟩ | hquiet
      · rw [hsame]
        exact h
      · refine ⟨hquiet.frames ▸ h.complete, ?_, ?_⟩
        · rw [hquiet.frames]
          exact h.referred
        · rw [hquiet.frames, hquiet.encoder]
          exact h.encoder
  | some f =>
      obtain ⟨hstop, hslot, hvalid, hiterate⟩ := iterate_encodes hencode
      rw [hiterate]
      let seen : EncodeLoop := { s.observe i with capture := s.capture.take.1 }
      have hseen : seen.Encoding := ⟨h.complete, h.referred, h.encoder⟩
      apply encode_encoding hseen
      by_cases hrects : f.frameMeta = .default
      · exact encodeCall_unhinted _ hrects
      · obtain ⟨hfsr, hne, hlast⟩ := hcurrent f hencode hrects
        obtain ⟨older, hshown, holder, hexplains⟩ := hwaiting.waiting f hslot hrects
        obtain ⟨hwidth, hheight, hready⟩ := hseen.ready cfg i f rfl
        apply encodeCall_complete hfsr hne hwidth hheight
        intro last hframe hsameWidth hsameHeight
        obtain ⟨frame, hhead, hfw, hfh, rfl⟩ := hready last hframe
        have hsome : s.frames ≠ [] := by
          intro hnil
          have hnone : s.frames.head? = some frame := hhead
          rw [hnil] at hnone
          cases hnone
        cases older with
        | nil => exact absurd rfl (holder hsome)
        | cons prev older =>
            refine ⟨prev, hexplains prev rfl, ?_⟩
            intro hpw hph
            exact hlast frame older prev hhead hshown (hfw.trans hsameWidth)
              (hfh.trans hsameHeight) hpw.symm hph.symm

theorem iterate_waiting (h : s.Waiting) : (s.iterate cfg i).Waiting := by
  cases hencode : s.toEncode cfg i with
  | none =>
      rcases iterate_quiet hencode with ⟨hsame, _⟩ | hquiet
      · rw [hsame]
        exact h
      · rcases hquiet.capture with hcapture | hcapture
        · refine ⟨?_, ?_, ?_, ?_⟩
          · rw [hcapture]
            exact h.buf_shown
          · rw [hcapture]
            exact h.slot_shown
          · rw [hcapture, hquiet.frames]
            exact h.frames_shown
          · rw [hcapture, hquiet.frames]
            exact h.waiting
        · apply take_waiting h hcapture
          rw [hquiet.frames]
          exact h.frames_shown
  | some f =>
      obtain ⟨hstop, hslot, hvalid, hiterate⟩ := iterate_encodes hencode
      rw [hiterate]
      obtain ⟨_, _, hcapture, _⟩ := encode_rest cfg
        { s.observe i with capture := s.capture.take.1 } i f
      apply take_waiting h hcapture
      exact fun _ => h.slot_shown f hslot (picture_of_valid hvalid)

theorem step_hinting {input : EncodeLoopInput} (h : s.Encoding ∧ s.Waiting)
    (htold : s.CapturesCover input ∧ s.HintsCurrent cfg input) :
    ((encodeLoop cfg).step s input).1.Encoding ∧ ((encodeLoop cfg).step s input).1.Waiting := by
  obtain ⟨hencoding, hwaiting⟩ := h
  cases input with
  | capture result =>
      exact ⟨⟨hencoding.complete, hencoding.referred, hencoding.encoder⟩,
        capture_waiting hwaiting htold.1⟩
  | iterate i => exact ⟨iterate_encoding hencoding hwaiting htold.2, iterate_waiting hwaiting⟩
  | stop =>
      exact ⟨⟨hencoding.complete, hencoding.referred, hencoding.encoder⟩,
        ⟨hwaiting.buf_shown, hwaiting.slot_shown, hwaiting.frames_shown, hwaiting.waiting⟩⟩

theorem hinting_start (now : Nat) : (start now).Encoding ∧ (start now).Waiting := by
  refine ⟨⟨trivial, ?_, rfl⟩, ⟨?_, ?_, ?_, ?_⟩⟩
  · simp [start]
  · simp [start, Capture.start]
  · simp [start, Capture.start]
  · simp [start]
  · simp [start, Capture.start]

end Steps

end EncodeLoop

/-- Where pictures with rectangles come right after the frames that the encoder
knows, the hints leave out nothing. -/
theorem hints_complete {cfg : EncodeLoopConfig} {now : Nat} {inputs : List EncodeLoopInput}
    (hcover : (encodeLoop cfg).Along EncodeLoop.CapturesCover (EncodeLoop.start now) inputs)
    (hcurrent : (encodeLoop cfg).Along (EncodeLoop.HintsCurrent cfg) (EncodeLoop.start now)
      inputs) :
    HintsComplete ((encodeLoop cfg).run (EncodeLoop.start now) inputs).frames :=
  ((encodeLoop cfg).invariant (fun _ _ => EncodeLoop.step_hinting)
    (EncodeLoop.hinting_start now) ((encodeLoop cfg).along_and hcover hcurrent)).1.complete

/-- Two pixels, and where a picture of them changed. -/
def pixelPair (left right : UInt8) (changed : CaptureRect) : EncodeLoopInput :=
  .capture (.frame 2 1 [left, 0, 0, 255, right, 0, 0, 255] ⟨[changed], []⟩)

theorem hints_complete_two_frames :
    HintsComplete ((encodeLoop plainConfig).run (EncodeLoop.start 0)
      [pixelPair 0 0 ⟨0, 0, 2, 1⟩, .iterate (relayIteration 1000000 .ok),
        pixelPair 9 0 ⟨0, 0, 1, 1⟩, .iterate (relayIteration 20000000 .ok)]).frames := by
  apply hints_complete
  · refine ⟨?_, trivial, ?_, trivial, trivial⟩
    · intro prev hprev
      cases hprev
    · intro prev hprev
      cases hprev
      decide
  · refine ⟨trivial, ?_, trivial, ?_, trivial⟩
    · intro f hf _
      refine ⟨rfl, nofun, ?_⟩
      intro frame older prev hframe
      cases hframe
    · intro f hf _
      refine ⟨rfl, nofun, ?_⟩
      intro frame older prev hframe hshown _ _ _ _
      cases hframe
      cases hshown
      rfl

/-- The second of three pictures is overwritten in the slot, and its rectangle
with it. -/
theorem overwritten_rects_are_lost :
    ¬ ∀ (cfg : EncodeLoopConfig) (now : Nat) (inputs : List EncodeLoopInput),
      (encodeLoop cfg).Along EncodeLoop.CapturesCover (EncodeLoop.start now) inputs →
      HintsComplete ((encodeLoop cfg).run (EncodeLoop.start now) inputs).frames := by
  intro hall
  have hcover : (encodeLoop plainConfig).Along EncodeLoop.CapturesCover (EncodeLoop.start 0)
      [pixelPair 0 0 ⟨0, 0, 2, 1⟩, .iterate (relayIteration 1000000 .ok),
        pixelPair 9 0 ⟨0, 0, 1, 1⟩, pixelPair 9 9 ⟨1, 0, 2, 1⟩,
        .iterate (relayIteration 20000000 .ok)] := by
    refine ⟨?_, trivial, ?_, ?_, trivial, trivial⟩
    · intro prev hprev
      cases hprev
    · intro prev hprev
      cases hprev
      decide
    · intro prev hprev
      cases hprev
      decide
  obtain ⟨_, _, _, _, hlast, _⟩ := hall plainConfig 0 _ hcover
  obtain ⟨rect, hrect, hleft, _⟩ := hlast _ rfl 0 (by decide) 0 (by decide) (by decide)
  have honly : rect ∈ [Evrtck.DirtyRect.mk 1 0 2 1] := hrect
  rcases List.mem_singleton.mp honly with rfl
  exact absurd hleft (by decide)

end EvertyDesk.Host
