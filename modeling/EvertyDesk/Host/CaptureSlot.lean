import EvertyDesk.Lib.Machine
import Mathlib.Algebra.Group.Nat.Defs

/-!
The capture thread and the slot through which it hands pictures to the encoder
loop. The thread captures into a buffer of its own. While the slot is full the
two buffers change places, and a picture that was not taken is dropped; an empty
slot gets a copy.

The thread's buffer is not seen by the loop, so capturing a picture and putting
it into the slot is one step. A slot belongs to one display.
-/

namespace EvertyDesk.Host

structure CaptureRect where
  left : UInt32
  top : UInt32
  right : UInt32
  bottom : UInt32
deriving DecidableEq, Repr

structure CaptureMoveRect where
  sourceLeft : UInt32
  sourceTop : UInt32
  dest : CaptureRect
deriving DecidableEq, Repr

structure CaptureFrameMeta where
  dirtyRects : List CaptureRect
  moveRects : List CaptureMoveRect
deriving DecidableEq, Repr

def CaptureFrameMeta.default : CaptureFrameMeta := { dirtyRects := [], moveRects := [] }

/-- A picture, with the number of the capture that wrote it, which the code does
not read. -/
structure Picture where
  number : Nat
  bgra : List UInt8
deriving DecidableEq, Repr

structure CapturedFrame where
  width : UInt32
  height : UInt32
  picture : Picture
  frameMeta : CaptureFrameMeta
deriving DecidableEq, Repr

/-- A new picture in the thread's buffer, or the news that the screen has not
changed since the last one. -/
inductive CaptureResult where
  | frame (width height : UInt32) (bgra : List UInt8) (frameMeta : CaptureFrameMeta)
  | noChange (width height : UInt32)
deriving DecidableEq, Repr

structure Capture where
  buf : Picture
  slot : Option CapturedFrame
  /-- All pictures captured, the last one first. The code does not keep them. -/
  shown : List CapturedFrame
deriving DecidableEq, Repr

def frameByteLen (width height : UInt32) : Option Nat :=
  let bytes := width.toNat * height.toNat * 4
  if bytes < 2 ^ 64 then some bytes else none

namespace Capture

def start : Capture where
  buf := { number := 0, bgra := [] }
  slot := none
  shown := []

/-- The buffer goes into the slot. -/
def publish (c : Capture) (width height : UInt32) (frameMeta : CaptureFrameMeta) : Capture :=
  match c.slot with
  | some s =>
      if s.width = width ∧ s.height = height then
        { c with
          buf := s.picture
          slot := some { s with picture := c.buf, frameMeta := frameMeta } }
      else { c with slot := some ⟨width, height, c.buf, frameMeta⟩ }
  | none => { c with slot := some ⟨width, height, c.buf, frameMeta⟩ }

/-- A screen that has not changed is published again, if the buffer has the
length of its pictures; otherwise the result is that of another way to capture. -/
def capture (c : Capture) : CaptureResult → Capture
  | .frame width height bgra frameMeta =>
      let picture := { number := c.shown.length + 1, bgra := bgra }
      { c with
        buf := picture
        shown := ⟨width, height, picture, frameMeta⟩ :: c.shown }.publish width height frameMeta
  | .noChange width height =>
      if some c.buf.bgra.length = frameByteLen width height then
        c.publish width height .default
      else c

def take (c : Capture) : Capture × Option CapturedFrame := ({ c with slot := none }, c.slot)

end Capture

section Slot

variable {c : Capture}

theorem publish_slot (width height : UInt32) (frameMeta : CaptureFrameMeta) :
    (c.publish width height frameMeta).slot = some ⟨width, height, c.buf, frameMeta⟩ := by
  unfold Capture.publish
  split
  next s hslot =>
    split
    next hdims =>
      obtain ⟨rfl, rfl⟩ := hdims
      rfl
    · rfl
  · rfl

theorem publish_shown (width height : UInt32) (frameMeta : CaptureFrameMeta) :
    (c.publish width height frameMeta).shown = c.shown := by
  unfold Capture.publish
  split
  · split <;> rfl
  · rfl

/-- The thread's buffer keeps its picture or gets the one that was in the slot. -/
theorem publish_buf (width height : UInt32) (frameMeta : CaptureFrameMeta) :
    (c.publish width height frameMeta).buf = c.buf ∨
      ∃ s, c.slot = some s ∧ (c.publish width height frameMeta).buf = s.picture := by
  unfold Capture.publish
  split
  next s hslot =>
    split
    · exact .inr ⟨s, hslot, rfl⟩
    · exact .inl rfl
  · exact .inl rfl

end Slot

inductive SlotInput where
  | capture (result : CaptureResult)
  | take
deriving DecidableEq, Repr

def captureSlot : Machine Capture SlotInput (Option CapturedFrame) where
  step c
    | .capture result => (c.capture result, none)
    | .take => c.take

/-- The pictures that the loop takes, oldest first. -/
def taken (c : Capture) (inputs : List SlotInput) : List Picture :=
  ((captureSlot.outputs c inputs).filterMap id).map CapturedFrame.picture

/-- No picture is taken after a later one, unless the two are the same. -/
def NoTimeTravel (pictures : List Picture) : Prop :=
  pictures.Pairwise fun earlier later =>
    later.number < earlier.number → later.bgra = earlier.bgra

/-- When the screen has not changed and the slot is empty, the thread's buffer
holds the picture captured last. -/
def BufferCurrent (c : Capture) : SlotInput → Prop
  | .capture (.noChange width height) =>
      some c.buf.bgra.length = frameByteLen width height → c.slot = none →
        c.buf.number = c.shown.length
  | _ => True

/-- No picture that can still be taken is older than this one. -/
structure Capture.NoOlder (c : Capture) (number : Nat) : Prop where
  known : number ≤ c.shown.length
  buf_known : c.buf.number ≤ c.shown.length
  slot_known : ∀ s, c.slot = some s → s.picture.number ≤ c.shown.length
  slot : ∀ s, c.slot = some s → number ≤ s.picture.number
  buf : ∀ s, c.slot = some s → number ≤ c.buf.number

section Order

variable {c : Capture} {number : Nat}

theorem noOlder_start : Capture.start.NoOlder 0 where
  known := Nat.le_refl _
  buf_known := Nat.le_refl _
  slot_known := by simp [Capture.start]
  slot := by simp [Capture.start]
  buf := by simp [Capture.start]

/-- What is published must not be older than what was taken; the buffer that the
thread gets for it is not either. -/
theorem publish_noOlder (h : c.NoOlder number) (hbuf : number ≤ c.buf.number)
    (width height : UInt32) (frameMeta : CaptureFrameMeta) :
    (c.publish width height frameMeta).NoOlder number := by
  unfold Capture.publish
  split
  next s hslot =>
    split
    · exact ⟨h.known, h.slot_known s hslot,
        by rintro _ ⟨⟩; exact h.buf_known, by rintro _ ⟨⟩; exact hbuf,
        fun _ _ => h.slot s hslot⟩
    · exact ⟨h.known, h.buf_known, by rintro _ ⟨⟩; exact h.buf_known,
        by rintro _ ⟨⟩; exact hbuf, fun _ _ => hbuf⟩
  · exact ⟨h.known, h.buf_known, by rintro _ ⟨⟩; exact h.buf_known,
      by rintro _ ⟨⟩; exact hbuf, fun _ _ => hbuf⟩

theorem capture_noOlder (h : c.NoOlder number) {result : CaptureResult}
    (hcurrent : BufferCurrent c (.capture result)) :
    (c.capture result).NoOlder number := by
  cases result with
  | frame width height bgra frameMeta =>
      apply publish_noOlder
      · exact ⟨Nat.le_succ_of_le h.known, Nat.le_refl _,
          fun s hslot => Nat.le_succ_of_le (h.slot_known s hslot), h.slot,
          fun _ _ => Nat.le_succ_of_le h.known⟩
      · exact Nat.le_succ_of_le h.known
  | noChange width height =>
      unfold Capture.capture
      dsimp only
      split
      next hlength =>
        apply publish_noOlder h
        cases hslot : c.slot with
        | none =>
            rw [hcurrent hlength hslot]
            exact h.known
        | some s => exact h.buf s hslot
      · exact h

/-- From a state in which nothing older than what was taken can be taken, all that
is taken is in order. -/
theorem taken_from {inputs : List SlotInput} (h : c.NoOlder number)
    (hcurrent : captureSlot.Along BufferCurrent c inputs) :
    (∀ picture ∈ taken c inputs, number ≤ picture.number) ∧
      (taken c inputs).Pairwise fun earlier later => earlier.number ≤ later.number := by
  induction inputs generalizing c number with
  | nil => exact ⟨by simp [taken], List.Pairwise.nil⟩
  | cons input inputs ih =>
      obtain ⟨hthis, hrest⟩ := hcurrent
      cases input with
      | capture result => exact ih (capture_noOlder h hthis) hrest
      | take =>
          cases hslot : c.slot with
          | none =>
              have htaken : taken c (.take :: inputs) = taken c.take.1 inputs := by
                simp [taken, captureSlot, Capture.take, hslot]
              have hempty : c.take.1.NoOlder number :=
                ⟨h.known, h.buf_known, by simp [Capture.take], by simp [Capture.take],
                  by simp [Capture.take]⟩
              rw [htaken]
              exact ih hempty hrest
          | some s =>
              have htaken : taken c (.take :: inputs) = s.picture :: taken c.take.1 inputs := by
                simp [taken, captureSlot, Capture.take, hslot]
              have hempty : c.take.1.NoOlder s.picture.number :=
                ⟨h.slot_known s hslot, h.buf_known, by simp [Capture.take],
                  by simp [Capture.take], by simp [Capture.take]⟩
              obtain ⟨hlater, hordered⟩ := ih hempty hrest
              rw [htaken]
              refine ⟨?_, List.pairwise_cons.mpr ⟨hlater, hordered⟩⟩
              intro picture hpicture
              rcases List.mem_cons.mp hpicture with rfl | hpicture
              · exact h.slot s hslot
              · exact Nat.le_trans (h.slot s hslot) (hlater picture hpicture)

/-- Without a stale buffer being published, there is no time travel. -/
theorem no_time_travel {inputs : List SlotInput}
    (h : captureSlot.Along BufferCurrent Capture.start inputs) :
    NoTimeTravel (taken Capture.start inputs) :=
  (taken_from noOlder_start h).2.imp fun hle hlt => absurd hlt (Nat.not_lt.mpr hle)

end Order

theorem no_time_travel_two_pictures :
    NoTimeTravel (taken Capture.start
      [.capture (.frame 1 1 [1, 2, 3, 4] .default), .take,
        .capture (.frame 1 1 [5, 6, 7, 8] .default), .take,
        .capture (.noChange 1 1), .take]) :=
  no_time_travel ⟨trivial, trivial, trivial, trivial, fun _ _ => rfl, trivial, trivial⟩

/-- Two pictures before the first is taken, and then no change. -/
theorem swapped_buffer_travels :
    ¬ ∀ inputs : List SlotInput, NoTimeTravel (taken Capture.start inputs) := by
  intro hall
  have htravels := hall [.capture (.frame 1 1 [1, 2, 3, 4] .default),
    .capture (.frame 1 1 [5, 6, 7, 8] .default), .take, .capture (.noChange 1 1), .take]
  have htaken : taken Capture.start [.capture (.frame 1 1 [1, 2, 3, 4] .default),
      .capture (.frame 1 1 [5, 6, 7, 8] .default), .take, .capture (.noChange 1 1),
      .take] = [⟨2, [5, 6, 7, 8]⟩, ⟨1, [1, 2, 3, 4]⟩] := by decide
  rw [htaken, NoTimeTravel, List.pairwise_pair] at htravels
  exact absurd (htravels (by decide)) (by decide)

end EvertyDesk.Host
