import EvertyDesk.Host.VmBridge
import Mathlib.Algebra.Order.Field.Basic
import Mathlib.Algebra.Order.Field.Rat
import Mathlib.Tactic.FieldSimp
import Mathlib.Tactic.Linarith
import Mathlib.Tactic.Ring

/-!
The mouse over the picture of a Hyper-V machine. A frame may be smaller than the screen of
the guest, and brings the size of that screen along; the session takes positions in pixels
of the guest, and is sent those of the picture.
-/

namespace EvertyDesk.Host

/-- A frame of a Hyper-V session. -/
structure HyperVFrame where
  rgba : List UInt8
  width : UInt32
  height : UInt32
  guestWidth : UInt32
  guestHeight : UInt32
deriving DecidableEq

/-- What the pump passes on of a frame. -/
def HyperVFrame.picture (frame : HyperVFrame) : VmPicture where
  width := frame.width
  height := frame.height
  rgba := frame.rgba

/-- The commands that a mouse event is turned into, with the size of the picture. -/
def VmShared.routeMouse (s : VmShared) (ev : MouseEvent) : List HyperVCmd :=
  if s.attachedId.isSome ∧ s.provider ≠ some .vbox ∧ s.hypervCmdTx.isSome then
    dispatchMouse ev (max s.width 1) (max s.height 1)
  else []

/-- An attached machine, and the frame that the client sees of it. The code does not keep
the frame. -/
structure PointerSession where
  shared : VmShared
  shown : Option HyperVFrame
deriving DecidableEq

def PointerSession.start (vmId : String) (session : Nat) : PointerSession where
  shared := { VmShared.default.beginAttach .hyperv vmId with hypervCmdTx := some session }
  shown := none

inductive PointerInput where
  | frame (frame : HyperVFrame)
  | mouse (ev : MouseEvent)
deriving DecidableEq

/-- Frames and mouse events in any order, with the commands that are sent. -/
def pointerSession : Machine PointerSession PointerInput (List HyperVCmd) where
  step s
    | .frame frame =>
        ({ shared := s.shared.pushFrame s.shared.generation frame.picture
           shown := some frame }, [])
    | .mouse ev => (s, s.shared.routeMouse ev)

/-- The event lies inside the picture. -/
def MouseEvent.Inside (ev : MouseEvent) (frame : HyperVFrame) : Prop :=
  0 ≤ ev.x ∧ ev.x.toInt < frame.width.toNat ∧ 0 ≤ ev.y ∧ ev.y.toInt < frame.height.toNat

instance (ev : MouseEvent) (frame : HyperVFrame) : Decidable (ev.Inside frame) :=
  inferInstanceAs (Decidable (_ ∧ _))

/-- The event has a position for the machine. -/
def MouseEvent.Moves (ev : MouseEvent) : Prop :=
  ev.mask &&& 7 = evtMove ∨ ev.mask &&& 7 = evtDown ∨ ev.mask &&& 7 = evtUp

/-- The pixel of the guest that belongs to a pixel of the picture, up to rounding. -/
def GuestPixel (sent guest size position : Int) : Prop :=
  |(sent : ℚ) - (position : ℚ) * guest / size| < 1

/-- Every move that is sent for an event inside the picture goes to the pixel of the guest
that is seen there. -/
def PointsAtGuest (s : PointerSession) : PointerInput → Prop
  | .frame _ => True
  | .mouse ev => ∀ frame, s.shown = some frame → ev.Inside frame →
      ∀ nx ny, HyperVCmd.moveMouse nx ny ∈ s.shared.routeMouse ev →
        GuestPixel nx.toNat frame.guestWidth.toNat frame.width.toNat ev.x.toInt ∧
          GuestPixel ny.toNat frame.guestHeight.toNat frame.height.toNat ev.y.toInt

/-- So close to the corner the picture and the guest do not come apart by a pixel. -/
def NearOrigin (guest size position : Int) : Prop := position * |guest - size| < size

/-- Every event with a position is so close to the corner that the scale does not
matter. -/
def ScaleIrrelevant (s : PointerSession) : PointerInput → Prop
  | .frame _ => True
  | .mouse ev => ∀ frame, s.shown = some frame → ev.Inside frame → ev.Moves →
      NearOrigin frame.guestWidth.toNat frame.width.toNat ev.x.toInt ∧
        NearOrigin frame.guestHeight.toNat frame.height.toNat ev.y.toInt

/-- The machine is attached with its channel, and what the state knows of the picture is
its size. -/
structure PointerSession.Attached (s : PointerSession) : Prop where
  attachedId : s.shared.attachedId.isSome
  provider : s.shared.provider = some .hyperv
  channel : s.shared.hypervCmdTx.isSome
  size : ∀ frame, s.shown = some frame →
    s.shared.width = frame.width ∧ s.shared.height = frame.height

theorem start_attached (vmId : String) (session : Nat) :
    (PointerSession.start vmId session).Attached where
  attachedId := rfl
  provider := rfl
  channel := rfl
  size frame h := by cases h

theorem attached_step {s : PointerSession} (h : s.Attached) (i : PointerInput) :
    (pointerSession.step s i).1.Attached := by
  cases i with
  | frame frame =>
      simp only [pointerSession, VmShared.pushFrame, if_true]
      refine { h with size := fun shown hshown => ?_ }
      obtain rfl := Option.some.inj hshown
      exact ⟨rfl, rfl⟩
  | mouse ev => exact h

/-! One event. -/

theorem max_zero {x : Int32} (h : 0 ≤ x) : max x 0 = x := by
  have hdef : max x 0 = if x ≤ 0 then 0 else x := rfl
  rw [hdef]
  split_ifs with hle
  · exact Int32.le_antisymm h hle
  · rfl

theorem toNat_toUInt32 {x : Int32} (h : 0 ≤ x) : (x.toUInt32.toNat : Int) = x.toInt := by
  have hcond : x.toInt = if 2 * x.toUInt32.toNat < 2 ^ 32 then (x.toUInt32.toNat : Int)
      else x.toUInt32.toNat - (2 ^ 32 : Nat) := BitVec.toInt_eq_toNat_cond x.toBitVec
  have hx : 0 ≤ x.toInt := Int32.le_iff_toInt_le.mp h
  have hlt := x.toUInt32.toNat_lt
  split_ifs at hcond <;> omega

theorem max_one {w : UInt32} (h : 1 ≤ w.toNat) : max w 1 = w := by
  have hdef : max w 1 = if w ≤ 1 then 1 else w := rfl
  have hone : (1 : UInt32).toNat = 1 := rfl
  rw [hdef]
  split_ifs with hle
  · have hsmall := UInt32.le_iff_toNat_le.mp hle
    apply UInt32.toNat_inj.mp
    omega
  · rfl

/-- A coordinate inside the picture is sent as it is. -/
theorem clamp_inside {x : Int32} {w : UInt32} (hlow : 0 ≤ x) (hhigh : x.toInt < w.toNat) :
    ((min (max x 0).toUInt32 (max w 1 - 1)).toNat : Int) = x.toInt := by
  have hx := toNat_toUInt32 hlow
  have hone : (1 : UInt32).toNat = 1 := rfl
  have hwide : (1 : UInt32) ≤ w := UInt32.le_iff_toNat_le.mpr (by omega)
  have hmin : x.toUInt32 ≤ w - 1 := by
    rw [UInt32.le_iff_toNat_le, UInt32.toNat_sub_of_le _ _ hwide]
    omega
  have hkept : min x.toUInt32 (w - 1) = x.toUInt32 := if_pos hmin
  rw [max_zero hlow, max_one (by omega), hkept, hx]

theorem guestPixel_iff (guest : Int) {size position : Int} (hsize : 0 < size)
    (hposition : 0 ≤ position) :
    GuestPixel position guest size position ↔ NearOrigin guest size position := by
  have hrat : (0 : ℚ) < size := by exact_mod_cast hsize
  have hoff : (position : ℚ) - position * guest / size = -(position * (guest - size)) / size := by
    field_simp
    ring
  rw [GuestPixel, hoff, abs_div, abs_neg, abs_mul, abs_of_pos hrat, div_lt_one hrat,
    abs_of_nonneg (by exact_mod_cast hposition : (0 : ℚ) ≤ position), NearOrigin]
  exact_mod_cast Iff.rfl

/-- An event with a position sends one move, and one without sends none. -/
theorem moveMouse_mem_dispatchMouse {ev : MouseEvent} {w h nx ny : UInt32} :
    HyperVCmd.moveMouse nx ny ∈ dispatchMouse ev w h ↔
      ev.Moves ∧ nx = min (max ev.x 0).toUInt32 (w - 1) ∧
        ny = min (max ev.y 0).toUInt32 (h - 1) := by
  unfold dispatchMouse
  by_cases hmoves : ev.Moves
  · have hmask : ev.mask &&& 7 = evtMove ∨ ev.mask &&& 7 = evtDown ∨ ev.mask &&& 7 = evtUp := hmoves
    simp only [hmask, if_true, List.mem_cons, HyperVCmd.moveMouse.injEq, hmoves, true_and]
    refine or_iff_left ?_
    split_ifs
    · cases vmButton (ev.mask >>> 3) with
      | none => simp
      | some button => simp
    · exact List.not_mem_nil
  · have hmask : ¬ (ev.mask &&& 7 = evtMove ∨ ev.mask &&& 7 = evtDown ∨ ev.mask &&& 7 = evtUp) :=
      hmoves
    simp [hmask, hmoves]

theorem pointsAtGuest_iff {s : PointerSession} (h : s.Attached) (i : PointerInput) :
    PointsAtGuest s i ↔ ScaleIrrelevant s i := by
  cases i with
  | frame frame => exact Iff.rfl
  | mouse ev =>
      refine forall_congr' fun frame => imp_congr_right fun hshown =>
        imp_congr_right fun hinside => ?_
      obtain ⟨hxlow, hxhigh, hylow, hyhigh⟩ := hinside
      obtain ⟨hwidth, hheight⟩ := h.size frame hshown
      have hcommands : s.shared.routeMouse ev =
          dispatchMouse ev (max frame.width 1) (max frame.height 1) := by
        rw [VmShared.routeMouse, if_pos ⟨h.attachedId, by simp [h.provider], h.channel⟩,
          hwidth, hheight]
      have hx : 0 ≤ ev.x.toInt := Int32.le_iff_toInt_le.mp hxlow
      have hy : 0 ≤ ev.y.toInt := Int32.le_iff_toInt_le.mp hylow
      have hpixelX := guestPixel_iff frame.guestWidth.toNat (hx.trans_lt hxhigh) hx
      have hpixelY := guestPixel_iff frame.guestHeight.toNat (hy.trans_lt hyhigh) hy
      rw [hcommands, ← hpixelX, ← hpixelY]
      constructor
      · intro hall hmoves
        have hsent := hall _ _ (moveMouse_mem_dispatchMouse.mpr ⟨hmoves, rfl, rfl⟩)
        rwa [clamp_inside hxlow hxhigh, clamp_inside hylow hyhigh] at hsent
      · intro hnear nx ny hmem
        obtain ⟨hmoves, rfl, rfl⟩ := moveMouse_mem_dispatchMouse.mp hmem
        rw [clamp_inside hxlow hxhigh, clamp_inside hylow hyhigh]
        exact hnear hmoves

/-- Whatever frames come in between, the moves of a session point at the pixels of the
guest exactly as long as the events are so close to the corner that the scale of the
picture does not matter. -/
theorem pointsAtGuest_along_iff (vmId : String) (session : Nat) (inputs : List PointerInput) :
    pointerSession.Along PointsAtGuest (PointerSession.start vmId session) inputs ↔
      pointerSession.Along ScaleIrrelevant (PointerSession.start vmId session) inputs := by
  apply Machine.along_congr
  · intro s i h
    exact ⟨pointsAtGuest_iff h i, fun _ => attached_step h i⟩
  · exact start_attached vmId session

/-! A picture of half the size. -/

def halfSizedFrame : HyperVFrame where
  rgba := []
  width := 960
  height := 540
  guestWidth := 1920
  guestHeight := 1080

/-- In its middle the pixel of the picture is sent, and not that of the guest. -/
theorem middle_of_half_sized_frame :
    ¬ pointerSession.Along PointsAtGuest (PointerSession.start "vm" 0)
      [.frame halfSizedFrame, .mouse ⟨0, 480, 270⟩] := by
  rintro ⟨_, hmouse, _⟩
  have hpixel := hmouse halfSizedFrame rfl (by decide) 480 270 (by decide)
  have hx : GuestPixel 480 1920 960 480 := hpixel.1
  norm_num [GuestPixel] at hx

end EvertyDesk.Host
