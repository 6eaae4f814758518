import EvertyDesk.HyperV.InputThread
import EvertyDesk.Lib.Machine
import EvertyDesk.Lib.TruncatedSteps

/-!
Moves of the mouse in a Hyper-V session. A PS/2 mouse takes relative moves only: the
distance from the position before is scaled and truncated, and the new position is the one
that the next distance counts from, whatever the truncation has left off.

Every call succeeds.
-/

namespace EvertyDesk.HyperV

open TruncatedSteps

inductive MouseDeviceKind where
  | syntheticAbsolute
  | ps2Relative
  | legacyAbsolute
deriving DecidableEq, Repr

inductive MouseRequest where
  | setAbsolutePosition (horizontal vertical : Nat)
  | setRelativePosition (horizontalDelta verticalDelta : Int)
deriving DecidableEq, Repr

def relativeDelta (x last : UInt32) : Int :=
  max (-127) (min (((x.toNat - last.toNat : Int) * 127).tdiv 65535) 127)

/-- What is asked of the mouse for a move, and the position that is remembered. -/
def mouseMoveExec (kind : MouseDeviceKind) (x y : UInt32) (lastAbs : Option Position) :
    Option MouseRequest × Option Position :=
  match kind with
  | .syntheticAbsolute | .legacyAbsolute =>
      (some (.setAbsolutePosition (min x.toNat 65535) (min y.toNat 65535)), some (x, y))
  | .ps2Relative =>
      match lastAbs with
      | none => (none, some (x, y))
      | some (lx, ly) =>
          let dx := relativeDelta x lx
          let dy := relativeDelta y ly
          if dx = 0 ∧ dy = 0 then (none, some (x, y))
          else (some (.setRelativePosition dx dy), some (x, y))

/-- The mouse of a session under moves, with what is asked of it for each. -/
def sessionMouse (kind : MouseDeviceKind) :
    Machine (Option Position) Position (Option MouseRequest) where
  step lastAbs position :=
    let (request, next) := mouseMoveExec kind position.1 position.2 lastAbs
    (next, request)

def horizontalDelta : Option MouseRequest → Int
  | some (.setRelativePosition dx _) => dx
  | _ => 0

def verticalDelta : Option MouseRequest → Int
  | some (.setRelativePosition _ dy) => dy
  | _ => 0

/-- A position with coordinates from 0 to 65535. -/
abbrev NormalPosition := UInt16 × UInt16

def NormalPosition.wide (position : NormalPosition) : Position :=
  (position.1.toUInt32, position.2.toUInt32)

/-- What is asked of a PS/2 mouse in a session, from the first move on. -/
def relativeRequests (first : NormalPosition) (later : List NormalPosition) :
    List (Option MouseRequest) :=
  (sessionMouse .ps2Relative).outputs none ((first :: later).map NormalPosition.wide)

def abscissas (positions : List NormalPosition) : List Int :=
  positions.map fun position => position.1.toNat

def ordinates (positions : List NormalPosition) : List Int :=
  positions.map fun position => position.2.toNat

/-- After these moves the deltas sent on both axes add up to the scaled way from the first
position to the last, up to less than one unit. -/
def WithoutDrift (first : NormalPosition) (later : List NormalPosition) : Prop :=
  let last := later.getLast?.getD first
  |(((relativeRequests first later).map horizontalDelta).sum : ℚ) -
      ((last.1.toNat : ℚ) - first.1.toNat) * 127 / 65535| < 1 ∧
    |(((relativeRequests first later).map verticalDelta).sum : ℚ) -
      ((last.2.toNat : ℚ) - first.2.toNat) * 127 / 65535| < 1

/-- On both axes the truncated parts of the distances so far, which are counted in parts of
65535 and with the sign of the distance, add up to less than one unit. -/
def SmallLosses (first : NormalPosition) (later : List NormalPosition) : Prop :=
  |total (loss 127 65535) first.1.toNat (abscissas later)| < 65535 ∧
    |total (loss 127 65535) first.2.toNat (ordinates later)| < 65535

/-! One move. -/

/-- Within the normal coordinates nothing is clamped. -/
theorem relativeDelta_eq (x last : UInt16) :
    relativeDelta x.toUInt32 last.toUInt32 = step 127 65535 last.toNat x.toNat := by
  have hx := x.toNat_lt
  have hlast := last.toNat_lt
  have hmul := den_mul_step 127 65535 last.toNat x.toNat
  have hlow : -65535 < loss 127 65535 last.toNat x.toNat := Int.lt_tmod_of_pos _ (by omega)
  have hhigh : loss 127 65535 last.toNat x.toNat < 65535 := Int.tmod_lt_of_pos _ (by omega)
  rw [relativeDelta, UInt16.toNat_toUInt32, UInt16.toNat_toUInt32, mul_comm, ← step]
  omega

/-- Each move counts from the position before, and what is sent of it is the truncated
distance. -/
theorem sessionMouse_step (last position : NormalPosition) :
    ∃ request, (sessionMouse .ps2Relative).step (some last.wide) position.wide =
        (some position.wide, request) ∧
      horizontalDelta request = step 127 65535 last.1.toNat position.1.toNat ∧
      verticalDelta request = step 127 65535 last.2.toNat position.2.toNat := by
  simp only [sessionMouse, mouseMoveExec, NormalPosition.wide, relativeDelta_eq]
  split_ifs with hstill
  · exact ⟨_, rfl, hstill.1.symm, hstill.2.symm⟩
  · exact ⟨_, rfl, rfl, rfl⟩

/-! Whole sessions. -/

theorem outputs_deltas (last : NormalPosition) (later : List NormalPosition) :
    let requests := (sessionMouse .ps2Relative).outputs (some last.wide)
      (later.map NormalPosition.wide)
    (requests.map horizontalDelta).sum = total (step 127 65535) last.1.toNat (abscissas later) ∧
      (requests.map verticalDelta).sum = total (step 127 65535) last.2.toNat (ordinates later) := by
  induction later generalizing last with
  | nil => exact ⟨rfl, rfl⟩
  | cons position later ih =>
      obtain ⟨request, hstep, hhorizontal, hvertical⟩ := sessionMouse_step last position
      obtain ⟨hx, hy⟩ := ih position
      simp only [List.map_cons, Machine.outputs_cons, hstep, List.sum_cons, hhorizontal,
        hvertical, hx, hy]
      exact ⟨rfl, rfl⟩

/-- The first move is only remembered. -/
theorem relativeRequests_deltas (first : NormalPosition) (later : List NormalPosition) :
    ((relativeRequests first later).map horizontalDelta).sum =
        total (step 127 65535) first.1.toNat (abscissas later) ∧
      ((relativeRequests first later).map verticalDelta).sum =
        total (step 127 65535) first.2.toNat (ordinates later) := by
  obtain ⟨hx, hy⟩ := outputs_deltas first later
  constructor
  · exact (zero_add _).trans hx
  · exact (zero_add _).trans hy

theorem arrival_map (coordinate : NormalPosition → Int) (first : NormalPosition)
    (later : List NormalPosition) :
    arrival (coordinate first) (later.map coordinate) = coordinate (later.getLast?.getD first) := by
  induction later generalizing first with
  | nil => rfl
  | cons position later ih =>
      rw [List.map_cons, arrival, ih, List.getLast?_cons, Option.getD_some]

theorem withoutDrift_iff (first : NormalPosition) (later : List NormalPosition) :
    WithoutDrift first later ↔ SmallLosses first later := by
  obtain ⟨hx, hy⟩ := relativeRequests_deltas first later
  have hlastX := arrival_map (fun position => position.1.toNat) first later
  have hlastY := arrival_map (fun position => position.2.toNat) first later
  have hnearX := near_iff 127 65535 (by omega) first.1.toNat (abscissas later)
  have hnearY := near_iff 127 65535 (by omega) first.2.toNat (ordinates later)
  rw [abscissas, hlastX] at hnearX
  rw [ordinates, hlastY] at hnearY
  rw [WithoutDrift, hx, hy, SmallLosses]
  exact and_congr hnearX hnearY

/-- In every session the mouse is without drift after each move exactly as long as what is
truncated stays small. -/
theorem mouse_without_drift_iff (first : NormalPosition) (moves : List NormalPosition) :
    (∀ before after, moves = before ++ after → WithoutDrift first before) ↔
      ∀ before after, moves = before ++ after → SmallLosses first before :=
  forall_congr' fun before => forall_congr' fun _ =>
    imp_congr_right fun _ => withoutDrift_iff first before

/-- Two moves by 516 are almost two units together, of which none is sent. -/
theorem small_moves_drift :
    ¬ ∀ before after, [(516, 0), (1032, 0)] = before ++ after → WithoutDrift (0, 0) before := by
  intro h
  have hlast := (h _ [] (List.append_nil _).symm).1
  have hsent : ((relativeRequests (0, 0) [(516, 0), (1032, 0)]).map horizontalDelta).sum = 0 := by
    decide
  have hend : UInt16.toNat 1032 = 1032 := rfl
  rw [hsent] at hlast
  norm_num [hend, abs_div, abs_mul] at hlast

end EvertyDesk.HyperV
