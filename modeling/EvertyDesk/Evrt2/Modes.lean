import EvertyDesk.Evrt2.EncryptedSession
import EvertyDesk.Lib.Binary32
import EvertyDesk.Lib.Machine

/-!
The mode selector of a session: from what is measured of the link and the picture, the
mode to switch to. Between the static and the gaming mode every way leads through the
video mode, and a switch is not taken back while the signals stay.
-/

namespace EvertyDesk.Evrt2

/-- Durations are in nanoseconds. -/
structure ModeSignals where
  motionRatio : F32
  idleDuration : Nat
  gameDetected : Bool
  siliconAvailable : Bool
  bandwidthBps : UInt32
  userRequestedGameMode : Bool
deriving DecidableEq, Repr

/-- The number 0.30. -/
def motionThresholdArTo2R : F32 := ⟨0x3E99999A⟩
/-- The number 0.70. -/
def motionThreshold2RTo47 : F32 := ⟨0x3F333333⟩
def idleDurationForAr : Nat := 5 * 10 ^ 9
def bandwidthForcesArBps : UInt32 := 200000

namespace ModeSignals

variable (signals : ModeSignals)

/-- The bandwidth is below the floor. -/
def Starved : Prop := signals.bandwidthBps < bandwidthForcesArBps

instance : Decidable signals.Starved :=
  inferInstanceAs (Decidable (signals.bandwidthBps < bandwidthForcesArBps))

def wantsGame : Bool :=
  signals.userRequestedGameMode ||
    (signals.gameDetected && motionThreshold2RTo47.lt signals.motionRatio)

end ModeSignals

structure ModeSelector where
  current : Mode
deriving DecidableEq, Repr

namespace ModeSelector

def new (initial : Mode) : ModeSelector where
  current := initial

/-- The mode to switch to and why, or `none` to stay. -/
def evaluate (s : ModeSelector) (signals : ModeSignals) : Option (Mode × SwitchReason) :=
  if signals.bandwidthBps < bandwidthForcesArBps ∧ s.current ≠ .ar then
    some (.ar, .bandwidthForcedAr)
  else
    match s.current with
    | .ar =>
        if motionThresholdArTo2R.le signals.motionRatio ∧
            signals.bandwidthBps ≥ bandwidthForcesArBps then
          some (.r2, .motionIncreased)
        else none
    | .r2 =>
        if signals.wantsGame then
          if signals.siliconAvailable then
            let reason :=
              if signals.userRequestedGameMode then .userRequested else .gameDetected
            some (.mode47, reason)
          else none
        else if signals.motionRatio.lt motionThresholdArTo2R ∧
            signals.idleDuration ≥ idleDurationForAr then
          some (.ar, .motionIdle)
        else none
    | .mode47 =>
        if !signals.siliconAvailable then some (.r2, .noSilicon)
        else if !signals.gameDetected && !signals.userRequestedGameMode then
          some (.r2, .gameExitedOrMinimized)
        else none

def apply (_ : ModeSelector) (newMode : Mode) : ModeSelector where
  current := newMode

/-- What is evaluated is applied: the packet that says so was sent. -/
def machine : Machine ModeSelector ModeSignals (Option (Mode × SwitchReason)) where
  step s signals :=
    match s.evaluate signals with
    | some (newMode, reason) => (s.apply newMode, some (newMode, reason))
    | none => (s, none)

variable {s : ModeSelector} {signals : ModeSignals}

theorem step_of_some {newMode : Mode} {reason : SwitchReason}
    (h : s.evaluate signals = some (newMode, reason)) :
    (machine.step s signals).1 = new newMode := by
  simp only [machine, h]
  rfl

theorem step_of_none (h : s.evaluate signals = none) : (machine.step s signals).1 = s := by
  simp only [machine, h]

/-- A selector that stays does so as long as the signals do. -/
theorem run_of_none (h : s.evaluate signals = none) (n : Nat) :
    machine.run s (List.replicate n signals) = s := by
  induction n with
  | zero => rfl
  | succ n ih =>
      rw [List.replicate_succ, Machine.run_cons, step_of_none h]
      exact ih

/-- A switch with reason to it. -/
def Switches (signals : ModeSignals) (mode newMode : Mode) : Prop :=
  ∃ reason, (new mode).evaluate signals = some (newMode, reason)

theorem settled_or_switches (signals : ModeSignals) (mode : Mode) :
    (new mode).evaluate signals = none ∨ ∃ newMode, Switches signals mode newMode := by
  cases h : (new mode).evaluate signals with
  | none => exact .inl rfl
  | some decision => exact .inr ⟨decision.1, decision.2, h⟩

/-- Below the floor, the static mode is forced and kept. -/
theorem evaluate_starved (h : signals.Starved) (mode : Mode) :
    (new mode).evaluate signals =
      if mode = .ar then none else some (.ar, .bandwidthForcedAr) := by
  have hfloor : ¬ signals.bandwidthBps ≥ bandwidthForcesArBps := UInt32.not_le.mpr h
  cases mode with
  | ar => simp [evaluate, new, hfloor]
  | r2 => simp [evaluate, new, show signals.bandwidthBps < bandwidthForcesArBps from h]
  | mode47 => simp [evaluate, new, show signals.bandwidthBps < bandwidthForcesArBps from h]

section Steady

variable (h : ¬ signals.Starved)

include h

theorem evaluate_ar : (new .ar).evaluate signals =
    if motionThresholdArTo2R.le signals.motionRatio then some (.r2, .motionIncreased)
    else none := by
  have hfloor : bandwidthForcesArBps ≤ signals.bandwidthBps := UInt32.not_lt.mp h
  simp [evaluate, new, hfloor]

theorem switches_r2 {newMode : Mode} : Switches signals .r2 newMode ↔
    if signals.wantsGame then signals.siliconAvailable = true ∧ newMode = .mode47
    else (signals.motionRatio.lt motionThresholdArTo2R = true ∧
      signals.idleDuration ≥ idleDurationForAr) ∧ newMode = .ar := by
  have hfloor : ¬ signals.bandwidthBps < bandwidthForcesArBps := h
  simp only [Switches, evaluate, new, hfloor, false_and, if_false]
  cases signals.wantsGame with
  | true =>
      cases signals.siliconAvailable with
      | true => simp [eq_comm (a := newMode)]
      | false => simp
  | false =>
      by_cases hidle : signals.motionRatio.lt motionThresholdArTo2R = true ∧
        signals.idleDuration ≥ idleDurationForAr
      · simp [hidle, eq_comm (a := newMode)]
      · simp [hidle]

theorem switches_mode47 {newMode : Mode} : Switches signals .mode47 newMode ↔
    (signals.siliconAvailable = false ∨
      signals.gameDetected = false ∧ signals.userRequestedGameMode = false) ∧
      newMode = .r2 := by
  have hfloor : ¬ signals.bandwidthBps < bandwidthForcesArBps := h
  simp only [Switches, evaluate, new, hfloor, false_and, if_false]
  cases signals.siliconAvailable with
  | false => simp [eq_comm (a := newMode)]
  | true =>
      cases signals.gameDetected <;> cases signals.userRequestedGameMode <;>
        simp [eq_comm (a := newMode)]

theorem switches_ar {newMode : Mode} : Switches signals .ar newMode ↔
    motionThresholdArTo2R.le signals.motionRatio = true ∧ newMode = .r2 := by
  rw [Switches, evaluate_ar h]
  cases motionThresholdArTo2R.le signals.motionRatio <;> simp [eq_comm (a := newMode)]

/-- Every switch is one into or out of the video mode. -/
theorem Switches.through_r2 {mode newMode : Mode} (hswitch : Switches signals mode newMode) :
    mode = .r2 ∧ newMode ≠ .r2 ∨ mode ≠ .r2 ∧ newMode = .r2 := by
  cases mode with
  | ar => exact .inr ⟨nofun, ((switches_ar h).mp hswitch).2⟩
  | mode47 => exact .inr ⟨nofun, ((switches_mode47 h).mp hswitch).2⟩
  | r2 =>
      have hnext := (switches_r2 h).mp hswitch
      split at hnext
      · exact .inl ⟨rfl, hnext.2 ▸ nofun⟩
      · exact .inl ⟨rfl, hnext.2 ▸ nofun⟩

/-- The video mode and a mode that it is left for: the way back is shut. -/
theorem not_switches_back {mode : Mode} (hswitch : Switches signals .r2 mode) :
    ¬ Switches signals mode .r2 := by
  have hnext := (switches_r2 h).mp hswitch
  split at hnext
  · next hwants =>
      -- a game is wanted and there is silicon for it, so it is not left
      obtain ⟨hsilicon, rfl⟩ := hnext
      intro hback
      rcases ((switches_mode47 h).mp hback).1 with hnone | ⟨hgame, huser⟩
      · rw [hsilicon] at hnone
        cases hnone
      · simp [ModeSignals.wantsGame, hgame, huser] at hwants
  · -- the motion is below the threshold, so it is not at or above it
    obtain ⟨⟨hstill, -⟩, rfl⟩ := hnext
    intro hback
    have hmoving := ((switches_ar h).mp hback).1
    rw [F32.not_le_of_lt hstill] at hmoving
    cases hmoving

/-- Two switches in a row are the last. -/
theorem settled_after_two {mode second third : Mode} (hfirst : Switches signals mode second)
    (hsecond : Switches signals second third) : (new third).evaluate signals = none := by
  rcases settled_or_switches signals third with hsettled | ⟨fourth, hthird⟩
  · exact hsettled
  exfalso
  rcases hsecond.through_r2 h with ⟨rfl, hthirdne⟩ | ⟨hsecondne, rfl⟩
  · obtain ⟨-, rfl⟩ | ⟨habsurd, -⟩ := (hthird.through_r2 h).symm
    · exact not_switches_back h hsecond hthird
    · exact hthirdne habsurd
  · obtain ⟨rfl, -⟩ | ⟨-, habsurd⟩ := hfirst.through_r2 h
    · exact not_switches_back h hfirst hsecond
    · exact hsecondne habsurd

end Steady

/-- Under signals that stay as they are, the selector switches `n` times and then stays. -/
structure SettlesIn (signals : ModeSignals) (n : Nat) (s fixed : ModeSelector) : Prop where
  settled : fixed.evaluate signals = none
  reached : ∀ m, n ≤ m → machine.run s (List.replicate m signals) = fixed
  switching : ∀ m < n, (machine.run s (List.replicate m signals)).evaluate signals ≠ none

theorem settlesIn_zero (h : s.evaluate signals = none) : SettlesIn signals 0 s s where
  settled := h
  reached m _ := run_of_none h m
  switching m hm := absurd hm (Nat.not_lt_zero m)

theorem run_switch {mode newMode : Mode} (h : Switches signals mode newMode) (n : Nat) :
    machine.run (new mode) (List.replicate (n + 1) signals) =
      machine.run (new newMode) (List.replicate n signals) := by
  obtain ⟨reason, hdecision⟩ := h
  rw [List.replicate_succ, Machine.run_cons, step_of_some hdecision]

theorem settlesIn_succ {mode newMode : Mode} {n : Nat} {fixed : ModeSelector}
    (h : Switches signals mode newMode) (hrest : SettlesIn signals n (new newMode) fixed) :
    SettlesIn signals (n + 1) (new mode) fixed where
  settled := hrest.settled
  reached m hm := by
    obtain ⟨m, rfl⟩ := Nat.exists_eq_add_one_of_ne_zero (show m ≠ 0 by omega)
    rw [run_switch h]
    exact hrest.reached m (by omega)
  switching m hm := by
    cases m with
    | zero =>
        obtain ⟨reason, hdecision⟩ := h
        simp [hdecision]
    | succ m =>
        rw [run_switch h]
        exact hrest.switching m (by omega)

/-- From every mode and under any signals that stay as they are, the selector comes to rest
after at most two switches, and in the static mode if the bandwidth is below the floor. -/
theorem modes_settle (mode : Mode) (signals : ModeSignals) :
    ∃ n ≤ 2, ∃ fixed, SettlesIn signals n (new mode) fixed ∧
      (signals.bandwidthBps < bandwidthForcesArBps → fixed.current = .ar) := by
  by_cases hstarved : signals.Starved
  · have hlast : SettlesIn signals 0 (new .ar) (new .ar) :=
      settlesIn_zero (evaluate_starved hstarved .ar)
    by_cases hmode : mode = .ar
    · exact ⟨0, by omega, new .ar, hmode ▸ hlast, fun _ => rfl⟩
    · have hfirst : Switches signals mode .ar :=
        ⟨.bandwidthForcedAr, by rw [evaluate_starved hstarved, if_neg hmode]⟩
      exact ⟨1, by omega, new .ar, settlesIn_succ hfirst hlast, fun _ => rfl⟩
  · have hfloor : ∀ fixed : ModeSelector,
        signals.bandwidthBps < bandwidthForcesArBps → fixed.current = .ar :=
      fun _ hlow => absurd hlow hstarved
    rcases settled_or_switches signals mode with hnone | ⟨second, hfirst⟩
    · exact ⟨0, by omega, new mode, settlesIn_zero hnone, hfloor _⟩
    rcases settled_or_switches signals second with hnone | ⟨third, hsecond⟩
    · exact ⟨1, by omega, new second, settlesIn_succ hfirst (settlesIn_zero hnone), hfloor _⟩
    · have hnone := settled_after_two hstarved hfirst hsecond
      exact ⟨2, by omega, new third,
        settlesIn_succ hfirst (settlesIn_succ hsecond (settlesIn_zero hnone)), hfloor _⟩

end ModeSelector

end EvertyDesk.Evrt2
