import EvertyDesk.Lib.Machine
import Mathlib.Order.Lattice

/-!
The software profile of the encode loop. While no hardware encoder is available the
loop lowers the frame rate and the quality that the client asked for, and it raises
them again when one is. Both are shared with the thread that takes the client's
commands, so every load and every store of the loop is a step of its own.

Whatever else an iteration does leaves the two alone and is left out.
-/

namespace EvertyDesk.Host

def softwareEncoderMaxFps : Nat := 15
def softwareEncoderMinQualityMilli : Nat := 1000
def softwareEncoderMaxQualityMilli : Nat := 1800

def clamp (n low high : Nat) : Nat := min (max n low) high

def softwareEncoderTargetFps (fps : Nat) : Nat := clamp fps 5 softwareEncoderMaxFps

def softwareEncoderQualityMilli (qualityMilli : Nat) : Nat :=
  clamp qualityMilli softwareEncoderMinQualityMilli softwareEncoderMaxQualityMilli

/-- A shared value, and what the loop has saved of it. -/
structure Setting where
  value : Nat
  beforeSoftwareProfile : Nat
  /-- The client's last request, and its last request when the loop saved the value. -/
  requested : Nat
  requestedBefore : Nat
  /-- The loop has put the software profile's value in its place since then. -/
  limited : Bool
deriving DecidableEq, Repr

namespace Setting

def start (value : Nat) : Setting where
  value := value
  beforeSoftwareProfile := 0
  requested := value
  requestedBefore := 0
  limited := false

variable (s : Setting) (value : Nat)

def request : Setting := { s with value := value, requested := value, limited := false }

def save : Setting := { s with beforeSoftwareProfile := s.value, requestedBefore := s.requested }

def limit : Setting := { s with value := value, limited := true }

def raise : Setting := { s with value := value, limited := false }

end Setting

/-- The next load or store of the loop, with what it has loaded for it. -/
inductive ProfilePoint where
  | top
  | clampFps (softwareFps : Nat)
  | loadQuality
  | clampQuality (softwareQuality : Nat)
  | loadFps
  | encode (fps : Nat)
  | saveFps (fps : Nat)
  | saveQuality (fps : Nat)
  | loadSoftwareFps (fps : Nat)
  | lowerFps (softwareFps : Nat)
  | loadSoftwareQuality
  | lowerQuality (softwareQuality : Nat)
  | loadRestoredFps
  | raiseFps (restoredFps : Nat)
  | loadRestoredQuality
  | raiseQuality (quality : Nat)
deriving DecidableEq, Repr

structure SoftwareProfile where
  targetFps : Setting
  qualityMs : Setting
  softwareProfileActive : Bool
  point : ProfilePoint
deriving DecidableEq, Repr

/-- What the loop's next step depends on. -/
structure ProfileTurn where
  usingEvrtck : Bool
  /-- Whether there is no hardware backend after the encode, if the iteration comes
  to one. -/
  isSoftware : Option Bool

inductive ProfileInput where
  | setFps (fps : Nat)
  | setQuality (quality : Nat)
  | advance (turn : ProfileTurn)

namespace SoftwareProfile

def start (initialTargetFps initialQualityMilli : Nat) : SoftwareProfile where
  targetFps := .start (clamp initialTargetFps 5 60)
  qualityMs := .start (max initialQualityMilli 1)
  softwareProfileActive := false
  point := .top

variable (s : SoftwareProfile)

/-- One load or store of the encode loop. -/
def advance (turn : ProfileTurn) : SoftwareProfile :=
  match s.point with
  | .top =>
      if s.softwareProfileActive && !turn.usingEvrtck then
        let softwareFps := softwareEncoderTargetFps s.targetFps.value
        if s.targetFps.value ≠ softwareFps then { s with point := .clampFps softwareFps }
        else { s with point := .loadQuality }
      else { s with point := .loadFps }
  | .clampFps softwareFps =>
      { s with targetFps := s.targetFps.limit softwareFps, point := .loadQuality }
  | .loadQuality =>
      let softwareQuality := softwareEncoderQualityMilli s.qualityMs.value
      if s.qualityMs.value ≠ softwareQuality then
        { s with point := .clampQuality softwareQuality }
      else { s with point := .loadFps }
  | .clampQuality softwareQuality =>
      { s with qualityMs := s.qualityMs.limit softwareQuality, point := .loadFps }
  | .loadFps => { s with point := .encode (clamp s.targetFps.value 5 60) }
  | .encode fps =>
      match turn.isSoftware with
      | none => { s with point := .top }
      | some isSoftware =>
          if isSoftware = s.softwareProfileActive then { s with point := .top }
          else
            { s with
              softwareProfileActive := isSoftware
              point := if isSoftware then .saveFps fps else .loadRestoredFps }
  | .saveFps fps => { s with targetFps := s.targetFps.save, point := .saveQuality fps }
  | .saveQuality fps =>
      { s with qualityMs := s.qualityMs.save, point := .loadSoftwareFps fps }
  | .loadSoftwareFps fps =>
      let softwareFps := softwareEncoderTargetFps s.targetFps.value
      if softwareFps < fps then { s with point := .lowerFps softwareFps }
      else { s with point := .loadSoftwareQuality }
  | .lowerFps softwareFps =>
      { s with targetFps := s.targetFps.limit softwareFps, point := .loadSoftwareQuality }
  | .loadSoftwareQuality =>
      { s with point := .lowerQuality (softwareEncoderQualityMilli s.qualityMs.value) }
  | .lowerQuality softwareQuality =>
      { s with qualityMs := s.qualityMs.limit softwareQuality, point := .top }
  | .loadRestoredFps =>
      let restoredFps := clamp s.targetFps.beforeSoftwareProfile 5 60
      if restoredFps > 0 ∧ s.targetFps.value < restoredFps then
        { s with point := .raiseFps restoredFps }
      else { s with point := .loadRestoredQuality }
  | .raiseFps restoredFps =>
      { s with targetFps := s.targetFps.raise restoredFps, point := .loadRestoredQuality }
  | .loadRestoredQuality =>
      let quality := s.qualityMs.beforeSoftwareProfile
      if quality > 0 ∧ s.qualityMs.value < quality then { s with point := .raiseQuality quality }
      else { s with point := .top }
  | .raiseQuality quality =>
      { s with qualityMs := s.qualityMs.raise quality, point := .top }

def step : ProfileInput → SoftwareProfile
  | .setFps fps => { s with targetFps := s.targetFps.request (clamp fps 5 60) }
  | .setQuality quality => { s with qualityMs := s.qualityMs.request quality }
  | .advance turn => s.advance turn

end SoftwareProfile

def softwareProfile : Machine SoftwareProfile ProfileInput Unit where
  step s input := (s.step input, ())

/-! What the client asked for last. -/

def lastFps (initial : Nat) (inputs : List ProfileInput) : Nat :=
  inputs.foldl (fun last input =>
    match input with
    | .setFps fps => clamp fps 5 60
    | _ => last) initial

def lastQuality (initial : Nat) (inputs : List ProfileInput) : Nat :=
  inputs.foldl (fun last input =>
    match input with
    | .setQuality quality => quality
    | _ => last) initial

namespace SoftwareProfile

variable (s : SoftwareProfile)

/-- The profile is off, and the loop is not just switching it. -/
def Inactive : Prop :=
  s.softwareProfileActive = false ∧
    match s.point with
    | .top | .loadFps | .encode _ => True
    | _ => False

/-- The loop has loaded the frame rate and is about to store another. -/
def StoresFps : Prop :=
  match s.point with
  | .clampFps _ | .lowerFps _ | .raiseFps _ => True
  | _ => False

def StoresQuality : Prop :=
  match s.point with
  | .clampQuality _ | .lowerQuality _ | .raiseQuality _ => True
  | _ => False

/-- What the client wants now is what it wanted when the profile was switched on, or
it is more, and the profile does not limit it or has not yet. -/
def FpsRegained : Prop :=
  s.targetFps.requestedBefore ≤ s.targetFps.requested ∧
    (s.targetFps.limited = true →
      s.targetFps.requested ≤ softwareEncoderMaxFps ∨
        s.targetFps.requested = s.targetFps.requestedBefore)

/-- The same of the quality, of which the profile has a least value as well. -/
def QualityRegained : Prop :=
  s.qualityMs.requestedBefore ≤ s.qualityMs.requested ∧
    (s.qualityMs.limited = true →
      softwareEncoderMinQualityMilli ≤ s.qualityMs.requested ∧
        (s.qualityMs.requested ≤ softwareEncoderMaxQualityMilli ∨
          s.qualityMs.requested = s.qualityMs.requestedBefore))

/-- No command comes between a load of the loop and the store for it, and what was
asked for last can be restored when the profile is switched off. -/
def Restorable : ProfileInput → Prop
  | .setFps _ => ¬ s.StoresFps
  | .setQuality _ => ¬ s.StoresQuality
  | .advance _ =>
      match s.point with
      | .loadRestoredFps => s.FpsRegained
      | .loadRestoredQuality => s.QualityRegained
      | _ => True

end SoftwareProfile

namespace Setting

/-- The value is the last request, or what the software profile makes of it; and what
is saved is the request of that time. -/
structure Tracks (software : Nat → Nat) (s : Setting) : Prop where
  value : s.value = if s.limited then software s.requested else s.requested
  saved : s.beforeSoftwareProfile = s.requestedBefore

/-- The client has what it asked for. -/
def Settled (s : Setting) : Prop := s.value = s.requested

section Operations

variable {software : Nat → Nat} {s : Setting} {value : Nat}

@[simp] theorem settled_request : (s.request value).Settled := rfl

theorem Tracks.request (h : s.Tracks software) : (s.request value).Tracks software := ⟨rfl, h.saved⟩

theorem Tracks.save (h : s.Tracks software) (hsettled : s.Settled) : s.save.Tracks software :=
  ⟨h.value, hsettled⟩

theorem Tracks.limit (h : s.Tracks software) (hsoftware : ∀ n, software (software n) = software n)
    (hvalue : value = software s.value) : (s.limit value).Tracks software := by
  refine ⟨?_, h.saved⟩
  have hlimited : software s.value = software s.requested := by
    rw [h.value]
    cases s.limited with
    | true => exact hsoftware _
    | false => rfl
  exact hvalue.trans hlimited

theorem Tracks.raise (h : s.Tracks software) (hvalue : value = s.requested) :
    (s.raise value).Tracks software ∧ (s.raise value).Settled :=
  ⟨⟨hvalue, h.saved⟩, hvalue⟩

end Operations

end Setting

theorem softwareEncoderTargetFps_idem (fps : Nat) :
    softwareEncoderTargetFps (softwareEncoderTargetFps fps) = softwareEncoderTargetFps fps := by
  simp only [softwareEncoderTargetFps, clamp, softwareEncoderMaxFps]
  omega

theorem softwareEncoderQualityMilli_idem (qualityMilli : Nat) :
    softwareEncoderQualityMilli (softwareEncoderQualityMilli qualityMilli) =
      softwareEncoderQualityMilli qualityMilli := by
  simp only [softwareEncoderQualityMilli, clamp, softwareEncoderMinQualityMilli,
    softwareEncoderMaxQualityMilli]
  omega

namespace SoftwareProfile

/-- What holds between two steps of the loop. -/
def PointHolds (s : SoftwareProfile) : Prop :=
  match s.point with
  | .top | .loadFps | .encode _ =>
      s.softwareProfileActive = false → s.targetFps.Settled ∧ s.qualityMs.Settled
  | .clampFps v | .lowerFps v =>
      s.softwareProfileActive = true ∧ v = softwareEncoderTargetFps s.targetFps.value
  | .clampQuality v | .lowerQuality v =>
      s.softwareProfileActive = true ∧ v = softwareEncoderQualityMilli s.qualityMs.value
  | .saveFps _ =>
      s.softwareProfileActive = true ∧ s.targetFps.Settled ∧ s.qualityMs.Settled
  | .saveQuality _ => s.softwareProfileActive = true ∧ s.qualityMs.Settled
  | .loadQuality | .loadSoftwareFps _ | .loadSoftwareQuality => s.softwareProfileActive = true
  | .loadRestoredFps => True
  | .raiseFps v => v = s.targetFps.requested
  | .loadRestoredQuality => s.targetFps.Settled
  | .raiseQuality v => s.targetFps.Settled ∧ v = s.qualityMs.requested

structure Tracked (s : SoftwareProfile) : Prop where
  fpsRange : 5 ≤ s.targetFps.requested ∧ s.targetFps.requested ≤ 60
  fps : s.targetFps.Tracks softwareEncoderTargetFps
  quality : s.qualityMs.Tracks softwareEncoderQualityMilli
  point : s.PointHolds

section Steps

variable {s : SoftwareProfile}

/-- The larger of the value and what was saved of it is what the client wants. -/
theorem FpsRegained.restored (h : s.FpsRegained) (ht : s.Tracked) :
    (s.targetFps.value < clamp s.targetFps.beforeSoftwareProfile 5 60 →
        clamp s.targetFps.beforeSoftwareProfile 5 60 = s.targetFps.requested) ∧
      (¬ s.targetFps.value < clamp s.targetFps.beforeSoftwareProfile 5 60 →
        s.targetFps.Settled) := by
  obtain ⟨hmore, hlimited⟩ := h
  obtain ⟨hlow, hhigh⟩ := ht.fpsRange
  have hvalue := ht.fps.value
  rw [ht.fps.saved]
  unfold Setting.Settled
  cases hflag : s.targetFps.limited with
  | false =>
      rw [hflag] at hvalue
      simp only [Bool.false_eq_true, if_false, clamp] at hvalue ⊢
      omega
  | true =>
      have hkept := hlimited hflag
      rw [hflag] at hvalue
      simp only [if_true, softwareEncoderTargetFps, softwareEncoderMaxFps, clamp] at hvalue hkept ⊢
      omega

theorem QualityRegained.restored (h : s.QualityRegained) (ht : s.Tracked) :
    (s.qualityMs.value < s.qualityMs.beforeSoftwareProfile →
        s.qualityMs.beforeSoftwareProfile = s.qualityMs.requested) ∧
      (¬ s.qualityMs.value < s.qualityMs.beforeSoftwareProfile → s.qualityMs.Settled) := by
  obtain ⟨hmore, hlimited⟩ := h
  have hvalue := ht.quality.value
  rw [ht.quality.saved]
  unfold Setting.Settled
  cases hflag : s.qualityMs.limited with
  | false =>
      rw [hflag] at hvalue
      simp only [Bool.false_eq_true, if_false] at hvalue
      omega
  | true =>
      have hkept := hlimited hflag
      rw [hflag] at hvalue
      simp only [if_true, softwareEncoderQualityMilli, softwareEncoderMinQualityMilli,
        softwareEncoderMaxQualityMilli, clamp] at hvalue hkept
      omega

theorem setFps_tracked (h : s.Tracked) (hfree : ¬ s.StoresFps) (fps : Nat) :
    (s.step (.setFps fps)).Tracked := by
  have hrange : 5 ≤ clamp fps 5 60 ∧ clamp fps 5 60 ≤ 60 := by
    unfold clamp
    omega
  refine ⟨hrange, h.fps.request, h.quality, ?_⟩
  have hpoint := h.point
  unfold PointHolds step at *
  unfold StoresFps at hfree
  cases hp : s.point <;> simp only [hp, Setting.settled_request, true_and] at hpoint hfree ⊢
    <;> first | exact absurd trivial hfree | tauto

theorem setQuality_tracked (h : s.Tracked) (hfree : ¬ s.StoresQuality) (quality : Nat) :
    (s.step (.setQuality quality)).Tracked := by
  refine ⟨h.fpsRange, h.fps, h.quality.request, ?_⟩
  have hpoint := h.point
  unfold PointHolds step at *
  unfold StoresQuality at hfree
  cases hp : s.point <;> simp only [hp, Setting.settled_request, and_true] at hpoint hfree ⊢
    <;> first | exact absurd trivial hfree | tauto

theorem Tracked.at {point : ProfilePoint} (h : s.Tracked)
    (hpoint : PointHolds { s with point := point }) : Tracked { s with point := point } :=
  ⟨h.fpsRange, h.fps, h.quality, hpoint⟩

/-- The profile limits the frame rate that the loop has loaded. -/
theorem Tracked.limitFps {v : Nat} {point : ProfilePoint} (h : s.Tracked)
    (hvalue : v = softwareEncoderTargetFps s.targetFps.value)
    (hpoint : PointHolds { s with targetFps := s.targetFps.limit v, point := point }) :
    Tracked { s with targetFps := s.targetFps.limit v, point := point } :=
  ⟨h.fpsRange, h.fps.limit softwareEncoderTargetFps_idem hvalue, h.quality, hpoint⟩

/-- The profile limits the quality that the loop has loaded, and stays on. -/
theorem Tracked.limitQuality {v : Nat} {point : ProfilePoint} (h : s.Tracked)
    (hvalue : v = softwareEncoderQualityMilli s.qualityMs.value)
    (hpoint : PointHolds { s with qualityMs := s.qualityMs.limit v, point := point }) :
    Tracked { s with qualityMs := s.qualityMs.limit v, point := point } :=
  ⟨h.fpsRange, h.fps, h.quality.limit softwareEncoderQualityMilli_idem hvalue, hpoint⟩

theorem pointHolds_of_active (hactive : s.softwareProfileActive = true)
    (hbetween : s.point = .top ∨ s.point = .loadFps) : s.PointHolds := by
  unfold PointHolds
  rcases hbetween with hp | hp
  all_goals
    rw [hp]
    intro hoff
    rw [hactive] at hoff
    cases hoff

theorem advance_tracked (h : s.Tracked) (turn : ProfileTurn)
    (hrestorable : s.Restorable (.advance turn)) : (s.advance turn).Tracked := by
  have hpoint := h.point
  unfold PointHolds at hpoint
  unfold Restorable at hrestorable
  unfold advance
  cases hp : s.point with
  | top =>
      simp only [hp] at hpoint ⊢
      split
      · next hactive =>
        have hon : s.softwareProfileActive = true := (Bool.and_eq_true_iff.mp hactive).1
        split
        · exact h.at ⟨hon, rfl⟩
        · exact h.at hon
      · exact h.at hpoint
  | clampFps v =>
      simp only [hp] at hpoint ⊢
      exact h.limitFps hpoint.2 hpoint.1
  | loadQuality =>
      simp only [hp] at hpoint ⊢
      split
      · exact h.at ⟨hpoint, rfl⟩
      · exact h.at (pointHolds_of_active hpoint (Or.inr rfl))
  | clampQuality v =>
      simp only [hp] at hpoint ⊢
      exact h.limitQuality hpoint.2 (pointHolds_of_active hpoint.1 (Or.inr rfl))
  | loadFps =>
      simp only [hp] at hpoint ⊢
      exact h.at hpoint
  | encode fps =>
      simp only [hp] at hpoint ⊢
      cases turn.isSoftware with
      | none => exact h.at hpoint
      | some isSoftware =>
          dsimp only
          split
          · exact h.at hpoint
          · next hchange =>
            cases isSoftware with
            | true =>
                have hoff : s.softwareProfileActive = false := by
                  simpa using Ne.symm hchange
                exact ⟨h.fpsRange, h.fps, h.quality, rfl, hpoint hoff⟩
            | false => exact ⟨h.fpsRange, h.fps, h.quality, trivial⟩
  | saveFps fps =>
      simp only [hp] at hpoint ⊢
      exact ⟨h.fpsRange, h.fps.save hpoint.2.1, h.quality, hpoint.1, hpoint.2.2⟩
  | saveQuality fps =>
      simp only [hp] at hpoint ⊢
      exact ⟨h.fpsRange, h.fps, h.quality.save hpoint.2, hpoint.1⟩
  | loadSoftwareFps fps =>
      simp only [hp] at hpoint ⊢
      split
      · exact h.at ⟨hpoint, rfl⟩
      · exact h.at hpoint
  | lowerFps v =>
      simp only [hp] at hpoint ⊢
      exact h.limitFps hpoint.2 hpoint.1
  | loadSoftwareQuality =>
      simp only [hp] at hpoint ⊢
      exact h.at ⟨hpoint, rfl⟩
  | lowerQuality v =>
      simp only [hp] at hpoint ⊢
      exact h.limitQuality hpoint.2 (pointHolds_of_active hpoint.1 (Or.inl rfl))
  | loadRestoredFps =>
      simp only [hp] at hrestorable ⊢
      obtain ⟨hraise, hsettled⟩ := hrestorable.restored h
      split
      · next hless => exact h.at (hraise hless.2)
      · next hmore =>
        refine h.at (hsettled fun hless => hmore ⟨?_, hless⟩)
        unfold clamp
        omega
  | raiseFps v =>
      simp only [hp] at hpoint ⊢
      obtain ⟨htracks, hsettled⟩ := h.fps.raise hpoint
      exact ⟨h.fpsRange, htracks, h.quality, hsettled⟩
  | loadRestoredQuality =>
      simp only [hp] at hpoint hrestorable ⊢
      obtain ⟨hraise, hsettled⟩ := hrestorable.restored h
      split
      · next hless => exact h.at ⟨hpoint, hraise hless.2⟩
      · next hmore =>
        exact h.at fun _ => ⟨hpoint, hsettled fun hless => hmore ⟨by omega, hless⟩⟩
  | raiseQuality v =>
      simp only [hp] at hpoint ⊢
      obtain ⟨htracks, hsettled⟩ := h.quality.raise hpoint.2
      exact ⟨h.fpsRange, h.fps, htracks, fun _ => ⟨hpoint.1, hsettled⟩⟩

theorem step_tracked {input : ProfileInput} (h : s.Tracked) (hrestorable : s.Restorable input) :
    (s.step input).Tracked := by
  cases input with
  | setFps fps => exact setFps_tracked h hrestorable fps
  | setQuality quality => exact setQuality_tracked h hrestorable quality
  | advance turn => exact advance_tracked h turn hrestorable

theorem Tracked.settled (h : s.Tracked) (hinactive : s.Inactive) :
    s.targetFps.Settled ∧ s.qualityMs.Settled := by
  obtain ⟨hoff, hpoint⟩ := hinactive
  have holds := h.point
  unfold PointHolds at holds
  cases hp : s.point <;> simp only [hp] at hpoint holds
  all_goals exact holds hoff

theorem start_tracked (initialTargetFps initialQualityMilli : Nat) :
    (start initialTargetFps initialQualityMilli).Tracked := by
  refine ⟨?_, ⟨rfl, rfl⟩, ⟨rfl, rfl⟩, fun _ => ⟨rfl, rfl⟩⟩
  simp only [start, Setting.start, clamp]
  omega

/-- A step of the loop is no request. -/
theorem advance_requested (turn : ProfileTurn) :
    (s.advance turn).targetFps.requested = s.targetFps.requested ∧
      (s.advance turn).qualityMs.requested = s.qualityMs.requested := by
  unfold advance
  dsimp only
  repeat' split
  all_goals exact ⟨rfl, rfl⟩

end Steps

end SoftwareProfile

theorem run_requested (s : SoftwareProfile) (inputs : List ProfileInput) :
    (softwareProfile.run s inputs).targetFps.requested = lastFps s.targetFps.requested inputs ∧
      (softwareProfile.run s inputs).qualityMs.requested =
        lastQuality s.qualityMs.requested inputs := by
  induction inputs generalizing s with
  | nil => exact ⟨rfl, rfl⟩
  | cons input inputs ih =>
      obtain ⟨hfps, hquality⟩ := ih (s.step input)
      rw [Machine.run_cons]
      refine ⟨hfps.trans ?_, hquality.trans ?_⟩
      · cases input with
        | advance turn =>
            exact congrArg (lastFps · inputs) (SoftwareProfile.advance_requested turn).1
        | setFps fps => rfl
        | setQuality quality => rfl
      · cases input with
        | advance turn =>
            exact congrArg (lastQuality · inputs) (SoftwareProfile.advance_requested turn).2
        | setFps fps => rfl
        | setQuality quality => rfl

/-- While the software profile is off the client has what it asked for last, in every
run in which the loop overwrites no command and what the client wants when the profile
is switched off can be told from what it wanted when it was switched on. -/
theorem software_profile_transparent {initialTargetFps initialQualityMilli : Nat}
    {inputs : List ProfileInput}
    (h : softwareProfile.Along SoftwareProfile.Restorable
      (SoftwareProfile.start initialTargetFps initialQualityMilli) inputs)
    (hinactive : (softwareProfile.run
      (SoftwareProfile.start initialTargetFps initialQualityMilli) inputs).Inactive) :
    (softwareProfile.run (SoftwareProfile.start initialTargetFps initialQualityMilli)
        inputs).targetFps.value = lastFps (clamp initialTargetFps 5 60) inputs ∧
      (softwareProfile.run (SoftwareProfile.start initialTargetFps initialQualityMilli)
        inputs).qualityMs.value = lastQuality (max initialQualityMilli 1) inputs := by
  have htracked := softwareProfile.invariant (I := SoftwareProfile.Tracked)
    (fun _ _ => SoftwareProfile.step_tracked)
    (SoftwareProfile.start_tracked initialTargetFps initialQualityMilli) h
  obtain ⟨hfps, hquality⟩ := htracked.settled hinactive
  obtain ⟨hlastFps, hlastQuality⟩ :=
    run_requested (SoftwareProfile.start initialTargetFps initialQualityMilli) inputs
  exact ⟨hfps.trans hlastFps, hquality.trans hlastQuality⟩

def hardwareTurn (isSoftware : Bool) : ProfileInput := .advance ⟨false, some isSoftware⟩

/-- The hardware encoder fails and comes back. -/
def profileTurns : List ProfileInput :=
  List.replicate 9 (hardwareTurn true) ++ List.replicate 7 (hardwareTurn false)

theorem software_profile_transparent_default :
    (softwareProfile.run (SoftwareProfile.start 30 1500) profileTurns).targetFps.value =
        lastFps (clamp 30 5 60) profileTurns ∧
      (softwareProfile.run (SoftwareProfile.start 30 1500) profileTurns).qualityMs.value =
        lastQuality (max 1500 1) profileTurns :=
  software_profile_transparent
    ⟨trivial, trivial, trivial, trivial, trivial, trivial, trivial, trivial, trivial, trivial,
      trivial, trivial, trivial, ⟨by decide, by decide⟩, trivial, ⟨by decide, by decide⟩, trivial⟩
    ⟨rfl, trivial⟩

/-- The client asks for a quality below the least one of the software profile. -/
theorem low_quality_is_not_restored :
    ¬ ∀ (initialTargetFps initialQualityMilli : Nat) (inputs : List ProfileInput),
      (softwareProfile.run (SoftwareProfile.start initialTargetFps initialQualityMilli)
        inputs).Inactive →
      (softwareProfile.run (SoftwareProfile.start initialTargetFps initialQualityMilli)
          inputs).targetFps.value = lastFps (clamp initialTargetFps 5 60) inputs ∧
        (softwareProfile.run (SoftwareProfile.start initialTargetFps initialQualityMilli)
          inputs).qualityMs.value = lastQuality (max initialQualityMilli 1) inputs := by
  intro hall
  have hquality := (hall 30 700 profileTurns ⟨rfl, trivial⟩).2
  exact absurd hquality (by decide)

end EvertyDesk.Host
