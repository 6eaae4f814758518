import EvertyDesk.Host.StaticSkip

/-!
When the encoder loop stops making key frames for recovery. Two flags ask for them: one that
is raised where the transport or a picture failed, and one for a frame of EVRTCK that was
encoded but not sent. A key frame that goes out over EVRT clears both, one that goes out
over the relay clears the first only.
-/

namespace EvertyDesk.Host

namespace CodecLoop

section Frames

variable (cfg : EncodeLoopConfig) (s : CodecLoop) (i : CodecIteration)

/-- The picture that goes to an encoder. -/
def picture : Option CapturedFrame :=
  if s.loop.stop || !i.due then none
  else (s.frame i).filter fun f => EncodeLoop.validGeometry f && !skips cfg (s.taking i) i f

/-- What the encoder gives for it, and whether as a key frame. -/
def produced : Option Bool := (s.picture cfg i).bind (output cfg (s.taking i) i)

/-- The channel in use takes the frame. -/
def accepted (isIdr : Bool) : Bool :=
  if i.evrtOn then i.evrtTrySend == .ok
  else sendTcpVideoFrame isIdr i.tcpAttempts == .sent

/-- A key frame goes out. -/
def delivers : Bool := s.produced cfg i == some true && accepted i true

/-- A frame has been encoded and does not go out. -/
def drops : Bool := (s.produced cfg i).any fun isIdr => !accepted i isIdr

/-- Something calls for another key frame: a change of the transport, a request, the timer,
a picture without pixels, or a drop. -/
def callsForKey : Bool :=
  i.evrtOn != s.loop.wasEvrtOn ||
    (i.due &&
      (i.externalIdr || Decidable.decide (currentIdrMin cfg i < i.periodicAt - s.loop.lastIdr) ||
        (s.frame i).any fun f => !EncodeLoop.validGeometry f)) ||
    s.drops cfg i

/-- A key frame is due for recovery. -/
def recoveryKey (s : EncodeLoop) : Bool :=
  s.forcedAllowed i.toIteration ||
    (i.externalIdr || s.evrtckBaselineDirty) &&
      Decidable.decide (min idrMinRequested (currentIdrMin cfg i) ≤ i.requestedAt - s.lastIdr)

/-- The scaling changes such that a key frame is forced. -/
def forcesForScaling (s : EncodeLoop) (f : CapturedFrame) : Bool :=
  let next := s.nextDownscale cfg i.toIteration f
  !i.evrtOn && next != s.downscaleTo ||
    (output cfg s i f).isSome && s.softwareProfileActive && i.hasActiveHardwareBackend &&
      next.isSome

def rescales : Bool := (s.picture cfg i).any (forcesForScaling cfg i (s.taking i))

end Frames

section Flags

variable {cfg : EncodeLoopConfig} {i : CodecIteration}

theorem withProfile_flags (cfg : EncodeLoopConfig) (s : EncodeLoop) (i : Iteration)
    (encW encH : UInt32) :
    (s.withProfile cfg i encW encH).evrtckBaselineDirty = s.evrtckBaselineDirty ∧
      (s.withProfile cfg i encW encH).forceRecoveryKey =
        (s.forceRecoveryKey ||
          s.softwareProfileActive && i.hasActiveHardwareBackend && s.downscaleTo.isSome) := by
  unfold EncodeLoop.withProfile
  dsimp only
  cases i.hasActiveHardwareBackend <;> cases s.softwareProfileActive <;> simp

theorem dispatch_accepted {isIdr : Bool} (s : EncodeLoop) (h : accepted i isIdr = true) :
    (dispatch s i isIdr).forceRecoveryKey = (s.forceRecoveryKey && !isIdr) ∧
      (dispatch s i isIdr).evrtckBaselineDirty =
        (s.evrtckBaselineDirty && !(i.evrtOn && isIdr)) := by
  unfold dispatch EncodeLoop.dispatch
  unfold accepted at h
  cases hevrt : i.evrtOn with
  | true =>
      rw [hevrt, if_pos rfl, beq_iff_eq] at h
      simp [h]
  | false =>
      rw [hevrt, if_neg Bool.false_ne_true, beq_iff_eq] at h
      simp [h]

/-- The flags after a frame that has gone out. -/
theorem encode_accepted {s : EncodeLoop} {f : CapturedFrame} {isIdr : Bool}
    (houtput : output cfg s i f = some isIdr) (h : accepted i isIdr = true) :
    (encode cfg s i f).forceRecoveryKey =
        ((s.forceRecoveryKey || forcesForScaling cfg i s f) && !isIdr) ∧
      (encode cfg s i f).evrtckBaselineDirty = (s.evrtckBaselineDirty && !(i.evrtOn && isIdr)) := by
  unfold encode
  rw [houtput]
  dsimp only
  obtain ⟨hforce, hdirty⟩ := dispatch_accepted
    ((withFrame cfg s i f isIdr).withProfile cfg i.toIteration (s.scaled cfg i.toIteration f).1
      (s.scaled cfg i.toIteration f).2.1) h
  obtain ⟨hprofileDirty, hprofileForce⟩ := withProfile_flags cfg
    (withFrame cfg s i f isIdr) i.toIteration (s.scaled cfg i.toIteration f).1
    (s.scaled cfg i.toIteration f).2.1
  rw [hforce, hdirty, hprofileDirty, hprofileForce]
  refine ⟨?_, rfl⟩
  rw [forcesForScaling, houtput]
  dsimp only [withFrame, prepared]
  rw [Option.isSome_some, Bool.true_and, Bool.or_assoc]

/-- A picture that becomes no frame raises a flag only where the scaling changes. -/
theorem encode_nothing {s : EncodeLoop} {f : CapturedFrame} (houtput : output cfg s i f = none) :
    (encode cfg s i f).forceRecoveryKey = (s.forceRecoveryKey || forcesForScaling cfg i s f) ∧
      (encode cfg s i f).evrtckBaselineDirty = s.evrtckBaselineDirty := by
  unfold encode
  rw [houtput, forcesForScaling, houtput]
  simp [prepared]

variable {s : CodecLoop}

/-- Nothing that calls for a key frame has happened to the transport. -/
theorem taking_force (hcalls : s.callsForKey cfg i = false) :
    (s.taking i).forceRecoveryKey = s.loop.forceRecoveryKey := by
  simp only [callsForKey, Bool.or_eq_false_iff] at hcalls
  simp [taking, EncodeLoop.observe, hcalls.1.1]

theorem iterate_encodes {f : CapturedFrame} (h : s.picture cfg i = some f) :
    (s.iterate cfg i).loop = encode cfg (s.taking i) i f := by
  unfold picture at h
  unfold iterate
  split at h
  · cases h
  · next hruns =>
    rw [Bool.or_eq_true, Bool.not_eq_true', not_or, Bool.not_eq_true, Bool.not_eq_false] at hruns
    obtain ⟨hstop, hdue⟩ := hruns
    obtain ⟨hframe, hgood⟩ := Option.filter_eq_some_iff.mp h
    rw [Bool.and_eq_true, Bool.not_eq_true'] at hgood
    obtain ⟨hvalid, hskips⟩ := hgood
    simp [hstop, hdue, hframe, hvalid, decide, hskips]

/-- Without a picture that goes to an encoder the flags stay, unless the transport or the
picture fails. -/
theorem iterate_nothing (h : s.picture cfg i = none) :
    (s.iterate cfg i).loop.evrtckBaselineDirty = s.loop.evrtckBaselineDirty ∧
      (s.callsForKey cfg i = false →
        (s.iterate cfg i).loop.forceRecoveryKey = s.loop.forceRecoveryKey) := by
  have hobserve : s.callsForKey cfg i = false →
      (s.taking i).forceRecoveryKey = s.loop.forceRecoveryKey := taking_force
  unfold picture at h
  unfold iterate
  cases hstop : s.loop.stop with
  | true => exact ⟨rfl, fun _ => rfl⟩
  | false =>
      cases hdue : i.due with
      | false => exact ⟨rfl, hobserve⟩
      | true =>
          simp only [Bool.false_eq_true, if_false, Bool.not_true]
          cases hframe : s.frame i with
          | none => exact ⟨rfl, hobserve⟩
          | some f =>
              simp only [hstop, hdue, hframe, Bool.not_true, Bool.or_false, Bool.false_eq_true,
                if_false] at h
              cases hvalid : EncodeLoop.validGeometry f with
              | false =>
                  refine ⟨by simp only [hvalid, Bool.not_false, if_true]; rfl, fun hcalls => ?_⟩
                  simp [callsForKey, hdue, hframe, hvalid] at hcalls
              | true =>
                  have hskips : skips cfg (s.taking i) i f = true := by
                    simpa [Option.filter_some, hvalid] using h
                  simp only [hvalid, Bool.not_true, Bool.false_eq_true, if_false, decide, hskips,
                    if_true]
                  exact ⟨rfl, hobserve⟩

/-- A key frame that goes out clears the flags; over the relay, only the first one. -/
theorem delivers_flags (h : s.delivers cfg i = true) :
    (s.iterate cfg i).loop.forceRecoveryKey = false ∧
      (s.iterate cfg i).loop.evrtckBaselineDirty = (s.loop.evrtckBaselineDirty && !i.evrtOn) := by
  rw [delivers, Bool.and_eq_true, beq_iff_eq, produced] at h
  obtain ⟨hproduced, haccepted⟩ := h
  obtain ⟨f, hpicture, houtput⟩ := Option.bind_eq_some_iff.mp hproduced
  rw [iterate_encodes hpicture]
  obtain ⟨hforce, hdirty⟩ := encode_accepted houtput haccepted
  rw [Bool.not_true, Bool.and_false] at hforce
  rw [Bool.and_true] at hdirty
  exact ⟨hforce, hdirty⟩

/-- While nothing calls for a key frame and none goes out, only a scaling raises a flag. -/
theorem uncalled_flags (hdelivers : s.delivers cfg i = false)
    (hcalls : s.callsForKey cfg i = false) :
    (s.iterate cfg i).loop.forceRecoveryKey = (s.loop.forceRecoveryKey || s.rescales cfg i) ∧
      (s.iterate cfg i).loop.evrtckBaselineDirty = s.loop.evrtckBaselineDirty := by
  cases hpicture : s.picture cfg i with
  | none =>
      rw [rescales, hpicture, Option.any_none, Bool.or_false]
      obtain ⟨hdirty, hforce⟩ := iterate_nothing hpicture
      exact ⟨hforce hcalls, hdirty⟩
  | some f =>
      rw [iterate_encodes hpicture, rescales, hpicture, Option.any_some, ← taking_force hcalls]
      cases houtput : output cfg (s.taking i) i f with
      | none => exact encode_nothing houtput
      | some isIdr =>
          have hproduced : s.produced cfg i = some isIdr := by
            rw [produced, hpicture, Option.bind_some, houtput]
          have haccepted : accepted i isIdr = true := by
            have hdrops := (Bool.or_eq_false_iff.mp hcalls).2
            rw [drops, hproduced, Option.any_some, Bool.not_eq_false'] at hdrops
            exact hdrops
          have hidr : isIdr = false := by
            cases isIdr with
            | false => rfl
            | true =>
                rw [delivers, hproduced, haccepted] at hdelivers
                cases hdelivers
          obtain ⟨hforce, hdirty⟩ := encode_accepted houtput haccepted
          rw [hidr, Bool.not_false, Bool.and_true] at hforce
          rw [hidr, Bool.and_false, Bool.not_false, Bool.and_true] at hdirty
          exact ⟨hforce, hdirty⟩

end Flags

end CodecLoop

/-! Whole runs. -/

structure RecoveryRun where
  codec : CodecLoop
  /-- Ghost: a key frame has gone out, and nothing has called for one since. -/
  settled : Bool

def RecoveryRun.start (now : Nat) : RecoveryRun where
  codec := .start now
  settled := false

def recoveryRuns (cfg : EncodeLoopConfig) : Machine RecoveryRun CodecInput Unit where
  step s input :=
    ({ codec := ((codecLoop cfg).step s.codec input).1
       settled :=
         match input with
         | .iterate i => s.codec.delivers cfg i || s.settled && !s.codec.callsForKey cfg i
         | _ => s.settled },
      ())

namespace RecoveryRun

variable (cfg : EncodeLoopConfig) (s : RecoveryRun)

/-- Nothing is left to recover from. -/
structure Clear (s : EncodeLoop) : Prop where
  force : s.forceRecoveryKey = false
  baseline : s.evrtckBaselineDirty = false

/-- Once a key frame has gone out, both flags are clear and no key frame is made for
recovery as long as nothing calls for one. -/
structure KeysStopped : Prop where
  clear : s.settled = true → Clear s.codec.loop
  quiet : s.settled = true → ∀ i, i.due = true → s.codec.callsForKey cfg i = false →
    CodecLoop.recoveryKey cfg i (s.codec.taking i) = false

/-- No key frame goes out over the relay while the other side has lost a frame of EVRTCK, and
no change of the scaling forces one that does not go out. -/
def Recovers : CodecInput → Prop
  | .iterate i =>
      (s.codec.delivers cfg i = true → i.evrtOn = false →
        s.codec.loop.evrtckBaselineDirty = false) ∧
      (s.settled = true → s.codec.callsForKey cfg i = false → s.codec.delivers cfg i = false →
        s.codec.rescales cfg i = false)
  | _ => True

variable {cfg s}

theorem Clear.quiet {codec : CodecLoop} (h : Clear codec.loop) {i : CodecIteration}
    (hdue : i.due = true) (hcalls : codec.callsForKey cfg i = false) :
    CodecLoop.recoveryKey cfg i (codec.taking i) = false := by
  simp only [CodecLoop.callsForKey, Bool.or_eq_false_iff, hdue, Bool.true_and] at hcalls
  obtain ⟨⟨htransport, ⟨hrequest, -⟩, -⟩, -⟩ := hcalls
  simp [CodecLoop.recoveryKey, EncodeLoop.forcedAllowed, CodecLoop.taking, EncodeLoop.observe,
    h.force, h.baseline, htransport, hrequest]

theorem keysStopped_iff : KeysStopped cfg s ↔ (s.settled = true → Clear s.codec.loop) :=
  ⟨KeysStopped.clear, fun h => ⟨h, fun hsettled _ hdue hcalls =>
    (h hsettled).quiet hdue hcalls⟩⟩

/-- A step keeps the flags clear if and only if it meets the condition. -/
theorem step_iff (h : KeysStopped cfg s) (input : CodecInput) :
    Recovers cfg s input ↔ KeysStopped cfg ((recoveryRuns cfg).step s input).1 := by
  rw [keysStopped_iff] at h ⊢
  cases input with
  | capture result => exact ⟨fun _ hsettled => ⟨(h hsettled).force, (h hsettled).baseline⟩,
      fun _ => trivial⟩
  | stop => exact ⟨fun _ hsettled => ⟨(h hsettled).force, (h hsettled).baseline⟩,
      fun _ => trivial⟩
  | iterate i =>
      dsimp only [recoveryRuns, codecLoop, Recovers]
      cases hdelivers : s.codec.delivers cfg i with
      | true =>
          obtain ⟨hforce, hdirty⟩ := CodecLoop.delivers_flags hdelivers
          constructor
          · rintro ⟨hrelay, -⟩ -
            refine ⟨hforce, hdirty.trans ?_⟩
            cases hevrt : i.evrtOn with
            | true => rw [Bool.not_true, Bool.and_false]
            | false => rw [hrelay rfl hevrt, Bool.false_and]
          · intro hclear
            refine ⟨fun _ hevrt => ?_, fun _ _ hnot => (Bool.noConfusion hnot)⟩
            have hbaseline := (hclear rfl).baseline
            rw [hdirty, hevrt, Bool.not_false, Bool.and_true] at hbaseline
            exact hbaseline
      | false =>
          rw [Bool.false_or, Bool.and_eq_true, Bool.not_eq_true']
          constructor
          · rintro ⟨-, hscaling⟩ ⟨hsettled, hcalls⟩
            obtain ⟨hforce, hdirty⟩ := CodecLoop.uncalled_flags hdelivers hcalls
            refine ⟨hforce.trans ?_, hdirty.trans (h hsettled).baseline⟩
            rw [(h hsettled).force, hscaling hsettled hcalls rfl, Bool.or_false]
          · intro hclear
            refine ⟨fun hnot => (Bool.noConfusion hnot), fun hsettled hcalls _ => ?_⟩
            obtain ⟨hforce, -⟩ := CodecLoop.uncalled_flags hdelivers hcalls
            have hcleared := (hclear ⟨hsettled, hcalls⟩).force
            rw [hforce] at hcleared
            exact (Bool.or_eq_false_iff.mp hcleared).2

/-- Key frames for recovery stop in exactly the runs whose steps all meet the condition. -/
theorem keysStopped_iff_recovers (cfg : EncodeLoopConfig) (now : Nat) (inputs : List CodecInput) :
    (∀ before after, inputs = before ++ after →
      KeysStopped cfg ((recoveryRuns cfg).run (start now) before)) ↔
      (recoveryRuns cfg).Along (Recovers cfg) (start now) inputs := by
  have hstart : KeysStopped cfg (start now) :=
    keysStopped_iff.mpr fun hsettled => absurd hsettled Bool.false_ne_true
  have hstep : ∀ (s : RecoveryRun) (input : CodecInput), True → True → KeysStopped cfg s →
      True ∧ (Recovers cfg s input ↔ KeysStopped cfg ((recoveryRuns cfg).step s input).1) :=
    fun _ input _ _ h => ⟨trivial, step_iff h input⟩
  exact ((recoveryRuns cfg).along_iff_every_state hstep (fun _ _ => trivial) trivial hstart).symm

/-! The flag that stays. -/

/-- A picture of one shade. -/
def shade (byte : UInt8) : CodecInput := .capture (.frame 4 4 (List.replicate 64 byte) .default)

/-- A key frame goes out over EVRT, a frame of EVRTCK is dropped, and the session ends. -/
def lostThenRelayed : List CodecInput :=
  [shade 1, .iterate (CodecLoop.evrtIteration 1000000000 0),
    shade 2, .iterate { CodecLoop.evrtIteration 1100000000 0 with evrtTrySend := .full },
    shade 3, .iterate { relayIteration 1500000000 .ok with
      wantEvrtck := true
      stillEvrtck := true
      output := none },
    shade 4]

def nextRelayed : CodecIteration :=
  { relayIteration 2100000000 .ok with
    wantEvrtck := true
    stillEvrtck := true
    output := none }

/-- The key frame that the relay has taken is followed by another one, which nothing calls
for. -/
theorem relayed_key_repeated :
    let s := (recoveryRuns plainConfig).run (start 0) lostThenRelayed
    ¬ KeysStopped plainConfig s ∧ s.settled = true ∧
      s.codec.callsForKey plainConfig nextRelayed = false ∧
      s.codec.produced plainConfig nextRelayed = some true := by
  have hrun : ((recoveryRuns plainConfig).run (start 0) lostThenRelayed).settled = true ∧
      ((recoveryRuns plainConfig).run (start 0) lostThenRelayed).codec.loop.evrtckBaselineDirty =
        true ∧
      ((recoveryRuns plainConfig).run (start 0) lostThenRelayed).codec.callsForKey plainConfig
        nextRelayed = false ∧
      ((recoveryRuns plainConfig).run (start 0) lostThenRelayed).codec.produced plainConfig
        nextRelayed = some true := by
    decide +kernel
  obtain ⟨hsettled, hdirty, hcalls, hproduced⟩ := hrun
  refine ⟨fun h => ?_, hsettled, hcalls, hproduced⟩
  exact Bool.noConfusion (hdirty.symm.trans (h.clear hsettled).baseline)

end RecoveryRun

end EvertyDesk.Host
