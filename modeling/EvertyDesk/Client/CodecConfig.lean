import EvertyDesk.Client.ReceiveThread

/-!
What is put before a key frame. The reassembler keeps the parameter sets that it got
last, and a codec name does not reach it, so they may be those of another codec.
-/

namespace EvertyDesk.EvrtClient

open Evrt Reassembler Host

/-- The reassembler, and the parameter sets that have been received, each with the
codec that the host sent it for. -/
structure Configured where
  reassembler : ChannelReassembler
  /-- Ghost. -/
  configs : List (CodecLabel × List UInt8)

namespace Configured

def new : Configured := ⟨ChannelReassembler.new, []⟩

/-- What the reassembler puts before a key frame. -/
def lastConfig (s : Configured) : List UInt8 := (s.configs.getLast?.map Prod.snd).getD []

section Model

variable (iter : IterOrder Nat) (sha : Sha256) (sessionToken : Option (List UInt8))

def step (s : Configured) (input : InFlight × Nat) : Configured × Option Delivery :=
  let (reassembler, reaction) :=
    onDatagram iter sha sessionToken s.reassembler input.1.bytes input.2
  ({ reassembler := reassembler
     configs := s.configs ++
      ((configIn sha sessionToken input.1.bytes).map (input.1.codec, ·)).toList },
    match reaction with
    | .enqueue delivery => some delivery
    | _ => none)

end Model

end Configured

/-- The receive thread over the datagrams that it gets, each with its time. -/
def configured (iter : IterOrder Nat) (sha : Sha256) (sessionToken : Option (List UInt8)) :
    Machine Configured (InFlight × Nat) (Option Delivery) where
  step := Configured.step iter sha sessionToken

section Statements

variable (iter : IterOrder Nat) (sha : Sha256) (sessionToken : Option (List UInt8))
  (source : Nat → Option VideoFrame) (codecOf : Nat → CodecLabel)

/-- Whatever is not a packet of names or parameters is of one of the host's frames. -/
def FromHost (input : InFlight × Nat) : Prop :=
  nameIn sha sessionToken input.1.bytes = none →
    configIn sha sessionToken input.1.bytes = none →
      Honest sha sessionToken source (.datagram input.1.bytes input.2)

/-- A key frame that is delivered has parameter sets of its own codec before it, or
nothing; one of EVRTCK is as it was encoded. -/
def Uncontaminated (s : Configured) (input : InFlight × Nat) : Prop :=
  ∀ delivery, ((configured iter sha sessionToken).step s input).2 = some delivery →
    delivery.isKeyFrame = true →
    ∃ frame, Sends source delivery.frameId frame ∧
      ∃ config, delivery.bytes = config ++ frame.payload ∧
        (config = [] ∨ codecOf delivery.frameId ≠ .evrtck ∧
          (codecOf delivery.frameId, config) ∈ s.configs)

/-- Where a key frame is completed, the parameter sets that came last are empty, or
have come for its codec, which is not EVRTCK. -/
def ConfigMatches (s : Configured) (input : InFlight × Nat) : Prop :=
  ∀ delivery, ((configured iter sha sessionToken).step s input).2 = some delivery →
    delivery.isKeyFrame = true →
    s.lastConfig = [] ∨ codecOf delivery.frameId ≠ .evrtck ∧
      (codecOf delivery.frameId, s.lastConfig) ∈ s.configs

end Statements

section Runs

variable {iter : IterOrder Nat} {sha : Sha256} {sessionToken : Option (List UInt8)}
  {source : Nat → Option VideoFrame} {codecOf : Nat → CodecLabel}

/-- A datagram as a call of the reassembler. Names are none. -/
def arrivalOf (sha : Sha256) (sessionToken : Option (List UInt8)) (input : InFlight × Nat) :
    Option Arrival :=
  match nameIn sha sessionToken input.1.bytes, configIn sha sessionToken input.1.bytes with
  | some _, _ => none
  | none, some config => some (.setCodecConfig config)
  | none, none => some (.datagram input.1.bytes input.2)

/-- The thread has the reassembler that has seen these calls. -/
structure Mirrors (iter : IterOrder Nat) (sha : Sha256) (sessionToken : Option (List UInt8))
    (inputs : List (InFlight × Nat)) (s : Configured) : Prop where
  reassembler : s.reassembler = (client iter sha sessionToken).run ChannelReassembler.new
    (inputs.filterMap (arrivalOf sha sessionToken))
  config : lastConfig (inputs.filterMap (arrivalOf sha sessionToken)) =
    s.configs.getLast?.map Prod.snd

theorem lastConfig_append (arrivals : List Arrival) (arrival : Arrival) :
    lastConfig (arrivals ++ [arrival]) =
      match arrival with
      | .setCodecConfig payload => some payload
      | _ => lastConfig arrivals := by
  rw [lastConfig, List.foldl_append]
  cases arrival <;> rfl

/-- A datagram that is a call of the reassembler. -/
theorem Mirrors.call {inputs : List (InFlight × Nat)} {s s' : Configured}
    (h : Mirrors iter sha sessionToken inputs s) {input : InFlight × Nat} {arrival : Arrival}
    (hconfig : s'.configs.getLast?.map Prod.snd =
      match arrival with
      | .setCodecConfig payload => some payload
      | _ => s.configs.getLast?.map Prod.snd)
    (hreassembler : s'.reassembler = ((client iter sha sessionToken).step s.reassembler arrival).1)
    (harrival : arrivalOf sha sessionToken input = some arrival) :
    Mirrors iter sha sessionToken (inputs ++ [input]) s' := by
  have hcalls : (inputs ++ [input]).filterMap (arrivalOf sha sessionToken) =
      inputs.filterMap (arrivalOf sha sessionToken) ++ [arrival] := by
    simp [harrival]
  constructor
  · rw [hcalls, Machine.run_append, ← h.reassembler, hreassembler]
    rfl
  · rw [hcalls, lastConfig_append, hconfig, ← h.config]

theorem Mirrors.next {inputs : List (InFlight × Nat)} {s : Configured}
    (h : Mirrors iter sha sessionToken inputs s) (input : InFlight × Nat) :
    Mirrors iter sha sessionToken (inputs ++ [input])
      ((configured iter sha sessionToken).step s input).1 := by
  rcases onDatagram_cases iter sha sessionToken s.reassembler input.1.bytes input.2 with
    ⟨name, hname, hconfig, hstep⟩ | ⟨config, hname, hconfig, hstep⟩ | ⟨hname, hconfig, hstep⟩
  · have hcalls : (inputs ++ [input]).filterMap (arrivalOf sha sessionToken) =
        inputs.filterMap (arrivalOf sha sessionToken) := by
      simp [arrivalOf, hname]
    constructor
    · rw [hcalls]
      simp only [configured, Configured.step, hstep]
      exact h.reassembler
    · rw [hcalls]
      simpa [configured, Configured.step, hconfig] using h.config
  · have harrival : arrivalOf sha sessionToken input = some (.setCodecConfig config) := by
      simp [arrivalOf, hname, hconfig]
    refine h.call ?_ ?_ harrival
    · simp [configured, Configured.step, hconfig]
    · simp only [configured, Configured.step, hstep]
      rfl
  · have harrival : arrivalOf sha sessionToken input = some (.datagram input.1.bytes input.2) := by
      simp [arrivalOf, hname, hconfig]
    refine h.call ?_ ?_ harrival
    · simp [configured, Configured.step, hconfig]
    · simp only [configured, Configured.step, hstep]
      rfl

theorem mirrors_run (inputs : List (InFlight × Nat)) :
    Mirrors iter sha sessionToken inputs
      ((configured iter sha sessionToken).run Configured.new inputs) := by
  induction inputs using List.reverseRecOn with
  | nil => exact ⟨rfl, rfl⟩
  | append_singleton inputs input ih =>
      rw [Machine.run_append]
      exact ih.next input

/-- What is delivered comes from the reassembler. -/
theorem step_delivers {s : Configured} {input : InFlight × Nat} {delivery : Delivery}
    (h : ((configured iter sha sessionToken).step s input).2 = some delivery) :
    nameIn sha sessionToken input.1.bytes = none ∧
      configIn sha sessionToken input.1.bytes = none ∧
      (receive iter sha sessionToken s.reassembler input.1.bytes input.2).2 = some delivery := by
  simp only [configured, Configured.step] at h
  rcases onDatagram_cases iter sha sessionToken s.reassembler input.1.bytes input.2 with
    ⟨name, hname, hconfig, hstep⟩ | ⟨config, hname, hconfig, hstep⟩ | ⟨hname, hconfig, hstep⟩
  · rw [hstep] at h
    cases h
  · rw [hstep] at h
    cases h
  · refine ⟨hname, hconfig, ?_⟩
    rw [hstep] at h
    cases hout : (receive iter sha sessionToken s.reassembler input.1.bytes input.2).2 with
    | none =>
        rw [hout] at h
        cases h
    | some delivered =>
        rw [hout] at h
        exact h

/-- A key frame is delivered behind the parameter sets that came last. -/
theorem delivered_behind_last {inputs : List (InFlight × Nat)} {input : InFlight × Nat}
    (h : ∀ received ∈ inputs ++ [input], FromHost sha sessionToken source received)
    {delivery : Delivery}
    (hdelivery : ((configured iter sha sessionToken).step
      ((configured iter sha sessionToken).run Configured.new inputs) input).2 =
        some delivery) (hkey : delivery.isKeyFrame = true) :
    ∃ frame, Sends source delivery.frameId frame ∧ delivery.bytes =
      ((configured iter sha sessionToken).run Configured.new inputs).lastConfig ++
        frame.payload := by
  have hmirrors : Mirrors iter sha sessionToken inputs _ := mirrors_run inputs
  have hhonest : ∀ arrived ∈ (inputs ++ [input]).filterMap (arrivalOf sha sessionToken),
      Honest sha sessionToken source arrived := by
    intro arrived harrived
    obtain ⟨received, hmem, hreceived⟩ := List.mem_filterMap.mp harrived
    unfold arrivalOf at hreceived
    split at hreceived
    · cases hreceived
    · cases hreceived
      trivial
    next hname hconfig =>
      cases hreceived
      exact h received hmem hname hconfig
  obtain ⟨hname, hconfig, hout⟩ := step_delivers hdelivery
  rw [hmirrors.reassembler] at hout
  have harrival : arrivalOf sha sessionToken input = some (.datagram input.1.bytes input.2) := by
    simp [arrivalOf, hname, hconfig]
  obtain ⟨frame, hsends, hframe, _, hbytes⟩ := delivers_exact_payload iter sha sessionToken
    source (inputs.filterMap (arrivalOf sha sessionToken))
    (.datagram input.1.bytes input.2) (by simpa [harrival] using hhonest) delivery hout
  refine ⟨frame, hsends, ?_⟩
  rw [hbytes, hmirrors.config, ← hframe, if_pos hkey]
  rfl

/-- Key frames are not contaminated exactly when the parameter sets that came last
match each that is completed. -/
theorem uncontaminated_iff {inputs : List (InFlight × Nat)}
    (h : ∀ received ∈ inputs, FromHost sha sessionToken source received) :
    (configured iter sha sessionToken).Along
        (Uncontaminated iter sha sessionToken source codecOf) Configured.new inputs ↔
      (configured iter sha sessionToken).Along
        (ConfigMatches iter sha sessionToken codecOf) Configured.new inputs := by
  rw [Machine.along_iff, Machine.along_iff]
  have hplace : ∀ before input after, inputs = before ++ input :: after →
      (Uncontaminated iter sha sessionToken source codecOf
        ((configured iter sha sessionToken).run Configured.new before) input ↔
      ConfigMatches iter sha sessionToken codecOf
        ((configured iter sha sessionToken).run Configured.new before) input) := by
    rintro before input after rfl
    have hbefore : ∀ received ∈ before ++ [input], FromHost sha sessionToken source received := by
      intro received hmem
      apply h
      rw [List.append_cons]
      exact List.mem_append_left _ hmem
    constructor
    · intro hclean delivery hdelivery hkey
      obtain ⟨frame, hsends, hbytes⟩ := delivered_behind_last hbefore hdelivery hkey
      obtain ⟨other, hother, config, hconfig, hmatch⟩ := hclean delivery hdelivery hkey
      obtain rfl : other = frame := Option.some.inj (hother.1.symm.trans hsends.1)
      rw [hbytes] at hconfig
      rw [List.append_cancel_right hconfig]
      exact hmatch
    · intro hmatch delivery hdelivery hkey
      obtain ⟨frame, hsends, hbytes⟩ := delivered_behind_last hbefore hdelivery hkey
      exact ⟨frame, hsends, _, hbytes, hmatch delivery hdelivery hkey⟩
  constructor
  · intro hclean before input after heq
    exact (hplace before input after heq).mp (hclean before input after heq)
  · intro hmatch before input after heq
    exact (hplace before input after heq).mpr (hmatch before input after heq)

end Runs

/-- A key frame in one datagram. -/
def smallKeyFrame (frameId : UInt32) : VideoFrame where
  frameId := frameId.toNat
  presentationTimeUs := 0
  isKeyFrame := true
  payload := [1, 2, 3]
  frameId_lt := frameId.toNat_lt
  time_lt := Nat.two_pow_pos 64

def twoKeyFrames (frameId : Nat) : Option VideoFrame :=
  if frameId = 1 then some (smallKeyFrame 1)
  else if frameId = 2 then some (smallKeyFrame 2)
  else none

def config (payload : List UInt8) (codec : CodecLabel) : InFlight :=
  ⟨buildCodecConfigAuthenticated Packetizer.zeroDigest payload none, codec⟩

def video (frameId : UInt32) (codec : CodecLabel) : InFlight :=
  ⟨(((smallKeyFrame frameId).packetize Packetizer.zeroDigest none).1).headD [], codec⟩

/-- H264 with its parameter sets, and then EVRTCK under its name. -/
def switchToEvrtck : List (InFlight × Nat) :=
  [(config [0, 0, 0, 1, 0x67] .h264, 0), (video 1 .h264, 1),
    (config [0x45, 0x56, 0x52, 0x54, 0x43, 0x4B] .evrtck, 2), (video 2 .evrtck, 3)]

theorem switchToEvrtck_fromHost :
    ∀ received ∈ switchToEvrtck, FromHost Packetizer.zeroDigest none twoKeyFrames received := by
  intro received hmem
  simp only [switchToEvrtck, List.mem_cons, List.not_mem_nil, or_false] at hmem
  rcases hmem with rfl | rfl | rfl | rfl
  · intro _ hconfig
    exact absurd hconfig (by decide +kernel)
  · intro _ _
    exact ⟨1, smallKeyFrame 1, ⟨rfl, rfl⟩, .inl (by decide +kernel)⟩
  · intro hname _
    exact absurd hname (by decide +kernel)
  · intro _ _
    exact ⟨2, smallKeyFrame 2, ⟨rfl, rfl⟩, .inl (by decide +kernel)⟩

/-- Before the switch. -/
theorem uncontaminated_before_switch :
    (configured (IterOrder.stored _) Packetizer.zeroDigest none).Along
      (Uncontaminated (IterOrder.stored _) Packetizer.zeroDigest none twoKeyFrames fun _ => .h264)
      Configured.new (switchToEvrtck.take 2) := by
  rw [uncontaminated_iff fun received hmem =>
    switchToEvrtck_fromHost received (List.mem_of_mem_take hmem)]
  refine ⟨fun _ _ _ => .inl rfl, fun _ _ _ => .inr ⟨nofun, ?_⟩, trivial⟩
  change (CodecLabel.h264, Configured.lastConfig _) ∈ _
  decide +kernel

/-- The first key frame of EVRTCK comes behind the parameter sets of H264. -/
theorem h264_config_before_evrtck :
    ¬ ∀ (iter : IterOrder Nat) (sha : Sha256) (sessionToken : Option (List UInt8))
      (source : Nat → Option VideoFrame) (codecOf : Nat → CodecLabel)
      (inputs : List (InFlight × Nat)),
      (∀ received ∈ inputs, FromHost sha sessionToken source received) →
      (configured iter sha sessionToken).Along
        (Uncontaminated iter sha sessionToken source codecOf) Configured.new inputs := by
  intro hall
  have hclean := hall (IterOrder.stored _) Packetizer.zeroDigest none twoKeyFrames
    (fun id => if id = 1 then .h264 else .evrtck) switchToEvrtck switchToEvrtck_fromHost
  have hdelivered : ((configured (IterOrder.stored _) Packetizer.zeroDigest none).step
      ((configured (IterOrder.stored _) Packetizer.zeroDigest none).run Configured.new
        (switchToEvrtck.take 3)) (video 2 .evrtck, 3)).2 =
      some ⟨2, [0, 0, 0, 1, 0x67, 1, 2, 3], true, 0, 0⟩ := by
    decide +kernel
  obtain ⟨frame, hsends, config, hbytes, hmatch⟩ := hclean.2.2.2.1 _ hdelivered rfl
  obtain rfl : smallKeyFrame 2 = frame := Option.some.inj hsends.1
  rcases hmatch with rfl | ⟨hcodec, _⟩
  · cases hbytes
  · exact hcodec rfl

end EvertyDesk.EvrtClient
