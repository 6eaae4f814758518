import EvertyDesk.Host.RelayThreads

/-!
What the relay carries. It can carry EVRTCK and H264 alone. Where a service is
started, where the EVRT session ends, and where EVRTCK is left, services with
encoders for something else must not be left facing the relay; then none of their
frames gets there.
-/

namespace EvertyDesk.Host

/-- Every backend that has a codec has H264. -/
def MultiEncoder.H264Only (m : MultiEncoder) : Prop :=
  ∀ codec, some codec ∈ [m.desiredNv, m.desiredVpl, m.desiredMf, m.desiredVt] → codec = .h264

/-- The encoders made for a client may face the relay. -/
def RelayConfig.Safe (cfg : RelayConfig) (client : ClientVideoSupport) : Prop :=
  (cfg.encoders client).H264Only

instance (m : MultiEncoder) : Decidable m.H264Only :=
  decidable_of_iff
    (∀ desired ∈ [m.desiredNv, m.desiredVpl, m.desiredMf, m.desiredVt],
      desired = none ∨ desired = some .h264) (by
    constructor
    · intro h codec hcodec
      rcases h _ hcodec with hnone | hsome
      · cases hnone
      · exact Option.some.inj hsome
    · intro h desired hdesired
      cases desired with
      | none => exact .inl rfl
      | some codec => exact .inr (congrArg some (h codec hdesired)))

instance (cfg : RelayConfig) (client : ClientVideoSupport) : Decidable (cfg.Safe client) :=
  inferInstanceAs (Decidable (cfg.encoders client).H264Only)

/-- A message is tagged with the codec of its bytes, which is H264 or EVRTCK. -/
def Relayed.Ok (r : Relayed) : Prop :=
  r.message.tag = r.producer ∧ (r.producer = .h264 ∨ r.producer = .evrtck)

/-- With this task the command loop gives up EVRTCK. -/
def Task.LeavesEvrtck (p : Pipeline) : Task → Prop
  | .noteFirstCodec newVideo => p.firstCodecSet = false ∧ newVideo.prefer.wantsEvrtck = false
  | .enterSilicon _ => True
  | _ => False

namespace RelayHost

variable (cfg : RelayConfig) (s : RelayHost)

/-- The next frame of a service may go to the relay. -/
def Facing (display : Int) (service : VideoService) : Prop :=
  s.pipeline.evrtActive = false ∨ (s.worker cfg display service).reading = .session false

/-- The services that face the relay may. -/
def FacingSafe : Prop :=
  ∀ display service, s.pipeline.services.lookup display = some service →
    s.Facing cfg display service → cfg.Safe service.clientVideo

/-- The guard: no encoders for other codecs come to face the relay, and no picture
is sent there in place of a frame. -/
def CodecGuarded : RelayInput → Prop
  | .advance => ∀ task, s.tasks.head? = some task →
      (∀ display, task = .start display → s.pipeline.wantEvrtck = false →
        s.pipeline.evrtActive = false → cfg.Safe s.pipeline.clientVideo) ∧
      (task.LeavesEvrtck s.pipeline → s.FacingSafe cfg)
  | .sessionEnded => s.pipeline.evrtActive = true → s.pipeline.wantEvrtck = false →
      ∀ display service, s.pipeline.services.lookup display = some service →
        cfg.Safe service.clientVideo
  | .finish display _ call _ put => ∀ service,
      s.pipeline.services.lookup display = some service →
      (s.worker cfg display service).reading = .all false false → put = true →
      call.openh264 = none → call.forceKey = false
  | _ => True

structure Guarded : Prop where
  running : s.pipeline.wantEvrtck = false → s.FacingSafe cfg
  reading : ∀ display service, s.pipeline.services.lookup display = some service →
    (s.worker cfg display service).reading = .all false false → cfg.Safe service.clientVideo
  encoders : ∀ display service, s.pipeline.services.lookup display = some service →
    cfg.Safe service.clientVideo → (s.worker cfg display service).encoders.H264Only

end RelayHost

/-! Encoding. -/

section Encoding

variable {m : MultiEncoder} {call : EncodeCall}

/-- What a backend puts out is of its codec. -/
theorem turn_codec {desired : Option NvencCodec} {disabled : Bool} {result : BackendResult}
    {spsPps : Option (List UInt8)} {output : Option EncodedOutput}
    (h : turn desired disabled result spsPps = .taken output) {out : EncodedOutput}
    (hout : output = some out) : ∃ codec, desired = some codec ∧ out.codec = codecLabel codec := by
  unfold turn at h
  cases hfilter : desired.filter fun _ => !disabled with
  | none =>
      rw [hfilter] at h
      cases h
  | some codec =>
      rw [hfilter] at h
      have hdesired : desired = some codec := (Option.filter_eq_some_iff.mp hfilter).1
      cases result with
      | packet packet =>
          cases h
          cases hout
          exact ⟨codec, hdesired, rfl⟩
      | pending =>
          cases h
          cases hout
      | failed => cases h

/-- Encoders keep their codecs. -/
theorem encode_h264Only (h : m.H264Only) : (m.encode call).1.H264Only := by
  obtain ⟨hnv, hvpl, hmf, hvt⟩ := m.encode_keeps call
  unfold MultiEncoder.H264Only
  rw [hnv, hvpl, hmf, hvt]
  exact h

/-- Encoders for H264 alone put out H264, unless they fall back to a picture. -/
theorem encode_h264 (h : m.H264Only) (hpicture : call.openh264 = none → call.forceKey = false)
    {out : EncodedOutput} (hout : (m.encode call).2 = some out) : out.codec = .h264 := by
  rcases m.encode_taken call with ⟨desired, hmem, disabled, result, spsPps, hturn⟩ | hsoftware
  · obtain ⟨codec, rfl, hcodec⟩ := turn_codec hturn hout
    rw [hcodec, h codec hmem]
    rfl
  · rw [hsoftware, MultiEncoder.encodeSoftware] at hout
    cases hopen : call.openh264 with
    | some packet =>
        rw [hopen] at hout
        cases hout
        rfl
    | none =>
        rw [hopen, hpicture hopen] at hout
        cases hout

end Encoding

/-! Tasks. -/

/-- What a task may change of what the guard looks at. -/
structure TaskEffect (p : Pipeline) (task : Task) (next : Pipeline) : Prop where
  evrtActive : next.evrtActive = p.evrtActive
  wantEvrtck : next.wantEvrtck = false → p.wantEvrtck = false ∨ task.LeavesEvrtck p
  services : (next.services = p.services ∧ ∀ display, task ≠ .start display) ∨
    (∃ display, task = .stop display ∧ next.services = p.services.erase display) ∨
    ∃ display service, task = .start display ∧ service.clientVideo = p.clientVideo ∧
      next.services = p.services.insert display service

section Tasks

variable {p : Pipeline} {task : Task} {next : Pipeline}

theorem TaskEffect.of_same (hactive : next.evrtActive = p.evrtActive)
    (hwant : next.wantEvrtck = p.wantEvrtck) (hservices : next.services = p.services)
    (htask : ∀ display, task ≠ .start display) : TaskEffect p task next :=
  ⟨hactive, fun h => .inl (hwant ▸ h), .inl ⟨hservices, htask⟩⟩

theorem perform_effect (iter : IterOrder Int) (p : Pipeline) (task : Task) :
    TaskEffect p task (p.perform iter task).1 := by
  cases task with
  | noteEvrt =>
      unfold Pipeline.perform
      dsimp only
      split
      · split
        · exact .of_same rfl rfl rfl nofun
        · exact .of_same rfl rfl rfl nofun
      · exact .of_same rfl rfl rfl nofun
  | noteDeadline passed =>
      unfold Pipeline.perform
      dsimp only
      split
      · exact .of_same rfl rfl rfl nofun
      · exact .of_same rfl rfl rfl nofun
  | noteFirstCodec newVideo =>
      unfold Pipeline.perform Pipeline.noteFirstCodec
      dsimp only
      split
      · exact .of_same rfl rfl rfl nofun
      next hfirst =>
        refine ⟨rfl, fun hwant => .inr ⟨?_, hwant⟩, .inl ⟨rfl, nofun⟩⟩
        exact Bool.eq_false_of_not_eq_true hfirst
  | takeClientCodec newVideo =>
      unfold Pipeline.perform Pipeline.takeClientCodec
      dsimp only
      split
      · split
        · exact .of_same rfl rfl rfl nofun
        · exact .of_same rfl rfl rfl nofun
      · exact .of_same rfl rfl rfl nofun
  | considerSilicon requested =>
      unfold Pipeline.perform
      dsimp only
      split
      · split
        · exact .of_same rfl rfl rfl nofun
        · exact .of_same rfl rfl rfl nofun
      · exact .of_same rfl rfl rfl nofun
  | enterSilicon prefer => exact ⟨rfl, fun _ => .inr trivial, .inl ⟨rfl, nofun⟩⟩
  | considerReturn requested =>
      unfold Pipeline.perform
      dsimp only
      split
      · exact ⟨rfl, nofun, .inl ⟨rfl, nofun⟩⟩
      · exact .of_same rfl rfl rfl nofun
  | restart => exact .of_same rfl rfl rfl nofun
  | setSubscribedDisplays displays => exact .of_same rfl rfl rfl nofun
  | stop display => exact ⟨rfl, .inl, .inr (.inl ⟨display, rfl, rfl⟩)⟩
  | startMissing missing => exact .of_same rfl rfl rfl nofun
  | start display => exact ⟨rfl, .inl, .inr (.inr ⟨display, _, rfl, rfl, rfl⟩)⟩
  | subscribe displays => exact .of_same rfl rfl rfl nofun

end Tasks

namespace RelayHost

section Steps

variable {cfg : RelayConfig} {iter : IterOrder Int} {s : RelayHost}

/-- Services that go on as they were keep the guard, and so do new ones that may
face the relay if they do. -/
theorem Guarded.of_kept (h : s.Guarded cfg) {t : RelayHost}
    (hactive : t.pipeline.evrtActive = s.pipeline.evrtActive)
    (hfacing : t.pipeline.wantEvrtck = false → s.FacingSafe cfg)
    (hkept : ∀ display service, t.pipeline.services.lookup display = some service →
      (s.pipeline.services.lookup display = some service ∧ t.workers display = s.workers display) ∨
      (t.workers display = none ∧ (t.pipeline.wantEvrtck = false →
        t.pipeline.evrtActive = false → cfg.Safe service.clientVideo))) :
    t.Guarded cfg := by
  refine ⟨?_, ?_, ?_⟩
  · intro hwant display service hservice hface
    rcases hkept display service hservice with ⟨hold, hworker⟩ | ⟨hworker, hsafe⟩
    · apply hfacing hwant display service hold
      unfold Facing worker at hface ⊢
      rw [hactive, hworker] at hface
      exact hface
    · unfold Facing worker at hface
      rw [hworker] at hface
      rcases hface with hoff | hreading
      · exact hsafe hwant hoff
      · cases hreading
  · intro display service hservice hreading
    unfold worker at hreading
    rcases hkept display service hservice with ⟨hold, hworker⟩ | ⟨hworker, _⟩
    · rw [hworker] at hreading
      exact h.reading display service hold hreading
    · rw [hworker] at hreading
      cases hreading
  · intro display service hservice hsafe
    unfold worker
    rcases hkept display service hservice with ⟨hold, hworker⟩ | ⟨hworker, _⟩
    · rw [hworker]
      exact h.encoders display service hold hsafe
    · rw [hworker]
      exact hsafe

theorem Guarded.withWorker (h : s.Guarded cfg) {display : Int} {service : VideoService}
    (hservice : s.pipeline.services.lookup display = some service) {worker : Worker}
    (hsession : s.pipeline.wantEvrtck = false → worker.reading = .session false →
      cfg.Safe service.clientVideo)
    (hall : worker.reading = .all false false → cfg.Safe service.clientVideo)
    (hencoders : cfg.Safe service.clientVideo → worker.encoders.H264Only) :
    (s.withWorker display worker).Guarded cfg := by
  have hthis : ∀ other, (s.withWorker display worker).worker cfg display other = worker := by
    intro other
    simp [RelayHost.worker, RelayHost.withWorker]
  have hother : ∀ other video, other ≠ display →
      (s.withWorker display worker).worker cfg other video = s.worker cfg other video := by
    intro other video hne
    simp [RelayHost.worker, RelayHost.withWorker, Function.update_of_ne hne]
  refine ⟨?_, ?_, ?_⟩
  · intro hwant other video hvideo hface
    by_cases hsame : other = display
    · subst hsame
      cases hservice.symm.trans hvideo
      rcases hface with hoff | hreading
      · exact h.running hwant other service hservice (.inl hoff)
      · rw [hthis] at hreading
        exact hsession hwant hreading
    · apply h.running hwant other video hvideo
      unfold Facing at hface
      rw [hother other video hsame] at hface
      exact hface
  · intro other video hvideo hreading
    by_cases hsame : other = display
    · subst hsame
      cases hservice.symm.trans hvideo
      rw [hthis] at hreading
      exact hall hreading
    · rw [hother other video hsame] at hreading
      exact h.reading other video hvideo hreading
  · intro other video hvideo hsafe
    by_cases hsame : other = display
    · subst hsame
      cases hservice.symm.trans hvideo
      rw [hthis]
      exact hencoders hsafe
    · rw [hother other video hsame]
      exact h.encoders other video hvideo hsafe

theorem advance_guarded (h : s.Guarded cfg) (hok : s.CodecGuarded cfg .advance) :
    (s.advance iter).Guarded cfg := by
  unfold advance
  cases htasks : s.tasks with
  | nil => exact h
  | cons task tasks =>
      obtain ⟨hstart, hleave⟩ := hok task (by rw [htasks]; rfl)
      obtain ⟨hactive, hwant, hservices⟩ := perform_effect iter s.pipeline task
      apply h.of_kept hactive
      · intro hoff
        rcases hwant hoff with hold | hleaves
        · exact h.running hold
        · exact hleave hleaves
      · intro display service hservice
        rcases hservices with ⟨hsame, hnone⟩ | ⟨stopped, rfl, hsame⟩ |
          ⟨started, fresh, rfl, hvideo, hsame⟩
        · left
          rw [hsame] at hservice
          refine ⟨hservice, ?_⟩
          cases task with
          | start other => exact absurd rfl (hnone other)
          | _ => rfl
        · left
          rw [hsame] at hservice
          by_cases hdisplay : display = stopped
          · subst hdisplay
            rw [AList.lookup_erase] at hservice
            cases hservice
          · rw [AList.lookup_erase_ne hdisplay] at hservice
            exact ⟨hservice, rfl⟩
        · rw [hsame] at hservice
          by_cases hdisplay : display = started
          · subst hdisplay
            rw [AList.lookup_insert] at hservice
            cases hservice
            right
            refine ⟨by simp, ?_⟩
            intro hoff hsession
            rw [hvideo]
            exact hstart display rfl hoff hsession
          · rw [AList.lookup_insert_ne hdisplay] at hservice
            exact .inl ⟨hservice, by simp [Function.update_of_ne hdisplay]⟩

theorem readSession_guarded (h : s.Guarded cfg) (display : Int) :
    (s.readSession cfg display).Guarded cfg := by
  unfold readSession
  split
  · exact h
  next service hservice =>
    dsimp only
    split
    · apply h.withWorker hservice
      · intro hwant hreading
        apply h.running hwant display service hservice
        left
        simpa using hreading
      · nofun
      · exact h.encoders display service hservice
    · exact h

theorem readWanted_guarded (h : s.Guarded cfg) (display : Int) :
    (s.readWanted cfg display).Guarded cfg := by
  unfold readWanted
  split
  · exact h
  next service hservice =>
    dsimp only
    split
    next evrtOn hread =>
      apply h.withWorker hservice
      · nofun
      · intro hreading
        obtain ⟨rfl, hwant⟩ := Reading.all.inj hreading
        exact h.running hwant display service hservice (.inr hread)
      · exact h.encoders display service hservice
    · exact h

section Frames

variable (worker : Worker) (usingEvrtck : Bool) (display : Int) (evrtck : EncodedPacket)
  (call : EncodeCall) (ptsUs : UInt64)

/-- After a frame, a service reads again. -/
theorem encode_reading :
    (encode worker usingEvrtck display evrtck call ptsUs).1.reading = .nothing := by
  unfold encode
  split <;> rfl

theorem encode_encoders (h : worker.encoders.H264Only) :
    (encode worker usingEvrtck display evrtck call ptsUs).1.encoders.H264Only := by
  unfold encode
  split
  · exact h
  · exact encode_h264Only h

/-- What a service encodes for the relay is EVRTCK or H264. -/
theorem encode_codec (hsafe : usingEvrtck = false → worker.encoders.H264Only)
    (hpicture : usingEvrtck = false → call.openh264 = none → call.forceKey = false)
    {frame : EncodedFrame}
    (hframe : (encode worker usingEvrtck display evrtck call ptsUs).2 = some frame) :
    frame.codec = .h264 ∨ frame.codec = .evrtck := by
  unfold encode at hframe
  cases usingEvrtck with
  | true =>
      cases hframe
      exact .inr rfl
  | false =>
      obtain ⟨out, hout, rfl⟩ := Option.map_eq_some_iff.mp hframe
      exact .inl (encode_h264 (hsafe rfl) (hpicture rfl) hout)

end Frames

theorem finish_guarded (h : s.Guarded cfg) (display : Int) (evrtck : EncodedPacket)
    (call : EncodeCall) (ptsUs : UInt64) (put : Bool) :
    (s.finish cfg display evrtck call ptsUs put).1.Guarded cfg := by
  unfold finish
  split
  · exact h
  next service hservice =>
    dsimp only
    split
    next evrtOn usingEvrtck hread =>
      apply h.withWorker hservice
      · rw [encode_reading]
        nofun
      · rw [encode_reading]
        nofun
      · intro hsafe
        exact encode_encoders _ _ _ _ _ _ (h.encoders display service hservice hsafe)
    · exact h

theorem finish_ok (h : s.Guarded cfg) {display : Int} {evrtck : EncodedPacket}
    {call : EncodeCall} {ptsUs : UInt64} {put : Bool}
    (hok : s.CodecGuarded cfg (.finish display evrtck call ptsUs put)) {relayed : Relayed}
    (hrelayed : (s.finish cfg display evrtck call ptsUs put).2 = some relayed) :
    relayed.Ok := by
  unfold finish at hrelayed
  cases hservice : s.pipeline.services.lookup display with
  | none =>
      rw [hservice] at hrelayed
      cases hrelayed
  | some service =>
      rw [hservice] at hrelayed
      dsimp only at hrelayed
      split at hrelayed
      next evrtOn usingEvrtck hread =>
        split at hrelayed
        · cases hrelayed
        next hput =>
          obtain ⟨rfl, rfl⟩ : evrtOn = false ∧ put = true := by simpa using hput
          obtain ⟨frame, hframe, rfl⟩ := Option.map_eq_some_iff.mp hrelayed
          have hcodec : frame.codec = .h264 ∨ frame.codec = .evrtck := by
            apply encode_codec _ _ _ _ _ _ _ _ hframe
            · rintro rfl
              apply h.encoders display service hservice
              exact h.reading display service hservice hread
            · rintro rfl
              exact hok service hservice hread rfl
          refine ⟨?_, hcodec⟩
          rcases hcodec with hh264 | hevrtck
          · simp [makeTcpVideoFrame, hh264, VideoMessage.tag]
          · simp [makeTcpVideoFrame, hevrtck, VideoMessage.tag]
      · cases hrelayed

theorem step_guarded {input : RelayInput} (h : s.Guarded cfg) (hok : s.CodecGuarded cfg input) :
    (s.step cfg iter input).1.Guarded cfg ∧
      ∀ relayed, (s.step cfg iter input).2 = some relayed → relayed.Ok := by
  cases input with
  | command command =>
      refine ⟨?_, nofun⟩
      unfold step
      dsimp only
      split
      · exact ⟨h.running, h.reading, h.encoders⟩
      · exact h
  | advance => exact ⟨advance_guarded h hok, nofun⟩
  | punch =>
      refine ⟨?_, nofun⟩
      unfold step
      dsimp only
      split
      · exact h
      · refine ⟨?_, h.reading, h.encoders⟩
        intro hwant display service hservice hface
        rcases hface with hoff | hreading
        · cases hoff
        · exact h.running hwant display service hservice (.inr hreading)
  | sessionEnded =>
      refine ⟨?_, nofun⟩
      unfold step
      dsimp only
      split
      next hon =>
        refine ⟨?_, h.reading, h.encoders⟩
        intro hwant display service hservice _
        exact hok hon hwant display service hservice
      · exact h
  | readSession display => exact ⟨readSession_guarded h display, nofun⟩
  | readWanted display => exact ⟨readWanted_guarded h display, nofun⟩
  | finish display evrtck call ptsUs put =>
      exact ⟨finish_guarded h display evrtck call ptsUs put, fun _ => finish_ok h hok⟩

theorem guarded_start (client : ClientVideoSupport) : (start client).Guarded cfg := by
  have hempty : ∀ display, (start client).pipeline.services.lookup display = none := fun _ => rfl
  refine ⟨?_, ?_, ?_⟩
  · intro _ display service hservice _
    rw [hempty] at hservice
    cases hservice
  · intro display service hservice _
    rw [hempty] at hservice
    cases hservice
  · intro display service hservice _
    rw [hempty] at hservice
    cases hservice

end Steps

end RelayHost

/-- In every run that keeps the guard, the relay carries EVRTCK and H264 under their
own names. -/
theorem relay_codec_safe {cfg : RelayConfig} {iter : IterOrder Int}
    {client : ClientVideoSupport} {inputs : List RelayInput}
    (h : (relayHost cfg iter).Along (RelayHost.CodecGuarded cfg) (RelayHost.start client) inputs) :
    ∀ output ∈ (relayHost cfg iter).outputs (RelayHost.start client) inputs,
      ∀ relayed, output = some relayed → relayed.Ok :=
  (relayHost cfg iter).outputs_forall (fun _ _ => RelayHost.step_guarded)
    (RelayHost.guarded_start client) h

/-- The card takes the place of the software encoder. -/
def cardConfig : RelayConfig where
  encoderPreference := .auto
  codecPreference := .evrtck
  backends := {
    nvencEncoderCodecs := [.h264, .h265]
    onevplEncoderCodecs := []
    mfEncoderCodecs := []
    mfHardware := fun _ => false
    videotoolboxCodecs := [] }

def clientOf (prefer : PreferCodec) : ClientVideoSupport where
  h264 := true
  h265 := true
  av1 := false
  prefer := prefer

/-- The service of a display is started, and its first frame goes to the relay. -/
def firstFrame : List RelayInput :=
  [.advance, .advance, .advance, .advance, .readSession 0, .readWanted 0,
    .finish 0 { bytes := [], key := true } {
      nvenc := .packet { bytes := [], key := true }
      onevpl := .pending
      mf := .pending
      mfCodecConfig := none
      videotoolbox := .pending
      openh264 := some { bytes := [], key := true }
      png := []
      forceKey := true } 0 true]

theorem relay_codec_safe_first_frame :
    some ⟨.h264s [] true 0 0, .h264⟩ ∈ (relayHost cardConfig (IterOrder.stored _)).outputs
        (RelayHost.start (clientOf .h264)) firstFrame ∧
      Relayed.Ok ⟨.h264s [] true 0 0, .h264⟩ := by
  have hrelayed : some ⟨.h264s [] true 0 0, .h264⟩ ∈
      (relayHost cardConfig (IterOrder.stored _)).outputs
        (RelayHost.start (clientOf .h264)) firstFrame := by
    decide
  refine ⟨hrelayed, relay_codec_safe ?_ _ hrelayed _ rfl⟩
  refine ⟨?_, ?_, ?_, ?_, trivial, trivial, ?_, trivial⟩
  · rintro task ⟨⟩
    exact ⟨nofun, False.elim⟩
  · rintro task ⟨⟩
    exact ⟨nofun, False.elim⟩
  · rintro task ⟨⟩
    refine ⟨fun _ _ _ _ => ?_, False.elim⟩
    decide
  · rintro task ⟨⟩
    exact ⟨nofun, False.elim⟩
  · intro service _ _ _ hsoftware
    cases hsoftware

/-- The client prefers H265. -/
theorem first_frame_is_h265 :
    ¬ ∀ (cfg : RelayConfig) (iter : IterOrder Int) (client : ClientVideoSupport)
      (inputs : List RelayInput),
      ∀ output ∈ (relayHost cfg iter).outputs (RelayHost.start client) inputs,
        ∀ relayed, output = some relayed → relayed.Ok := by
  intro hall
  have hrelayed : some {
        message := .h265s [] true 0 0
        producer := .h265 } ∈ (relayHost cardConfig (IterOrder.stored _)).outputs
      (RelayHost.start (clientOf .h265)) firstFrame := by
    decide
  obtain ⟨_, hh264 | hevrtck⟩ := hall cardConfig (IterOrder.stored _) (clientOf .h265)
    firstFrame _ hrelayed _ rfl
  · cases hh264
  · cases hevrtck

end EvertyDesk.Host
