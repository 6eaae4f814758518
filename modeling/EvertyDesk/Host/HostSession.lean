import EvertyDesk.Client.CodecSwitch
import EvertyDesk.Evrt.ControlMessages
import EvertyDesk.Evrt.SessionConfig
import EvertyDesk.Host.SendChain

/-!
The host's side of an EVRT session. It sends its configuration until the client is heard,
corrects it for the client's screen, and then sends the pipeline's frames; the
configuration is sent again every two seconds, with the codec of the last frame.

A client may start from any of these configurations. The numbers that are shared with the
pipeline are read once in a pass, and every datagram is sent. Frames that the correction
throws away do not come to a pass; reports are heard before the first pass only, what the
relief makes of later ones is read as the scale of the bitrate.
-/

namespace EvertyDesk.EvrtSession

open Evrt Host EvrtClient

structure SessionParams where
  send : SendConfig
  wantEvrtck : Bool
  preference : CodecPreference
  fsrEnabled : Bool
  screenWidth : UInt32
  screenHeight : UInt32

/-- What a pass reads. Times are in milliseconds; a size is two numbers of 32 bits, and 0
where it is not known. -/
structure Readings where
  now : Nat
  targetFps : UInt32
  qualityMilli : UInt32
  bitrateScaleMilli : UInt32
  actualEncodeRes : UInt64
  clientMaxRes : UInt64

def responseDeadline : Nat := 5000
def keepaliveInterval : Nat := 2000
def idrRatelimit : Int := 500

def packedWidth (packed : UInt64) : UInt32 := ((packed >>> 32) &&& 0xFFFFFFFF).toUInt32
def packedHeight (packed : UInt64) : UInt32 := (packed &&& 0xFFFFFFFF).toUInt32

def packSize (width height : UInt32) : UInt64 := width.toUInt64 <<< 32 ||| height.toUInt64

def h264TargetBitrateBps (width height fps qualityMilli : UInt32) : UInt32 :=
  let pixels := (max width 1).toUInt64 * (max height 1).toUInt64
  let fps := (min (max fps 5) 60).toUInt64
  let quality := (min (max qualityMilli 700) 4000).toUInt64
  let maxBps : UInt64 := if 1000 < qualityMilli then 40000000 else 14000000
  (min (max (pixels * fps * 55 * quality / 1000000) 800000) maxBps).toUInt32

def scaleBitrateBps (baseBps scaleMilli : UInt32) : UInt32 :=
  (baseBps.toUInt64 * (min (max scaleMilli 1) 1000).toUInt64 / 1000).toUInt32

namespace SessionParams

variable (p : SessionParams)

/-- H265 and AV1 are announced only where they were asked for. -/
def initialCodec : CodecLabel :=
  if p.wantEvrtck then .evrtck
  else
    match p.preference with
    | .h265 => .h265
    | .av1 => .av1
    | _ => .h264

/-- The screen, made narrower where the client's is, with an even height. -/
def fittedSize (clientMaxRes : UInt64) : UInt32 × UInt32 :=
  let maxW := packedWidth clientMaxRes
  if maxW < p.screenWidth then
    (maxW, ((maxW.toUInt64 * p.screenHeight.toUInt64 / p.screenWidth.toUInt64).toUInt32 + 1) &&&
      ~~~1)
  else (p.screenWidth, p.screenHeight)

def encodeSize (r : Readings) : UInt32 × UInt32 :=
  if r.actualEncodeRes ≠ 0 then (packedWidth r.actualEncodeRes, packedHeight r.actualEncodeRes)
  else if r.clientMaxRes ≠ 0 then p.fittedSize r.clientMaxRes
  else (p.screenWidth, p.screenHeight)

def initialConfig (r : Readings) : SessionConfig :=
  let (width, height) := p.encodeSize r
  let fps := min (max r.targetFps 5) 60
  { codec := (announcedText p.initialCodec).toList
    preset := if p.fsrEnabled then "GAME".toList else "MEDIA".toList
    width := width
    height := height
    fps := fps
    bitrate := h264TargetBitrateBps width height fps r.qualityMilli
    streamMode := "single".toList
    adaptationMode := "GAME".toList }

end SessionParams

inductive SessionPhase where
  | waiting
  | running
  | ended
deriving DecidableEq

structure HostSession where
  phase : SessionPhase
  deadline : Nat
  config : SessionConfig
  sender : SendLoop
  kfRequested : Bool
  lastKfRequest : Int
  lastKeepalive : Nat
  /-- The key frames that were asked of the pipeline. -/
  idrRequests : Nat

/-- A datagram as it was sent: a configuration, or one of the stream of video. -/
inductive Outgoing where
  | config (cfg : SessionConfig)
  | stream (datagram : InFlight)
deriving DecidableEq

inductive SessionInput where
  /-- None came, or none of the client's. -/
  | await (datagram : Option (List UInt8)) (r : Readings)
  /-- The receive thread, at a datagram of the client. -/
  | receive (datagram : List UInt8)
  | pass (frame : Option SendFrame) (r : Readings)
  | stop

namespace HostSession

section Model

variable (sha : Sha256) (p : SessionParams)

def start (r : Readings) : HostSession where
  phase := .waiting
  deadline := r.now + responseDeadline
  config := p.initialConfig r
  sender := .start p.initialCodec
  kfRequested := false
  lastKfRequest := (r.now : Int) - 60000
  lastKeepalive := r.now
  idrRequests := 0

/-- The configuration is sent twice in case one is lost. -/
def greeting (r : Readings) : List Outgoing :=
  [.config (p.initialConfig r), .config (p.initialConfig r)]

variable (s : HostSession)

/-- The size that the client is known to bound its pictures to, from now on. -/
def clientBound (message : ControlMessage) (r : Readings) : UInt64 :=
  match message with
  | .receiverFeedback fb =>
      if 0 < fb.maxWidth ∧ 0 < fb.maxHeight then packSize fb.maxWidth fb.maxHeight
      else r.clientMaxRes
  | .requestKeyFrame => r.clientMaxRes

/-- The client is there. A configuration of another size is corrected before the first
frame. -/
def confirm (message : ControlMessage) (r : Readings) : HostSession × List Outgoing :=
  let s := { s with
    phase := .running
    lastKeepalive := r.now
    lastKfRequest := (r.now : Int) - 60000 }
  let maxPacked := clientBound message r
  let (width, height) := p.fittedSize maxPacked
  if maxPacked ≠ 0 ∧ (width ≠ s.config.width ∨ height ≠ s.config.height) then
    let config := { s.config with
      width := width
      height := height
      bitrate := h264TargetBitrateBps width height s.config.fps r.qualityMilli }
    ({ s with config := config, idrRequests := s.idrRequests + 2 },
      [.config config, .config config])
  else ({ s with idrRequests := s.idrRequests + 1 }, [])

def await (datagram : Option (List UInt8)) (r : Readings) : HostSession × List Outgoing :=
  if s.deadline < r.now then ({ s with phase := .ended }, [])
  else
    match datagram.bind (controlIn sha p.send.sessionToken) with
    | some message => s.confirm p message r
    | none => (s, [.config s.config])

def receive (datagram : List UInt8) : HostSession :=
  match controlIn sha p.send.sessionToken datagram with
  | some .requestKeyFrame => { s with kfRequested := true }
  | _ => s

def isEvrtck : Bool := s.sender.currentCodec.toUpper == "EVRTCK"

/-- Requests for key frames of EVRTCK are bounded, which are large. -/
def takeRequest (now : Nat) : HostSession :=
  let allowed := !s.isEvrtck || decide (idrRatelimit ≤ (now : Int) - s.lastKfRequest)
  if s.kfRequested && !s.sender.waitingForIdr && allowed then
    { s with
      kfRequested := false
      sender := s.sender.requestKeyFrame
      lastKfRequest := now
      idrRequests := s.idrRequests + 1 }
  else { s with kfRequested := false }

def keepalive (r : Readings) : HostSession × List Outgoing :=
  if s.lastKeepalive + keepaliveInterval < r.now then
    let fps := min (max r.targetFps 5) 60
    let encoded := r.actualEncodeRes ≠ 0
    let config :=
      if encoded then
        { s.config with
          width := packedWidth r.actualEncodeRes
          height := packedHeight r.actualEncodeRes }
      else s.config
    let (width, height) :=
      if encoded then (packedWidth r.actualEncodeRes, packedHeight r.actualEncodeRes)
      else (p.screenWidth, p.screenHeight)
    let bitrate := scaleBitrateBps (h264TargetBitrateBps width height fps r.qualityMilli)
      r.bitrateScaleMilli
    ({ s with config := config, lastKeepalive := r.now },
      [.config { config with fps := fps, bitrate := bitrate }])
  else (s, [])

/-- A frame of another codec changes the codec of the configuration as well. -/
def sendFrame (frame : SendFrame) (fps : UInt32) : HostSession × List Outgoing :=
  let changed := (codecText frame.codec).toUpper ≠ s.sender.currentCodec.toUpper
  let (sender, datagrams) := s.sender.takeFrame sha p.send frame fps
  ({ s with
    sender := sender
    config :=
      if changed then { s.config with codec := sender.currentCodec.toList } else s.config
    idrRequests := if changed ∧ ¬ frame.isIdr then s.idrRequests + 1 else s.idrRequests },
    datagrams.map fun bytes => .stream ⟨bytes, frame.codec⟩)

def pass (frame : Option SendFrame) (r : Readings) : HostSession × List Outgoing :=
  let (s, configs) := (s.takeRequest r.now).keepalive p r
  match frame with
  | none => (s, configs)
  | some frame =>
      let (s, datagrams) := s.sendFrame sha p frame r.targetFps
      (s, configs ++ datagrams)

def step : SessionInput → HostSession × List Outgoing
  | .await datagram r => if s.phase = .waiting then s.await sha p datagram r else (s, [])
  | .receive datagram => (if s.phase = .running then s.receive sha p datagram else s, [])
  | .pass frame r => if s.phase = .running then s.pass sha p frame r else (s, [])
  | .stop => ({ s with phase := .ended }, [])

end Model

end HostSession

def hostSession (sha : Sha256) (p : SessionParams) :
    Machine HostSession SessionInput (List Outgoing) where
  step := HostSession.step sha p

/-- What a session has sent, in order. -/
def sent (sha : Sha256) (p : SessionParams) (r : Readings) (inputs : List SessionInput) :
    List Outgoing :=
  HostSession.greeting p r ++ ((hostSession sha p).outputs (HostSession.start p r) inputs).flatten

/-! What a client makes of it. -/

section Client

variable (sha : Sha256) (sessionToken : Option (List UInt8))

def Outgoing.bytes : Outgoing → List UInt8
  | .config cfg => buildSingleAuthenticated sha typeSessionConfig cfg.toJson sessionToken
  | .stream datagram => datagram.bytes

/-- The configuration that a datagram is read as. -/
def sessionConfigIn (datagram : List UInt8) : Option SessionConfig :=
  match parseAuthenticated sha datagram datagram.length sessionToken with
  | none => none
  | some pkt =>
      if pkt.packetType = typeSessionConfig then SessionConfig.fromJson pkt.payload else none

/-- A client that starts with this decoder, and follows the names that it is told, has the
right one for every datagram of a frame. -/
def Suits : Decoder → List Outgoing → Prop
  | _, [] => True
  | decoder, .config cfg :: rest =>
      nameIn sha sessionToken (Outgoing.bytes sha sessionToken (.config cfg)) = none ∧
        Suits decoder rest
  | decoder, .stream datagram :: rest =>
      match nameIn sha sessionToken datagram.bytes with
      | some name => Suits (decoderOf name) rest
      | none => decoderFor datagram.codec = some decoder ∧ Suits decoder rest

end Client

/-- What a frame that is sent has to be, so that the client knows its codec. -/
def HostSession.Announces (sha : Sha256) (p : SessionParams) (s : HostSession) : SessionInput → Prop
  | .pass (some frame) r => s.phase = .running →
      ((s.takeRequest r.now).sender.announce sha p.send frame).1.skips frame = false →
        Announceable frame
  | _ => True

/-! Configurations that a session sends. -/

theorem configIn_build (sha : Sha256) (sessionToken : Option (List UInt8)) {payload : List UInt8}
    (h : payload.length ≤ 1160) :
    let datagram := buildSingleAuthenticated sha typeSessionConfig payload sessionToken
    sessionConfigIn sha sessionToken datagram = SessionConfig.fromJson payload ∧
      nameIn sha sessionToken datagram = none := by
  have hread := parse_buildSingle sha sessionToken (show typeSessionConfig < 256 by decide) h
  have hother : ¬ (typeSessionConfig = typeCodecConfig ∧ isCodecName payload = true) :=
    fun habsurd => absurd habsurd.1 (by decide)
  dsimp only at hread ⊢
  rw [sessionConfigIn, nameIn, hread]
  exact ⟨if_pos rfl, if_neg hother⟩

/-- The texts of a configuration, of which only the codec is told to the client twice. -/
structure Tells (codec : CodecLabel) (cfg : SessionConfig) : Prop where
  codec : cfg.codec = (announcedText codec).toList
  preset : cfg.preset = "GAME".toList ∨ cfg.preset = "MEDIA".toList
  streamMode : cfg.streamMode = "single".toList
  adaptationMode : cfg.adaptationMode = "GAME".toList

namespace Tells

variable {codec : CodecLabel} {cfg : SessionConfig}

theorem readable (h : Tells codec cfg) : cfg.Readable := by
  have htexts : ∀ preset ∈ ["GAME".toList, "MEDIA".toList],
      (∀ text ∈ [(announcedText codec).toList, preset, "GAME".toList, "single".toList],
        '"' ∉ text) ∧
      ∀ key ∈ ["preset".toList, "adaptationMode".toList, "width".toList, "height".toList,
        "fps".toList, "bitrate".toList, "streamMode".toList],
        key ∉ [(announcedText codec).toList, preset, "GAME".toList] := by
    cases codec <;> decide
  have hpreset : cfg.preset ∈ ["GAME".toList, "MEDIA".toList] := by
    simpa using h.preset
  obtain ⟨hunquoted, hkeys⟩ := htexts cfg.preset hpreset
  rw [← h.codec, ← h.adaptationMode] at hunquoted hkeys
  rw [← h.streamMode] at hunquoted
  simp only [List.forall_mem_cons] at hkeys
  obtain ⟨hpreset, hadaptation, hwidth, hheight, hfps, hbitrate, hstream, -⟩ := hkeys
  exact
    { unquoted := hunquoted
      preset := fun heq => absurd (heq ▸ List.mem_cons_self) hpreset
      adaptationMode := fun _ => h.adaptationMode
      width := fun habsurd => absurd habsurd hwidth
      height := fun habsurd => absurd habsurd hheight
      fps := fun habsurd => absurd habsurd hfps
      bitrate := fun habsurd => absurd habsurd hbitrate
      streamMode := fun habsurd => absurd habsurd hstream }

/-- Such a configuration fits in one datagram. -/
theorem length_toJson (h : Tells codec cfg) : cfg.toJson.length ≤ 500 := by
  have hcodec : byteLength cfg.codec ≤ 10 := by
    rw [h.codec]
    cases codec <;> decide
  have hpreset : byteLength cfg.preset ≤ 10 := by
    obtain hpreset | hpreset := h.preset <;> rw [hpreset] <;> decide
  have hstream : byteLength cfg.streamMode ≤ 10 := h.streamMode ▸ by decide
  have hadaptation : byteLength cfg.adaptationMode ≤ 10 := h.adaptationMode ▸ by decide
  have hfields : ∀ field ∈ cfg.object,
      byteLength field.1 + byteLength field.2.written ≤ 20 + 10 := by
    simp only [SessionConfig.object, List.forall_mem_cons, JsonValue.written]
    refine ⟨?_, ?_, ?_, ?_, ?_, ?_, ?_, ?_, ?_, ?_, ?_, ?_, ?_,
      fun _ hfield => absurd hfield List.not_mem_nil⟩ <;>
      apply Nat.add_le_add (by decide)
    · exact hcodec
    · exact hpreset
    · exact hadaptation
    · exact byteLength_decimal cfg.width
    · exact byteLength_decimal cfg.height
    · exact byteLength_decimal cfg.fps
    · exact byteLength_decimal cfg.bitrate
    · exact hstream
    all_goals decide
  change byteLength cfg.text ≤ 500
  rw [SessionConfig.text_eq]
  exact (JsonObject.byteLength_text_le hfields).trans (show 1 + 13 * (20 + 10 + 6) ≤ 500 by decide)

theorem readIn_self (h : Tells codec cfg) (sha : Sha256) (sessionToken : Option (List UInt8)) :
    sessionConfigIn sha sessionToken (Outgoing.bytes sha sessionToken (.config cfg)) = some cfg ∧
      nameIn sha sessionToken (Outgoing.bytes sha sessionToken (.config cfg)) = none := by
  obtain ⟨hconfig, hname⟩ :=
    configIn_build sha sessionToken (h.length_toJson.trans (by decide : 500 ≤ 1160))
  exact ⟨hconfig.trans h.readable.read_back, hname⟩

end Tells

/-! What the client makes of all that was sent. -/

section Following

variable {sha : Sha256} {sessionToken : Option (List UInt8)}

/-- From the decoder for what was sent before, the names and the configurations ask for the
decoder that the datagrams behind them need. -/
def InStep (sha : Sha256) (sessionToken : Option (List UInt8)) :
    Decoder → List Outgoing → Decoder → Prop
  | decoder, [], last => decoder = last
  | decoder, .config cfg :: rest, last =>
      (∃ codec, Tells codec cfg ∧ decoderOf (announcedText codec) = decoder) ∧
        InStep sha sessionToken decoder rest last
  | decoder, .stream datagram :: rest, last =>
      match nameIn sha sessionToken datagram.bytes with
      | some name => InStep sha sessionToken (decoderOf name) rest last
      | none => decoderFor datagram.codec = some decoder ∧
          InStep sha sessionToken decoder rest last

theorem inStep_append {decoder middle last : Decoder} {first more : List Outgoing}
    (hfirst : InStep sha sessionToken decoder first middle)
    (hmore : InStep sha sessionToken middle more last) :
    InStep sha sessionToken decoder (first ++ more) last := by
  induction first generalizing decoder with
  | nil =>
      rw [InStep] at hfirst
      exact hfirst ▸ hmore
  | cons outgoing first ih =>
      cases outgoing with
      | config cfg => exact ⟨hfirst.1, ih hfirst.2⟩
      | stream datagram =>
          rw [List.cons_append, InStep]
          rw [InStep] at hfirst
          split
          next name hname =>
            rw [hname] at hfirst
            exact ih hfirst
          next hname =>
            rw [hname] at hfirst
            exact ⟨hfirst.1, ih hfirst.2⟩

/-- The stream of video is in step if its datagrams follow one another. -/
theorem inStep_stream {decoder last : Decoder} {datagrams : List InFlight}
    (h : Follows sha sessionToken decoder datagrams last) :
    InStep sha sessionToken decoder (datagrams.map .stream) last := by
  induction datagrams generalizing decoder with
  | nil => exact h
  | cons datagram datagrams ih =>
      rw [List.map_cons, InStep]
      rw [Follows] at h
      split
      next name hname =>
        rw [hname] at h
        exact ih h
      next hname =>
        rw [hname] at h
        exact ⟨h.1, ih h.2⟩

theorem InStep.suits {decoder last : Decoder} {outgoing : List Outgoing}
    (h : InStep sha sessionToken decoder outgoing last) :
    Suits sha sessionToken decoder outgoing := by
  induction outgoing generalizing decoder with
  | nil => trivial
  | cons first outgoing ih =>
      cases first with
      | config cfg =>
          obtain ⟨⟨codec, htells, -⟩, hrest⟩ := h
          exact ⟨(htells.readIn_self sha sessionToken).2, ih hrest⟩
      | stream datagram =>
          rw [Suits]
          rw [InStep] at h
          split
          next name hname =>
            rw [hname] at h
            exact ih h
          next hname =>
            rw [hname] at h
            exact ⟨h.1, ih h.2⟩

/-- Where a configuration stands among them, a client can start. -/
theorem InStep.starts {decoder last : Decoder} {before after : List Outgoing} {cfg : SessionConfig}
    (h : InStep sha sessionToken decoder (before ++ .config cfg :: after) last) :
    sessionConfigIn sha sessionToken (Outgoing.bytes sha sessionToken (.config cfg)) = some cfg ∧
      Suits sha sessionToken (decoderOf (String.ofList cfg.codec)) after := by
  induction before generalizing decoder with
  | nil =>
      obtain ⟨⟨codec, htells, hdecoder⟩, hafter⟩ := h
      refine ⟨(htells.readIn_self sha sessionToken).1, ?_⟩
      rw [htells.codec, String.ofList_toList, hdecoder]
      exact hafter.suits
  | cons first before ih =>
      cases first with
      | config other => exact ih h.2
      | stream datagram =>
          rw [List.cons_append, InStep] at h
          split at h
          · exact ih h
          · exact ih h.2

end Following

/-! The session. -/

namespace HostSession

section Steps

variable {sha : Sha256} {p : SessionParams} {s : HostSession}

/-- The codec that the configuration names is the one of the last frame. -/
def Named (s : HostSession) : Prop :=
  ∃ codec, Tells codec s.config ∧ s.sender.currentCodec = announcedText codec

theorem named_start (p : SessionParams) (r : Readings) : (start p r).Named := by
  refine ⟨p.initialCodec, ⟨rfl, ?_, rfl, rfl⟩, announcedText_upper _⟩
  change (if p.fsrEnabled then _ else _) = _ ∨ (if p.fsrEnabled then _ else _) = _
  split
  · exact .inl rfl
  · exact .inr rfl

/-- What a part of a step does: it keeps the codec that is named, and sends what is in step
with it. -/
structure InTurn (sha : Sha256) (sessionToken : Option (List UInt8)) (s : HostSession)
    (next : HostSession × List Outgoing) : Prop where
  named : next.1.Named
  inStep : InStep sha sessionToken (decoderOf s.sender.currentCodec) next.2
    (decoderOf next.1.sender.currentCodec)

theorem InTurn.still {sessionToken : Option (List UInt8)} {s' : HostSession}
    (h : s.Named) (hconfig : s'.config = s.config)
    (hsender : s'.sender.currentCodec = s.sender.currentCodec) :
    InTurn sha sessionToken s (s', []) := by
  obtain ⟨codec, htells, hcurrent⟩ := h
  exact ⟨⟨codec, hconfig ▸ htells, hsender.trans hcurrent⟩, congrArg decoderOf hsender.symm⟩

theorem InTurn.trans {sessionToken : Option (List UInt8)} {next last : HostSession × List Outgoing}
    (hfirst : InTurn sha sessionToken s next) (hlast : InTurn sha sessionToken next.1 last) :
    InTurn sha sessionToken s (last.1, next.2 ++ last.2) :=
  ⟨hlast.named, inStep_append hfirst.inStep hlast.inStep⟩

theorem confirm_inTurn (h : s.Named) (message : ControlMessage) (r : Readings) :
    InTurn sha p.send.sessionToken s (s.confirm p message r) := by
  unfold confirm
  dsimp only
  split
  next =>
    obtain ⟨codec, htells, hcurrent⟩ := h
    have hdecoder : decoderOf (announcedText codec) = decoderOf s.sender.currentCodec :=
      congrArg decoderOf hcurrent.symm
    have hsent : ∀ width height bitrate,
        Tells codec { s.config with width := width, height := height, bitrate := bitrate } :=
      fun _ _ _ => ⟨htells.codec, htells.preset, htells.streamMode, htells.adaptationMode⟩
    exact ⟨⟨codec, hsent _ _ _, hcurrent⟩, ⟨codec, hsent _ _ _, hdecoder⟩,
      ⟨codec, hsent _ _ _, hdecoder⟩, rfl⟩
  next => exact .still h rfl rfl

theorem await_inTurn (h : s.Named) (datagram : Option (List UInt8)) (r : Readings) :
    InTurn sha p.send.sessionToken s (s.await sha p datagram r) := by
  unfold await
  split
  · exact .still h rfl rfl
  split
  · exact confirm_inTurn h _ r
  · obtain ⟨codec, htells, hcurrent⟩ := h
    exact ⟨⟨codec, htells, hcurrent⟩, ⟨codec, htells, congrArg decoderOf hcurrent.symm⟩, rfl⟩

theorem takeRequest_config (s : HostSession) (now : Nat) :
    (s.takeRequest now).config = s.config ∧
      (s.takeRequest now).sender.currentCodec = s.sender.currentCodec := by
  unfold takeRequest
  dsimp only
  split
  · exact ⟨rfl, rfl⟩
  · exact ⟨rfl, rfl⟩

theorem keepalive_sender (p : SessionParams) (s : HostSession) (r : Readings) :
    (s.keepalive p r).1.sender = s.sender := by
  unfold keepalive
  split <;> rfl

theorem keepalive_inTurn (h : s.Named) (r : Readings) :
    InTurn sha p.send.sessionToken s (s.keepalive p r) := by
  unfold keepalive
  split
  · obtain ⟨codec, htells, hcurrent⟩ := h
    have hsized : ∀ width height, Tells codec { s.config with width := width, height := height } :=
      fun _ _ => ⟨htells.codec, htells.preset, htells.streamMode, htells.adaptationMode⟩
    have hconfig : Tells codec (if r.actualEncodeRes ≠ 0 then
        { s.config with
          width := packedWidth r.actualEncodeRes
          height := packedHeight r.actualEncodeRes }
        else s.config) := by
      split
      · exact hsized _ _
      · exact htells
    have hsent : ∀ (cfg : SessionConfig) fps bitrate, Tells codec cfg →
        Tells codec { cfg with fps := fps, bitrate := bitrate } :=
      fun _ _ _ h => ⟨h.codec, h.preset, h.streamMode, h.adaptationMode⟩
    exact ⟨⟨codec, hconfig, hcurrent⟩,
      ⟨codec, hsent _ _ _ hconfig, congrArg decoderOf hcurrent.symm⟩, rfl⟩
  · exact .still h rfl rfl

theorem sendFrame_inTurn (h : s.Named) {frame : SendFrame}
    (hframe : (s.sender.announce sha p.send frame).1.skips frame = false → Announceable frame)
    (fps : UInt32) :
    InTurn sha p.send.sessionToken s (s.sendFrame sha p frame fps) := by
  have hfollows := takeFrame_follows hframe fps
  obtain ⟨hcodec, -⟩ := SendLoop.takeFrame_state sha p.send s.sender frame fps
  refine ⟨?_, ?_⟩
  · obtain ⟨codec, htells, hcurrent⟩ := h
    unfold sendFrame
    dsimp only
    by_cases hsame : (codecText frame.codec).toUpper = s.sender.currentCodec.toUpper
    · have hkept : (s.sender.announce sha p.send frame).1.currentCodec = announcedText codec := by
        rw [SendLoop.announce, if_pos hsame]
        exact hcurrent
      rw [if_neg (not_not.mpr hsame)]
      exact ⟨codec, htells, hcodec.trans hkept⟩
    · have hnew : (s.sender.announce sha p.send frame).1.currentCodec =
          announcedText frame.codec := by
        rw [SendLoop.announce, if_neg hsame]
        exact codecText_upper frame.codec
      rw [if_pos hsame]
      have hname := hcodec.trans hnew
      exact ⟨frame.codec, ⟨congrArg String.toList hname, htells.preset, htells.streamMode,
        htells.adaptationMode⟩, hname⟩
  · have hstream := inStep_stream hfollows
    rw [List.map_map] at hstream
    exact hstream

theorem pass_inTurn (h : s.Named) {frame : Option SendFrame} {r : Readings}
    (hframe : ∀ f, frame = some f →
      ((s.takeRequest r.now).sender.announce sha p.send f).1.skips f = false → Announceable f) :
    InTurn sha p.send.sessionToken s (s.pass sha p frame r) := by
  obtain ⟨hconfig, hsender⟩ := takeRequest_config s r.now
  have hasked : InTurn sha p.send.sessionToken s (s.takeRequest r.now, []) :=
    .still h hconfig hsender
  have hkept := hasked.trans (keepalive_inTurn hasked.named r)
  unfold pass
  dsimp only
  cases frame with
  | none => exact hkept
  | some frame =>
      apply hkept.trans
      apply sendFrame_inTurn hkept.named
      dsimp only
      rw [keepalive_sender]
      exact hframe frame rfl

theorem step_inTurn (h : s.Named) {input : SessionInput} (hinput : s.Announces sha p input) :
    InTurn sha p.send.sessionToken s (s.step sha p input) := by
  cases input with
  | await datagram r =>
      dsimp only [step]
      split
      · exact await_inTurn h datagram r
      · exact .still h rfl rfl
  | receive datagram =>
      apply InTurn.still h
      · unfold receive
        split
        · split <;> rfl
        · rfl
      · unfold receive
        split
        · split <;> rfl
        · rfl
  | pass frame r =>
      dsimp only [step]
      split
      next hrunning =>
        apply pass_inTurn h
        rintro f rfl
        exact hinput hrunning
      · exact .still h rfl rfl
  | stop => exact .still h rfl rfl

end Steps

end HostSession

theorem inStep_run {sha : Sha256} {p : SessionParams} {s : HostSession} (h : s.Named)
    {inputs : List SessionInput}
    (hinputs : (hostSession sha p).Along (HostSession.Announces sha p) s inputs) :
    InStep sha p.send.sessionToken (decoderOf s.sender.currentCodec)
      ((hostSession sha p).outputs s inputs).flatten
      (decoderOf ((hostSession sha p).run s inputs).sender.currentCodec) := by
  induction inputs generalizing s with
  | nil => rfl
  | cons input inputs ih =>
      have hstep := HostSession.step_inTurn h hinputs.1
      rw [Machine.outputs_cons, List.flatten_cons, Machine.run_cons]
      exact inStep_append hstep.inStep (ih hstep.named hinputs.2)

/-- A client reads every configuration of a session as it was sent; whichever it starts from,
it has the right decoder for every frame that is sent behind it. -/
theorem any_config_starts {sha : Sha256} {p : SessionParams} {r : Readings}
    {inputs : List SessionInput} {before after : List Outgoing} {cfg : SessionConfig}
    (hinputs : (hostSession sha p).Along (HostSession.Announces sha p) (HostSession.start p r)
      inputs)
    (hsent : sent sha p r inputs = before ++ .config cfg :: after) :
    sessionConfigIn sha p.send.sessionToken
        (Outgoing.bytes sha p.send.sessionToken (.config cfg)) = some cfg ∧
      Suits sha p.send.sessionToken (decoderOf (String.ofList cfg.codec)) after := by
  have hnamed := HostSession.named_start p r
  obtain ⟨codec, htells, hcurrent⟩ := hnamed
  have htold : ∃ codec, Tells codec (p.initialConfig r) ∧ decoderOf (announcedText codec) =
      decoderOf (HostSession.start p r).sender.currentCodec :=
    ⟨codec, htells, congrArg decoderOf hcurrent.symm⟩
  have hwhole : InStep sha p.send.sessionToken
      (decoderOf (HostSession.start p r).sender.currentCodec) (sent sha p r inputs)
      (decoderOf ((hostSession sha p).run (HostSession.start p r) inputs).sender.currentCodec) :=
    ⟨htold, htold, inStep_run ⟨codec, htells, hcurrent⟩ hinputs⟩
  rw [hsent] at hwhole
  exact hwhole.starts

def fullHd : SessionParams where
  send := ⟨none, false⟩
  wantEvrtck := false
  preference := .auto
  fsrEnabled := false
  screenWidth := 1920
  screenHeight := 1080

def readingsAt (now : Nat) : Readings where
  now := now
  targetFps := 30
  qualityMilli := 1000
  bitrateScaleMilli := 1000
  actualEncodeRes := 0
  clientMaxRes := 0

/-- The client asks for a key frame; when the first one comes the configuration is due, which
names H264, and the frame is of EVRTCK. -/
def switchingAtOnce : List SessionInput :=
  [.await (some (buildRequestKeyFrameAuthenticated Packetizer.zeroDigest none)) (readingsAt 0),
    .pass (some evrtckFrame) (readingsAt 3000)]

theorem any_config_starts_before_switch :
    let whole := sent Packetizer.zeroDigest fullHd (readingsAt 0) switchingAtOnce
    ∃ cfg, whole = whole.take 2 ++ .config cfg :: whole.drop 3 ∧
      sessionConfigIn Packetizer.zeroDigest fullHd.send.sessionToken
        (Outgoing.bytes Packetizer.zeroDigest fullHd.send.sessionToken (.config cfg)) =
        some cfg ∧
      Suits Packetizer.zeroDigest fullHd.send.sessionToken (decoderOf (String.ofList cfg.codec))
        (whole.drop 3) := by
  intro whole
  have hwhole : whole = whole.take 2 ++ .config (fullHd.initialConfig (readingsAt 0)) ::
      whole.drop 3 := by
    decide +kernel
  have hinputs : (hostSession Packetizer.zeroDigest fullHd).Along
      (HostSession.Announces Packetizer.zeroDigest fullHd)
      (HostSession.start fullHd (readingsAt 0)) switchingAtOnce := by
    have hall : ∀ input ∈ switchingAtOnce, ∀ s,
        HostSession.Announces Packetizer.zeroDigest fullHd s input := by
      simp only [switchingAtOnce, List.forall_mem_cons]
      exact ⟨fun _ => trivial, fun _ _ _ => ⟨rfl, fun _ _ habsurd => nomatch habsurd⟩,
        fun _ h => nomatch h⟩
    apply (Machine.along_iff _).mpr
    intro earlier input later heq
    exact hall input (heq ▸ List.mem_append_right _ List.mem_cons_self) _
  exact ⟨_, hwhole, any_config_starts hinputs hwhole⟩

end EvertyDesk.EvrtSession
