import EvertyDesk.Host.MultiEncoder

/-!
The pipeline again, with the threads that run beside its command loop: what the
loop does is split where another thread may see it half done, and every service
has the encoders that it was started with. A service reads whether there is an
EVRT session and whether EVRTCK is wanted, one after the other, encodes a frame,
and dispatches it as it has read.

The relay's channel keeps the order of what is put into it, so a frame counts as
written when it is put. A service that is stopped has finished its frame by then.
-/

namespace EvertyDesk.Host

/-! Messages. -/

/-- A frame on its way to the relay, labelled by what encoded it. -/
structure EncodedFrame where
  bytes : List UInt8
  isIdr : Bool
  ptsUs : UInt64
  display : Int
  codec : CodecLabel
deriving DecidableEq, Repr

inductive VideoMessage where
  | tcpEvrtckFrame (bytes : List UInt8)
  | h264s (data : List UInt8) (key : Bool) (pts : Int64) (display : Int)
  | h265s (data : List UInt8) (key : Bool) (pts : Int64) (display : Int)
deriving DecidableEq

def makeTcpVideoFrame (frame : EncodedFrame) : VideoMessage :=
  match frame.codec with
  | .evrtck => .tcpEvrtckFrame frame.bytes
  | .h265 => .h265s frame.bytes frame.isIdr frame.ptsUs.toInt64 frame.display
  | _ => .h264s frame.bytes frame.isIdr frame.ptsUs.toInt64 frame.display

/-- What a message says of its bytes. -/
def VideoMessage.tag : VideoMessage → CodecLabel
  | .tcpEvrtckFrame _ => .evrtck
  | .h264s _ _ _ _ => .h264
  | .h265s _ _ _ _ => .h265

/-! The command loop. -/

inductive Command where
  | poll (deadlinePassed : Bool)
  | setDisplay (display : Int)
  | setSubscribedDisplays (displays : List Int)
  | addSubscribedDisplays (displays : List Int)
  | removeSubscribedDisplays (displays : List Int)
  | setClientCodec (newVideo : ClientVideoSupport)
  | idle (siliconRequested returnRequested : Bool)
deriving DecidableEq, Repr

/-- What the command loop does in one go. -/
inductive Task where
  | noteEvrt
  | noteDeadline (passed : Bool)
  | noteFirstCodec (newVideo : ClientVideoSupport)
  | takeClientCodec (newVideo : ClientVideoSupport)
  | considerSilicon (requested : Bool)
  | enterSilicon (prefer : PreferCodec)
  | considerReturn (requested : Bool)
  | restart
  | setSubscribedDisplays (displays : List Int)
  | stop (display : Int)
  | startMissing (next : List Int)
  | start (display : Int)
  | subscribe (next : List Int)
deriving DecidableEq, Repr

def Command.tasks (p : Pipeline) : Command → List Task
  | .poll deadlinePassed => [.noteEvrt, .noteDeadline deadlinePassed]
  | .setDisplay display => [.setSubscribedDisplays [max display 0]]
  | .setSubscribedDisplays displays => [.setSubscribedDisplays displays]
  | .addSubscribedDisplays displays =>
      [.setSubscribedDisplays (p.subscribedDisplays ++ displays.map fun display => max display 0)]
  | .removeSubscribedDisplays displays =>
      let removed := displays.map fun display => max display 0
      [.setSubscribedDisplays (p.subscribedDisplays.filter (· ∉ removed))]
  | .setClientCodec newVideo => [.noteFirstCodec newVideo, .takeClientCodec newVideo]
  | .idle siliconRequested returnRequested =>
      [.considerSilicon siliconRequested, .considerReturn returnRequested]

namespace Pipeline

variable (iter : IterOrder Int) (p : Pipeline)

/-- The codec of a game is chosen; the services that run are restarted. -/
def chooseGameCodec (prefer : PreferCodec) : Pipeline × List Task :=
  (p.withGameCodec prefer, if p.subscribedDisplays.isEmpty then [] else [.restart])

/-- A codec that the client sets, once it is known whether the client gets EVRTCK. -/
def takeClientCodec (newVideo : ClientVideoSupport) : Pipeline × List Task :=
  if !p.wantEvrtck then
    let clientVideo := { p.clientVideo with
      h264 := newVideo.h264
      h265 := newVideo.h265
      av1 := newVideo.av1 }
    if p.gameCodecCommitted then ({ p with clientVideo := clientVideo }, [])
    else ({ p with pendingGameVideo := newVideo, clientVideo := clientVideo }, [])
  else
    let effVideo := p.effectiveVideo newVideo
    ({ p with clientVideo := effVideo },
      if effVideo.prefer = p.clientVideo.prefer then [] else [.restart])

/-- One task, and the tasks that it leads to. -/
def perform : Task → Pipeline × List Task
  | .noteEvrt =>
      if p.evrtActive != p.prevEvrt then
        let seen := { p with prevEvrt := p.evrtActive }
        if p.evrtActive && !p.wantEvrtck && !p.gameCodecCommitted then
          seen.chooseGameCodec p.pendingGameVideo.best
        else (seen, [])
      else (p, [])
  | .noteDeadline passed =>
      if !p.wantEvrtck && !p.gameCodecCommitted && passed then p.chooseGameCodec .h264
      else (p, [])
  | .noteFirstCodec newVideo => (p.noteFirstCodec newVideo, [])
  | .takeClientCodec newVideo => p.takeClientCodec newVideo
  | .considerSilicon requested =>
      if requested && p.wantEvrtck then
        match evrtckSiliconPrefer p.clientVideo p.evrtActive with
        | some prefer => (p, [.enterSilicon prefer])
        | none => (p, [])
      else (p, [])
  | .enterSilicon prefer => (p.withSilicon prefer, [.restart])
  | .considerReturn requested =>
      if requested && p.siliconActive then (p.withEvrtck, [.restart]) else (p, [])
  | .restart => (p, [.setSubscribedDisplays p.subscribedDisplays])
  | .setSubscribedDisplays displays =>
      let next := (displays.map fun display => max display 0).dedup
      let next := if next.isEmpty then [0] else next
      let restart := (iter.order (next.filter (· ∈ p.subscribedDisplays))).filter p.outdated
      let removed := iter.order (p.subscribedDisplays.filter (· ∉ next)) ++ restart
      (p, removed.map .stop ++ [.startMissing next])
  | .stop display => (p.stopVideoService display, [])
  | .startMissing next =>
      let added := (iter.order next).filter fun display => (p.services.lookup display).isNone
      (p, added.map .start ++ [.subscribe next])
  | .start display => (p.startVideoService display, [])
  | .subscribe next => ({ p with subscribedDisplays := next }, [])

/-- Before its first task. -/
def initial (client : ClientVideoSupport) : Pipeline where
  services := ∅
  subscribedDisplays := []
  clientVideo := client
  wantEvrtck := client.prefer.wantsEvrtck
  firstCodecSet := false
  pendingGameVideo := client
  gameCodecCommitted := false
  siliconActive := false
  evrtActive := false
  prevEvrt := false
  evrtEnded := false
  channel := []
  threads := 0

end Pipeline

/-! The services. -/

structure RelayConfig where
  encoderPreference : EncoderPreference
  codecPreference : CodecPreference
  backends : Backends

/-- The encoders that a service makes for the client. -/
def RelayConfig.encoders (cfg : RelayConfig) (client : ClientVideoSupport) : MultiEncoder :=
  MultiEncoder.new cfg.encoderPreference cfg.codecPreference client cfg.backends

/-- What a service has read for the frame that it is about to encode. -/
inductive Reading where
  | nothing
  | session (evrtOn : Bool)
  | all (evrtOn usingEvrtck : Bool)
deriving DecidableEq, Repr

structure Worker where
  encoders : MultiEncoder
  reading : Reading
deriving DecidableEq, Repr

structure RelayHost where
  pipeline : Pipeline
  /-- What is left of the command that the loop is at. -/
  tasks : List Task
  /-- The threads of the services that have looked at anything yet. -/
  workers : Int → Option Worker

inductive RelayInput where
  | command (command : Command)
  | advance
  | punch
  | sessionEnded
  | readSession (display : Int)
  | readWanted (display : Int)
  /-- A frame is encoded: by EVRTCK to these bytes, or by the encoders as they come
  out of it. It is put into a channel, or lost. -/
  | finish (display : Int) (evrtck : EncodedPacket) (call : EncodeCall) (ptsUs : UInt64)
      (put : Bool)

/-- A message for the relay and the codec of what produced its bytes. -/
structure Relayed where
  message : VideoMessage
  producer : CodecLabel
deriving DecidableEq

namespace RelayHost

def start (client : ClientVideoSupport) : RelayHost where
  pipeline := Pipeline.initial client
  tasks := [.setSubscribedDisplays [0]]
  workers := fun _ => none

variable (cfg : RelayConfig) (iter : IterOrder Int) (s : RelayHost)

/-- A service has a thread of its own, which starts afresh. -/
def advance : RelayHost :=
  match s.tasks with
  | [] => s
  | task :: tasks =>
      let (pipeline, more) := s.pipeline.perform iter task
      { pipeline := pipeline
        tasks := more ++ tasks
        workers :=
          match task with
          | .start display => Function.update s.workers display none
          | _ => s.workers }

/-- The thread of a service; its encoders are made when it starts. -/
def worker (display : Int) (service : VideoService) : Worker :=
  (s.workers display).getD { encoders := cfg.encoders service.clientVideo, reading := .nothing }

def withWorker (display : Int) (worker : Worker) : RelayHost :=
  { s with workers := Function.update s.workers display (some worker) }

def readSession (display : Int) : RelayHost :=
  match s.pipeline.services.lookup display with
  | none => s
  | some service =>
      let worker := s.worker cfg display service
      match worker.reading with
      | .nothing =>
          s.withWorker display { worker with reading := .session s.pipeline.evrtActive }
      | _ => s

def readWanted (display : Int) : RelayHost :=
  match s.pipeline.services.lookup display with
  | none => s
  | some service =>
      let worker := s.worker cfg display service
      match worker.reading with
      | .session evrtOn =>
          s.withWorker display { worker with reading := .all evrtOn s.pipeline.wantEvrtck }
      | _ => s

/-- The frame that a service has encoded, if any. -/
def encode (worker : Worker) (usingEvrtck : Bool) (display : Int) (evrtck : EncodedPacket)
    (call : EncodeCall) (ptsUs : UInt64) : Worker × Option EncodedFrame :=
  if usingEvrtck then
    ({ worker with reading := .nothing },
      some {
        bytes := evrtck.bytes
        isIdr := evrtck.key
        ptsUs := ptsUs
        display := display
        codec := .evrtck })
  else
    let (encoders, output) := worker.encoders.encode call
    ({ encoders := encoders, reading := .nothing },
      output.map fun out =>
        { bytes := out.bytes
          isIdr := out.key
          ptsUs := ptsUs
          display := display
          codec := out.codec })

def finish (display : Int) (evrtck : EncodedPacket) (call : EncodeCall) (ptsUs : UInt64)
    (put : Bool) : RelayHost × Option Relayed :=
  match s.pipeline.services.lookup display with
  | none => (s, none)
  | some service =>
      let worker := s.worker cfg display service
      match worker.reading with
      | .all evrtOn usingEvrtck =>
          let (worker, frame) := encode worker usingEvrtck display evrtck call ptsUs
          (s.withWorker display worker,
            if evrtOn || !put then none
            else frame.map fun frame =>
              { message := makeTcpVideoFrame frame, producer := frame.codec })
      | _ => (s, none)

def step : RelayInput → RelayHost × Option Relayed
  | .command command =>
      (if s.tasks.isEmpty then { s with tasks := command.tasks s.pipeline } else s, none)
  | .advance => (s.advance iter, none)
  | .punch =>
      (if s.pipeline.evrtEnded then s
        else { s with pipeline := { s.pipeline with evrtActive := true } }, none)
  | .sessionEnded =>
      (if s.pipeline.evrtActive then
          { s with pipeline := { s.pipeline with evrtActive := false, evrtEnded := true } }
        else s, none)
  | .readSession display => (s.readSession cfg display, none)
  | .readWanted display => (s.readWanted cfg display, none)
  | .finish display evrtck call ptsUs put => s.finish cfg display evrtck call ptsUs put

end RelayHost

def relayHost (cfg : RelayConfig) (iter : IterOrder Int) :
    Machine RelayHost RelayInput (Option Relayed) where
  step := RelayHost.step cfg iter

end EvertyDesk.Host
