import EvertyDesk.Evrt.Packetize
import EvertyDesk.Host.MultiEncoder

/-!
The send loop of an EVRT session. Before the first frame of another codec it sends
that codec's name, and no delta frame follows until a key frame has come.

Every datagram is sent; a send that fails ends the session. Keep-alive, region and
audio datagrams concern no video decoder and are left out.
-/

namespace EvertyDesk.EvrtSession

open Evrt Host

/-- The encoders' names of the codecs. -/
def codecText : CodecLabel → String
  | .h264 => "H264"
  | .h265 => "H265"
  | .av1 => "AV1"
  | .png => "PNG"
  | .evrtck => "evrtck"

/-- The names under which the client hears of them. -/
def announcedText : CodecLabel → String
  | .h264 => "H264"
  | .h265 => "H265"
  | .av1 => "AV1"
  | .png => "PNG"
  | .evrtck => "EVRTCK"

theorem codecText_upper (codec : CodecLabel) : (codecText codec).toUpper = announcedText codec := by
  cases codec <;> decide +kernel

theorem announcedText_upper (codec : CodecLabel) :
    (announcedText codec).toUpper = announcedText codec := by
  cases codec <;> decide +kernel

/-- What the send loop reads of an `EncodedFrame`. -/
structure SendFrame where
  bytes : List UInt8
  isIdr : Bool
  frameId : UInt32
  /-- Only of key frames. -/
  spsPps : Option (List UInt8)
  codec : CodecLabel
deriving DecidableEq, Repr

structure SendLoop where
  currentCodec : String
  waitingForIdr : Bool
  sampleHns : UInt64
deriving DecidableEq, Repr

structure SendConfig where
  sessionToken : Option (List UInt8)
  fecEnabled : Bool

def hnsPerFrame (fps : UInt32) : UInt64 := 10000000 / (max fps 1).toUInt64

namespace SendLoop

/-- The session's first configuration has told the client of this codec. -/
def start (initialCodec : CodecLabel) : SendLoop where
  currentCodec := (announcedText initialCodec).toUpper
  waitingForIdr := true
  sampleHns := 0

variable (sha : Sha256) (cfg : SendConfig) (s : SendLoop) (frame : SendFrame)

/-- A codec that is not the current one is announced, twice in case one is lost. -/
def announce : SendLoop × List (List UInt8) :=
  if (codecText frame.codec).toUpper = s.currentCodec.toUpper then (s, [])
  else
    let currentCodec := (codecText frame.codec).toUpper
    let namePkt := buildCodecConfigAuthenticated sha currentCodec.toUTF8.data.toList
      cfg.sessionToken
    ({ s with currentCodec := currentCodec, waitingForIdr := !frame.isIdr }, [namePkt, namePkt])

/-- Delta frames are not sent before a key frame. -/
def skips : Bool := s.waitingForIdr && !frame.isIdr

def configPackets : List (List UInt8) :=
  if frame.isIdr then
    match frame.spsPps with
    | some spsPps =>
        let configPacket := buildCodecConfigAuthenticated sha spsPps cfg.sessionToken
        [configPacket, configPacket]
    | none => []
  else []

def videoFrame : VideoFrame where
  frameId := frame.frameId.toNat
  presentationTimeUs := (s.sampleHns / 10).toNat
  isKeyFrame := frame.isIdr
  payload := frame.bytes
  frameId_lt := frame.frameId.toNat_lt
  time_lt := (s.sampleHns / 10).toNat_lt

def packetizer : Packetizer :=
  if cfg.fecEnabled then .videoWithFec cfg.sessionToken
  else .videoFrameAuthenticated cfg.sessionToken

/-- A frame of the pipeline and the datagrams that it leads to. -/
def takeFrame (fps : UInt32) : SendLoop × List (List UInt8) :=
  let (s, names) := s.announce sha cfg frame
  if s.skips frame then (s, names)
  else
    let s := if frame.isIdr then { s with waitingForIdr := false } else s
    let (pkts, fecPkts) := (packetizer cfg).emit sha (s.videoFrame frame)
    ({ s with sampleHns := s.sampleHns + hnsPerFrame (min (max fps 5) 60) },
      names ++ configPackets sha cfg frame ++ pkts ++ fecPkts)

/-- The client asks for a key frame, and is not asking too often. -/
def requestKeyFrame : SendLoop := { s with waitingForIdr := true }

end SendLoop

end EvertyDesk.EvrtSession
