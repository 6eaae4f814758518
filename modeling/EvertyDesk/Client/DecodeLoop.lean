import EvertyDesk.Client.FrameQueueSafety
import EvertyDesk.Client.ReceiveThread
import EvertyDesk.Lib.Switches

/-!
The client's decode loop, beside the receive thread. Frames come to it through the
frame queue and codec names through a channel of their own, which it empties before
it waits for a frame.
-/

namespace EvertyDesk.EvrtClient

open Evrt Reassembler FrameQueue Host

inductive Decoder where
  | evrtck
  | h264
  | h265
  | vp9
  | av1
deriving DecidableEq, Repr

/-- The decoder that the loop takes for a codec name. -/
def decoderOf (codec : String) : Decoder :=
  match codec.toUpper with
  | "EVRTCK" => .evrtck
  | "H264" => .h264
  | "H265" | "HEVC" => .h265
  | "VP9" => .vp9
  | "AV1" => .av1
  | _ => .h264

/-- What the receive thread still has to do for the datagram that it is at. -/
inductive Duty where
  /-- The codec is that of the datagram which completed the frame. -/
  | enqueue (delivery : Delivery) (codec : CodecLabel)
  | waitForKeyframe
deriving DecidableEq

inductive Phase where
  | readingNames
  | dequeuing
  | exited
deriving DecidableEq, Repr

structure Client where
  reassembler : ChannelReassembler
  duties : List Duty
  queue : Inner
  /-- Each name with the number of frames handed over before it. -/
  names : List (Switch String)
  codec : String
  phase : Phase
  /-- Ghost: the codecs of the frames handed over, in the order of the calls. -/
  handedOver : List CodecLabel

/-- A frame, the codec that the host encoded it with, and the decoder it is given to. -/
structure Decoded where
  bytes : List UInt8
  isKeyFrame : Bool
  encodedWith : Option CodecLabel
  decoder : Decoder
deriving DecidableEq

namespace Client

def start (queueCfg : FrameQueueConfig) (codec : String) : Client where
  reassembler := ChannelReassembler.new
  duties := []
  queue := Inner.new queueCfg
  names := []
  codec := codec
  phase := .readingNames
  handedOver := []

variable (iter : IterOrder Nat) (sha : Sha256) (sessionToken : Option (List UInt8)) (c : Client)

/-- Frames lost while a data packet was taken in call for a key frame, unless that
was asked for a short while ago. -/
def lossDuties (reassembler : ChannelReassembler) (datagram : InFlight) (due : Bool) : List Duty :=
  match parseAuthenticated sha datagram.bytes datagram.bytes.length sessionToken with
  | some pkt =>
      if pkt.packetType = typeVideoFrame ∧ due ∧
          reassembler.droppedFrames > c.reassembler.droppedFrames then [.waitForKeyframe]
      else []
  | none => []

def receive (datagram : InFlight) (now : Nat) (due : Bool) : Client :=
  let (reassembler, reaction) := onDatagram iter sha sessionToken c.reassembler datagram.bytes now
  let loss := c.lossDuties sha sessionToken reassembler datagram due
  match reaction with
  | .nothing => { c with reassembler := reassembler, duties := loss }
  | .codecChange name =>
      { c with
        reassembler := reassembler
        duties := loss
        names := c.names ++ [⟨name, c.queue.calls⟩] }
  | .enqueue delivery =>
      { c with
        reassembler := reassembler
        duties := .enqueue delivery datagram.codec :: loss }

/-- The receive thread goes on with the queue. -/
def perform (now : Nat) : Client :=
  match c.duties with
  | [] => c
  | .enqueue delivery codec :: duties =>
      { c with
        duties := duties
        queue := c.queue.enqueue delivery.bytes delivery.isKeyFrame delivery.presentationTimeUs now
        handedOver := c.handedOver ++ [codec] }
  | .waitForKeyframe :: duties =>
      { c with duties := duties, queue := c.queue.waitForKeyframe }

/-- One `try_recv` on the channel of names. -/
def readName : Client :=
  match c.phase, c.names with
  | .readingNames, [] => { c with phase := .dequeuing }
  | .readingNames, first :: names => { c with names := names, codec := first.setting }
  | _, _ => c

def dequeuePass (cancel : Bool) (now : Nat) : Client × Option Decoded :=
  match c.phase with
  | .dequeuing =>
      match c.queue.dequeuePass cancel now with
      | (queue, .returned unit) =>
          ({ c with queue := queue, phase := .readingNames },
            some {
              bytes := unit.bytes
              isKeyFrame := unit.isKeyFrame
              encodedWith := c.handedOver[unit.seq]?
              decoder := decoderOf c.codec })
      | (queue, .closed) => ({ c with queue := queue, phase := .exited }, none)
      | (queue, .wait) => ({ c with queue := queue }, none)
  | _ => (c, none)

end Client

end EvertyDesk.EvrtClient
