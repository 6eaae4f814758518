import EvertyDesk.Evrt2.Datagrams
import EvertyDesk.Lib.Machine
import Mathlib.Logic.Function.Basic

/-!
The sessions that share a key: each side has one, with a mode, the error correction of that
mode and the key once it is set, and sends control packets and frames with the time that
its clock shows. What was encrypted is kept for the record.
-/

namespace EvertyDesk.Evrt2

open Evrt (Sha256)

/-- The two floats are carried as their bits. -/
structure ReceiverFeedback2 where
  frameId : UInt32
  pressure : UInt32
  jitterP95Us : UInt32
  decodedFps : UInt32
  siliconOk : Bool
  droppedFrames : UInt32
  rttUs : UInt32
deriving DecidableEq, Repr

def ReceiverFeedback2.encode (feedback : ReceiverFeedback2) : List UInt8 :=
  beBytes 4 feedback.frameId.toNat ++ (beBytes 4 feedback.pressure.toNat ++
    (beBytes 4 feedback.jitterP95Us.toNat ++ (beBytes 4 feedback.decodedFps.toNat ++
      (beBytes 1 feedback.siliconOk.toNat ++ (beBytes 4 feedback.droppedFrames.toNat ++
        beBytes 4 feedback.rttUs.toNat)))))

inductive SwitchReason where
  | motionIncreased
  | motionIdle
  | gameDetected
  | gameExitedOrMinimized
  | noSilicon
  | bandwidthForcedAr
  | userRequested
deriving DecidableEq, Repr

def SwitchReason.toWireCode : SwitchReason → UInt8
  | motionIncreased => 1
  | motionIdle => 2
  | gameDetected => 3
  | gameExitedOrMinimized => 4
  | noSilicon => 5
  | bandwidthForcedAr => 6
  | userRequested => 7

/-- What a session has a method to send, apart from frames. -/
inductive Control (P : Type) where
  | hello (maxFps maxWidth maxHeight : UInt32)
  | ack
  | modeSwitch (newMode : Mode) (reason : SwitchReason)
  | apfUpdate (attentionMap : List P) (cols rows : UInt16) (tileSize : UInt8)
  | apfDelta (previous current : List P) (cols rows : UInt16) (tileSize : UInt8)
  | degradeSignal (regionTiles : List UInt16) (measuredAgeUs ceilingUs : UInt32)
  | feedback (report : ReceiverFeedback2)
  | idrRequest
  | goodbye
  | keepalivePing (sendTimeUs : UInt64)

namespace Control

variable {P : Type} (arith : PriorityArith P)

def packetType : Control P → PacketType
  | hello .. => .sessionHello
  | ack => .sessionAck
  | modeSwitch .. => .modeSwitch
  | apfUpdate .. => .apfUpdate
  | apfDelta .. => .apfUpdate
  | degradeSignal .. => .degradeSignal
  | feedback _ => .feedback
  | idrRequest => .idrRequest
  | goodbye => .goodbye
  | keepalivePing _ => .keepalive

def payload : Control P → List UInt8
  | hello maxFps maxWidth maxHeight =>
      beBytes 4 maxFps.toNat ++ (beBytes 4 maxWidth.toNat ++ beBytes 4 maxHeight.toNat)
  | ack => []
  | modeSwitch _ reason => [reason.toWireCode]
  | apfUpdate attentionMap cols rows tileSize => encodeU4 arith attentionMap cols rows tileSize
  | apfDelta previous current cols rows tileSize =>
      encodeDelta arith previous current cols rows tileSize
  | degradeSignal regionTiles measuredAgeUs ceilingUs =>
      degradePayload regionTiles measuredAgeUs ceilingUs
  | feedback report => report.encode
  | idrRequest => []
  | goodbye => []
  | keepalivePing sendTimeUs => beBytes 8 sendTimeUs.toNat

/-- A mode switch has the new mode in its header, the others that of the session. -/
def headerMode (mode : Mode) : Control P → Mode
  | modeSwitch newMode _ => newMode
  | _ => mode

end Control

/-- One call of a session's methods: a control packet, or a frame with the error
correction of its mode. -/
inductive Transmission (P : Type) where
  | control (message : Control P) (mode : Mode) (nowUs : UInt64)
  | frame (outgoing : OutgoingFrame) (fec : FecConfig) (iter : IterOrder UInt8)
      (hfec : fec = FecConfig.forMode outgoing.mode)

def Transmission.packets {P : Type} (arith : PriorityArith P) : Transmission P → List (List UInt8)
  | .control message mode nowUs =>
      [controlPacket message.packetType mode nowUs (message.payload arith)]
  | .frame outgoing fec iter _ => outgoing.buildFramePackets fec iter

/-- The mode and the error correction are always set together. -/
structure Evrt2Session where
  mode : Mode
  fec : FecConfig
  authKey : Option SessionKey
  fecOfMode : fec = FecConfig.forMode mode

/-- What is called on a session. -/
inductive SessionCall (P : Type) where
  | setAuthKey (enabled : Bool)
  | setMode (mode : Mode)
  | send (message : Control P) (nowUs : UInt64)
  | sendFrame (frameBytes : List UInt8) (frameId : UInt32) (isKeyframe isSilicon isH265 : Bool)
      (nowUs : UInt64) (visibleRegionByteRanges : List (Nat × Nat)) (iter : IterOrder UInt8)

namespace Evrt2Session

variable {P : Type}

def new (mode : Mode) : Evrt2Session where
  mode := mode
  fec := FecConfig.forMode mode
  authKey := none
  fecOfMode := rfl

/-- There is one key that can be set. -/
def setAuthKey (s : Evrt2Session) (key : SessionKey) (enabled : Bool) : Evrt2Session :=
  { s with authKey := if enabled then some key else none }

def setMode (s : Evrt2Session) (mode : Mode) : Evrt2Session where
  mode := mode
  fec := FecConfig.forMode mode
  authKey := s.authKey
  fecOfMode := rfl

def transmission (s : Evrt2Session) : SessionCall P → Option (Transmission P)
  | .setAuthKey _ => none
  | .setMode _ => none
  | .send message nowUs => some (.control message (message.headerMode s.mode) nowUs)
  | .sendFrame frameBytes frameId isKeyframe isSilicon isH265 nowUs ranges iter =>
      some (.frame {
        frameBytes := frameBytes
        frameId := frameId
        mode := s.mode
        isKeyframe := isKeyframe
        isSilicon := isSilicon
        isH265 := isH265
        presentationTimeUs := nowUs
        visibleRegionByteRanges := ranges } s.fec iter s.fecOfMode)

def after (s : Evrt2Session) (key : SessionKey) : SessionCall P → Evrt2Session
  | .setAuthKey enabled => s.setAuthKey key enabled
  | .setMode mode => s.setMode mode
  | .send .. => s
  | .sendFrame .. => s

end Evrt2Session

/-- The sessions of the parties, and what was encrypted by any of them, the oldest
first. -/
structure KeyedSessions (Party P : Type) where
  sessions : Party → Evrt2Session
  encrypted : List (Transmission P)

namespace KeyedSessions

variable {Party P : Type} [DecidableEq Party] (key : SessionKey)

/-- What a call sends, if the session encrypts. -/
def encrypts (s : KeyedSessions Party P) (party : Party) (call : SessionCall P) :
    Option (Transmission P) :=
  if (s.sessions party).authKey = none then none else (s.sessions party).transmission call

def step (s : KeyedSessions Party P) (party : Party) (call : SessionCall P) :
    KeyedSessions Party P where
  sessions := Function.update s.sessions party ((s.sessions party).after key call)
  encrypted := s.encrypted ++ (s.encrypts party call).toList

/-- Calls on any of the sessions, in any order, with what they send. -/
def machine :
    Machine (KeyedSessions Party P) (Party × SessionCall P) (Option (Transmission P)) where
  step s input := (s.step key input.1 input.2, (s.sessions input.1).transmission input.2)

/-- No party has the key yet. -/
def new (modes : Party → Mode) : KeyedSessions Party P where
  sessions party := Evrt2Session.new (modes party)
  encrypted := []

end KeyedSessions

/-- The datagrams of a transmission, as they go to the socket. -/
def Evrt2Session.datagrams {P : Type} (arith : PriorityArith P) (sha : Sha256) (box : Secretbox)
    (s : Evrt2Session) (t : Transmission P) : List (List UInt8) :=
  (t.packets arith).map (sendSigned sha box s.authKey)

end EvertyDesk.Evrt2
