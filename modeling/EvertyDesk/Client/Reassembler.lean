import EvertyDesk.Evrt.Fec
import EvertyDesk.Lib.Machine
import EvertyDesk.Lib.Maps

/-!
The client's reassembler of one EVRT channel: from single packets, in any order
and with any loss, to whole frames for the decoder.

Sizes are unbounded numbers. No sum of the source that they stand for can
overflow, since payloads are at most as long as memory and the buffered total
stays below its limit. Time is in milliseconds.
-/

namespace EvertyDesk.Reassembler

open Evrt

def reassemblyReorderWindowFrames : Nat := 4
def reassemblyMaxBufferedBytes : Nat := 24 * 1024 * 1024

/-- Addition that saturates at 32 bits. -/
def satAdd32 (a b : Nat) : Nat := min (a + b) (2 ^ 32 - 1)

/-- One unfinished frame. -/
structure FrameAssembly where
  frameId : Nat
  packetCount : Nat
  isKeyFrame : Bool
  presentationTimeUs : Nat
  parts : List (Option (List UInt8))
  received : Nat
  bufferedBytes : Nat
  firstPacketAt : Nat

namespace FrameAssembly

def new (frameId packetCount : Nat) (isKeyFrame : Bool) (pts now : Nat) : FrameAssembly where
  frameId := frameId
  packetCount := packetCount
  isKeyFrame := isKeyFrame
  presentationTimeUs := pts
  parts := List.replicate packetCount none
  received := 0
  bufferedBytes := 0
  firstPacketAt := now

variable (a : FrameAssembly)

/-- A slot outside the frame counts as taken. -/
def hasPart (index : Nat) : Bool := (a.parts[index]?.map (·.isSome)).getD true

/-- The received payload of one slot. -/
def part (index : Nat) : Option (List UInt8) := a.parts[index]?.join

def set (index : Nat) (payload : List UInt8) : Option FrameAssembly :=
  if a.hasPart index then none
  else
    some { a with
      parts := a.parts.set index (some payload)
      received := a.received + 1
      bufferedBytes := a.bufferedBytes + payload.length }

def isComplete : Bool := a.received == a.packetCount

/-- Missing parts are skipped; a frame of one packet is that packet. -/
def join : List UInt8 :=
  if a.packetCount = 1 then (a.parts.head?.join).getD []
  else (a.parts.filterMap id).flatten

/-- The age in milliseconds, limited to a signed 32-bit number. -/
def assemblyDelayMs (now : Nat) : Nat := min (now - a.firstPacketAt) (2 ^ 31 - 1)

end FrameAssembly

/-- A frame handed to the decoder. -/
structure Delivery where
  /-- Ghost: the frame number of the packet that completed the frame. -/
  frameId : Nat
  bytes : List UInt8
  isKeyFrame : Bool
  assemblyMs : Nat
  presentationTimeUs : Nat
deriving DecidableEq, Repr

structure ChannelReassembler where
  frames : AList fun _ : Nat => FrameAssembly
  latestCodecConfig : Option (List UInt8)
  latestFrameIdSeen : Option Nat
  latestCompletedId : Option Nat
  waitingAfterLoss : Bool
  droppedFrames : Nat
  lastDroppedId : Option Nat
  bufferedBytes : Nat
  pendingFec : AList fun _ : Nat => List FecMeta
  fecRecovered : Nat

namespace ChannelReassembler

def new : ChannelReassembler where
  frames := ∅
  latestCodecConfig := none
  latestFrameIdSeen := none
  latestCompletedId := none
  waitingAfterLoss := false
  droppedFrames := 0
  lastDroppedId := none
  bufferedBytes := 0
  pendingFec := ∅
  fecRecovered := 0

variable (iter : IterOrder Nat) (r : ChannelReassembler)

/-- The codec configuration and the counters survive a reset. -/
def reset : ChannelReassembler :=
  { r with
    frames := ∅
    bufferedBytes := 0
    latestFrameIdSeen := none
    latestCompletedId := none
    waitingAfterLoss := false
    lastDroppedId := none
    pendingFec := ∅ }

def setCodecConfig (payload : List UInt8) : ChannelReassembler :=
  { r with latestCodecConfig := some payload }

def markFrameDropped (frameId : Nat) : ChannelReassembler :=
  if r.lastDroppedId ≠ some frameId then
    { r with lastDroppedId := some frameId, droppedFrames := r.droppedFrames + 1 }
  else r

/-- The result says whether there was such a frame. -/
def dropFrame (frameId : Nat) : ChannelReassembler × Bool :=
  let r := { r with pendingFec := r.pendingFec.erase frameId }
  match r.frames.lookup frameId with
  | some assembly =>
      ({ r with
        frames := r.frames.erase frameId
        bufferedBytes := r.bufferedBytes - assembly.bufferedBytes
        }.markFrameDropped frameId, true)
  | none => (r, false)

/-- The result says how many frames were dropped. -/
def dropOlderThan (frameId : Nat) : ChannelReassembler × Nat :=
  let r := { r with
    pendingFec := retainKeys (fun id => decide (id ≥ frameId)) r.pendingFec }
  let dropped := iter.order (r.frames.keys.filter fun id => decide (id < frameId))
  (dropped.foldl (fun r id => (r.dropFrame id).1) r, dropped.length)

def dropOldestExcept (keepFrameId : Nat) : ChannelReassembler × Bool :=
  match (r.frames.keys.filter fun id => decide (id ≠ keepFrameId)).min? with
  | none => (r, false)
  | some oldest => r.dropFrame oldest

/-- The `while` loop of `reserve_buffer`, with a bound on its passes: each one
drops a frame. The result says whether frames were dropped, and is `none` when
there was no other frame left to drop. -/
def makeRoom (bytes keepFrameId : Nat) (passes : Nat) (r : ChannelReassembler)
    (droppedAny : Bool) : ChannelReassembler × Option Bool :=
  if r.bufferedBytes + bytes ≤ reassemblyMaxBufferedBytes then (r, some droppedAny)
  else
    match passes with
    | 0 => (r, none)
    | passes + 1 =>
        match r.dropOldestExcept keepFrameId with
        | (r, true) => makeRoom bytes keepFrameId passes r true
        | (r, false) => (r, none)

/-- Give the frame up; unless it was a key frame, wait for the next one. -/
def giveUp (frameId : Nat) (isKeyFrame : Bool) : ChannelReassembler :=
  let r := (r.dropFrame frameId).1
  if !isKeyFrame then { r with waitingAfterLoss := true } else r

def reserveBuffer (bytes frameId : Nat) (isKeyFrame : Bool) : ChannelReassembler × Bool :=
  if bytes > reassemblyMaxBufferedBytes then (r.giveUp frameId isKeyFrame, false)
  else
    match makeRoom bytes frameId r.frames.keys.length r false with
    | (r, none) => (r.giveUp frameId isKeyFrame, false)
    | (r, some droppedAny) =>
        if droppedAny && !isKeyFrame then
          ({ (r.dropFrame frameId).1.markFrameDropped frameId with
            waitingAfterLoss := true }, false)
        else (r, true)

def complete (frameId : Nat) : Bool := ((r.frames.lookup frameId).map (·.isComplete)).getD false

/-- What one recovered packet adds to its frame. -/
def putRecovered (frameId missingIdx : Nat) (recovered : List UInt8) :
    ChannelReassembler :=
  match r.frames.lookup frameId with
  | none => r
  | some assembly =>
      match assembly.set missingIdx recovered with
      | none => r
      | some assembly =>
          { r with
            frames := r.frames.insert frameId assembly
            bufferedBytes := r.bufferedBytes + recovered.length
            fecRecovered := r.fecRecovered + 1 }

/-- The loop over the parity packets of a frame. It ends early when the frame
is complete or gone. -/
def recoverFrom (frameId : Nat) (r : ChannelReassembler) : List FecMeta → ChannelReassembler
  | [] => r
  | fec :: fecs =>
      match r.frames.lookup frameId with
      | none => r
      | some assembly =>
          if assembly.isComplete then r
          else
            match fecRecoverOne fec (fec.present assembly.part) with
            | none => recoverFrom frameId r fecs
            | some (missingIdx, recovered) =>
                match r.reserveBuffer recovered.length frameId assembly.isKeyFrame with
                | (r, false) => recoverFrom frameId r fecs
                | (r, true) =>
                    recoverFrom frameId (r.putRecovered frameId missingIdx recovered) fecs

def tryFecRecover (frameId : Nat) : ChannelReassembler :=
  match r.pendingFec.lookup frameId with
  | none => r
  | some fecs => recoverFrom frameId r fecs

/-- A delta frame does not follow the frame completed before it. -/
def brokenBase (previousCompletedId : Option Nat) (frameId : Nat) : Bool :=
  match previousCompletedId with
  | some completed => decide ((frameId + 2 ^ 32 - completed) % 2 ^ 32 ≠ 1)
  | none => false

/-- A completed frame leaves the reassembler. A key frame is delivered behind
the codec configuration; a delta frame only if its base was completed and
nothing was lost. -/
def finalizeFrame (frameId now : Nat) : ChannelReassembler × Option Delivery :=
  match r.frames.lookup frameId with
  | none => (r, none)
  | some assembly =>
      if !assembly.isComplete then (r, none)
      else
        let previousCompletedId := r.latestCompletedId
        let r := { r with
          frames := r.frames.erase frameId
          bufferedBytes := r.bufferedBytes - assembly.bufferedBytes
          latestCompletedId := some assembly.frameId
          pendingFec := r.pendingFec.erase frameId }
        let deliver (bytes : List UInt8) : Delivery :=
          { frameId := frameId
            bytes := bytes
            isKeyFrame := assembly.isKeyFrame
            assemblyMs := assembly.assemblyDelayMs now
            presentationTimeUs := assembly.presentationTimeUs }
        if assembly.isKeyFrame then
          ({ r with waitingAfterLoss := false },
            some (deliver (r.latestCodecConfig.getD [] ++ assembly.join)))
        else if r.waitingAfterLoss then (r.markFrameDropped frameId, none)
        else if brokenBase previousCompletedId frameId then
          ({ r with waitingAfterLoss := true }.markFrameDropped frameId, none)
        else (r, some (deliver assembly.join))

/-- Frames up to the last completed one are done with. -/
def alreadyCompleted (frameId : Nat) : Bool :=
  r.latestCompletedId.any fun completed => decide (frameId ≤ completed)

/-- Frames behind the reorder window are ignored. -/
def tooOld (frameId : Nat) : Bool :=
  r.latestFrameIdSeen.any fun seen =>
    decide (satAdd32 frameId reassemblyReorderWindowFrames < seen)

def isNewest (frameId : Nat) : Bool :=
  match r.latestFrameIdSeen with
  | some seen => decide (frameId > seen)
  | none => true

/-- A new highest frame number moves the reorder window on. If that loses an
unfinished frame and the new frame is not a key frame, the new one is given up
as well; the result says so. -/
def noteFrameId (frameId : Nat) (isKeyFrame : Bool) : ChannelReassembler × Bool :=
  if r.isNewest frameId then
    let r := { r with latestFrameIdSeen := some frameId }
    let (r, lostFrames) := r.dropOlderThan iter (frameId - reassemblyReorderWindowFrames)
    if lostFrames > 0 ∧ !isKeyFrame then
      let r := { r with waitingAfterLoss := true }
      let r := (r.dropOlderThan iter (satAdd32 frameId 1)).1
      (r.markFrameDropped frameId, true)
    else (r, false)
  else (r, false)

/-- A key frame ends the wait and makes all earlier frames obsolete. -/
def noteKeyFrame (frameId : Nat) (isKeyFrame : Bool) : ChannelReassembler :=
  if isKeyFrame then
    ({ r with waitingAfterLoss := false }.dropOlderThan iter frameId).1
  else r

/-- The entry of a packet's frame, which is made if there is none. -/
def entry (pkt : EvrtPacket) (now : Nat) : ChannelReassembler × FrameAssembly :=
  match r.frames.lookup pkt.frameId with
  | some assembly => (r, assembly)
  | none =>
      let assembly := FrameAssembly.new pkt.frameId pkt.packetCount
        pkt.isKeyFrame pkt.presentationTimeUs now
      ({ r with frames := r.frames.insert pkt.frameId assembly }, assembly)

/-- Put the packet into its frame, recover what parity allows, and finish the
frame if nothing is missing any more. -/
def store (pkt : EvrtPacket) (now : Nat) : ChannelReassembler × Option Delivery :=
  match r.frames.lookup pkt.frameId with
  | none => (r, none)
  | some assembly =>
      match assembly.set pkt.packetIndex pkt.payload with
      | none => (r, none)
      | some assembly =>
          let r := { r with
            frames := r.frames.insert pkt.frameId assembly
            bufferedBytes := r.bufferedBytes + pkt.payload.length }
          let r :=
            if !r.complete pkt.frameId then r.tryFecRecover pkt.frameId else r
          r.finalizeFrame pkt.frameId now

/-- The last part of `on_packet`, once the packet's frame is wanted. -/
def assemble (pkt : EvrtPacket) (now : Nat) : ChannelReassembler × Option Delivery :=
  let (r, assembly) := r.entry pkt now
  if assembly.packetCount ≠ pkt.packetCount then
    (r.giveUp pkt.frameId pkt.isKeyFrame, none)
  else if assembly.hasPart pkt.packetIndex then (r, none)
  else
    match r.reserveBuffer pkt.payload.length pkt.frameId pkt.isKeyFrame with
    | (r, false) => (r, none)
    | (r, true) => r.store pkt now

def onPacket (pkt : EvrtPacket) (now : Nat) : ChannelReassembler × Option Delivery :=
  if pkt.packetCount = 0 ∨ pkt.packetIndex ≥ pkt.packetCount ∨
      pkt.packetCount > maxFramePacketCount then
    (r.markFrameDropped pkt.frameId, none)
  else if r.alreadyCompleted pkt.frameId then (r, none)
  else if r.tooOld pkt.frameId then (r, none)
  else if r.waitingAfterLoss && !pkt.isKeyFrame then
    (r.markFrameDropped pkt.frameId, none)
  else
    match r.noteFrameId iter pkt.frameId pkt.isKeyFrame with
    | (r, true) => (r, none)
    | (r, false) =>
        (r.noteKeyFrame iter pkt.frameId pkt.isKeyFrame).assemble pkt now

def onFecPacket (pkt : EvrtPacket) (now : Nat) : ChannelReassembler × Option Delivery :=
  if r.alreadyCompleted pkt.frameId then (r, none)
  else if r.tooOld pkt.frameId then (r, none)
  else
    match parseFecPayload pkt.frameId pkt.payload with
    | none => (r, none)
    | some fec =>
        let fecs := (r.pendingFec.lookup pkt.frameId).getD []
        let r := { r with
          pendingFec := r.pendingFec.insert pkt.frameId (fecs ++ [fec]) }
        if (r.frames.lookup pkt.frameId).isSome then
          (r.tryFecRecover pkt.frameId).finalizeFrame pkt.frameId now
        else (r, none)

end ChannelReassembler

/-- One call on the reassembler. -/
inductive Op where
  | packet (pkt : EvrtPacket) (now : Nat)
  | fecPacket (pkt : EvrtPacket) (now : Nat)
  | setCodecConfig (payload : List UInt8)
  | reset

/-- The reassembler as a machine over its calls. -/
def machine (iter : IterOrder Nat) : Machine ChannelReassembler Op (Option Delivery) where
  step r op :=
    match op with
    | .packet pkt now => r.onPacket iter pkt now
    | .fecPacket pkt now => r.onFecPacket pkt now
    | .setCodecConfig payload => (r.setCodecConfig payload, none)
    | .reset => (r.reset, none)

end EvertyDesk.Reassembler
