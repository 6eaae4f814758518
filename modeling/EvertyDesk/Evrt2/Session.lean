import EvertyDesk.Evrt2.Fec
import EvertyDesk.Lib.Chunks
import EvertyDesk.Lib.Machine
import EvertyDesk.Lib.Maps
import Mathlib.Data.List.Sort

/-!
Frames over EVRT2 datagrams: cutting an encoded frame into protected units with
repair packets and a send order, and putting frames together again from
whatever arrives.

Hash maps list their keys in any order, which is a parameter on both sides. The
source also counts the packets of a partial frame and keeps the time of the
first one: the count is never read, and the time only decides which frames
`expireStale` finds too old, so that choice is an argument here.
-/

namespace EvertyDesk.Evrt2

def lenPrefixBytes : Nat := 2
def chunkMax : Nat := maxPayload - lenPrefixBytes

/-- The unit that is sent and protected: the length of a chunk, then the chunk. -/
def protectedUnit (chunk : List UInt8) : List UInt8 := beBytes 2 chunk.length ++ chunk

structure DataFragment where
  packetIndex : UInt16
  unit : List UInt8
  isVisibleRegion : Bool
deriving DecidableEq

def fragment (frameBytes : List UInt8) (visibleRegionByteRanges : List (Nat × Nat)) :
    List DataFragment :=
  (chunks chunkMax frameBytes).zipIdx.map fun (chunk, i) =>
    let start := i * chunkMax
    let stop := start + chunk.length
    { packetIndex := UInt16.ofNat i
      unit := protectedUnit chunk
      isVisibleRegion := visibleRegionByteRanges.any fun (vrStart, vrEnd) =>
        decide (start < vrEnd) && decide (stop > vrStart) }

/-- The chunk of a unit, without padding after it. -/
def stripLenPrefix (unit : List UInt8) : Option (List UInt8) :=
  if unit.length < lenPrefixBytes then none
  else
    let trueLen := beNat (field unit 0 2)
    if lenPrefixBytes + trueLen ≤ unit.length then
      some (field unit lenPrefixBytes trueLen)
    else none

inductive SliceKind where
  | visibleRegion
  | idr
  | normal (priority : Nat)
  | fecRepair
deriving DecidableEq, Repr

def SliceKind.rank : SliceKind → Nat
  | visibleRegion => 0
  | idr => 1
  | normal _ => 2
  | fecRepair => 3

/-- The derived order: by variant, and by priority among normal slices. -/
def SliceKind.le : SliceKind → SliceKind → Bool
  | normal left, normal right => decide (left ≤ right)
  | left, right => decide (left.rank ≤ right.rank)

structure Slice where
  kind : SliceKind
  payload : List UInt8

/-- A stable sort by kind. -/
def scheduleSendOrder (slices : List Slice) : List Slice :=
  slices.insertionSort fun a b => a.kind.le b.kind

/-- The arguments of `buildFramePackets` that describe the frame. -/
structure OutgoingFrame where
  frameBytes : List UInt8
  frameId : UInt32
  mode : Mode
  isKeyframe : Bool
  isSilicon : Bool
  isH265 : Bool
  presentationTimeUs : UInt64
  visibleRegionByteRanges : List (Nat × Nat)

namespace OutgoingFrame

variable (frame : OutgoingFrame) (fec : FecConfig)

def fragments : List DataFragment := fragment frame.frameBytes frame.visibleRegionByteRanges

/-- Narrowed to 16 bits. -/
def packetCount : UInt16 := UInt16.ofNat frame.fragments.length

def baseFlags : UInt16 :=
  (if frame.isKeyframe then flagIsKeyframe else 0) |||
    (if frame.isSilicon then flagIsSilicon else 0) |||
    (if frame.isH265 then flagIsH265 else 0) |||
    (if fec.isEnabled then flagFecEnabled else 0)

def dataHeader (frag : DataFragment) : PacketHeader where
  packetType := .videoFrame
  mode := frame.mode
  flags := if frag.isVisibleRegion then frame.baseFlags fec ||| flagVisibleRegion
    else frame.baseFlags fec
  frameId := frame.frameId
  packetIndex := frag.packetIndex
  packetCount := frame.packetCount
  presentationTimeUs := frame.presentationTimeUs
  fecGroup := if fec.isEnabled then UInt8.ofNat (frag.packetIndex.toNat / fec.n) else 0
  fecIdx := if fec.isEnabled then UInt8.ofNat (frag.packetIndex.toNat % fec.n) else 0
  fecTotal := UInt8.ofNat (fec.n + fec.k)
  authTag := 0

/-- A repair packet is numbered past the data range. The source adds with
overflow checks only in a debug build; here the sum wraps. -/
def repairHeader (groupIdx : UInt8) (repairIdx : Nat) : PacketHeader where
  packetType := .fecRepair
  mode := frame.mode
  flags := frame.baseFlags fec &&& ~~~flagVisibleRegion
  frameId := frame.frameId
  packetIndex := frame.packetCount + UInt16.ofNat repairIdx
  packetCount := frame.packetCount
  presentationTimeUs := frame.presentationTimeUs
  fecGroup := groupIdx
  fecIdx := UInt8.ofNat (fec.n + repairIdx)
  fecTotal := UInt8.ofNat (fec.n + fec.k)
  authTag := 0

def dataSlice (frag : DataFragment) : Slice where
  kind := if frag.isVisibleRegion then .visibleRegion
    else if frame.isKeyframe then .idr
    else .normal frag.packetIndex.toNat
  payload := (frame.dataHeader fec frag).encode frag.unit

def repairSlice (groupIdx : UInt8) (repair : RepairPacket) : Slice where
  kind := .fecRepair
  payload := (frame.repairHeader fec groupIdx repair.repairIdx).encode repair.xorPayload

/-- The repair packets of every group with their keys, in insertion order. Keys
are narrowed to eight bits. -/
def repairEntries : List (UInt8 × List RepairPacket) :=
  (chunks fec.n frame.fragments).zipIdx.map fun (group, groupIdx) =>
    (UInt8.ofNat groupIdx, encodeRepairs (group.map DataFragment.unit) fec.k)

/-- A group replaces an earlier one with the same key. -/
def repairsByGroup : AList fun _ : UInt8 => List RepairPacket :=
  if fec.isEnabled then insertAll (frame.repairEntries fec) ∅ else ∅

def buildFramePackets (iter : IterOrder UInt8) : List (List UInt8) :=
  let repairs := frame.repairsByGroup fec
  let dataSlices := frame.fragments.map (frame.dataSlice fec)
  let repairSlices := (iter.order repairs.keys).flatMap fun groupIdx =>
    ((repairs.lookup groupIdx).getD []).map (frame.repairSlice fec groupIdx)
  (scheduleSendOrder (dataSlices ++ repairSlices)).map Slice.payload

end OutgoingFrame

/-! Reassembly. -/

/-- The chunks of the units in order, unless one is missing or malformed. -/
def joinUnits : Slots → Option (List UInt8)
  | [] => some []
  | piece :: pieces => do
      let unit ← piece
      let chunk ← stripLenPrefix unit
      let rest ← joinUnits pieces
      return chunk ++ rest

structure PendingFrame where
  data : Slots
  dataLens : List Nat
  repairsByGroup : AList fun _ : UInt8 => List RepairPacket
  fecN : Nat

namespace PendingFrame

def new (packetCount fecN : Nat) : PendingFrame where
  data := List.replicate packetCount none
  dataLens := List.replicate packetCount 0
  repairsByGroup := ∅
  fecN := fecN

def isComplete (entry : PendingFrame) : Bool := entry.data.all Option.isSome

/-- Every unit of the packet's group is known to be padded to at least `len`. -/
def noteGroupPaddedLen (entry : PendingFrame) (packetIndex len : Nat) :
    PendingFrame :=
  let n := max entry.fecN 1
  let groupIdx := packetIndex / n
  let start := groupIdx * n
  let stop := min (start + n) entry.data.length
  { entry with
    dataLens := entry.dataLens.mapIdx fun i known =>
      if start ≤ i ∧ i < stop then max known len else known }

def tryRecover (iter : IterOrder UInt8) (entry : PendingFrame) : PendingFrame :=
  { entry with
    data := (iter.order entry.repairsByGroup.keys).foldl
      (fun data groupIdx =>
        recover data entry.dataLens ((entry.repairsByGroup.lookup groupIdx).getD []))
      entry.data }

def reassemble (entry : PendingFrame) : Option (List UInt8) :=
  if entry.isComplete then joinUnits entry.data else none

/-- Recovery is tried only on frames that need it. -/
def settle (iter : IterOrder UInt8) (entry : PendingFrame) : PendingFrame :=
  if entry.isComplete then entry else entry.tryRecover iter

/-- A data packet takes its place unless it is out of range or taken. -/
def storeData (entry : PendingFrame) (header : PacketHeader)
    (payload : List UInt8) : PendingFrame :=
  let idx := header.packetIndex.toNat
  if idx < entry.data.length ∧ slot entry.data idx = none then
    let noted := entry.noteGroupPaddedLen idx payload.length
    { noted with data := noted.data.set idx (some payload) }
  else entry

end PendingFrame

/-- The index of a repair packet in its group, from its header. -/
def PacketHeader.repairIdx (header : PacketHeader) (fec : FecConfig) : Nat :=
  (header.fecIdx.toNat - fec.n) % 2 ^ 8

def PacketHeader.groupStart (header : PacketHeader) (fec : FecConfig) : Nat :=
  header.fecGroup.toNat * max fec.n 1

/-- The units that a repair packet covers, by index in the frame. -/
def PacketHeader.covers (header : PacketHeader) (fec : FecConfig) : List Nat :=
  let groupStart := header.groupStart fec
  let groupEnd := min (groupStart + max fec.n 1) header.packetCount.toNat
  if fec.k > 0 then
    ((List.range' groupStart (groupEnd - groupStart)).filter fun i =>
      (i - groupStart) % fec.k == header.repairIdx fec).map (· % 2 ^ 16)
  else []

def PacketHeader.repairPacket (header : PacketHeader) (fec : FecConfig)
    (payload : List UInt8) : RepairPacket where
  repairIdx := header.repairIdx fec
  covers := header.covers fec
  xorPayload := payload
  payloadLen := payload.length

/-- A repair packet is kept with its group. -/
def PendingFrame.storeRepair (entry : PendingFrame) (fec : FecConfig)
    (header : PacketHeader) (payload : List UInt8) : PendingFrame :=
  let groupStart := header.groupStart fec
  let noted := if groupStart < entry.data.length then
      entry.noteGroupPaddedLen groupStart payload.length
    else entry
  { noted with
    repairsByGroup := noted.repairsByGroup.insert header.fecGroup
      ((noted.repairsByGroup.lookup header.fecGroup).getD [] ++ [header.repairPacket fec payload]) }

/-- The frame with a packet of it, or nothing when the packet is a control
packet. -/
def PendingFrame.store (entry : PendingFrame) (header : PacketHeader)
    (payload : List UInt8) : Option PendingFrame :=
  match header.packetType with
  | .videoFrame => some (entry.storeData header payload)
  | .fecRepair =>
      some (entry.storeRepair (FecConfig.forMode header.mode) header payload)
  | _ => none

inductive IngestResult where
  | pending
  | frameComplete (frameId : UInt32) (bytes : List UInt8)
deriving DecidableEq

structure FrameReassembler where
  pendingFrames : AList fun _ : UInt32 => PendingFrame

namespace FrameReassembler

def new : FrameReassembler := { pendingFrames := ∅ }

/-- The partial frame that a packet belongs to, made at its first packet. -/
def entry (r : FrameReassembler) (header : PacketHeader) : PendingFrame :=
  (r.pendingFrames.lookup header.frameId).getD
    (PendingFrame.new header.packetCount.toNat (max (FecConfig.forMode header.mode).n 1))

def ingest (iter : IterOrder UInt8) (r : FrameReassembler) (header : PacketHeader)
    (payload : List UInt8) : FrameReassembler × IngestResult :=
  match (r.entry header).store header payload with
  | none => (r, .pending)
  | some stored =>
      let entry := stored.settle iter
      if entry.isComplete then
        ({ pendingFrames := r.pendingFrames.erase header.frameId },
          .frameComplete header.frameId (entry.reassemble.getD []))
      else ({ pendingFrames := r.pendingFrames.insert header.frameId entry }, .pending)

/-- Drop the partial frames that are too old, which are also the result. -/
def expireStale (stale : UInt32 → Bool) (r : FrameReassembler) : FrameReassembler × List UInt32 :=
  ({ pendingFrames := retainKeys (fun id => !stale id) r.pendingFrames },
    r.pendingFrames.keys.filter stale)

end FrameReassembler

/-- What a receiver sees: datagrams off the wire, and moments at which it drops
the frames that are too old. -/
inductive Arrival where
  | datagram (wire : List UInt8)
  | expire (stale : UInt32 → Bool)

/-- Datagrams that are no packets are ignored. -/
def FrameReassembler.receive (iter : IterOrder UInt8) (r : FrameReassembler) :
    Arrival → FrameReassembler × IngestResult
  | .datagram wire =>
      match PacketHeader.decode wire with
      | .ok (header, payload) => r.ingest iter header payload
      | .error _ => (r, .pending)
  | .expire stale => ((r.expireStale stale).1, .pending)

def FrameReassembler.machine (iter : IterOrder UInt8) :
    Machine FrameReassembler Arrival IngestResult where
  step := FrameReassembler.receive iter

end EvertyDesk.Evrt2
