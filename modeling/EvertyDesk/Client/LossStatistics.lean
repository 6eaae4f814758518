import EvertyDesk.Client.Reassembler
import EvertyDesk.Lib.Recount

/-!
How many frames a channel says that it dropped. The frames that each operation drops are
listed in the order in which they are marked. The counter remembers the last of them only,
so that it is the number of different ones just if no frame comes back after another.
-/

namespace EvertyDesk.Reassembler

open Evrt

namespace ChannelReassembler

section Drops

variable (iter : IterOrder Nat) (r : ChannelReassembler)

def dropFrameDrops (frameId : Nat) : List Nat :=
  if (r.frames.lookup frameId).isSome then [frameId] else []

def dropAllDrops : ChannelReassembler → List Nat → List Nat
  | _, [] => []
  | r, id :: ids => r.dropFrameDrops id ++ dropAllDrops (r.dropFrame id).1 ids

def dropOlderThanDrops (frameId : Nat) : List Nat :=
  dropAllDrops
    { r with pendingFec := retainKeys (fun id => decide (id ≥ frameId)) r.pendingFec }
    (iter.order (r.frames.keys.filter fun id => decide (id < frameId)))

def dropOldestExceptDrops (keepFrameId : Nat) : List Nat :=
  match (r.frames.keys.filter fun id => decide (id ≠ keepFrameId)).min? with
  | none => []
  | some oldest => r.dropFrameDrops oldest

def makeRoomDrops (bytes keepFrameId : Nat) (passes : Nat) (r : ChannelReassembler) : List Nat :=
  if r.bufferedBytes + bytes ≤ reassemblyMaxBufferedBytes then []
  else
    match passes with
    | 0 => []
    | passes + 1 =>
        r.dropOldestExceptDrops keepFrameId ++
          match r.dropOldestExcept keepFrameId with
          | (r, true) => makeRoomDrops bytes keepFrameId passes r
          | (_, false) => []

def reserveBufferDrops (bytes frameId : Nat) (isKeyFrame : Bool) : List Nat :=
  if bytes > reassemblyMaxBufferedBytes then r.dropFrameDrops frameId
  else
    makeRoomDrops bytes frameId r.frames.keys.length r ++
      match makeRoom bytes frameId r.frames.keys.length r false with
      | (r, none) => r.dropFrameDrops frameId
      | (r, some droppedAny) =>
          if droppedAny && !isKeyFrame then r.dropFrameDrops frameId ++ [frameId] else []

def recoverFromDrops (frameId : Nat) (r : ChannelReassembler) : List FecMeta → List Nat
  | [] => []
  | fec :: fecs =>
      match r.frames.lookup frameId with
      | none => []
      | some assembly =>
          if assembly.isComplete then []
          else
            match fecRecoverOne fec (fec.present assembly.part) with
            | none => recoverFromDrops frameId r fecs
            | some (missingIdx, recovered) =>
                r.reserveBufferDrops recovered.length frameId assembly.isKeyFrame ++
                  match r.reserveBuffer recovered.length frameId assembly.isKeyFrame with
                  | (r, false) => recoverFromDrops frameId r fecs
                  | (r, true) =>
                      recoverFromDrops frameId (r.putRecovered frameId missingIdx recovered) fecs

def tryFecRecoverDrops (frameId : Nat) : List Nat :=
  match r.pendingFec.lookup frameId with
  | none => []
  | some fecs => recoverFromDrops frameId r fecs

/-- A frame that is complete is dropped if it cannot be decoded. -/
def finalizeFrameDrops (frameId : Nat) : List Nat :=
  match r.frames.lookup frameId with
  | none => []
  | some assembly =>
      if !assembly.isComplete then []
      else if assembly.isKeyFrame then []
      else if r.waitingAfterLoss then [frameId]
      else if brokenBase r.latestCompletedId frameId then [frameId]
      else []

def noteFrameIdDrops (frameId : Nat) (isKeyFrame : Bool) : List Nat :=
  if r.isNewest frameId then
    let r := { r with latestFrameIdSeen := some frameId }
    r.dropOlderThanDrops iter (frameId - reassemblyReorderWindowFrames) ++
      match r.dropOlderThan iter (frameId - reassemblyReorderWindowFrames) with
      | (r, lostFrames) =>
          if lostFrames > 0 ∧ !isKeyFrame then
            { r with waitingAfterLoss := true }.dropOlderThanDrops iter (satAdd32 frameId 1) ++
              [frameId]
          else []
  else []

def noteKeyFrameDrops (frameId : Nat) (isKeyFrame : Bool) : List Nat :=
  if isKeyFrame then { r with waitingAfterLoss := false }.dropOlderThanDrops iter frameId
  else []

def storeDrops (pkt : EvrtPacket) : List Nat :=
  match r.frames.lookup pkt.frameId with
  | none => []
  | some assembly =>
      match assembly.set pkt.packetIndex pkt.payload with
      | none => []
      | some assembly =>
          let r := { r with
            frames := r.frames.insert pkt.frameId assembly
            bufferedBytes := r.bufferedBytes + pkt.payload.length }
          if !r.complete pkt.frameId then
            r.tryFecRecoverDrops pkt.frameId ++
              (r.tryFecRecover pkt.frameId).finalizeFrameDrops pkt.frameId
          else r.finalizeFrameDrops pkt.frameId

def assembleDrops (pkt : EvrtPacket) (now : Nat) : List Nat :=
  let (r, assembly) := r.entry pkt now
  if assembly.packetCount ≠ pkt.packetCount then r.dropFrameDrops pkt.frameId
  else if assembly.hasPart pkt.packetIndex then []
  else
    r.reserveBufferDrops pkt.payload.length pkt.frameId pkt.isKeyFrame ++
      match r.reserveBuffer pkt.payload.length pkt.frameId pkt.isKeyFrame with
      | (_, false) => []
      | (r, true) => r.storeDrops pkt

/-- The frames that a data packet makes the channel drop. -/
def onPacketDrops (pkt : EvrtPacket) (now : Nat) : List Nat :=
  if pkt.packetCount = 0 ∨ pkt.packetIndex ≥ pkt.packetCount ∨
      pkt.packetCount > maxFramePacketCount then
    [pkt.frameId]
  else if r.alreadyCompleted pkt.frameId then []
  else if r.tooOld pkt.frameId then []
  else if r.waitingAfterLoss && !pkt.isKeyFrame then [pkt.frameId]
  else
    r.noteFrameIdDrops iter pkt.frameId pkt.isKeyFrame ++
      match r.noteFrameId iter pkt.frameId pkt.isKeyFrame with
      | (_, true) => []
      | (r, false) =>
          r.noteKeyFrameDrops iter pkt.frameId pkt.isKeyFrame ++
            (r.noteKeyFrame iter pkt.frameId pkt.isKeyFrame).assembleDrops pkt now

/-- The frames that a parity packet makes the channel drop. -/
def onFecPacketDrops (pkt : EvrtPacket) : List Nat :=
  if r.alreadyCompleted pkt.frameId then []
  else if r.tooOld pkt.frameId then []
  else
    match parseFecPayload pkt.frameId pkt.payload with
    | none => []
    | some fec =>
        let fecs := (r.pendingFec.lookup pkt.frameId).getD []
        let r := { r with
          pendingFec := r.pendingFec.insert pkt.frameId (fecs ++ [fec]) }
        if (r.frames.lookup pkt.frameId).isSome then
          r.tryFecRecoverDrops pkt.frameId ++
            (r.tryFecRecover pkt.frameId).finalizeFrameDrops pkt.frameId
        else []

end Drops

/-- What the counter remembers. -/
def noted (r : ChannelReassembler) : Option Nat × Nat := (r.lastDroppedId, r.droppedFrames)

/-- From one state to another these frames were marked as dropped. -/
def Counts (r : ChannelReassembler) (ids : List Nat) (r' : ChannelReassembler) : Prop :=
  r'.noted = ids.foldl Recount.note r.noted

namespace Counts

variable {iter : IterOrder Nat} {r r' r'' : ChannelReassembler} {ids more : List Nat}

theorem none (h : r'.noted = r.noted) : Counts r [] r' := h

theorem trans (h : Counts r ids r') (h' : Counts r' more r'') : Counts r (ids ++ more) r'' := by
  rw [Counts, List.foldl_append, ← h]
  exact h'

/-- Where nothing is marked the drops are those of what follows. -/
theorem after (h : Counts r [] r') (h' : Counts r' ids r'') : Counts r ids r'' := h.trans h'

theorem mark (r : ChannelReassembler) (frameId : Nat) :
    Counts r [frameId] (r.markFrameDropped frameId) := by
  unfold Counts markFrameDropped
  by_cases hlast : r.lastDroppedId = some frameId
  · simp [noted, Recount.note, hlast]
  · simp [noted, Recount.note, hlast]

theorem dropFrame (r : ChannelReassembler) (frameId : Nat) :
    Counts r (r.dropFrameDrops frameId) (r.dropFrame frameId).1 := by
  unfold ChannelReassembler.dropFrame dropFrameDrops
  dsimp only
  cases hlookup : r.frames.lookup frameId with
  | none => exact none rfl
  | some assembly => exact mark _ frameId

theorem dropAll (r : ChannelReassembler) (ids : List Nat) :
    Counts r (dropAllDrops r ids) (ids.foldl (fun r id => (r.dropFrame id).1) r) := by
  induction ids generalizing r with
  | nil => exact none rfl
  | cons id ids ih => exact (dropFrame r id).trans (ih _)

theorem dropOlderThan (r : ChannelReassembler) (frameId : Nat) :
    Counts r (r.dropOlderThanDrops iter frameId) (r.dropOlderThan iter frameId).1 :=
  dropAll _ _

theorem dropOldestExcept (r : ChannelReassembler) (keepFrameId : Nat) :
    Counts r (r.dropOldestExceptDrops keepFrameId) (r.dropOldestExcept keepFrameId).1 := by
  unfold ChannelReassembler.dropOldestExcept dropOldestExceptDrops
  cases (r.frames.keys.filter fun id => decide (id ≠ keepFrameId)).min? with
  | none => exact none rfl
  | some oldest => exact dropFrame r oldest

theorem makeRoom (bytes keepFrameId passes : Nat) (r : ChannelReassembler) (droppedAny : Bool) :
    Counts r (makeRoomDrops bytes keepFrameId passes r)
      (ChannelReassembler.makeRoom bytes keepFrameId passes r droppedAny).1 := by
  induction passes generalizing r droppedAny with
  | zero =>
      unfold makeRoomDrops ChannelReassembler.makeRoom
      split <;> exact none rfl
  | succ passes ih =>
      unfold makeRoomDrops ChannelReassembler.makeRoom
      split
      · exact none rfl
      · have holdest := dropOldestExcept r keepFrameId
        dsimp only
        cases hdrop : r.dropOldestExcept keepFrameId with
        | mk next dropped =>
            rw [hdrop] at holdest
            cases dropped with
            | true => exact holdest.trans (ih next true)
            | false => exact holdest.trans (none rfl)

theorem giveUp (r : ChannelReassembler) (frameId : Nat) (isKeyFrame : Bool) :
    Counts r (r.dropFrameDrops frameId) (r.giveUp frameId isKeyFrame) := by
  unfold ChannelReassembler.giveUp
  dsimp only
  have hdrop := dropFrame r frameId
  split
  · exact hdrop
  · exact hdrop

theorem reserveBuffer (r : ChannelReassembler) (bytes frameId : Nat) (isKeyFrame : Bool) :
    Counts r (r.reserveBufferDrops bytes frameId isKeyFrame)
      (r.reserveBuffer bytes frameId isKeyFrame).1 := by
  unfold ChannelReassembler.reserveBuffer reserveBufferDrops
  split
  · exact giveUp r frameId isKeyFrame
  · have hroom := makeRoom bytes frameId r.frames.keys.length r false
    cases hmade : ChannelReassembler.makeRoom bytes frameId r.frames.keys.length r false with
    | mk next dropped =>
        rw [hmade] at hroom
        cases dropped with
        | none => exact hroom.trans (giveUp next frameId isKeyFrame)
        | some droppedAny =>
            apply hroom.trans
            dsimp only
            split
            · exact (dropFrame next frameId).trans (mark _ frameId)
            · exact none rfl

theorem putRecovered (r : ChannelReassembler) (frameId missingIdx : Nat) (recovered : List UInt8) :
    Counts r [] (r.putRecovered frameId missingIdx recovered) := by
  unfold ChannelReassembler.putRecovered
  split
  · exact none rfl
  · split <;> exact none rfl

theorem recoverFrom (frameId : Nat) (r : ChannelReassembler) (fecs : List FecMeta) :
    Counts r (recoverFromDrops frameId r fecs) (ChannelReassembler.recoverFrom frameId r fecs) := by
  induction fecs generalizing r with
  | nil => exact none rfl
  | cons fec fecs ih =>
      unfold recoverFromDrops ChannelReassembler.recoverFrom
      cases r.frames.lookup frameId with
      | none => exact none rfl
      | some assembly =>
          dsimp only
          split
          · exact none rfl
          · cases fecRecoverOne fec (fec.present assembly.part) with
            | none => exact ih r
            | some found =>
                obtain ⟨missingIdx, recovered⟩ := found
                have hreserve := reserveBuffer r recovered.length frameId assembly.isKeyFrame
                dsimp only
                cases hreserved : r.reserveBuffer recovered.length frameId assembly.isKeyFrame with
                | mk next reserved =>
                    rw [hreserved] at hreserve
                    cases reserved with
                    | false => exact hreserve.trans (ih next)
                    | true =>
                        exact hreserve.trans
                          ((putRecovered next frameId missingIdx recovered).trans (ih _))

variable (r)

theorem tryFecRecover (frameId : Nat) :
    Counts r (r.tryFecRecoverDrops frameId) (r.tryFecRecover frameId) := by
  unfold ChannelReassembler.tryFecRecover tryFecRecoverDrops
  cases r.pendingFec.lookup frameId with
  | none => exact none rfl
  | some fecs => exact recoverFrom frameId r fecs

theorem finalizeFrame (frameId now : Nat) :
    Counts r (r.finalizeFrameDrops frameId) (r.finalizeFrame frameId now).1 := by
  unfold ChannelReassembler.finalizeFrame finalizeFrameDrops
  cases hlookup : r.frames.lookup frameId with
  | none => exact none rfl
  | some assembly =>
      dsimp only
      split
      · exact none rfl
      · split
        · exact none rfl
        · split
          · exact mark _ frameId
          · split
            · exact mark _ frameId
            · exact none rfl

theorem noteFrameId (frameId : Nat) (isKeyFrame : Bool) :
    Counts r (r.noteFrameIdDrops iter frameId isKeyFrame)
      (r.noteFrameId iter frameId isKeyFrame).1 := by
  unfold ChannelReassembler.noteFrameId noteFrameIdDrops
  split
  · dsimp only
    refine Counts.trans (@dropOlderThan _ { r with latestFrameIdSeen := some frameId }
      (frameId - reassemblyReorderWindowFrames)) ?_
    split
    · exact (dropOlderThan _ (satAdd32 frameId 1)).trans (mark _ frameId)
    · exact none rfl
  · exact none rfl

theorem noteKeyFrame (frameId : Nat) (isKeyFrame : Bool) :
    Counts r (r.noteKeyFrameDrops iter frameId isKeyFrame)
      (r.noteKeyFrame iter frameId isKeyFrame) := by
  unfold ChannelReassembler.noteKeyFrame noteKeyFrameDrops
  split
  · exact dropOlderThan (r := { r with waitingAfterLoss := false }) frameId
  · exact none rfl

theorem entry (pkt : EvrtPacket) (now : Nat) : Counts r [] (r.entry pkt now).1 := by
  unfold ChannelReassembler.entry
  split <;> exact none rfl

theorem recoverAndFinalize (frameId now : Nat) :
    Counts r (r.tryFecRecoverDrops frameId ++ (r.tryFecRecover frameId).finalizeFrameDrops frameId)
      ((r.tryFecRecover frameId).finalizeFrame frameId now).1 :=
  (tryFecRecover r frameId).trans (finalizeFrame _ frameId now)

theorem store (pkt : EvrtPacket) (now : Nat) : Counts r (r.storeDrops pkt) (r.store pkt now).1 := by
  unfold ChannelReassembler.store storeDrops
  cases r.frames.lookup pkt.frameId with
  | none => exact none rfl
  | some assembly =>
      dsimp only
      cases assembly.set pkt.packetIndex pkt.payload with
      | none => exact none rfl
      | some assembly =>
          dsimp only
          split
          · exact recoverAndFinalize _ pkt.frameId now
          · exact finalizeFrame _ pkt.frameId now

theorem assemble (pkt : EvrtPacket) (now : Nat) :
    Counts r (r.assembleDrops pkt now) (r.assemble pkt now).1 := by
  unfold ChannelReassembler.assemble assembleDrops
  have hentry := entry r pkt now
  cases hmade : r.entry pkt now with
  | mk next assembly =>
      rw [hmade] at hentry
      apply after hentry
      dsimp only
      split
      · exact giveUp next pkt.frameId pkt.isKeyFrame
      · split
        · exact none rfl
        · have hreserve := reserveBuffer next pkt.payload.length pkt.frameId pkt.isKeyFrame
          cases hreserved : next.reserveBuffer pkt.payload.length pkt.frameId pkt.isKeyFrame with
          | mk kept reserved =>
              rw [hreserved] at hreserve
              apply hreserve.trans
              cases reserved with
              | false => exact none rfl
              | true => exact store kept pkt now

theorem onPacket (pkt : EvrtPacket) (now : Nat) :
    Counts r (r.onPacketDrops iter pkt now) (r.onPacket iter pkt now).1 := by
  unfold ChannelReassembler.onPacket onPacketDrops
  split
  · exact mark r pkt.frameId
  split
  · exact none rfl
  split
  · exact none rfl
  split
  · exact mark r pkt.frameId
  have hnote : Counts r (r.noteFrameIdDrops iter pkt.frameId pkt.isKeyFrame) _ :=
    noteFrameId r pkt.frameId pkt.isKeyFrame
  cases hnoted : r.noteFrameId iter pkt.frameId pkt.isKeyFrame with
  | mk next lost =>
      rw [hnoted] at hnote
      apply hnote.trans
      cases lost with
      | true => exact none rfl
      | false => exact (noteKeyFrame next pkt.frameId pkt.isKeyFrame).trans (assemble _ pkt now)

theorem onFecPacket (pkt : EvrtPacket) (now : Nat) :
    Counts r (r.onFecPacketDrops pkt) (r.onFecPacket pkt now).1 := by
  unfold ChannelReassembler.onFecPacket onFecPacketDrops
  split
  · exact none rfl
  split
  · exact none rfl
  cases parseFecPayload pkt.frameId pkt.payload with
  | none => exact none rfl
  | some fec =>
      dsimp only
      split
      · exact recoverAndFinalize _ pkt.frameId now
      · exact none rfl

end Counts

end ChannelReassembler

/-- A packet that arrives with a slice of a frame, or with parity. -/
inductive ChannelPacket where
  | data (pkt : EvrtPacket) (now : Nat)
  | fec (pkt : EvrtPacket) (now : Nat)

def ChannelPacket.op : ChannelPacket → Op
  | data pkt now => .packet pkt now
  | fec pkt now => .fecPacket pkt now

/-- The frames that a packet makes a channel drop. -/
def ChannelPacket.drops (iter : IterOrder Nat) (r : ChannelReassembler) : ChannelPacket → List Nat
  | data pkt now => r.onPacketDrops iter pkt now
  | fec pkt _ => r.onFecPacketDrops pkt

/-- The state after some packets. -/
def afterPackets (iter : IterOrder Nat) (packets : List ChannelPacket) : ChannelReassembler :=
  (machine iter).run .new (packets.map ChannelPacket.op)

/-- The frames that were dropped in a run, in the order in which they were. -/
def dropLog (iter : IterOrder Nat) : ChannelReassembler → List ChannelPacket → List Nat
  | _, [] => []
  | r, packet :: packets =>
      packet.drops iter r ++ dropLog iter ((machine iter).step r packet.op).1 packets

theorem counts_run (iter : IterOrder Nat) (r : ChannelReassembler) (packets : List ChannelPacket) :
    r.Counts (dropLog iter r packets) ((machine iter).run r (packets.map ChannelPacket.op)) := by
  induction packets generalizing r with
  | nil => exact .none rfl
  | cons packet packets ih =>
      have hstep : r.Counts (packet.drops iter r) ((machine iter).step r packet.op).1 := by
        cases packet with
        | data pkt now => exact .onPacket r pkt now
        | fec pkt now => exact .onFecPacket r pkt now
      exact hstep.trans (ih _)

/-- The counter of dropped frames is the number of the frames that were dropped if and only
if between two drops of one frame no other frame is dropped. -/
theorem counted_once_iff (iter : IterOrder Nat) (packets : List ChannelPacket) :
    (afterPackets iter packets).droppedFrames = (dropLog iter .new packets).toFinset.card ↔
      Recount.Gathered (dropLog iter .new packets) := by
  have hcounts := counts_run iter .new packets
  have hcounter : (afterPackets iter packets).droppedFrames =
      Recount.count (dropLog iter .new packets) :=
    congrArg Prod.snd hcounts
  rw [hcounter]
  exact Recount.count_eq_card_iff _

/-- The first or the second slice of a delta frame of two. -/
def lateSlice (frameId index : Nat) (h : frameId < 2 ^ 32) : ChannelPacket :=
  .data ⟨typeVideoFrame, 0, frameId, index, 2, 0, [1], h⟩ 0

/-- The rest of the first frame is lost, and with it the sixth; of this one a slice comes
late, after one of the fifth. -/
def lateSlices : List ChannelPacket :=
  [lateSlice 1 0 (Nat.one_lt_two_pow (by decide)), lateSlice 6 0 (by decide),
    lateSlice 5 0 (by decide), lateSlice 6 1 (by decide)]

theorem late_slices_are_recounted :
    ¬ ∀ (iter : IterOrder Nat) (packets : List ChannelPacket),
      (afterPackets iter packets).droppedFrames = (dropLog iter .new packets).toFinset.card := by
  intro hall
  have hcount := hall (.stored Nat) lateSlices
  revert hcount
  decide

end EvertyDesk.Reassembler
