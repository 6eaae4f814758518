import EvertyDesk.Evrt.Packet
import EvertyDesk.Lib.Chunks
import EvertyDesk.Lib.Parity

/-!
Video frames as EVRT datagrams with forward error correction. A frame is cut
into chunks, one data packet each; every group of up to eight chunks has one
parity packet, from which a single lost chunk of the group is recovered.
-/

namespace EvertyDesk.Evrt

def fecGroupSize : Nat := 8

/-- base_index(2) + group_size(1) + xor_len(2) -/
def fecHeaderLen : Nat := 5

structure FecMeta where
  frameId : Nat
  baseIndex : Nat
  groupSize : Nat
  xorLen : Nat
  xorPayload : List UInt8
deriving DecidableEq, Repr

/-- The lengths of a group, narrowed to 16 bits each, combined. -/
def xorLengths (acc : Nat) (members : List (List UInt8)) : Nat :=
  members.foldl (fun acc member => acc ^^^ (member.length % 2 ^ 16)) acc

def fecPayload (baseIndex : Nat) (group : List (List UInt8)) : List UInt8 :=
  beBytes 2 baseIndex ++ (beBytes 1 group.length ++
    (beBytes 2 (xorLengths 0 group) ++ parity (List.replicate (maxLength group) 0) group))

variable (sha : Sha256)

def buildFecPackets (frameId presentationTimeUs flags : Nat)
    (chunkList : List (List UInt8)) (sessionToken : Option (List UInt8)) :
    List (List UInt8) :=
  if chunkList.isEmpty then []
  else
    let totalGroups := divCeil chunkList.length fecGroupSize
    if totalGroups > maxFramePacketCount then []
    else
      (chunks fecGroupSize chunkList).zipIdx.filterMap fun (group, gi) =>
        if fecHeaderLen + maxLength group > baseMax sessionToken then none
        else
          some (buildPacketAuthenticated sha typeFec flags frameId gi totalGroups
            presentationTimeUs (fecPayload (gi * fecGroupSize) group)
            sessionToken)

/-- The chunk size leaves room for the header of a parity packet. -/
def chunkSize (sessionToken : Option (List UInt8)) : Nat :=
  max (baseMax sessionToken - fecHeaderLen) 1

/-- The data packets and the parity packets of a frame. -/
def packetizeVideoWithFec (frameId presentationTimeUs : Nat) (isKeyFrame : Bool)
    (payload : List UInt8) (sessionToken : Option (List UInt8)) :
    List (List UInt8) × List (List UInt8) :=
  let size := chunkSize sessionToken
  let flags := frameFlags isKeyFrame
  if payload.isEmpty then ([], [])
  else
    let packetCount := divCeil payload.length size
    if packetCount = 0 ∨ packetCount > maxFramePacketCount then ([], [])
    else
      let pieces := chunks size payload
      let data := pieces.zipIdx.map fun (piece, i) =>
        buildPacketAuthenticated sha typeVideoFrame flags frameId i packetCount
          presentationTimeUs piece sessionToken
      let fec :=
        if pieces.length ≥ 2 then
          buildFecPackets sha frameId presentationTimeUs flags pieces sessionToken
        else []
      (data, fec)

def parseFecPayload (frameId : Nat) (payload : List UInt8) : Option FecMeta :=
  if payload.length < fecHeaderLen then none
  else
    let groupSize := beNat (field payload 2 1)
    if groupSize = 0 ∨ groupSize > fecGroupSize then none
    else
      some {
        frameId := frameId
        baseIndex := beNat (field payload 0 2)
        groupSize := groupSize
        xorLen := beNat (field payload 3 2)
        xorPayload := payload.drop fecHeaderLen }

/-- The first index after the group, saturated to 16 bits. -/
def FecMeta.stop (fec : FecMeta) : Nat := min (fec.baseIndex + fec.groupSize) 65535

def FecMeta.covers (fec : FecMeta) (index : Nat) : Bool :=
  decide (index ≥ fec.baseIndex) && decide (index < fec.stop)

/-- Note one packet of the group as present: the flags of the group's slots,
and how many are set. -/
def FecMeta.markSeen (fec : FecMeta) (state : List Bool × Nat) (index : Nat) : List Bool × Nat :=
  if fec.covers index then
    let off := index - fec.baseIndex
    if decide (off < fecGroupSize) && !state.1.getD off false then
      (state.1.set off true, state.2 + 1)
    else state
  else state

/-- Recover the one packet of a group that is missing among those present. -/
def fecRecoverOne (fec : FecMeta) (present : List (Nat × List UInt8)) : Option (Nat × List UInt8) :=
  let (seen, presentInGroup) := (present.map Prod.fst).foldl fec.markSeen
    (List.replicate fecGroupSize false, 0)
  if presentInGroup + 1 ≠ fec.groupSize then none
  else
    match (List.range fec.groupSize).find? fun o => !seen.getD o false with
    | none => none
    | some missingOff =>
        let members := (present.filter fun (index, _) => fec.covers index).map Prod.snd
        let recovered := parity fec.xorPayload members
        let recoveredLen := xorLengths fec.xorLen members
        if recoveredLen > recovered.length then none
        else some (fec.baseIndex + missingOff, recovered.take recoveredLen)

/-- What the parity packet of a group says. -/
def groupMeta (frameId gi : Nat) (group : List (List UInt8)) : FecMeta where
  frameId := frameId
  baseIndex := gi * fecGroupSize
  groupSize := group.length
  xorLen := xorLengths 0 group
  xorPayload := parity (List.replicate (maxLength group) 0) group

theorem xorLengths_lt (group : List (List UInt8)) {acc : Nat}
    (h : acc < 2 ^ 16) : xorLengths acc group < 2 ^ 16 := by
  induction group generalizing acc with
  | nil => exact h
  | cons member group ih =>
      exact ih (Nat.xor_lt_two_pow h (Nat.mod_lt _ (by decide)))

@[simp] theorem fecPayload_length (baseIndex : Nat) (group : List (List UInt8)) :
    (fecPayload baseIndex group).length = fecHeaderLen + maxLength group := by
  simp only [fecPayload, List.length_append, beBytes_length, parity_length,
    List.length_replicate, fecHeaderLen]
  omega

/-- A parity packet's payload is read back as what it says of its group. -/
theorem parseFecPayload_fecPayload {frameId gi : Nat}
    {group : List (List UInt8)} (hpositive : 0 < group.length)
    (hsize : group.length ≤ fecGroupSize)
    (hindex : gi * fecGroupSize < 2 ^ 16) :
    parseFecPayload frameId (fecPayload (gi * fecGroupSize) group) =
      some (groupMeta frameId gi group) := by
  have hsize256 : group.length < 256 := hsize.trans_lt (by decide)
  have hbase : beNat (field (fecPayload (gi * fecGroupSize) group) 0 2) = gi * fecGroupSize := by
    simpa [fecPayload, field_here, beNat_beBytes, Nat.mod_eq_iff_lt] using hindex
  have hgroup : beNat (field (fecPayload (gi * fecGroupSize) group) 2 1) =
      group.length := by
    simpa [fecPayload, field_skip, field_here, beNat_beBytes, Nat.mod_eq_iff_lt] using hsize256
  have hlen : beNat (field (fecPayload (gi * fecGroupSize) group) 3 2) = xorLengths 0 group := by
    simpa [fecPayload, field_skip, field_here, beNat_beBytes,
      Nat.mod_eq_iff_lt] using xorLengths_lt group (by decide)
  have hpayload : (fecPayload (gi * fecGroupSize) group).drop fecHeaderLen =
      parity (List.replicate (maxLength group) 0) group := by
    simp [fecPayload, fecHeaderLen, List.drop_append, List.drop_eq_nil_of_le]
  have hlong : ¬ (fecPayload (gi * fecGroupSize) group).length < fecHeaderLen := by
    rw [fecPayload_length]
    omega
  have hvalid : ¬ (group.length = 0 ∨ group.length > fecGroupSize) := by omega
  rw [parseFecPayload, if_neg hlong]
  simp only [hgroup, hbase, hlen, hpayload, if_neg hvalid, groupMeta]

theorem FecMeta.covers_iff (fec : FecMeta) (index : Nat) :
    fec.covers index = true ↔ fec.baseIndex ≤ index ∧
      index < fec.baseIndex + fec.groupSize ∧ index < 65535 := by
  simp only [covers, stop, Bool.and_eq_true, decide_eq_true_eq, lt_min_iff]

/-- Marking distinct packets of a group sets one flag for each. -/
theorem markSeen_foldl {fec : FecMeta} (hsize : fec.groupSize ≤ fecGroupSize)
    (indices : List Nat) (state : List Bool × Nat) (hnodup : indices.Nodup)
    (hlength : state.1.length = fecGroupSize)
    (hfresh : ∀ index ∈ indices, fec.covers index = true ∧
      state.1.getD (index - fec.baseIndex) false = false) :
    (indices.foldl fec.markSeen state).2 = state.2 + indices.length ∧
    ∀ off, (indices.foldl fec.markSeen state).1.getD off false = true ↔
      state.1.getD off false = true ∨ fec.baseIndex + off ∈ indices := by
  induction indices generalizing state with
  | nil => simp
  | cons index indices ih =>
      obtain ⟨hnew, hnodup⟩ := List.nodup_cons.mp hnodup
      obtain ⟨hcovers, hunset⟩ := hfresh index List.mem_cons_self
      have hrange := (fec.covers_iff index).mp hcovers
      have hoff : index - fec.baseIndex < fecGroupSize := by omega
      have hmark : fec.markSeen state index =
          (state.1.set (index - fec.baseIndex) true, state.2 + 1) := by
        simp only [FecMeta.markSeen, if_pos hcovers, hunset, hoff, decide_true,
          Bool.not_false, Bool.and_self, if_true]
      have hset : ∀ off, (state.1.set (index - fec.baseIndex) true).getD off false =
          true ↔ off = index - fec.baseIndex ∨ state.1.getD off false = true := by
        intro off
        by_cases heq : off = index - fec.baseIndex
        · subst heq
          simp [List.getD_eq_getElem?_getD, hlength, hoff]
        · simp [List.getD_eq_getElem?_getD, heq, Ne.symm heq]
      have hstep := ih (state.1.set (index - fec.baseIndex) true, state.2 + 1)
        hnodup (by simpa using hlength) (by
          intro later hlater
          obtain ⟨hlaterCovers, hlaterUnset⟩ := hfresh later (List.mem_cons_of_mem _ hlater)
          refine ⟨hlaterCovers, ?_⟩
          have hdistinct : later ≠ index := fun h => hnew (h ▸ hlater)
          have hlaterRange := (fec.covers_iff later).mp hlaterCovers
          apply Bool.eq_false_iff.mpr
          intro hset'
          rcases (hset _).mp hset' with same | set
          · omega
          · rw [hlaterUnset] at set
            contradiction)
      rw [List.foldl_cons, hmark]
      refine ⟨?_, ?_⟩
      · rw [hstep.1, List.length_cons]
        omega
      · intro off
        rw [hstep.2, hset, List.mem_cons]
        have : off = index - fec.baseIndex ↔ fec.baseIndex + off = index := by
          omega
        tauto

/-- The packets of a group that a receiver holds, as `try_fec_recover` lists
them. -/
def FecMeta.present (fec : FecMeta) (parts : Nat → Option (List UInt8)) : List (Nat × List UInt8) :=
  (List.range' fec.baseIndex (fec.stop - fec.baseIndex)).filterMap fun index =>
    (parts index).map fun part => (index, part)

private theorem present_members (fec : FecMeta) (parts : Nat → Option (List UInt8)) :
    ((fec.present parts).filter fun (index, _) => fec.covers index).map Prod.snd =
      (List.range (fec.stop - fec.baseIndex)).filterMap fun off =>
        parts (fec.baseIndex + off) := by
  have hall : (fec.present parts).filter (fun (index, _) => fec.covers index) =
      fec.present parts := by
    apply List.filter_eq_self.mpr
    rintro ⟨index, part⟩ member
    obtain ⟨index', hindex', hpart⟩ := List.mem_filterMap.mp member
    obtain ⟨_, _, hpair⟩ := Option.map_eq_some_iff.mp hpart
    obtain ⟨rfl, -⟩ := Prod.mk.inj hpair
    have := List.mem_range'_1.mp hindex'
    simp only [FecMeta.covers, Bool.and_eq_true, decide_eq_true_eq]
    omega
  rw [hall, FecMeta.present, List.map_filterMap, List.range'_eq_map_range, List.filterMap_map]
  apply List.filterMap_congr
  intro off _
  simp only [Function.comp_apply]
  cases parts (fec.baseIndex + off) <;> rfl

private theorem present_indices (fec : FecMeta) (parts : Nat → Option (List UInt8)) :
    (fec.present parts).map Prod.fst =
      (List.range' fec.baseIndex (fec.stop - fec.baseIndex)).filter fun index =>
        (parts index).isSome := by
  rw [FecMeta.present, List.map_filterMap, ← List.filterMap_eq_filter]
  apply List.filterMap_congr
  intro index _
  cases hpart : parts index <;> simp [hpart, Option.guard]

/-- Which slots of a group its present packets mark. -/
private theorem present_marks (fec : FecMeta) (hsize : fec.groupSize ≤ fecGroupSize)
    (hfits : fec.baseIndex + fec.groupSize ≤ 65535)
    (parts : Nat → Option (List UInt8)) :
    let marks := ((fec.present parts).map Prod.fst).foldl fec.markSeen
      (List.replicate fecGroupSize false, 0)
    marks.2 = ((List.range fec.groupSize).filterMap fun off =>
        parts (fec.baseIndex + off)).length ∧
      ∀ off < fec.groupSize, marks.1.getD off false = (parts (fec.baseIndex + off)).isSome := by
  intro marks
  have hspan : fec.stop - fec.baseIndex = fec.groupSize := by
    simp only [FecMeta.stop]
    omega
  have hunset : ∀ off, (List.replicate fecGroupSize false).getD off false = false := by
    intro off
    rw [List.getD_eq_getElem?_getD, List.getElem?_replicate]
    split <;> rfl
  have hmark := markSeen_foldl hsize ((fec.present parts).map Prod.fst)
    (List.replicate fecGroupSize false, 0)
    (by
      rw [present_indices]
      exact List.Nodup.sublist List.filter_sublist List.nodup_range')
    List.length_replicate (by
      intro seen hseen
      rw [present_indices, List.mem_filter, List.mem_range'_1] at hseen
      exact ⟨(fec.covers_iff seen).mpr (by omega), hunset _⟩)
  refine ⟨?_, ?_⟩
  · rw [hmark.1, Nat.zero_add, List.length_map, ← hspan, ← present_members, List.length_map]
    congr 1
    apply (List.filter_eq_self.mpr _).symm
    rintro ⟨index, part⟩ member
    have hindex : index ∈ (fec.present parts).map Prod.fst := List.mem_map.mpr ⟨_, member, rfl⟩
    rw [present_indices, List.mem_filter, List.mem_range'_1] at hindex
    exact (fec.covers_iff index).mpr (by omega)
  · intro off hoff
    rw [Bool.eq_iff_iff, hmark.2, hunset, present_indices, List.mem_filter, List.mem_range'_1]
    simp only [Bool.false_eq_true, false_or, and_iff_right_iff_imp]
    omega

/-- Recovery from an honest parity packet and honest data packets yields the
missing packet of the group, at its own index. -/
theorem fecRecoverOne_honest {frameId gi : Nat} {group : List (List UInt8)}
    {parts : Nat → Option (List UInt8)} {index : Nat} {bytes : List UInt8}
    (hsize : group.length ≤ fecGroupSize)
    (hindex : gi * fecGroupSize + fecGroupSize ≤ 65535)
    (hlength : ∀ member ∈ group, member.length < 2 ^ 16)
    (hparts : ∀ off < group.length, ∀ part,
      parts (gi * fecGroupSize + off) = some part → group[off]? = some part)
    (hrecover : fecRecoverOne (groupMeta frameId gi group)
      ((groupMeta frameId gi group).present parts) = some (index, bytes)) :
    ∃ off, index = gi * fecGroupSize + off ∧ group[off]? = some bytes ∧ parts index = none := by
  let fec := groupMeta frameId gi group
  let held := (List.range group.length).filterMap fun off =>
    parts (gi * fecGroupSize + off)
  have hfits : fec.baseIndex + fec.groupSize ≤ 65535 := by
    simp only [fec, groupMeta]
    omega
  have hspan : fec.stop - fec.baseIndex = group.length := by
    simp only [FecMeta.stop, fec, groupMeta]
    omega
  obtain ⟨hcount, hslots⟩ := present_marks fec hsize hfits parts
  have hmembers := present_members fec parts
  rw [hspan] at hmembers
  unfold fecRecoverOne at hrecover
  dsimp only at hrecover
  split at hrecover
  · contradiction
  next hone =>
  split at hrecover
  · contradiction
  next off hoff =>
  split at hrecover
  · contradiction
  obtain ⟨rfl, hbytes⟩ := Prod.mk.inj (Option.some.inj hrecover)
  have hlt : off < group.length := by
    simpa [groupMeta] using List.mem_of_find?_eq_some hoff
  have hmissing : parts (gi * fecGroupSize + off) = none := by
    have hunset := List.find?_some hoff
    rw [Bool.not_eq_true', hslots off hlt] at hunset
    have hbase : fec.baseIndex = gi * fecGroupSize := rfl
    simpa [hbase] using hunset
  have hperm : group.Perm (group[off] :: held) := by
    apply perm_of_one_missing hparts (List.getElem?_eq_getElem hlt) hmissing
    rw [hcount] at hone
    exact Decidable.not_not.mp hone
  have hparity : parity (parity (List.replicate (maxLength group) 0) group) held =
      xorInto (List.replicate (maxLength group) 0) group[off] :=
    parity_recovers hperm _
  have hlen : xorLengths (xorLengths 0 group) held = group[off].length := by
    have hxor := foldl_xor_recovers (fun member : List UInt8 =>
      member.length % 2 ^ 16) hperm
    rw [Nat.mod_eq_of_lt (hlength _ (List.getElem_mem hlt))] at hxor
    exact hxor
  refine ⟨off, rfl, ?_, hmissing⟩
  rw [List.getElem?_eq_getElem hlt, ← hbytes, hmembers]
  change some group[off] = some ((parity (parity
    (List.replicate (maxLength group) 0) group) held).take (xorLengths (xorLengths 0 group) held))
  rw [hparity, hlen, xorInto_zeros_take (length_le_maxLength (List.getElem_mem hlt))]

/-- A frame as it is given to `packetize_video_with_fec`. -/
structure VideoFrame where
  frameId : Nat
  presentationTimeUs : Nat
  isKeyFrame : Bool
  payload : List UInt8
  frameId_lt : frameId < 2 ^ 32
  time_lt : presentationTimeUs < 2 ^ 64

namespace VideoFrame

variable (frame : VideoFrame) (sessionToken : Option (List UInt8))

def packetize : List (List UInt8) × List (List UInt8) :=
  packetizeVideoWithFec sha frame.frameId frame.presentationTimeUs
    frame.isKeyFrame frame.payload sessionToken

def pieces : List (List UInt8) := chunks (chunkSize sessionToken) frame.payload

def groups : List (List (List UInt8)) := chunks fecGroupSize (frame.pieces sessionToken)

/-- The data packet of one piece. -/
def dataPacket (index : Nat) (piece : List UInt8) : EvrtPacket where
  packetType := typeVideoFrame
  flags := frameFlags frame.isKeyFrame
  frameId := frame.frameId
  packetIndex := index
  packetCount := (frame.pieces sessionToken).length
  presentationTimeUs := frame.presentationTimeUs
  payload := piece
  frameId_lt := frame.frameId_lt

/-- The parity packet of one group of pieces. -/
def fecPacket (gi : Nat) (group : List (List UInt8)) : EvrtPacket where
  packetType := typeFec
  flags := frameFlags frame.isKeyFrame
  frameId := frame.frameId
  packetIndex := gi
  packetCount := divCeil (frame.pieces sessionToken).length fecGroupSize
  presentationTimeUs := frame.presentationTimeUs
  payload := fecPayload (gi * fecGroupSize) group
  frameId_lt := frame.frameId_lt

@[simp] theorem dataPacket_isKeyFrame (index : Nat) (piece : List UInt8) :
    (frame.dataPacket sessionToken index piece).isKeyFrame = frame.isKeyFrame := by
  cases hkey : frame.isKeyFrame <;>
    simp [EvrtPacket.isKeyFrame, dataPacket, frameFlags, flagKeyFrame, hkey]

theorem chunkSize_pos : 0 < chunkSize sessionToken := by
  simp [chunkSize]

theorem chunkSize_le : chunkSize sessionToken + fecHeaderLen = baseMax sessionToken := by
  simp only [chunkSize, baseMax]
  split <;> decide

theorem baseMax_le : baseMax sessionToken ≤ maxPayloadSize := by
  simp only [baseMax]
  split <;> decide

@[simp] theorem pieces_flatten :
    (frame.pieces sessionToken).flatten = frame.payload :=
  chunks_flatten (chunkSize_pos sessionToken) frame.payload

theorem piece_length_le {piece : List UInt8} (h : piece ∈ frame.pieces sessionToken) :
    piece.length ≤ chunkSize sessionToken :=
  mem_chunks_length_le h

/-- Frames with no packets: an empty payload and one that needs too many. -/
theorem packetize_cases :
    frame.packetize sha sessionToken = ([], []) ∨
    ((frame.pieces sessionToken).length ≤ maxFramePacketCount ∧
      (frame.packetize sha sessionToken).1 =
        (frame.pieces sessionToken).zipIdx.map (fun (piece, i) =>
          buildPacketAuthenticated sha typeVideoFrame (frameFlags frame.isKeyFrame)
            frame.frameId i (frame.pieces sessionToken).length
            frame.presentationTimeUs piece sessionToken) ∧
      ∀ datagram ∈ (frame.packetize sha sessionToken).2,
        datagram ∈ buildFecPackets sha frame.frameId frame.presentationTimeUs
          (frameFlags frame.isKeyFrame) (frame.pieces sessionToken)
          sessionToken) := by
  unfold packetize packetizeVideoWithFec
  dsimp only
  split
  · exact Or.inl rfl
  split
  · exact Or.inl rfl
  next _ hcount =>
  have hlength : (frame.pieces sessionToken).length =
      divCeil frame.payload.length (chunkSize sessionToken) := chunks_length ..
  refine Or.inr ⟨?_, ?_, ?_⟩
  · rw [hlength]
    omega
  · rw [← hlength]
    rfl
  · intro datagram member
    split at member
    · exact member
    · contradiction

/-- Every data datagram is read back as the data packet of one piece. -/
theorem parse_data {datagram : List UInt8} (h : datagram ∈ (frame.packetize sha sessionToken).1) :
    ∃ index piece, (frame.pieces sessionToken)[index]? = some piece ∧
      (frame.pieces sessionToken).length ≤ maxFramePacketCount ∧
      parseAuthenticated sha datagram datagram.length sessionToken =
        some (frame.dataPacket sessionToken index piece) := by
  rcases frame.packetize_cases sha sessionToken with hnone | ⟨hcount, hdata, _⟩
  · rw [hnone] at h
    contradiction
  · rw [hdata] at h
    obtain ⟨⟨piece, index⟩, hpiece, rfl⟩ := List.mem_map.mp h
    have hget := List.mk_mem_zipIdx_iff_getElem?.mp hpiece
    have hlength := frame.piece_length_le sessionToken (List.mem_of_getElem? hget)
    have hindex := (List.getElem?_eq_some_iff.mp hget).1
    have hsize := chunkSize_le sessionToken
    have hmax := baseMax_le sessionToken
    refine ⟨index, piece, hget, hcount, ?_⟩
    refine parseAuthenticated_build sha (frame.dataPacket sessionToken index piece)
      ⟨by simp only [dataPacket]; decide, ?_, hindex, hcount, frame.time_lt, ?_⟩ sessionToken ?_
    · simp only [dataPacket, frameFlags, flagKeyFrame]
      split <;> decide
    · simp only [dataPacket]
      omega
    · simp only [dataPacket]
      omega

theorem group_length {gi : Nat} {group : List (List UInt8)}
    (h : (frame.groups sessionToken)[gi]? = some group) :
    0 < group.length ∧ group.length ≤ fecGroupSize ∧
      gi * fecGroupSize < (frame.pieces sessionToken).length := by
  rw [groups, chunks_getElem?] at h
  split at h
  · next hlt =>
      obtain rfl := Option.some.inj h
      have hpositive : 0 < fecGroupSize := by decide
      exact ⟨chunk_length_pos hpositive hlt, chunk_length_le _ _ _, (lt_divCeil hpositive).mp hlt⟩
  · contradiction

/-- The members of a group are the pieces with its indices. -/
theorem group_getElem? {gi off : Nat} {group : List (List UInt8)}
    (h : (frame.groups sessionToken)[gi]? = some group)
    (hoff : off < fecGroupSize) :
    group[off]? = (frame.pieces sessionToken)[gi * fecGroupSize + off]? := by
  rw [groups, chunks_getElem?] at h
  split at h
  · obtain rfl := Option.some.inj h
    exact chunk_getElem? hoff
  · contradiction

/-- Every parity datagram is read back as the parity packet of one group. -/
theorem parse_fec {datagram : List UInt8} (h : datagram ∈ (frame.packetize sha sessionToken).2) :
    ∃ gi group, (frame.groups sessionToken)[gi]? = some group ∧
      (frame.pieces sessionToken).length ≤ maxFramePacketCount ∧
      parseAuthenticated sha datagram datagram.length sessionToken =
        some (frame.fecPacket sessionToken gi group) := by
  rcases frame.packetize_cases sha sessionToken with hnone | ⟨hcount, _, hfec⟩
  · rw [hnone] at h
    contradiction
  · have hbuilt := hfec datagram h
    unfold buildFecPackets at hbuilt
    split at hbuilt
    · contradiction
    dsimp only at hbuilt
    split at hbuilt
    · contradiction
    next hgroups =>
    obtain ⟨⟨group, gi⟩, hgroup, hdatagram⟩ := List.mem_filterMap.mp hbuilt
    have hget := List.mk_mem_zipIdx_iff_getElem?.mp hgroup
    dsimp only at hdatagram
    split at hdatagram
    · contradiction
    next hfits =>
    obtain rfl := Option.some.inj hdatagram
    have hindex := (List.getElem?_eq_some_iff.mp hget).1
    rw [chunks_length] at hindex
    have hmax := baseMax_le sessionToken
    refine ⟨gi, group, hget, hcount, ?_⟩
    refine parseAuthenticated_build sha (frame.fecPacket sessionToken gi group)
      ⟨by simp only [fecPacket]; decide, ?_, hindex, Nat.not_lt.mp hgroups,
        frame.time_lt, ?_⟩ sessionToken ?_
    · simp only [fecPacket, frameFlags, flagKeyFrame]
      split <;> decide
    · simp only [fecPacket, fecPayload_length]
      omega
    · simp only [fecPacket, fecPayload_length]
      omega

end VideoFrame

end EvertyDesk.Evrt
