import EvertyDesk.Evrt.Fec

/-!
The packetizers of EVRT. A payload is cut into slices, one datagram each; what
the header, the authentication tag and the fields of a parity packet take is
left free in a slice. A payload of too many slices is not sent at all.
-/

namespace EvertyDesk.Evrt

def typeCodecConfig : Nat := 2
def typeAudioFrame : Nat := 6
def typeEnhancementFrame : Nat := 8

variable (sha : Sha256)

def packetizeWithLimit (packetType flags frameId presentationTimeUs : Nat)
    (payload : List UInt8) (limit : Nat) (sessionToken : Option (List UInt8)) :
    List (List UInt8) :=
  if payload.isEmpty then []
  else if limit = 0 then []
  else
    let packetCount := divCeil payload.length limit
    if packetCount > maxFramePacketCount then []
    else
      (chunks limit payload).zipIdx.map fun (piece, i) =>
        buildPacketAuthenticated sha packetType flags frameId i packetCount
          presentationTimeUs piece sessionToken

def packetize (packetType flags frameId presentationTimeUs : Nat)
    (payload : List UInt8) : List (List UInt8) :=
  packetizeWithLimit sha packetType flags frameId presentationTimeUs payload maxPayloadSize none

def packetizeAuthenticated (packetType flags frameId presentationTimeUs : Nat)
    (payload : List UInt8) (sessionToken : Option (List UInt8)) : List (List UInt8) :=
  if sessionToken.any validSessionToken then
    packetizeWithLimit sha packetType flags frameId presentationTimeUs payload
      maxAuthPayloadSize sessionToken
  else packetize sha packetType flags frameId presentationTimeUs payload

def packetizeVideoFrame (frameId presentationTimeUs : Nat) (isKeyFrame : Bool)
    (payload : List UInt8) : List (List UInt8) :=
  packetize sha typeVideoFrame (frameFlags isKeyFrame) frameId presentationTimeUs payload

def packetizeVideoFrameAuthenticated (frameId presentationTimeUs : Nat)
    (isKeyFrame : Bool) (payload : List UInt8) (sessionToken : Option (List UInt8)) :
    List (List UInt8) :=
  packetizeAuthenticated sha typeVideoFrame (frameFlags isKeyFrame) frameId
    presentationTimeUs payload sessionToken

def packetizeEnhancementFrame (frameId presentationTimeUs : Nat) (isKeyFrame : Bool)
    (payload : List UInt8) : List (List UInt8) :=
  packetize sha typeEnhancementFrame (frameFlags isKeyFrame) frameId presentationTimeUs payload

def packetizeAudioFrameAuthenticated (frameId presentationTimeUs : Nat)
    (payload : List UInt8) (sessionToken : Option (List UInt8)) : List (List UInt8) :=
  packetizeAuthenticated sha typeAudioFrame 0 frameId presentationTimeUs payload sessionToken

/-- A datagram of its own, or nothing if the payload does not fit in one. -/
def buildSingleAuthenticated (packetType : Nat) (payload : List UInt8)
    (sessionToken : Option (List UInt8)) : List UInt8 :=
  if payload.length > baseMax sessionToken then []
  else buildPacketAuthenticated sha packetType 0 0 0 1 0 payload sessionToken

def buildCodecConfigAuthenticated (payload : List UInt8)
    (sessionToken : Option (List UInt8)) : List UInt8 :=
  buildSingleAuthenticated sha typeCodecConfig payload sessionToken

/-! Datagrams and the packets they are built from. -/

def EvrtPacket.buildAuthenticated (packet : EvrtPacket)
    (sessionToken : Option (List UInt8)) : List UInt8 :=
  buildPacketAuthenticated sha packet.packetType packet.flags packet.frameId
    packet.packetIndex packet.packetCount packet.presentationTimeUs packet.payload
    sessionToken

/-- The datagram is short enough, and is read back as the packet. -/
def Travels (read : List UInt8 → Option EvrtPacket) (datagram : List UInt8)
    (packet : EvrtPacket) : Prop :=
  datagram.length ≤ maxPacketSize ∧ read datagram = some packet

section Travelling

variable {sha} {packet : EvrtPacket} {sessionToken : Option (List UInt8)}

theorem buildAuthenticated_length_le
    (hpayload : packet.payload.length ≤ baseMax sessionToken) :
    (packet.buildAuthenticated sha sessionToken).length ≤ maxPacketSize := by
  unfold EvrtPacket.buildAuthenticated buildPacketAuthenticated
  cases htoken : sessionToken.filter validSessionToken with
  | none =>
      have hmax := hpayload.trans (VideoFrame.baseMax_le sessionToken)
      simp only [buildPacket_length]
      simp only [maxPayloadSize, maxPacketSize, headerSize] at *
      omega
  | some token =>
      obtain ⟨held, hvalid⟩ := Option.filter_eq_some_iff.mp htoken
      have hmax : packet.payload.length ≤ maxAuthPayloadSize := by
        simpa [baseMax, held, hvalid] using hpayload
      simp only [if_neg (Nat.not_lt.mpr hmax), List.length_append, buildPacket_length,
        sha.authTag_length]
      simp only [maxAuthPayloadSize, maxPacketSize, headerSize, authTagSize] at *
      omega

/-- A packet that leaves room for the tag travels. -/
theorem travels_of_fits (h : packet.Fits)
    (hpayload : packet.payload.length ≤ baseMax sessionToken) :
    Travels (fun datagram => parseAuthenticated sha datagram datagram.length sessionToken)
      (packet.buildAuthenticated sha sessionToken) packet :=
  ⟨buildAuthenticated_length_le hpayload,
    parseAuthenticated_build sha packet h sessionToken hpayload⟩

end Travelling

/-! The packetizers of video. -/

inductive Packetizer where
  | videoFrame
  | enhancementFrame
  | videoFrameAuthenticated (sessionToken : Option (List UInt8))
  | videoWithFec (sessionToken : Option (List UInt8))

namespace Packetizer

/-- The data datagrams and the parity datagrams of a frame. -/
def emit (p : Packetizer) (frame : VideoFrame) : List (List UInt8) × List (List UInt8) :=
  match p with
  | videoFrame =>
      (packetizeVideoFrame sha frame.frameId frame.presentationTimeUs frame.isKeyFrame
        frame.payload, [])
  | enhancementFrame =>
      (packetizeEnhancementFrame sha frame.frameId frame.presentationTimeUs
        frame.isKeyFrame frame.payload, [])
  | videoFrameAuthenticated sessionToken =>
      (packetizeVideoFrameAuthenticated sha frame.frameId frame.presentationTimeUs
        frame.isKeyFrame frame.payload sessionToken, [])
  | videoWithFec sessionToken =>
      packetizeVideoWithFec sha frame.frameId frame.presentationTimeUs frame.isKeyFrame
        frame.payload sessionToken

def sessionToken : Packetizer → Option (List UInt8)
  | videoFrame | enhancementFrame => none
  | videoFrameAuthenticated sessionToken | videoWithFec sessionToken => sessionToken

/-- How the receiver of a packetizer's datagrams reads them. -/
def read : Packetizer → List UInt8 → Option EvrtPacket
  | videoFrame, datagram | enhancementFrame, datagram => parse datagram datagram.length
  | videoFrameAuthenticated sessionToken, datagram
  | videoWithFec sessionToken, datagram =>
      parseAuthenticated sha datagram datagram.length sessionToken

def packetType : Packetizer → Nat
  | enhancementFrame => typeEnhancementFrame
  | _ => typeVideoFrame

/-- The length of all slices but the last. -/
def sliceSize : Packetizer → Nat
  | videoWithFec sessionToken => chunkSize sessionToken
  | p => baseMax p.sessionToken

def sliceCount (p : Packetizer) (frame : VideoFrame) : Nat :=
  divCeil frame.payload.length p.sliceSize

/-- The groups of slices that get a parity packet. -/
def groupCount (p : Packetizer) (frame : VideoFrame) : Nat :=
  match p with
  | videoWithFec _ =>
      if p.sliceCount frame ≥ 2 then divCeil (p.sliceCount frame) fecGroupSize else 0
  | _ => 0

def dataPacket (p : Packetizer) (frame : VideoFrame) (index : Nat) : EvrtPacket where
  packetType := p.packetType
  flags := frameFlags frame.isKeyFrame
  frameId := frame.frameId
  packetIndex := index
  packetCount := p.sliceCount frame
  presentationTimeUs := frame.presentationTimeUs
  payload := chunk p.sliceSize frame.payload index
  frameId_lt := frame.frameId_lt

def fecPacket (p : Packetizer) (frame : VideoFrame) (gi : Nat) : EvrtPacket where
  packetType := typeFec
  flags := frameFlags frame.isKeyFrame
  frameId := frame.frameId
  packetIndex := gi
  packetCount := p.groupCount frame
  presentationTimeUs := frame.presentationTimeUs
  payload := fecPayload (gi * fecGroupSize)
    (chunk fecGroupSize (chunks p.sliceSize frame.payload) gi)
  frameId_lt := frame.frameId_lt

/-- The payloads of the received datagrams, in the order of their indices. -/
def reassembled (p : Packetizer) (received : List (List UInt8)) : List UInt8 :=
  ((received.filterMap (p.read sha)).mergeSort fun a b =>
    a.packetIndex ≤ b.packetIndex).flatMap EvrtPacket.payload

variable {p : Packetizer} {frame : VideoFrame}

theorem read_eq (p : Packetizer) (datagram : List UInt8) :
    p.read sha datagram = parseAuthenticated sha datagram datagram.length p.sessionToken := by
  cases p <;> rfl

theorem sliceSize_pos (p : Packetizer) : 0 < p.sliceSize := by
  have hmax : ∀ sessionToken, 0 < baseMax sessionToken := by
    intro sessionToken
    have hroom := VideoFrame.chunkSize_le sessionToken
    rw [fecHeaderLen] at hroom
    omega
  cases p with
  | videoWithFec sessionToken => exact VideoFrame.chunkSize_pos sessionToken
  | _ => exact hmax _

theorem sliceSize_le (p : Packetizer) : p.sliceSize ≤ baseMax p.sessionToken := by
  cases p with
  | videoWithFec sessionToken =>
      have hroom := VideoFrame.chunkSize_le sessionToken
      change chunkSize sessionToken ≤ baseMax sessionToken
      omega
  | _ => exact Nat.le_refl _

/-- Without a token that is valid, a token makes no difference. -/
theorem packetizeAuthenticated_eq (packetType flags frameId presentationTimeUs : Nat)
    (payload : List UInt8) (sessionToken : Option (List UInt8)) :
    packetizeAuthenticated sha packetType flags frameId presentationTimeUs payload sessionToken =
      packetizeWithLimit sha packetType flags frameId presentationTimeUs payload
        (baseMax sessionToken) sessionToken := by
  unfold packetizeAuthenticated baseMax
  split
  · rfl
  next hinvalid =>
    have hnone : sessionToken.filter validSessionToken = none := by
      cases sessionToken with
      | none => rfl
      | some token => simpa using hinvalid
    unfold packetize packetizeWithLimit buildPacketAuthenticated
    rw [hnone, Option.filter_none]

theorem maxLength_chunk_le {pieces : List (List UInt8)} {bound : Nat}
    (h : ∀ piece ∈ pieces, piece.length ≤ bound) (gi : Nat) :
    maxLength (chunk fecGroupSize pieces gi) ≤ bound :=
  maxLength_le fun piece hpiece =>
    h piece (List.mem_of_mem_drop (List.mem_of_mem_take hpiece))

/-- Slices that leave room for the fields of a parity packet all get one. -/
theorem buildFecPackets_eq (frameId presentationTimeUs flags : Nat)
    {pieces : List (List UInt8)} {sessionToken : Option (List UInt8)}
    (hsome : pieces ≠ []) (hgroups : divCeil pieces.length fecGroupSize ≤ maxFramePacketCount)
    (hroom : ∀ piece ∈ pieces, piece.length ≤ chunkSize sessionToken) :
    buildFecPackets sha frameId presentationTimeUs flags pieces sessionToken =
      (List.range (divCeil pieces.length fecGroupSize)).map fun gi =>
        buildPacketAuthenticated sha typeFec flags frameId gi
          (divCeil pieces.length fecGroupSize) presentationTimeUs
          (fecPayload (gi * fecGroupSize) (chunk fecGroupSize pieces gi)) sessionToken := by
  unfold buildFecPackets
  rw [if_neg (by rwa [List.isEmpty_iff])]
  refine (if_neg (Nat.not_lt.mpr hgroups)).trans ?_
  rw [zipIdx_chunks, List.filterMap_map, ← List.filterMap_eq_map]
  apply List.filterMap_congr
  intro gi _
  have hmembers := maxLength_chunk_le hroom gi
  have hfits := VideoFrame.chunkSize_le sessionToken
  exact if_neg (by omega)

/-- All packetizers cut a frame up in the same way. -/
theorem emit_data (p : Packetizer) (frame : VideoFrame) :
    (p.emit sha frame).1 = packetizeWithLimit sha p.packetType
      (frameFlags frame.isKeyFrame) frame.frameId frame.presentationTimeUs frame.payload
      p.sliceSize p.sessionToken := by
  cases p with
  | videoFrame => rfl
  | enhancementFrame => rfl
  | videoFrameAuthenticated sessionToken => exact packetizeAuthenticated_eq sha ..
  | videoWithFec sessionToken =>
      have hpos := VideoFrame.chunkSize_pos sessionToken
      change (packetizeVideoWithFec sha frame.frameId frame.presentationTimeUs
        frame.isKeyFrame frame.payload sessionToken).1 = packetizeWithLimit sha
          typeVideoFrame (frameFlags frame.isKeyFrame) frame.frameId
          frame.presentationTimeUs frame.payload (chunkSize sessionToken) sessionToken
      unfold packetizeVideoWithFec packetizeWithLimit
      dsimp only
      split
      · rfl
      next hsome =>
        have hcount : 0 < divCeil frame.payload.length (chunkSize sessionToken) := by
          rw [lt_divCeil hpos, Nat.zero_mul, List.length_pos_iff]
          simpa using hsome
        rw [if_neg hpos.ne']
        split
        next hover => exact (if_pos (hover.resolve_left (by omega))).symm
        next hfew => exact (if_neg fun hover => hfew (Or.inr hover)).symm

theorem emit_nothing (hmany : p.sliceCount frame > maxFramePacketCount) :
    p.emit sha frame = ([], []) := by
  have hdata : (p.emit sha frame).1 = [] := by
    rw [emit_data, packetizeWithLimit]
    split
    · rfl
    split
    · rfl
    · exact if_pos hmany
  have hfec : (p.emit sha frame).2 = [] := by
    cases p with
    | videoWithFec sessionToken =>
        change (packetizeVideoWithFec sha frame.frameId frame.presentationTimeUs
          frame.isKeyFrame frame.payload sessionToken).2 = []
        have hover : divCeil frame.payload.length (chunkSize sessionToken) >
            maxFramePacketCount := hmany
        unfold packetizeVideoWithFec
        dsimp only
        split
        · rfl
        · rw [if_pos (Or.inr hover)]
    | _ => rfl
  exact Prod.ext hdata hfec

variable (hfew : p.sliceCount frame ≤ maxFramePacketCount)
include hfew

/-- One datagram for each slice, in order. -/
theorem emit_slices : (p.emit sha frame).1 =
    (List.range (p.sliceCount frame)).map fun i =>
      (p.dataPacket frame i).buildAuthenticated sha p.sessionToken := by
  rw [emit_data, packetizeWithLimit]
  split
  next hempty =>
    have hzero : p.sliceCount frame = 0 := by
      rw [List.isEmpty_iff] at hempty
      have hpos := p.sliceSize_pos
      rw [sliceCount, divCeil, hempty, List.length_nil]
      exact Nat.div_eq_of_lt (by omega)
    rw [hzero]
    rfl
  · rw [if_neg p.sliceSize_pos.ne', zipIdx_chunks]
    refine (if_neg (Nat.not_lt.mpr hfew)).trans ?_
    rw [List.map_map]
    rfl

theorem dataPacket_travels {i : Nat} (hi : i < p.sliceCount frame) :
    Travels (p.read sha) ((p.dataPacket frame i).buildAuthenticated sha p.sessionToken)
      (p.dataPacket frame i) := by
  have hsize := p.sliceSize_le
  have hmax := VideoFrame.baseMax_le p.sessionToken
  have hslice : (p.dataPacket frame i).payload.length ≤ p.sliceSize := chunk_length_le _ _ _
  rw [show p.read sha = _ from funext (p.read_eq sha)]
  refine travels_of_fits ⟨?_, ?_, hi, hfew, frame.time_lt, by omega⟩ (by omega)
  · cases p <;> simp only [dataPacket, packetType] <;> decide
  · simp only [dataPacket, frameFlags, flagKeyFrame]
    split <;> decide

/-- One parity datagram for each group, in order. -/
theorem emit_groups : (p.emit sha frame).2 =
    (List.range (p.groupCount frame)).map fun gi =>
      (p.fecPacket frame gi).buildAuthenticated sha p.sessionToken := by
  cases p with
  | videoWithFec sessionToken =>
      have hslices : divCeil frame.payload.length (chunkSize sessionToken) ≤
          maxFramePacketCount := hfew
      have hgroups : divCeil (divCeil frame.payload.length (chunkSize sessionToken))
          fecGroupSize ≤ maxFramePacketCount := by
        refine Nat.le_trans ?_ hslices
        rw [divCeil, fecGroupSize]
        omega
      have hgroupCount : (videoWithFec sessionToken).groupCount frame =
          if divCeil frame.payload.length (chunkSize sessionToken) ≥ 2 then
            divCeil (divCeil frame.payload.length (chunkSize sessionToken)) fecGroupSize
          else 0 := rfl
      change (packetizeVideoWithFec sha frame.frameId frame.presentationTimeUs
        frame.isKeyFrame frame.payload sessionToken).2 = _
      rw [hgroupCount]
      unfold packetizeVideoWithFec
      dsimp only
      rw [chunks_length]
      split
      next hempty =>
        rw [List.isEmpty_iff.mp hempty, List.length_nil, divCeil,
          Nat.div_eq_of_lt (by have := VideoFrame.chunkSize_pos sessionToken; omega)]
        rfl
      split
      next hnone => rw [if_neg (by omega)]; rfl
      split
      next hpair =>
        rw [buildFecPackets_eq sha _ _ _ (List.ne_nil_of_length_pos (by
          rw [chunks_length]
          omega)) (by rwa [chunks_length]) fun _ hpiece => mem_chunks_length_le hpiece,
          chunks_length]
        apply List.map_congr_left
        intro gi _
        unfold EvrtPacket.buildAuthenticated fecPacket
        rw [hgroupCount, if_pos hpair]
        rfl
      · rfl
  | _ => rfl

theorem fecPacket_travels {gi : Nat} (hgi : gi < p.groupCount frame) :
    Travels (p.read sha) ((p.fecPacket frame gi).buildAuthenticated sha p.sessionToken)
      (p.fecPacket frame gi) := by
  cases p with
  | videoWithFec sessionToken =>
      have hslices : divCeil frame.payload.length (chunkSize sessionToken) ≤
          maxFramePacketCount := hfew
      have hgroups : (videoWithFec sessionToken).groupCount frame ≤
          maxFramePacketCount := by
        change (if divCeil frame.payload.length (chunkSize sessionToken) ≥ 2 then
          divCeil (divCeil frame.payload.length (chunkSize sessionToken)) fecGroupSize
          else 0) ≤ maxFramePacketCount
        split
        · rw [divCeil, fecGroupSize]
          omega
        · exact Nat.zero_le _
      have hmembers := maxLength_chunk_le (fun piece (hpiece : piece ∈
        chunks (chunkSize sessionToken) frame.payload) => mem_chunks_length_le hpiece) gi
      have hroom := VideoFrame.chunkSize_le sessionToken
      have hmax := VideoFrame.baseMax_le sessionToken
      have hpayload : ((videoWithFec sessionToken).fecPacket frame gi).payload.length ≤
          baseMax sessionToken := by
        simp only [fecPacket, sliceSize, fecPayload_length]
        omega
      refine travels_of_fits ⟨?_, ?_, hgi, hgroups, frame.time_lt, by omega⟩ hpayload
      · simp only [fecPacket]
        decide
      · simp only [fecPacket, frameFlags, flagKeyFrame]
        split <;> decide
  | _ => exact absurd hgi (Nat.not_lt_zero _)

omit hfew

/-- Whatever the order in which they arrive, the slices make up the payload. -/
theorem reassembled_eq (hfew : p.sliceCount frame ≤ maxFramePacketCount)
    {received : List (List UInt8)} (hreceived : received.Perm (p.emit sha frame).1) :
    p.reassembled sha received = frame.payload := by
  have hread : ((p.emit sha frame).1).filterMap (p.read sha) =
      (List.range (p.sliceCount frame)).map (p.dataPacket frame) := by
    rw [emit_slices sha hfew, List.filterMap_map, ← List.filterMap_eq_map]
    apply List.filterMap_congr
    intro i hi
    exact (dataPacket_travels sha hfew (List.mem_range.mp hi)).2
  have hperm := hreceived.filterMap (p.read sha)
  rw [hread] at hperm
  have hsorted : ((received.filterMap (p.read sha)).mergeSort fun a b =>
      a.packetIndex ≤ b.packetIndex) =
        (List.range (p.sliceCount frame)).map (p.dataPacket frame) := by
    refine @List.Perm.eq_of_pairwise _ (fun a b => decide (a.packetIndex ≤ b.packetIndex))
      _ _ ?_ ?_ ?_ ((List.mergeSort_perm _ _).trans hperm)
    · intro a b ha hb hab hba
      rw [List.mem_mergeSort, hperm.mem_iff] at ha
      obtain ⟨i, _, rfl⟩ := List.mem_map.mp ha
      obtain ⟨j, _, rfl⟩ := List.mem_map.mp hb
      have hij : i ≤ j := of_decide_eq_true hab
      have hji : j ≤ i := of_decide_eq_true hba
      rw [Nat.le_antisymm hij hji]
    · apply List.pairwise_mergeSort
      · intro a b c hab hbc
        rw [decide_eq_true_eq] at *
        exact hab.trans hbc
      · intro a b
        simpa using Nat.le_total a.packetIndex b.packetIndex
    · rw [List.pairwise_map]
      exact List.pairwise_lt_range.imp fun hlt => decide_eq_true hlt.le
  rw [reassembled, hsorted, List.flatMap_map]
  exact chunks_flatten p.sliceSize_pos frame.payload

end Packetizer

def codecConfigPacket (config : List UInt8) : EvrtPacket where
  packetType := typeCodecConfig
  flags := 0
  frameId := 0
  packetIndex := 0
  packetCount := 1
  presentationTimeUs := 0
  payload := config
  frameId_lt := by decide

theorem codecConfig_travels {config : List UInt8} {sessionToken : Option (List UInt8)}
    (h : config.length ≤ baseMax sessionToken) :
    Travels (fun datagram => parseAuthenticated sha datagram datagram.length sessionToken)
      (buildCodecConfigAuthenticated sha config sessionToken)
      (codecConfigPacket config) := by
  have hdatagram : buildCodecConfigAuthenticated sha config sessionToken =
      (codecConfigPacket config).buildAuthenticated sha sessionToken :=
    if_neg (Nat.not_lt.mpr h)
  rw [hdatagram]
  have hmax := VideoFrame.baseMax_le sessionToken
  refine travels_of_fits ⟨?_, ?_, ?_, ?_, ?_, h.trans hmax⟩ h <;>
    simp only [codecConfigPacket] <;> decide

/-- The packet of one slice of an audio frame. -/
def audioPacket (frameId presentationTimeUs : Nat) (payload : List UInt8)
    (sessionToken : Option (List UInt8)) (hid : frameId < 2 ^ 32) (index : Nat) :
    EvrtPacket where
  packetType := typeAudioFrame
  flags := 0
  frameId := frameId
  packetIndex := index
  packetCount := divCeil payload.length (baseMax sessionToken)
  presentationTimeUs := presentationTimeUs
  payload := chunk (baseMax sessionToken) payload index
  frameId_lt := hid

/-- Every datagram of an audio frame is read back as a slice of the frame. -/
theorem audioFrame_travels {frameId presentationTimeUs : Nat} {payload : List UInt8}
    {sessionToken : Option (List UInt8)} (hid : frameId < 2 ^ 32)
    (htime : presentationTimeUs < 2 ^ 64) {datagram : List UInt8}
    (h : datagram ∈ packetizeAudioFrameAuthenticated sha frameId presentationTimeUs payload
      sessionToken) :
    ∃ index < divCeil payload.length (baseMax sessionToken),
      Travels (fun datagram => parseAuthenticated sha datagram datagram.length sessionToken)
        datagram (audioPacket frameId presentationTimeUs payload sessionToken hid index) := by
  rw [packetizeAudioFrameAuthenticated, Packetizer.packetizeAuthenticated_eq,
    packetizeWithLimit] at h
  split at h
  · cases h
  split at h
  · cases h
  dsimp only at h
  split at h
  · cases h
  next hfew =>
    rw [zipIdx_chunks, List.map_map] at h
    obtain ⟨index, hindex, hdatagram⟩ := List.mem_map.mp h
    have hbound := List.mem_range.mp hindex
    have hslice := chunk_length_le (baseMax sessionToken) payload index
    have hfits : (audioPacket frameId presentationTimeUs payload sessionToken hid index).Fits :=
      { packetType := show typeAudioFrame < 256 by decide
        flags := show 0 < 2 ^ 16 by decide
        index := hbound
        count := Nat.not_lt.mp hfew
        time := htime
        payload := hslice.trans (VideoFrame.baseMax_le sessionToken) }
    have hbuilt : (audioPacket frameId presentationTimeUs payload sessionToken hid
        index).buildAuthenticated sha sessionToken = datagram := hdatagram
    rw [← hbuilt]
    exact ⟨index, hbound, travels_of_fits hfits hslice⟩

namespace Packetizer

/-- What is sent travels, and a frame is sent as a whole or not at all. -/
theorem round_trip (p : Packetizer) (frame : VideoFrame) :
    (if p.sliceCount frame ≤ maxFramePacketCount then
      List.Forall₂ (Travels (p.read sha)) (p.emit sha frame).1
          ((List.range (p.sliceCount frame)).map (p.dataPacket frame)) ∧
        List.Forall₂ (Travels (p.read sha)) (p.emit sha frame).2
          ((List.range (p.groupCount frame)).map (p.fecPacket frame)) ∧
        ∀ received : List (List UInt8), received.Perm (p.emit sha frame).1 →
          p.reassembled sha received = frame.payload
    else p.emit sha frame = ([], [])) ∧
      ∀ config : List UInt8, config.length ≤ baseMax p.sessionToken →
        Travels (p.read sha) (buildCodecConfigAuthenticated sha config p.sessionToken)
          (codecConfigPacket config) := by
  refine ⟨?_, fun config hconfig => ?_⟩
  · split
    next hfew =>
      refine ⟨?_, ?_, fun received hreceived => reassembled_eq sha hfew hreceived⟩
      · rw [emit_slices sha hfew, List.forall₂_map_left_iff, List.forall₂_map_right_iff,
          List.forall₂_same]
        exact fun i hi => dataPacket_travels sha hfew (List.mem_range.mp hi)
      · rw [emit_groups sha hfew, List.forall₂_map_left_iff, List.forall₂_map_right_iff,
          List.forall₂_same]
        exact fun gi hgi => fecPacket_travels sha hfew (List.mem_range.mp hgi)
    next hmany => exact emit_nothing sha (Nat.lt_of_not_le hmany)
  · rw [show p.read sha = _ from funext (p.read_eq sha)]
    exact codecConfig_travels sha hconfig

/-- A payload that is one byte too long for the number of slices. -/
def longFrame : VideoFrame := ⟨0, 0, false, List.replicate 19267585 0, by decide, by decide⟩

def zeroDigest : Sha256 := ⟨fun _ => List.replicate 32 0, fun _ => List.length_replicate⟩

theorem long_payload_is_not_sent :
    ¬ ∀ (sha : Sha256) (p : Packetizer) (frame : VideoFrame)
      (received : List (List UInt8)), received.Perm (p.emit sha frame).1 →
      p.reassembled sha received = frame.payload := by
  intro hall
  have hlength : longFrame.payload.length = 19267585 := List.length_replicate
  have hmany : videoFrame.sliceCount longFrame > maxFramePacketCount := by
    rw [sliceCount, hlength]
    decide
  have hnone : [].Perm (videoFrame.emit zeroDigest longFrame).1 := by
    rw [emit_nothing zeroDigest hmany]
  have hempty := congrArg List.length (hall zeroDigest videoFrame longFrame [] hnone)
  rw [hlength] at hempty
  simp [reassembled] at hempty

end Packetizer

end EvertyDesk.Evrt
