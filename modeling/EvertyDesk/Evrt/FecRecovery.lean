import EvertyDesk.Evrt.Packetize
import Mathlib.Data.List.Nodup

/-!
Recovery of the one packet of a group that is missing, from whatever is at hand of its
frame. A parity packet is taken at its word: only how many packets of its group are at hand
and how long the result would be is checked.
-/

namespace EvertyDesk.Evrt

/-- Packets of a frame that are at hand, in any order. -/
structure AtHand (pieces : List (List UInt8)) (present : List (Nat × List UInt8)) : Prop where
  nodup : (present.map Prod.fst).Nodup
  agrees : ∀ index piece, (index, piece) ∈ present → pieces[index]? = some piece

/-- The group with this index. -/
def groupAt (pieces : List (List UInt8)) (gi : Nat) : List (List UInt8) :=
  chunk fecGroupSize pieces gi

/-- The places in a group of which no packet is at hand. -/
def FecMeta.lost (fec : FecMeta) (present : List (Nat × List UInt8)) : List Nat :=
  (List.range fec.groupSize).filter fun off =>
    decide (fec.baseIndex + off ∉ present.map Prod.fst)

/-- How many packets of the group are counted as present. -/
def FecMeta.presentInGroup (fec : FecMeta) (present : List (Nat × List UInt8)) : Nat :=
  ((present.map Prod.fst).foldl fec.markSeen (List.replicate fecGroupSize false, 0)).2

/-- A parity packet as it can be received. -/
structure FecMeta.Received (fec : FecMeta) : Prop where
  baseIndex_lt : fec.baseIndex < 2 ^ 16
  groupSize_le : fec.groupSize ≤ fecGroupSize

section Counting

variable {fec : FecMeta} {present : List (Nat × List UInt8)}

/-- Packets outside the group are passed over. -/
theorem markSeen_filter (indices : List Nat) (state : List Bool × Nat) :
    indices.foldl fec.markSeen state = (indices.filter fec.covers).foldl fec.markSeen state := by
  induction indices generalizing state with
  | nil => rfl
  | cons index indices ih =>
      rw [List.foldl_cons, ih]
      cases hcovers : fec.covers index with
      | true => rw [List.filter_cons_of_pos hcovers, List.foldl_cons]
      | false =>
          have hskip : fec.markSeen state index = state := by
            simp [FecMeta.markSeen, hcovers]
          rw [List.filter_cons_of_neg (by simp [hcovers]), hskip]

theorem marks (hsize : fec.groupSize ≤ fecGroupSize) (hnodup : (present.map Prod.fst).Nodup) :
    fec.presentInGroup present = ((present.map Prod.fst).filter fec.covers).length ∧
      ∀ off, (((present.map Prod.fst).foldl fec.markSeen
          (List.replicate fecGroupSize false, 0)).1.getD off false = true ↔
        fec.baseIndex + off ∈ (present.map Prod.fst).filter fec.covers) := by
  have hunset : ∀ off, (List.replicate fecGroupSize false).getD off false = false := by
    intro off
    rw [List.getD_eq_getElem?_getD, List.getElem?_replicate]
    split <;> rfl
  obtain ⟨hcount, hslots⟩ := markSeen_foldl hsize ((present.map Prod.fst).filter fec.covers)
    (List.replicate fecGroupSize false, 0) (hnodup.filter _) List.length_replicate
    (fun index hindex => ⟨(List.mem_filter.mp hindex).2, hunset _⟩)
  rw [FecMeta.presentInGroup, markSeen_filter]
  constructor
  · rw [hcount, Nat.zero_add]
  · intro off
    rw [hslots off, hunset]
    simp

/-- The places of a group that are taken are the packets of it at hand. -/
theorem taken_perm (fec : FecMeta) (hbelow : ∀ index ∈ present.map Prod.fst, index < 65535)
    (hnodup : (present.map Prod.fst).Nodup) :
    (((List.range fec.groupSize).filter fun off =>
        decide (fec.baseIndex + off ∈ present.map Prod.fst)).map (fec.baseIndex + ·)).Perm
      ((present.map Prod.fst).filter fec.covers) := by
  refine (List.perm_ext_iff_of_nodup ?_ (hnodup.filter _)).mpr fun index => ?_
  · exact List.Nodup.map (fun a b h => Nat.add_left_cancel h) (List.nodup_range.filter _)
  · rw [List.mem_map, List.mem_filter, FecMeta.covers_iff]
    simp only [List.mem_filter, List.mem_range, decide_eq_true_eq]
    constructor
    · rintro ⟨off, ⟨hoff, hmember⟩, rfl⟩
      exact ⟨hmember, by omega, by omega, hbelow _ hmember⟩
    · rintro ⟨hmember, hlow, hhigh, -⟩
      refine ⟨index - fec.baseIndex, ⟨by omega, ?_⟩, by omega⟩
      rwa [Nat.add_sub_cancel' hlow]

/-- The places of a group are those that are lost and those that are taken. -/
theorem places_perm (fec : FecMeta) (present : List (Nat × List UInt8)) :
    (fec.lost present ++ (List.range fec.groupSize).filter fun off =>
        decide (fec.baseIndex + off ∈ present.map Prod.fst)).Perm
      (List.range fec.groupSize) := by
  have hsplit := List.filter_append_perm (fun off =>
    decide (fec.baseIndex + off ∉ present.map Prod.fst)) (List.range fec.groupSize)
  simpa [FecMeta.lost] using hsplit

theorem lost_add_present (fec : FecMeta) (hsize : fec.groupSize ≤ fecGroupSize)
    (hbelow : ∀ index ∈ present.map Prod.fst, index < 65535)
    (hnodup : (present.map Prod.fst).Nodup) :
    (fec.lost present).length + fec.presentInGroup present = fec.groupSize := by
  have htaken := (taken_perm fec hbelow hnodup).length_eq
  have hplaces := (places_perm fec present).length_eq
  rw [List.length_map] at htaken
  rw [List.length_append, List.length_range] at hplaces
  rw [(marks hsize hnodup).1]
  omega

/-- The payloads at hand that are of the group. -/
def members (fec : FecMeta) (present : List (Nat × List UInt8)) : List (List UInt8) :=
  (present.filter fun (index, _) => fec.covers index).map Prod.snd

/-- With one packet missing, what is left of the parity is cut to what is left of the
lengths. -/
theorem fecRecoverOne_of_one {off : Nat} (hone : fec.presentInGroup present + 1 = fec.groupSize)
    (hfind : ((List.range fec.groupSize).find? fun off =>
      !(((present.map Prod.fst).foldl fec.markSeen
        (List.replicate fecGroupSize false, 0)).1.getD off false)) = some off) :
    fecRecoverOne fec present =
      if xorLengths fec.xorLen (members fec present) >
          (parity fec.xorPayload (members fec present)).length then none
      else some (fec.baseIndex + off,
        (parity fec.xorPayload (members fec present)).take
          (xorLengths fec.xorLen (members fec present))) := by
  have hnot : ¬ ((present.map Prod.fst).foldl fec.markSeen
      (List.replicate fecGroupSize false, 0)).2 + 1 ≠ fec.groupSize := not_not.mpr hone
  unfold fecRecoverOne
  dsimp only
  rw [if_neg hnot, hfind]
  rfl

/-- The first place without a mark is the first that is lost. -/
theorem find_lost (fec : FecMeta) (hsize : fec.groupSize ≤ fecGroupSize)
    (hbelow : ∀ index ∈ present.map Prod.fst, index < 65535)
    (hnodup : (present.map Prod.fst).Nodup) :
    ((List.range fec.groupSize).find? fun off => !(((present.map Prod.fst).foldl fec.markSeen
      (List.replicate fecGroupSize false, 0)).1.getD off false)) = (fec.lost present).head? := by
  rw [← List.head?_filter, FecMeta.lost]
  congr 1
  apply List.filter_congr
  intro off hoff
  have hmark := (marks hsize hnodup).2 off
  have hrange := List.mem_range.mp hoff
  have hcovered : fec.baseIndex + off ∈ present.map Prod.fst →
      fec.covers (fec.baseIndex + off) = true := fun hmember =>
    (fec.covers_iff _).mpr ⟨by omega, by omega, hbelow _ hmember⟩
  rw [List.mem_filter, and_iff_left_of_imp hcovered] at hmark
  rw [Bool.eq_iff_iff, Bool.not_eq_true', Bool.eq_false_iff, ne_eq, hmark]
  simp

/-- Whatever a parity packet says, no index that is worked out leaves its 16 bits. -/
theorem index_lt (hreceived : fec.Received) (hnodup : (present.map Prod.fst).Nodup)
    (hone : fec.presentInGroup present + 1 = fec.groupSize) {off : Nat}
    (hoff : off < fec.groupSize) : fec.baseIndex + off < 2 ^ 16 := by
  have hcount := (marks hreceived.groupSize_le hnodup).1
  have hcovered : ((present.map Prod.fst).filter fec.covers).length ≤
      (List.range' fec.baseIndex (65535 - fec.baseIndex)).length := by
    refine (List.subperm_of_subset (hnodup.filter _) fun index hindex => ?_).length_le
    obtain ⟨hlow, -, hhigh⟩ := (fec.covers_iff index).mp (List.mem_filter.mp hindex).2
    rw [List.mem_range'_1]
    omega
  have hbase := hreceived.baseIndex_lt
  rw [List.length_range'] at hcovered
  omega

/-- Unless one packet of the group is missing, nothing is recovered. -/
theorem fecRecoverOne_of_lost (hreceived : fec.Received)
    (hbelow : ∀ index ∈ present.map Prod.fst, index < 65535)
    (hnodup : (present.map Prod.fst).Nodup) (h : (fec.lost present).length ≠ 1) :
    fecRecoverOne fec present = none := by
  have hcounted := lost_add_present fec hreceived.groupSize_le hbelow hnodup
  have hnot : fec.presentInGroup present + 1 ≠ fec.groupSize := by omega
  exact if_pos hnot

end Counting

section Recovery

variable {pieces : List (List UInt8)} {present : List (Nat × List UInt8)} {frameId gi : Nat}

/-- The number of packets of a frame is a 16-bit one. -/
theorem AtHand.below (h : AtHand pieces present) (hcount : pieces.length ≤ 65535) :
    ∀ index ∈ present.map Prod.fst, index < 65535 := by
  intro index hindex
  obtain ⟨⟨_, piece⟩, hmember, rfl⟩ := List.mem_map.mp hindex
  have hlt := (List.getElem?_eq_some_iff.mp (h.agrees _ piece hmember)).1
  omega

theorem groupAt_getElem? (pieces : List (List UInt8)) (gi : Nat) {off : Nat}
    (hoff : off < fecGroupSize) :
    (groupAt pieces gi)[off]? = pieces[gi * fecGroupSize + off]? :=
  chunk_getElem? hoff

theorem groupAt_length_le (pieces : List (List UInt8)) (gi : Nat) :
    (groupAt pieces gi).length ≤ fecGroupSize :=
  chunk_length_le _ _ _

/-- The group ends with the frame, if not before. -/
theorem groupAt_stop (pieces : List (List UInt8)) {gi : Nat}
    (hgi : gi * fecGroupSize < pieces.length) :
    gi * fecGroupSize + (groupAt pieces gi).length ≤ pieces.length := by
  simp only [groupAt, chunk, List.length_take, List.length_drop]
  omega

/-- The group is the lost packet and the packets of it at hand. -/
theorem group_perm (hhand : AtHand pieces present) (hgi : gi * fecGroupSize < pieces.length)
    (hcount : pieces.length ≤ 65535) {off : Nat}
    (hlost : (groupMeta frameId gi (groupAt pieces gi)).lost present = [off]) :
    (groupAt pieces gi).Perm (pieces.getD (gi * fecGroupSize + off) [] ::
      members (groupMeta frameId gi (groupAt pieces gi)) present) := by
  let fec := groupMeta frameId gi (groupAt pieces gi)
  have hstop := groupAt_stop pieces hgi
  have hsize := groupAt_length_le pieces gi
  have hgroup : groupAt pieces gi = (List.range fec.groupSize).map fun off =>
      pieces.getD (gi * fecGroupSize + off) [] := by
    apply List.ext_getElem?
    intro i
    by_cases hi : i < (groupAt pieces gi).length
    · have hindex : gi * fecGroupSize + i < pieces.length := by omega
      have hrange : (List.range fec.groupSize)[i]? = some i := List.getElem?_range hi
      rw [groupAt_getElem? _ _ (by omega), List.getElem?_map, hrange]
      simp [hindex]
    · have hout : ¬ i < fec.groupSize := hi
      rw [List.getElem?_eq_none (by omega)]
      simp [hout]
  have hmembers : members fec present =
      ((present.map Prod.fst).filter fec.covers).map fun index => pieces.getD index [] := by
    rw [members, List.filter_map, List.map_map]
    apply List.map_congr_left
    rintro ⟨index, piece⟩ hmember
    have hpiece := hhand.agrees index piece (List.mem_of_mem_filter hmember)
    simp [hpiece]
  have htaken := (taken_perm fec (hhand.below hcount) hhand.nodup).map
    fun index => pieces.getD index []
  have hplaces := (places_perm fec present).map fun off =>
    pieces.getD (gi * fecGroupSize + off) []
  rw [show fec.lost present = [off] from hlost, List.map_append] at hplaces
  rw [List.map_map] at htaken
  rw [hmembers, hgroup]
  exact hplaces.symm.trans (List.Perm.cons _ htaken)

/-- What a received parity packet of a group does with the packets at hand. -/
structure Recovers (pieces : List (List UInt8)) (gi : Nat) (fec : FecMeta) : Prop where
  one : ∀ present off, AtHand pieces present → fec.lost present = [off] →
    ∃ piece, pieces[gi * fecGroupSize + off]? = some piece ∧
      fecRecoverOne fec present = some (gi * fecGroupSize + off, piece)
  otherwise : ∀ present, AtHand pieces present → (fec.lost present).length ≠ 1 →
    fecRecoverOne fec present = none

theorem groupMeta_received (frameId : Nat) (hgi : gi * fecGroupSize < pieces.length)
    (hcount : pieces.length ≤ 65535) :
    (groupMeta frameId gi (groupAt pieces gi)).Received where
  baseIndex_lt := by
    simp only [groupMeta]
    omega
  groupSize_le := groupAt_length_le pieces gi

theorem recovers_group (frameId : Nat) (hgi : gi * fecGroupSize < pieces.length)
    (hcount : pieces.length ≤ 65535)
    (hlength : ∀ piece ∈ groupAt pieces gi, piece.length < 2 ^ 16) :
    Recovers pieces gi (groupMeta frameId gi (groupAt pieces gi)) := by
  have hstop := groupAt_stop pieces hgi
  have hsize := groupAt_length_le pieces gi
  constructor
  · intro present off hhand hlost
    have hmember : off ∈ (groupMeta frameId gi (groupAt pieces gi)).lost present := by
      rw [hlost]
      exact List.mem_singleton_self off
    have hoff : off < (groupAt pieces gi).length :=
      List.mem_range.mp (List.mem_of_mem_filter hmember)
    have hindex : gi * fecGroupSize + off < pieces.length := by omega
    have hcounted := lost_add_present (groupMeta frameId gi (groupAt pieces gi)) hsize
      (hhand.below hcount) hhand.nodup
    rw [hlost, List.length_singleton] at hcounted
    have hone : (groupMeta frameId gi (groupAt pieces gi)).presentInGroup present + 1 =
        (groupAt pieces gi).length := by
      rw [← show (groupMeta frameId gi (groupAt pieces gi)).groupSize =
        (groupAt pieces gi).length from rfl]
      omega
    -- the first place without a mark is the lost one
    have hfind := find_lost (groupMeta frameId gi (groupAt pieces gi)) hsize
      (hhand.below hcount) hhand.nodup
    rw [hlost, List.head?_cons] at hfind
    have hperm := group_perm hhand hgi hcount hlost
    have hpiece : pieces.getD (gi * fecGroupSize + off) [] = pieces[gi * fecGroupSize + off] := by
      simp [hindex]
    rw [hpiece] at hperm
    have hheld : pieces[gi * fecGroupSize + off] ∈ groupAt pieces gi :=
      hperm.mem_iff.mpr List.mem_cons_self
    have hlen := foldl_xor_recovers (fun member : List UInt8 => member.length % 2 ^ 16) hperm
    rw [Nat.mod_eq_of_lt (hlength _ hheld)] at hlen
    refine ⟨pieces[gi * fecGroupSize + off], List.getElem?_eq_getElem hindex, ?_⟩
    have hparity := parity_recovers hperm (List.replicate (maxLength (groupAt pieces gi)) 0)
    rw [fecRecoverOne_of_one hone hfind]
    have hparity' : parity (groupMeta frameId gi (groupAt pieces gi)).xorPayload
        (members (groupMeta frameId gi (groupAt pieces gi)) present) =
          xorInto (List.replicate (maxLength (groupAt pieces gi)) 0)
            pieces[gi * fecGroupSize + off] := hparity
    have hlen' : xorLengths (groupMeta frameId gi (groupAt pieces gi)).xorLen
        (members (groupMeta frameId gi (groupAt pieces gi)) present) =
          pieces[gi * fecGroupSize + off].length := hlen
    have hle := length_le_maxLength hheld
    rw [hparity', hlen', xorInto_length, List.length_replicate, if_neg (Nat.not_lt.mpr hle),
      xorInto_zeros_take hle]
    rfl
  · intro present hhand hmany
    exact fecRecoverOne_of_lost (groupMeta_received frameId hgi hcount)
      (hhand.below hcount) hhand.nodup hmany

end Recovery

section Built

variable (sha : Sha256) (sessionToken : Option (List UInt8))

/-- The datagram is read as a parity packet that says this. -/
def ReadAs (datagram : List UInt8) (fec : FecMeta) : Prop :=
  ∃ pkt, parseAuthenticated sha datagram datagram.length sessionToken = some pkt ∧
    pkt.packetType = typeFec ∧ parseFecPayload pkt.frameId pkt.payload = some fec

variable {sha sessionToken} {frameId presentationTimeUs flags gi : Nat}
variable {pieces : List (List UInt8)}

/-- The datagrams that are built are those of the groups that fit. -/
theorem mem_buildFecPackets (hcount : pieces.length ≤ 65535) {datagram : List UInt8} :
    datagram ∈ buildFecPackets sha frameId presentationTimeUs flags pieces sessionToken ↔
      ∃ gi, gi * fecGroupSize < pieces.length ∧
        fecHeaderLen + maxLength (groupAt pieces gi) ≤ baseMax sessionToken ∧
        datagram = buildPacketAuthenticated sha typeFec flags frameId gi
          (divCeil pieces.length fecGroupSize) presentationTimeUs
          (fecPayload (gi * fecGroupSize) (groupAt pieces gi)) sessionToken := by
  have hgroups : ¬ divCeil pieces.length fecGroupSize > maxFramePacketCount := by
    simp only [divCeil, fecGroupSize, maxFramePacketCount]
    omega
  unfold buildFecPackets
  by_cases hempty : pieces.isEmpty
  · rw [if_pos hempty, List.isEmpty_iff.mp hempty]
    simp
  · dsimp only
    rw [if_neg hempty, if_neg hgroups, zipIdx_chunks, List.filterMap_map, List.mem_filterMap]
    constructor
    · rintro ⟨gi, hgi, hbuilt⟩
      have hlt := (lt_divCeil (by decide)).mp (List.mem_range.mp hgi)
      simp only [Function.comp_apply] at hbuilt
      split at hbuilt
      · cases hbuilt
      · next hfits =>
          exact ⟨gi, hlt, Nat.not_lt.mp hfits, (Option.some.inj hbuilt).symm⟩
    · rintro ⟨gi, hlt, hfits, rfl⟩
      refine ⟨gi, List.mem_range.mpr ((lt_divCeil (by decide)).mpr hlt), ?_⟩
      exact if_neg (Nat.not_lt.mpr hfits)

/-- A parity packet is read back as what it says of its group. -/
theorem readAs_built (hid : frameId < 2 ^ 32) (htime : presentationTimeUs < 2 ^ 64)
    (hflags : flags < 2 ^ 16) (hcount : pieces.length ≤ 65535)
    (hgi : gi * fecGroupSize < pieces.length)
    (hfits : fecHeaderLen + maxLength (groupAt pieces gi) ≤ baseMax sessionToken) :
    ReadAs sha sessionToken
      (buildPacketAuthenticated sha typeFec flags frameId gi
        (divCeil pieces.length fecGroupSize) presentationTimeUs
        (fecPayload (gi * fecGroupSize) (groupAt pieces gi)) sessionToken)
      (groupMeta frameId gi (groupAt pieces gi)) := by
  let packet : EvrtPacket :=
    { packetType := typeFec
      flags := flags
      frameId := frameId
      packetIndex := gi
      packetCount := divCeil pieces.length fecGroupSize
      presentationTimeUs := presentationTimeUs
      payload := fecPayload (gi * fecGroupSize) (groupAt pieces gi)
      frameId_lt := hid }
  have hlength : packet.payload.length ≤ baseMax sessionToken := by
    simpa [packet] using hfits
  have hpacket : packet.Fits :=
    { packetType := show typeFec < 256 by decide
      flags := hflags
      index := (lt_divCeil (by decide)).mpr hgi
      count := by
        simp only [packet, divCeil, fecGroupSize, maxFramePacketCount]
        omega
      time := htime
      payload := hlength.trans (VideoFrame.baseMax_le sessionToken) }
  have hpositive : 0 < (groupAt pieces gi).length :=
    chunk_length_pos (by decide) ((lt_divCeil (by decide)).mpr hgi)
  refine ⟨packet, parseAuthenticated_build sha packet hpacket sessionToken hlength, rfl, ?_⟩
  exact parseFecPayload_fecPayload hpositive (groupAt_length_le pieces gi) (by omega)

/-- What parity packets do for a frame: each is that of a group, of which it brings back
the one packet that is missing and otherwise none; every group that fits has one. -/
structure FecRecovers (sha : Sha256) (sessionToken : Option (List UInt8))
    (frameId presentationTimeUs flags : Nat) (pieces : List (List UInt8)) : Prop where
  sound : ∀ datagram ∈ buildFecPackets sha frameId presentationTimeUs flags pieces
      sessionToken, ∃ gi fec, gi * fecGroupSize < pieces.length ∧
    ReadAs sha sessionToken datagram fec ∧ fec = groupMeta frameId gi (groupAt pieces gi) ∧
    Recovers pieces gi fec
  complete : ∀ gi, gi * fecGroupSize < pieces.length →
    fecHeaderLen + maxLength (groupAt pieces gi) ≤ baseMax sessionToken →
    ∃ datagram ∈ buildFecPackets sha frameId presentationTimeUs flags pieces sessionToken,
      ReadAs sha sessionToken datagram (groupMeta frameId gi (groupAt pieces gi))

/-- What is true of any parity packet, whoever sent it: unless one packet of the group that
it names is missing nothing comes of it, and its indices stay within 16 bits. -/
structure TakenAtItsWord (fec : FecMeta) (present : List (Nat × List UInt8)) : Prop where
  one_lost : (fec.lost present).length ≠ 1 → fecRecoverOne fec present = none
  fits : fec.presentInGroup present + 1 = fec.groupSize →
    ∀ off < fec.groupSize, fec.baseIndex + off < 2 ^ 16

/-- Frames of up to 65535 packets, which is what a packet count of 16 bits can say. -/
theorem fec_recovers (sha : Sha256) (sessionToken : Option (List UInt8))
    {frameId presentationTimeUs flags : Nat} {pieces : List (List UInt8)}
    (hid : frameId < 2 ^ 32) (htime : presentationTimeUs < 2 ^ 64) (hflags : flags < 2 ^ 16)
    (hcount : pieces.length ≤ 65535) :
    FecRecovers sha sessionToken frameId presentationTimeUs flags pieces ∧
      ∀ (fec : FecMeta) (present : List (Nat × List UInt8)), fec.Received →
        (present.map Prod.fst).Nodup → (∀ index ∈ present.map Prod.fst, index < 65535) →
        TakenAtItsWord fec present := by
  refine ⟨⟨?_, ?_⟩, ?_⟩
  · intro datagram hdatagram
    obtain ⟨gi, hgi, hfits, rfl⟩ := (mem_buildFecPackets hcount).mp hdatagram
    refine ⟨gi, _, hgi, readAs_built hid htime hflags hcount hgi hfits, rfl, ?_⟩
    apply recovers_group frameId hgi hcount
    intro piece hpiece
    have hlonger := length_le_maxLength hpiece
    have hroom := VideoFrame.baseMax_le sessionToken
    simp only [maxPayloadSize, maxPacketSize, headerSize] at hroom
    omega
  · intro gi hgi hfits
    exact ⟨_, (mem_buildFecPackets hcount).mpr ⟨gi, hgi, hfits, rfl⟩,
      readAs_built hid htime hflags hcount hgi hfits⟩
  · intro fec present hreceived hnodup hbelow
    constructor
    · exact fecRecoverOne_of_lost hreceived hbelow hnodup
    · exact fun hone off hoff => index_lt hreceived hnodup hone hoff

theorem fec_recovers_two :
    FecRecovers Packetizer.zeroDigest none 1 0 0 [[1], [2, 3]] ∧
      ∀ (fec : FecMeta) (present : List (Nat × List UInt8)), fec.Received →
        (present.map Prod.fst).Nodup → (∀ index ∈ present.map Prod.fst, index < 65535) →
        TakenAtItsWord fec present :=
  fec_recovers Packetizer.zeroDigest none (by decide) (by decide) (by decide) (by decide)

/-- A group past the indices of 16 bits is taken for the first one. -/
theorem groupAt_wraps {count : Nat} (hcount : count = 2 ^ 16) :
    parseFecPayload 1 (fecPayload (count / fecGroupSize * fecGroupSize)
      (groupAt (List.replicate (count + 1) []) (count / fecGroupSize))) =
        some ⟨1, 0, 1, 0, []⟩ := by
  have hbase : count / fecGroupSize * fecGroupSize = 2 ^ 16 := by
    rw [hcount, fecGroupSize]
    exact Nat.div_mul_cancel (by decide)
  have hgroup : groupAt (List.replicate (count + 1) ([] : List UInt8))
      (count / fecGroupSize) = [[]] := by
    rw [groupAt, chunk, List.drop_replicate, hbase, hcount, Nat.add_sub_cancel_left]
    rfl
  rw [hgroup, hbase]
  decide

/-- The parity of other packets is not told from that of the group: it gives wrong bytes.
And a frame may have no more packets than its count of 16 bits can say. -/
theorem parity_is_trusted :
    (¬ ∀ (pieces : List (List UInt8)) (gi : Nat) (fec : FecMeta)
      (present : List (Nat × List UInt8)), AtHand pieces present →
      gi * fecGroupSize < pieces.length →
      fec ≠ groupMeta fec.frameId gi (groupAt pieces gi) →
      fecRecoverOne fec present = none) ∧
    ¬ ∀ (pieces : List (List UInt8)) (gi : Nat) (fec : FecMeta),
      gi * fecGroupSize < pieces.length →
      parseFecPayload 1 (fecPayload (gi * fecGroupSize) (groupAt pieces gi)) = some fec →
      Recovers pieces gi fec := by
  constructor
  · intro hall
    have hhand : AtHand [[1], [2]] [(0, [1])] := by
      constructor
      · exact List.nodup_singleton 0
      · intro index piece hmember
        obtain ⟨rfl, rfl⟩ := Prod.mk.inj (List.mem_singleton.mp hmember)
        rfl
    have hnone := hall [[1], [2]] 0 (groupMeta 1 0 [[5], [9]]) [(0, [1])] hhand
      (by decide) (by decide)
    have hsome : fecRecoverOne (groupMeta 1 0 [[5], [9]]) [(0, [1])] = some (1, [13]) := by
      decide
    rw [hsome] at hnone
    cases hnone
  · intro hall
    obtain ⟨count, hcount⟩ : ∃ count, count = 2 ^ 16 := ⟨_, rfl⟩
    have hlast : count / fecGroupSize * fecGroupSize <
        (List.replicate (count + 1) ([] : List UInt8)).length := by
      rw [List.length_replicate]
      exact Nat.lt_succ_of_le (Nat.div_mul_le_self count fecGroupSize)
    have hrecovers := hall _ _ _ hlast (groupAt_wraps hcount)
    have hhand : AtHand (List.replicate (count + 1) []) [] :=
      ⟨List.nodup_nil, fun _ _ h => absurd h List.not_mem_nil⟩
    obtain ⟨piece, -, hback⟩ := hrecovers.one [] 0 hhand (by decide)
    have hfirst : fecRecoverOne ⟨1, 0, 1, 0, []⟩ [] = some (0, []) := by decide
    rw [hfirst] at hback
    have hindex := (Prod.mk.inj (Option.some.inj hback)).1
    rw [hcount] at hindex
    cases hindex

end Built

end EvertyDesk.Evrt
