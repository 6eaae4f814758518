import EvertyDesk.Evrt2.Recovery

/-!
Which datagrams a frame is sent as: one for every unit, and, where the mode has
error correction, repair packets of those groups whose narrowed number no later
group has. Up to 256 groups that is every group, and then a repair packet is
the parity of exactly the units that its header makes the receiver think it
covers.
-/

namespace EvertyDesk.Evrt2

namespace OutgoingFrame

variable (frame : OutgoingFrame) (fec : FecConfig)

def unitCount : Nat := divCeil frame.frameBytes.length chunkMax

/-- The unit of a frame by index, not narrowed. -/
def unit (index : Nat) : List UInt8 := protectedUnit (chunk chunkMax frame.frameBytes index)

def fragmentAt (index : Nat) : DataFragment where
  packetIndex := UInt16.ofNat index
  unit := frame.unit index
  isVisibleRegion := frame.visibleRegionByteRanges.any fun (vrStart, vrEnd) =>
    decide (index * chunkMax < vrEnd) &&
      decide (index * chunkMax + (chunk chunkMax frame.frameBytes index).length > vrStart)

def dataWire (index : Nat) : List UInt8 :=
  (frame.dataHeader fec (frame.fragmentAt index)).encode (frame.unit index)

def groupIndices (group : Nat) : List Nat :=
  List.range' (group * fec.n) (min fec.n (frame.unitCount - group * fec.n))

def groupUnits (group : Nat) : List (List UInt8) := (frame.groupIndices fec group).map frame.unit

/-- The units of one class of a group, by index in the frame. -/
def classIndices (group r : Nat) : List Nat :=
  (frame.groupIndices fec group).filter fun i => (i - group * fec.n) % fec.k == r

def classUnits (group r : Nat) : List (List UInt8) :=
  (frame.classIndices fec group r).map frame.unit

def classParity (group r : Nat) : List UInt8 :=
  parity (List.replicate (maxLength (frame.groupUnits fec group)) 0) (frame.classUnits fec group r)

def repairWire (group r : Nat) : List UInt8 :=
  (frame.repairHeader fec (UInt8.ofNat group) (r % 2 ^ 8)).encode (frame.classParity fec group r)

def shape : FrameShape where
  packetCount := frame.packetCount
  mode := frame.mode

theorem fragments_eq : frame.fragments = (List.range frame.unitCount).map frame.fragmentAt := by
  simp [fragments, fragment, zipIdx_chunks, unitCount, fragmentAt, unit, Function.comp_def]

@[simp] theorem fragments_length : frame.fragments.length = frame.unitCount := by
  simp [fragments_eq]

theorem groupUnits_eq (group : Nat) :
    (chunk fec.n frame.fragments group).map DataFragment.unit = frame.groupUnits fec group := by
  rw [fragments_eq, chunk_map_range, List.map_map]
  rfl

theorem mem_classUnits_length_le {group r : Nat} {member : List UInt8}
    (h : member ∈ frame.classUnits fec group r) :
    member.length ≤ maxLength (frame.groupUnits fec group) := by
  apply length_le_maxLength
  obtain ⟨index, hindex, rfl⟩ := List.mem_map.mp h
  exact List.mem_map_of_mem (List.mem_of_mem_filter hindex)

/-- The repair packets of a group that is not empty. -/
theorem encodeRepairs_groupUnits {group : Nat} (hk : 0 < fec.k)
    (hgroup : frame.groupUnits fec group ≠ []) :
    (encodeRepairs (frame.groupUnits fec group) fec.k).map
        (frame.repairSlice fec (UInt8.ofNat group)) =
      (List.range fec.k).map fun r =>
        { kind := .fecRepair, payload := frame.repairWire fec group r } := by
  have hguard : ¬ (fec.k = 0 ∨ (frame.groupUnits fec group).isEmpty) := by
    simp [hgroup, Nat.pos_iff_ne_zero.mp hk]
  rw [encodeRepairs, if_neg hguard, List.map_map]
  apply List.map_congr_left
  intro r _
  have hcovered : ((frame.groupUnits fec group).zipIdx.filter fun pkt =>
      pkt.2 % fec.k == r).map Prod.fst = frame.classUnits fec group r := by
    rw [groupUnits, groupIndices, zipIdx_map_range', List.filter_map, List.map_map]
    rfl
  simp only [Function.comp, repairSlice, repairWire, classParity, hcovered]
  rw [foldl_xorIntoGrowing]
  intro member hmember
  rw [List.length_replicate]
  exact frame.mem_classUnits_length_le fec hmember

theorem repairEntries_eq :
    frame.repairEntries fec =
      (List.range (divCeil frame.unitCount fec.n)).map fun group =>
        (UInt8.ofNat group, encodeRepairs (frame.groupUnits fec group) fec.k) := by
  simp [repairEntries, zipIdx_chunks, groupUnits_eq, Function.comp_def]

/-- No later group of the frame has the same narrowed number. -/
def LastWithKey (group : Nat) : Prop :=
  ∀ later, group < later → later < divCeil frame.unitCount fec.n →
    UInt8.ofNat later ≠ UInt8.ofNat group

private theorem mem_after_iff {count group : Nat} {front later : List Nat}
    (h : List.range count = front ++ group :: later) (other : Nat) :
    other ∈ later ↔ group < other ∧ other < count := by
  have hsorted : (front ++ group :: later).Pairwise (· < ·) := by
    rw [← h]
    exact List.pairwise_lt_range
  obtain ⟨_, hrest, hfront⟩ := List.pairwise_append.mp hsorted
  have hmember : other < count ↔ other ∈ front ∨ other = group ∨ other ∈ later := by
    rw [← List.mem_range, h, List.mem_append, List.mem_cons]
  constructor
  · intro hother
    exact ⟨(List.pairwise_cons.mp hrest).1 other hother, hmember.mpr (Or.inr (Or.inr hother))⟩
  · rintro ⟨hafter, hcount⟩
    rcases hmember.mp hcount with hother | rfl | hother
    · have := hfront other hother group List.mem_cons_self
      omega
    · omega
    · exact hother

theorem lookup_repairsByGroup (henabled : fec.isEnabled) (key : UInt8)
    (repairs : List RepairPacket) :
    (frame.repairsByGroup fec).lookup key = some repairs ↔
      ∃ group < divCeil frame.unitCount fec.n, frame.LastWithKey fec group ∧
        key = UInt8.ofNat group ∧
        repairs = encodeRepairs (frame.groupUnits fec group) fec.k := by
  rw [repairsByGroup, if_pos henabled, lookup_insertAll, repairEntries_eq]
  constructor
  · rintro ⟨before, after, heq, hfresh⟩
    obtain ⟨front, rest, hrange, rfl, hrest⟩ := List.map_eq_append_iff.mp heq
    obtain ⟨group, later, rfl, hentry, rfl⟩ := List.map_eq_cons_iff.mp hrest
    obtain ⟨rfl, rfl⟩ := Prod.mk.inj hentry
    have hlt : group < divCeil frame.unitCount fec.n := by
      rw [← List.mem_range, hrange]
      simp
    refine ⟨group, hlt, ?_, rfl, rfl⟩
    intro other hother hcount hsame
    apply hfresh
    rw [List.map_map, ← hsame]
    exact List.mem_map.mpr ⟨other, (mem_after_iff hrange other).mpr ⟨hother, hcount⟩, rfl⟩
  · rintro ⟨group, hlt, hlast, rfl, rfl⟩
    obtain ⟨front, later, hsplit⟩ := List.append_of_mem (List.mem_range.mpr hlt)
    refine ⟨_, _, by rw [hsplit, List.map_append, List.map_cons], ?_⟩
    rw [List.map_map]
    intro hmember
    obtain ⟨other, hother, hsame⟩ := List.mem_map.mp hmember
    obtain ⟨hafter, hcount⟩ := (mem_after_iff hsplit other).mp hother
    exact hlast other hafter hcount hsame

theorem groupUnits_ne_nil {group : Nat} (hn : 0 < fec.n)
    (hgroup : group < divCeil frame.unitCount fec.n) :
    frame.groupUnits fec group ≠ [] := by
  have hstart := (lt_divCeil hn).mp hgroup
  have hpos : 0 < min fec.n (frame.unitCount - group * fec.n) := by omega
  intro hnil
  have hlength := congrArg List.length hnil
  simp only [groupUnits, groupIndices, List.length_map, List.length_range', List.length_nil]
    at hlength
  omega

/-- The datagrams of a frame. -/
theorem mem_buildFramePackets (order : IterOrder UInt8) (wire : List UInt8) :
    wire ∈ frame.buildFramePackets fec order ↔
      (∃ index < frame.unitCount, wire = frame.dataWire fec index) ∨
      (fec.isEnabled ∧ ∃ group < divCeil frame.unitCount fec.n,
        frame.LastWithKey fec group ∧
        ∃ r < fec.k, wire = frame.repairWire fec group r) := by
  have hrepairs : (∃ key ∈ (frame.repairsByGroup fec).keys,
      ∃ slice ∈ (((frame.repairsByGroup fec).lookup key).getD []).map
        (frame.repairSlice fec key), wire = slice.payload) ↔
      (fec.isEnabled ∧ ∃ group < divCeil frame.unitCount fec.n,
        frame.LastWithKey fec group ∧
        ∃ r < fec.k, wire = frame.repairWire fec group r) := by
    by_cases henabled : fec.isEnabled = true
    · obtain ⟨hk, hn⟩ : 0 < fec.k ∧ 0 < fec.n := by
        simpa [FecConfig.isEnabled] using henabled
      have hgroup : ∀ group < divCeil frame.unitCount fec.n,
          (∃ slice ∈ (encodeRepairs (frame.groupUnits fec group) fec.k).map
            (frame.repairSlice fec (UInt8.ofNat group)), wire = slice.payload) ↔
          ∃ r < fec.k, wire = frame.repairWire fec group r := by
        intro group hlt
        rw [frame.encodeRepairs_groupUnits fec hk (frame.groupUnits_ne_nil fec hn hlt)]
        simp
      simp only [henabled, true_and]
      constructor
      · rintro ⟨key, _, slice, hslice, hwire⟩
        cases hlookup : (frame.repairsByGroup fec).lookup key with
        | none => simp [hlookup] at hslice
        | some repairs =>
            obtain ⟨group, hlt, hlast, rfl, rfl⟩ :=
              (frame.lookup_repairsByGroup fec henabled key repairs).mp hlookup
            rw [hlookup] at hslice
            exact ⟨group, hlt, hlast, (hgroup group hlt).mp ⟨slice, hslice, hwire⟩⟩
      · rintro ⟨group, hlt, hlast, hwire⟩
        have hlookup := (frame.lookup_repairsByGroup fec henabled _ _).mpr
          ⟨group, hlt, hlast, rfl, rfl⟩
        refine ⟨UInt8.ofNat group, ?_, ?_⟩
        · apply AList.lookup_isSome.mp
          rw [hlookup]
          rfl
        · rw [hlookup]
          exact (hgroup group hlt).mpr hwire
    · simp [repairsByGroup, henabled]
  rw [← hrepairs]
  simp only [buildFramePackets, scheduleSendOrder, List.mem_map,
    List.mem_insertionSort, List.mem_append, List.mem_flatMap,
    IterOrder.mem_order, fragments_eq, List.mem_range]
  constructor
  · rintro ⟨slice, hslice | ⟨key, hkey, hslice⟩, rfl⟩
    · obtain ⟨_, ⟨index, hindex, rfl⟩, rfl⟩ := hslice
      exact Or.inl ⟨index, hindex, rfl⟩
    · exact Or.inr ⟨key, hkey, slice, hslice, rfl⟩
  · rintro (⟨index, hindex, rfl⟩ | ⟨key, hkey, slice, hslice, rfl⟩)
    · exact ⟨_, Or.inl ⟨_, ⟨index, hindex, rfl⟩, rfl⟩, rfl⟩
    · exact ⟨slice, Or.inr ⟨key, hkey, hslice⟩, rfl⟩

/-- Every datagram of a frame is a frame packet with its number and shape. -/
theorem decode_of_mem {order : IterOrder UInt8} {wire : List UInt8}
    (h : wire ∈ frame.buildFramePackets fec order) :
    ∃ packet : Packet, PacketHeader.decode wire = .ok packet ∧
      packet.1.frameId = frame.frameId ∧ frame.shape.Fits packet := by
  rcases (frame.mem_buildFramePackets fec order wire).mp h with
    ⟨index, _, rfl⟩ | ⟨_, group, _, _, r, _, rfl⟩
  · exact ⟨_, PacketHeader.decode_encode _ _, rfl, rfl, rfl, rfl⟩
  · exact ⟨_, PacketHeader.decode_encode _ _, rfl, rfl, rfl, rfl⟩

end OutgoingFrame

end EvertyDesk.Evrt2
