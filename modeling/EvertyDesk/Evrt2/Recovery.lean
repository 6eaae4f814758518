import EvertyDesk.Evrt2.Session
import EvertyDesk.Lib.Collect

/-!
The reassembler as seen by one frame. Packets of other frames do not matter to
it, and what is filled of it depends on the headers received since it was last
opened alone: a unit is there when its data packet was received, or when a
repair packet that covers it was and so were the data packets of all other
units that this one covers. A frame therefore completes as soon as its packets
are sufficient in that sense, which makes it an instance of collecting.
-/

namespace EvertyDesk.Evrt2

/-- A decoded datagram. -/
abbrev Packet := PacketHeader × List UInt8

def PacketHeader.isFramePacket (header : PacketHeader) : Bool :=
  header.packetType == .videoFrame || header.packetType == .fecRepair

/-! The machine of one frame. -/

/-- A packet of the frame, or its expiry; the output is the completed frame. -/
def frameStep (iter : IterOrder UInt8) (entry : Option PendingFrame)
    (input : Option Packet) : Option PendingFrame × Option (List UInt8) :=
  match input with
  | none => (none, none)
  | some (header, payload) =>
      match (entry.getD (PendingFrame.new header.packetCount.toNat
          (max (FecConfig.forMode header.mode).n 1))).store header payload with
      | none => (entry, none)
      | some stored =>
          let entry := stored.settle iter
          if entry.isComplete then (none, some (entry.reassemble.getD []))
          else (some entry, none)

def frameMachine (iter : IterOrder UInt8) :
    Machine (Option PendingFrame) (Option Packet) (Option (List UInt8)) where
  step := frameStep iter

/-- What an arrival is to the frame with this number, if anything. -/
def Arrival.forFrame (id : UInt32) : Arrival → Option (Option Packet)
  | .datagram wire =>
      match PacketHeader.decode wire with
      | .ok (header, payload) =>
          if header.frameId = id ∧ header.isFramePacket then
            some (some (header, payload))
          else none
      | .error _ => none
  | .expire stale => if stale id then some none else none

theorem Arrival.forFrame_datagram {id : UInt32} {wire : List UInt8} {input : Option Packet} :
    (Arrival.datagram wire).forFrame id = some input ↔
      ∃ packet, PacketHeader.decode wire = .ok packet ∧ packet.1.frameId = id ∧
        packet.1.isFramePacket ∧ input = some packet := by
  simp only [Arrival.forFrame]
  cases hdecode : PacketHeader.decode wire with
  | error e => simp
  | ok packet =>
      simp only [Except.ok.injEq, exists_eq_left']
      split
      next hown =>
        rw [Option.some.injEq, eq_comm]
        exact ⟨fun hinput => ⟨hown.1, hown.2, hinput⟩, fun h => h.2.2⟩
      next hother => exact iff_of_false nofun fun h => hother ⟨h.1, h.2.1⟩

theorem Arrival.forFrame_expire {id : UInt32} {stale : UInt32 → Bool} {input : Option Packet} :
    (Arrival.expire stale).forFrame id = some input ↔ stale id = true ∧ input = none := by
  simp only [Arrival.forFrame]
  split
  next hstale => simp [hstale, eq_comm]
  next hfresh => simp [hfresh]

/-- The packets that arrive for a frame are those that carry its number. -/
theorem Arrival.mem_forFrame {arrivals : List Arrival} {id : UInt32} {packet : Packet} :
    some packet ∈ arrivals.filterMap (Arrival.forFrame id) ↔
      ∃ wire, Arrival.datagram wire ∈ arrivals ∧
        PacketHeader.decode wire = .ok packet ∧
        packet.1.frameId = id ∧ packet.1.isFramePacket := by
  rw [List.mem_filterMap]
  constructor
  · rintro ⟨arrival, harrival, hfor⟩
    cases arrival with
    | datagram wire =>
        obtain ⟨other, hdecode, hid, hframe, hsame⟩ := forFrame_datagram.mp hfor
        obtain rfl := Option.some.inj hsame
        exact ⟨wire, harrival, hdecode, hid, hframe⟩
    | expire stale => cases (forFrame_expire.mp hfor).2
  · rintro ⟨wire, harrival, hdecode, hid, hframe⟩
    exact ⟨_, harrival, forFrame_datagram.mpr ⟨packet, hdecode, hid, hframe, rfl⟩⟩

/-- The bytes with which the frame was completed. -/
def IngestResult.completed (id : UInt32) : IngestResult → Option (List UInt8)
  | .pending => none
  | .frameComplete frameId bytes => if frameId = id then some bytes else none

section Projection

variable (iter : IterOrder UInt8) (id : UInt32)

private theorem store_eq_none (entry : PendingFrame) {header : PacketHeader}
    (payload : List UInt8) (h : header.isFramePacket = false) :
    entry.store header payload = none := by
  unfold PendingFrame.store
  split <;> simp_all [PacketHeader.isFramePacket]

/-- A packet changes its own frame as the machine of that frame does. -/
private theorem ingest_own (r : FrameReassembler) (header : PacketHeader) (payload : List UInt8) :
    ((r.ingest iter header payload).1.pendingFrames.lookup header.frameId,
        (r.ingest iter header payload).2.completed header.frameId) =
      frameStep iter (r.pendingFrames.lookup header.frameId) (some (header, payload)) := by
  simp only [FrameReassembler.ingest, FrameReassembler.entry, frameStep]
  cases ((r.pendingFrames.lookup header.frameId).getD (PendingFrame.new
      header.packetCount.toNat (max (FecConfig.forMode header.mode).n 1))).store header payload with
  | none => rfl
  | some stored =>
      by_cases hdone : (stored.settle iter).isComplete = true
      · simp [hdone, IngestResult.completed]
      · simp [hdone, IngestResult.completed]

private theorem ingest_other (r : FrameReassembler) (header : PacketHeader)
    (payload : List UInt8) (h : header.frameId ≠ id) :
    (r.ingest iter header payload).1.pendingFrames.lookup id = r.pendingFrames.lookup id ∧
      (r.ingest iter header payload).2.completed id = none := by
  simp only [FrameReassembler.ingest]
  cases (r.entry header).store header payload with
  | none => exact ⟨rfl, rfl⟩
  | some stored =>
      by_cases hdone : (stored.settle iter).isComplete = true
      · simp [hdone, IngestResult.completed, h, AList.lookup_erase_ne (Ne.symm h)]
      · simp [hdone, IngestResult.completed, AList.lookup_insert_ne (Ne.symm h)]

private theorem receive_other (r : FrameReassembler) (arrival : Arrival)
    (h : arrival.forFrame id = none) :
    (r.receive iter arrival).1.pendingFrames.lookup id = r.pendingFrames.lookup id ∧
      (r.receive iter arrival).2.completed id = none := by
  cases arrival with
  | datagram wire =>
      simp only [FrameReassembler.receive]
      cases hwire : PacketHeader.decode wire with
      | error e => exact ⟨rfl, rfl⟩
      | ok packet =>
          obtain ⟨header, payload⟩ := packet
          by_cases hid : header.frameId = id
          · have hframe : header.isFramePacket = false := by
              by_contra hframe
              rw [Arrival.forFrame_datagram.mpr
                ⟨_, hwire, hid, Bool.eq_true_of_not_eq_false hframe, rfl⟩] at h
              cases h
            have hnone := store_eq_none (r.entry header) payload hframe
            simp [FrameReassembler.ingest, hnone, IngestResult.completed]
          · exact ingest_other iter id r header payload hid
  | expire stale =>
      have hfresh : stale id = false := by
        by_contra hstale
        rw [Arrival.forFrame_expire.mpr ⟨Bool.eq_true_of_not_eq_false hstale, rfl⟩] at h
        cases h
      simp [FrameReassembler.receive, FrameReassembler.expireStale, hfresh,
        lookup_retainKeys, IngestResult.completed]

private theorem receive_own (r : FrameReassembler) (arrival : Arrival)
    (input : Option Packet) (h : arrival.forFrame id = some input) :
    frameStep iter (r.pendingFrames.lookup id) input =
      ((r.receive iter arrival).1.pendingFrames.lookup id,
        (r.receive iter arrival).2.completed id) := by
  cases arrival with
  | datagram wire =>
      obtain ⟨packet, hwire, rfl, -, rfl⟩ := Arrival.forFrame_datagram.mp h
      simp only [FrameReassembler.receive, hwire]
      exact (ingest_own iter r packet.1 packet.2).symm
  | expire stale =>
      obtain ⟨hstale, rfl⟩ := Arrival.forFrame_expire.mp h
      simp [FrameReassembler.receive, FrameReassembler.expireStale, hstale,
        lookup_retainKeys, IngestResult.completed, frameStep]

/-- The completions of a frame are those of its own machine. -/
theorem completions_eq (r : FrameReassembler) (arrivals : List Arrival) :
    ((FrameReassembler.machine iter).outputs r arrivals).filterMap (IngestResult.completed id) =
      ((frameMachine iter).outputs (r.pendingFrames.lookup id)
        (arrivals.filterMap (Arrival.forFrame id))).filterMap (fun output => output) :=
  Machine.outputs_part _ (frameMachine iter)
    (v := fun r => r.pendingFrames.lookup id) (receive_other iter id)
    (receive_own iter id) r arrivals

end Projection

/-! What a set of received packets is enough for. -/

/-- All packets of a frame agree on these. -/
structure FrameShape where
  packetCount : UInt16
  mode : Mode

namespace FrameShape

variable (shape : FrameShape)

def fec : FecConfig := FecConfig.forMode shape.mode

/-- The packet is one of a frame of this shape. -/
def Fits (packet : Packet) : Prop :=
  packet.1.isFramePacket ∧ packet.1.packetCount = shape.packetCount ∧ packet.1.mode = shape.mode

def DataIn (packets : List Packet) (index : Nat) : Prop :=
  ∃ packet ∈ packets, packet.1.packetType = .videoFrame ∧ packet.1.packetIndex.toNat = index

/-- A repair packet that covers the unit was received with the data packets of
all other units it covers. -/
def Rescued (packets : List Packet) (index : Nat) : Prop :=
  ∃ packet ∈ packets, packet.1.packetType = .fecRepair ∧
    index ∈ packet.1.covers shape.fec ∧
    ∀ other ∈ packet.1.covers shape.fec, other ≠ index → DataIn packets other

/-- The packets alone make up the frame. -/
def Sufficient (packets : List Packet) : Prop :=
  packets ≠ [] ∧ ∀ index < shape.packetCount.toNat,
    DataIn packets index ∨ shape.Rescued packets index

end FrameShape

open FrameShape

theorem FrameShape.DataIn.mono {packets more : List Packet} {index : Nat}
    (h : DataIn packets index) (hsub : packets ⊆ more) : DataIn more index := by
  obtain ⟨packet, hmember, hpacket⟩ := h
  exact ⟨packet, hsub hmember, hpacket⟩

theorem FrameShape.Rescued.mono {shape : FrameShape} {packets more : List Packet}
    {index : Nat} (h : shape.Rescued packets index) (hsub : packets ⊆ more) :
    shape.Rescued more index := by
  obtain ⟨packet, hmember, htype, hcovers, hothers⟩ := h
  exact ⟨packet, hsub hmember, htype, hcovers,
    fun other hother hne => (hothers other hother hne).mono hsub⟩

theorem FrameShape.Sufficient.mono {shape : FrameShape}
    {packets more : List Packet} (h : shape.Sufficient packets)
    (hsub : packets ⊆ more) : shape.Sufficient more := by
  constructor
  · rintro rfl
    exact h.1 (List.eq_nil_of_subset_nil hsub)
  · intro index hindex
    exact (h.2 index hindex).imp (·.mono hsub) (·.mono hsub)

/-! Coverage: a unit belongs to one class of one group, so repair packets that
share a unit cover the same units. -/

theorem mem_covers {header : PacketHeader} {fec : FecConfig} {index : Nat} :
    index ∈ header.covers fec ↔
      0 < fec.k ∧ header.groupStart fec ≤ index ∧
        index < header.groupStart fec + max fec.n 1 ∧
        index < header.packetCount.toNat ∧
        (index - header.groupStart fec) % fec.k = header.repairIdx fec := by
  have hcount := header.packetCount.toNat_lt
  unfold PacketHeader.covers
  split
  next hk =>
    simp only [List.mem_map, List.mem_filter, List.mem_range'_1, beq_iff_eq]
    constructor
    · rintro ⟨inner, ⟨hrange, hclass⟩, rfl⟩
      have hsmall : inner % 2 ^ 16 = inner := Nat.mod_eq_of_lt (by omega)
      rw [hsmall]
      omega
    · intro h
      refine ⟨index, ⟨⟨h.2.1, ?_⟩, h.2.2.2.2⟩, Nat.mod_eq_of_lt ?_⟩
      · omega
      · omega
  next hk => simp [hk]

theorem covers_nodup (header : PacketHeader) (fec : FecConfig) : (header.covers fec).Nodup := by
  have hcount := header.packetCount.toNat_lt
  unfold PacketHeader.covers
  split
  next =>
    apply List.Nodup.map_on
    · intro left hleft right hright heq
      simp only [List.mem_filter, List.mem_range'_1] at hleft hright
      rwa [Nat.mod_eq_of_lt (by omega), Nat.mod_eq_of_lt (by omega)] at heq
    · exact (List.nodup_range' 1 (by decide)).filter _
  next => exact List.nodup_nil

theorem covers_eq_of_mem {left right : PacketHeader} {fec : FecConfig}
    {index : Nat} (hcount : left.packetCount = right.packetCount)
    (hleft : index ∈ left.covers fec) (hright : index ∈ right.covers fec) :
    left.covers fec = right.covers fec := by
  obtain ⟨_, hlo, hhi, _, hclass⟩ := mem_covers.mp hleft
  obtain ⟨_, hlo', hhi', _, hclass'⟩ := mem_covers.mp hright
  have hgroup : ∀ header : PacketHeader, header.groupStart fec ≤ index →
      index < header.groupStart fec + max fec.n 1 →
      header.groupStart fec = index / max fec.n 1 * max fec.n 1 := by
    intro header hle hlt
    have hquot : index / max fec.n 1 = header.fecGroup.toNat := by
      apply Nat.div_eq_of_lt_le
      · exact hle
      · rwa [Nat.add_one_mul]
    rw [hquot, PacketHeader.groupStart]
  have hstart : left.groupStart fec = right.groupStart fec :=
    (hgroup left hlo hhi).trans (hgroup right hlo' hhi').symm
  have hidx : left.repairIdx fec = right.repairIdx fec := by
    rw [← hclass, ← hclass', hstart]
  simp only [PacketHeader.covers, hstart, hidx, hcount]

/-! What a partial frame holds after some packets. -/

/-- The state of a partial frame of this shape: its slots, and the repair
packets it keeps. -/
structure Tracks (shape : FrameShape) (entry : PendingFrame)
    (packets : List Packet) : Prop where
  length : entry.data.length = shape.packetCount.toNat
  fecN : entry.fecN = max shape.fec.n 1
  fits : ∀ packet ∈ packets, shape.Fits packet
  kept : ∀ packet ∈ packets, packet.1.packetType = .fecRepair →
    packet.1.repairPacket shape.fec packet.2 ∈
      (entry.repairsByGroup.lookup packet.1.fecGroup).getD []
  stored : ∀ group, ∀ repair ∈ (entry.repairsByGroup.lookup group).getD [],
    ∃ packet ∈ packets, packet.1.packetType = .fecRepair ∧
      repair = packet.1.repairPacket shape.fec packet.2
  present : ∀ index < shape.packetCount.toNat, DataIn packets index → (slot entry.data index).isSome
  justified : ∀ index, (slot entry.data index).isSome →
    DataIn packets index ∨ shape.Rescued packets index

namespace Tracks

variable {shape : FrameShape} {entry : PendingFrame} {packets : List Packet}

theorem opened (shape : FrameShape) :
    Tracks shape (PendingFrame.new shape.packetCount.toNat (max shape.fec.n 1)) [] where
  length := List.length_replicate
  fecN := rfl
  fits := by simp
  kept := by simp
  stored := by simp [PendingFrame.new]
  present := by simp [DataIn]
  justified := by simp [PendingFrame.new, slot_replicate]

/-- The indices of a kept repair packet are in range, so that the source's
indexing cannot fail. -/
theorem covers_lt (h : Tracks shape entry packets) {group : UInt8} {repair : RepairPacket}
    (hrepair : repair ∈ (entry.repairsByGroup.lookup group).getD []) :
    ∀ index ∈ repair.covers, index < entry.data.length := by
  obtain ⟨packet, hmember, _, rfl⟩ := h.stored group repair hrepair
  intro index hindex
  rw [h.length, ← (h.fits packet hmember).2.1]
  exact (mem_covers.mp hindex).2.2.2.1

end Tracks

/-! Storing a packet. -/

section Store

variable (entry : PendingFrame) (header : PacketHeader) (payload : List UInt8)

theorem storeData_cases :
    (header.packetIndex.toNat < entry.data.length ∧
      slot entry.data header.packetIndex.toNat = none ∧
      entry.storeData header payload =
        { entry.noteGroupPaddedLen header.packetIndex.toNat payload.length with
          data := entry.data.set header.packetIndex.toNat (some payload) }) ∨
    (¬ (header.packetIndex.toNat < entry.data.length ∧
        slot entry.data header.packetIndex.toNat = none) ∧
      entry.storeData header payload = entry) := by
  by_cases hfree : header.packetIndex.toNat < entry.data.length ∧
      slot entry.data header.packetIndex.toNat = none
  · exact Or.inl ⟨hfree.1, hfree.2, if_pos hfree⟩
  · exact Or.inr ⟨hfree, if_neg hfree⟩

theorem slot_storeData (index : Nat) :
    slot (entry.storeData header payload).data index =
      if index = header.packetIndex.toNat ∧ index < entry.data.length ∧
          slot entry.data index = none then some payload
      else slot entry.data index := by
  obtain ⟨hlt, hnone, heq⟩ | ⟨htaken, heq⟩ := storeData_cases entry header payload
  · rw [heq]
    dsimp only
    rw [slot_set]
    by_cases hindex : index = header.packetIndex.toNat
    · subst hindex
      simp [hlt, hnone]
    · simp [hindex, Ne.symm hindex]
  · rw [heq, if_neg]
    rintro ⟨rfl, hfree⟩
    exact htaken hfree

@[simp] theorem storeData_length :
    (entry.storeData header payload).data.length = entry.data.length := by
  obtain ⟨_, _, heq⟩ | ⟨_, heq⟩ := storeData_cases entry header payload <;> simp [heq]

@[simp] theorem storeData_fecN :
    (entry.storeData header payload).fecN = entry.fecN := by
  obtain ⟨_, _, heq⟩ | ⟨_, heq⟩ := storeData_cases entry header payload <;>
    simp [heq, PendingFrame.noteGroupPaddedLen]

@[simp] theorem storeData_repairsByGroup :
    (entry.storeData header payload).repairsByGroup = entry.repairsByGroup := by
  obtain ⟨_, _, heq⟩ | ⟨_, heq⟩ := storeData_cases entry header payload <;>
    simp [heq, PendingFrame.noteGroupPaddedLen]

variable (fec : FecConfig)

@[simp] theorem storeRepair_data :
    (entry.storeRepair fec header payload).data = entry.data := by
  simp only [PendingFrame.storeRepair]
  split <;> rfl

@[simp] theorem storeRepair_fecN :
    (entry.storeRepair fec header payload).fecN = entry.fecN := by
  simp only [PendingFrame.storeRepair]
  split <;> rfl

theorem mem_storeRepair_repairs (group : UInt8) (repair : RepairPacket) :
    repair ∈ ((entry.storeRepair fec header payload).repairsByGroup.lookup group).getD [] ↔
      repair ∈ (entry.repairsByGroup.lookup group).getD [] ∨
        group = header.fecGroup ∧ repair = header.repairPacket fec payload := by
  have hnoted : (if header.groupStart fec < entry.data.length then
      entry.noteGroupPaddedLen (header.groupStart fec) payload.length
        else entry).repairsByGroup = entry.repairsByGroup := by
    split <;> rfl
  simp only [PendingFrame.storeRepair, hnoted]
  by_cases hgroup : group = header.fecGroup
  · subst hgroup
    simp
  · simp [AList.lookup_insert_ne hgroup, hgroup]

end Store

namespace Tracks

variable {shape : FrameShape} {entry : PendingFrame} {packets : List Packet}

variable (h : Tracks shape entry packets)

include h

theorem fits_append {packet : Packet}
    (hfits : shape.Fits packet) : ∀ other ∈ packets ++ [packet], shape.Fits other := by
  rw [List.forall_mem_append, List.forall_mem_singleton]
  exact ⟨h.fits, hfits⟩

theorem storeData {packet : Packet}
    (hfits : shape.Fits packet) (htype : packet.1.packetType = .videoFrame) :
    Tracks shape (entry.storeData packet.1 packet.2) (packets ++ [packet]) where
  length := by rw [storeData_length, h.length]
  fecN := by rw [storeData_fecN, h.fecN]
  fits := h.fits_append hfits
  kept := by
    intro other hother hrepair
    rw [storeData_repairsByGroup]
    rcases List.mem_append.mp hother with hother | hother
    · exact h.kept other hother hrepair
    · rw [List.mem_singleton.mp hother, htype] at hrepair
      cases hrepair
  stored := by
    intro group repair hrepair
    rw [storeData_repairsByGroup] at hrepair
    obtain ⟨other, hother, hpacket⟩ := h.stored group repair hrepair
    exact ⟨other, List.mem_append_left _ hother, hpacket⟩
  present := by
    rintro index hindex ⟨other, hother, hvideo, rfl⟩
    rw [slot_storeData]
    split
    next => rfl
    next hold =>
      rcases List.mem_append.mp hother with hother | hother
      · exact h.present _ hindex ⟨other, hother, hvideo, rfl⟩
      · obtain rfl := List.mem_singleton.mp hother
        by_contra hempty
        apply hold
        refine ⟨rfl, ?_, by simpa using hempty⟩
        rwa [h.length]
  justified := by
    intro index hsome
    rw [slot_storeData] at hsome
    split at hsome
    next hnew =>
      left
      exact ⟨packet, by simp, htype, hnew.1.symm⟩
    next =>
      have hsub : packets ⊆ packets ++ [packet] := List.subset_append_left _ _
      exact (h.justified index hsome).imp (·.mono hsub) (·.mono hsub)

theorem storeRepair {packet : Packet}
    (hfits : shape.Fits packet) (htype : packet.1.packetType = .fecRepair) :
    Tracks shape (entry.storeRepair shape.fec packet.1 packet.2) (packets ++ [packet]) where
  length := by rw [storeRepair_data, h.length]
  fecN := by rw [storeRepair_fecN, h.fecN]
  fits := h.fits_append hfits
  kept := by
    intro other hother hrepair
    rw [mem_storeRepair_repairs]
    rcases List.mem_append.mp hother with hother | hother
    · exact Or.inl (h.kept other hother hrepair)
    · rw [List.mem_singleton.mp hother]
      exact Or.inr ⟨rfl, rfl⟩
  stored := by
    intro group repair hrepair
    rcases (mem_storeRepair_repairs ..).mp hrepair with hold | ⟨_, rfl⟩
    · obtain ⟨other, hother, hpacket⟩ := h.stored group repair hold
      exact ⟨other, List.mem_append_left _ hother, hpacket⟩
    · exact ⟨packet, by simp, htype, rfl⟩
  present := by
    rintro index hindex ⟨other, hother, hvideo, rfl⟩
    rw [storeRepair_data]
    rcases List.mem_append.mp hother with hother | hother
    · exact h.present _ hindex ⟨other, hother, hvideo, rfl⟩
    · rw [List.mem_singleton.mp hother, htype] at hvideo
      cases hvideo
  justified := by
    intro index hsome
    rw [storeRepair_data] at hsome
    have hsub : packets ⊆ packets ++ [packet] := List.subset_append_left _ _
    exact (h.justified index hsome).imp (·.mono hsub) (·.mono hsub)

/-- A packet of the frame is stored. -/
theorem store {packet : Packet} (hfits : shape.Fits packet) :
    ∃ stored, entry.store packet.1 packet.2 = some stored ∧
      Tracks shape stored (packets ++ [packet]) := by
  have hframe := hfits.1
  simp only [PacketHeader.isFramePacket, Bool.or_eq_true, beq_iff_eq] at hframe
  rcases hframe with htype | htype
  · exact ⟨_, by simp only [PendingFrame.store, htype], h.storeData hfits htype⟩
  · have hfec : FecConfig.forMode packet.1.mode = shape.fec := by
      rw [hfits.2.2, FrameShape.fec]
    exact ⟨_, by simp only [PendingFrame.store, htype, hfec], h.storeRepair hfits htype⟩

end Tracks

/-! Recovery over all groups. -/

section TryRecover

variable {iter : IterOrder UInt8} {entry : PendingFrame}

/-- What survives every restored unit holds after recovery of all groups. -/
theorem tryRecover_invariant {I : Slots → Prop}
    (hstep : ∀ data group repair target,
      repair ∈ (entry.repairsByGroup.lookup group).getD [] → I data →
      repair.missing data = [target] →
      I (data.set target (some (repair.restore data entry.dataLens target))))
    (hdata : I entry.data) : I (entry.tryRecover iter).data := by
  have hfold : ∀ (groups : List UInt8) (data : Slots), I data →
      I (groups.foldl (fun data group => recover data entry.dataLens
        ((entry.repairsByGroup.lookup group).getD [])) data) := by
    intro groups
    induction groups with
    | nil => exact fun _ h => h
    | cons group groups ih =>
        intro data h
        apply ih
        apply recover_invariant _ h
        intro units repair target hrepair
        exact hstep units group repair target hrepair
  exact hfold _ entry.data hdata

/-- A unit that one kept repair packet can restore is there after recovery. -/
theorem tryRecover_isSome {group : UInt8} {repair : RepairPacket} {target : Nat}
    (hcovers : ∀ group, ∀ repair ∈ (entry.repairsByGroup.lookup group).getD [],
      ∀ index ∈ repair.covers, index < entry.data.length)
    (hrepair : repair ∈ (entry.repairsByGroup.lookup group).getD [])
    (hnodup : repair.covers.Nodup) (htarget : target ∈ repair.covers)
    (hothers : ∀ index ∈ repair.covers, index ≠ target → (slot entry.data index).isSome) :
    (slot (entry.tryRecover iter).data target).isSome := by
  have hgroup : group ∈ iter.order entry.repairsByGroup.keys := by
    rw [IterOrder.mem_order]
    by_contra habsent
    rw [AList.lookup_eq_none.mpr habsent] at hrepair
    simp at hrepair
  obtain ⟨before, after, horder⟩ := List.append_of_mem hgroup
  have hkeep : ∀ (groups : List UInt8) (data : Slots) (index : Nat),
      (slot data index).isSome →
      (slot (groups.foldl (fun data group => recover data entry.dataLens
        ((entry.repairsByGroup.lookup group).getD [])) data) index).isSome := by
    intro groups
    induction groups with
    | nil => exact fun _ _ h => h
    | cons group groups ih =>
        intro data index h
        apply ih
        obtain ⟨unit, hunit⟩ := Option.isSome_iff_exists.mp h
        rw [slot_recover_of_some _ _ hunit]
        rfl
  have hlength : ∀ (groups : List UInt8) (data : Slots),
      (groups.foldl (fun data group => recover data entry.dataLens
        ((entry.repairsByGroup.lookup group).getD [])) data).length =
          data.length := by
    intro groups
    induction groups with
    | nil => exact fun _ => rfl
    | cons group groups ih =>
        intro data
        rw [List.foldl_cons, ih, recover_length]
  simp only [PendingFrame.tryRecover, horder, List.foldl_append, List.foldl_cons]
  apply hkeep after
  apply slot_recover_isSome _ hrepair hnodup htarget
  · exact fun index hindex hne => hkeep before _ _ (hothers index hindex hne)
  · intro other hother index hindex
    rw [hlength]
    exact hcovers group other hother index hindex

end TryRecover

namespace Tracks

variable {shape : FrameShape} {entry : PendingFrame} {packets : List Packet}

variable (h : Tracks shape entry packets)

include h

theorem tryRecover (iter : IterOrder UInt8) : Tracks shape (entry.tryRecover iter) packets where
  length := by
    apply tryRecover_invariant (I := fun data => data.length = shape.packetCount.toNat)
    · intro data group repair target _ hlength _
      rw [List.length_set, hlength]
    · exact h.length
  fecN := h.fecN
  fits := h.fits
  kept := h.kept
  stored := h.stored
  present := by
    intro index hindex hdata
    apply tryRecover_invariant (I := fun data => (slot data index).isSome)
    · intro data group repair target _ hsome hmissing
      rw [slot_set]
      split
      · rfl
      · exact hsome
    · exact h.present index hindex hdata
  justified := by
    apply tryRecover_invariant (I := fun data => ∀ index,
      (slot data index).isSome → DataIn packets index ∨ shape.Rescued packets index)
    · intro data group repair target hrepair hjust hmissing index hsome
      rw [slot_set] at hsome
      split at hsome
      next htarget =>
        obtain ⟨rfl, _⟩ := htarget
        obtain ⟨packet, hmember, htype, rfl⟩ := h.stored group repair hrepair
        have hcovered : target ∈ packet.1.covers shape.fec := by
          have : target ∈ (packet.1.repairPacket shape.fec packet.2).missing data := by
            simp [hmissing]
          exact (RepairPacket.mem_missing.mp this).1
        by_cases hall : ∀ other ∈ packet.1.covers shape.fec, other ≠ target → DataIn packets other
        · exact Or.inr ⟨packet, hmember, htype, hcovered, hall⟩
        · -- another covered unit was itself restored, so this one was received
          push Not at hall
          obtain ⟨other, hother, hne, hnodata⟩ := hall
          have hthere : (slot data other).isSome := by
            by_contra hempty
            have : other ∈ (packet.1.repairPacket shape.fec packet.2).missing data :=
              RepairPacket.mem_missing.mpr ⟨hother, by simpa using hempty⟩
            rw [hmissing] at this
            exact hne (List.mem_singleton.mp this)
          obtain hdata | ⟨rescuer, hrescuer, _, hcovers, hrest⟩ := hjust other hthere
          · exact absurd hdata hnodata
          · left
            apply hrest target _ hne.symm
            rwa [covers_eq_of_mem _ hcovers hother]
            rw [(h.fits rescuer hrescuer).2.1, (h.fits packet hmember).2.1]
      next => exact hjust index hsome
    · exact h.justified

/-- After a packet was stored and recovery tried, the frame is complete exactly
when the packets are sufficient. -/
theorem settle_isComplete (hsome : packets ≠ []) (iter : IterOrder UInt8) :
    (entry.settle iter).isComplete = true ↔ shape.Sufficient packets := by
  have hsettled : Tracks shape (entry.settle iter) packets := by
    unfold PendingFrame.settle
    split
    · exact h
    · exact h.tryRecover iter
  constructor
  · intro hcomplete
    refine ⟨hsome, fun index hindex => ?_⟩
    apply hsettled.justified
    apply (all_isSome_iff _).mp hcomplete
    rwa [hsettled.length]
  · intro hsufficient
    unfold PendingFrame.settle
    split
    next hdone => exact hdone
    next =>
      apply (all_isSome_iff _).mpr
      intro index hindex
      rw [(h.tryRecover iter).length] at hindex
      obtain hdata | ⟨packet, hmember, htype, hcovers, hothers⟩ := hsufficient.2 index hindex
      · exact (h.tryRecover iter).present index hindex hdata
      · apply tryRecover_isSome (fun _ _ hrepair => h.covers_lt hrepair)
          (h.kept packet hmember htype) (covers_nodup _ _) hcovers
        intro other hother hne
        apply h.present other _ (hothers other hother hne)
        rw [← (h.fits packet hmember).2.1]
        exact (mem_covers.mp hother).2.2.2.1

theorem settle (iter : IterOrder UInt8) : Tracks shape (entry.settle iter) packets := by
  unfold PendingFrame.settle
  split
  · exact h
  · exact h.tryRecover iter

end Tracks

end EvertyDesk.Evrt2
