import EvertyDesk.Evrt2.Completion

/-!
What a completed frame contains. Every unit that the reassembler holds is the
unit that was sent, followed by zeros when it was restored by parity, so a
completed frame is what was sent.

A group of a frame is known to the receiver by the low eight bits of its
number, and a unit by the low sixteen bits of its index. Frames are therefore
reassembled exactly, and with the losses that error correction is for, as long
as they have at most 256 groups, or at most 65535 units where there are no
groups; and no other frame is.
-/

namespace EvertyDesk.Evrt2

open FrameShape

/-! Units and their chunks. -/

/-- A unit as it is held: padded with zeros when it was restored. -/
def PaddedUnit (chunk held : List UInt8) : Prop :=
  ∃ padding, held = protectedUnit chunk ++ List.replicate padding 0

theorem stripLenPrefix_padded {chunk held : List UInt8}
    (hchunk : chunk.length < 2 ^ 16) (h : PaddedUnit chunk held) :
    stripLenPrefix held = some chunk := by
  obtain ⟨padding, rfl⟩ := h
  have hlength : (protectedUnit chunk ++ List.replicate padding 0).length =
      lenPrefixBytes + chunk.length + padding := by
    simp only [protectedUnit, lenPrefixBytes, List.length_append, beBytes_length,
      List.length_replicate]
  have htrue : beNat (field (protectedUnit chunk ++ List.replicate padding 0) 0 2) =
      chunk.length := by
    rw [protectedUnit, List.append_assoc, field_here (beBytes_length ..)]
    exact beNat_beBytes_of_lt (by simpa using hchunk)
  have hfield : field (protectedUnit chunk ++ List.replicate padding 0)
      lenPrefixBytes chunk.length = chunk := by
    rw [protectedUnit, List.append_assoc]
    exact field_append (beBytes_length ..) rfl
  rw [stripLenPrefix, if_neg (by rw [hlength]; omega), htrue, hlength,
    if_pos (Nat.le_add_right _ _), hfield]

/-- Units that are all there make up the chunks in order. -/
theorem joinUnits_eq {data : Slots} {piece : Nat → List UInt8} {start : Nat}
    (hpiece : ∀ index, (piece index).length < 2 ^ 16)
    (hdata : ∀ index < data.length, ∃ held, slot data index = some held ∧
      PaddedUnit (piece (start + index)) held) :
    joinUnits data = some ((List.range' start data.length).map piece).flatten := by
  induction data generalizing start with
  | nil => rfl
  | cons first rest ih =>
      obtain ⟨held, hheld, hunit⟩ := hdata 0 (by simp)
      have hfirst : first = some held := by simpa [slot] using hheld
      have hrest : joinUnits rest = some
          ((List.range' (start + 1) rest.length).map piece).flatten := ih fun index hindex => by
        obtain ⟨later, hlater, hpadded⟩ := hdata (index + 1) (by simpa using hindex)
        refine ⟨later, by simpa [slot] using hlater, ?_⟩
        rwa [Nat.add_right_comm, Nat.add_assoc]
      have hstrip := stripLenPrefix_padded (hpiece start) hunit
      simp [joinUnits, hfirst, hstrip, hrest, List.range'_succ]

/-! Honest packets, and what a partial frame holds after them. -/

/-- The packet is one of a frame with these chunks. -/
structure Honest (shape : FrameShape) (piece : Nat → List UInt8)
    (packet : Packet) : Prop where
  fits : shape.Fits packet
  data : packet.1.packetType = .videoFrame →
    packet.1.packetIndex.toNat < shape.packetCount.toNat →
    packet.2 = protectedUnit (piece packet.1.packetIndex.toNat)
  repair : packet.1.packetType = .fecRepair →
    ∃ size, packet.2 = parity (List.replicate size 0)
        ((packet.1.covers shape.fec).map fun i => protectedUnit (piece i)) ∧
      ∀ i ∈ packet.1.covers shape.fec, (protectedUnit (piece i)).length ≤ size

/-- A kept repair packet is the parity of the units it covers, and each of them
is known to be padded to its length. -/
structure SoundRepair (piece : Nat → List UInt8) (dataLens : List Nat)
    (repair : RepairPacket) : Prop where
  nodup : repair.covers.Nodup
  payload : repair.xorPayload = parity
    (List.replicate repair.xorPayload.length 0)
    (repair.covers.map fun i => protectedUnit (piece i))
  fits : ∀ i ∈ repair.covers, (protectedUnit (piece i)).length ≤ repair.xorPayload.length
  lens : ∀ i ∈ repair.covers, repair.xorPayload.length ≤ dataLens.getD i 0

structure Carries (piece : Nat → List UInt8) (entry : PendingFrame) : Prop where
  lens : entry.dataLens.length = entry.data.length
  units : ∀ index held, slot entry.data index = some held → PaddedUnit (piece index) held
  repairs : ∀ group, ∀ repair ∈ (entry.repairsByGroup.lookup group).getD [],
    SoundRepair piece entry.dataLens repair

section Restore

variable {piece : Nat → List UInt8} {data : Slots} {repair : RepairPacket}
  {dataLens : List Nat} {target : Nat}

private theorem foldl_held {others : List Nat} {acc : List UInt8}
    (hheld : ∀ i ∈ others, ∃ held, slot data i = some held ∧ PaddedUnit (piece i) held) :
    others.foldl (takeOut data) acc = parity acc (others.map fun i => protectedUnit (piece i)) := by
  induction others generalizing acc with
  | nil => rfl
  | cons i others ih =>
      obtain ⟨held, hslot, padding, rfl⟩ := hheld i List.mem_cons_self
      rw [List.foldl_cons, ih fun j hj => hheld j (List.mem_cons_of_mem _ hj),
        List.map_cons, parity_cons, takeOut, hslot]
      simp only [xorInto_append_zeros]

/-- What is restored is the unit that was sent. -/
theorem restore_padded (h : SoundRepair piece dataLens repair)
    (hunits : ∀ index held, slot data index = some held → PaddedUnit (piece index) held)
    (hmissing : repair.missing data = [target]) :
    PaddedUnit (piece target) (repair.restore data dataLens target) := by
  have htarget : target ∈ repair.covers := by
    have : target ∈ repair.missing data := by simp [hmissing]
    exact (RepairPacket.mem_missing.mp this).1
  have hothers : ∀ i ∈ repair.covers.filter (fun i => i ≠ target),
      ∃ held, slot data i = some held ∧ PaddedUnit (piece i) held := by
    intro i hi
    obtain ⟨hcovered, hne⟩ := List.mem_filter.mp hi
    cases hslot : slot data i with
    | none =>
        have : i ∈ repair.missing data := RepairPacket.mem_missing.mpr ⟨hcovered, hslot⟩
        rw [hmissing] at this
        simp [List.mem_singleton.mp this] at hne
    | some held => exact ⟨held, rfl, hunits i held hslot⟩
  have hperm : repair.covers.Perm (target :: repair.covers.filter fun i => i ≠ target) := by
    have herase := List.perm_cons_erase htarget
    have hfilter : (repair.covers.filter fun i => i != target) =
        repair.covers.filter fun i => i ≠ target :=
      List.filter_congr fun i _ => by simp [bne, Bool.beq_eq_decide_eq]
    rwa [h.nodup.erase_eq_filter, hfilter] at herase
  have hacc : (repair.covers.filter fun i => i ≠ target).foldl (takeOut data)
      repair.xorPayload =
      protectedUnit (piece target) ++ List.replicate
        (repair.xorPayload.length - (protectedUnit (piece target)).length) 0 := by
    rw [foldl_held hothers, h.payload, parity_recovers (hperm.map fun i => protectedUnit (piece i))]
    rw [xorInto_zeros (h.fits target htarget), parity_length, List.length_replicate]
  have hlens := h.lens target htarget
  have hfits := h.fits target htarget
  refine ⟨repair.xorPayload.length - (protectedUnit (piece target)).length, ?_⟩
  rw [RepairPacket.restore, hacc]
  apply List.take_of_length_le
  rw [List.length_append, List.length_replicate]
  omega

end Restore

/-! Known lengths only grow, and cover the whole group. -/

section Note

variable (entry : PendingFrame) (packetIndex len : Nat)

@[simp] theorem note_dataLens_length :
    (entry.noteGroupPaddedLen packetIndex len).dataLens.length =
      entry.dataLens.length := by
  simp [PendingFrame.noteGroupPaddedLen]

theorem note_dataLens_le (index : Nat) :
    entry.dataLens.getD index 0 ≤
      (entry.noteGroupPaddedLen packetIndex len).dataLens.getD index 0 := by
  simp only [PendingFrame.noteGroupPaddedLen, List.getD_eq_getElem?_getD, List.getElem?_mapIdx]
  cases entry.dataLens[index]? with
  | none => exact Nat.le_refl _
  | some known =>
      simp only [Option.map_some, Option.getD_some]
      split
      · exact le_max_left _ _
      · exact Nat.le_refl _

theorem le_note_dataLens {index : Nat} (hlens : index < entry.dataLens.length)
    (hdata : index < entry.data.length)
    (hgroup : index / max entry.fecN 1 = packetIndex / max entry.fecN 1) :
    len ≤ (entry.noteGroupPaddedLen packetIndex len).dataLens.getD index 0 := by
  have hpos : 0 < max entry.fecN 1 := by omega
  have hmod := Nat.mod_lt index hpos
  have hdiv := Nat.div_add_mod' index (max entry.fecN 1)
  rw [hgroup] at hdiv
  have hin : packetIndex / max entry.fecN 1 * max entry.fecN 1 ≤ index ∧
      index < min (packetIndex / max entry.fecN 1 * max entry.fecN 1 +
        max entry.fecN 1) entry.data.length := by omega
  simp only [PendingFrame.noteGroupPaddedLen, List.getD_eq_getElem?_getD,
    List.getElem?_mapIdx, List.getElem?_eq_getElem hlens, Option.map_some,
    Option.getD_some]
  rw [if_pos hin]
  exact le_max_right _ _

end Note

theorem SoundRepair.mono {piece : Nat → List UInt8} {dataLens more : List Nat}
    {repair : RepairPacket} (h : SoundRepair piece dataLens repair)
    (hmore : ∀ index, dataLens.getD index 0 ≤ more.getD index 0) :
    SoundRepair piece more repair where
  nodup := h.nodup
  payload := h.payload
  fits := h.fits
  lens := fun i hi => (h.lens i hi).trans (hmore i)

namespace Carries

variable {shape : FrameShape} {piece : Nat → List UInt8} {entry : PendingFrame}
  {packets : List Packet} {packet : Packet}

theorem opened (count fecN : Nat) : Carries piece (PendingFrame.new count fecN) where
  lens := by simp [PendingFrame.new]
  units := by simp [PendingFrame.new, slot_replicate]
  repairs := by simp [PendingFrame.new]

theorem storeData (h : Carries piece entry) (hlength : entry.data.length = shape.packetCount.toNat)
    (hhonest : Honest shape piece packet)
    (htype : packet.1.packetType = .videoFrame) :
    Carries piece (entry.storeData packet.1 packet.2) := by
  obtain ⟨hlt, _, heq⟩ | ⟨_, heq⟩ := storeData_cases entry packet.1 packet.2
  · have hpayload := hhonest.data htype (by rwa [← hlength])
    constructor
    · simp [heq, h.lens]
    · intro index held hslot
      rw [slot_storeData] at hslot
      split at hslot
      next hown =>
        obtain rfl := Option.some.inj hslot
        rw [hown.1, hpayload]
        exact ⟨0, by simp⟩
      next => exact h.units index held hslot
    · intro group repair hrepair
      rw [storeData_repairsByGroup] at hrepair
      rw [heq]
      exact (h.repairs group repair hrepair).mono (note_dataLens_le _ _ _)
  · rwa [heq]

theorem storeRepair (h : Carries piece entry)
    (htracks : Tracks shape entry packets) (hhonest : Honest shape piece packet)
    (htype : packet.1.packetType = .fecRepair) :
    Carries piece (entry.storeRepair shape.fec packet.1 packet.2) := by
  -- the lengths that storing a repair packet leaves
  have hdataLens : (entry.storeRepair shape.fec packet.1 packet.2).dataLens =
      if packet.1.groupStart shape.fec < entry.data.length then
        (entry.noteGroupPaddedLen (packet.1.groupStart shape.fec) packet.2.length).dataLens
      else entry.dataLens := by
    simp only [PendingFrame.storeRepair]
    split <;> rfl
  have hgrow : ∀ index, entry.dataLens.getD index 0 ≤
      (entry.storeRepair shape.fec packet.1 packet.2).dataLens.getD index 0 := by
    intro index
    rw [hdataLens]
    split
    · exact note_dataLens_le _ _ _ index
    · exact Nat.le_refl _
  constructor
  · rw [hdataLens, storeRepair_data]
    split <;> simp [h.lens]
  · intro index held hslot
    rw [storeRepair_data] at hslot
    exact h.units index held hslot
  · intro group repair hrepair
    rcases (mem_storeRepair_repairs ..).mp hrepair with hold | ⟨_, rfl⟩
    · exact (h.repairs group repair hold).mono hgrow
    · obtain ⟨size, hpayload, hsizes⟩ := hhonest.repair htype
      have hlength : packet.2.length = size := by
        rw [hpayload, parity_length, List.length_replicate]
      constructor
      · exact covers_nodup _ _
      · simp only [PacketHeader.repairPacket, hlength]
        exact hpayload
      · simp only [PacketHeader.repairPacket, hlength]
        exact hsizes
      · intro index hindex
        obtain ⟨_, hlo, hhi, hcount, _⟩ := mem_covers.mp hindex
        have hdata : index < entry.data.length := by
          rw [htracks.length, ← hhonest.fits.2.1]
          exact hcount
        have hstart : packet.1.groupStart shape.fec < entry.data.length := by omega
        rw [hdataLens, if_pos hstart]
        apply le_note_dataLens entry _ _ (by rwa [h.lens]) hdata
        have hwidth : max entry.fecN 1 = max shape.fec.n 1 := by
          rw [htracks.fecN]
          omega
        have hpos : 0 < max shape.fec.n 1 := by omega
        rw [hwidth, PacketHeader.groupStart, Nat.mul_div_cancel _ hpos]
        apply Nat.div_eq_of_lt_le
        · exact hlo
        · rwa [Nat.add_one_mul]

theorem store (h : Carries piece entry) (htracks : Tracks shape entry packets)
    (hhonest : Honest shape piece packet) {stored : PendingFrame}
    (hstored : entry.store packet.1 packet.2 = some stored) :
    Carries piece stored := by
  have hframe := hhonest.fits.1
  simp only [PacketHeader.isFramePacket, Bool.or_eq_true, beq_iff_eq] at hframe
  rcases hframe with htype | htype
  · simp only [PendingFrame.store, htype, Option.some.injEq] at hstored
    rw [← hstored]
    exact h.storeData htracks.length hhonest htype
  · have hfec : FecConfig.forMode packet.1.mode = shape.fec := by
      rw [hhonest.fits.2.2, FrameShape.fec]
    simp only [PendingFrame.store, htype, hfec, Option.some.injEq] at hstored
    rw [← hstored]
    exact h.storeRepair htracks hhonest htype

theorem settle (h : Carries piece entry) (iter : IterOrder UInt8) :
    Carries piece (entry.settle iter) := by
  unfold PendingFrame.settle
  split
  · exact h
  · have hunits : (entry.tryRecover iter).data.length = entry.data.length ∧
        ∀ index held, slot (entry.tryRecover iter).data index = some held →
          PaddedUnit (piece index) held := by
      apply tryRecover_invariant (I := fun data => data.length = entry.data.length ∧
        ∀ index held, slot data index = some held → PaddedUnit (piece index) held)
      · intro data group repair target hrepair hdata hmissing
        constructor
        · rw [List.length_set, hdata.1]
        · intro index held hslot
          rw [slot_set] at hslot
          split at hslot
          next htarget =>
            obtain rfl := Option.some.inj hslot
            rw [← htarget.1]
            exact restore_padded (h.repairs group repair hrepair) hdata.2 hmissing
          next => exact hdata.2 index held hslot
      · exact ⟨rfl, h.units⟩
    exact ⟨by rw [hunits.1]; exact h.lens, hunits.2, h.repairs⟩

/-- A complete frame is the chunks in order. -/
theorem reassemble_eq (h : Carries piece entry) (hpiece : ∀ index, (piece index).length < 2 ^ 16)
    (hcomplete : entry.isComplete = true) :
    entry.reassemble = some ((List.range entry.data.length).map piece).flatten := by
  rw [PendingFrame.reassemble, if_pos hcomplete, List.range_eq_range']
  apply joinUnits_eq hpiece
  intro index hindex
  have hsome := (all_isSome_iff _).mp hcomplete index hindex
  obtain ⟨held, hheld⟩ := Option.isSome_iff_exists.mp hsome
  rw [Nat.zero_add]
  exact ⟨held, hheld, h.units index held hheld⟩

end Carries

/-! Runs on honest packets. -/

def HonestInput (shape : FrameShape) (piece : Nat → List UInt8) (input : Option Packet) : Prop :=
  ∀ packet, input = some packet → Honest shape piece packet

/-- An open frame holds what honest packets brought. -/
def CarriesOpen (shape : FrameShape) (piece : Nat → List UInt8)
    (entry : Option PendingFrame) : Prop :=
  ∀ partialFrame, entry = some partialFrame →
    (∃ packets, Tracks shape partialFrame packets) ∧ Carries piece partialFrame

theorem frameStep_exact (iter : IterOrder UInt8) {shape : FrameShape}
    {piece : Nat → List UInt8} (hpiece : ∀ index, (piece index).length < 2 ^ 16)
    {entry : Option PendingFrame} {input : Option Packet}
    (h : CarriesOpen shape piece entry) (hinput : HonestInput shape piece input) :
    CarriesOpen shape piece (frameStep iter entry input).1 ∧
      ∀ bytes, (frameStep iter entry input).2 = some bytes →
        bytes = ((List.range shape.packetCount.toNat).map piece).flatten := by
  cases input with
  | none => simp [frameStep, CarriesOpen]
  | some packet =>
      have hhonest := hinput packet rfl
      obtain ⟨⟨packets, htracks⟩, hcarries⟩ :
          (∃ packets, Tracks shape (entry.getD (PendingFrame.new
            packet.1.packetCount.toNat (max (FecConfig.forMode packet.1.mode).n 1))) packets) ∧
          Carries piece (entry.getD (PendingFrame.new packet.1.packetCount.toNat
            (max (FecConfig.forMode packet.1.mode).n 1))) := by
        cases entry with
        | none =>
            rw [Option.getD_none, hhonest.fits.2.1, hhonest.fits.2.2]
            exact ⟨⟨[], Tracks.opened shape⟩, Carries.opened _ _⟩
        | some partialFrame => exact h partialFrame rfl
      obtain ⟨stored, hstored, hnext⟩ := htracks.store hhonest.fits
      have hholds := (hcarries.store htracks hhonest hstored).settle iter
      simp only [frameStep, hstored]
      by_cases hdone : (stored.settle iter).isComplete = true
      · have hbytes := hholds.reassemble_eq hpiece hdone
        rw [(hnext.settle iter).length] at hbytes
        simp [hdone, hbytes, CarriesOpen]
      · simp only [hdone, Bool.false_eq_true, if_false, reduceCtorEq,
          false_implies, implies_true, and_true]
        intro partialFrame hsome
        obtain rfl := Option.some.inj hsome
        exact ⟨⟨_, hnext.settle iter⟩, hholds⟩

/-- Whatever honest packets arrive, a completed frame is the chunks in order. -/
theorem frame_outputs_exact (iter : IterOrder UInt8) {shape : FrameShape}
    {piece : Nat → List UInt8} (hpiece : ∀ index, (piece index).length < 2 ^ 16)
    {inputs : List (Option Packet)}
    (hinputs : ∀ input ∈ inputs, HonestInput shape piece input) :
    ∀ bytes ∈ ((frameMachine iter).outputs none inputs).filterMap id,
      bytes = ((List.range shape.packetCount.toNat).map piece).flatten := by
  have hall : ∀ output ∈ (frameMachine iter).outputs none inputs,
      ∀ bytes, output = some bytes →
        bytes = ((List.range shape.packetCount.toNat).map piece).flatten := by
    apply (frameMachine iter).outputs_forall
      (C := fun _ input => HonestInput shape piece input)
      (I := CarriesOpen shape piece)
      (G := fun output => ∀ bytes, output = some bytes →
        bytes = ((List.range shape.packetCount.toNat).map piece).flatten)
      (fun _ _ hInv hok => frameStep_exact iter hpiece hInv hok)
    · exact fun _ hnone => by cases hnone
    · exact Machine.along_of_inputs _ hinputs _
  intro bytes hbytes
  obtain ⟨output, houtput, heq⟩ := List.mem_filterMap.mp hbytes
  exact hall output houtput bytes heq

/-! Frames as they are sent. -/

/-- The most units of a frame that the receiver can tell apart: those of 256
groups, or, without groups, as many as a 16-bit count allows. -/
def Mode.unitCapacity : Mode → Nat
  | ar => 256 * FecConfig.ar.n
  | r2 => 256 * FecConfig.r2.n
  | mode47 => 2 ^ 16 - 1

namespace OutgoingFrame

variable (frame : OutgoingFrame)

def fec : FecConfig := FecConfig.forMode frame.mode

def piece (index : Nat) : List UInt8 := chunk chunkMax frame.frameBytes index

/-- Nothing but the frame's own datagrams carries its number. -/
def OnlyOwn (arrivals : List Arrival) : Prop :=
  ∀ wire, Arrival.datagram wire ∈ arrivals → ∀ packet,
    PacketHeader.decode wire = .ok packet → packet.1.frameId = frame.frameId →
    ∃ order, wire ∈ frame.buildFramePackets frame.fec order

def NotExpired (arrivals : List Arrival) : Prop :=
  ∀ stale, Arrival.expire stale ∈ arrivals → stale frame.frameId = false

/-- Every class of every group misses at most one unit, and where it misses one
its repair packet arrived. Without groups no unit is missing. -/
def Recoverable (arrivals : List Arrival) : Prop :=
  if frame.fec.isEnabled then
    ∀ group < divCeil frame.unitCount frame.fec.n, ∀ r < frame.fec.k,
      ∀ index ∈ frame.classIndices frame.fec group r,
        Arrival.datagram (frame.dataWire frame.fec index) ∉ arrivals →
        Arrival.datagram (frame.repairWire frame.fec group r) ∈ arrivals ∧
        ∀ other ∈ frame.classIndices frame.fec group r, other ≠ index →
          Arrival.datagram (frame.dataWire frame.fec other) ∈ arrivals
  else
    ∀ index < frame.unitCount, Arrival.datagram (frame.dataWire frame.fec index) ∈ arrivals

/-- Whatever datagrams of the frame arrive, what is completed is the frame, and
if what is lost is recoverable, the frame is completed. -/
def Reassembles (iter : IterOrder UInt8) : Prop :=
  ∀ (r : FrameReassembler) (arrivals : List Arrival),
    r.pendingFrames.lookup frame.frameId = none → frame.OnlyOwn arrivals →
    (∀ bytes ∈ completions iter r frame.frameId arrivals, bytes = frame.frameBytes) ∧
    (frame.NotExpired arrivals → frame.Recoverable arrivals →
      completions iter r frame.frameId arrivals ≠ [])

theorem chunkMax_pos : 0 < chunkMax := by decide

theorem piece_length_lt (index : Nat) : (frame.piece index).length < 2 ^ 16 :=
  (chunk_length_le _ _ _).trans_lt (by decide)

theorem shape_fec : frame.shape.fec = frame.fec := rfl

theorem shape_count : frame.shape.packetCount.toNat = frame.unitCount % 2 ^ 16 := by
  simp [shape, packetCount]

/-- All chunks in order are the frame. -/
theorem flatten_pieces :
    ((List.range frame.unitCount).map frame.piece).flatten = frame.frameBytes :=
  chunks_flatten chunkMax_pos frame.frameBytes

def dataPacket (index : Nat) : Packet :=
  (frame.dataHeader frame.fec (frame.fragmentAt index), frame.unit index)

def repairPacket (group r : Nat) : Packet :=
  (frame.repairHeader frame.fec (UInt8.ofNat group) (r % 2 ^ 8),
    frame.classParity frame.fec group r)

theorem decode_dataWire (index : Nat) :
    PacketHeader.decode (frame.dataWire frame.fec index) = .ok (frame.dataPacket index) :=
  PacketHeader.decode_encode _ _

theorem decode_repairWire (group r : Nat) :
    PacketHeader.decode (frame.repairWire frame.fec group r) = .ok (frame.repairPacket group r) :=
  PacketHeader.decode_encode _ _

theorem dataPacket_index {index : Nat} (h : index < 2 ^ 16) :
    (frame.dataPacket index).1.packetIndex.toNat = index := by
  simpa [dataPacket, dataHeader, fragmentAt] using h

theorem dataWire_ne {left right : Nat} (hleft : left < 2 ^ 16)
    (hright : right < 2 ^ 16) (hne : left ≠ right) :
    frame.dataWire frame.fec left ≠ frame.dataWire frame.fec right := by
  intro heq
  have hpacket := congrArg PacketHeader.decode heq
  rw [decode_dataWire, decode_dataWire] at hpacket
  have hindex := congrArg (fun packet : Packet => packet.1.packetIndex.toNat)
    (Except.ok.inj hpacket)
  simp only [dataPacket_index _ hleft, dataPacket_index _ hright] at hindex
  exact hne hindex

theorem repairWire_ne_dataWire (group r index : Nat) :
    frame.repairWire frame.fec group r ≠ frame.dataWire frame.fec index := by
  intro heq
  have hpacket := congrArg PacketHeader.decode heq
  rw [decode_dataWire, decode_repairWire] at hpacket
  have htype := congrArg (fun packet : Packet => packet.1.packetType) (Except.ok.inj hpacket)
  simp [repairPacket, dataPacket, repairHeader, dataHeader] at htype

theorem dataPacket_honest {index : Nat} (h : index < 2 ^ 16) :
    Honest frame.shape frame.piece (frame.dataPacket index) where
  fits := ⟨rfl, rfl, rfl⟩
  data := by
    intro _ _
    rw [dataPacket_index _ h]
    rfl
  repair := fun htype => by cases htype

/-- With at most 256 groups, the receiver takes a repair packet for what it is:
the one that covers its class. -/
theorem covers_repairPacket {group r : Nat} (henabled : frame.fec.isEnabled)
    (hgroup : group < 256) (hr : r < frame.fec.k)
    (hcount : frame.unitCount < 2 ^ 16) :
    (frame.repairPacket group r).1.covers frame.fec = frame.classIndices frame.fec group r := by
  obtain ⟨hk, hn⟩ : 0 < frame.fec.k ∧ 0 < frame.fec.n := by
    simpa [FecConfig.isEnabled] using henabled
  have hsmall : frame.fec.n ≤ 8 ∧ frame.fec.k ≤ 2 := by
    cases hmode : frame.mode <;> simp [fec, hmode, FecConfig.forMode,
      FecConfig.ar, FecConfig.r2, FecConfig.mode47]
  have hmax : max frame.fec.n 1 = frame.fec.n := by omega
  have hstart : (frame.repairPacket group r).1.groupStart frame.fec = group * frame.fec.n := by
    simp [PacketHeader.groupStart, repairPacket, repairHeader, hmax, Nat.mod_eq_of_lt hgroup]
  have hidx : (frame.repairPacket group r).1.repairIdx frame.fec = r := by
    have hr8 : r % 256 = r := Nat.mod_eq_of_lt (by omega)
    have hsum : (frame.fec.n + r) % 256 = frame.fec.n + r := Nat.mod_eq_of_lt (by omega)
    simp [PacketHeader.repairIdx, repairPacket, repairHeader, hr8, hsum]
  have hpackets : (frame.repairPacket group r).1.packetCount.toNat =
      frame.unitCount := by
    rw [← Nat.mod_eq_of_lt hcount, ← shape_count]
    rfl
  have hlength : min (group * frame.fec.n + frame.fec.n) frame.unitCount -
      group * frame.fec.n = min frame.fec.n (frame.unitCount - group * frame.fec.n) := by omega
  simp only [PacketHeader.covers, hstart, hidx, hpackets, hmax, hlength]
  rw [if_pos hk]
  have hnarrow : ∀ index ∈ frame.classIndices frame.fec group r, index % 2 ^ 16 = id index := by
    intro index hindex
    obtain ⟨hrange, _⟩ := List.mem_filter.mp hindex
    have := List.mem_range'_1.mp hrange
    exact Nat.mod_eq_of_lt (by omega)
  exact (List.map_congr_left hnarrow).trans (List.map_id _)

theorem repairPacket_honest {group r : Nat} (henabled : frame.fec.isEnabled)
    (hgroup : group < 256) (hr : r < frame.fec.k)
    (hcount : frame.unitCount < 2 ^ 16) :
    Honest frame.shape frame.piece (frame.repairPacket group r) where
  fits := ⟨rfl, rfl, rfl⟩
  data := fun htype => by cases htype
  repair := by
    intro _
    rw [shape_fec, frame.covers_repairPacket henabled hgroup hr hcount]
    refine ⟨maxLength (frame.groupUnits frame.fec group), rfl, ?_⟩
    intro index hindex
    exact frame.mem_classUnits_length_le frame.fec (List.mem_map_of_mem hindex)

/-! Which frames are reassembled. -/

section Received

variable {frame} {arrivals : List Arrival}

/-- The packets of the frame among the arrivals. -/
def received (frame : OutgoingFrame) (arrivals : List Arrival) : List Packet :=
  (arrivals.filterMap (Arrival.forFrame frame.frameId)).filterMap id

theorem mem_received {packet : Packet} :
    packet ∈ received frame arrivals ↔
      some packet ∈ arrivals.filterMap (Arrival.forFrame frame.frameId) := by
  simp [received]

theorem dataPacket_received {index : Nat}
    (h : Arrival.datagram (frame.dataWire frame.fec index) ∈ arrivals) :
    frame.dataPacket index ∈ received frame arrivals :=
  mem_received.mpr (Arrival.mem_forFrame.mpr ⟨_, h, frame.decode_dataWire index, rfl, rfl⟩)

theorem repairPacket_received {group r : Nat}
    (h : Arrival.datagram (frame.repairWire frame.fec group r) ∈ arrivals) :
    frame.repairPacket group r ∈ received frame arrivals :=
  mem_received.mpr (Arrival.mem_forFrame.mpr ⟨_, h, frame.decode_repairWire group r, rfl, rfl⟩)

/-- Every packet of the frame is one of its data packets or repair packets. -/
theorem received_cases (hown : frame.OnlyOwn arrivals) {packet : Packet}
    (h : some packet ∈ arrivals.filterMap (Arrival.forFrame frame.frameId)) :
    (∃ index < frame.unitCount, packet = frame.dataPacket index ∧
      Arrival.datagram (frame.dataWire frame.fec index) ∈ arrivals) ∨
    (frame.fec.isEnabled ∧ ∃ group < divCeil frame.unitCount frame.fec.n,
      ∃ r < frame.fec.k, packet = frame.repairPacket group r) := by
  obtain ⟨wire, harrival, hdecode, hid, _⟩ := Arrival.mem_forFrame.mp h
  obtain ⟨order, hwire⟩ := hown wire harrival packet hdecode hid
  rcases (frame.mem_buildFramePackets _ order wire).mp hwire with
    ⟨index, hindex, rfl⟩ | ⟨henabled, group, hgroup, _, r, hr, rfl⟩
  · rw [decode_dataWire] at hdecode
    exact Or.inl ⟨index, hindex, (Except.ok.inj hdecode).symm, harrival⟩
  · rw [decode_repairWire] at hdecode
    exact Or.inr ⟨henabled, group, hgroup, r, hr, (Except.ok.inj hdecode).symm⟩

theorem received_fits (hown : frame.OnlyOwn arrivals) :
    ∀ input ∈ arrivals.filterMap (Arrival.forFrame frame.frameId), FitsInput frame.shape input := by
  rintro _ hinput packet rfl
  rcases received_cases hown hinput with
    ⟨index, _, rfl, _⟩ | ⟨_, group, _, r, _, rfl⟩
  · exact ⟨rfl, rfl, rfl⟩
  · exact ⟨rfl, rfl, rfl⟩

section Closed

variable {r : FrameReassembler} (iter : IterOrder UInt8)
  (hclosed : r.pendingFrames.lookup frame.frameId = none)

include hclosed

theorem completions_of_closed :
    completions iter r frame.frameId arrivals =
      ((frameMachine iter).outputs none
        (arrivals.filterMap (Arrival.forFrame frame.frameId))).filterMap id := by
  rw [completions, completions_eq, hclosed]
  rfl

/-- Sufficient packets, none of them thrown away, complete the frame. -/
theorem completions_ne_nil
    (hown : frame.OnlyOwn arrivals) (hkept : frame.NotExpired arrivals)
    (h : frame.shape.Sufficient (received frame arrivals)) :
    completions iter r frame.frameId arrivals ≠ [] := by
  have hinputs : arrivals.filterMap (Arrival.forFrame frame.frameId) =
      (received frame arrivals).map some := by
    have hsome : ∀ input ∈ arrivals.filterMap (Arrival.forFrame frame.frameId),
        input.isSome := by
      intro input hinput
      obtain ⟨arrival, harrival, hfor⟩ := List.mem_filterMap.mp hinput
      cases arrival with
      | datagram wire =>
          obtain ⟨packet, -, -, -, rfl⟩ := Arrival.forFrame_datagram.mp hfor
          rfl
      | expire stale =>
          have hstale := (Arrival.forFrame_expire.mp hfor).1
          rw [hkept stale harrival] at hstale
          cases hstale
    rw [received]
    generalize arrivals.filterMap (Arrival.forFrame frame.frameId) = inputs at hsome
    induction inputs with
    | nil => rfl
    | cons input inputs ih =>
        obtain ⟨packet, rfl⟩ := Option.isSome_iff_exists.mp (hsome input List.mem_cons_self)
        have hrest := ih fun other hother => hsome other (List.mem_cons_of_mem _ hother)
        simpa using hrest
  have hlength := completions_length iter (follows_nil _) (received_fits hown)
  have hpos := Collect.handovers_pos [] sufficient_append (not_sufficient_nil frame.shape) h
  rw [completions_of_closed iter hclosed, ← List.length_pos_iff, hlength, hinputs]
  exact hpos

/-- A completed frame was made up of packets that arrived. -/
theorem sufficient_of_completions
    (hown : frame.OnlyOwn arrivals)
    (h : completions iter r frame.frameId arrivals ≠ []) :
    frame.shape.Sufficient (received frame arrivals) := by
  have hlength := completions_length iter (follows_nil _) (received_fits hown)
  rw [completions_of_closed iter hclosed, ← List.length_pos_iff, hlength] at h
  obtain ⟨before, stretch, after, hsplit, hstretch, _⟩ := Collect.first_handover h
  have hsufficient : frame.shape.Sufficient stretch := by
    simpa using hstretch.imp_right And.right
  apply hsufficient.mono
  intro packet hpacket
  rw [mem_received, hsplit]
  simp [hpacket]

end Closed

end Received

theorem mem_classIndices {fec : FecConfig} {group r index : Nat} :
    index ∈ frame.classIndices fec group r ↔
      group * fec.n ≤ index ∧ index < group * fec.n + fec.n ∧
        index < frame.unitCount ∧ (index - group * fec.n) % fec.k = r := by
  rw [classIndices, groupIndices, List.mem_filter, List.mem_range'_1, beq_iff_eq]
  omega

/-- A unit belongs to the class of its index. -/
theorem mem_own_class (fec : FecConfig) {index : Nat} (hn : 0 < fec.n)
    (h : index < frame.unitCount) :
    index ∈ frame.classIndices fec (index / fec.n) ((index - index / fec.n * fec.n) % fec.k) := by
  have hmod := Nat.mod_lt index hn
  have hdiv := Nat.div_add_mod' index fec.n
  rw [mem_classIndices]
  omega

theorem enabled_pos (henabled : frame.fec.isEnabled) : 0 < frame.fec.k ∧ 0 < frame.fec.n := by
  simpa [FecConfig.isEnabled] using henabled

/-- What can be recovered is sufficient. -/
theorem sufficient_of_recoverable {arrivals : List Arrival}
    (hpos : 0 < frame.unitCount) (hcount : frame.unitCount < 2 ^ 16)
    (hgroups : frame.fec.isEnabled → frame.unitCount ≤ 256 * frame.fec.n)
    (h : frame.Recoverable arrivals) :
    frame.shape.Sufficient (received frame arrivals) := by
  have hshape : frame.shape.packetCount.toNat = frame.unitCount := by
    rw [shape_count, Nat.mod_eq_of_lt hcount]
  have hdata : ∀ index < frame.unitCount,
      Arrival.datagram (frame.dataWire frame.fec index) ∈ arrivals →
      DataIn (received frame arrivals) index := by
    intro index hindex harrived
    exact ⟨_, dataPacket_received harrived, rfl, frame.dataPacket_index (hindex.trans hcount)⟩
  have hall : ∀ index < frame.unitCount,
      DataIn (received frame arrivals) index ∨
        frame.shape.Rescued (received frame arrivals) index := by
    intro index hindex
    by_cases harrived : Arrival.datagram (frame.dataWire frame.fec index) ∈ arrivals
    · exact Or.inl (hdata index hindex harrived)
    · right
      by_cases henabled : frame.fec.isEnabled = true
      · rw [Recoverable, if_pos henabled] at h
        obtain ⟨hk, hn⟩ := frame.enabled_pos henabled
        have hmember := frame.mem_own_class frame.fec hn hindex
        have hstart : index / frame.fec.n * frame.fec.n ≤ index :=
          Nat.div_mul_le_self index frame.fec.n
        have hgroup : index / frame.fec.n < 256 := by
          rw [Nat.div_lt_iff_lt_mul hn]
          have := hgroups henabled
          omega
        have hr := Nat.mod_lt (index - index / frame.fec.n * frame.fec.n) hk
        obtain ⟨hrepair, hothers⟩ := h _
          ((lt_divCeil hn).mpr (hstart.trans_lt hindex)) _ hr index hmember harrived
        have hcovers := frame.covers_repairPacket henabled hgroup hr hcount
        refine ⟨_, repairPacket_received hrepair, rfl, ?_, ?_⟩
        · rwa [shape_fec, hcovers]
        · intro other hother hne
          rw [shape_fec, hcovers] at hother
          exact hdata other (frame.mem_classIndices.mp hother).2.2.1 (hothers other hother hne)
      · rw [Recoverable, if_neg henabled] at h
        exact absurd (h index hindex) harrived
  refine ⟨?_, fun index hindex => hall index (by rwa [← hshape])⟩
  intro hnil
  rw [hnil] at hall
  rcases hall 0 hpos with ⟨_, hmember, _⟩ | ⟨_, hmember, _⟩ <;> cases hmember

/-- Frames within the capacity are reassembled. -/
theorem reassembles_of_fits (iter : IterOrder UInt8) (hpos : 0 < frame.unitCount)
    (hcount : frame.unitCount < 2 ^ 16)
    (hgroups : frame.fec.isEnabled → frame.unitCount ≤ 256 * frame.fec.n) :
    frame.Reassembles iter := by
  intro r arrivals hclosed hown
  constructor
  · intro bytes hbytes
    rw [completions_of_closed iter hclosed] at hbytes
    have hhonest : ∀ input ∈ arrivals.filterMap (Arrival.forFrame frame.frameId),
        HonestInput frame.shape frame.piece input := by
      rintro _ hinput packet rfl
      rcases received_cases hown hinput with
        ⟨index, hindex, rfl, _⟩ | ⟨henabled, group, hgroup, r, hr, rfl⟩
      · exact frame.dataPacket_honest (hindex.trans hcount)
      · obtain ⟨_, hn⟩ := frame.enabled_pos henabled
        have hstart := (lt_divCeil hn).mp hgroup
        have hsmall : group < 256 := by
          apply Nat.lt_of_mul_lt_mul_right (a := frame.fec.n)
          exact hstart.trans_le (hgroups henabled)
        exact frame.repairPacket_honest henabled hsmall hr hcount
    have hexact := frame_outputs_exact iter frame.piece_length_lt hhonest bytes hbytes
    rwa [shape_count, Nat.mod_eq_of_lt hcount, flatten_pieces] at hexact
  · intro hkept hrecoverable
    exact completions_ne_nil iter hclosed hown hkept
      (frame.sufficient_of_recoverable hpos hcount hgroups hrecoverable)

/-- An empty frame has no datagram that could complete it. -/
theorem not_reassembles_of_empty (iter : IterOrder UInt8)
    (h : frame.unitCount = 0) : ¬ frame.Reassembles iter := by
  intro hall
  have hown : frame.OnlyOwn [] := fun _ hmember => by cases hmember
  have hkept : frame.NotExpired [] := fun _ hmember => by cases hmember
  have hrecoverable : frame.Recoverable [] := by
    unfold Recoverable
    split
    · intro group _ r _ index hindex
      have := (frame.mem_classIndices.mp hindex).2.2.1
      omega
    · intro index hindex
      omega
  exact (hall FrameReassembler.new [] rfl hown).2 hkept hrecoverable rfl

/-- With more than 256 groups, the last group's repair packets are taken for
those of another group, so the loss of the last unit is not made good. -/
theorem not_reassembles_of_many_groups (iter : IterOrder UInt8)
    (henabled : frame.fec.isEnabled) (hcount : frame.unitCount < 2 ^ 16)
    (hgroups : 256 * frame.fec.n < frame.unitCount) : ¬ frame.Reassembles iter := by
  intro hall
  obtain ⟨hk, hn⟩ := frame.enabled_pos henabled
  -- everything arrives but the last unit
  let last := frame.unitCount - 1
  let order := IterOrder.stored UInt8
  let arrivals := ((frame.buildFramePackets frame.fec order).filter
    fun wire => wire ≠ frame.dataWire frame.fec last).map Arrival.datagram
  have hlast : last < frame.unitCount := by omega
  have harrived : ∀ wire, Arrival.datagram wire ∈ arrivals ↔
      wire ∈ frame.buildFramePackets frame.fec order ∧ wire ≠ frame.dataWire frame.fec last := by
    intro wire
    simp [arrivals]
  have hown : frame.OnlyOwn arrivals := by
    intro wire hwire _ _ _
    exact ⟨order, ((harrived wire).mp hwire).1⟩
  have hkept : frame.NotExpired arrivals := by
    intro stale hstale
    simp [arrivals] at hstale
  have hothers : ∀ index < frame.unitCount, index ≠ last →
      Arrival.datagram (frame.dataWire frame.fec index) ∈ arrivals := by
    intro index hindex hne
    rw [harrived]
    exact ⟨(frame.mem_buildFramePackets ..).mpr (Or.inl ⟨index, hindex, rfl⟩),
      frame.dataWire_ne (hindex.trans hcount) (hlast.trans hcount) hne⟩
  have hrecoverable : frame.Recoverable arrivals := by
    rw [Recoverable, if_pos henabled]
    intro group hgroup r hr index hindex hlost
    obtain ⟨hlo, hhi, hlt, _⟩ := frame.mem_classIndices.mp hindex
    have hsame : index = last := by
      by_contra hne
      exact hlost (hothers index hlt hne)
    subst hsame
    constructor
    · rw [harrived]
      refine ⟨(frame.mem_buildFramePackets ..).mpr (Or.inr ⟨henabled, group, hgroup,
        ?_, r, hr, rfl⟩), frame.repairWire_ne_dataWire _ _ _⟩
      intro later hafter hcountLater
      have hstart := (lt_divCeil hn).mp hcountLater
      have hmul : (group + 1) * frame.fec.n ≤ later * frame.fec.n := Nat.mul_le_mul_right _ hafter
      rw [Nat.add_one_mul] at hmul
      omega
    · intro other hother hne
      exact hothers other (frame.mem_classIndices.mp hother).2.2.1 hne
  have hcomplete := (hall FrameReassembler.new arrivals rfl hown).2 hkept hrecoverable
  have hsufficient := sufficient_of_completions iter rfl hown hcomplete
  have hindex : last < frame.shape.packetCount.toNat := by
    rw [shape_count, Nat.mod_eq_of_lt hcount]
    exact hlast
  rcases hsufficient.2 last hindex with
    ⟨packet, hpacket, hvideo, hnumber⟩ | ⟨packet, hpacket, hrepair, hcovers, _⟩
  · rcases received_cases hown (mem_received.mp hpacket) with
      ⟨index, hlt, rfl, hwire⟩ | ⟨_, group, _, r, _, rfl⟩
    · rw [dataPacket_index _ (hlt.trans hcount)] at hnumber
      rw [hnumber] at hwire
      exact ((harrived _).mp hwire).2 rfl
    · cases hvideo
  · -- a group number of eight bits lies below the last unit's group
    obtain ⟨_, _, hhi, _⟩ := mem_covers.mp hcovers
    have hgroup := packet.1.fecGroup.toNat_lt
    rw [shape_fec, PacketHeader.groupStart] at hhi
    have hmax : max frame.fec.n 1 = frame.fec.n := by omega
    rw [hmax] at hhi
    have hmul : (packet.1.fecGroup.toNat + 1) * frame.fec.n ≤ 256 * frame.fec.n :=
      Nat.mul_le_mul_right _ hgroup
    rw [Nat.add_one_mul] at hmul
    omega

/-- With 65536 units or more the narrowed count is too small, and the first
units alone complete the frame. -/
theorem not_reassembles_of_many_units (iter : IterOrder UInt8)
    (hcount : 2 ^ 16 ≤ frame.unitCount) : ¬ frame.Reassembles iter := by
  intro hall
  let count := frame.unitCount % 2 ^ 16
  have hsmall : count < 2 ^ 16 := Nat.mod_lt _ (by decide)
  let arrivals := (0 :: List.range count).map fun index =>
    Arrival.datagram (frame.dataWire frame.fec index)
  have harrived : ∀ wire, Arrival.datagram wire ∈ arrivals →
      ∃ index < 2 ^ 16, wire = frame.dataWire frame.fec index := by
    intro wire hwire
    obtain ⟨index, hindex, heq⟩ := List.mem_map.mp hwire
    refine ⟨index, ?_, (Arrival.datagram.inj heq).symm⟩
    rcases List.mem_cons.mp hindex with rfl | hindex
    · decide
    · exact (List.mem_range.mp hindex).trans hsmall
  have hown : frame.OnlyOwn arrivals := by
    intro wire hwire _ _ _
    obtain ⟨index, hindex, rfl⟩ := harrived wire hwire
    exact ⟨IterOrder.stored _, (frame.mem_buildFramePackets ..).mpr
      (Or.inl ⟨index, hindex.trans_le hcount, rfl⟩)⟩
  have hkept : frame.NotExpired arrivals := by
    intro stale hstale
    simp [arrivals] at hstale
  have hhonest : ∀ input ∈ arrivals.filterMap (Arrival.forFrame frame.frameId),
      HonestInput frame.shape frame.piece input := by
    rintro _ hinput packet rfl
    obtain ⟨wire, hwire, hdecode, _⟩ := Arrival.mem_forFrame.mp hinput
    obtain ⟨index, hindex, rfl⟩ := harrived wire hwire
    rw [decode_dataWire] at hdecode
    rw [← Except.ok.inj hdecode]
    exact frame.dataPacket_honest hindex
  have hsufficient : frame.shape.Sufficient (received frame arrivals) := by
    constructor
    · have hfirst : frame.dataPacket 0 ∈ received frame arrivals :=
        dataPacket_received (by simp [arrivals])
      exact List.ne_nil_of_mem hfirst
    · intro index hindex
      rw [shape_count] at hindex
      have hmember : Arrival.datagram (frame.dataWire frame.fec index) ∈ arrivals := by
        simp only [arrivals, List.mem_map, List.mem_cons, List.mem_range]
        exact ⟨index, Or.inr hindex, rfl⟩
      exact Or.inl ⟨_, dataPacket_received hmember, rfl,
        frame.dataPacket_index (hindex.trans hsmall)⟩
  have hcomplete := completions_ne_nil iter (r := FrameReassembler.new) rfl hown hkept hsufficient
  obtain ⟨bytes, hbytes⟩ := List.exists_mem_of_ne_nil _ hcomplete
  have hframe := (hall FrameReassembler.new arrivals rfl hown).1 bytes hbytes
  rw [completions_of_closed iter rfl] at hbytes
  have hpieces := frame_outputs_exact iter frame.piece_length_lt hhonest bytes hbytes
  -- the first units are shorter than the frame
  have hshort : count * chunkMax < frame.frameBytes.length :=
    (lt_divCeil chunkMax_pos).mp (hsmall.trans_le hcount)
  have hprefix : bytes = frame.frameBytes.take (count * chunkMax) := by
    rw [hpieces, shape_count]
    exact flatten_map_chunk chunkMax frame.frameBytes count
  rw [hframe] at hprefix
  have hlength := congrArg List.length hprefix
  rw [List.length_take] at hlength
  omega

/-- A frame is reassembled exactly, from any sufficient part of its datagrams,
when it is not empty and within the capacity of its mode, and only then. -/
theorem reassembles_iff (iter : IterOrder UInt8) :
    frame.Reassembles iter ↔ 0 < frame.unitCount ∧ frame.unitCount ≤ frame.mode.unitCapacity := by
  constructor
  · intro hall
    constructor
    · by_contra hempty
      exact frame.not_reassembles_of_empty iter (by omega) hall
    · by_contra hlarge
      rcases Nat.lt_or_ge frame.unitCount (2 ^ 16) with hcount | hcount
      · cases hmode : frame.mode with
        | ar =>
            apply frame.not_reassembles_of_many_groups iter _ hcount _ hall
            · simp [fec, hmode, FecConfig.forMode, FecConfig.isEnabled, FecConfig.ar]
            · simpa [fec, hmode, FecConfig.forMode, Mode.unitCapacity] using hlarge
        | r2 =>
            apply frame.not_reassembles_of_many_groups iter _ hcount _ hall
            · simp [fec, hmode, FecConfig.forMode, FecConfig.isEnabled, FecConfig.r2]
            · simpa [fec, hmode, FecConfig.forMode, Mode.unitCapacity] using hlarge
        | mode47 =>
            simp only [hmode, Mode.unitCapacity] at hlarge
            omega
      · exact frame.not_reassembles_of_many_units iter hcount hall
  · rintro ⟨hpos, hcapacity⟩
    cases hmode : frame.mode with
    | ar =>
        simp only [hmode, Mode.unitCapacity, FecConfig.ar] at hcapacity
        apply frame.reassembles_of_fits iter hpos (by omega)
        simp only [fec, hmode, FecConfig.forMode, FecConfig.ar]
        omega
    | r2 =>
        simp only [hmode, Mode.unitCapacity, FecConfig.r2] at hcapacity
        apply frame.reassembles_of_fits iter hpos (by omega)
        simp only [fec, hmode, FecConfig.forMode, FecConfig.r2]
        omega
    | mode47 =>
        simp only [hmode, Mode.unitCapacity] at hcapacity
        apply frame.reassembles_of_fits iter hpos (by omega)
        simp [fec, hmode, FecConfig.forMode, FecConfig.isEnabled, FecConfig.mode47]

end OutgoingFrame

/-- A static picture of 1537 units, the last of one byte. -/
def largeFrame : OutgoingFrame where
  frameBytes := List.replicate (1366 * 1536 + 1) 0
  frameId := 1
  mode := .ar
  isKeyframe := true
  isSilicon := false
  isH265 := false
  presentationTimeUs := 0
  visibleRegionByteRanges := []

theorem largeFrame_not_reassembled :
    ¬ ∀ (iter : IterOrder UInt8) (frame : OutgoingFrame), frame.Reassembles iter := by
  intro hall
  have hcount : largeFrame.unitCount = 1537 := by
    rw [OutgoingFrame.unitCount, largeFrame, List.length_replicate]
    rfl
  apply largeFrame.not_reassembles_of_many_groups (IterOrder.stored _) _ _ _
    (hall (IterOrder.stored _) largeFrame)
  · rfl
  · rw [hcount]
    decide
  · rw [hcount]
    decide

end EvertyDesk.Evrt2
