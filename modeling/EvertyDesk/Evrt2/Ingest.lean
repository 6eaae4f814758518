import EvertyDesk.Evrt2.Recovery
import EvertyDesk.Lib.Checked

/-!
Taking in a datagram, with the checks of every index. The tables of a frame are
as long as the first packet of the frame says, while each repair packet lists
what it covers by its own packet count.
-/

namespace EvertyDesk.Evrt2

/-! The operations of the reassembler that index a table. -/

/-- Those of the indices at which there is no unit. -/
def missingFrom (data : Slots) : List Nat → Checked (List Nat)
  | [] => return []
  | i :: rest => do
      let unit ← Checked.index data i
      let later ← missingFrom data rest
      return if unit.isNone then i :: later else later

def takeOutChecked (data : Slots) (acc : List UInt8) (i : Nat) : Checked (List UInt8) := do
  match ← Checked.index data i with
  | some pkt => return xorInto acc pkt
  | none => return acc

def RepairPacket.restoreChecked (repair : RepairPacket) (data : Slots)
    (dataLens : List Nat) (target : Nat) : Checked (List UInt8) := do
  let others := repair.covers.filter fun i => i ≠ target
  let acc ← others.foldlM (takeOutChecked data) repair.xorPayload
  let known ← Checked.index dataLens target
  return acc.take (min known acc.length)

def recoverStepChecked (dataLens : List Nat) (state : Slots × Bool)
    (repair : RepairPacket) : Checked (Slots × Bool) := do
  match ← missingFrom state.1 repair.covers with
  | [target] => do
      let acc ← repair.restoreChecked state.1 dataLens target
      let data ← Checked.replace state.1 target (some acc)
      return (data, true)
  | _ => return state

def recoverPassChecked (dataLens : List Nat) (repairs : List RepairPacket)
    (data : Slots) : Checked (Slots × Bool) :=
  repairs.foldlM (recoverStepChecked dataLens) (data, false)

def recoverLoopChecked (dataLens : List Nat) (repairs : List RepairPacket) :
    Nat → Slots → Checked Slots
  | 0, data => return data
  | fuel + 1, data => do
      let (next, progressed) ← recoverPassChecked dataLens repairs data
      if progressed then recoverLoopChecked dataLens repairs fuel next else return next

def recoverChecked (data : Slots) (dataLens : List Nat) (repairs : List RepairPacket) :
    Checked Slots :=
  recoverLoopChecked dataLens repairs (lost data + 1) data

namespace PendingFrame

def noteGroupPaddedLenChecked (entry : PendingFrame) (packetIndex len : Nat) :
    Checked PendingFrame := do
  let n := max entry.fecN 1
  let groupIdx := packetIndex / n
  let start := groupIdx * n
  let stop := min (start + n) entry.data.length
  let _slots ← Checked.slice entry.dataLens start stop
  return entry.noteGroupPaddedLen packetIndex len

def storeDataChecked (entry : PendingFrame) (header : PacketHeader)
    (payload : List UInt8) : Checked PendingFrame := do
  let idx := header.packetIndex.toNat
  if idx < entry.data.length then do
    let unit ← Checked.index entry.data idx
    if unit.isNone then do
      let noted ← entry.noteGroupPaddedLenChecked idx payload.length
      let data ← Checked.replace noted.data idx (some payload)
      return { noted with data := data }
    else return entry
  else return entry

def storeRepairChecked (entry : PendingFrame) (fec : FecConfig) (header : PacketHeader)
    (payload : List UInt8) : Checked PendingFrame := do
  let groupStart := header.groupStart fec
  let noted ← if groupStart < entry.data.length then
      entry.noteGroupPaddedLenChecked groupStart payload.length
    else pure entry
  return { noted with
    repairsByGroup := noted.repairsByGroup.insert header.fecGroup
      ((noted.repairsByGroup.lookup header.fecGroup).getD [] ++ [header.repairPacket fec payload]) }

def storeChecked (entry : PendingFrame) (header : PacketHeader) (payload : List UInt8) :
    Checked (Option PendingFrame) :=
  match header.packetType with
  | .videoFrame => some <$> entry.storeDataChecked header payload
  | .fecRepair =>
      some <$> entry.storeRepairChecked (FecConfig.forMode header.mode) header payload
  | _ => return none

def tryRecoverChecked (iter : IterOrder UInt8) (entry : PendingFrame) : Checked PendingFrame := do
  let data ← (iter.order entry.repairsByGroup.keys).foldlM
    (fun data groupIdx => recoverChecked data entry.dataLens
      ((entry.repairsByGroup.lookup groupIdx).getD [])) entry.data
  return { entry with data := data }

def settleChecked (iter : IterOrder UInt8) (entry : PendingFrame) : Checked PendingFrame :=
  if entry.isComplete then return entry else entry.tryRecoverChecked iter

end PendingFrame

namespace FrameReassembler

def ingestChecked (iter : IterOrder UInt8) (r : FrameReassembler) (header : PacketHeader)
    (payload : List UInt8) : Checked (FrameReassembler × IngestResult) := do
  match ← (r.entry header).storeChecked header payload with
  | none => return (r, .pending)
  | some stored => do
      let entry ← stored.settleChecked iter
      if entry.isComplete then
        return ({ pendingFrames := r.pendingFrames.erase header.frameId },
          .frameComplete header.frameId (entry.reassemble.getD []))
      else
        return ({ pendingFrames := r.pendingFrames.insert header.frameId entry }, .pending)

def receiveChecked (iter : IterOrder UInt8) (r : FrameReassembler) :
    Arrival → Checked (FrameReassembler × IngestResult)
  | .datagram wire =>
      match PacketHeader.decode wire with
      | .ok (header, payload) => r.ingestChecked iter header payload
      | .error _ => return (r, .pending)
  | .expire stale => return ((r.expireStale stale).1, .pending)

/-- A receiver whose thread stops at a panic. -/
def checkedMachine (iter : IterOrder UInt8) :
    Machine FrameReassembler Arrival (Checked IngestResult) where
  step r arrival :=
    match r.receiveChecked iter arrival with
    | .ok (next, result) => (next, .ok result)
    | .error panic => (r, .error panic)

end FrameReassembler

/-! In bounds, the checks make no difference. -/

section Recover

variable {data : Slots} {dataLens : List Nat} {repair : RepairPacket} {repairs : List RepairPacket}

theorem missingFrom_ok {indices : List Nat} (h : ∀ i ∈ indices, i < data.length) :
    missingFrom data indices = .ok (indices.filter fun i => (slot data i).isNone) := by
  induction indices with
  | nil => rfl
  | cons i indices ih =>
      have hi := h i List.mem_cons_self
      have hrest := ih fun j hj => h j (List.mem_cons_of_mem _ hj)
      unfold missingFrom
      rw [Checked.bind_ok (Checked.index_ok hi), Checked.bind_ok hrest,
        List.filter_cons, slot_eq_getElem hi]
      rfl

theorem restoreChecked_ok {target : Nat} (hcovers : ∀ i ∈ repair.covers, i < data.length)
    (htarget : target < dataLens.length) :
    repair.restoreChecked data dataLens target = .ok (repair.restore data dataLens target) := by
  have htaken : ∀ acc, ∀ i ∈ repair.covers.filter fun i => i ≠ target,
      takeOutChecked data acc i = .ok (takeOut data acc i) := by
    intro acc i hi
    have hlt := hcovers i (List.mem_filter.mp hi).1
    unfold takeOutChecked takeOut
    rw [Checked.bind_ok (Checked.index_ok hlt), slot_eq_getElem hlt]
    cases data[i] <;> rfl
  have hothers := Checked.foldlM_ok (I := fun _ => True)
    (fun acc _ i hi => ⟨htaken acc i hi, trivial⟩) (s := repair.xorPayload) trivial
  have hknown : Checked.index dataLens target = .ok (dataLens.getD target 0) := by
    rw [Checked.index_ok htarget, List.getD_eq_getElem?_getD,
      List.getElem?_eq_getElem htarget, Option.getD_some]
  unfold RepairPacket.restoreChecked
  rw [Checked.bind_ok hothers.1, Checked.bind_ok hknown]
  rfl

theorem recoverStepChecked_ok {state : Slots × Bool}
    (hcovers : ∀ i ∈ repair.covers, i < state.1.length)
    (hlens : dataLens.length = state.1.length) :
    recoverStepChecked dataLens state repair = .ok (recoverStep dataLens state repair) := by
  have hmissing : missingFrom state.1 repair.covers = .ok (repair.missing state.1) :=
    missingFrom_ok hcovers
  unfold recoverStepChecked
  rw [Checked.bind_ok hmissing]
  obtain ⟨target, honly, heq⟩ | ⟨hnot, heq⟩ := recoverStep_cases dataLens state repair
  · have hcovered : target ∈ repair.covers :=
      (RepairPacket.mem_missing.mp (honly ▸ List.mem_singleton_self _)).1
    have hlt := hcovers target hcovered
    rw [heq, honly]
    dsimp only
    rw [Checked.bind_ok (restoreChecked_ok hcovers (hlens ▸ hlt)),
      Checked.bind_ok (Checked.replace_ok hlt)]
    rfl
  · rw [heq]
    split
    next target honly => exact absurd honly (hnot target)
    · rfl

theorem recoverStep_length (dataLens : List Nat) (state : Slots × Bool) (repair : RepairPacket) :
    (recoverStep dataLens state repair).1.length = state.1.length := by
  obtain ⟨_, _, heq⟩ | ⟨_, heq⟩ := recoverStep_cases dataLens state repair
  · rw [heq, List.length_set]
  · rw [heq]

theorem recoverPassChecked_ok
    (hcovers : ∀ repair ∈ repairs, ∀ i ∈ repair.covers, i < data.length)
    (hlens : dataLens.length = data.length) :
    recoverPassChecked dataLens repairs data = .ok (recoverPass dataLens repairs data) ∧
      (recoverPass dataLens repairs data).1.length = data.length :=
  Checked.foldlM_ok (I := fun state : Slots × Bool => state.1.length = data.length)
    (fun state hstate repair hrepair =>
      ⟨recoverStepChecked_ok (hstate ▸ hcovers repair hrepair) (hlens.trans hstate.symm),
        (recoverStep_length dataLens state repair).trans hstate⟩) rfl

theorem recoverChecked_ok
    (hcovers : ∀ repair ∈ repairs, ∀ i ∈ repair.covers, i < data.length)
    (hlens : dataLens.length = data.length) :
    recoverChecked data dataLens repairs = .ok (recover data dataLens repairs) := by
  have hloop : ∀ (fuel : Nat) (units : Slots), units.length = data.length →
      recoverLoopChecked dataLens repairs fuel units =
        .ok (recoverLoop dataLens repairs fuel units) := by
    intro fuel
    induction fuel with
    | zero => exact fun _ _ => rfl
    | succ fuel ih =>
        intro units hunits
        obtain ⟨hpass, hlength⟩ := recoverPassChecked_ok (hunits ▸ hcovers)
          (hlens.trans hunits.symm)
        unfold recoverLoopChecked recoverLoop
        rw [Checked.bind_ok hpass]
        dsimp only
        split
        · exact ih _ (hlength.trans hunits)
        · rfl
  exact hloop _ data rfl

end Recover

/-- Everything that is kept of a frame stays within its tables. -/
structure PendingFrame.InBounds (entry : PendingFrame) : Prop where
  lens : entry.dataLens.length = entry.data.length
  covers : ∀ group, ∀ repair ∈ (entry.repairsByGroup.lookup group).getD [],
    ∀ i ∈ repair.covers, i < entry.data.length

/-- What a packet covers is within the tables of the frame it belongs to. -/
def PendingFrame.Covers (entry : PendingFrame) (header : PacketHeader) : Prop :=
  header.packetType = .fecRepair →
    ∀ i ∈ header.covers (FecConfig.forMode header.mode), i < entry.data.length

section Entries

variable {entry stored : PendingFrame} {header : PacketHeader} {payload : List UInt8}

theorem inBounds_new (packetCount fecN : Nat) : (PendingFrame.new packetCount fecN).InBounds where
  lens := List.length_replicate.trans List.length_replicate.symm
  covers := by simp [PendingFrame.new]

theorem noteGroupPaddedLen_lens (entry : PendingFrame) (packetIndex len : Nat) :
    (entry.noteGroupPaddedLen packetIndex len).dataLens.length =
      entry.dataLens.length := List.length_mapIdx

theorem noteGroupPaddedLenChecked_ok (h : entry.InBounds) {packetIndex : Nat}
    (hindex : packetIndex < entry.data.length) (len : Nat) :
    entry.noteGroupPaddedLenChecked packetIndex len =
      .ok (entry.noteGroupPaddedLen packetIndex len) := by
  have hstart : packetIndex / max entry.fecN 1 * max entry.fecN 1 ≤ packetIndex :=
    Nat.div_mul_le_self _ _
  have hslice : Checked.slice entry.dataLens
      (packetIndex / max entry.fecN 1 * max entry.fecN 1)
      (min (packetIndex / max entry.fecN 1 * max entry.fecN 1 + max entry.fecN 1)
        entry.data.length) = .ok _ :=
    Checked.slice_ok (by omega) (by rw [h.lens]; omega)
  unfold PendingFrame.noteGroupPaddedLenChecked
  dsimp only
  rw [Checked.bind_ok hslice]
  rfl

theorem storeDataChecked_ok (h : entry.InBounds) (header : PacketHeader) (payload : List UInt8) :
    entry.storeDataChecked header payload = .ok (entry.storeData header payload) := by
  unfold PendingFrame.storeDataChecked
  obtain ⟨hlt, hnone, heq⟩ | ⟨htaken, heq⟩ := storeData_cases entry header payload
  · have hunit := Checked.index_ok hlt
    rw [← slot_eq_getElem hlt, hnone] at hunit
    have hfree : header.packetIndex.toNat <
        (entry.noteGroupPaddedLen header.packetIndex.toNat payload.length).data.length := hlt
    rw [heq]
    dsimp only
    rw [if_pos hlt, Checked.bind_ok hunit, if_pos Option.isNone_none,
      Checked.bind_ok (noteGroupPaddedLenChecked_ok h hlt _),
      Checked.bind_ok (Checked.replace_ok hfree)]
    rfl
  · rw [heq]
    dsimp only
    split
    next hlt =>
      rw [Checked.bind_ok (Checked.index_ok hlt), ← slot_eq_getElem hlt, if_neg (by
        rw [Option.isNone_iff_eq_none]
        exact fun hnone => htaken ⟨hlt, hnone⟩)]
      rfl
    · rfl

theorem storeRepairChecked_ok (h : entry.InBounds) (fec : FecConfig)
    (header : PacketHeader) (payload : List UInt8) :
    entry.storeRepairChecked fec header payload = .ok (entry.storeRepair fec header payload) := by
  unfold PendingFrame.storeRepairChecked PendingFrame.storeRepair
  dsimp only
  split
  next hlt =>
    rw [Checked.bind_ok (noteGroupPaddedLenChecked_ok h hlt _)]
    rfl
  · rfl

theorem storeChecked_ok (h : entry.InBounds) (header : PacketHeader) (payload : List UInt8) :
    entry.storeChecked header payload = .ok (entry.store header payload) := by
  unfold PendingFrame.storeChecked PendingFrame.store
  rw [storeDataChecked_ok h, storeRepairChecked_ok h]
  cases header.packetType <;> rfl

/-- What a packet that is stored leaves of the frame it belongs to. -/
theorem store_cases (hstore : entry.store header payload = some stored) :
    (header.packetType = .videoFrame ∧ stored = entry.storeData header payload) ∨
      (header.packetType = .fecRepair ∧
        stored = entry.storeRepair (FecConfig.forMode header.mode) header payload) := by
  unfold PendingFrame.store at hstore
  split at hstore
  next htype => exact Or.inl ⟨htype, (Option.some.inj hstore).symm⟩
  next htype => exact Or.inr ⟨htype, (Option.some.inj hstore).symm⟩
  · cases hstore

theorem inBounds_store (h : entry.InBounds) (hcovers : entry.Covers header)
    (hstore : entry.store header payload = some stored) :
    stored.InBounds ∧ stored.data.length = entry.data.length := by
  obtain ⟨htype, rfl⟩ | ⟨htype, rfl⟩ := store_cases hstore
  · have hlength := storeData_length entry header payload
    refine ⟨⟨?_, ?_⟩, hlength⟩
    · rw [hlength, ← h.lens]
      obtain ⟨_, _, heq⟩ | ⟨_, heq⟩ := storeData_cases entry header payload
      · rw [heq]
        exact noteGroupPaddedLen_lens ..
      · rw [heq]
    · rw [hlength, storeData_repairsByGroup]
      exact h.covers
  · have hdata := storeRepair_data entry header payload (FecConfig.forMode header.mode)
    refine ⟨⟨?_, ?_⟩, congrArg List.length hdata⟩
    · rw [hdata, ← h.lens]
      unfold PendingFrame.storeRepair
      dsimp only
      split
      · exact noteGroupPaddedLen_lens ..
      · rfl
    · rw [hdata]
      intro group repair hrepair
      rcases (mem_storeRepair_repairs ..).mp hrepair with hkept | ⟨_, rfl⟩
      · exact h.covers group repair hkept
      · exact hcovers htype

theorem tryRecover_length (iter : IterOrder UInt8) (entry : PendingFrame) :
    (entry.tryRecover iter).data.length = entry.data.length := by
  apply tryRecover_invariant (I := fun data => data.length = entry.data.length)
  · intro data group repair target _ hlength _
    rw [List.length_set, hlength]
  · rfl

theorem tryRecoverChecked_ok (iter : IterOrder UInt8) (h : entry.InBounds) :
    entry.tryRecoverChecked iter = .ok (entry.tryRecover iter) := by
  have hgroup : ∀ data : Slots, data.length = entry.data.length →
      ∀ group ∈ iter.order entry.repairsByGroup.keys,
      recoverChecked data entry.dataLens ((entry.repairsByGroup.lookup group).getD []) =
        .ok (recover data entry.dataLens ((entry.repairsByGroup.lookup group).getD [])) ∧
      (recover data entry.dataLens
        ((entry.repairsByGroup.lookup group).getD [])).length = entry.data.length :=
    fun data hdata group _ =>
      ⟨recoverChecked_ok (hdata ▸ h.covers group) (h.lens.trans hdata.symm),
        (recover_length data entry.dataLens _).trans hdata⟩
  have hgroups := Checked.foldlM_ok hgroup rfl
  unfold PendingFrame.tryRecoverChecked PendingFrame.tryRecover
  rw [Checked.bind_ok hgroups.1]
  rfl

theorem settleChecked_ok (iter : IterOrder UInt8) (h : entry.InBounds) :
    entry.settleChecked iter = .ok (entry.settle iter) := by
  unfold PendingFrame.settleChecked PendingFrame.settle
  split
  · rfl
  · exact tryRecoverChecked_ok iter h

theorem inBounds_settle (iter : IterOrder UInt8) (h : entry.InBounds) :
    (entry.settle iter).InBounds := by
  unfold PendingFrame.settle
  split
  · exact h
  · exact ⟨h.lens.trans (tryRecover_length iter entry).symm,
      by rw [tryRecover_length]; exact h.covers⟩

end Entries

/-! Bytes of a frame. -/

/-- There is a byte in what is kept of the frame. -/
def PendingFrame.HoldsBytes (entry : PendingFrame) : Prop :=
  (∃ index unit, slot entry.data index = some unit ∧ unit ≠ []) ∨
    ∃ group, ∃ repair ∈ (entry.repairsByGroup.lookup group).getD [], repair.xorPayload ≠ []

/-- A unit that is not there, that the packet does not bring, and that no repair
packet covers. -/
def PendingFrame.Lacks (entry : PendingFrame) (header : PacketHeader) : Prop :=
  ∃ index < entry.data.length, slot entry.data index = none ∧
    (header.packetType = .videoFrame → header.packetIndex.toNat ≠ index) ∧
    (header.packetType = .fecRepair → index ∉ header.covers (FecConfig.forMode header.mode)) ∧
    ∀ group, ∀ repair ∈ (entry.repairsByGroup.lookup group).getD [], index ∉ repair.covers

section Bytes

variable {entry stored : PendingFrame} {header : PacketHeader} {payload : List UInt8}

theorem not_holdsBytes_new (packetCount fecN : Nat) :
    ¬ (PendingFrame.new packetCount fecN).HoldsBytes := by
  rintro (⟨index, unit, hunit, _⟩ | ⟨group, repair, hrepair, _⟩)
  · rw [PendingFrame.new, slot_replicate] at hunit
    cases hunit
  · simp [PendingFrame.new] at hrepair

theorem holdsBytes_store (hstore : entry.store header payload = some stored)
    (h : stored.HoldsBytes) : payload ≠ [] ∨ entry.HoldsBytes := by
  obtain ⟨_, rfl⟩ | ⟨_, rfl⟩ := store_cases hstore
  · rcases h with ⟨index, unit, hunit, hsome⟩ | ⟨group, repair, hrepair, hsome⟩
    · rw [slot_storeData] at hunit
      split at hunit
      · cases hunit
        exact Or.inl hsome
      · exact Or.inr (Or.inl ⟨index, unit, hunit, hsome⟩)
    · rw [storeData_repairsByGroup] at hrepair
      exact Or.inr (Or.inr ⟨group, repair, hrepair, hsome⟩)
  · rcases h with ⟨index, unit, hunit, hsome⟩ | ⟨group, repair, hrepair, hsome⟩
    · rw [storeRepair_data] at hunit
      exact Or.inr (Or.inl ⟨index, unit, hunit, hsome⟩)
    · rcases (mem_storeRepair_repairs ..).mp hrepair with hkept | ⟨_, rfl⟩
      · exact Or.inr (Or.inr ⟨group, repair, hkept, hsome⟩)
      · exact Or.inl hsome

theorem restore_length_le (repair : RepairPacket) (data : Slots) (dataLens : List Nat)
    (target : Nat) :
    (repair.restore data dataLens target).length ≤ repair.xorPayload.length := by
  have hfold : ∀ (others : List Nat) (acc : List UInt8),
      (others.foldl (takeOut data) acc).length = acc.length := by
    intro others
    induction others with
    | nil => exact fun _ => rfl
    | cons i others ih =>
        intro acc
        rw [List.foldl_cons, ih, takeOut]
        split
        · exact xorInto_length ..
        · rfl
  unfold RepairPacket.restore
  dsimp only
  rw [List.length_take, hfold]
  omega

/-- Recovery makes bytes of bytes. -/
theorem holdsBytes_settle (iter : IterOrder UInt8) (h : (entry.settle iter).HoldsBytes) :
    entry.HoldsBytes := by
  unfold PendingFrame.settle at h
  split at h
  · exact h
  · rcases h with ⟨index, unit, hunit, hsome⟩ | hrepair
    · have hall : ∀ index unit, slot (entry.tryRecover iter).data index = some unit →
          unit ≠ [] → entry.HoldsBytes := by
        apply tryRecover_invariant (I := fun data => ∀ index unit,
          slot data index = some unit → unit ≠ [] → entry.HoldsBytes)
        · intro data group repair target hrepair hdata _ index unit hunit hsome
          rw [slot_set] at hunit
          split at hunit
          · cases hunit
            refine Or.inr ⟨group, repair, hrepair, fun hnone => hsome ?_⟩
            have hle := restore_length_le repair data entry.dataLens target
            rw [hnone, List.length_nil] at hle
            exact List.eq_nil_of_length_eq_zero (Nat.le_zero.mp hle)
          · exact hdata index unit hunit hsome
        · exact fun index unit hunit hsome => Or.inl ⟨index, unit, hunit, hsome⟩
      exact hall index unit hunit hsome
    · exact Or.inr hrepair

/-- A frame that lacks a unit does not complete. -/
theorem incomplete_of_lacks (iter : IterOrder UInt8) (h : entry.Lacks header)
    (hstore : entry.store header payload = some stored) :
    (stored.settle iter).isComplete = false := by
  obtain ⟨index, hlt, hnone, hdata, hrepair, huncovered⟩ := h
  have hstored : slot stored.data index = none ∧ index < stored.data.length ∧
      ∀ group, ∀ repair ∈ (stored.repairsByGroup.lookup group).getD [], index ∉ repair.covers := by
    obtain ⟨htype, rfl⟩ | ⟨htype, rfl⟩ := store_cases hstore
    · refine ⟨?_, ?_, ?_⟩
      · rw [slot_storeData, if_neg fun h => hdata htype h.1.symm, hnone]
      · rwa [storeData_length]
      · rwa [storeData_repairsByGroup]
    · refine ⟨?_, ?_, ?_⟩
      · rwa [storeRepair_data]
      · rwa [storeRepair_data]
      · intro group repair hmember
        rcases (mem_storeRepair_repairs ..).mp hmember with hkept | ⟨_, rfl⟩
        · exact huncovered group repair hkept
        · exact hrepair htype
  obtain ⟨hnone, hlt, huncovered⟩ := hstored
  have hsettled : slot (stored.settle iter).data index = none ∧
      index < (stored.settle iter).data.length := by
    unfold PendingFrame.settle
    split
    · exact ⟨hnone, hlt⟩
    · refine ⟨?_, (tryRecover_length iter stored).symm ▸ hlt⟩
      apply tryRecover_invariant (I := fun data => slot data index = none)
      · intro data group repair target hrepair hdata hmissing
        have hcovered := (RepairPacket.mem_missing.mp (hmissing ▸ List.mem_singleton_self target)).1
        have hne : target ≠ index := fun hsame =>
          huncovered group repair hrepair (hsame ▸ hcovered)
        rwa [slot_set_ne hne]
      · exact hnone
  apply Bool.eq_false_iff.mpr
  intro hcomplete
  have hsome := (all_isSome_iff _).mp hcomplete index hsettled.2
  rw [hsettled.1] at hsome
  cases hsome

end Bytes

/-! Runs. -/

/-- A frame packet is sensible if it covers nothing beyond the tables of its
frame, and if the frame has a byte to be completed with or cannot complete. -/
def FrameReassembler.Sensible (r : FrameReassembler) (header : PacketHeader)
    (payload : List UInt8) : Prop :=
  header.isFramePacket = true → (r.entry header).Covers header ∧
    (payload ≠ [] ∨ (r.entry header).HoldsBytes ∨ (r.entry header).Lacks header)

def Arrival.Sensible (r : FrameReassembler) : Arrival → Prop
  | .datagram wire => ∀ header payload,
      PacketHeader.decode wire = .ok (header, payload) → r.Sensible header payload
  | .expire _ => True

/-- A data or repair packet of the frame arrived that has a byte in it. -/
def CarriedBytes (id : UInt32) (arrivals : List Arrival) : Prop :=
  ∃ wire header payload, Arrival.datagram wire ∈ arrivals ∧
    PacketHeader.decode wire = .ok (header, payload) ∧ header.frameId = id ∧
    header.isFramePacket = true ∧ payload ≠ []

/-- The arrival is taken in without a panic, and completes no frame of which
there were no bytes. -/
def TakenIn (iter : IterOrder UInt8) (r : FrameReassembler) (before : List Arrival)
    (arrival : Arrival) : Prop :=
  ∃ next result, r.receiveChecked iter arrival = .ok (next, result) ∧
    ∀ id bytes, result = .frameComplete id bytes → CarriedBytes id (before ++ [arrival])

/-- What holds of the partial frames after these arrivals. -/
def FrameReassembler.Kept (r : FrameReassembler) (arrivals : List Arrival) : Prop :=
  ∀ id entry, r.pendingFrames.lookup id = some entry →
    entry.InBounds ∧ (entry.HoldsBytes → CarriedBytes id arrivals)

section Runs

variable {iter : IterOrder UInt8} {r : FrameReassembler} {before : List Arrival}

theorem CarriedBytes.mono {id : UInt32} (h : CarriedBytes id before) (arrival : Arrival) :
    CarriedBytes id (before ++ [arrival]) := by
  obtain ⟨wire, header, payload, hmember, hrest⟩ := h
  exact ⟨wire, header, payload, List.mem_append_left _ hmember, hrest⟩

theorem entry_kept (h : r.Kept before) (header : PacketHeader) :
    (r.entry header).InBounds ∧
      ((r.entry header).HoldsBytes → CarriedBytes header.frameId before) := by
  unfold FrameReassembler.entry
  cases hentry : r.pendingFrames.lookup header.frameId with
  | none => exact ⟨inBounds_new _ _, fun hbytes => absurd hbytes (not_holdsBytes_new _ _)⟩
  | some entry => exact h header.frameId entry hentry

theorem isFramePacket_of_store {entry stored : PendingFrame} {header : PacketHeader}
    {payload : List UInt8} (hstore : entry.store header payload = some stored) :
    header.isFramePacket = true := by
  obtain ⟨htype, _⟩ | ⟨htype, _⟩ := store_cases hstore <;>
    rw [PacketHeader.isFramePacket, htype] <;> rfl

/-- A sensible packet is taken in, and what is kept is still as it should be. -/
theorem ingestChecked_kept {wire payload : List UInt8} {header : PacketHeader}
    (h : r.Kept before) (hdecode : PacketHeader.decode wire = .ok (header, payload))
    (hsensible : r.Sensible header payload) :
    ∃ next result, r.ingestChecked iter header payload = .ok (next, result) ∧
      next.Kept (before ++ [.datagram wire]) ∧
      ∀ id bytes, result = .frameComplete id bytes →
        CarriedBytes id (before ++ [.datagram wire]) := by
  have hkept : ∀ id entry, r.pendingFrames.lookup id = some entry →
      entry.InBounds ∧ (entry.HoldsBytes → CarriedBytes id (before ++ [.datagram wire])) :=
    fun id entry hentry =>
      ⟨(h id entry hentry).1, fun hbytes => ((h id entry hentry).2 hbytes).mono _⟩
  obtain ⟨hbounds, hbytes⟩ := entry_kept h header
  unfold FrameReassembler.ingestChecked
  rw [Checked.bind_ok (storeChecked_ok hbounds header payload)]
  cases hstore : (r.entry header).store header payload with
  | none => exact ⟨r, .pending, rfl, hkept, fun _ _ hresult => by cases hresult⟩
  | some stored =>
      have hframe := isFramePacket_of_store hstore
      obtain ⟨hcovers, hsome⟩ := hsensible hframe
      have hstored := (inBounds_store hbounds hcovers hstore).1
      have hcarried : payload ≠ [] ∨ (r.entry header).HoldsBytes →
          CarriedBytes header.frameId (before ++ [.datagram wire]) := by
        rintro (hpayload | hheld)
        · exact ⟨wire, header, payload, List.mem_append_right _ (List.mem_singleton_self _),
            hdecode, rfl, hframe, hpayload⟩
        · exact (hbytes hheld).mono _
      dsimp only
      rw [Checked.bind_ok (settleChecked_ok iter hstored)]
      split
      next hcomplete =>
        refine ⟨_, _, rfl, fun id entry hentry => ?_, fun id bytes hresult => ?_⟩
        · have hne : id ≠ header.frameId := by
            rintro rfl
            rw [AList.lookup_erase] at hentry
            cases hentry
          rw [AList.lookup_erase_ne hne] at hentry
          exact hkept id entry hentry
        · cases hresult
          rcases hsome with hpayload | hheld | hlacks
          · exact hcarried (Or.inl hpayload)
          · exact hcarried (Or.inr hheld)
          · rw [incomplete_of_lacks iter hlacks hstore] at hcomplete
            cases hcomplete
      · refine ⟨_, _, rfl, fun id entry hentry => ?_, fun _ _ hresult => by cases hresult⟩
        by_cases hsame : id = header.frameId
        · subst hsame
          rw [AList.lookup_insert] at hentry
          cases hentry
          exact ⟨inBounds_settle iter hstored, fun hheld =>
            hcarried (holdsBytes_store hstore (holdsBytes_settle iter hheld))⟩
        · rw [AList.lookup_insert_ne hsame] at hentry
          exact hkept id entry hentry

theorem receiveChecked_kept (iter : IterOrder UInt8) (h : r.Kept before) {arrival : Arrival}
    (hsensible : arrival.Sensible r) :
    ∃ next result, r.receiveChecked iter arrival = .ok (next, result) ∧
      next.Kept (before ++ [arrival]) ∧
      ∀ id bytes, result = .frameComplete id bytes → CarriedBytes id (before ++ [arrival]) := by
  have hkept : r.Kept (before ++ [arrival]) := fun id entry hentry =>
    ⟨(h id entry hentry).1, fun hbytes => ((h id entry hentry).2 hbytes).mono _⟩
  cases arrival with
  | datagram wire =>
      unfold FrameReassembler.receiveChecked
      dsimp only
      split
      next header payload hdecode =>
        exact ingestChecked_kept h hdecode (hsensible header payload hdecode)
      · exact ⟨r, .pending, rfl, hkept, fun _ _ hresult => by cases hresult⟩
  | expire stale =>
      refine ⟨_, .pending, rfl, fun id entry hentry => ?_, fun _ _ hresult => by
        cases hresult⟩
      have hlookup : (if !stale id then r.pendingFrames.lookup id else none) =
          some entry := (lookup_retainKeys _ _ _).symm.trans hentry
      split at hlookup
      · exact hkept id entry hlookup
      · cases hlookup

theorem checkedMachine_step {arrival : Arrival} {next : FrameReassembler}
    {result : IngestResult} (h : r.receiveChecked iter arrival = .ok (next, result)) :
    (FrameReassembler.checkedMachine iter).step r arrival = (next, .ok result) := by
  unfold FrameReassembler.checkedMachine
  dsimp only
  rw [h]

/-- In a run of sensible packets every arrival is taken in. -/
theorem ingest_total (iter : IterOrder UInt8) {arrivals : List Arrival}
    (h : (FrameReassembler.checkedMachine iter).Along
      (fun r arrival => arrival.Sensible r) FrameReassembler.new arrivals) :
    ∀ before arrival after, arrivals = before ++ arrival :: after →
      TakenIn iter ((FrameReassembler.checkedMachine iter).run FrameReassembler.new before)
        before arrival := by
  intro before arrival after hsplit
  rw [hsplit] at h
  obtain ⟨hbefore, hsensible, _⟩ := (Machine.along_append _ _ _ _ _).mp h
  have hkept : ((FrameReassembler.checkedMachine iter).run FrameReassembler.new
      before).Kept before := by
    refine Machine.invariant_history _ (I := fun before r => r.Kept before)
      (fun before r arrival hr hsensible => ?_) (fun id entry hentry => ?_) hbefore
    · obtain ⟨next, result, hnext, hkept, _⟩ := receiveChecked_kept iter hr hsensible
      rw [checkedMachine_step hnext]
      exact hkept
    · simp [FrameReassembler.new] at hentry
  obtain ⟨next, result, hnext, _, hcarried⟩ := receiveChecked_kept iter hkept hsensible
  exact ⟨next, result, hnext, hcarried⟩

end Runs

/-- A data packet of a frame that has this many. -/
def dataHeader (packetCount : UInt16) : PacketHeader where
  packetType := .videoFrame
  mode := .r2
  flags := flagFecEnabled
  frameId := 1
  packetIndex := 0
  packetCount := packetCount
  presentationTimeUs := 0
  fecGroup := 0
  fecIdx := 0
  fecTotal := 10
  authTag := 0

def dataArrival (packetCount : UInt16) : Arrival :=
  .datagram ((dataHeader packetCount).encode [0, 1, 7])

/-- The second repair packet of a frame that has two data packets; it covers the second. -/
def secondRepair : PacketHeader :=
  { dataHeader 2 with packetType := .fecRepair, packetIndex := 3, fecIdx := 9 }

def repairArrival : Arrival := .datagram (secondRepair.encode [0, 1, 9])

/-- The second data packet is lost. -/
theorem ingest_total_repaired :
    let machine := FrameReassembler.checkedMachine (IterOrder.stored UInt8)
    let r := machine.run FrameReassembler.new [dataArrival 2]
    TakenIn (IterOrder.stored UInt8) r [dataArrival 2] repairArrival ∧
      (machine.step r repairArrival).2 = .ok (.frameComplete 1 [7, 9]) := by
  intro machine r
  have hfirst : (dataArrival 2).Sensible FrameReassembler.new := by
    intro header payload hdecode _
    rw [PacketHeader.decode_encode] at hdecode
    cases hdecode
    exact ⟨fun htype => (by cases htype), Or.inl (by decide)⟩
  have hsecond : repairArrival.Sensible r := by
    intro header payload hdecode _
    rw [PacketHeader.decode_encode] at hdecode
    cases hdecode
    exact ⟨fun _ => by decide, Or.inl (by decide)⟩
  have hrun : machine.Along (fun r arrival => arrival.Sensible r) FrameReassembler.new
      [dataArrival 2, repairArrival] := ⟨hfirst, hsecond, trivial⟩
  exact ⟨ingest_total (IterOrder.stored UInt8) hrun [dataArrival 2] repairArrival [] rfl, by decide⟩

/-- A repair packet of the same frame that tells of eight data packets. -/
def longRepairHeader : PacketHeader :=
  { dataHeader 8 with packetType := .fecRepair, packetIndex := 8, fecIdx := 8 }

theorem contradictory_repair_panics :
    ¬ ∀ (iter : IterOrder UInt8) (before : List Arrival) (arrival : Arrival),
      TakenIn iter
        ((FrameReassembler.checkedMachine iter).run FrameReassembler.new before) before
        arrival := by
  intro hall
  obtain ⟨next, result, hreturns, _⟩ := hall (IterOrder.stored UInt8) [dataArrival 2]
    (.datagram (longRepairHeader.encode [0, 1, 7]))
  have hpanics : ((FrameReassembler.checkedMachine (IterOrder.stored UInt8)).run
      FrameReassembler.new [dataArrival 2]).receiveChecked (IterOrder.stored UInt8)
      (.datagram (longRepairHeader.encode [0, 1, 7])) = .error .outOfBounds := by
    rfl
  rw [hpanics] at hreturns
  cases hreturns

end EvertyDesk.Evrt2
