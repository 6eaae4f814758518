import EvertyDesk.Evrt2.Fec

/-!
What recovery fills. Every unit of a group is in one class, that of its index modulo the
number of repair packets, so that a unit comes back just if the rest of its class arrived
and so did the repair packet of the class. Indices are carried in 16 bits, which is as far
as this goes.
-/

namespace EvertyDesk.Evrt2

section Encoded

variable (data : List (List UInt8)) (k : Nat)

/-- The indices of a group that are `r` modulo `k`. -/
def classMembers (r : Nat) : List Nat := (List.range data.length).filter fun i => i % k == r

def unitAt (i : Nat) : List UInt8 := data.getD i []

/-- The repair packet of a class. -/
def classRepair (r : Nat) : RepairPacket where
  repairIdx := r % 2 ^ 8
  covers := classMembers data k r
  xorPayload := parity (List.replicate (maxLength data) 0)
    ((classMembers data k r).map (unitAt data))
  payloadLen := maxLength data

variable {data k}

theorem mem_classMembers {r i : Nat} : i ∈ classMembers data k r ↔ i < data.length ∧ i % k = r := by
  simp [classMembers]

theorem unitAt_length_le (i : Nat) : (unitAt data i).length ≤ maxLength data := by
  by_cases hi : i < data.length
  · have hunit : unitAt data i = data[i] := by simp [unitAt, hi]
    rw [hunit]
    exact length_le_maxLength (List.getElem_mem hi)
  · simp [unitAt, Nat.not_lt.mp hi]

/-- The units of a class with their indices. -/
theorem covered_eq (r : Nat) : (data.zipIdx.filter fun pkt => pkt.2 % k == r) =
    (classMembers data k r).map fun i => (unitAt data i, i) := by
  have hzip : data.zipIdx = (List.range data.length).map fun i => (unitAt data i, i) := by
    apply List.ext_getElem
    · simp
    · intro i hleft hright
      have hi : i < data.length := by simpa using hleft
      simp [unitAt, hi]
  rw [hzip, List.filter_map, classMembers]
  rfl

/-- As long as the indices fit, each class has its repair packet. -/
theorem encodeRepairs_eq (hlength : data.length ≤ 2 ^ 16) (hk : k ≠ 0) (hdata : data ≠ []) :
    encodeRepairs data k = (List.range k).map (classRepair data k) := by
  have hguard : ¬ (k = 0 ∨ data.isEmpty) := by simp [hk, hdata]
  rw [encodeRepairs, if_neg hguard]
  apply List.map_congr_left
  intro r _
  have hcovers : (classMembers data k r).map (· % 2 ^ 16) = classMembers data k r := by
    refine (List.map_congr_left fun i hi => ?_).trans (List.map_id _)
    have hlt := (mem_classMembers.mp hi).1
    exact Nat.mod_eq_of_lt (by omega)
  simp only [covered_eq, List.map_map, Function.comp_def]
  rw [foldl_xorIntoGrowing]
  · simp only [classRepair, hcovers]
  · intro member hmember
    obtain ⟨i, -, rfl⟩ := List.mem_map.mp hmember
    rw [List.length_replicate]
    exact unitAt_length_le i

/-- What arrives of the repair packets is of the group. -/
theorem mem_encodeRepairs (hlength : data.length ≤ 2 ^ 16) {repair : RepairPacket}
    (h : repair ∈ encodeRepairs data k) :
    ∃ r < k, repair = classRepair data k r := by
  by_cases hnone : k = 0 ∨ data.isEmpty
  · rw [encodeRepairs, if_pos hnone] at h
    cases h
  · obtain ⟨hk, hdata⟩ := not_or.mp hnone
    rw [encodeRepairs_eq hlength hk (by simpa using hdata)] at h
    obtain ⟨r, hr, rfl⟩ := List.mem_map.mp h
    exact ⟨r, List.mem_range.mp hr, rfl⟩

theorem encodeRepairs_getElem? (hlength : data.length ≤ 2 ^ 16) {i : Nat} (hi : i < data.length) :
    (encodeRepairs data k)[i % k]? =
      if k = 0 then none else some (classRepair data k (i % k)) := by
  by_cases hk : k = 0
  · simp [encodeRepairs, hk]
  · have hdata : data ≠ [] := List.ne_nil_of_length_pos (by omega)
    have hclass : i % k < k := Nat.mod_lt i (Nat.pos_of_ne_zero hk)
    rw [encodeRepairs_eq hlength hk hdata, if_neg hk]
    simp [hclass]

end Encoded

/-- What arrived of a group, with the lengths to which lost units are cut. -/
structure ReceivedGroup (data : List (List UInt8)) where
  slots : Slots
  dataLens : List Nat
  slots_length : slots.length = data.length
  dataLens_length : dataLens.length = slots.length
  agrees : ∀ i unit, slot slots i = some unit → unit = unitAt data i

namespace ReceivedGroup

variable {data : List (List UInt8)} (g : ReceivedGroup data) (k : Nat)

/-- Of the class of the unit, no other is lost. -/
def OnlyLost (i : Nat) : Prop := ∀ j < data.length, j % k = i % k → j ≠ i → (slot g.slots j).isSome

/-- The unit as its class gives it back: padded to the longest of the group, and cut. -/
def padded (i : Nat) : List UInt8 :=
  (unitAt data i ++ List.replicate (maxLength data - (unitAt data i).length) 0).take
    (min (g.dataLens.getD i 0) (maxLength data))

variable {g k} {repairs : List RepairPacket}

/-- A unit is as it arrived, or came back as the only one lost of its class. -/
def Settled (g : ReceivedGroup data) (k : Nat) (repairs : List RepairPacket)
    (units : Slots) (i : Nat) : Prop :=
  slot units i = slot g.slots i ∨
    slot g.slots i = none ∧ g.OnlyLost k i ∧ classRepair data k (i % k) ∈ repairs ∧
      slot units i = some (g.padded i)

/-- What is taken out of the parity are units as they were sent. -/
theorem foldl_takeOut {units : Slots} {others : List Nat} (acc : List UInt8)
    (h : ∀ i ∈ others, slot units i = some (unitAt data i)) :
    others.foldl (takeOut units) acc = parity acc (others.map (unitAt data)) := by
  induction others generalizing acc with
  | nil => rfl
  | cons i others ih =>
      rw [List.foldl_cons, ih _ fun j hj => h j (List.mem_cons_of_mem _ hj), List.map_cons,
        parity_cons, takeOut, h i List.mem_cons_self]

theorem classMembers_nodup (data : List (List UInt8)) (k r : Nat) : (classMembers data k r).Nodup :=
  List.Nodup.filter _ List.nodup_range

/-- The parity of a class, less all others of the class. -/
theorem restore_eq {units : Slots} {r target : Nat} (htarget : target ∈ classMembers data k r)
    (hothers : ∀ i ∈ classMembers data k r, i ≠ target → slot units i = some (unitAt data i)) :
    (classRepair data k r).restore units g.dataLens target = g.padded target := by
  have hperm : (classMembers data k r).Perm
      (target :: (classMembers data k r).filter fun i => i ≠ target) := by
    have herase := List.perm_cons_erase htarget
    have hfilter : ((classMembers data k r).filter fun i => i != target) =
        (classMembers data k r).filter fun i => i ≠ target :=
      List.filter_congr fun i _ => by simp [bne, Bool.beq_eq_decide_eq]
    rwa [(classMembers_nodup data k r).erase_eq_filter, hfilter] at herase
  have hacc : ((classRepair data k r).covers.filter fun i => i ≠ target).foldl
      (takeOut units) (classRepair data k r).xorPayload = unitAt data target ++
        List.replicate (maxLength data - (unitAt data target).length) 0 := by
    simp only [classRepair]
    rw [foldl_takeOut,
      parity_recovers (hperm.map (unitAt data)), xorInto_zeros (unitAt_length_le target)]
    intro i hi
    obtain ⟨hmember, hne⟩ := List.mem_filter.mp hi
    exact hothers i hmember (of_decide_eq_true hne)
  have hpadded : (unitAt data target ++
      List.replicate (maxLength data - (unitAt data target).length) 0).length = maxLength data := by
    have hle : (unitAt data target).length ≤ maxLength data := unitAt_length_le target
    rw [List.length_append, List.length_replicate]
    omega
  rw [RepairPacket.restore, hacc, hpadded, padded]

/-- One repair packet that finds one unit missing keeps all units settled. -/
theorem settled_set (hlength : data.length ≤ 2 ^ 16)
    (hrepairs : ∀ repair ∈ repairs, repair ∈ encodeRepairs data k) {units : Slots}
    {repair : RepairPacket} {target : Nat} (hrepair : repair ∈ repairs)
    (h : ∀ i, Settled g k repairs units i) (hmissing : repair.missing units = [target])
    (i : Nat) :
    Settled g k repairs (units.set target (some (repair.restore units g.dataLens target))) i := by
  obtain ⟨r, hr, rfl⟩ := mem_encodeRepairs hlength (hrepairs repair hrepair)
  have honly : ∀ j, j ∈ (classRepair data k r).missing units ↔ j = target := by
    intro j
    rw [hmissing, List.mem_singleton]
  obtain ⟨htarget, hnone⟩ := RepairPacket.mem_missing.mp ((honly target).mpr rfl)
  obtain ⟨-, rfl⟩ := mem_classMembers.mp htarget
  have hlost : slot g.slots target = none := by
    rcases h target with hsame | ⟨hlost, -⟩
    · rw [← hsame, hnone]
    · exact hlost
  -- nothing of this class came back, since the target is lost as well
  have hsame : ∀ j < data.length, j % k = target % k → slot units j = slot g.slots j := by
    intro j hj hclass
    rcases h j with hsame | ⟨hjlost, hjonly, -, hback⟩
    · exact hsame
    · by_cases heq : j = target
      · subst heq
        rw [hnone] at hback
        cases hback
      · have hthere := hjonly target (mem_classMembers.mp htarget).1 hclass.symm (Ne.symm heq)
        rw [hlost] at hthere
        cases hthere
  have hthere : g.OnlyLost k target := by
    intro j hj hclass hne
    by_contra hnot
    apply hne
    apply (honly j).mp
    rw [RepairPacket.mem_missing, hsame j hj hclass]
    exact ⟨mem_classMembers.mpr ⟨hj, hclass⟩, by simpa using hnot⟩
  rw [Settled, slot_set]
  by_cases hset : target = i ∧ target < units.length
  · rw [if_pos hset]
    obtain ⟨rfl, -⟩ := hset
    refine .inr ⟨hlost, hthere, hrepair, ?_⟩
    rw [restore_eq htarget]
    intro j hj hne
    obtain ⟨hlt, hclass⟩ := mem_classMembers.mp hj
    rw [hsame j hlt hclass]
    obtain ⟨unit, hunit⟩ := Option.isSome_iff_exists.mp (hthere j hlt hclass hne)
    rw [hunit, g.agrees j unit hunit]
  · rw [if_neg hset]
    exact h i

variable (hlength : data.length ≤ 2 ^ 16)
  (hrepairs : ∀ repair ∈ repairs, repair ∈ encodeRepairs data k)

include hlength hrepairs

theorem settled_recover (i : Nat) : Settled g k repairs (recover g.slots g.dataLens repairs) i := by
  refine recover_invariant (I := fun units => ∀ i, Settled g k repairs units i) ?_ ?_ i
  · intro units repair target hrepair h hmissing
    exact settled_set hlength hrepairs hrepair h hmissing
  · exact fun _ => .inl rfl

/-- The repair packet of a class brings back the only unit that the class has lost. -/
theorem recover_isSome {i : Nat} (hi : i < data.length) (honly : g.OnlyLost k i)
    (hrepair : classRepair data k (i % k) ∈ repairs) :
    (slot (recover g.slots g.dataLens repairs) i).isSome := by
  refine slot_recover_isSome ?_ hrepair (classMembers_nodup data k _)
    (mem_classMembers.mpr ⟨hi, rfl⟩) ?_
  · intro repair hmember j hj
    obtain ⟨r, -, rfl⟩ := mem_encodeRepairs hlength (hrepairs repair hmember)
    rw [g.slots_length]
    exact (mem_classMembers.mp hj).1
  · intro j hj hne
    obtain ⟨hlt, hclass⟩ := mem_classMembers.mp hj
    exact honly j hlt hclass hne

end ReceivedGroup

/-- The repair packet of the class of a unit arrived. -/
def RepairArrived (data : List (List UInt8)) (k : Nat) (repairs : List RepairPacket)
    (i : Nat) : Prop :=
  ∃ repair ∈ repairs, (encodeRepairs data k)[i % k]? = some repair

/-- What recovery does to one slot: what arrived stays, and a lost unit comes back, as it
was sent, just if it is the only one lost of its class and the repair packet arrived. -/
structure RecoversSlot {data : List (List UInt8)} (g : ReceivedGroup data) (k : Nat)
    (repairs : List RepairPacket) (i : Nat) : Prop where
  untouched : ∀ unit, slot g.slots i = some unit →
    slot (recover g.slots g.dataLens repairs) i = some unit
  filled : slot g.slots i = none →
    ((slot (recover g.slots g.dataLens repairs) i).isSome ↔
      g.OnlyLost k i ∧ RepairArrived data k repairs i)
  exact_bytes : ∀ unit, slot g.slots i = none →
    slot (recover g.slots g.dataLens repairs) i = some unit → unit = g.padded i

/-- For any losses, any repair packets of the group and any lengths. -/
theorem recover_slots {data : List (List UInt8)} (hlength : data.length ≤ 2 ^ 16)
    (g : ReceivedGroup data) (k : Nat) (repairs : List RepairPacket)
    (hrepairs : ∀ repair ∈ repairs, repair ∈ encodeRepairs data k) :
    (recover g.slots g.dataLens repairs).length = data.length ∧
      ∀ i < data.length, RecoversSlot g k repairs i := by
  refine ⟨by rw [recover_length, g.slots_length], fun i hi => ?_⟩
  have harrived : RepairArrived data k repairs i ↔ classRepair data k (i % k) ∈ repairs := by
    rw [RepairArrived, encodeRepairs_getElem? hlength hi]
    constructor
    · rintro ⟨repair, hmember, hclass⟩
      split at hclass
      · cases hclass
      · rwa [Option.some.inj hclass]
    · intro hmember
      obtain ⟨r, hr, -⟩ := mem_encodeRepairs hlength (hrepairs _ hmember)
      exact ⟨_, hmember, if_neg (by omega)⟩
  have hsettled := g.settled_recover hlength hrepairs i
  constructor
  · exact fun unit hunit => slot_recover_of_some g.dataLens repairs hunit
  · intro hnone
    rw [harrived]
    constructor
    · intro hback
      rcases hsettled with hsame | ⟨-, honly, hrepair, -⟩
      · rw [hsame, hnone] at hback
        cases hback
      · exact ⟨honly, hrepair⟩
    · rintro ⟨honly, hrepair⟩
      exact g.recover_isSome hlength hrepairs hi honly hrepair
  · intro unit hnone hback
    rcases hsettled with hsame | ⟨-, -, -, hpadded⟩
    · rw [hsame, hnone] at hback
      cases hback
    · rw [hpadded] at hback
      exact (Option.some.inj hback).symm

/-- Three units, the first of which was lost. -/
def firstLost : ReceivedGroup [[1], [2], [3]] where
  slots := [none, some [2], some [3]]
  dataLens := [1, 1, 1]
  slots_length := rfl
  dataLens_length := rfl
  agrees := by
    intro i unit h
    match i with
    | 0 => cases h
    | 1 => exact (Option.some.inj h).symm
    | 2 => exact (Option.some.inj h).symm
    | _ + 3 => cases h

theorem recover_slots_firstLost :
    (recover firstLost.slots firstLost.dataLens (encodeRepairs [[1], [2], [3]] 2)).length = 3 ∧
      ∀ i < 3, RecoversSlot firstLost 2 (encodeRepairs [[1], [2], [3]] 2) i :=
  recover_slots (by decide) firstLost 2 (encodeRepairs [[1], [2], [3]] 2) (fun _ h => h)

/-- The covered indices are narrowed to 16 bits. -/
theorem covers_lt {data : List (List UInt8)} {k : Nat} {repair : RepairPacket}
    (h : repair ∈ encodeRepairs data k) : ∀ i ∈ repair.covers, i < 2 ^ 16 := by
  rw [encodeRepairs] at h
  split at h
  · cases h
  · obtain ⟨r, -, rfl⟩ := List.mem_map.mp h
    intro i hi
    obtain ⟨pkt, -, rfl⟩ := List.mem_map.mp hi
    exact Nat.mod_lt _ (Nat.two_pow_pos 16)

/-- All of a group of units but the last one. -/
def lastLost (count : Nat) : ReceivedGroup (List.replicate (count + 1) [1]) where
  slots := List.replicate count (some [1]) ++ [none]
  dataLens := List.replicate (count + 1) 1
  slots_length := by simp
  dataLens_length := by simp
  agrees := by
    intro i unit h
    rw [slot, List.getElem?_append, List.length_replicate] at h
    split at h
    · next hi =>
        rw [List.getElem?_replicate, if_pos hi] at h
        obtain rfl := Option.some.inj h
        simp [unitAt, Nat.lt_succ_of_lt hi]
    · cases hrest : i - count with
      | zero => simp [hrest] at h
      | succ rest => simp [hrest] at h

theorem lastLost_slot {count i : Nat} (hi : i < count) :
    slot (lastLost count).slots i = some [1] := by
  rw [lastLost, slot, List.getElem?_append_left (by simpa using hi),
    List.getElem?_replicate, if_pos hi]
  rfl

theorem lastLost_slot_last (count : Nat) : slot (lastLost count).slots count = none := by
  rw [lastLost, slot, List.getElem?_append_right (by simp)]
  simp

theorem repairArrived_all (count : Nat) :
    RepairArrived (List.replicate (count + 1) [1]) 1
      (encodeRepairs (List.replicate (count + 1) [1]) 1) count := by
  have hone : (encodeRepairs (List.replicate (count + 1) [1]) 1).length = 1 := by
    rw [encodeRepairs, if_neg (by simp [List.replicate_succ])]
    simp
  have hfirst : count % 1 < (encodeRepairs (List.replicate (count + 1) [1]) 1).length := by
    rw [hone]
    exact Nat.mod_lt _ Nat.one_pos
  exact ⟨_, List.getElem_mem hfirst, List.getElem?_eq_getElem hfirst⟩

/-- The index of the last unit needs 17 bits: the only unit that is lost, with the one
repair packet at hand, stays lost. -/
theorem last_unit_stays_lost :
    ¬ ∀ (data : List (List UInt8)) (g : ReceivedGroup data) (k : Nat)
      (repairs : List RepairPacket), (∀ repair ∈ repairs, repair ∈ encodeRepairs data k) →
      ∀ i < data.length, RecoversSlot g k repairs i := by
  intro hall
  obtain ⟨count, hcount⟩ : ∃ count, count = 2 ^ 16 := ⟨_, rfl⟩
  have hrecovers := hall _ (lastLost count) 1 _ (fun _ h => h) count (by simp)
  have honly : (lastLost count).OnlyLost 1 count := by
    intro j hj _ hne
    rw [List.length_replicate] at hj
    rw [lastLost_slot (by omega)]
    rfl
  have hback := (hrecovers.filled (lastLost_slot_last count)).mpr ⟨honly, repairArrived_all count⟩
  -- every covered index is one of a unit that arrived, so nothing is ever missing
  have hsame : recover (lastLost count).slots (lastLost count).dataLens
      (encodeRepairs (List.replicate (count + 1) [1]) 1) = (lastLost count).slots := by
    refine recover_invariant (I := (· = (lastLost count).slots)) ?_ rfl
    rintro units repair target hrepair rfl hmissing
    have htarget : target ∈ repair.missing (lastLost count).slots := by simp [hmissing]
    obtain ⟨hcovered, hnone⟩ := RepairPacket.mem_missing.mp htarget
    rw [lastLost_slot (hcount ▸ covers_lt hrepair target hcovered)] at hnone
    cases hnone
  rw [hsame, lastLost_slot_last] at hback
  cases hback

end EvertyDesk.Evrt2
