import EvertyDesk.Evrt2.Packet
import EvertyDesk.Lib.Parity
import Mathlib.Data.List.Nodup

/-!
Forward error correction by parity. A group of units has `k` repair packets;
the one with index `r` is the parity of the units whose index is `r` modulo
`k`, so every unit is covered by exactly one repair packet. A repair packet
restores a unit when it is the only one missing of those it covers.
-/

namespace EvertyDesk.Evrt2

/-- Units per group and repair packets per group. -/
structure FecConfig where
  n : Nat
  k : Nat
deriving DecidableEq, Repr

def FecConfig.ar : FecConfig := { n := 6, k := 2 }
def FecConfig.r2 : FecConfig := { n := 8, k := 2 }
def FecConfig.mode47 : FecConfig := { n := 0, k := 0 }

def FecConfig.forMode : Mode → FecConfig
  | .ar => FecConfig.ar
  | .r2 => FecConfig.r2
  | .mode47 => FecConfig.mode47

def FecConfig.isEnabled (fec : FecConfig) : Bool :=
  decide (fec.k > 0) && decide (fec.n > 0)

/-- Add a unit into an accumulator that first grows to its length. -/
def xorIntoGrowing (acc data : List UInt8) : List UInt8 :=
  xorInto (acc ++ List.replicate (data.length - acc.length) 0) data

/-- Into an accumulator that is long enough nothing has to grow. -/
theorem foldl_xorIntoGrowing {members : List (List UInt8)}
    {acc : List UInt8} (h : ∀ member ∈ members, member.length ≤ acc.length) :
    members.foldl xorIntoGrowing acc = parity acc members := by
  induction members generalizing acc with
  | nil => rfl
  | cons member members ih =>
      have hgrow : xorIntoGrowing acc member = xorInto acc member := by
        have hlength : member.length - acc.length = 0 := by
          have := h member List.mem_cons_self
          omega
        simp [xorIntoGrowing, hlength]
      rw [List.foldl_cons, hgrow, parity_cons]
      apply ih
      intro other hother
      rw [xorInto_length]
      exact h other (List.mem_cons_of_mem _ hother)

structure RepairPacket where
  repairIdx : Nat
  covers : List Nat
  xorPayload : List UInt8
  payloadLen : Nat
deriving DecidableEq

/-- The repair packets of a group; their indices are narrowed as in the
source. -/
def encodeRepairs (data : List (List UInt8)) (k : Nat) : List RepairPacket :=
  if k = 0 ∨ data.isEmpty then []
  else
    let payloadLen := maxLength data
    (List.range k).map fun r =>
      let covered := data.zipIdx.filter fun pkt => pkt.2 % k == r
      { repairIdx := r % 2 ^ 8
        covers := covered.map fun pkt => pkt.2 % 2 ^ 16
        xorPayload := (covered.map Prod.fst).foldl xorIntoGrowing (List.replicate payloadLen 0)
        payloadLen := payloadLen }

/-- The units of a frame by index, where they have arrived or were restored. -/
abbrev Slots := List (Option (List UInt8))

/-- The unit at an index. The source indexes the list itself: its indices are
below the length, see `Tracks.covers_lt`. -/
def slot (data : Slots) (index : Nat) : Option (List UInt8) := (data[index]?).join

/-- The covered units that are not there. -/
def RepairPacket.missing (repair : RepairPacket) (data : Slots) : List Nat :=
  repair.covers.filter fun i => (slot data i).isNone

/-- Take a unit out of a parity, if it is there. -/
def takeOut (data : Slots) (acc : List UInt8) (i : Nat) : List UInt8 :=
  match slot data i with
  | some pkt => xorInto acc pkt
  | none => acc

/-- What the parity leaves for the unit at `target` once every other covered
unit is taken out, cut to the length known for that unit. -/
def RepairPacket.restore (repair : RepairPacket) (data : Slots)
    (dataLens : List Nat) (target : Nat) : List UInt8 :=
  let others := repair.covers.filter fun i => i ≠ target
  let acc := others.foldl (takeOut data) repair.xorPayload
  acc.take (min (dataLens.getD target 0) acc.length)

/-- Try one repair packet, and note whether it restored a unit. -/
def recoverStep (dataLens : List Nat) (state : Slots × Bool)
    (repair : RepairPacket) : Slots × Bool :=
  match repair.missing state.1 with
  | [target] =>
      (state.1.set target (some (repair.restore state.1 dataLens target)), true)
  | _ => state

def recoverPass (dataLens : List Nat) (repairs : List RepairPacket) (data : Slots) : Slots × Bool :=
  repairs.foldl (recoverStep dataLens) (data, false)

/-- Pass over the repair packets until a pass restores nothing. -/
def recoverLoop (dataLens : List Nat) (repairs : List RepairPacket) : Nat → Slots → Slots
  | 0, data => data
  | fuel + 1, data =>
      let (next, progressed) := recoverPass dataLens repairs data
      if progressed then recoverLoop dataLens repairs fuel next else next

/-- How many units are not there. -/
def lost (data : Slots) : Nat := data.countP Option.isNone

/-- Every pass but the last restores a unit, so this is fuel enough for the
loop of the source, see `recover_settled`. -/
def recover (data : Slots) (dataLens : List Nat) (repairs : List RepairPacket) :
    Slots :=
  recoverLoop dataLens repairs (lost data + 1) data

/-! Units by index. -/

theorem slot_set (data : Slots) (target : Nat) (unit : Option (List UInt8)) (index : Nat) :
    slot (data.set target unit) index =
      if target = index ∧ target < data.length then unit else slot data index := by
  rw [slot, slot, List.getElem?_set]
  by_cases hsame : target = index
  · subst hsame
    by_cases hlt : target < data.length <;> simp [hlt]
  · simp [hsame]

theorem slot_set_ne {data : Slots} {target index : Nat}
    {unit : Option (List UInt8)} (h : target ≠ index) :
    slot (data.set target unit) index = slot data index := by
  simp [slot_set, h]

theorem slot_replicate (count index : Nat) : slot (List.replicate count none) index = none := by
  rw [slot, List.getElem?_replicate]
  split <;> rfl

theorem slot_eq_getElem {data : Slots} {index : Nat} (h : index < data.length) :
    slot data index = data[index] := by
  simp [slot, h]

/-- Every unit is there exactly when none of the slots is empty. -/
theorem all_isSome_iff (data : Slots) :
    data.all Option.isSome = true ↔ ∀ index < data.length, (slot data index).isSome := by
  rw [List.all_eq_true]
  constructor
  · intro hall index hlt
    rw [slot_eq_getElem hlt]
    exact hall _ (List.getElem_mem hlt)
  · intro hall unit hmember
    obtain ⟨index, hlt, rfl⟩ := List.getElem_of_mem hmember
    have hsome := hall index hlt
    rwa [slot_eq_getElem hlt] at hsome

theorem RepairPacket.mem_missing {repair : RepairPacket} {data : Slots} {index : Nat} :
    index ∈ repair.missing data ↔ index ∈ repair.covers ∧ slot data index = none := by
  simp [RepairPacket.missing]

/-! What one repair packet, one pass and the loop do. -/

/-- A repair packet restores the one unit it misses, or does nothing. -/
theorem recoverStep_cases (dataLens : List Nat) (state : Slots × Bool) (repair : RepairPacket) :
    (∃ target, repair.missing state.1 = [target] ∧
      recoverStep dataLens state repair =
        (state.1.set target (some (repair.restore state.1 dataLens target)), true)) ∨
    ((∀ target, repair.missing state.1 ≠ [target]) ∧
      recoverStep dataLens state repair = state) := by
  unfold recoverStep
  split
  next target hmissing => exact Or.inl ⟨target, hmissing, rfl⟩
  next hother => exact Or.inr ⟨hother, rfl⟩

section Invariant

variable {dataLens : List Nat} {repairs : List RepairPacket} {I : Slots → Prop}

private theorem recoverPass_invariant
    (hstep : ∀ data repair target, repair ∈ repairs → I data →
      repair.missing data = [target] →
      I (data.set target (some (repair.restore data dataLens target))))
    {data : Slots} (hdata : I data) :
    I (recoverPass dataLens repairs data).1 := by
  have hfold : ∀ (rest : List RepairPacket) (state : Slots × Bool),
      (∀ repair ∈ rest, repair ∈ repairs) → I state.1 →
      I (rest.foldl (recoverStep dataLens) state).1 := by
    intro rest
    induction rest with
    | nil => exact fun state _ h => h
    | cons repair rest ih =>
        intro state hmember h
        apply ih
        · exact fun other hother => hmember other (List.mem_cons_of_mem _ hother)
        · obtain ⟨target, hmissing, heq⟩ | ⟨_, heq⟩ := recoverStep_cases dataLens state repair
          · rw [heq]
            exact hstep _ _ _ (hmember repair List.mem_cons_self) h hmissing
          · rwa [heq]
  exact hfold repairs (data, false) (fun _ h => h) hdata

/-- What holds of the units and survives every restored unit holds after
recovery. -/
theorem recover_invariant
    (hstep : ∀ data repair target, repair ∈ repairs → I data →
      repair.missing data = [target] →
      I (data.set target (some (repair.restore data dataLens target))))
    {data : Slots} (hdata : I data) : I (recover data dataLens repairs) := by
  have hloop : ∀ (fuel : Nat) (data : Slots), I data →
      I (recoverLoop dataLens repairs fuel data) := by
    intro fuel
    induction fuel with
    | zero => exact fun _ h => h
    | succ fuel ih =>
        intro data h
        have hnext := recoverPass_invariant hstep h
        simp only [recoverLoop]
        split
        · exact ih _ hnext
        · exact hnext
  exact hloop _ data hdata

end Invariant

@[simp] theorem recover_length (data : Slots) (dataLens : List Nat)
    (repairs : List RepairPacket) :
    (recover data dataLens repairs).length = data.length := by
  apply recover_invariant (I := fun units => units.length = data.length)
  · intro units repair target _ hlength _
    rw [List.length_set, hlength]
  · rfl

/-- Recovery never replaces a unit. -/
theorem slot_recover_of_some {data : Slots} {index : Nat} {unit : List UInt8}
    (dataLens : List Nat) (repairs : List RepairPacket)
    (h : slot data index = some unit) :
    slot (recover data dataLens repairs) index = some unit := by
  apply recover_invariant (I := fun units => slot units index = some unit)
  · intro units repair target _ hunit hmissing
    have htarget : target ∈ repair.missing units := by simp [hmissing]
    have hne : target ≠ index := by
      rintro rfl
      rw [(RepairPacket.mem_missing.mp htarget).2] at hunit
      cases hunit
    rwa [slot_set_ne hne]
  · exact h

private theorem lost_set {data : Slots} {target : Nat} (unit : List UInt8)
    (hlt : target < data.length) (hnone : slot data target = none) :
    lost (data.set target (some unit)) + 1 = lost data := by
  have hget : data[target] = none := by
    rw [← slot_eq_getElem hlt, hnone]
  have hpos : 0 < lost data := by
    apply List.countP_pos_iff.mpr
    exact ⟨none, hget ▸ List.getElem_mem hlt, rfl⟩
  have hset : lost (data.set target (some unit)) = lost data - 1 := by
    simp [lost, List.countP_set, hlt, hget]
  omega

section Settled

variable {dataLens : List Nat} {repairs : List RepairPacket}

/-- A pass either restores something, and less is lost, or finds nothing to
restore. -/
private theorem recoverPass_progress (dataLens : List Nat) {data : Slots}
    (hcovers : ∀ repair ∈ repairs, ∀ i ∈ repair.covers, i < data.length) :
    ((recoverPass dataLens repairs data).2 = true ∧
      lost (recoverPass dataLens repairs data).1 < lost data) ∨
    (recoverPass dataLens repairs data = (data, false) ∧
      ∀ repair ∈ repairs, ∀ target, repair.missing data ≠ [target]) := by
  have hfold : ∀ (rest : List RepairPacket) (state : Slots × Bool),
      (∀ repair ∈ rest, ∀ i ∈ repair.covers, i < state.1.length) →
      ((rest.foldl (recoverStep dataLens) state).2 = true ∧
        lost (rest.foldl (recoverStep dataLens) state).1 < lost state.1) ∨
      (rest.foldl (recoverStep dataLens) state = state ∧
        ∀ repair ∈ rest, ∀ target, repair.missing state.1 ≠ [target]) := by
    intro rest
    induction rest with
    | nil => exact fun state _ => Or.inr ⟨rfl, by simp⟩
    | cons repair rest ih =>
        intro state hrange
        have hlater : ∀ other ∈ rest, ∀ i ∈ other.covers, i < state.1.length :=
          fun other hother => hrange other (List.mem_cons_of_mem _ hother)
        obtain ⟨target, hmissing, heq⟩ | ⟨hnot, heq⟩ := recoverStep_cases dataLens state repair
        · -- this one restores a unit; the rest of the pass loses none
          left
          have htarget : target ∈ repair.missing state.1 := by simp [hmissing]
          obtain ⟨hcovered, hnone⟩ := RepairPacket.mem_missing.mp htarget
          have hless := lost_set (repair.restore state.1 dataLens target)
            (hrange repair List.mem_cons_self target hcovered) hnone
          rw [List.foldl_cons, heq]
          obtain ⟨hflag, hlost⟩ | ⟨hsame, _⟩ := ih
            (state.1.set target (some (repair.restore state.1 dataLens target)),
              true) (by simpa using hlater)
          · constructor
            · exact hflag
            · simp only at hlost
              omega
          · rw [hsame]
            constructor
            · rfl
            · simp only
              omega
        · rw [List.foldl_cons, heq]
          obtain hprogress | ⟨hsame, hrest⟩ := ih state hlater
          · exact Or.inl hprogress
          · refine Or.inr ⟨hsame, ?_⟩
            intro other hother
            rcases List.mem_cons.mp hother with rfl | hother
            · exact hnot
            · exact hrest other hother
  exact hfold repairs (data, false) hcovers

/-- The loop ends because nothing is left to restore, not for want of fuel. -/
theorem recover_settled (dataLens : List Nat) {data : Slots}
    (hcovers : ∀ repair ∈ repairs, ∀ i ∈ repair.covers, i < data.length) :
    ∀ repair ∈ repairs, ∀ target, repair.missing (recover data dataLens repairs) ≠ [target] := by
  have hloop : ∀ (fuel : Nat) (units : Slots), lost units < fuel →
      (∀ repair ∈ repairs, ∀ i ∈ repair.covers, i < units.length) →
      ∀ repair ∈ repairs, ∀ target,
        repair.missing (recoverLoop dataLens repairs fuel units) ≠ [target] := by
    intro fuel
    induction fuel with
    | zero => exact fun units h => absurd h (Nat.not_lt_zero _)
    | succ fuel ih =>
        intro units hfuel hrange
        simp only [recoverLoop]
        obtain ⟨hflag, hless⟩ | ⟨hsame, hnone⟩ := recoverPass_progress dataLens hrange
        · rw [if_pos hflag]
          have hlength : (recoverPass dataLens repairs units).1.length =
              units.length := by
            apply recoverPass_invariant (I := fun others => others.length = units.length)
            · intro others repair target _ hlength _
              rw [List.length_set, hlength]
            · rfl
          apply ih
          · omega
          · rwa [hlength]
        · rw [hsame]
          exact hnone
  exact hloop _ data (Nat.lt_succ_self _) hcovers

/-- A unit comes back when a repair packet covers it and every other unit that
the packet covers is there. -/
theorem slot_recover_isSome {data : Slots} {repair : RepairPacket} {target : Nat}
    (hcovers : ∀ repair ∈ repairs, ∀ i ∈ repair.covers, i < data.length)
    (hrepair : repair ∈ repairs) (hnodup : repair.covers.Nodup)
    (htarget : target ∈ repair.covers)
    (hothers : ∀ i ∈ repair.covers, i ≠ target → (slot data i).isSome) :
    (slot (recover data dataLens repairs) target).isSome := by
  by_contra hlost
  have hnone : slot (recover data dataLens repairs) target = none := by
    simpa using hlost
  apply recover_settled dataLens hcovers repair hrepair target
  have honly : ∀ i ∈ repair.covers,
      (slot (recover data dataLens repairs) i).isNone = (i == target) := by
    intro i hi
    by_cases hsame : i = target
    · simp [hsame, hnone]
    · obtain ⟨unit, hunit⟩ := Option.isSome_iff_exists.mp (hothers i hi hsame)
      simp [slot_recover_of_some dataLens repairs hunit, hsame]
  have hfilter : repair.missing (recover data dataLens repairs) =
      repair.covers.filter (· == target) := List.filter_congr honly
  rw [hfilter, List.filter_beq, List.count_eq_one_of_mem hnodup htarget]
  rfl

end Settled

end EvertyDesk.Evrt2
