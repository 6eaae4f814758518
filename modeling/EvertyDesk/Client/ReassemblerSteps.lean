import EvertyDesk.Client.Reassembler

/-!
What the reassembler's operations can do, said once for all later proofs:
dropping only removes, recovery only fills slots of the frame at hand, a
finished frame leaves in one of three ways.
-/

namespace EvertyDesk.Reassembler

namespace ChannelReassembler

variable (iter : IterOrder Nat) (r : ChannelReassembler)

/-- What nothing short of a completed frame, a new frame number, a key frame
or a call from outside changes: the configuration, the completed and the seen
frame numbers; and a wait does not end. -/
structure SameStatus (r r' : ChannelReassembler) : Prop where
  config : r'.latestCodecConfig = r.latestCodecConfig
  completed : r'.latestCompletedId = r.latestCompletedId
  seen : r'.latestFrameIdSeen = r.latestFrameIdSeen
  waiting : r.waitingAfterLoss = true → r'.waitingAfterLoss = true

/-- What dropping does: nothing is added. -/
structure Shrinks (r r' : ChannelReassembler) : Prop extends SameStatus r r' where
  frames : ∀ id a, r'.frames.lookup id = some a → r.frames.lookup id = some a
  fec : ∀ id fecs, r'.pendingFec.lookup id = some fecs → r.pendingFec.lookup id = some fecs

theorem SameStatus.refl (r : ChannelReassembler) : SameStatus r r := ⟨rfl, rfl, rfl, fun h => h⟩

theorem SameStatus.trans {r r' r'' : ChannelReassembler} (h : SameStatus r r')
    (h' : SameStatus r' r'') : SameStatus r r'' where
  config := h'.config.trans h.config
  completed := h'.completed.trans h.completed
  seen := h'.seen.trans h.seen
  waiting hwait := h'.waiting (h.waiting hwait)

namespace Shrinks

theorem refl (r : ChannelReassembler) : Shrinks r r :=
  ⟨SameStatus.refl r, fun _ _ h => h, fun _ _ h => h⟩

theorem trans {r r' r'' : ChannelReassembler} (h : Shrinks r r')
    (h' : Shrinks r' r'') : Shrinks r r'' where
  toSameStatus := h.toSameStatus.trans h'.toSameStatus
  frames id a hlookup := h.frames id a (h'.frames id a hlookup)
  fec id fecs hlookup := h.fec id fecs (h'.fec id fecs hlookup)

end Shrinks

theorem lookup_erase_some {Value : Type*} {entries : AList fun _ : Nat => Value}
    {erased id : Nat} {value : Value}
    (h : (entries.erase erased).lookup id = some value) :
    id ≠ erased ∧ entries.lookup id = some value := by
  by_cases heq : id = erased
  · subst heq
    simp at h
  · rw [AList.lookup_erase_ne heq] at h
    exact ⟨heq, h⟩

theorem markFrameDropped_shrinks (id : Nat) : Shrinks r (r.markFrameDropped id) := by
  unfold markFrameDropped
  split
  · exact ⟨⟨rfl, rfl, rfl, fun h => h⟩, fun _ _ h => h, fun _ _ h => h⟩
  · exact Shrinks.refl r

theorem wait_shrinks : Shrinks r { r with waitingAfterLoss := true } :=
  ⟨⟨rfl, rfl, rfl, fun _ => rfl⟩, fun _ _ h => h, fun _ _ h => h⟩

theorem dropFrame_shrinks (id : Nat) : Shrinks r (r.dropFrame id).1 := by
  unfold dropFrame
  dsimp only
  split
  · refine Shrinks.trans ?_ (markFrameDropped_shrinks _ id)
    exact ⟨⟨rfl, rfl, rfl, fun h => h⟩, fun _ _ h => (lookup_erase_some h).2,
      fun _ _ h => (lookup_erase_some h).2⟩
  · exact ⟨⟨rfl, rfl, rfl, fun h => h⟩, fun _ _ h => h, fun _ _ h => (lookup_erase_some h).2⟩

private theorem foldl_dropFrame_shrinks (ids : List Nat) (r : ChannelReassembler) :
    Shrinks r (ids.foldl (fun r id => (r.dropFrame id).1) r) := by
  induction ids generalizing r with
  | nil => exact Shrinks.refl r
  | cons id ids ih => exact (r.dropFrame_shrinks id).trans (ih _)

theorem dropOlderThan_shrinks (id : Nat) : Shrinks r (r.dropOlderThan iter id).1 := by
  unfold dropOlderThan
  refine Shrinks.trans ?_ (foldl_dropFrame_shrinks _ _)
  refine ⟨⟨rfl, rfl, rfl, fun h => h⟩, fun _ _ h => h, ?_⟩
  intro id' fecs h
  dsimp only at h
  rw [lookup_retainKeys] at h
  split at h
  · exact h
  · contradiction

theorem dropOldestExcept_shrinks (keep : Nat) : Shrinks r (r.dropOldestExcept keep).1 := by
  unfold dropOldestExcept
  split
  · exact Shrinks.refl r
  · exact r.dropFrame_shrinks _

theorem makeRoom_shrinks (bytes keep passes : Nat) (r : ChannelReassembler) (droppedAny : Bool) :
    Shrinks r (makeRoom bytes keep passes r droppedAny).1 := by
  induction passes generalizing r droppedAny with
  | zero =>
      unfold makeRoom
      split <;> exact Shrinks.refl r
  | succ passes ih =>
      have hdrop := r.dropOldestExcept_shrinks keep
      unfold makeRoom
      split
      · exact Shrinks.refl r
      dsimp only
      split
      · next next hnext =>
          rw [hnext] at hdrop
          exact hdrop.trans (ih next true)
      · next next hnext =>
          rw [hnext] at hdrop
          exact hdrop

theorem giveUp_shrinks (id : Nat) (isKeyFrame : Bool) : Shrinks r (r.giveUp id isKeyFrame) := by
  unfold giveUp
  dsimp only
  split
  · exact (r.dropFrame_shrinks id).trans (wait_shrinks _)
  · exact r.dropFrame_shrinks id

theorem reserveBuffer_shrinks (bytes id : Nat) (isKeyFrame : Bool) :
    Shrinks r (r.reserveBuffer bytes id isKeyFrame).1 := by
  have hroom := makeRoom_shrinks bytes id r.frames.keys.length r false
  unfold reserveBuffer
  split
  · exact r.giveUp_shrinks id isKeyFrame
  split
  · next next hnext =>
      rw [hnext] at hroom
      exact hroom.trans (next.giveUp_shrinks id isKeyFrame)
  · next next droppedAny hnext =>
      rw [hnext] at hroom
      split
      · exact ((hroom.trans (next.dropFrame_shrinks id)).trans
          (markFrameDropped_shrinks _ id)).trans (wait_shrinks _)
      · exact hroom

/-- Some property of every unfinished frame, and one of every parity packet
that waits for its frame. -/
structure Holds (P : Nat → FrameAssembly → Prop) (Q : Nat → Evrt.FecMeta → Prop)
    (r : ChannelReassembler) : Prop where
  frames : ∀ id a, r.frames.lookup id = some a → P id a
  fec : ∀ id fecs, r.pendingFec.lookup id = some fecs → ∀ fec ∈ fecs, Q id fec

section

variable {P : Nat → FrameAssembly → Prop} {Q : Nat → Evrt.FecMeta → Prop}

theorem Holds.shrink {r r' : ChannelReassembler} (h : Holds P Q r)
    (hshrink : Shrinks r r') : Holds P Q r' where
  frames id a hlookup := h.frames id a (hshrink.frames id a hlookup)
  fec id fecs hlookup := h.fec id fecs (hshrink.fec id fecs hlookup)

theorem Holds.insert {r : ChannelReassembler} (h : Holds P Q r) {id : Nat}
    {a : FrameAssembly} (ha : P id a) (bytes recovered : Nat) :
    Holds P Q { r with
      frames := r.frames.insert id a
      bufferedBytes := bytes
      fecRecovered := recovered } where
  frames id' a' hlookup := by
    dsimp only at hlookup
    by_cases heq : id' = id
    · subst heq
      rw [AList.lookup_insert] at hlookup
      obtain rfl := Option.some.inj hlookup
      exact ha
    · rw [AList.lookup_insert_ne heq] at hlookup
      exact h.frames id' a' hlookup
  fec := h.fec

/-- A property of unfinished frames that survives honest recovery. -/
def Recoverable (P : Nat → FrameAssembly → Prop) (Q : Nat → Evrt.FecMeta → Prop) :
    Prop :=
  ∀ id a fec index bytes a', P id a → Q id fec →
    Evrt.fecRecoverOne fec (fec.present a.part) = some (index, bytes) →
    a.set index bytes = some a' → P id a'

private theorem putRecovered_holds {r : ChannelReassembler} (h : Holds P Q r)
    (id index : Nat) (bytes : List UInt8)
    (hset : ∀ a a', r.frames.lookup id = some a → a.set index bytes = some a' → P id a') :
    Holds P Q (r.putRecovered id index bytes) ∧ SameStatus r (r.putRecovered id index bytes) := by
  unfold putRecovered
  split
  · exact ⟨h, SameStatus.refl r⟩
  next a ha =>
  split
  · exact ⟨h, SameStatus.refl r⟩
  next a' ha' =>
  exact ⟨h.insert (hset a a' ha ha') _ _, ⟨rfl, rfl, rfl, fun hw => hw⟩⟩

/-- Recovery keeps what is recoverable. -/
theorem recoverFrom_holds (hrecover : Recoverable P Q) (id : Nat)
    (fecs : List Evrt.FecMeta) (r : ChannelReassembler) (h : Holds P Q r)
    (hfecs : ∀ fec ∈ fecs, Q id fec) :
    Holds P Q (recoverFrom id r fecs) ∧ SameStatus r (recoverFrom id r fecs) := by
  induction fecs generalizing r with
  | nil => exact ⟨h, SameStatus.refl r⟩
  | cons fec fecs ih =>
      have hfec := hfecs fec List.mem_cons_self
      have hrest : ∀ fec ∈ fecs, Q id fec := fun fec member =>
        hfecs fec (List.mem_cons_of_mem _ member)
      unfold recoverFrom
      split
      · exact ⟨h, SameStatus.refl r⟩
      next a ha =>
      split
      · exact ⟨h, SameStatus.refl r⟩
      split
      · exact ih r h hrest
      next index bytes hbytes =>
      have hreserve := r.reserveBuffer_shrinks bytes.length id a.isKeyFrame
      split
      · next next hnext =>
          rw [hnext] at hreserve
          obtain ⟨hholds, hstatus⟩ := ih next (h.shrink hreserve) hrest
          exact ⟨hholds, hreserve.toSameStatus.trans hstatus⟩
      · next next hnext =>
          rw [hnext] at hreserve
          obtain ⟨hput, hputStatus⟩ := putRecovered_holds (h.shrink hreserve)
            id index bytes (by
              intro a' a'' ha' ha''
              have hsame := hreserve.frames id a' ha'
              rw [ha] at hsame
              obtain rfl := Option.some.inj hsame
              exact hrecover id a fec index bytes a'' (h.frames id a ha) hfec hbytes ha'')
          obtain ⟨hholds, hstatus⟩ := ih _ hput hrest
          exact ⟨hholds, (hreserve.toSameStatus.trans hputStatus).trans hstatus⟩

theorem tryFecRecover_holds (hrecover : Recoverable P Q) (id : Nat)
    {r : ChannelReassembler} (h : Holds P Q r) :
    Holds P Q (r.tryFecRecover id) ∧ SameStatus r (r.tryFecRecover id) := by
  unfold tryFecRecover
  split
  · exact ⟨h, SameStatus.refl r⟩
  next fecs hfecs =>
  exact recoverFrom_holds hrecover id fecs r h (h.fec id fecs hfecs)

end

/-- The three ways in which a finished frame leaves: a key frame is delivered
and ends the wait, a delta frame is withheld and the reassembler waits, or a
delta frame is delivered behind the frame completed before it. -/
inductive Finishes (r : ChannelReassembler) (id now : Nat) (a : FrameAssembly)
    (r' : ChannelReassembler) : Option Delivery → Prop
  | key (hkey : a.isKeyFrame = true) (hwaiting : r'.waitingAfterLoss = false) :
      Finishes r id now a r' (some {
        frameId := id
        bytes := r.latestCodecConfig.getD [] ++ a.join
        isKeyFrame := true
        assemblyMs := a.assemblyDelayMs now
        presentationTimeUs := a.presentationTimeUs })
  | withheld (hdelta : a.isKeyFrame = false)
      (hwaiting : r'.waitingAfterLoss = true) : Finishes r id now a r' none
  | delta (hdelta : a.isKeyFrame = false) (hrunning : r.waitingAfterLoss = false)
      (hbase : brokenBase r.latestCompletedId id = false)
      (hwaiting : r'.waitingAfterLoss = false) :
      Finishes r id now a r' (some {
        frameId := id
        bytes := a.join
        isKeyFrame := false
        assemblyMs := a.assemblyDelayMs now
        presentationTimeUs := a.presentationTimeUs })

/-- Finishing a frame does nothing, or removes a complete frame, which becomes
the last completed one. -/
theorem finalizeFrame_cases (id now : Nat) :
    r.finalizeFrame id now = (r, none) ∨
    ∃ a r' out, r.finalizeFrame id now = (r', out) ∧
      r.frames.lookup id = some a ∧ a.isComplete = true ∧
      r'.frames = r.frames.erase id ∧ r'.pendingFec = r.pendingFec.erase id ∧
      r'.bufferedBytes = r.bufferedBytes - a.bufferedBytes ∧
      r'.latestCodecConfig = r.latestCodecConfig ∧
      r'.latestFrameIdSeen = r.latestFrameIdSeen ∧
      r'.latestCompletedId = some a.frameId ∧ Finishes r id now a r' out := by
  have hmark : ∀ r : ChannelReassembler,
      (r.markFrameDropped id).frames = r.frames ∧
      (r.markFrameDropped id).pendingFec = r.pendingFec ∧
      (r.markFrameDropped id).bufferedBytes = r.bufferedBytes ∧
      (r.markFrameDropped id).latestCodecConfig = r.latestCodecConfig ∧
      (r.markFrameDropped id).latestFrameIdSeen = r.latestFrameIdSeen ∧
      (r.markFrameDropped id).latestCompletedId = r.latestCompletedId ∧
      (r.markFrameDropped id).waitingAfterLoss = r.waitingAfterLoss := by
    intro r
    unfold markFrameDropped
    split <;> exact ⟨rfl, rfl, rfl, rfl, rfl, rfl, rfl⟩
  unfold finalizeFrame
  split
  · exact Or.inl rfl
  next a ha =>
  split
  · exact Or.inl rfl
  next hcomplete =>
  have hcomplete : a.isComplete = true := by simpa using hcomplete
  refine Or.inr ?_
  dsimp only
  split
  · next hkey =>
      refine ⟨a, _, _, rfl, ha, hcomplete, rfl, rfl, rfl, rfl, rfl, rfl, ?_⟩
      rw [hkey]
      exact .key hkey rfl
  next hdelta =>
  have hdelta : a.isKeyFrame = false := by simpa using hdelta
  split
  · next hwaiting =>
      obtain ⟨hframes, hfec, hbytes, hconfig, hseen, hcompleted, hwait⟩ := hmark
        { r with
          frames := r.frames.erase id
          bufferedBytes := r.bufferedBytes - a.bufferedBytes
          latestCompletedId := some a.frameId
          pendingFec := r.pendingFec.erase id }
      exact ⟨a, _, _, rfl, ha, hcomplete, hframes, hfec, hbytes, hconfig, hseen,
        hcompleted, .withheld hdelta (hwait.trans hwaiting)⟩
  next hrunning =>
  have hrunning : r.waitingAfterLoss = false := by simpa using hrunning
  split
  · obtain ⟨hframes, hfec, hbytes, hconfig, hseen, hcompleted, hwait⟩ := hmark
      { r with
        frames := r.frames.erase id
        bufferedBytes := r.bufferedBytes - a.bufferedBytes
        latestCompletedId := some a.frameId
        pendingFec := r.pendingFec.erase id
        waitingAfterLoss := true }
    exact ⟨a, _, _, rfl, ha, hcomplete, hframes, hfec, hbytes, hconfig, hseen,
      hcompleted, .withheld hdelta hwait⟩
  · next hbase =>
      have hbase : brokenBase r.latestCompletedId id = false := by
        simpa using hbase
      refine ⟨a, _, _, rfl, ha, hcomplete, rfl, rfl, rfl, rfl, rfl, rfl, ?_⟩
      rw [hdelta]
      exact .delta hdelta hrunning hbase hrunning

/-- How a call that concerns one frame ends: with nothing finished, or with a
complete frame that leaves. -/
def Outcome (P : Nat → FrameAssembly → Prop) (r : ChannelReassembler)
    (id now : Nat) (r' : ChannelReassembler) (out : Option Delivery) : Prop :=
  (out = none ∧ SameStatus r r') ∨
  ∃ a last, P id a ∧ a.isComplete = true ∧ SameStatus r last ∧
    r'.latestCodecConfig = r.latestCodecConfig ∧
    r'.latestCompletedId = some a.frameId ∧ Finishes last id now a r' out

section

variable {P : Nat → FrameAssembly → Prop} {Q : Nat → Evrt.FecMeta → Prop}
variable {r}

theorem Outcome.after {earlier r' : ChannelReassembler} {id now : Nat}
    {out : Option Delivery} (hstatus : SameStatus earlier r)
    (h : Outcome P r id now r' out) : Outcome P earlier id now r' out := by
  rcases h with ⟨hnone, hsame⟩ | ⟨a, last, ha, hcomplete, hlast, hconfig, hcompleted, hfinish⟩
  · exact Or.inl ⟨hnone, hstatus.trans hsame⟩
  · exact Or.inr ⟨a, last, ha, hcomplete, hstatus.trans hlast,
      hconfig.trans hstatus.config, hcompleted, hfinish⟩

theorem finalizeFrame_holds (h : Holds P Q r) (id now : Nat) :
    Holds P Q (r.finalizeFrame id now).1 ∧
      Outcome P r id now (r.finalizeFrame id now).1 (r.finalizeFrame id now).2 := by
  rcases r.finalizeFrame_cases id now with hsame | ⟨a, r', out, hresult, ha,
    hcomplete, hframes, hfec, _, hconfig, _, hcompleted, hfinish⟩
  · rw [hsame]
    exact ⟨h, Or.inl ⟨rfl, SameStatus.refl r⟩⟩
  · rw [hresult]
    refine ⟨⟨?_, ?_⟩, Or.inr ⟨a, r, h.frames id a ha, hcomplete,
      SameStatus.refl r, hconfig, hcompleted, hfinish⟩⟩
    · intro id' a' hlookup
      rw [hframes] at hlookup
      exact h.frames id' a' (lookup_erase_some hlookup).2
    · intro id' fecs hlookup
      rw [hfec] at hlookup
      exact h.fec id' fecs (lookup_erase_some hlookup).2

/-- What a packet may do to its own frame: open it, and fill its slot. -/
structure Accepts (P : Nat → FrameAssembly → Prop) (r : ChannelReassembler)
    (pkt : Evrt.EvrtPacket) (now : Nat) : Prop where
  opens : r.frames.lookup pkt.frameId = none →
    P pkt.frameId (FrameAssembly.new pkt.frameId pkt.packetCount
      pkt.isKeyFrame pkt.presentationTimeUs now)
  fills : ∀ a a', P pkt.frameId a → a.packetCount = pkt.packetCount →
    a.set pkt.packetIndex pkt.payload = some a' → P pkt.frameId a'

private theorem store_holds (hrecover : Recoverable P Q) (h : Holds P Q r)
    (pkt : Evrt.EvrtPacket) (now : Nat)
    (hfills : ∀ a a', r.frames.lookup pkt.frameId = some a →
      a.set pkt.packetIndex pkt.payload = some a' → P pkt.frameId a') :
    Holds P Q (r.store pkt now).1 ∧
      Outcome P r pkt.frameId now (r.store pkt now).1 (r.store pkt now).2 := by
  unfold store
  split
  · exact ⟨h, Or.inl ⟨rfl, SameStatus.refl r⟩⟩
  next a ha =>
  split
  · exact ⟨h, Or.inl ⟨rfl, SameStatus.refl r⟩⟩
  next a' ha' =>
  let filled : ChannelReassembler := { r with
    frames := r.frames.insert pkt.frameId a'
    bufferedBytes := r.bufferedBytes + pkt.payload.length }
  have hfilled : Holds P Q filled := h.insert (hfills a a' ha ha') _ _
  have hstatus : SameStatus r filled := ⟨rfl, rfl, rfl, fun hw => hw⟩
  dsimp only
  split
  · obtain ⟨hholds, hrecovered⟩ := tryFecRecover_holds hrecover pkt.frameId hfilled
    obtain ⟨hdone, houtcome⟩ := finalizeFrame_holds hholds pkt.frameId now
    exact ⟨hdone, houtcome.after (hstatus.trans hrecovered)⟩
  · obtain ⟨hdone, houtcome⟩ := finalizeFrame_holds hfilled pkt.frameId now
    exact ⟨hdone, houtcome.after hstatus⟩

private theorem entry_holds (h : Holds P Q r) {pkt : Evrt.EvrtPacket} {now : Nat}
    (haccepts : Accepts P r pkt now) :
    Holds P Q (r.entry pkt now).1 ∧ SameStatus r (r.entry pkt now).1 ∧
      (r.entry pkt now).1.frames.lookup pkt.frameId = some (r.entry pkt now).2 := by
  unfold entry
  split
  · next a ha => exact ⟨h, SameStatus.refl r, ha⟩
  · next hnone =>
      exact ⟨h.insert (haccepts.opens hnone) _ _, ⟨rfl, rfl, rfl, fun hw => hw⟩,
        AList.lookup_insert _⟩

/-- A parity packet that is not ignored keeps what is recoverable. -/
theorem onFecPacket_holds (hrecover : Recoverable P Q) (h : Holds P Q r)
    (pkt : Evrt.EvrtPacket) (now : Nat)
    (hfec : ∀ fec, Evrt.parseFecPayload pkt.frameId pkt.payload = some fec → Q pkt.frameId fec) :
    r.onFecPacket pkt now = (r, none) ∨
    (r.alreadyCompleted pkt.frameId = false ∧
      Holds P Q (r.onFecPacket pkt now).1 ∧
      Outcome P r pkt.frameId now (r.onFecPacket pkt now).1 (r.onFecPacket pkt now).2) := by
  unfold onFecPacket
  split
  · exact Or.inl rfl
  next hwanted =>
  split
  · exact Or.inl rfl
  split
  · exact Or.inl rfl
  next fec hparsed =>
  refine Or.inr ⟨by simpa using hwanted, ?_⟩
  let noted : ChannelReassembler := { r with
    pendingFec := r.pendingFec.insert pkt.frameId
      ((r.pendingFec.lookup pkt.frameId).getD [] ++ [fec]) }
  have hstatus : SameStatus r noted := ⟨rfl, rfl, rfl, fun hw => hw⟩
  have hnoted : Holds P Q noted := by
    refine ⟨h.frames, ?_⟩
    intro id fecs hlookup
    by_cases heq : id = pkt.frameId
    · subst heq
      rw [AList.lookup_insert] at hlookup
      obtain rfl := Option.some.inj hlookup
      intro member hmember
      rcases List.mem_append.mp hmember with old | new
      · cases hold : r.pendingFec.lookup pkt.frameId with
        | none => simp [hold] at old
        | some fecs =>
            rw [hold] at old
            exact h.fec _ fecs hold member old
      · rw [List.mem_singleton.mp new]
        exact hfec fec hparsed
    · rw [AList.lookup_insert_ne heq] at hlookup
      exact h.fec id fecs hlookup
  dsimp only
  split
  · obtain ⟨hholds, hrecovered⟩ := tryFecRecover_holds hrecover pkt.frameId hnoted
    obtain ⟨hdone, houtcome⟩ := finalizeFrame_holds hholds pkt.frameId now
    exact ⟨hdone, houtcome.after (hstatus.trans hrecovered)⟩
  · exact ⟨hnoted, Or.inl ⟨rfl, hstatus⟩⟩

theorem assemble_holds (hrecover : Recoverable P Q) (h : Holds P Q r)
    {pkt : Evrt.EvrtPacket} {now : Nat} (haccepts : Accepts P r pkt now) :
    Holds P Q (r.assemble pkt now).1 ∧
      Outcome P r pkt.frameId now (r.assemble pkt now).1 (r.assemble pkt now).2 := by
  obtain ⟨hentry, hstatus, hlookup⟩ := entry_holds h haccepts
  unfold assemble
  dsimp only
  split
  · have hgive := (r.entry pkt now).1.giveUp_shrinks pkt.frameId pkt.isKeyFrame
    exact ⟨hentry.shrink hgive, Or.inl ⟨rfl, hstatus.trans hgive.toSameStatus⟩⟩
  next hcount =>
  have hcount := Decidable.not_not.mp hcount
  split
  · exact ⟨hentry, Or.inl ⟨rfl, hstatus⟩⟩
  have hreserve := (r.entry pkt now).1.reserveBuffer_shrinks
    pkt.payload.length pkt.frameId pkt.isKeyFrame
  split
  · next next hnext =>
      rw [hnext] at hreserve
      exact ⟨hentry.shrink hreserve, Or.inl ⟨rfl, hstatus.trans hreserve.toSameStatus⟩⟩
  · next next hnext =>
      rw [hnext] at hreserve
      obtain ⟨hdone, houtcome⟩ := store_holds hrecover (hentry.shrink hreserve)
        pkt now (by
          intro a a' ha ha'
          have hsame := hreserve.frames pkt.frameId a ha
          rw [hlookup] at hsame
          obtain rfl := Option.some.inj hsame
          exact haccepts.fills _ a' (hentry.frames _ _ hlookup) hcount ha')
      exact ⟨hdone, houtcome.after (hstatus.trans hreserve.toSameStatus)⟩

end

/-- A removed frame is gone and the others are as they were. -/
theorem lookup_dropFrame (id id' : Nat) :
    (r.dropFrame id).1.frames.lookup id' =
      if id' = id then none else r.frames.lookup id' := by
  have hmark : ∀ r : ChannelReassembler, (r.markFrameDropped id).frames = r.frames := by
    intro r
    unfold markFrameDropped
    split <;> rfl
  unfold dropFrame
  dsimp only
  split
  · rw [hmark]
    by_cases heq : id' = id
    · subst heq
      simp
    · simp [heq, AList.lookup_erase_ne heq]
  · next hnone =>
      by_cases heq : id' = id
      · subst heq
        simpa using hnone
      · simp [heq]

private theorem lookup_foldl_dropFrame (ids : List Nat) (id : Nat) (r : ChannelReassembler) :
    (ids.foldl (fun r id => (r.dropFrame id).1) r).frames.lookup id =
      if id ∈ ids then none else r.frames.lookup id := by
  induction ids generalizing r with
  | nil => simp
  | cons first ids ih =>
      rw [List.foldl_cons, ih, lookup_dropFrame]
      by_cases hlater : id ∈ ids
      · simp [hlater]
      · by_cases hfirst : id = first <;> simp [hlater, hfirst]

/-- The watermark decides which frames stay. -/
theorem lookup_dropOlderThan (watermark id : Nat) :
    (r.dropOlderThan iter watermark).1.frames.lookup id =
      if id < watermark then none else r.frames.lookup id := by
  unfold dropOlderThan
  dsimp only
  rw [lookup_foldl_dropFrame]
  by_cases hold : id < watermark
  · by_cases hkey : id ∈ r.frames.keys
    · simp [hold, hkey]
    · have hnone : r.frames.lookup id = none := AList.lookup_eq_none.mpr hkey
      simp [hnone]
  · simp [hold]

/-- Nothing behind the watermark, nothing dropped. -/
theorem dropOlderThan_none {watermark : Nat} (h : ∀ id < watermark, r.frames.lookup id = none) :
    r.dropOlderThan iter watermark =
      ({ r with
        pendingFec := retainKeys (fun id => decide (id ≥ watermark)) r.pendingFec },
        0) := by
  have hkeys : r.frames.keys.filter (fun id => decide (id < watermark)) = [] := by
    apply List.filter_eq_nil_iff.mpr
    intro id member
    have hmem : id ∈ r.frames := AList.mem_keys.mp member
    intro hold
    exact AList.lookup_eq_none.mp (h id (by simpa using hold)) hmem
  have horder : iter.order ([] : List Nat) = [] := List.perm_nil.mp (iter.perm [])
  unfold dropOlderThan
  dsimp only
  rw [hkeys, horder]
  rfl

/-- Room enough, nothing dropped. -/
theorem reserveBuffer_fits {bytes : Nat} (id : Nat) (isKeyFrame : Bool)
    (h : r.bufferedBytes + bytes ≤ reassemblyMaxBufferedBytes) :
    r.reserveBuffer bytes id isKeyFrame = (r, true) := by
  have hroom : makeRoom bytes id r.frames.keys.length r false = (r, some false) := by
    unfold makeRoom
    rw [if_pos h]
  unfold reserveBuffer
  rw [if_neg (by omega), hroom]
  rfl

/-- A complete frame is delivered with its contents unless its base is missing. -/
theorem finalizeFrame_delivers {id : Nat} {a : FrameAssembly} (now : Nat)
    (ha : r.frames.lookup id = some a) (hcomplete : a.isComplete = true)
    (hrunning : r.waitingAfterLoss = false)
    (hbase : a.isKeyFrame = true ∨ brokenBase r.latestCompletedId id = false) :
    ∃ delivery, r.finalizeFrame id now =
      ({ r with
        frames := r.frames.erase id
        bufferedBytes := r.bufferedBytes - a.bufferedBytes
        latestCompletedId := some a.frameId
        pendingFec := r.pendingFec.erase id }, some delivery) ∧
      delivery.frameId = id ∧
      delivery.bytes = (if a.isKeyFrame then r.latestCodecConfig.getD [] else []) ++ a.join ∧
      delivery.isKeyFrame = a.isKeyFrame ∧
      delivery.presentationTimeUs = a.presentationTimeUs := by
  unfold finalizeFrame
  rw [ha]
  simp only [hcomplete, Bool.not_true, Bool.false_eq_true, if_false]
  split
  · rw [← hrunning]
    exact ⟨_, rfl, rfl, rfl, rfl, rfl⟩
  · next hdelta =>
      have hunbroken := hbase.resolve_left hdelta
      simp only [hrunning, hunbroken, Bool.false_eq_true, if_false]
      exact ⟨_, rfl, rfl, by simp, rfl, rfl⟩

/-- The reassembler that a wanted packet meets: frames behind the reorder
window are gone, and with a key frame all earlier ones are. -/
structure Opens (pkt : Evrt.EvrtPacket) (opened : ChannelReassembler) : Prop where
  wanted : r.alreadyCompleted pkt.frameId = false
  running : pkt.isKeyFrame = false → r.waitingAfterLoss = false
  shrinks : ∃ seen, Shrinks
    { r with
      latestFrameIdSeen := seen
      waitingAfterLoss := r.waitingAfterLoss && !pkt.isKeyFrame } opened
  kept : ∀ id, pkt.frameId ≤ id → opened.frames.lookup id = r.frames.lookup id
  superseded : pkt.isKeyFrame = true → ∀ id < pkt.frameId, opened.frames.lookup id = none

/-- A packet is ignored or given up, which only drops, or it is wanted. -/
theorem onPacket_cases (pkt : Evrt.EvrtPacket) (now : Nat) :
    (∃ r' seen, r.onPacket iter pkt now = (r', none) ∧
      Shrinks { r with latestFrameIdSeen := seen } r') ∨
    (∃ opened, r.onPacket iter pkt now = opened.assemble pkt now ∧
      pkt.packetIndex < pkt.packetCount ∧ Opens r pkt opened) := by
  have hignored : Shrinks { r with latestFrameIdSeen := r.latestFrameIdSeen } r := Shrinks.refl r
  unfold onPacket
  split
  · exact Or.inl ⟨_, r.latestFrameIdSeen, rfl, markFrameDropped_shrinks _ _⟩
  next hvalid =>
  split
  · exact Or.inl ⟨_, _, rfl, hignored⟩
  next hwanted =>
  have hwanted : r.alreadyCompleted pkt.frameId = false := by simpa using hwanted
  split
  · exact Or.inl ⟨_, _, rfl, hignored⟩
  split
  · exact Or.inl ⟨_, r.latestFrameIdSeen, rfl, markFrameDropped_shrinks _ _⟩
  next hrunning =>
  have hrunning : pkt.isKeyFrame = false → r.waitingAfterLoss = false := by
    intro hdelta
    simpa [hdelta] using hrunning
  unfold noteFrameId
  split
  · next lost hresult =>
      split at hresult
      · dsimp only at hresult
        split at hresult
        · obtain ⟨rfl, -⟩ := Prod.mk.inj hresult
          refine Or.inl ⟨_, some pkt.frameId, rfl, ?_⟩
          exact (((dropOlderThan_shrinks iter _ _).trans (wait_shrinks _)).trans
            (dropOlderThan_shrinks iter _ _)).trans (markFrameDropped_shrinks _ _)
        · obtain ⟨-, himpossible⟩ := Prod.mk.inj hresult
          contradiction
      · obtain ⟨-, himpossible⟩ := Prod.mk.inj hresult
        contradiction
  · next noted hresult =>
      have hnoted : (∃ seen, Shrinks { r with latestFrameIdSeen := seen } noted) ∧
          ∀ id, pkt.frameId ≤ id → noted.frames.lookup id = r.frames.lookup id := by
        split at hresult
        · dsimp only at hresult
          split at hresult
          · obtain ⟨-, himpossible⟩ := Prod.mk.inj hresult
            contradiction
          · obtain ⟨rfl, -⟩ := Prod.mk.inj hresult
            refine ⟨⟨_, dropOlderThan_shrinks iter _ _⟩, ?_⟩
            intro id hid
            rw [lookup_dropOlderThan, if_neg (by omega)]
        · obtain ⟨rfl, -⟩ := Prod.mk.inj hresult
          exact ⟨⟨_, hignored⟩, fun _ _ => rfl⟩
      obtain ⟨⟨seen, hshrinks⟩, hkept⟩ := hnoted
      refine Or.inr ⟨_, rfl, by omega, hwanted, hrunning, ⟨seen, ?_⟩, ?_, ?_⟩
      · unfold noteKeyFrame
        split
        · next hkey =>
            refine Shrinks.trans ?_ (dropOlderThan_shrinks iter _ _)
            exact ⟨⟨hshrinks.config, hshrinks.completed, hshrinks.seen, by
              simp [hkey]⟩, hshrinks.frames, hshrinks.fec⟩
        · next hdelta =>
            have hdelta : pkt.isKeyFrame = false := by simpa using hdelta
            exact ⟨⟨hshrinks.config, hshrinks.completed, hshrinks.seen, by
              simp [hrunning hdelta]⟩, hshrinks.frames, hshrinks.fec⟩
      · intro id hid
        unfold noteKeyFrame
        split
        · rw [lookup_dropOlderThan, if_neg (by omega)]
          exact hkept id hid
        · exact hkept id hid
      · intro hkey id hid
        unfold noteKeyFrame
        rw [if_pos hkey, lookup_dropOlderThan, if_pos hid]

end ChannelReassembler

end EvertyDesk.Reassembler
