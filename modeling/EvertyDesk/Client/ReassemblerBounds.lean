import EvertyDesk.Client.FrameAssembly
import EvertyDesk.Client.ReassemblerSteps

/-!
How much the reassembler holds. Every byte that is stored is counted once and every frame
that leaves takes its bytes along, so the count is the total, and the total stays within
the budget. Unfinished frames lie inside the reorder window; the parity packets do so only
while none comes for a frame ahead of the data.
-/

namespace EvertyDesk.Reassembler

/-- The bytes in the slots of an unfinished frame. -/
def FrameAssembly.storedBytes (a : FrameAssembly) : Nat :=
  (a.parts.map fun slot => (slot.map List.length).getD 0).sum

/-- A frame number inside the reorder window behind the highest one seen. -/
def InWindow (seen : Option Nat) (id : Nat) : Prop :=
  ∃ highest, seen = some highest ∧ id ≤ highest ∧ highest ≤ id + reassemblyReorderWindowFrames

/-- A frame inside the window that counts the bytes in its slots. -/
def CountedInWindow (seen : Option Nat) (id : Nat) (a : FrameAssembly) : Prop :=
  InWindow seen id ∧ a.bufferedBytes = a.storedBytes

theorem storedBytes_set {a a' : FrameAssembly} {index : Nat} {payload : List UInt8}
    (h : a.set index payload = some a') :
    a'.storedBytes = a.storedBytes + payload.length := by
  obtain ⟨hslot, rfl⟩ := FrameAssembly.set_eq_some h
  obtain ⟨hlt, hempty⟩ := List.getElem?_eq_some_iff.mp hslot
  have hsplit : a.parts = a.parts.take index ++ none :: a.parts.drop (index + 1) := by
    rw [← hempty, List.cons_getElem_drop_succ, List.take_append_drop]
  have hset : a.parts.set index (some payload) =
      a.parts.take index ++ some payload :: a.parts.drop (index + 1) := by
    rw [List.set_eq_take_append_cons_drop, if_pos hlt]
  rw [FrameAssembly.storedBytes, FrameAssembly.storedBytes, hset]
  conv_rhs => rw [hsplit]
  simp only [List.map_append, List.map_cons, List.sum_append, List.sum_cons, Option.map_none,
    Option.map_some, Option.getD_none, Option.getD_some]
  omega

theorem CountedInWindow.set {seen : Option Nat} {id index : Nat} {a a' : FrameAssembly}
    {payload : List UInt8} (h : CountedInWindow seen id a)
    (hset : a.set index payload = some a') : CountedInWindow seen id a' := by
  have hstored := storedBytes_set hset
  obtain ⟨-, rfl⟩ := FrameAssembly.set_eq_some hset
  have hcount := h.2
  refine ⟨h.1, ?_⟩
  dsimp only
  omega

theorem CountedInWindow.new {seen : Option Nat} {id : Nat} (h : InWindow seen id)
    (packetCount : Nat) (isKeyFrame : Bool) (pts now : Nat) :
    CountedInWindow seen id (.new id packetCount isKeyFrame pts now) := by
  refine ⟨h, ?_⟩
  simp [FrameAssembly.new, FrameAssembly.storedBytes]

namespace ChannelReassembler

/-- The buffer sizes of all unfinished frames together. -/
def heldBytes (r : ChannelReassembler) : Nat := totalOf FrameAssembly.bufferedBytes r.frames

/-- The tracked byte count is the total and within the budget. -/
structure Accounted (r : ChannelReassembler) : Prop where
  total : r.bufferedBytes = r.heldBytes
  budget : r.bufferedBytes ≤ reassemblyMaxBufferedBytes

/-- What every operation on a frame does to the accounts: the highest number seen stays,
no parity packet is added, and the count remains right. -/
structure Accounts (r r' : ChannelReassembler) : Prop where
  seen : r'.latestFrameIdSeen = r.latestFrameIdSeen
  fec : ∀ id fecs, r'.pendingFec.lookup id = some fecs → r.pendingFec.lookup id = some fecs
  accounted : r.Accounted → r'.Accounted

namespace Accounts

theorem refl (r : ChannelReassembler) : Accounts r r := ⟨rfl, fun _ _ h => h, fun h => h⟩

theorem trans {r r' r'' : ChannelReassembler} (h : Accounts r r') (h' : Accounts r' r'') :
    Accounts r r'' where
  seen := h'.seen.trans h.seen
  fec id fecs hlookup := h.fec id fecs (h'.fec id fecs hlookup)
  accounted haccounted := h'.accounted (h.accounted haccounted)

end Accounts

variable (iter : IterOrder Nat) (r : ChannelReassembler)

theorem markFrameDropped_accounts (id : Nat) : Accounts r (r.markFrameDropped id) := by
  unfold markFrameDropped
  split
  · exact ⟨rfl, fun _ _ h => h, fun h => ⟨h.total, h.budget⟩⟩
  · exact Accounts.refl r

theorem wait_accounts : Accounts r { r with waitingAfterLoss := true } :=
  ⟨rfl, fun _ _ h => h, fun h => ⟨h.total, h.budget⟩⟩

/-- A frame that leaves takes its bytes along. -/
theorem accounted_erase {r r' : ChannelReassembler} {id : Nat} {a : FrameAssembly}
    (h : r.Accounted) (ha : r.frames.lookup id = some a)
    (hframes : r'.frames = r.frames.erase id)
    (hbytes : r'.bufferedBytes = r.bufferedBytes - a.bufferedBytes) : r'.Accounted := by
  have herase := totalOf_erase FrameAssembly.bufferedBytes ha
  have htotal : r.bufferedBytes = totalOf FrameAssembly.bufferedBytes r.frames := h.total
  have hbudget := h.budget
  constructor
  · rw [heldBytes, hframes]
    omega
  · omega

/-- A slot that is filled is counted, when there is room for it. -/
theorem accounted_fill {r r' : ChannelReassembler} {id index : Nat} {a a' : FrameAssembly}
    {bytes : List UInt8} (h : r.Accounted) (ha : r.frames.lookup id = some a)
    (hset : a.set index bytes = some a')
    (hroom : r.bufferedBytes + bytes.length ≤ reassemblyMaxBufferedBytes)
    (hframes : r'.frames = r.frames.insert id a')
    (hbytes : r'.bufferedBytes = r.bufferedBytes + bytes.length) : r'.Accounted := by
  have hinsert := totalOf_insert FrameAssembly.bufferedBytes a' ha
  have htotal : r.bufferedBytes = totalOf FrameAssembly.bufferedBytes r.frames := h.total
  obtain ⟨-, rfl⟩ := FrameAssembly.set_eq_some hset
  dsimp only at hinsert
  constructor
  · rw [heldBytes, hframes]
    omega
  · omega

theorem dropFrame_accounts (id : Nat) : Accounts r (r.dropFrame id).1 := by
  unfold dropFrame
  dsimp only
  split
  · next a ha =>
      refine Accounts.trans ?_ (markFrameDropped_accounts _ id)
      exact ⟨rfl, fun _ _ h => (lookup_erase_some h).2, fun h => accounted_erase h ha rfl rfl⟩
  · exact ⟨rfl, fun _ _ h => (lookup_erase_some h).2, fun h => ⟨h.total, h.budget⟩⟩

private theorem foldl_dropFrame_accounts (ids : List Nat) (r : ChannelReassembler) :
    Accounts r (ids.foldl (fun r id => (r.dropFrame id).1) r) := by
  induction ids generalizing r with
  | nil => exact Accounts.refl r
  | cons id ids ih => exact (r.dropFrame_accounts id).trans (ih _)

theorem dropOlderThan_accounts (id : Nat) : Accounts r (r.dropOlderThan iter id).1 := by
  unfold dropOlderThan
  refine Accounts.trans ?_ (foldl_dropFrame_accounts _ _)
  refine ⟨rfl, ?_, fun h => ⟨h.total, h.budget⟩⟩
  intro id' fecs h
  dsimp only at h
  rw [lookup_retainKeys] at h
  split at h
  · exact h
  · contradiction

theorem dropOldestExcept_accounts (keep : Nat) : Accounts r (r.dropOldestExcept keep).1 := by
  unfold dropOldestExcept
  split
  · exact Accounts.refl r
  · exact r.dropFrame_accounts _

/-- When the loop ends with success there is room for the bytes. -/
theorem makeRoom_accounts (bytes keep passes : Nat) (r : ChannelReassembler) (droppedAny : Bool) :
    Accounts r (makeRoom bytes keep passes r droppedAny).1 ∧
      ((makeRoom bytes keep passes r droppedAny).2 ≠ none →
        (makeRoom bytes keep passes r droppedAny).1.bufferedBytes + bytes ≤
          reassemblyMaxBufferedBytes) := by
  induction passes generalizing r droppedAny with
  | zero =>
      unfold makeRoom
      split
      · next hroom => exact ⟨Accounts.refl r, fun _ => hroom⟩
      · exact ⟨Accounts.refl r, fun h => absurd rfl h⟩
  | succ passes ih =>
      have hdrop := r.dropOldestExcept_accounts keep
      unfold makeRoom
      split
      · next hroom => exact ⟨Accounts.refl r, fun _ => hroom⟩
      dsimp only
      split
      · next next hnext =>
          rw [hnext] at hdrop
          obtain ⟨haccounts, hroom⟩ := ih next true
          exact ⟨hdrop.trans haccounts, hroom⟩
      · next next hnext =>
          rw [hnext] at hdrop
          exact ⟨hdrop, fun h => absurd rfl h⟩

theorem giveUp_accounts (id : Nat) (isKeyFrame : Bool) : Accounts r (r.giveUp id isKeyFrame) := by
  unfold giveUp
  dsimp only
  split
  · exact (r.dropFrame_accounts id).trans (wait_accounts _)
  · exact r.dropFrame_accounts id

theorem reserveBuffer_accounts (bytes id : Nat) (isKeyFrame : Bool) :
    Accounts r (r.reserveBuffer bytes id isKeyFrame).1 ∧
      ((r.reserveBuffer bytes id isKeyFrame).2 = true →
        (r.reserveBuffer bytes id isKeyFrame).1.bufferedBytes + bytes ≤
          reassemblyMaxBufferedBytes) := by
  obtain ⟨hmake, hroom⟩ := makeRoom_accounts bytes id r.frames.keys.length r false
  unfold reserveBuffer
  split
  · exact ⟨r.giveUp_accounts id isKeyFrame, fun h => Bool.noConfusion h⟩
  split
  · next next hnext =>
      rw [hnext] at hmake
      exact ⟨hmake.trans (next.giveUp_accounts id isKeyFrame), fun h => Bool.noConfusion h⟩
  · next next droppedAny hnext =>
      rw [hnext] at hmake hroom
      split
      · have hdropped := ((hmake.trans (next.dropFrame_accounts id)).trans
          (markFrameDropped_accounts _ id)).trans (wait_accounts _)
        exact ⟨hdropped, fun h => Bool.noConfusion h⟩
      · exact ⟨hmake, fun _ => hroom (by simp)⟩

theorem putRecovered_accounts (id index : Nat) (bytes : List UInt8)
    (hroom : r.bufferedBytes + bytes.length ≤ reassemblyMaxBufferedBytes) :
    Accounts r (r.putRecovered id index bytes) := by
  unfold putRecovered
  split
  · exact Accounts.refl r
  next a ha =>
  split
  · exact Accounts.refl r
  next a' ha' =>
  exact ⟨rfl, fun _ _ h => h, fun h => accounted_fill h ha ha' hroom rfl rfl⟩

theorem recoverFrom_accounts (id : Nat) (fecs : List Evrt.FecMeta) (r : ChannelReassembler) :
    Accounts r (recoverFrom id r fecs) := by
  induction fecs generalizing r with
  | nil => exact Accounts.refl r
  | cons fec fecs ih =>
      unfold recoverFrom
      split
      · exact Accounts.refl r
      next a ha =>
      split
      · exact Accounts.refl r
      split
      · exact ih r
      next index bytes hbytes =>
      obtain ⟨hreserve, hroom⟩ := r.reserveBuffer_accounts bytes.length id a.isKeyFrame
      split
      · next next hnext =>
          rw [hnext] at hreserve
          exact hreserve.trans (ih next)
      · next next hnext =>
          rw [hnext] at hreserve hroom
          have hput := next.putRecovered_accounts id index bytes (hroom rfl)
          exact (hreserve.trans hput).trans (ih _)

theorem tryFecRecover_accounts (id : Nat) : Accounts r (r.tryFecRecover id) := by
  unfold tryFecRecover
  split
  · exact Accounts.refl r
  · exact recoverFrom_accounts id _ r

theorem finalizeFrame_accounts (id now : Nat) : Accounts r (r.finalizeFrame id now).1 := by
  rcases r.finalizeFrame_cases id now with hsame | ⟨a, r', out, hresult, ha, -, hframes, hfec,
    hbytes, -, hseen, -, -⟩
  · rw [hsame]
    exact Accounts.refl r
  · rw [hresult]
    refine ⟨hseen, ?_, fun h => accounted_erase h ha hframes hbytes⟩
    intro id' fecs hlookup
    dsimp only at hlookup
    rw [hfec] at hlookup
    exact (lookup_erase_some hlookup).2

theorem entry_accounts (pkt : Evrt.EvrtPacket) (now : Nat) : Accounts r (r.entry pkt now).1 := by
  unfold entry
  split
  · exact Accounts.refl r
  next hnone =>
  refine ⟨rfl, fun _ _ h => h, fun h => ⟨?_, h.budget⟩⟩
  have htotal : r.bufferedBytes = totalOf FrameAssembly.bufferedBytes r.frames := h.total
  rw [heldBytes, totalOf_insert_new hnone, htotal]
  exact (Nat.zero_add _).symm

theorem store_accounts (pkt : Evrt.EvrtPacket) (now : Nat)
    (hroom : r.bufferedBytes + pkt.payload.length ≤ reassemblyMaxBufferedBytes) :
    Accounts r (r.store pkt now).1 := by
  unfold store
  split
  · exact Accounts.refl r
  next a ha =>
  split
  · exact Accounts.refl r
  next a' ha' =>
  let filled : ChannelReassembler := { r with
    frames := r.frames.insert pkt.frameId a'
    bufferedBytes := r.bufferedBytes + pkt.payload.length }
  have hfilled : Accounts r filled :=
    ⟨rfl, fun _ _ h => h, fun h => accounted_fill h ha ha' hroom rfl rfl⟩
  dsimp only
  split
  · exact (hfilled.trans (tryFecRecover_accounts _ _)).trans (finalizeFrame_accounts _ _ _)
  · exact hfilled.trans (finalizeFrame_accounts _ _ _)

theorem assemble_accounts (pkt : Evrt.EvrtPacket) (now : Nat) :
    Accounts r (r.assemble pkt now).1 := by
  have hentry := r.entry_accounts pkt now
  unfold assemble
  dsimp only
  split
  · exact hentry.trans (giveUp_accounts _ _ _)
  split
  · exact hentry
  obtain ⟨hreserve, hroom⟩ := (r.entry pkt now).1.reserveBuffer_accounts
    pkt.payload.length pkt.frameId pkt.isKeyFrame
  split
  · next next hnext =>
      rw [hnext] at hreserve
      exact hentry.trans hreserve
  · next next hnext =>
      rw [hnext] at hreserve hroom
      exact (hentry.trans hreserve).trans (next.store_accounts pkt now (hroom rfl))

/-- The counts are right, the total is within the budget, and all unfinished frames are in
the window. -/
structure Bounded (r : ChannelReassembler) : Prop extends Accounted r where
  frames : ∀ id a, r.frames.lookup id = some a → CountedInWindow r.latestFrameIdSeen id a

variable {r}

theorem Bounded.shrink {r' : ChannelReassembler} (h : r.Bounded) (hshrinks : Shrinks r r')
    (haccounts : Accounts r r') : r'.Bounded where
  toAccounted := haccounts.accounted h.toAccounted
  frames id a hlookup := by
    rw [haccounts.seen]
    exact h.frames id a (hshrinks.frames id a hlookup)

/-- A frame that is neither too old nor the newest is in the window. -/
theorem inWindow_of_seen {id : Nat} (hold : r.tooOld id = false)
    (hnew : r.isNewest id = false) : InWindow r.latestFrameIdSeen id := by
  cases hseen : r.latestFrameIdSeen with
  | none => simp [isNewest, hseen] at hnew
  | some seen =>
      simp only [isNewest, hseen, decide_eq_false_iff_not, Nat.not_lt] at hnew
      have hreach : ¬ satAdd32 id reassemblyReorderWindowFrames < seen := by
        simpa [tooOld, hseen] using hold
      rw [satAdd32] at hreach
      exact ⟨seen, rfl, hnew, by omega⟩

theorem inWindow_newest (id : Nat) : InWindow (some id) id :=
  ⟨id, rfl, Nat.le_refl id, Nat.le_add_right id _⟩

/-- What was in the window and is not behind the new watermark is in the new window. -/
theorem inWindow_move {newest id : Nat} (h : InWindow r.latestFrameIdSeen id)
    (hnew : r.isNewest newest = true) (hid : newest - reassemblyReorderWindowFrames ≤ id) :
    InWindow (some newest) id := by
  obtain ⟨seen, hseen, hle, -⟩ := h
  simp only [isNewest, hseen, decide_eq_true_eq] at hnew
  exact ⟨newest, rfl, by omega, by omega⟩

theorem fec_dropOlderThan {watermark id : Nat} {fecs : List Evrt.FecMeta}
    (h : (r.dropOlderThan iter watermark).1.pendingFec.lookup id = some fecs) :
    watermark ≤ id := by
  have hkept := (foldl_dropFrame_accounts _ _).fec id fecs h
  dsimp only at hkept
  rw [lookup_retainKeys] at hkept
  split at hkept
  · next hkeep => simpa using hkeep
  · contradiction

/-- A new highest frame number moves the window on, and what is behind it goes. -/
theorem noteFrameId_moves {id : Nat} (hnew : r.isNewest id = true) (isKeyFrame : Bool) :
    Accounts { r with latestFrameIdSeen := some id } (r.noteFrameId iter id isKeyFrame).1 ∧
      (∀ id' a, (r.noteFrameId iter id isKeyFrame).1.frames.lookup id' = some a →
        id - reassemblyReorderWindowFrames ≤ id' ∧ r.frames.lookup id' = some a) ∧
      ∀ id' fecs, (r.noteFrameId iter id isKeyFrame).1.pendingFec.lookup id' = some fecs →
        id - reassemblyReorderWindowFrames ≤ id' := by
  let noted : ChannelReassembler := { r with latestFrameIdSeen := some id }
  let moved := noted.dropOlderThan iter (id - reassemblyReorderWindowFrames)
  have hmoved : Accounts noted moved.1 := noted.dropOlderThan_accounts iter _
  have hframes : ∀ id' a, moved.1.frames.lookup id' = some a →
      id - reassemblyReorderWindowFrames ≤ id' ∧ r.frames.lookup id' = some a := by
    intro id' a hlookup
    rw [lookup_dropOlderThan] at hlookup
    split at hlookup
    · contradiction
    · exact ⟨by omega, hlookup⟩
  have hfec : ∀ id' fecs, moved.1.pendingFec.lookup id' = some fecs →
      id - reassemblyReorderWindowFrames ≤ id' := fun id' fecs => fec_dropOlderThan iter
  have hresult : (r.noteFrameId iter id isKeyFrame).1 = moved.1 ∨
      (Accounts moved.1 (r.noteFrameId iter id isKeyFrame).1 ∧
        Shrinks moved.1 (r.noteFrameId iter id isKeyFrame).1) := by
    unfold noteFrameId
    rw [if_pos hnew]
    dsimp only
    split
    · refine .inr ⟨?_, ?_⟩
      · exact ((wait_accounts _).trans (dropOlderThan_accounts iter _ _)).trans
          (markFrameDropped_accounts _ id)
      · exact ((wait_shrinks _).trans (dropOlderThan_shrinks iter _ _)).trans
          (markFrameDropped_shrinks _ id)
    · exact .inl rfl
  rcases hresult with hsame | ⟨haccounts, hshrinks⟩
  · rw [hsame]
    exact ⟨hmoved, hframes, hfec⟩
  · refine ⟨hmoved.trans haccounts, ?_, ?_⟩
    · intro id' a hlookup
      exact hframes id' a (hshrinks.frames id' a hlookup)
    · intro id' fecs hlookup
      exact hfec id' fecs (hshrinks.fec id' fecs hlookup)

/-- A frame that is not the newest changes nothing where it is noted. -/
theorem noteFrameId_not_newest {id : Nat} (hnew : r.isNewest id = false) (isKeyFrame : Bool) :
    r.noteFrameId iter id isKeyFrame = (r, false) := by
  unfold noteFrameId
  rw [if_neg (by simp [hnew])]

theorem noteFrameId_bounded {id : Nat} (h : r.Bounded) (hold : r.tooOld id = false)
    (isKeyFrame : Bool) :
    (r.noteFrameId iter id isKeyFrame).1.Bounded ∧
      InWindow (r.noteFrameId iter id isKeyFrame).1.latestFrameIdSeen id := by
  cases hnew : r.isNewest id with
  | false =>
      rw [noteFrameId_not_newest iter hnew]
      exact ⟨h, inWindow_of_seen hold hnew⟩
  | true =>
      obtain ⟨haccounts, hframes, -⟩ := noteFrameId_moves iter hnew isKeyFrame
      refine ⟨⟨haccounts.accounted ⟨h.total, h.budget⟩, ?_⟩, ?_⟩
      · intro id' a hlookup
        obtain ⟨hid, hlookup⟩ := hframes id' a hlookup
        obtain ⟨hwindow, hcount⟩ := h.frames id' a hlookup
        rw [haccounts.seen]
        exact ⟨inWindow_move hwindow hnew hid, hcount⟩
      · rw [haccounts.seen]
        exact inWindow_newest id

theorem noteKeyFrame_shrinks (id : Nat) (isKeyFrame : Bool) :
    Accounts r (r.noteKeyFrame iter id isKeyFrame) ∧
      ∀ id' a, (r.noteKeyFrame iter id isKeyFrame).frames.lookup id' = some a →
        r.frames.lookup id' = some a := by
  let running : ChannelReassembler := { r with waitingAfterLoss := false }
  have hrunning : Accounts r running := ⟨rfl, fun _ _ h => h, fun h => ⟨h.total, h.budget⟩⟩
  unfold noteKeyFrame
  split
  · exact ⟨hrunning.trans (dropOlderThan_accounts iter _ _),
      fun id' a hlookup => (dropOlderThan_shrinks iter running id).frames id' a hlookup⟩
  · exact ⟨Accounts.refl r, fun _ _ h => h⟩

theorem noteKeyFrame_bounded (h : r.Bounded) (id : Nat) (isKeyFrame : Bool) :
    (r.noteKeyFrame iter id isKeyFrame).Bounded ∧
      (r.noteKeyFrame iter id isKeyFrame).latestFrameIdSeen = r.latestFrameIdSeen := by
  obtain ⟨haccounts, hframes⟩ := noteKeyFrame_shrinks (r := r) iter id isKeyFrame
  refine ⟨⟨haccounts.accounted h.toAccounted, ?_⟩, haccounts.seen⟩
  intro id' a hlookup
  rw [haccounts.seen]
  exact h.frames id' a (hframes id' a hlookup)

private theorem counted_recoverable (seen : Option Nat) :
    Recoverable (CountedInWindow seen) (fun _ _ => True) :=
  fun _ _ _ _ _ _ hcounted _ _ hset => hcounted.set hset

private theorem Bounded.holds (h : r.Bounded) :
    Holds (CountedInWindow r.latestFrameIdSeen) (fun _ _ => True) r :=
  ⟨h.frames, fun _ _ _ _ _ => trivial⟩

private theorem Bounded.of_holds {r' : ChannelReassembler} (h : r.Bounded)
    (haccounts : Accounts r r')
    (hholds : Holds (CountedInWindow r.latestFrameIdSeen) (fun _ _ => True) r') :
    r'.Bounded where
  toAccounted := haccounts.accounted h.toAccounted
  frames := by
    rw [haccounts.seen]
    exact hholds.frames

theorem assemble_bounded (h : r.Bounded) {pkt : Evrt.EvrtPacket}
    (hwindow : InWindow r.latestFrameIdSeen pkt.frameId) (now : Nat) :
    (r.assemble pkt now).1.Bounded := by
  have haccepts : Accepts (CountedInWindow r.latestFrameIdSeen) r pkt now :=
    ⟨fun _ => CountedInWindow.new hwindow _ _ _ _, fun _ _ hcounted _ hset => hcounted.set hset⟩
  obtain ⟨hholds, -⟩ := assemble_holds (counted_recoverable _) h.holds haccepts
  exact h.of_holds (r.assemble_accounts pkt now) hholds

theorem onPacket_bounded (h : r.Bounded) (pkt : Evrt.EvrtPacket) (now : Nat) :
    (r.onPacket iter pkt now).1.Bounded := by
  have hmarked : (r.markFrameDropped pkt.frameId).Bounded :=
    h.shrink (r.markFrameDropped_shrinks _) (r.markFrameDropped_accounts _)
  unfold onPacket
  split
  · exact hmarked
  split
  · exact h
  split
  · exact h
  next hold =>
  split
  · exact hmarked
  obtain ⟨hnoted, hwindow⟩ := noteFrameId_bounded iter h (by simpa using hold) pkt.isKeyFrame
  split
  · next lost hresult =>
      rw [hresult] at hnoted
      exact hnoted
  · next noted hresult =>
      rw [hresult] at hnoted hwindow
      obtain ⟨hkey, hseen⟩ := noteKeyFrame_bounded iter hnoted pkt.frameId pkt.isKeyFrame
      exact assemble_bounded hkey (hseen ▸ hwindow) now

/-- A parity packet is ignored, or it is added to those of its frame before anything else
happens; without the frame nothing else does. -/
theorem onFecPacket_cases (pkt : Evrt.EvrtPacket) (now : Nat) :
    (r.onFecPacket pkt now = (r, none) ∧
      (r.alreadyCompleted pkt.frameId = true ∨ r.tooOld pkt.frameId = true ∨
        Evrt.parseFecPayload pkt.frameId pkt.payload = none)) ∨
    ∃ fec stored, r.alreadyCompleted pkt.frameId = false ∧ r.tooOld pkt.frameId = false ∧
      Evrt.parseFecPayload pkt.frameId pkt.payload = some fec ∧
      stored = { r with
        pendingFec := r.pendingFec.insert pkt.frameId
          ((r.pendingFec.lookup pkt.frameId).getD [] ++ [fec]) } ∧
      Accounts stored (r.onFecPacket pkt now).1 ∧
      (r.frames.lookup pkt.frameId = none → (r.onFecPacket pkt now).1 = stored) := by
  unfold onFecPacket
  split
  · next hdone => exact .inl ⟨rfl, .inl hdone⟩
  next hwanted =>
  split
  · next hold => exact .inl ⟨rfl, .inr (.inl hold)⟩
  next hold =>
  split
  · next hparse => exact .inl ⟨rfl, .inr (.inr hparse)⟩
  next fec hparse =>
  refine .inr ⟨fec, _, by simpa using hwanted, by simpa using hold, hparse, rfl, ?_, ?_⟩
  · dsimp only
    split
    · exact (tryFecRecover_accounts _ _).trans (finalizeFrame_accounts _ _ _)
    · exact Accounts.refl _
  · intro hnone
    dsimp only
    rw [if_neg (by simp [hnone])]

theorem onFecPacket_bounded (h : r.Bounded) (pkt : Evrt.EvrtPacket) (now : Nat) :
    (r.onFecPacket pkt now).1.Bounded := by
  rcases onFecPacket_cases (r := r) pkt now with ⟨hsame, -⟩ | ⟨fec, stored, -, -, -, rfl,
    haccounts, -⟩
  · rw [hsame]
    exact h
  have hstored : Accounted { r with
      pendingFec := r.pendingFec.insert pkt.frameId
        ((r.pendingFec.lookup pkt.frameId).getD [] ++ [fec]) } := ⟨h.total, h.budget⟩
  refine ⟨haccounts.accounted hstored, ?_⟩
  rw [haccounts.seen]
  rcases onFecPacket_holds (counted_recoverable _) h.holds pkt now (fun _ _ => trivial) with
    hsame | ⟨-, hdone, -⟩
  · rw [hsame]
    exact h.frames
  · exact hdone.frames

theorem reset_bounded : r.reset.Bounded := by
  refine ⟨⟨rfl, Nat.zero_le _⟩, ?_⟩
  intro id a hlookup
  simp [reset] at hlookup

theorem new_bounded : ChannelReassembler.new.Bounded := by
  refine ⟨⟨rfl, Nat.zero_le _⟩, ?_⟩
  intro id a hlookup
  simp [ChannelReassembler.new] at hlookup

end ChannelReassembler

open ChannelReassembler

theorem step_bounded (iter : IterOrder Nat) {r : ChannelReassembler} (h : r.Bounded)
    (op : Op) : ((machine iter).step r op).1.Bounded := by
  cases op with
  | packet pkt now => exact onPacket_bounded iter h pkt now
  | fecPacket pkt now => exact onFecPacket_bounded h pkt now
  | setCodecConfig payload => exact ⟨⟨h.total, h.budget⟩, h.frames⟩
  | reset => exact reset_bounded

/-- A call on the reassembler, or one of the two ways in which it drops frames. -/
inductive Call where
  | op (op : Op)
  | dropFrame (frameId : Nat)
  | dropOlderThan (frameId : Nat)

/-- The reassembler as a machine over its calls and its drops. -/
def callMachine (iter : IterOrder Nat) : Machine ChannelReassembler Call (Option Delivery) where
  step r call :=
    match call with
    | .op op => (machine iter).step r op
    | .dropFrame frameId => ((r.dropFrame frameId).1, none)
    | .dropOlderThan frameId => ((r.dropOlderThan iter frameId).1, none)

theorem call_bounded (iter : IterOrder Nat) {r : ChannelReassembler} (h : r.Bounded)
    (call : Call) : ((callMachine iter).step r call).1.Bounded := by
  cases call with
  | op op => exact step_bounded iter h op
  | dropFrame frameId => exact h.shrink (r.dropFrame_shrinks _) (r.dropFrame_accounts _)
  | dropOlderThan frameId =>
      exact h.shrink (dropOlderThan_shrinks iter r _) (dropOlderThan_accounts iter r _)

theorem run_bounded (iter : IterOrder Nat) (calls : List Call) :
    ((callMachine iter).run .new calls).Bounded :=
  (callMachine iter).invariant (I := Bounded) (C := fun _ _ => True)
    (fun _ call h _ => call_bounded iter h call) new_bounded
    ((callMachine iter).along_of_forall (fun _ _ => trivial) _ _)

/-- In every reachable state the tracked count is the total of the buffers, which is within
the budget, and every unfinished frame lies in the reorder window. -/
theorem buffers_within_budget (iter : IterOrder Nat) (calls : List Call) :
    let r := (callMachine iter).run .new calls
    r.bufferedBytes = r.heldBytes ∧ r.heldBytes ≤ reassemblyMaxBufferedBytes ∧
      ∀ id a, r.frames.lookup id = some a →
        a.bufferedBytes = a.storedBytes ∧ InWindow r.latestFrameIdSeen id := by
  intro r
  obtain ⟨⟨htotal, hbudget⟩, hframes⟩ := run_bounded iter calls
  refine ⟨htotal, htotal ▸ hbudget, ?_⟩
  intro id a hlookup
  obtain ⟨hwindow, hcount⟩ := hframes id a hlookup
  exact ⟨hcount, hwindow⟩

end EvertyDesk.Reassembler
