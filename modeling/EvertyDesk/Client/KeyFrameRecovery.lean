import EvertyDesk.Client.ReassemblerBounds
import EvertyDesk.Client.ReassemblerInOrder

/-!
The reassembler recovers with a key frame: whatever packets of earlier frames it was given,
with any contents, a key frame that arrives whole is delivered, and so are the frames after
it for as long as they arrive whole and in order.
-/

namespace EvertyDesk.Reassembler

open Evrt ChannelReassembler

/-- Every frame number that the reassembler remembers is below the bound. Those of parity
packets are not looked at: a parity packet makes no frame. -/
structure ChannelReassembler.NumbersBelow (n : Nat) (r : ChannelReassembler) : Prop where
  frames : ∀ id a, r.frames.lookup id = some a → id < n ∧ a.frameId = id
  completed : ∀ id, r.latestCompletedId = some id → id < n
  seen : ∀ id, r.latestFrameIdSeen = some id → id < n
  dropped : ∀ id, r.lastDroppedId = some id → id < n

namespace ChannelReassembler.NumbersBelow

variable {iter : IterOrder Nat} {n id : Nat} {r : ChannelReassembler}

theorem new (n : Nat) : NumbersBelow n ChannelReassembler.new where
  frames id a h := by simp [ChannelReassembler.new] at h
  completed id h := by cases h
  seen id h := by cases h
  dropped id h := by cases h

variable (h : NumbersBelow n r)

include h

theorem mono {m : Nat} (hle : n ≤ m) : NumbersBelow m r where
  frames id a hlookup := by
    obtain ⟨hid, hname⟩ := h.frames id a hlookup
    exact ⟨Nat.lt_of_lt_of_le hid hle, hname⟩
  completed id hid := Nat.lt_of_lt_of_le (h.completed id hid) hle
  seen id hid := Nat.lt_of_lt_of_le (h.seen id hid) hle
  dropped id hid := Nat.lt_of_lt_of_le (h.dropped id hid) hle

/-- Nothing else of the state matters. -/
theorem congr {r' : ChannelReassembler}
    (hframes : ∀ id a, r'.frames.lookup id = some a → r.frames.lookup id = some a)
    (hcompleted : r'.latestCompletedId = r.latestCompletedId)
    (hseen : r'.latestFrameIdSeen = r.latestFrameIdSeen)
    (hdropped : r'.lastDroppedId = r.lastDroppedId) : NumbersBelow n r' where
  frames id a hlookup := h.frames id a (hframes id a hlookup)
  completed := hcompleted ▸ h.completed
  seen := hseen ▸ h.seen
  dropped := hdropped ▸ h.dropped

theorem wait : NumbersBelow n { r with waitingAfterLoss := true } :=
  h.congr (fun _ _ hlookup => hlookup) rfl rfl rfl

theorem markFrameDropped (hid : id < n) : NumbersBelow n (r.markFrameDropped id) := by
  unfold ChannelReassembler.markFrameDropped
  split
  · refine { h with dropped := ?_ }
    intro last hlast
    cases hlast
    exact hid
  · exact h

theorem dropFrame (id : Nat) : NumbersBelow n (r.dropFrame id).1 := by
  unfold ChannelReassembler.dropFrame
  dsimp only
  split
  · next a hlookup =>
      have herased : NumbersBelow n { r with
          pendingFec := r.pendingFec.erase id
          frames := r.frames.erase id
          bufferedBytes := r.bufferedBytes - a.bufferedBytes } :=
        h.congr (fun _ _ hsome => (lookup_erase_some hsome).2) rfl rfl rfl
      exact herased.markFrameDropped (h.frames id a hlookup).1
  · exact h.congr (fun _ _ hlookup => hlookup) rfl rfl rfl

theorem dropAll (ids : List Nat) :
    NumbersBelow n (ids.foldl (fun r id => (r.dropFrame id).1) r) := by
  induction ids generalizing r with
  | nil => exact h
  | cons id ids ih => exact ih (h.dropFrame id)

theorem dropOlderThan (id : Nat) : NumbersBelow n (r.dropOlderThan iter id).1 := by
  unfold ChannelReassembler.dropOlderThan
  apply dropAll
  exact h.congr (fun _ _ hlookup => hlookup) rfl rfl rfl

theorem dropOldestExcept (keep : Nat) : NumbersBelow n (r.dropOldestExcept keep).1 := by
  unfold ChannelReassembler.dropOldestExcept
  split
  · exact h
  · exact h.dropFrame _

theorem makeRoom (bytes keep passes : Nat) (droppedAny : Bool) :
    NumbersBelow n (ChannelReassembler.makeRoom bytes keep passes r droppedAny).1 := by
  induction passes generalizing r droppedAny with
  | zero =>
      unfold ChannelReassembler.makeRoom
      split <;> exact h
  | succ passes ih =>
      unfold ChannelReassembler.makeRoom
      have hdropped := h.dropOldestExcept keep
      split
      · exact h
      · dsimp only
        split
        · next r' heq =>
            rw [heq] at hdropped
            exact ih hdropped true
        · next r' heq =>
            rw [heq] at hdropped
            exact hdropped

theorem giveUp (id : Nat) (isKeyFrame : Bool) : NumbersBelow n (r.giveUp id isKeyFrame) := by
  unfold ChannelReassembler.giveUp
  dsimp only
  split
  · exact (h.dropFrame id).wait
  · exact h.dropFrame id

theorem reserveBuffer (bytes : Nat) (hid : id < n) (isKeyFrame : Bool) :
    NumbersBelow n (r.reserveBuffer bytes id isKeyFrame).1 := by
  unfold ChannelReassembler.reserveBuffer
  have hroom := h.makeRoom bytes id r.frames.keys.length false
  split
  · exact h.giveUp id isKeyFrame
  · split
    · next r' heq =>
        rw [heq] at hroom
        exact hroom.giveUp id isKeyFrame
    · next r' droppedAny heq =>
        rw [heq] at hroom
        split
        · exact ((hroom.dropFrame id).markFrameDropped hid).wait
        · exact hroom

theorem insert {a : FrameAssembly} (hid : id < n) (hname : a.frameId = id) (bytes recovered : Nat) :
    NumbersBelow n { r with
      frames := r.frames.insert id a
      bufferedBytes := bytes
      fecRecovered := recovered } where
  frames id' a' hlookup := by
    dsimp only at hlookup
    obtain rfl | hne := eq_or_ne id' id
    · rw [AList.lookup_insert] at hlookup
      cases hlookup
      exact ⟨hid, hname⟩
    · rw [AList.lookup_insert_ne hne] at hlookup
      exact h.frames id' a' hlookup
  completed := h.completed
  seen := h.seen
  dropped := h.dropped

theorem putRecovered (id missingIdx : Nat) (recovered : List UInt8) :
    NumbersBelow n (r.putRecovered id missingIdx recovered) := by
  unfold ChannelReassembler.putRecovered
  cases hlookup : r.frames.lookup id with
  | none => exact h
  | some a =>
      obtain ⟨hid, hname⟩ := h.frames id a hlookup
      dsimp only
      cases hset : a.set missingIdx recovered with
      | none => exact h
      | some a' => exact h.insert hid ((FrameAssembly.set_header hset).1.trans hname) _ _

theorem recoverFrom (id : Nat) (fecs : List FecMeta) :
    NumbersBelow n (ChannelReassembler.recoverFrom id r fecs) := by
  induction fecs generalizing r with
  | nil => exact h
  | cons fec fecs ih =>
      unfold ChannelReassembler.recoverFrom
      cases hlookup : r.frames.lookup id with
      | none => exact h
      | some a =>
          have hid := (h.frames id a hlookup).1
          dsimp only
          split
          · exact h
          · split
            · exact ih h
            · next missingIdx recovered _ =>
                have hreserve := h.reserveBuffer recovered.length hid a.isKeyFrame
                split
                · next r' heq =>
                    rw [heq] at hreserve
                    exact ih hreserve
                · next r' heq =>
                    rw [heq] at hreserve
                    exact ih (hreserve.putRecovered id missingIdx recovered)

theorem tryFecRecover (id : Nat) : NumbersBelow n (r.tryFecRecover id) := by
  unfold ChannelReassembler.tryFecRecover
  split
  · exact h
  · exact h.recoverFrom id _

theorem finalizeFrame (id now : Nat) : NumbersBelow n (r.finalizeFrame id now).1 := by
  unfold ChannelReassembler.finalizeFrame
  cases hlookup : r.frames.lookup id with
  | none => exact h
  | some a =>
      obtain ⟨hid, hname⟩ := h.frames id a hlookup
      have hleft : ∀ waiting, NumbersBelow n { r with
          frames := r.frames.erase id
          bufferedBytes := r.bufferedBytes - a.bufferedBytes
          latestCompletedId := some a.frameId
          waitingAfterLoss := waiting
          pendingFec := r.pendingFec.erase id } := by
        intro waiting
        refine ⟨fun id' a' hsome => h.frames id' a' (lookup_erase_some hsome).2, ?_,
          h.seen, h.dropped⟩
        intro completed hcompleted
        cases hcompleted
        exact hname ▸ hid
      dsimp only
      split
      · exact h
      · split
        · exact hleft false
        · split
          · exact (hleft r.waitingAfterLoss).markFrameDropped hid
          · split
            · exact (hleft true).markFrameDropped hid
            · exact hleft r.waitingAfterLoss

theorem noteFrameId (hid : id < n) (isKeyFrame : Bool) :
    NumbersBelow n (r.noteFrameId iter id isKeyFrame).1 := by
  have hseen : NumbersBelow n { r with latestFrameIdSeen := some id } := by
    refine { h with seen := ?_ }
    intro seen hseen
    cases hseen
    exact hid
  unfold ChannelReassembler.noteFrameId
  split
  · dsimp only
    split
    · exact ((hseen.dropOlderThan _).wait.dropOlderThan _).markFrameDropped hid
    · exact hseen.dropOlderThan _
  · exact h

theorem noteKeyFrame (id : Nat) (isKeyFrame : Bool) :
    NumbersBelow n (r.noteKeyFrame iter id isKeyFrame) := by
  unfold ChannelReassembler.noteKeyFrame
  split
  · apply dropOlderThan
    exact h.congr (fun _ _ hlookup => hlookup) rfl rfl rfl
  · exact h

theorem entry (pkt : EvrtPacket) (now : Nat) (hid : pkt.frameId < n) :
    NumbersBelow n (r.entry pkt now).1 := by
  unfold ChannelReassembler.entry
  split
  · exact h
  · exact h.insert hid rfl _ _

theorem store (pkt : EvrtPacket) (now : Nat) : NumbersBelow n (r.store pkt now).1 := by
  unfold ChannelReassembler.store
  cases hlookup : r.frames.lookup pkt.frameId with
  | none => exact h
  | some a =>
      obtain ⟨hid, hname⟩ := h.frames _ a hlookup
      dsimp only
      cases hset : a.set pkt.packetIndex pkt.payload with
      | none => exact h
      | some a' =>
          have hstored := h.insert hid ((FrameAssembly.set_header hset).1.trans hname)
            (r.bufferedBytes + pkt.payload.length) r.fecRecovered
          dsimp only
          split
          · exact (hstored.tryFecRecover _).finalizeFrame _ now
          · exact hstored.finalizeFrame _ now

theorem assemble (pkt : EvrtPacket) (now : Nat) (hid : pkt.frameId < n) :
    NumbersBelow n (r.assemble pkt now).1 := by
  have hentry := h.entry pkt now hid
  unfold ChannelReassembler.assemble
  dsimp only
  split
  · exact hentry.giveUp _ _
  · split
    · exact hentry
    · have hreserve := hentry.reserveBuffer pkt.payload.length hid pkt.isKeyFrame
      split
      · next r' heq =>
          rw [heq] at hreserve
          exact hreserve
      · next r' heq =>
          rw [heq] at hreserve
          exact hreserve.store pkt now

theorem onPacket (pkt : EvrtPacket) (now : Nat) (hid : pkt.frameId < n) :
    NumbersBelow n (r.onPacket iter pkt now).1 := by
  unfold ChannelReassembler.onPacket
  split
  · exact h.markFrameDropped hid
  · split
    · exact h
    · split
      · exact h
      · split
        · exact h.markFrameDropped hid
        · have hnoted : NumbersBelow n (r.noteFrameId iter pkt.frameId pkt.isKeyFrame).1 :=
            h.noteFrameId hid pkt.isKeyFrame
          split
          · next r' heq =>
              rw [heq] at hnoted
              exact hnoted
          · next r' heq =>
              rw [heq] at hnoted
              exact (hnoted.noteKeyFrame _ _).assemble pkt now hid

theorem onFecPacket (pkt : EvrtPacket) (now : Nat) : NumbersBelow n (r.onFecPacket pkt now).1 := by
  unfold ChannelReassembler.onFecPacket
  split
  · exact h
  · split
    · exact h
    · split
      · exact h
      · next fec _ =>
          have hkept : NumbersBelow n { r with
              pendingFec := r.pendingFec.insert pkt.frameId
                ((r.pendingFec.lookup pkt.frameId).getD [] ++ [fec]) } :=
            h.congr (fun _ _ hlookup => hlookup) rfl rfl rfl
          dsimp only
          split
          · exact (hkept.tryFecRecover _).finalizeFrame _ now
          · exact hkept

end ChannelReassembler.NumbersBelow

section Past

variable {r : ChannelReassembler}

theorem isNewest_of_below {n id : Nat} (hseen : ∀ seen, r.latestFrameIdSeen = some seen → seen < n)
    (hid : n ≤ id) : r.isNewest id = true := by
  unfold isNewest
  split
  · next seen hsome =>
      have hlt := hseen seen hsome
      apply decide_eq_true
      omega
  · rfl

theorem recent_of_below {n id : Nat} (hseen : ∀ seen, r.latestFrameIdSeen = some seen → seen < n)
    (hid : n ≤ id) (hlimit : id < 2 ^ 32) : r.tooOld id = false := by
  cases hsome : r.latestFrameIdSeen with
  | none => simp [tooOld, hsome]
  | some seen =>
      have hlt := hseen seen hsome
      rw [tooOld, hsome, Option.any_some]
      apply decide_eq_false
      unfold satAdd32
      omega

theorem wanted_of_below {n id : Nat}
    (hcompleted : ∀ last, r.latestCompletedId = some last → last < n) (hid : n ≤ id) :
    r.alreadyCompleted id = false := by
  cases hsome : r.latestCompletedId with
  | none => simp [alreadyCompleted, hsome]
  | some last =>
      have hlt := hcompleted last hsome
      rw [alreadyCompleted, hsome, Option.any_some]
      apply decide_eq_false
      omega

end Past

/-- A data packet of a frame past all others is looked at, and while the reassembler waits
for a key frame a packet of any other frame is counted as lost. -/
theorem ChannelReassembler.NumbersBelow.counts_news {iter : IterOrder Nat} {n : Nat}
    {r : ChannelReassembler} {pkt : EvrtPacket} (h : NumbersBelow n r) (hid : n ≤ pkt.frameId)
    (hwaiting : r.waitingAfterLoss = true) (hdelta : pkt.isKeyFrame = false) (now : Nat) :
    r.droppedFrames < (r.onPacket iter pkt now).1.droppedFrames := by
  have hmark : (r.markFrameDropped pkt.frameId).droppedFrames = r.droppedFrames + 1 := by
    unfold ChannelReassembler.markFrameDropped
    rw [if_pos]
    intro hlast
    have hlt := h.dropped _ hlast
    omega
  have hwanted := wanted_of_below h.completed hid
  have hrecent := recent_of_below h.seen hid pkt.frameId_lt
  unfold ChannelReassembler.onPacket
  split
  · rw [hmark]
    exact Nat.lt_succ_self _
  · rw [if_neg (by simp [hwanted]), if_neg (by simp [hrecent]),
      if_pos (by simp [hwaiting, hdelta]), hmark]
    exact Nat.lt_succ_self _

/-- A call that is about frames below a number only. -/
def Op.FramesBelow (n : Nat) : Op → Prop
  | .packet pkt _ => pkt.frameId < n
  | .fecPacket pkt _ => pkt.frameId < n
  | _ => True

/-- The reassembler after such calls. -/
structure Behind (n : Nat) (r : ChannelReassembler) : Prop where
  numbers : r.NumbersBelow n
  parity : Holds (fun _ _ => True) (fun id _ => id < n) r
  bounded : r.Bounded

namespace Behind

variable {n : Nat} {r : ChannelReassembler}

theorem new (n : Nat) : Behind n ChannelReassembler.new where
  numbers := NumbersBelow.new n
  parity := by
    constructor
    · intro id a _
      trivial
    · intro id fecs hlookup
      simp [ChannelReassembler.new] at hlookup
  bounded := new_bounded

private theorem parity_step (iter : IterOrder Nat)
    (h : Holds (fun _ _ => True) (fun id _ => id < n) r) {op : Op} (hop : op.FramesBelow n) :
    Holds (fun _ _ => True) (fun id _ => id < n) ((machine iter).step r op).1 := by
  have hrecover : Recoverable (fun _ _ => True) fun id (_ : FecMeta) => id < n :=
    fun _ _ _ _ _ _ _ _ _ _ => trivial
  have hstatus : ∀ seen waiting, Holds (fun _ _ => True) (fun id (_ : FecMeta) => id < n)
      { r with latestFrameIdSeen := seen, waitingAfterLoss := waiting } :=
    fun _ _ => ⟨h.frames, h.fec⟩
  cases op with
  | packet pkt now =>
      change Holds _ _ (r.onPacket iter pkt now).1
      obtain ⟨r', seen, heq, hshrinks⟩ | ⟨opened, heq, -, hopens⟩ := onPacket_cases iter r pkt now
      · rw [heq]
        exact (hstatus seen r.waitingAfterLoss).shrink hshrinks
      · rw [heq]
        obtain ⟨seen, hshrinks⟩ := hopens.shrinks
        have hopened := (hstatus seen _).shrink hshrinks
        exact (assemble_holds hrecover hopened ⟨fun _ => trivial, fun _ _ _ _ _ => trivial⟩).1
  | fecPacket pkt now =>
      change Holds _ _ (r.onFecPacket pkt now).1
      obtain heq | ⟨-, hholds, -⟩ := onFecPacket_holds hrecover h pkt now (fun fec _ => hop)
      · rw [heq]
        exact h
      · exact hholds
  | setCodecConfig payload => exact ⟨h.frames, h.fec⟩
  | reset =>
      change Holds _ _ r.reset
      constructor
      · intro id a _
        trivial
      · intro id fecs hlookup
        simp [ChannelReassembler.reset] at hlookup

theorem step (iter : IterOrder Nat) (h : Behind n r) {op : Op} (hop : op.FramesBelow n) :
    Behind n ((machine iter).step r op).1 := by
  refine ⟨?_, parity_step iter h.parity hop, step_bounded iter h.bounded op⟩
  cases op with
  | packet pkt now => exact h.numbers.onPacket pkt now hop
  | fecPacket pkt now => exact h.numbers.onFecPacket pkt now
  | setCodecConfig payload => exact h.numbers.congr (fun _ _ hlookup => hlookup) rfl rfl rfl
  | reset =>
      change r.reset.NumbersBelow n
      refine ⟨?_, ?_, ?_, ?_⟩
      · intro id a hlookup
        simp [ChannelReassembler.reset] at hlookup
      · intro id hid
        cases hid
      · intro id hid
        cases hid
      · intro id hid
        cases hid

theorem run (iter : IterOrder Nat) (h : Behind n r) {ops : List Op}
    (hops : ∀ op ∈ ops, op.FramesBelow n) : Behind n ((machine iter).run r ops) := by
  induction ops generalizing r with
  | nil => exact h
  | cons op ops ih =>
      exact ih (h.step iter (hops op List.mem_cons_self))
        (fun op' hmem => hops op' (List.mem_cons_of_mem _ hmem))

end Behind

namespace SentFrame

/-- What the packetizers send: few enough packets that are short enough. -/
structure Sendable (frame : SentFrame) : Prop where
  nonempty : frame.pieces ≠ []
  count : frame.pieces.length ≤ maxFramePacketCount
  short : ∀ piece ∈ frame.pieces, piece.length ≤ maxPayloadSize

/-- The bytes of the first packets. -/
def bytesOf (frame : SentFrame) (count : Nat) : Nat :=
  ((frame.pieces.take count).map List.length).sum

/-- The payload of a packet follows those of the packets before it. -/
theorem bytesOf_succ (frame : SentFrame) {count : Nat} (hcount : count < frame.pieces.length) :
    frame.bytesOf (count + 1) = frame.bytesOf count + (frame.packet count).payload.length := by
  have hpiece : frame.pieces[count]? = some frame.pieces[count] := List.getElem?_eq_getElem hcount
  unfold bytesOf packet
  rw [List.take_add_one, hpiece, Option.toList_some, List.map_append, List.sum_append]
  simp [List.getD, hpiece]

/-- A frame never fills the buffer. -/
theorem Sendable.fits {frame : SentFrame} (h : frame.Sendable) (count : Nat) :
    frame.bytesOf count ≤ reassemblyMaxBufferedBytes := by
  have hsum : frame.bytesOf count ≤
      ((frame.pieces.take count).map List.length).length * maxPayloadSize := by
    apply List.sum_le_card_nsmul
    intro bytes hmem
    obtain ⟨piece, hpiece, rfl⟩ := List.mem_map.mp hmem
    exact h.short piece (List.mem_of_mem_take hpiece)
  have hlength : ((frame.pieces.take count).map List.length).length ≤ maxFramePacketCount := by
    rw [List.length_map, List.length_take]
    exact Nat.le_trans (Nat.min_le_right _ _) h.count
  calc frame.bytesOf count
      ≤ ((frame.pieces.take count).map List.length).length * maxPayloadSize := hsum
    _ ≤ maxFramePacketCount * maxPayloadSize := Nat.mul_le_mul_right _ hlength
    _ ≤ reassemblyMaxBufferedBytes := by decide

end SentFrame

/-- The first packets of a frame have arrived, and nothing else is unfinished. -/
structure Filling (frame : SentFrame) (count : Nat) (r : ChannelReassembler) : Prop where
  others : ∀ id, id ≠ frame.frameId.toNat → r.frames.lookup id = none
  opened : r.frames.lookup frame.frameId.toNat = none → count = 0
  own : ∀ a, r.frames.lookup frame.frameId.toNat = some a →
    Assembles frame.spec a ∧ a.bufferedBytes = frame.bytesOf count ∧
      ∀ index, (a.part index).isSome = true ↔ index < count
  bytes : r.bufferedBytes = frame.bytesOf count
  running : r.waitingAfterLoss = false
  base : frame.isKeyFrame = true ∨ brokenBase r.latestCompletedId frame.frameId.toNat = false
  wanted : r.alreadyCompleted frame.frameId.toNat = false
  seen : r.latestFrameIdSeen = some frame.frameId.toNat
  parity : ∀ id fecs, frame.frameId.toNat ≤ id → r.pendingFec.lookup id = some fecs → fecs = []

/-- Every frame before a number is done with, the last of them completed, and none after. -/
structure Settled (next : Nat) (r : ChannelReassembler) : Prop where
  frames : ∀ id, r.frames.lookup id = none
  bytes : r.bufferedBytes = 0
  running : r.waitingAfterLoss = false
  completed : ∃ last, r.latestCompletedId = some last ∧ last + 1 = next
  seen : ∀ id, r.latestFrameIdSeen = some id → id < next
  parity : ∀ id fecs, next ≤ id → r.pendingFec.lookup id = some fecs → fecs = []

/-- What the decoder gets of a delivery. -/
def Delivery.content (delivery : Delivery) : Nat × List UInt8 × Bool × Nat :=
  (delivery.frameId, delivery.bytes, delivery.isKeyFrame, delivery.presentationTimeUs)

/-- What it should get of a frame. -/
def SentFrame.content (frame : SentFrame) (config : Option (List UInt8)) :
    Nat × List UInt8 × Bool × Nat :=
  (frame.frameId.toNat,
    (if frame.isKeyFrame then config.getD [] else []) ++ frame.pieces.flatten,
    frame.isKeyFrame, frame.presentationTimeUs)

section Filling

variable {frame : SentFrame} {count : Nat} {r : ChannelReassembler}

theorem tryFecRecover_none {id : Nat}
    (h : ∀ fecs, r.pendingFec.lookup id = some fecs → fecs = []) : r.tryFecRecover id = r := by
  unfold tryFecRecover
  cases hlookup : r.pendingFec.lookup id with
  | none => rfl
  | some fecs =>
      rw [h fecs hlookup]
      rfl

theorem finalizeFrame_unfinished {id now : Nat} {a : FrameAssembly}
    (ha : r.frames.lookup id = some a) (hincomplete : a.isComplete = false) :
    r.finalizeFrame id now = (r, none) := by
  unfold finalizeFrame
  rw [ha]
  simp [hincomplete]

/-- Without parity packets a stored packet only may complete its frame. -/
theorem store_set {pkt : EvrtPacket} {now : Nat} {a a' : FrameAssembly}
    (ha : r.frames.lookup pkt.frameId = some a)
    (hset : a.set pkt.packetIndex pkt.payload = some a')
    (hfec : ∀ fecs, r.pendingFec.lookup pkt.frameId = some fecs → fecs = []) :
    r.store pkt now = { r with
      frames := r.frames.insert pkt.frameId a'
      bufferedBytes := r.bufferedBytes + pkt.payload.length }.finalizeFrame pkt.frameId now := by
  unfold ChannelReassembler.store
  rw [ha]
  dsimp only
  rw [hset]
  dsimp only
  split
  · rw [tryFecRecover_none (by exact hfec)]
  · rfl

/-- The frame's entry is made if there is none. -/
theorem Filling.entry (h : Filling frame count r) (now : Nat) :
    ∃ a, (r.entry (frame.packet count) now).2 = a ∧
      (r.entry (frame.packet count) now).1.frames.lookup frame.frameId.toNat = some a ∧
      (r.entry (frame.packet count) now).1.latestCodecConfig = r.latestCodecConfig ∧
      Filling frame count (r.entry (frame.packet count) now).1 := by
  unfold ChannelReassembler.entry
  split
  · next a hlookup => exact ⟨a, rfl, hlookup, rfl, h⟩
  · next hlookup =>
      obtain rfl := h.opened hlookup
      refine ⟨_, rfl, AList.lookup_insert _, rfl, ?_⟩
      refine { h with others := ?_, opened := fun _ => rfl, own := ?_ }
      · intro id hne
        exact (AList.lookup_insert_ne hne).trans (h.others id hne)
      · intro a ha
        obtain rfl := Option.some.inj ((AList.lookup_insert _).symm.trans ha)
        have hnew := Assembles.new frame.spec now
        refine ⟨?_, by simp [FrameAssembly.new, SentFrame.bytesOf], ?_⟩
        · rw [SentFrame.packet_isKeyFrame]
          exact hnew
        · intro index
          simp [FrameAssembly.new, FrameAssembly.part, List.getElem?_replicate]
          split <;> simp

/-- The next packet of the frame goes into its slot. -/
theorem Filling.fill {a : FrameAssembly} (h : Filling frame count r)
    (hlookup : r.frames.lookup frame.frameId.toNat = some a)
    (hcount : count < frame.pieces.length) :
    a.hasPart count = false ∧
      ∃ a', a.set count (frame.packet count).payload = some a' ∧ a'.frameId = a.frameId ∧
        Filling frame (count + 1) { r with
          frames := r.frames.insert frame.frameId.toNat a'
          bufferedBytes := r.bufferedBytes + (frame.packet count).payload.length } := by
  obtain ⟨hassembles, hbytes, hparts⟩ := h.own a hlookup
  have hslot : a.hasPart count = false := by
    apply FrameAssembly.hasPart_of_part (hassembles.slots ▸ hcount)
    apply Option.not_isSome_iff_eq_none.mp
    intro hsome
    exact absurd ((hparts count).mp hsome) (Nat.lt_irrefl count)
  have hpiece : frame.spec.pieces[count]? = some (frame.packet count).payload := by
    simp [SentFrame.spec, SentFrame.packet, hcount]
  obtain ⟨a', hset⟩ : ∃ a', a.set count (frame.packet count).payload = some a' := by
    unfold FrameAssembly.set
    rw [hslot]
    exact ⟨_, rfl⟩
  have hpart := FrameAssembly.set_part hset
  refine ⟨hslot, a', hset, (FrameAssembly.set_header hset).1, ?_⟩
  refine { h with others := ?_, opened := ?_, own := ?_, bytes := ?_ }
  · intro id hne
    exact (AList.lookup_insert_ne hne).trans (h.others id hne)
  · intro hnone
    rw [AList.lookup_insert] at hnone
    contradiction
  · intro b hb
    rw [AList.lookup_insert] at hb
    obtain rfl := Option.some.inj hb
    refine ⟨hassembles.set hpiece hset, ?_, ?_⟩
    · rw [frame.bytesOf_succ hcount, ← hbytes, (FrameAssembly.set_eq_some hset).2]
    · intro index
      rw [hpart]
      split
      · next heq => simp [heq]
      · next hne =>
          rw [hparts]
          omega
  · rw [frame.bytesOf_succ hcount, ← h.bytes]

/-- The frame is complete with its last packet. -/
theorem Filling.isComplete {a : FrameAssembly} (h : Filling frame count r)
    (hlookup : r.frames.lookup frame.frameId.toNat = some a) :
    a.isComplete = true ↔ frame.pieces.length ≤ count := by
  obtain ⟨hassembles, -, hparts⟩ := h.own a hlookup
  rw [hassembles.isComplete_iff]
  constructor
  · intro hall
    by_contra hshort
    have hmissing := (hparts count).mp (hall count (by simpa [SentFrame.spec] using hshort))
    omega
  · intro hle index hindex
    exact (hparts index).mpr (Nat.lt_of_lt_of_le hindex hle)

/-- What a packet of the frame leads to: nothing yet, or its delivery. -/
def Advances (frame : SentFrame) (count : Nat) (config : Option (List UInt8))
    (result : ChannelReassembler × Option Delivery) : Prop :=
  result.1.latestCodecConfig = config ∧
    ((count < frame.pieces.length ∧ result.2 = none ∧ Filling frame count result.1) ∨
      (count = frame.pieces.length ∧ Settled (frame.frameId.toNat + 1) result.1 ∧
        ∃ delivery, result.2 = some delivery ∧ delivery.content = frame.content config))

theorem Filling.finalize {a : FrameAssembly} (h : Filling frame count r)
    (hlookup : r.frames.lookup frame.frameId.toNat = some a)
    (hcount : count ≤ frame.pieces.length) (now : Nat) :
    Advances frame count r.latestCodecConfig (r.finalizeFrame frame.frameId.toNat now) := by
  obtain ⟨hassembles, hbytes, -⟩ := h.own a hlookup
  obtain hshort | hlast := Nat.lt_or_eq_of_le hcount
  · have hincomplete : a.isComplete = false := by
      apply Bool.eq_false_iff.mpr
      intro hcomplete
      have hle := (h.isComplete hlookup).mp hcomplete
      omega
    rw [finalizeFrame_unfinished hlookup hincomplete]
    exact ⟨rfl, .inl ⟨hshort, rfl, h⟩⟩
  · have hcomplete : a.isComplete = true := (h.isComplete hlookup).mpr (by omega)
    have hkey : a.isKeyFrame = frame.isKeyFrame := hassembles.isKeyFrame
    obtain ⟨delivery, heq, hid, hbytes', hkey', htime⟩ :=
      finalizeFrame_delivers r now hlookup hcomplete h.running (hkey ▸ h.base)
    rw [heq]
    refine ⟨rfl, .inr ⟨hlast, ?_, delivery, rfl, ?_⟩⟩
    · constructor
      · intro id
        obtain rfl | hne := eq_or_ne id frame.frameId.toNat
        · exact AList.lookup_erase _ _
        · exact (AList.lookup_erase_ne hne).trans (h.others id hne)
      · change r.bufferedBytes - a.bufferedBytes = 0
        rw [h.bytes, hbytes, Nat.sub_self]
      · exact h.running
      · exact ⟨a.frameId, rfl, congrArg (· + 1) hassembles.frameId⟩
      · intro id hid
        rw [h.seen] at hid
        cases hid
        exact Nat.lt_succ_self _
      · intro id fecs hid hfec
        exact h.parity id fecs (by omega) (lookup_erase_some hfec).2
    · rw [Delivery.content, hid, hbytes', hkey', htime, hassembles.join hcomplete, hkey,
        hassembles.time]
      rfl

theorem Filling.assemble (h : Filling frame count r) (hsend : frame.Sendable)
    (hcount : count < frame.pieces.length) (now : Nat) :
    Advances frame (count + 1) r.latestCodecConfig (r.assemble (frame.packet count) now) := by
  obtain ⟨a, hentry, hlookup, hconfig, hfilling⟩ := h.entry now
  obtain ⟨hslot, a', hset, -, hfilled⟩ := hfilling.fill hlookup hcount
  obtain ⟨hassembles, -, -⟩ := hfilling.own a hlookup
  have hroom : (r.entry (frame.packet count) now).1.bufferedBytes +
      (frame.packet count).payload.length ≤ reassemblyMaxBufferedBytes := by
    rw [hfilling.bytes, ← frame.bytesOf_succ hcount]
    exact hsend.fits (count + 1)
  have hcounts : a.packetCount = (frame.packet count).packetCount := hassembles.count
  unfold ChannelReassembler.assemble
  cases hopened : r.entry (frame.packet count) now with
  | mk opened b =>
      rw [hopened] at hentry hlookup hconfig hfilling hfilled hroom
      obtain rfl : b = a := hentry
      dsimp only at hlookup hconfig hfilled hroom ⊢
      rw [if_neg (not_not_intro hcounts), if_neg (by simpa [SentFrame.packet] using hslot),
        reserveBuffer_fits opened _ _ hroom]
      dsimp only
      rw [store_set hlookup hset (fun fecs => hfilling.parity _ fecs (Nat.le_refl _)), ← hconfig]
      exact hfilled.finalize (AList.lookup_insert _) hcount now

end Filling

section Opening

variable {iter : IterOrder Nat} {frame : SentFrame} {count : Nat} {r : ChannelReassembler}

/-- A packet that meets a reassembler which wants it goes on to be put into its frame. -/
theorem onPacket_wanted (hsend : frame.Sendable) (hcount : count < frame.pieces.length)
    (hwanted : r.alreadyCompleted frame.frameId.toNat = false)
    (hrecent : r.tooOld frame.frameId.toNat = false)
    (hrunning : r.waitingAfterLoss = false ∨ frame.isKeyFrame = true)
    (hnoted : (r.noteFrameId iter frame.frameId.toNat frame.isKeyFrame).2 = false) (now : Nat) :
    r.onPacket iter (frame.packet count) now =
      ((r.noteFrameId iter frame.frameId.toNat frame.isKeyFrame).1.noteKeyFrame iter
        frame.frameId.toNat frame.isKeyFrame).assemble (frame.packet count) now := by
  have hvalid : ¬ ((frame.packet count).packetCount = 0 ∨
      (frame.packet count).packetIndex ≥ (frame.packet count).packetCount ∨
      (frame.packet count).packetCount > maxFramePacketCount) := by
    have hlimit := hsend.count
    dsimp only [SentFrame.packet]
    omega
  have htaken : ¬ (r.waitingAfterLoss && !frame.isKeyFrame) = true := by
    obtain h | h := hrunning <;> simp [h]
  have hwanted : ¬ r.alreadyCompleted (frame.packet count).frameId = true :=
    Bool.eq_false_iff.mp hwanted
  have hrecent : ¬ r.tooOld (frame.packet count).frameId = true := Bool.eq_false_iff.mp hrecent
  unfold ChannelReassembler.onPacket
  rw [if_neg hvalid, SentFrame.packet_isKeyFrame, if_neg hwanted, if_neg hrecent, if_neg htaken]
  dsimp only [SentFrame.packet]
  cases hnote : r.noteFrameId iter frame.frameId.toNat frame.isKeyFrame with
  | mk noted dropped =>
      rw [hnote] at hnoted
      obtain rfl : dropped = false := hnoted
      rfl

/-- No later packet of the frame changes what is open. -/
theorem Filling.opens (h : Filling frame count r) (hsend : frame.Sendable)
    (hcount : count < frame.pieces.length) (now : Nat) :
    ∃ opened, r.onPacket iter (frame.packet count) now = opened.assemble (frame.packet count) now ∧
      opened.latestCodecConfig = r.latestCodecConfig ∧ Filling frame count opened := by
  have hsame : r.noteFrameId iter frame.frameId.toNat frame.isKeyFrame = (r, false) := by
    unfold noteFrameId
    rw [if_neg (by simp [isNewest, h.seen])]
  have hrecent : r.tooOld frame.frameId.toNat = false := by
    have hid := frame.frameId.toNat_lt
    rw [tooOld, h.seen, Option.any_some]
    apply decide_eq_false
    unfold satAdd32
    omega
  refine ⟨_, onPacket_wanted hsend hcount h.wanted hrecent (.inl h.running) (by rw [hsame]) now, ?_⟩
  rw [hsame]
  unfold noteKeyFrame
  split
  · have hnone : ∀ id < frame.frameId.toNat,
        ({ r with waitingAfterLoss := false } : ChannelReassembler).frames.lookup id = none :=
      fun id hid => h.others id (Nat.ne_of_lt hid)
    rw [dropOlderThan_none iter _ hnone]
    refine ⟨rfl, { h with running := rfl, parity := ?_ }⟩
    intro id fecs hid hlookup
    rw [lookup_retainKeys] at hlookup
    exact h.parity id fecs hid (Option.ite_none_right_eq_some.mp hlookup).2
  · exact ⟨rfl, h⟩

theorem dropFrame_waiting (r : ChannelReassembler) (id : Nat) :
    (r.dropFrame id).1.waitingAfterLoss = r.waitingAfterLoss := by
  unfold dropFrame markFrameDropped
  dsimp only
  split
  · dsimp only
    split <;> rfl
  · rfl

theorem dropOlderThan_waiting (r : ChannelReassembler) (id : Nat) :
    (r.dropOlderThan iter id).1.waitingAfterLoss = r.waitingAfterLoss := by
  have hall : ∀ (ids : List Nat) (r : ChannelReassembler),
      (ids.foldl (fun r id => (r.dropFrame id).1) r).waitingAfterLoss = r.waitingAfterLoss := by
    intro ids
    induction ids with
    | nil => exact fun r => rfl
    | cons id ids ih => exact fun r => (ih _).trans (dropFrame_waiting r id)
  exact hall _ _

theorem bytes_of_no_frames (h : r.Accounted) (hnone : ∀ id, r.frames.lookup id = none) :
    r.bufferedBytes = 0 := by
  have hheld : r.heldBytes ≤ r.frames.keys.length * 0 := by
    apply totalOf_le
    intro id a hlookup
    rw [hnone id] at hlookup
    contradiction
  have htotal := h.total
  omega

/-- The first packet of a key frame makes all earlier frames obsolete. -/
theorem Behind.opens (h : Behind frame.frameId.toNat r) (hsend : frame.Sendable)
    (hkey : frame.isKeyFrame = true) (now : Nat) :
    ∃ opened, r.onPacket iter (frame.packet 0) now = opened.assemble (frame.packet 0) now ∧
      opened.latestCodecConfig = r.latestCodecConfig ∧ Filling frame 0 opened := by
  have hid := frame.frameId.toNat_lt
  have hnewest := isNewest_of_below h.numbers.seen (Nat.le_refl _)
  have hnote : r.noteFrameId iter frame.frameId.toNat frame.isKeyFrame =
      (({ r with latestFrameIdSeen := some frame.frameId.toNat } : ChannelReassembler).dropOlderThan
        iter (frame.frameId.toNat - reassemblyReorderWindowFrames) |>.1, false) := by
    unfold noteFrameId
    rw [if_pos hnewest, hkey]
    simp
  refine ⟨_, onPacket_wanted hsend (List.length_pos_iff.mpr hsend.nonempty)
    (wanted_of_below h.numbers.completed (Nat.le_refl _))
    (recent_of_below h.numbers.seen (Nat.le_refl _) hid) (.inr hkey) (by rw [hnote]) now, ?_⟩
  rw [hnote]
  unfold noteKeyFrame
  rw [if_pos hkey]
  dsimp only
  generalize hnoted : (({ r with latestFrameIdSeen := some frame.frameId.toNat } :
    ChannelReassembler).dropOlderThan iter
      (frame.frameId.toNat - reassemblyReorderWindowFrames)).1 = noted
  have hseen : ({ r with latestFrameIdSeen := some frame.frameId.toNat } :
      ChannelReassembler).Shrinks noted := hnoted ▸ dropOlderThan_shrinks iter _ _
  have haccounted : noted.Accounted := by
    rw [← hnoted]
    exact (dropOlderThan_accounts iter _ _).accounted ⟨h.bounded.total, h.bounded.budget⟩
  have hdrop := dropOlderThan_shrinks iter { noted with waitingAfterLoss := false }
    frame.frameId.toNat
  have hnone : ∀ id, (({ noted with waitingAfterLoss := false } :
      ChannelReassembler).dropOlderThan iter frame.frameId.toNat).1.frames.lookup id = none := by
    intro id
    rw [lookup_dropOlderThan]
    split
    · rfl
    · next hlarge =>
        apply Option.eq_none_iff_forall_not_mem.mpr
        intro a ha
        have hlt := (h.numbers.frames id a (hseen.frames id a ha)).1
        omega
  refine ⟨hdrop.config.trans hseen.config, ?_⟩
  constructor
  · exact fun id _ => hnone id
  · exact fun _ => rfl
  · intro a ha
    rw [hnone] at ha
    contradiction
  · exact bytes_of_no_frames ((dropOlderThan_accounts iter _ _).accounted
      ⟨haccounted.total, haccounted.budget⟩) hnone
  · exact dropOlderThan_waiting _ _
  · exact .inl hkey
  · apply wanted_of_below _ (Nat.le_refl _)
    intro last hlast
    exact h.numbers.completed last ((hdrop.completed.trans hseen.completed).symm.trans hlast)
  · exact hdrop.seen.trans hseen.seen
  · intro id fecs hge hlookup
    apply List.eq_nil_iff_forall_not_mem.mpr
    intro fec hmem
    have hlt := h.parity.fec id fecs (hseen.fec id fecs (hdrop.fec id fecs hlookup)) fec hmem
    omega

/-- So does the first packet of the next frame, when there are none. -/
theorem Settled.opens (h : Settled frame.frameId.toNat r) (hsend : frame.Sendable) (now : Nat) :
    ∃ opened, r.onPacket iter (frame.packet 0) now = opened.assemble (frame.packet 0) now ∧
      opened.latestCodecConfig = r.latestCodecConfig ∧ Filling frame 0 opened := by
  have hid := frame.frameId.toNat_lt
  obtain ⟨last, hlast, hnext⟩ := h.completed
  have hcompleted : ∀ id, r.latestCompletedId = some id → id < frame.frameId.toNat := by
    intro id hsome
    rw [hlast] at hsome
    cases hsome
    omega
  have hnewest := isNewest_of_below h.seen (Nat.le_refl _)
  have hnone : ∀ watermark, ∀ id < watermark, ({ r with
      latestFrameIdSeen := some frame.frameId.toNat } : ChannelReassembler).frames.lookup id =
        none := fun _ id _ => h.frames id
  have hnote : ∃ fec, r.noteFrameId iter frame.frameId.toNat frame.isKeyFrame =
      ({ r with latestFrameIdSeen := some frame.frameId.toNat, pendingFec := fec }, false) ∧
      ∀ id fecs, fec.lookup id = some fecs → r.pendingFec.lookup id = some fecs := by
    unfold noteFrameId
    rw [if_pos hnewest]
    dsimp only
    rw [dropOlderThan_none iter _ (hnone _)]
    refine ⟨_, if_neg fun hlost => Nat.lt_irrefl 0 hlost.1, ?_⟩
    intro id fecs hlookup
    rw [lookup_retainKeys] at hlookup
    exact (Option.ite_none_right_eq_some.mp hlookup).2
  obtain ⟨fec, hnote, hfec⟩ := hnote
  have hbase : frame.isKeyFrame = true ∨
      brokenBase r.latestCompletedId frame.frameId.toNat = false := by
    right
    rw [hlast]
    apply decide_eq_false
    omega
  have hfilling : ∀ fec' : AList fun _ : Nat => List FecMeta,
      (∀ id fecs, fec'.lookup id = some fecs → fec.lookup id = some fecs) →
      Filling frame 0 { r with
        latestFrameIdSeen := some frame.frameId.toNat
        waitingAfterLoss := false
        pendingFec := fec' } := by
    intro fec' hsub
    refine ⟨fun id _ => h.frames id, fun _ => rfl, ?_, h.bytes, rfl, hbase,
      wanted_of_below hcompleted (Nat.le_refl _), rfl, ?_⟩
    · intro a ha
      rw [h.frames] at ha
      contradiction
    · intro id fecs hge hlookup
      exact h.parity id fecs hge (hfec id fecs (hsub id fecs hlookup))
  refine ⟨_, onPacket_wanted hsend (List.length_pos_iff.mpr hsend.nonempty)
    (wanted_of_below hcompleted (Nat.le_refl _)) (recent_of_below h.seen (Nat.le_refl _) hid)
    (.inl h.running) (by rw [hnote]) now, ?_⟩
  rw [hnote]
  unfold noteKeyFrame
  split
  · rw [dropOlderThan_none iter _ (by exact fun id _ => h.frames id)]
    refine ⟨rfl, hfilling _ ?_⟩
    intro id fecs hlookup
    rw [lookup_retainKeys] at hlookup
    exact (Option.ite_none_right_eq_some.mp hlookup).2
  · refine ⟨rfl, ?_⟩
    have hsame := hfilling fec fun _ _ hlookup => hlookup
    rw [← h.running] at hsame
    exact hsame

end Opening

section Runs

variable {iter : IterOrder Nat} {frame : SentFrame} {count : Nat} {r : ChannelReassembler}

/-- What the decoder gets over a run. -/
def deliveredContents (iter : IterOrder Nat) (r : ChannelReassembler) (ops : List Op) :
    List (Nat × List UInt8 × Bool × Nat) :=
  ((machine iter).outputs r ops).filterMap (·.map Delivery.content)

theorem deliveredContents_append (before after : List Op) :
    deliveredContents iter r (before ++ after) =
      deliveredContents iter r before ++
        deliveredContents iter ((machine iter).run r before) after := by
  unfold deliveredContents
  rw [Machine.outputs_append, List.filterMap_append]

/-- The next packet of the frame goes on to be put into it. -/
def Takes (iter : IterOrder Nat) (frame : SentFrame) (count : Nat) (r : ChannelReassembler) :
    Prop :=
  ∀ now, ∃ opened, r.onPacket iter (frame.packet count) now =
      opened.assemble (frame.packet count) now ∧
    opened.latestCodecConfig = r.latestCodecConfig ∧ Filling frame count opened

theorem Takes.advances (h : Takes iter frame count r) (hsend : frame.Sendable)
    (hcount : count < frame.pieces.length) (now : Nat) :
    Advances frame (count + 1) r.latestCodecConfig (r.onPacket iter (frame.packet count) now) := by
  obtain ⟨opened, heq, hconfig, hfilling⟩ := h now
  rw [heq, ← hconfig]
  exact hfilling.assemble hsend hcount now

/-- The packets from one index on, in order. -/
def SentFrame.callsFrom (frame : SentFrame) (now : Nat → Nat) (count rest : Nat) : List Op :=
  (List.range' count rest).map fun index => .packet (frame.packet index) (now index)

/-- A frame that is taken from some packet on is delivered. -/
theorem Takes.run (hsend : frame.Sendable) (now : Nat → Nat) (rest : Nat) :
    ∀ (count : Nat) (r : ChannelReassembler), count + (rest + 1) = frame.pieces.length →
      Takes iter frame count r →
      deliveredContents iter r (frame.callsFrom now count (rest + 1)) =
          [frame.content r.latestCodecConfig] ∧
        Settled (frame.frameId.toNat + 1)
          ((machine iter).run r (frame.callsFrom now count (rest + 1))) ∧
        ((machine iter).run r (frame.callsFrom now count (rest + 1))).latestCodecConfig =
          r.latestCodecConfig := by
  induction rest with
  | zero =>
      intro count r hlength htakes
      obtain ⟨hconfig, ⟨hshort, -, -⟩ | ⟨-, hsettled, delivery, hout, hcontent⟩⟩ :=
        htakes.advances hsend (by omega) (now count)
      · omega
      · refine ⟨?_, hsettled, hconfig⟩
        change ([(r.onPacket iter (frame.packet count) (now count)).2].filterMap
          (·.map Delivery.content)) = _
        rw [hout]
        exact congrArg (fun content => [content]) hcontent
  | succ rest ih =>
      intro count r hlength htakes
      obtain ⟨hconfig, ⟨hshort, hout, hfilling⟩ | ⟨hlast, -⟩⟩ :=
        htakes.advances hsend (by omega) (now count)
      · obtain ⟨hrest, hsettled, hsame⟩ := ih (count + 1) _ (by omega)
          (fun t => hfilling.opens hsend hshort t)
        refine ⟨?_, hsettled, hsame.trans hconfig⟩
        rw [← hconfig, ← hrest]
        change ((r.onPacket iter (frame.packet count) (now count)).2 ::
          (machine iter).outputs (r.onPacket iter (frame.packet count) (now count)).1
            (frame.callsFrom now (count + 1) (rest + 1))).filterMap (·.map Delivery.content) = _
        rw [hout]
        rfl
      · omega

theorem SentFrame.calls_eq (frame : SentFrame) (now : Nat → Nat) :
    frame.calls now = frame.callsFrom now 0 frame.pieces.length := by
  rw [SentFrame.calls, SentFrame.callsFrom, List.range_eq_range']

theorem Takes.calls (h : Takes iter frame 0 r) (hsend : frame.Sendable) (now : Nat → Nat) :
    deliveredContents iter r (frame.calls now) = [frame.content r.latestCodecConfig] ∧
      Settled (frame.frameId.toNat + 1) ((machine iter).run r (frame.calls now)) ∧
      ((machine iter).run r (frame.calls now)).latestCodecConfig = r.latestCodecConfig := by
  obtain ⟨rest, hrest⟩ : ∃ rest, frame.pieces.length = rest + 1 :=
    Nat.exists_eq_succ_of_ne_zero (Nat.ne_of_gt (List.length_pos_iff.mpr hsend.nonempty))
  rw [frame.calls_eq, hrest]
  exact Takes.run hsend now rest 0 r (by omega) h

/-- Whole frames in order are delivered one by one. -/
theorem Settled.run (now : SentFrame → Nat → Nat) (frames : List SentFrame) :
    ∀ (next : Nat) (r : ChannelReassembler), Settled next r →
      (frames.map fun frame => frame.frameId.toNat) = List.range' next frames.length →
      (∀ frame ∈ frames, frame.Sendable) →
      deliveredContents iter r (frames.flatMap fun frame => frame.calls (now frame)) =
          frames.map (·.content r.latestCodecConfig) ∧
        Settled (next + frames.length)
          ((machine iter).run r (frames.flatMap fun frame => frame.calls (now frame))) := by
  induction frames with
  | nil => exact fun next r h _ _ => ⟨rfl, h⟩
  | cons frame frames ih =>
      intro next r h hnumbers hsend
      rw [List.map_cons, List.length_cons, List.range'_succ] at hnumbers
      obtain ⟨hnext, hrest⟩ := List.cons.inj hnumbers
      have hframe := hsend frame List.mem_cons_self
      have htakes : Takes iter frame 0 r := fun t => (hnext ▸ h).opens hframe t
      obtain ⟨hcontent, hsettled, hconfig⟩ := htakes.calls hframe (now frame)
      rw [hnext] at hsettled
      obtain ⟨hcontents, hlast⟩ := ih (next + 1) _ hsettled hrest
        (fun other hmem => hsend other (List.mem_cons_of_mem _ hmem))
      rw [List.flatMap_cons, deliveredContents_append, Machine.run_append, hcontent, hcontents,
        hconfig]
      refine ⟨rfl, ?_⟩
      rw [List.length_cons, Nat.add_comm frames.length 1, ← Nat.add_assoc]
      exact hlast

end Runs

/-- After any calls on earlier frames, a key frame that arrives whole is delivered, exactly
and behind the parameter sets, and so are the frames after it that arrive whole and in
order; nothing else is, and no key frame is waited for any more. -/
theorem recovers_with_key_frame (iter : IterOrder Nat) (before : List Op) (key : SentFrame)
    (later : List SentFrame) (now : SentFrame → Nat → Nat)
    (hbefore : ∀ op ∈ before, op.FramesBelow key.frameId.toNat)
    (hkey : key.isKeyFrame = true)
    (hnumbers : (later.map fun frame => frame.frameId.toNat) =
      List.range' (key.frameId.toNat + 1) later.length)
    (hsend : ∀ frame ∈ key :: later, frame.Sendable) :
    let r := (machine iter).run .new before
    let arrivals := (key :: later).flatMap fun frame => frame.calls (now frame)
    deliveredContents iter r arrivals = (key :: later).map (·.content r.latestCodecConfig) ∧
      ((machine iter).run r arrivals).waitingAfterLoss = false := by
  intro r arrivals
  have hbehind : Behind key.frameId.toNat r := (Behind.new _).run iter hbefore
  have hsent := hsend key List.mem_cons_self
  have htakes : Takes iter key 0 r := fun t => hbehind.opens hsent hkey t
  obtain ⟨hcontent, hsettled, hconfig⟩ := htakes.calls hsent (now key)
  obtain ⟨hcontents, hlast⟩ := Settled.run now later _ _ hsettled hnumbers
    (fun frame hmem => hsend frame (List.mem_cons_of_mem _ hmem))
  have harrivals : arrivals =
      key.calls (now key) ++ later.flatMap fun frame => frame.calls (now frame) :=
    List.flatMap_cons
  rw [harrivals, deliveredContents_append, Machine.run_append, hcontent, hcontents, hconfig]
  exact ⟨rfl, hlast.running⟩

/-- Frame 1 is lost in part, frame 7 is a key frame. -/
def lostPart : List Op :=
  [.packet (SentFrame.packet ⟨1, false, 0, [[1], [2]]⟩ 0) 0,
    .packet (SentFrame.packet ⟨6, false, 0, [[3], [4]]⟩ 1) 10]

theorem recovers_with_key_frame_seven :
    let key : SentFrame := ⟨7, true, 20, [[5], [6]]⟩
    let later : List SentFrame := [⟨8, false, 30, [[7]]⟩]
    let r := (machine (IterOrder.stored Nat)).run .new lostPart
    let arrivals := (key :: later).flatMap fun frame => frame.calls fun _ => 20
    deliveredContents (IterOrder.stored Nat) r arrivals =
        (key :: later).map (·.content r.latestCodecConfig) ∧
      ((machine (IterOrder.stored Nat)).run r arrivals).waitingAfterLoss = false := by
  apply recovers_with_key_frame (IterOrder.stored Nat) lostPart ⟨7, true, 20, [[5], [6]]⟩
    [⟨8, false, 30, [[7]]⟩] (fun _ _ => 20)
  · intro op hop
    obtain rfl | rfl : op = _ ∨ op = _ := by simpa [lostPart] using hop
    · change 1 < 7
      decide
    · change 6 < 7
      decide
  · rfl
  · rfl
  · intro frame hframe
    obtain rfl | rfl : frame = _ ∨ frame = _ := by simpa using hframe
    · exact ⟨by decide, by decide, by decide⟩
    · exact ⟨by decide, by decide, by decide⟩

end EvertyDesk.Reassembler
