import EvertyDesk.Client.FrameAssembly
import EvertyDesk.Client.ReassemblerSteps

/-!
Reordering that the reassembler tolerates. The packets of consecutive frames
all arrive, each once, in an order in which no packet falls further behind than
the reorder window. Beyond that, three things are needed: frames become
complete in order, since a completed frame is not kept until its base is
complete; no packet of a key frame arrives while an earlier frame is being put
together, since a key frame makes earlier ones obsolete; and what is being put
together fits into the buffer.
-/

namespace EvertyDesk.Reassembler

open ChannelReassembler Evrt

/-- Consecutive frames, each of at least one packet. -/
structure FrameStream where
  first : Nat
  frames : List FrameSpec
  numbered : ∀ n : Fin frames.length, (frames.get n).frameId = first + n
  nonempty : ∀ n : Fin frames.length, (frames.get n).pieces ≠ []
  limit : ∀ n : Fin frames.length, (frames.get n).pieces.length ≤ maxFramePacketCount
  fits : first + frames.length ≤ 2 ^ 32

namespace FrameStream

variable (stream : FrameStream)

def spec (n : Fin stream.frames.length) : FrameSpec := stream.frames.get n

/-- One packet of one frame. -/
abbrev Slot : Type := (n : Fin stream.frames.length) × Fin (stream.spec n).pieces.length

variable {stream}

def Slot.piece (slot : stream.Slot) : List UInt8 := (stream.spec slot.1).pieces.get slot.2

theorem spec_frameId (n : Fin stream.frames.length) :
    (stream.spec n).frameId = stream.first + n := stream.numbered n

theorem frameId_lt (n : Fin stream.frames.length) : (stream.spec n).frameId < 2 ^ 32 := by
  have := stream.fits
  have := n.isLt
  rw [spec_frameId]
  omega

def Slot.packet (slot : stream.Slot) : EvrtPacket where
  packetType := typeVideoFrame
  flags := frameFlags (stream.spec slot.1).isKeyFrame
  frameId := (stream.spec slot.1).frameId
  packetIndex := slot.2
  packetCount := (stream.spec slot.1).pieces.length
  presentationTimeUs := (stream.spec slot.1).presentationTimeUs
  payload := slot.piece
  frameId_lt := frameId_lt slot.1

@[simp] theorem Slot.packet_isKeyFrame (slot : stream.Slot) :
    slot.packet.isKeyFrame = (stream.spec slot.1).isKeyFrame := by
  cases hkey : (stream.spec slot.1).isKeyFrame <;>
    simp [EvrtPacket.isKeyFrame, packet, frameFlags, flagKeyFrame, hkey]

/-- Some packet of the frame has arrived. -/
def Started (arrived : List stream.Slot) (n : Fin stream.frames.length) : Prop :=
  ∃ slot ∈ arrived, slot.1 = n

/-- All packets of the frame have arrived. -/
def Complete (arrived : List stream.Slot) (n : Fin stream.frames.length) : Prop :=
  ∀ index, (⟨n, index⟩ : stream.Slot) ∈ arrived

instance (arrived : List stream.Slot) (n : Fin stream.frames.length) :
    Decidable (Complete arrived n) := by
  unfold Complete; infer_instance

instance (arrived : List stream.Slot) (n : Fin stream.frames.length) :
    Decidable (Started arrived n) := by
  unfold Started; infer_instance

/-- The bytes of some packets. -/
def bytes (slots : List stream.Slot) : Nat := (slots.map (·.piece.length)).sum

/-- The packets of the frames that are being put together. -/
def pending (arrived : List stream.Slot) : List stream.Slot :=
  arrived.filter fun slot => !decide (Complete arrived slot.1)

/-- What the reassembler needs of the next packet beyond the reorder window. -/
structure StepOk (arrived : List stream.Slot) (slot : stream.Slot) : Prop where
  inOrder : Complete (arrived ++ [slot]) slot.1 → ∀ m < slot.1, Complete arrived m
  keyFrame : (stream.spec slot.1).isKeyFrame = true →
    ∀ m < slot.1, Started arrived m → Complete arrived m
  buffer : bytes (pending arrived) + slot.piece.length ≤ reassemblyMaxBufferedBytes

/-- A condition on every packet and those that arrived before it. -/
def EachArrival (ok : List stream.Slot → stream.Slot → Prop) (arrivals : List stream.Slot) : Prop :=
  ∀ before slot after, arrivals = before ++ slot :: after → ok before slot

/-- No packet arrives after one of a frame further ahead than the window. -/
def WithinWindow : List stream.Slot → Prop :=
  EachArrival fun before slot =>
    ∀ earlier ∈ before, earlier.1.val ≤ slot.1.val + reassemblyReorderWindowFrames

/-- Every packet of the stream arrives, once. -/
def AllArrive (arrivals : List stream.Slot) : Prop := arrivals.Nodup ∧ ∀ slot, slot ∈ arrivals

instance (arrivals : List stream.Slot) : Decidable (AllArrive arrivals) :=
  decidable_of_iff
    (arrivals.Nodup ∧ ∀ n index, (⟨n, index⟩ : stream.Slot) ∈ arrivals)
    (and_congr_right fun _ =>
      ⟨fun h slot => h slot.1 slot.2, fun h n index => h ⟨n, index⟩⟩)

/-- The calls on the reassembler, at any times. -/
def calls (arrivals : List stream.Slot) (now : stream.Slot → Nat) : List Op :=
  arrivals.map fun slot => .packet slot.packet (now slot)

/-- An unfinished frame holds what has arrived of it. -/
structure Holding (arrived : List stream.Slot) (n : Fin stream.frames.length)
    (a : FrameAssembly) : Prop where
  assembles : Assembles (stream.spec n) a
  parts : ∀ index : Fin (stream.spec n).pieces.length,
    (a.part index).isSome = true ↔ (⟨n, index⟩ : stream.Slot) ∈ arrived
  bytes : a.bufferedBytes = bytes (arrived.filter fun slot => decide (slot.1 = n))

/-- The state of a reassembler that has lost nothing. -/
structure Describes (arrived : List stream.Slot) (r : ChannelReassembler)
    (count : Nat) : Prop where
  running : r.waitingAfterLoss = false
  count_le : count ≤ stream.frames.length
  complete : ∀ n : Fin stream.frames.length, Complete arrived n ↔ n.val < count
  completed : r.latestCompletedId =
    if count = 0 then none else some (stream.first + count - 1)
  seen_mem : ∀ seen, r.latestFrameIdSeen = some seen →
    ∃ slot ∈ arrived, seen = stream.first + slot.1.val
  holds : ∀ id a, r.frames.lookup id = some a →
    ∃ n : Fin stream.frames.length, id = stream.first + n ∧
      Started arrived n ∧ ¬ Complete arrived n ∧ Holding arrived n a
  held : ∀ n : Fin stream.frames.length, Started arrived n →
    ¬ Complete arrived n → (r.frames.lookup (stream.first + n)).isSome = true
  buffered : r.bufferedBytes = FrameStream.bytes (pending arrived)
  fec : ∀ id, r.pendingFec.lookup id = none

theorem Describes.new : Describes ([] : List stream.Slot) ChannelReassembler.new 0 where
  running := rfl
  count_le := Nat.zero_le _
  complete n := by
    have hpieces := List.length_pos_iff.mpr (stream.nonempty n)
    simp only [Nat.not_lt_zero, iff_false]
    intro hcomplete
    exact List.not_mem_nil (hcomplete ⟨0, hpieces⟩)
  completed := rfl
  seen_mem seen h := by simp [ChannelReassembler.new] at h
  holds id a h := by simp [ChannelReassembler.new] at h
  held n h := by
    obtain ⟨slot, hslot, _⟩ := h
    contradiction
  buffered := rfl
  fec id := by simp [ChannelReassembler.new]

theorem Complete.mono {arrived : List stream.Slot} {n : Fin stream.frames.length}
    (h : Complete arrived n) (later : List stream.Slot) :
    Complete (arrived ++ later) n :=
  fun index => List.mem_append_left _ (h index)

theorem started_append {arrived : List stream.Slot} {slot : stream.Slot}
    {n : Fin stream.frames.length} :
    Started (arrived ++ [slot]) n ↔ Started arrived n ∨ slot.1 = n := by
  simp only [Started, List.mem_append, List.mem_singleton]
  constructor
  · rintro ⟨found, hfound | rfl, rfl⟩
    · exact Or.inl ⟨found, hfound, rfl⟩
    · exact Or.inr rfl
  · rintro (⟨found, hfound, rfl⟩ | rfl)
    · exact ⟨found, Or.inl hfound, rfl⟩
    · exact ⟨slot, Or.inr rfl, rfl⟩

/-- One more packet completes no frame but its own. -/
theorem complete_append_of_ne {arrived : List stream.Slot} {slot : stream.Slot}
    {n : Fin stream.frames.length} (hne : n ≠ slot.1) :
    Complete (arrived ++ [slot]) n ↔ Complete arrived n := by
  refine ⟨fun h index => ?_, fun h => h.mono _⟩
  rcases List.mem_append.mp (h index) with old | new
  · exact old
  · exact absurd (congrArg Sigma.fst (List.mem_singleton.mp new)) hne

private theorem bytes_append (left right : List stream.Slot) :
    bytes (left ++ right) = bytes left + bytes right := by
  simp [bytes]

private theorem bytes_filter_split (slots : List stream.Slot) (p q : stream.Slot → Bool) :
    bytes (slots.filter p) =
      bytes (slots.filter fun slot => p slot && !q slot) +
        bytes (slots.filter fun slot => p slot && q slot) := by
  induction slots with
  | nil => rfl
  | cons slot slots ih =>
      simp only [bytes] at ih ⊢
      cases hp : p slot <;> cases hq : q slot <;>
        simp [hp, hq, ih] <;> omega

variable (iter : IterOrder Nat)

/-- The new highest frame number finds nothing behind the window. -/
private theorem noteFrameId_keeps {r : ChannelReassembler} (id : Nat) (isKeyFrame : Bool)
    (h : ∀ old < id - reassemblyReorderWindowFrames, r.frames.lookup old = none)
    (hfec : ∀ id, r.pendingFec.lookup id = none) :
    ∃ seen fec, r.noteFrameId iter id isKeyFrame =
        ({ r with latestFrameIdSeen := seen, pendingFec := fec }, false) ∧
      (seen = r.latestFrameIdSeen ∨ seen = some id) ∧
      (∀ id, fec.lookup id = none) := by
  unfold noteFrameId
  split
  · have hnone := dropOlderThan_none iter { r with latestFrameIdSeen := some id } h
    dsimp only
    rw [hnone]
    refine ⟨_, _, rfl, Or.inr rfl, ?_⟩
    intro id'
    rw [lookup_retainKeys, hfec]
    split <;> rfl
  · exact ⟨_, _, rfl, Or.inl rfl, hfec⟩

/-- A key frame finds nothing before it. -/
private theorem noteKeyFrame_keeps {r : ChannelReassembler} (id : Nat)
    (isKeyFrame : Bool) (hrunning : r.waitingAfterLoss = false)
    (h : isKeyFrame = true → ∀ old < id, r.frames.lookup old = none)
    (hfec : ∀ id, r.pendingFec.lookup id = none) :
    ∃ fec, r.noteKeyFrame iter id isKeyFrame = { r with pendingFec := fec } ∧
      ∀ id, fec.lookup id = none := by
  unfold noteKeyFrame
  split
  · next hkey =>
      have hnone := dropOlderThan_none iter { r with waitingAfterLoss := false } (h hkey)
      rw [hnone, ← hrunning]
      refine ⟨_, rfl, ?_⟩
      intro id'
      rw [lookup_retainKeys, hfec]
      split <;> rfl
  · exact ⟨_, rfl, hfec⟩

theorem pending_append_of_incomplete {arrived : List stream.Slot}
    {slot : stream.Slot} (h : ¬ Complete (arrived ++ [slot]) slot.1) :
    pending (arrived ++ [slot]) = pending arrived ++ [slot] := by
  rw [pending, List.filter_append, pending]
  congr 1
  · apply List.filter_congr
    intro other _
    by_cases hsame : other.1 = slot.1
    · have hbefore : ¬ Complete arrived slot.1 := fun hc => h (hc.mono _)
      simp [hsame, h, hbefore]
    · simp only [complete_append_of_ne hsame]
  · simp [h]

theorem bytes_pending_of_complete {arrived : List stream.Slot}
    {slot : stream.Slot} (hbefore : ¬ Complete arrived slot.1)
    (h : Complete (arrived ++ [slot]) slot.1) :
    bytes (pending arrived) = bytes (pending (arrived ++ [slot])) +
      bytes (arrived.filter fun other => decide (other.1 = slot.1)) := by
  have hown : (arrived.filter fun other => !decide (Complete arrived other.1) &&
      decide (other.1 = slot.1)) =
      arrived.filter fun other => decide (other.1 = slot.1) := by
    apply List.filter_congr
    intro other _
    by_cases hsame : other.1 = slot.1
    · simp [hsame, hbefore]
    · simp [hsame]
  have hrest : pending (arrived ++ [slot]) =
      arrived.filter fun other => !decide (Complete arrived other.1) &&
        !decide (other.1 = slot.1) := by
    rw [pending, List.filter_append]
    have hslot : [slot].filter (fun other =>
        !decide (Complete (arrived ++ [slot]) other.1)) = [] := by
      simp [h]
    rw [hslot, List.append_nil]
    apply List.filter_congr
    intro other _
    by_cases hsame : other.1 = slot.1
    · simp [hsame, h]
    · simp [hsame, complete_append_of_ne hsame]
  rw [hrest, ← hown]
  exact bytes_filter_split arrived _ _

/-- What is put together of a frame before its next packet: what has arrived,
or a new assembly. -/
private theorem entry_holding {arrived : List stream.Slot} {slot : stream.Slot}
    {count : Nat} {r : ChannelReassembler} (opened : ChannelReassembler) (now : Nat)
    (h : Describes arrived r count) (hframes : opened.frames = r.frames)
    (hincomplete : ¬ Complete arrived slot.1) :
    ∃ a frames, opened.entry slot.packet now = ({ opened with frames := frames }, a) ∧
      Holding arrived slot.1 a ∧ frames.lookup slot.packet.frameId = some a ∧
      ∀ id, id ≠ slot.packet.frameId → frames.lookup id = r.frames.lookup id := by
  have hid : slot.packet.frameId = stream.first + slot.1.val := spec_frameId slot.1
  unfold entry
  rw [hframes]
  split
  · next a ha =>
      refine ⟨a, opened.frames, rfl, ?_, hframes ▸ ha, fun _ _ => by rw [hframes]⟩
      obtain ⟨n, hn, _, _, hholding⟩ := h.holds _ a ha
      obtain rfl : slot.1 = n := Fin.ext (by omega)
      exact hholding
  · next hnone =>
      refine ⟨_, _, rfl, ?_, AList.lookup_insert _, fun id hne => AList.lookup_insert_ne hne⟩
      have hfresh : ∀ index, (⟨slot.1, index⟩ : stream.Slot) ∉ arrived := by
        intro index member
        have hheld := h.held slot.1 ⟨_, member, rfl⟩ hincomplete
        rw [← hid, hnone] at hheld
        contradiction
      have hnew := Assembles.new (stream.spec slot.1) now
      rw [← slot.packet_isKeyFrame] at hnew
      refine ⟨hnew, ?_, ?_⟩
      · intro index
        have hnopart : (FrameAssembly.new slot.packet.frameId
            slot.packet.packetCount slot.packet.isKeyFrame
            slot.packet.presentationTimeUs now).part index = none := by
          simp only [FrameAssembly.part, FrameAssembly.new, List.getElem?_replicate]
          split <;> rfl
        rw [hnopart]
        simp [hfresh index]
      · have hnothing : (arrived.filter fun other =>
            decide (other.1 = slot.1)) = [] := by
          apply List.filter_eq_nil_iff.mpr
          rintro ⟨n, index⟩ member hsame
          obtain rfl : n = slot.1 := by simpa using hsame
          exact hfresh index member
        rw [hnothing]
        rfl

/-- The packet fills its slot. -/
private theorem Holding.fill {arrived : List stream.Slot} {slot : stream.Slot}
    {a a' : FrameAssembly} (h : Holding arrived slot.1 a)
    (hset : a.set slot.packet.packetIndex slot.packet.payload = some a') :
    Holding (arrived ++ [slot]) slot.1 a' := by
  have hpart := FrameAssembly.set_part hset
  refine ⟨h.assembles.set ?_ hset, ?_, ?_⟩
  · exact List.getElem?_eq_getElem slot.2.isLt
  · intro index
    rw [hpart, List.mem_append, List.mem_singleton, ← h.parts index]
    by_cases hsame : index.val = slot.packet.packetIndex
    · have heq : (⟨slot.1, index⟩ : stream.Slot) = slot := by
        obtain ⟨n, own⟩ := slot
        simpa using Fin.ext hsame
      simp [hsame, heq]
    · have hne : (⟨slot.1, index⟩ : stream.Slot) ≠ slot := by
        intro heq
        apply hsame
        have := congrArg (fun other : stream.Slot => other.2.val) heq
        exact this
      simp [hsame, hne]
  · obtain ⟨_, rfl⟩ := FrameAssembly.set_eq_some hset
    rw [List.filter_append, bytes_append, ← h.bytes]
    simp [FrameStream.bytes, Slot.packet]

/-- The packet leaves the other unfinished frames as they are. -/
private theorem Holding.other {arrived : List stream.Slot} {slot : stream.Slot}
    {n : Fin stream.frames.length} {a : FrameAssembly} (h : Holding arrived n a)
    (hne : n ≠ slot.1) : Holding (arrived ++ [slot]) n a := by
  refine ⟨h.assembles, ?_, ?_⟩
  · intro index
    rw [h.parts index, List.mem_append, List.mem_singleton]
    have : (⟨n, index⟩ : stream.Slot) ≠ slot := fun heq =>
      hne (congrArg Sigma.fst heq)
    simp [this]
  · rw [List.filter_append, bytes_append, ← h.bytes]
    simp [FrameStream.bytes, Ne.symm hne]

/-- With no parity around, storing a packet fills its slot and finishes the
frame if that was the last one. -/
private theorem store_eq {r : ChannelReassembler} {pkt : EvrtPacket} {now : Nat}
    {a a' : FrameAssembly} (ha : r.frames.lookup pkt.frameId = some a)
    (hset : a.set pkt.packetIndex pkt.payload = some a')
    (hfec : ∀ id, r.pendingFec.lookup id = none) :
    r.store pkt now = ({ r with
      frames := r.frames.insert pkt.frameId a'
      bufferedBytes := r.bufferedBytes + pkt.payload.length
      } : ChannelReassembler).finalizeFrame pkt.frameId now := by
  unfold store
  simp only [ha, hset]
  split
  · unfold tryFecRecover
    simp only [hfec]
  · rfl

/-- The slot of a packet that has not arrived is free. -/
private theorem Holding.free {arrived : List stream.Slot} {slot : stream.Slot}
    {a : FrameAssembly} (h : Holding arrived slot.1 a) (hfresh : slot ∉ arrived) :
    a.hasPart slot.packet.packetIndex = false := by
  apply FrameAssembly.hasPart_of_part
  · rw [h.assembles.slots]
    exact slot.2.isLt
  · exact Option.not_isSome_iff_eq_none.mp ((h.parts slot.2).not.mpr hfresh)

/-- The reassembler as it puts the next packet into its frame, of which it has
`a`. Of the other frames it has what it had before the packet came. -/
structure Admits (arrived : List stream.Slot) (slot : stream.Slot) (count : Nat)
    (r opened : ChannelReassembler) (a : FrameAssembly) : Prop where
  before : Describes arrived r count
  fresh : slot ∉ arrived
  stepOk : StepOk arrived slot
  holding : Holding arrived slot.1 a
  lookup : opened.frames.lookup slot.packet.frameId = some a
  others : ∀ id, id ≠ slot.packet.frameId → opened.frames.lookup id = r.frames.lookup id
  running : opened.waitingAfterLoss = false
  completed : opened.latestCompletedId = r.latestCompletedId
  buffered : opened.bufferedBytes = r.bufferedBytes
  seen : opened.latestFrameIdSeen = r.latestFrameIdSeen ∨
    opened.latestFrameIdSeen = some slot.packet.frameId
  fec : ∀ id, opened.pendingFec.lookup id = none

namespace Admits

variable {arrived : List stream.Slot} {slot : stream.Slot} {count now : Nat}
  {r opened : ChannelReassembler} {a a' : FrameAssembly}

variable (h : Admits arrived slot count r opened a)

include h

theorem incomplete : ¬ Complete arrived slot.1 := fun hcomplete => h.fresh (hcomplete slot.2)

theorem seen_mem :
    ∀ seen, opened.latestFrameIdSeen = some seen →
      ∃ other ∈ arrived ++ [slot], seen = stream.first + other.1.val := by
  intro seen hsome
  rcases h.seen with same | own
  · obtain ⟨other, hother, heq⟩ := h.before.seen_mem seen (same ▸ hsome)
    exact ⟨other, List.mem_append_left _ hother, heq⟩
  · rw [own] at hsome
    exact ⟨slot, by simp, (Option.some.inj hsome).symm.trans (spec_frameId slot.1)⟩

/-- The other unfinished frames go on as they were. -/
theorem kept {id : Nat} {b : FrameAssembly} (hne : id ≠ slot.packet.frameId)
    (hb : opened.frames.lookup id = some b) :
    ∃ n : Fin stream.frames.length, id = stream.first + n ∧
      Started (arrived ++ [slot]) n ∧ ¬ Complete (arrived ++ [slot]) n ∧
      Holding (arrived ++ [slot]) n b := by
  rw [h.others id hne] at hb
  obtain ⟨n, hn, hstarted, hnot, hb⟩ := h.before.holds id b hb
  have hother : n ≠ slot.1 := by
    rintro rfl
    exact hne (hn.trans (spec_frameId _).symm)
  exact ⟨n, hn, started_append.mpr (Or.inl hstarted),
    (complete_append_of_ne hother).not.mpr hnot, hb.other hother⟩

theorem held
    {n : Fin stream.frames.length} (hne : n ≠ slot.1)
    (hstarted : Started (arrived ++ [slot]) n)
    (hnot : ¬ Complete (arrived ++ [slot]) n) :
    stream.first + n.val ≠ slot.packet.frameId ∧
      (opened.frames.lookup (stream.first + n)).isSome = true := by
  have hid : slot.packet.frameId = stream.first + slot.1.val := spec_frameId slot.1
  have hother : stream.first + n.val ≠ slot.packet.frameId := by
    intro heq
    exact hne (Fin.ext (by omega))
  refine ⟨hother, ?_⟩
  rw [h.others _ hother]
  exact h.before.held n ((started_append.mp hstarted).resolve_right (Ne.symm hne))
    ((complete_append_of_ne hne).not.mp hnot)

/-- A frame that the packet completes is the next one in order. -/
theorem next_in_order (hlast : Complete (arrived ++ [slot]) slot.1) : slot.1.val = count := by
  have hnotCounted : ¬ slot.1.val < count := fun hlt =>
    h.incomplete ((h.before.complete slot.1).mpr hlt)
  by_contra hne
  have hlt : count < slot.1.val := by omega
  have hmissing := h.stepOk.inOrder hlast ⟨count, hlt.trans slot.1.isLt⟩ hlt
  have hcounted := (h.before.complete _).mp hmissing
  simp at hcounted

/-- The packet that completes its frame. -/
theorem finished
    (hfilled : Holding (arrived ++ [slot]) slot.1 a') (hcomplete : a'.isComplete = true)
    (hlast : Complete (arrived ++ [slot]) slot.1) :
    ∃ r' delivery, ({ opened with
        frames := opened.frames.insert slot.packet.frameId a'
        bufferedBytes := opened.bufferedBytes + slot.packet.payload.length
        } : ChannelReassembler).finalizeFrame slot.packet.frameId now = (r', some delivery) ∧
      Describes (arrived ++ [slot]) r' (count + 1) ∧
      delivery.frameId = stream.first + count := by
  have hid : slot.packet.frameId = stream.first + slot.1.val := spec_frameId slot.1
  have hcount := h.next_in_order hlast
  have hbase : brokenBase opened.latestCompletedId slot.packet.frameId = false := by
    rw [h.completed, h.before.completed, hid, hcount]
    have hfits := stream.fits
    unfold brokenBase
    by_cases hzero : count = 0
    · simp [hzero]
    · simp only [if_neg hzero, decide_eq_false_iff_not, Decidable.not_not]
      omega
  obtain ⟨delivery, hfinalize, hdelivery, -⟩ := finalizeFrame_delivers
    { opened with
      frames := opened.frames.insert slot.packet.frameId a'
      bufferedBytes := opened.bufferedBytes + slot.packet.payload.length }
    now (AList.lookup_insert _) hcomplete h.running (Or.inr hbase)
  refine ⟨_, delivery, hfinalize, ?_, by rw [hdelivery, hid, hcount]⟩
  refine ⟨h.running, by have := slot.1.isLt; omega, ?_, ?_, h.seen_mem, ?_, ?_, ?_, ?_⟩
  · intro n
    by_cases hsame : n = slot.1
    · rw [hsame, hcount]
      simpa using hlast
    · rw [complete_append_of_ne hsame, h.before.complete]
      have : n.val ≠ count := fun heq => hsame (Fin.ext (heq.trans hcount.symm))
      omega
  · rw [if_neg (Nat.succ_ne_zero _), hfilled.assembles.frameId, spec_frameId, hcount]
    rfl
  · intro id b hb
    obtain ⟨hne, hb⟩ := lookup_erase_some hb
    rw [AList.lookup_insert_ne hne] at hb
    exact h.kept hne hb
  · intro n hstarted hnot
    have hne : n ≠ slot.1 := by
      rintro rfl
      exact hnot hlast
    obtain ⟨hother, hsome⟩ := h.held hne hstarted hnot
    rw [AList.lookup_erase_ne hother, AList.lookup_insert_ne hother]
    exact hsome
  · have hbytes := bytes_pending_of_complete h.incomplete hlast
    have hown := hfilled.bytes
    rw [List.filter_append, bytes_append] at hown
    have hslot : bytes ([slot].filter fun other => decide (other.1 = slot.1)) =
        slot.packet.payload.length := by
      simp [FrameStream.bytes, Slot.packet]
    have hbuffered := h.buffered
    have hbefore := h.before.buffered
    dsimp only
    omega
  · intro id
    by_cases hsame : id = slot.packet.frameId
    · subst hsame
      exact AList.lookup_erase _ _
    · rw [AList.lookup_erase_ne hsame]
      exact h.fec id

/-- The packet that leaves its frame incomplete. -/
theorem unfinished
    (hfilled : Holding (arrived ++ [slot]) slot.1 a')
    (hnot : ¬ Complete (arrived ++ [slot]) slot.1) :
    Describes (arrived ++ [slot]) { opened with
      frames := opened.frames.insert slot.packet.frameId a'
      bufferedBytes := opened.bufferedBytes + slot.packet.payload.length } count := by
  have hid : slot.packet.frameId = stream.first + slot.1.val := spec_frameId slot.1
  refine ⟨h.running, h.before.count_le, ?_, h.completed.trans h.before.completed,
    h.seen_mem, ?_, ?_, ?_, h.fec⟩
  · intro n
    by_cases hsame : n = slot.1
    · subst hsame
      exact ⟨fun hc => absurd hc hnot,
        fun hlt => absurd ((h.before.complete slot.1).mpr hlt) h.incomplete⟩
    · rw [complete_append_of_ne hsame, h.before.complete]
  · intro id b hb
    by_cases hsame : id = slot.packet.frameId
    · subst hsame
      rw [AList.lookup_insert] at hb
      obtain rfl := Option.some.inj hb
      exact ⟨slot.1, hid, started_append.mpr (Or.inr rfl), hnot, hfilled⟩
    · rw [AList.lookup_insert_ne hsame] at hb
      exact h.kept hsame hb
  · intro n hstarted hn
    by_cases hsame : n = slot.1
    · rw [hsame, ← hid, AList.lookup_insert]
      rfl
    · obtain ⟨hother, hsome⟩ := h.held hsame hstarted hn
      rw [AList.lookup_insert_ne hother]
      exact hsome
  · rw [pending_append_of_incomplete hnot, bytes_append, ← h.before.buffered, h.buffered]
    simp [FrameStream.bytes, Slot.packet]

/-- The packet is stored, and its frame is delivered if nothing of it is missing. -/
theorem store_describes :
    ∃ r' out count', opened.store slot.packet now = (r', out) ∧
      Describes (arrived ++ [slot]) r' count' ∧
      ((out = none ∧ count' = count) ∨
        (∃ delivery, out = some delivery ∧
          delivery.frameId = stream.first + count ∧ count' = count + 1)) := by
  obtain ⟨a', hset⟩ : ∃ a', a.set slot.packet.packetIndex slot.packet.payload = some a' := by
    unfold FrameAssembly.set
    rw [h.holding.free h.fresh]
    exact ⟨_, rfl⟩
  have hfilled := h.holding.fill hset
  have hcomplete : a'.isComplete = true ↔ Complete (arrived ++ [slot]) slot.1 := by
    rw [hfilled.assembles.isComplete_iff]
    exact ⟨fun hall index => (hfilled.parts index).mp (hall index index.isLt),
      fun hall index hlt => (hfilled.parts ⟨index, hlt⟩).mpr (hall ⟨index, hlt⟩)⟩
  rw [store_eq h.lookup hset h.fec]
  by_cases hlast : Complete (arrived ++ [slot]) slot.1
  · obtain ⟨r', delivery, hfinalize, hnext, hdelivery⟩ :=
      h.finished hfilled (hcomplete.mpr hlast) hlast
    exact ⟨r', _, count + 1, hfinalize, hnext, Or.inr ⟨delivery, rfl, hdelivery, rfl⟩⟩
  · refine ⟨_, _, count, ?_, h.unfinished hfilled hlast, Or.inl ⟨rfl, rfl⟩⟩
    unfold finalizeFrame
    simp [hcomplete.not.mpr hlast]

end Admits

/-- The packets of a stream are well formed. -/
private theorem Slot.packet_valid (slot : stream.Slot) :
    ¬ (slot.packet.packetCount = 0 ∨
      slot.packet.packetIndex ≥ slot.packet.packetCount ∨
      slot.packet.packetCount > maxFramePacketCount) := by
  have hindex := slot.2.isLt
  have hlimit := stream.limit slot.1
  change ¬ ((stream.spec slot.1).pieces.length = 0 ∨
    slot.2.val ≥ (stream.spec slot.1).pieces.length ∨
    (stream.spec slot.1).pieces.length > maxFramePacketCount)
  change (stream.spec slot.1).pieces.length ≤ maxFramePacketCount at hlimit
  omega

/-- A packet of a frame that is not complete is wanted. -/
private theorem Describes.wanted {arrived : List stream.Slot} {slot : stream.Slot}
    {count : Nat} {r : ChannelReassembler} (h : Describes arrived r count)
    (hincomplete : ¬ Complete arrived slot.1) :
    r.alreadyCompleted slot.packet.frameId = false := by
  have hid : slot.packet.frameId = stream.first + slot.1.val := spec_frameId slot.1
  have hnotCounted : ¬ slot.1.val < count := fun hlt =>
    hincomplete ((h.complete slot.1).mpr hlt)
  rw [alreadyCompleted, h.completed]
  by_cases hzero : count = 0
  · simp [hzero]
  · simp only [if_neg hzero, Option.any_some, decide_eq_false_iff_not]
    omega

/-- A packet within the window is not ignored. -/
private theorem Describes.recent {arrived : List stream.Slot} {slot : stream.Slot}
    {count : Nat} {r : ChannelReassembler} (h : Describes arrived r count)
    (hbehind : ∀ earlier ∈ arrived, earlier.1.val ≤ slot.1.val + reassemblyReorderWindowFrames) :
    r.tooOld slot.packet.frameId = false := by
  have hid : slot.packet.frameId = stream.first + slot.1.val := spec_frameId slot.1
  unfold tooOld
  cases hseen : r.latestFrameIdSeen with
  | none => rfl
  | some seen =>
      obtain ⟨earlier, hearlier, rfl⟩ := h.seen_mem seen hseen
      have hwindow := hbehind earlier hearlier
      have hfits := stream.fits
      have hlt := earlier.1.isLt
      apply decide_eq_false
      simp only [satAdd32, reassemblyReorderWindowFrames] at hwindow ⊢
      omega

/-- One packet that the conditions allow: nothing is lost, and its frame is
delivered if it is the last packet of it. -/
private theorem onPacket_describes {arrived : List stream.Slot}
    {slot : stream.Slot} {count : Nat} {r : ChannelReassembler} (now : Nat)
    (h : Describes arrived r count) (hfresh : slot ∉ arrived)
    (hok : StepOk arrived slot)
    (hbehind : ∀ earlier ∈ arrived, earlier.1.val ≤ slot.1.val + reassemblyReorderWindowFrames)
    (hahead : ∀ m, Started arrived m → ¬ Complete arrived m →
      slot.1.val ≤ m.val + reassemblyReorderWindowFrames) :
    ∃ r' out count', r.onPacket iter slot.packet now = (r', out) ∧
      Describes (arrived ++ [slot]) r' count' ∧
      ((out = none ∧ count' = count) ∨
        (∃ delivery, out = some delivery ∧
          delivery.frameId = stream.first + count ∧ count' = count + 1)) := by
  have hid : slot.packet.frameId = stream.first + slot.1.val := spec_frameId slot.1
  have hincomplete : ¬ Complete arrived slot.1 := fun hc => hfresh (hc slot.2)
  have hwanted := h.wanted hincomplete
  have hrecent := h.recent hbehind
  obtain ⟨seen, fec, hnote, hseen, hfec⟩ := noteFrameId_keeps iter
    (r := r) slot.packet.frameId slot.packet.isKeyFrame (by
      intro old hold
      by_contra hsome
      obtain ⟨a, ha⟩ := Option.ne_none_iff_exists'.mp hsome
      obtain ⟨m, rfl, hstarted, hnot, _⟩ := h.holds old a ha
      have := hahead m hstarted hnot
      omega) h.fec
  obtain ⟨fec', hkey, hfec'⟩ := noteKeyFrame_keeps iter
    (r := { r with latestFrameIdSeen := seen, pendingFec := fec })
    slot.packet.frameId slot.packet.isKeyFrame h.running (by
      intro hkey old hold
      by_contra hsome
      obtain ⟨a, ha⟩ := Option.ne_none_iff_exists'.mp hsome
      obtain ⟨m, rfl, hstarted, hnot, _⟩ := h.holds old a ha
      rw [Slot.packet_isKeyFrame] at hkey
      exact hnot (hok.keyFrame hkey m (Fin.lt_def.mpr (by omega)) hstarted)) hfec
  let opened : ChannelReassembler := { r with latestFrameIdSeen := seen, pendingFec := fec' }
  have honPacket : r.onPacket iter slot.packet now = opened.assemble slot.packet now := by
    unfold onPacket
    rw [if_neg slot.packet_valid, hwanted, hrecent, h.running]
    simp only [Bool.false_and, Bool.false_eq_true, if_false, hnote]
    rw [hkey]
  obtain ⟨a, frames, hentry, hholding, hlookup, hothers⟩ :=
    entry_holding opened now h rfl hincomplete
  have hcount : a.packetCount = slot.packet.packetCount := hholding.assembles.count
  have hfree := hholding.free hfresh
  have hroom : r.bufferedBytes + slot.packet.payload.length ≤
      reassemblyMaxBufferedBytes := by
    rw [h.buffered]
    exact hok.buffer
  have hreserve := reserveBuffer_fits { opened with frames := frames }
    slot.packet.frameId slot.packet.isKeyFrame hroom
  have hassemble : opened.assemble slot.packet now =
      ({ opened with frames := frames } : ChannelReassembler).store slot.packet
        now := by
    unfold assemble
    simp only [hentry, hcount, ne_eq, not_true_eq_false, if_false, hfree,
      Bool.false_eq_true, hreserve]
  rw [honPacket, hassemble]
  have hadmits : Admits arrived slot count r { opened with frames := frames } a :=
    { before := h
      fresh := hfresh
      stepOk := hok
      holding := hholding
      lookup := hlookup
      others := hothers
      running := h.running
      completed := rfl
      buffered := rfl
      seen := hseen
      fec := hfec' }
  exact hadmits.store_describes

/-- Every packet of the stream that the window and the conditions allow,
counted from what has arrived so far. -/
private theorem run_describes (now : stream.Slot → Nat)
    (later : List stream.Slot) {arrived : List stream.Slot} {count : Nat}
    {r : ChannelReassembler} (h : Describes arrived r count)
    (harrive : AllArrive (arrived ++ later))
    (hwindow : WithinWindow (arrived ++ later))
    (hok : EachArrival StepOk (arrived ++ later)) :
    (machine iter).Along (fun r _ => r.waitingAfterLoss = false) r (calls later now) ∧
      ((machine iter).run r (calls later now)).waitingAfterLoss = false ∧
      (((machine iter).outputs r (calls later now)).filterMap id).map (·.frameId) =
        List.range' (stream.first + count) (stream.frames.length - count) := by
  induction later generalizing arrived count r with
  | nil =>
      refine ⟨trivial, h.running, ?_⟩
      have hall : count = stream.frames.length := by
        by_contra hne
        have hlt : count < stream.frames.length := lt_of_le_of_ne h.count_le hne
        have hcomplete : Complete arrived ⟨count, hlt⟩ := fun index => by
          simpa using harrive.2 ⟨⟨count, hlt⟩, index⟩
        have := (h.complete _).mp hcomplete
        simp at this
      simp [calls, hall]
  | cons slot later ih =>
      have hassoc : arrived ++ slot :: later = (arrived ++ [slot]) ++ later := by
        simp
      have hfresh : slot ∉ arrived := by
        intro member
        have hdisjoint := (List.nodup_append.mp harrive.1).2.2
        exact hdisjoint slot member slot List.mem_cons_self rfl
      have hahead : ∀ m, Started arrived m → ¬ Complete arrived m →
          slot.1.val ≤ m.val + reassemblyReorderWindowFrames := by
        intro m _ hnot
        by_cases hown : m = slot.1
        · rw [hown]
          omega
        obtain ⟨index, hmissing⟩ := not_forall.mp hnot
        have hlater : (⟨m, index⟩ : stream.Slot) ∈ later := by
          rcases List.mem_append.mp (harrive.2 ⟨m, index⟩) with old | new
          · exact absurd old hmissing
          · rcases List.mem_cons.mp new with heq | hlater
            · exact absurd (congrArg Sigma.fst heq) hown
            · exact hlater
        obtain ⟨between, after, rfl⟩ := List.append_of_mem hlater
        exact hwindow (arrived ++ slot :: between) ⟨m, index⟩ after (by simp) slot (by simp)
      obtain ⟨r', out, count', hstep, hnext, hout⟩ := onPacket_describes iter
        (now slot) h hfresh (hok arrived slot later rfl)
        (hwindow arrived slot later rfl) hahead
      obtain ⟨halong, hend, houtputs⟩ := ih hnext (hassoc ▸ harrive)
        (hassoc ▸ hwindow) (hassoc ▸ hok)
      have hmachine : (machine iter).step r (.packet slot.packet (now slot)) = (r', out) := hstep
      have hcalls : calls (slot :: later) now =
          .packet slot.packet (now slot) :: calls later now := rfl
      rw [hcalls, Machine.run_cons, Machine.outputs_cons, hmachine]
      refine ⟨?_, hend, ?_⟩
      · rw [Machine.along_cons, hmachine]
        exact ⟨h.running, halong⟩
      · rcases hout with ⟨rfl, rfl⟩ | ⟨delivery, rfl, hdelivery, rfl⟩
        · simpa using houtputs
        · have hle := hnext.count_le
          have hleft : stream.frames.length - count =
              (stream.frames.length - (count + 1)) + 1 := by omega
          rw [hleft, List.range'_succ]
          simpa [hdelivery, Nat.add_assoc] using houtputs

/-- A stream whose packets all arrive within the reorder window, complete in
order, not behind a key frame and within the buffer, is delivered whole and in
order, and the reassembler never waits for a key frame. -/
theorem delivers_in_order (stream : FrameStream) (arrivals : List stream.Slot)
    (now : stream.Slot → Nat) (harrive : AllArrive arrivals)
    (hwindow : WithinWindow arrivals) (hok : EachArrival StepOk arrivals) :
    (machine iter).Along (fun r _ => r.waitingAfterLoss = false)
        ChannelReassembler.new (calls arrivals now) ∧
      ((machine iter).run ChannelReassembler.new (calls arrivals now)).waitingAfterLoss = false ∧
      (((machine iter).outputs ChannelReassembler.new
          (calls arrivals now)).filterMap id).map (·.frameId) =
        List.range' stream.first stream.frames.length :=
  run_describes iter now arrivals Describes.new harrive hwindow hok

private def smallFrame (frameId : Nat) (isKeyFrame : Bool) (count : Nat) : FrameSpec where
  frameId := frameId
  isKeyFrame := isKeyFrame
  presentationTimeUs := 0
  pieces := List.replicate count [0]

/-- A key frame and a delta frame of two packets each. -/
private def twoFrames : FrameStream where
  first := 1
  frames := [smallFrame 1 true 2, smallFrame 2 false 2]
  numbered := by decide
  nonempty := by decide
  limit := by decide
  fits := by decide

private theorem eachArrival_of_take {ok : List stream.Slot → stream.Slot → Prop}
    {arrivals : List stream.Slot}
    (h : ∀ (index : Fin arrivals.length), ok (arrivals.take index) (arrivals.get index)) :
    EachArrival ok arrivals := by
  rintro before slot after rfl
  have hslot := h ⟨before.length, by simp⟩
  simpa using hslot

/-- The packets of both frames alternate. -/
theorem delivers_in_order_alternating :
    let arrivals : List twoFrames.Slot :=
      [⟨⟨0, by decide⟩, ⟨0, by decide⟩⟩, ⟨⟨1, by decide⟩, ⟨0, by decide⟩⟩,
        ⟨⟨0, by decide⟩, ⟨1, by decide⟩⟩, ⟨⟨1, by decide⟩, ⟨1, by decide⟩⟩]
    AllArrive arrivals ∧ WithinWindow arrivals ∧ EachArrival StepOk arrivals ∧
    (machine (IterOrder.stored Nat)).Along (fun r _ => r.waitingAfterLoss = false)
        ChannelReassembler.new (calls arrivals fun _ => 0) ∧
      ((machine (IterOrder.stored Nat)).run ChannelReassembler.new
        (calls arrivals fun _ => 0)).waitingAfterLoss = false ∧
      (((machine (IterOrder.stored Nat)).outputs ChannelReassembler.new
          (calls arrivals fun _ => 0)).filterMap id).map (·.frameId) =
        List.range' twoFrames.first twoFrames.frames.length := by
  intro arrivals
  have harrive : AllArrive arrivals := by decide +kernel
  have hwindow : WithinWindow arrivals := by
    apply eachArrival_of_take
    decide +kernel
  have hok : EachArrival StepOk arrivals := by
    apply eachArrival_of_take
    intro index
    refine ⟨?_, ?_, ?_⟩
    all_goals
      revert index
      decide +kernel
  exact ⟨harrive, hwindow, hok,
    delivers_in_order _ twoFrames arrivals (fun _ => 0) harrive hwindow hok⟩

/-- A key frame and two delta frames of one packet each. -/
private def threeFrames : FrameStream where
  first := 1
  frames := [smallFrame 1 true 1, smallFrame 2 false 1, smallFrame 3 false 1]
  numbered := by decide
  nonempty := by decide
  limit := by decide
  fits := by decide

/-- The last two frames change places, well within the window. The third frame
is complete before its base and is withheld, and the second comes too late. -/
theorem reordered_frames_are_lost :
    ¬ ∀ (iter : IterOrder Nat) (stream : FrameStream)
      (arrivals : List stream.Slot) (now : stream.Slot → Nat),
      AllArrive arrivals → WithinWindow arrivals →
      (machine iter).Along (fun r _ => r.waitingAfterLoss = false)
          ChannelReassembler.new (calls arrivals now) ∧
        ((machine iter).run ChannelReassembler.new (calls arrivals now)).waitingAfterLoss = false ∧
        (((machine iter).outputs ChannelReassembler.new
            (calls arrivals now)).filterMap id).map (·.frameId) =
          List.range' stream.first stream.frames.length := by
  intro halways
  let arrivals : List threeFrames.Slot :=
    [⟨⟨0, by decide⟩, ⟨0, by decide⟩⟩, ⟨⟨2, by decide⟩, ⟨0, by decide⟩⟩,
      ⟨⟨1, by decide⟩, ⟨0, by decide⟩⟩]
  have harrive : AllArrive arrivals := by decide +kernel
  have hwindow : WithinWindow arrivals := by
    apply eachArrival_of_take
    decide +kernel
  obtain ⟨-, hend, -⟩ := halways (IterOrder.stored Nat) threeFrames arrivals
    (fun _ => 0) harrive hwindow
  revert hend
  decide +kernel

end FrameStream

end EvertyDesk.Reassembler
