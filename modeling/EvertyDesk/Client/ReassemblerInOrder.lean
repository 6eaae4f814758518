import EvertyDesk.Client.FrameAssembly
import EvertyDesk.Client.ReassemblerSteps

/-!
Frames that arrive whole and in the order of their numbers: none of their
packets is taken for one of a frame that is already completed.
-/

namespace EvertyDesk.Reassembler

open Evrt ChannelReassembler

/-- A frame as it is sent. -/
structure SentFrame where
  frameId : UInt32
  isKeyFrame : Bool
  presentationTimeUs : Nat
  pieces : List (List UInt8)

namespace SentFrame

variable (frame : SentFrame)

def spec : FrameSpec where
  frameId := frame.frameId.toNat
  isKeyFrame := frame.isKeyFrame
  presentationTimeUs := frame.presentationTimeUs
  pieces := frame.pieces

def packet (index : Nat) : EvrtPacket where
  packetType := typeVideoFrame
  flags := frameFlags frame.isKeyFrame
  frameId := frame.frameId.toNat
  packetIndex := index
  packetCount := frame.pieces.length
  presentationTimeUs := frame.presentationTimeUs
  payload := frame.pieces.getD index []
  frameId_lt := frame.frameId.toNat_lt

/-- The arrival of all its packets in order. -/
def calls (now : Nat → Nat) : List Op :=
  (List.range frame.pieces.length).map fun index =>
    .packet (frame.packet index) (now index)

@[simp] theorem packet_isKeyFrame (index : Nat) :
    (frame.packet index).isKeyFrame = frame.isKeyFrame := by
  cases hkey : frame.isKeyFrame <;>
    simp [EvrtPacket.isKeyFrame, packet, frameFlags, flagKeyFrame, hkey]

end SentFrame

/-- A packet is not discarded as one of a completed frame. -/
def NotDiscarded (r : ChannelReassembler) : Op → Prop
  | .packet pkt _ => r.alreadyCompleted pkt.frameId = false
  | _ => True

/-- An unfinished frame while the first `count` packets of a frame have
arrived: an earlier one, or that frame, with no slot filled beyond these. -/
def SoFar (frame : SentFrame) (count id : Nat) (a : FrameAssembly) : Prop :=
  a.frameId = id ∧ (id < frame.frameId.toNat ∨
    id = frame.frameId.toNat ∧ Assembles frame.spec a ∧
      ∀ index, (a.part index).isSome → index < count)

/-- The reassembler at that point. There are no parity packets, and the frame
is completed by its last packet at the earliest. -/
structure UpTo (frame : SentFrame) (count : Nat) (r : ChannelReassembler) :
    Prop where
  holds : Holds (SoFar frame count) (fun _ _ => False) r
  completed : ∀ id, r.latestCompletedId = some id →
    id < frame.frameId.toNat ∨ id = frame.frameId.toNat ∧ count = frame.pieces.length

/-- The reassembler before any packet of a frame with this number. -/
structure Below (bound : Nat) (r : ChannelReassembler) : Prop where
  holds : Holds (fun id a => a.frameId = id ∧ id < bound) (fun _ _ => False) r
  completed : ∀ id, r.latestCompletedId = some id → id < bound

theorem Below.new (bound : Nat) : Below bound ChannelReassembler.new where
  holds :=
    { frames := fun _ _ h => by simp [ChannelReassembler.new] at h
      fec := fun _ _ h => by simp [ChannelReassembler.new] at h }
  completed := fun _ h => by simp [ChannelReassembler.new] at h

section

variable {frame : SentFrame} {count : Nat} {r : ChannelReassembler}

theorem Below.upTo (h : Below frame.frameId.toNat r) : UpTo frame 0 r where
  holds :=
    { frames := fun id a ha =>
        ⟨(h.holds.frames id a ha).1, Or.inl (h.holds.frames id a ha).2⟩
      fec := h.holds.fec }
  completed := fun id hid => Or.inl (h.completed id hid)

theorem UpTo.below {bound : Nat} (h : UpTo frame count r)
    (hbound : frame.frameId.toNat < bound) : Below bound r where
  holds :=
    { frames := by
        intro id a ha
        obtain ⟨hid, hpart⟩ := h.holds.frames id a ha
        refine ⟨hid, ?_⟩
        rcases hpart with hlt | ⟨rfl, _⟩
        · omega
        · exact hbound
      fec := h.holds.fec }
  completed := by
    intro id hid
    rcases h.completed id hid with hlt | ⟨rfl, _⟩
    · omega
    · exact hbound

/-- What one packet may do to its frame. -/
private theorem packet_accepts {opened : ChannelReassembler} (now : Nat)
    (hcount : count < frame.pieces.length) :
    Accepts (SoFar frame (count + 1)) opened (frame.packet count) now where
  opens := by
    intro _
    refine ⟨rfl, Or.inr ⟨rfl, ?_, ?_⟩⟩
    · rw [SentFrame.packet_isKeyFrame]
      exact Assembles.new frame.spec now
    · intro index hpart
      simp only [FrameAssembly.part, FrameAssembly.new, List.getElem?_replicate] at hpart
      split at hpart <;> cases hpart
  fills := by
    rintro a a' ⟨hid, hpart⟩ _ hset
    obtain ⟨hframe, _, _, _⟩ := FrameAssembly.set_header hset
    refine ⟨hframe.trans hid, Or.inr ⟨rfl, ?_⟩⟩
    obtain ⟨hassembles, hslots⟩ : Assembles frame.spec a ∧
        ∀ index, (a.part index).isSome → index < count + 1 := by
      rcases hpart with hlt | ⟨_, hpart⟩
      · exact absurd hlt (Nat.lt_irrefl _)
      · exact hpart
    have hpiece : frame.spec.pieces[count]? = some (frame.packet count).payload := by
      have hlt : count < frame.spec.pieces.length := hcount
      simp [SentFrame.packet, SentFrame.spec, List.getElem?_eq_getElem hcount]
    refine ⟨hassembles.set hpiece hset, ?_⟩
    intro index hsome
    rw [FrameAssembly.set_part hset] at hsome
    split at hsome
    next heq =>
      have : index = count := heq
      omega
    next => exact hslots index hsome

/-- The next packet of the frame is not discarded. -/
theorem UpTo.next (iter : IterOrder Nat) (h : UpTo frame count r)
    (hcount : count < frame.pieces.length) (now : Nat) :
    NotDiscarded r (.packet (frame.packet count) now) ∧
      UpTo frame (count + 1) (r.onPacket iter (frame.packet count) now).1 := by
  have hbelow : ∀ id, r.latestCompletedId = some id → id < frame.frameId.toNat := by
    intro id hid
    rcases h.completed id hid with hlt | ⟨_, hall⟩
    · exact hlt
    · omega
  have hmore : Holds (SoFar frame (count + 1)) (fun _ _ => False) r :=
    { frames := by
        intro id a ha
        obtain ⟨hid, hpart⟩ := h.holds.frames id a ha
        refine ⟨hid, hpart.imp_right ?_⟩
        rintro ⟨heq, hassembles, hslots⟩
        exact ⟨heq, hassembles, fun index hsome =>
          Nat.lt_succ_of_lt (hslots index hsome)⟩
      fec := h.holds.fec }
  constructor
  · simp only [NotDiscarded, alreadyCompleted]
    cases hlatest : r.latestCompletedId with
    | none => rfl
    | some id =>
        have := hbelow id hlatest
        simp only [Option.any_some, decide_eq_false_iff_not, not_le]
        exact this
  · rcases r.onPacket_cases iter (frame.packet count) now with
      ⟨r', seen, hresult, hshrinks⟩ | ⟨opened, hresult, _, hopens⟩
    · rw [hresult]
      have hkept : Holds (SoFar frame (count + 1)) (fun _ _ => False)
          { r with latestFrameIdSeen := seen } := ⟨hmore.frames, hmore.fec⟩
      refine ⟨hkept.shrink hshrinks, ?_⟩
      intro id hid
      rw [hshrinks.completed] at hid
      exact Or.inl (hbelow id hid)
    · rw [hresult]
      obtain ⟨seen, hshrinks⟩ := hopens.shrinks
      have hopened : Holds (SoFar frame (count + 1)) (fun _ _ => False) opened := by
        apply Holds.shrink _ hshrinks
        exact ⟨hmore.frames, hmore.fec⟩
      obtain ⟨hdone, houtcome⟩ := assemble_holds
        (fun _ _ _ _ _ _ _ hfec => hfec.elim) hopened
        (packet_accepts now hcount)
      refine ⟨hdone, ?_⟩
      rcases houtcome with ⟨_, hsame⟩ | ⟨a, last, ⟨hid, hpart⟩, hcomplete, _, _, hcompleted, _⟩
      · intro id hlatest
        rw [hsame.completed, hshrinks.completed] at hlatest
        exact Or.inl (hbelow id hlatest)
      · -- a complete frame has its last slot filled, so this was the last packet
        intro id hlatest
        rw [hcompleted, hid] at hlatest
        obtain rfl := Option.some.inj hlatest
        rcases hpart with hlt | ⟨heq, hassembles, hslots⟩
        · exact Or.inl hlt
        · right
          refine ⟨heq, ?_⟩
          have hlast := hassembles.isComplete_iff.mp hcomplete
            (frame.pieces.length - 1) (by simp only [SentFrame.spec]; omega)
          have := hslots _ hlast
          omega

/-- All packets of the frame. -/
private theorem run_frame (iter : IterOrder Nat) (now : Nat → Nat) (rest : Nat) :
    ∀ (count : Nat) (r : ChannelReassembler), count + rest = frame.pieces.length →
      UpTo frame count r →
      (machine iter).Along NotDiscarded r
        ((List.range' count rest).map fun index =>
          .packet (frame.packet index) (now index)) ∧
      UpTo frame frame.pieces.length ((machine iter).run r
        ((List.range' count rest).map fun index =>
          .packet (frame.packet index) (now index))) := by
  induction rest with
  | zero =>
      intro count r hlength h
      obtain rfl : count = frame.pieces.length := by omega
      exact ⟨trivial, h⟩
  | succ rest ih =>
      intro count r hlength h
      obtain ⟨hkept, hnext⟩ := h.next iter (by omega) (now count)
      obtain ⟨hrest, hend⟩ := ih (count + 1) _ (by omega) hnext
      exact ⟨⟨hkept, hrest⟩, hend⟩

end

/-- Frames with increasing numbers, each whole and in order. -/
theorem in_order_not_discarded (iter : IterOrder Nat) (now : SentFrame → Nat → Nat)
    {frames : List SentFrame}
    (hincreasing : (frames.map fun frame => frame.frameId.toNat).Pairwise (· < ·)) :
    (machine iter).Along NotDiscarded ChannelReassembler.new
      (frames.flatMap fun frame => frame.calls (now frame)) := by
  have hrun : ∀ (frames : List SentFrame) (r : ChannelReassembler),
      (frames.map fun frame => frame.frameId.toNat).Pairwise (· < ·) →
      (∀ frame ∈ frames, Below frame.frameId.toNat r) →
      (machine iter).Along NotDiscarded r
        (frames.flatMap fun frame => frame.calls (now frame)) := by
    intro frames
    induction frames with
    | nil => exact fun _ _ _ => trivial
    | cons frame frames ih =>
        intro r hpairwise hbelow
        rw [List.map_cons, List.pairwise_cons] at hpairwise
        obtain ⟨hkept, hend⟩ := run_frame iter (now frame) frame.pieces.length 0 r
          (Nat.zero_add _) (hbelow frame List.mem_cons_self).upTo
        rw [List.flatMap_cons, Machine.along_append, SentFrame.calls, List.range_eq_range']
        refine ⟨hkept, ih _ hpairwise.2 ?_⟩
        intro other hother
        apply hend.below
        exact hpairwise.1 _ (List.mem_map_of_mem hother)
  exact hrun frames _ hincreasing fun _ _ => Below.new _

end EvertyDesk.Reassembler
