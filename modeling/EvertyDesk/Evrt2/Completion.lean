import EvertyDesk.Evrt2.Sender

/-!
How often a frame completes. The reassembler forgets a frame when it completes,
so later packets of the frame open it again. It therefore collects packets over
and over, and completes the frame twice exactly when two separate stretches of
the arrivals are each sufficient: for a frame of one unit, already when its
data packet and its repair packet both arrive.
-/

namespace EvertyDesk.Evrt2

open FrameShape

/-- A frame that is open has received the packets collected for it since. -/
def Follows (shape : FrameShape) (entry : Option PendingFrame) (packets : List Packet) : Prop :=
  match entry with
  | none => packets = []
  | some entry => packets ≠ [] ∧ Tracks shape entry packets

def FitsInput (shape : FrameShape) (input : Option Packet) : Prop :=
  ∀ packet, input = some packet → shape.Fits packet

theorem follows_nil (shape : FrameShape) : Follows shape none [] := rfl

/-- One packet of a frame, or its expiry, against one step of collecting. -/
theorem frameStep_follows (iter : IterOrder UInt8) {shape : FrameShape}
    {entry : Option PendingFrame} {packets : List Packet} {input : Option Packet}
    (h : Follows shape entry packets) (hinput : FitsInput shape input) :
    Follows shape (frameStep iter entry input).1 (Collect.step shape.Sufficient packets input).1 ∧
      (frameStep iter entry input).2.isSome = (Collect.step shape.Sufficient packets input).2 := by
  cases input with
  | none => exact ⟨rfl, rfl⟩
  | some packet =>
      have hfits := hinput packet rfl
      have hopen : Tracks shape (entry.getD (PendingFrame.new
          packet.1.packetCount.toNat (max (FecConfig.forMode packet.1.mode).n 1)))
            packets := by
        cases entry with
        | none =>
            have hempty : packets = [] := h
            subst hempty
            rw [Option.getD_none, hfits.2.1, hfits.2.2]
            exact Tracks.opened shape
        | some entry => exact h.2
      obtain ⟨stored, hstored, htracks⟩ := hopen.store hfits
      have hcomplete := htracks.settle_isComplete (by simp) iter
      simp only [frameStep, hstored, Collect.step]
      by_cases hdone : shape.Sufficient (packets ++ [packet])
      · rw [if_pos (hcomplete.mpr hdone), if_pos hdone]
        exact ⟨rfl, rfl⟩
      · rw [if_neg (fun hsettled => hdone (hcomplete.mp hsettled)), if_neg hdone]
        exact ⟨⟨by simp, htracks.settle iter⟩, rfl⟩

/-- A frame completes as often as its packets are collected. -/
theorem completions_length (iter : IterOrder UInt8) {shape : FrameShape}
    {entry : Option PendingFrame} {packets : List Packet}
    {inputs : List (Option Packet)} (h : Follows shape entry packets)
    (hinputs : ∀ input ∈ inputs, FitsInput shape input) :
    (((frameMachine iter).outputs entry inputs).filterMap id).length =
      Collect.handovers shape.Sufficient packets inputs := by
  have hmap := (frameMachine iter).outputs_simulated
    (Collect.machine shape.Sufficient) (R := Follows shape) (C := FitsInput shape)
    (f := Option.isSome)
    (fun _ _ _ hR hok => frameStep_follows iter hR hok) h hinputs
  rw [Collect.handovers, ← hmap, List.count, List.countP_map, List.length_filterMap_eq_countP]
  congr 1
  funext output
  cases output <;> rfl

theorem sufficient_append {shape : FrameShape} (held packets : List Packet)
    (h : shape.Sufficient packets) : shape.Sufficient (held ++ packets) :=
  h.mono (List.subset_append_right _ _)

theorem not_sufficient_nil (shape : FrameShape) : ¬ shape.Sufficient [] := fun h => h.1 rfl

/-- Two separate stretches of the arrivals, neither with an expiry of the frame,
from each of which alone the frame can be made up. -/
def OutgoingFrame.ReceivedTwice (frame : OutgoingFrame) (arrivals : List Arrival) :
    Prop :=
  Collect.Twice frame.shape.Sufficient (arrivals.filterMap (Arrival.forFrame frame.frameId))

/-- The frames that the reassembler completes with this number. -/
def completions (iter : IterOrder UInt8) (r : FrameReassembler) (id : UInt32)
    (arrivals : List Arrival) : List (List UInt8) :=
  ((FrameReassembler.machine iter).outputs r arrivals).filterMap (IngestResult.completed id)

/-- Every datagram is one that a frame in the list is sent as. -/
def AllSent (frames : List OutgoingFrame) (arrivals : List Arrival) : Prop :=
  ∀ wire, Arrival.datagram wire ∈ arrivals →
    ∃ frame ∈ frames, ∃ order, wire ∈ frame.buildFramePackets (FecConfig.forMode frame.mode) order

section

variable {frames : List OutgoingFrame} {arrivals : List Arrival}

/-- Only packets of the frame itself carry its number. -/
theorem forFrame_fits (hids : (frames.map OutgoingFrame.frameId).Nodup)
    (hsent : AllSent frames arrivals) {frame : OutgoingFrame}
    (hframe : frame ∈ frames) :
    ∀ input ∈ arrivals.filterMap (Arrival.forFrame frame.frameId), FitsInput frame.shape input := by
  rintro _ hinput packet rfl
  obtain ⟨wire, harrival, hpacket, hown, -⟩ := Arrival.mem_forFrame.mp hinput
  obtain ⟨other, hother, order, hwire⟩ := hsent wire harrival
  obtain ⟨sent, hdecode, hid, hfits⟩ := other.decode_of_mem _ hwire
  obtain rfl : sent = packet := Except.ok.inj (hdecode.symm.trans hpacket)
  have hsame : other = frame := List.inj_on_of_nodup_map hids hother hframe (hid.symm.trans hown)
  rwa [← hsame]

/-- The packets of other frames say nothing of a frame that is not sent. -/
theorem completions_of_not_sent (iter : IterOrder UInt8)
    (hsent : AllSent frames arrivals) {id : UInt32}
    (hid : ∀ frame ∈ frames, frame.frameId ≠ id) : completions iter .new id arrivals = [] := by
  have hnone : ∀ input ∈ arrivals.filterMap (Arrival.forFrame id), input = none := by
    intro input hinput
    cases input with
    | none => rfl
    | some packet =>
        obtain ⟨wire, harrival, hpacket, hown, -⟩ := Arrival.mem_forFrame.mp hinput
        obtain ⟨other, hother, order, hwire⟩ := hsent wire harrival
        obtain ⟨sent, hdecode, hsent, -⟩ := other.decode_of_mem _ hwire
        obtain rfl : sent = packet := Except.ok.inj (hdecode.symm.trans hpacket)
        exact absurd (hsent.symm.trans hown) (hid other hother)
  rw [completions, completions_eq]
  have hlookup : FrameReassembler.new.pendingFrames.lookup id = none := rfl
  rw [hlookup]
  generalize arrivals.filterMap (Arrival.forFrame id) = inputs at hnone
  induction inputs with
  | nil => rfl
  | cons input inputs ih =>
      rw [hnone input List.mem_cons_self]
      exact ih fun other hother => hnone other (List.mem_cons_of_mem _ hother)

/-- No frame completes more than once exactly when none is received twice. -/
theorem completes_once_iff (iter : IterOrder UInt8)
    (hids : (frames.map OutgoingFrame.frameId).Nodup)
    (hsent : AllSent frames arrivals) :
    (∀ id, (completions iter .new id arrivals).length ≤ 1) ↔
      ∀ frame ∈ frames, ¬ frame.ReceivedTwice arrivals := by
  have hframe : ∀ frame ∈ frames,
      (completions iter .new frame.frameId arrivals).length ≤ 1 ↔
        ¬ frame.ReceivedTwice arrivals := by
    intro frame hmember
    have hcount : (completions iter .new frame.frameId arrivals).length =
        Collect.handovers frame.shape.Sufficient []
          (arrivals.filterMap (Arrival.forFrame frame.frameId)) := by
      rw [completions, completions_eq]
      exact completions_length iter (follows_nil _) (forFrame_fits hids hsent hmember)
    have htwice := Collect.two_le_handovers_iff sufficient_append
      (not_sufficient_nil frame.shape) (arrivals.filterMap (Arrival.forFrame frame.frameId))
    rw [hcount, OutgoingFrame.ReceivedTwice, ← htwice]
    omega
  constructor
  · intro honce frame hmember
    exact (hframe frame hmember).mp (honce frame.frameId)
  · intro hnever id
    by_cases hid : ∃ frame ∈ frames, frame.frameId = id
    · obtain ⟨frame, hmember, rfl⟩ := hid
      exact (hframe frame hmember).mpr (hnever frame hmember)
    · push Not at hid
      rw [completions_of_not_sent iter hsent hid]
      exact Nat.zero_le _

end

/-- A frame of one byte, which is one unit with a repair packet. -/
def tinyFrame (id : UInt32) : OutgoingFrame where
  frameBytes := [7]
  frameId := id
  mode := .ar
  isKeyframe := false
  isSilicon := false
  isH265 := false
  presentationTimeUs := 0
  visibleRegionByteRanges := []

/-- The first datagrams of two frames. -/
def tinyArrivals : List Arrival :=
  [.datagram ((tinyFrame 1).dataWire FecConfig.ar 0),
    .datagram ((tinyFrame 2).dataWire FecConfig.ar 0)]

theorem completes_once_iff_tiny :
    (∀ id, (completions (IterOrder.stored _) .new id tinyArrivals).length ≤ 1) ↔
      ∀ frame ∈ [tinyFrame 1, tinyFrame 2], ¬ frame.ReceivedTwice tinyArrivals := by
  apply completes_once_iff
  · decide
  · intro wire hwire
    simp only [tinyArrivals, List.mem_cons, Arrival.datagram.injEq,
      List.not_mem_nil, or_false] at hwire
    rcases hwire with rfl | rfl
    · exact ⟨tinyFrame 1, by simp, IterOrder.stored _,
        (OutgoingFrame.mem_buildFramePackets ..).mpr (Or.inl ⟨0, by decide, rfl⟩)⟩
    · exact ⟨tinyFrame 2, by simp, IterOrder.stored _,
        (OutgoingFrame.mem_buildFramePackets ..).mpr (Or.inl ⟨0, by decide, rfl⟩)⟩

/-- All datagrams of a frame of one unit arrive, each once and in order: the
repair packet completes the frame again. -/
theorem repair_completes_again :
    ¬ ∀ (iter : IterOrder UInt8) (frames : List OutgoingFrame) (arrivals : List Arrival),
      (frames.map OutgoingFrame.frameId).Nodup → AllSent frames arrivals →
      ∀ id, (completions iter .new id arrivals).length ≤ 1 := by
  intro honce
  have hall : AllSent [tinyFrame 1]
      (((tinyFrame 1).buildFramePackets FecConfig.ar (IterOrder.stored _)).map
        Arrival.datagram) := by
    intro wire hwire
    obtain ⟨sent, hsent, heq⟩ := List.mem_map.mp hwire
    obtain rfl := Arrival.datagram.inj heq
    exact ⟨tinyFrame 1, by simp, IterOrder.stored _, hsent⟩
  have htwo := honce (IterOrder.stored _) _ _ (by decide) hall 1
  revert htwo
  decide

end EvertyDesk.Evrt2
