import EvertyDesk.Client.Reassembler

/-!
What an unfinished frame holds while only its own pieces are put into it: each
piece sits in its own slot, and once every slot is taken the frame is the
pieces in order.
-/

namespace EvertyDesk.Reassembler

/-- The header fields and the pieces of one frame. -/
structure FrameSpec where
  frameId : Nat
  isKeyFrame : Bool
  presentationTimeUs : Nat
  pieces : List (List UInt8)

/-- An unfinished frame with the right header, whose filled slots hold the
right pieces. -/
structure Assembles (spec : FrameSpec) (a : FrameAssembly) : Prop where
  frameId : a.frameId = spec.frameId
  isKeyFrame : a.isKeyFrame = spec.isKeyFrame
  time : a.presentationTimeUs = spec.presentationTimeUs
  count : a.packetCount = spec.pieces.length
  slots : a.parts.length = spec.pieces.length
  received : a.received = a.parts.countP Option.isSome
  parts : ∀ index part, a.part index = some part → spec.pieces[index]? = some part

namespace FrameAssembly

variable {a a' : FrameAssembly} {index : Nat} {payload : List UInt8}

theorem hasPart_eq_false (h : a.hasPart index = false) : a.parts[index]? = some none := by
  unfold hasPart at h
  cases hslot : a.parts[index]? with
  | none => simp [hslot] at h
  | some slot =>
      cases slot with
      | none => rfl
      | some payload => simp [hslot] at h

theorem hasPart_of_part (hlt : index < a.parts.length) (h : a.part index = none) :
    a.hasPart index = false := by
  rw [part, List.getElem?_eq_getElem hlt, Option.join_some] at h
  simp [hasPart, List.getElem?_eq_getElem hlt, h]

/-- Only a free slot is filled. -/
theorem set_eq_some (h : a.set index payload = some a') :
    a.parts[index]? = some none ∧
      a' = { a with
        parts := a.parts.set index (some payload)
        received := a.received + 1
        bufferedBytes := a.bufferedBytes + payload.length } := by
  unfold set at h
  split at h
  · contradiction
  · next hfree =>
      exact ⟨hasPart_eq_false (by simpa using hfree), (Option.some.inj h).symm⟩

/-- Filling a slot leaves the header as it is. -/
theorem set_header (h : a.set index payload = some a') :
    a'.frameId = a.frameId ∧ a'.packetCount = a.packetCount ∧
      a'.isKeyFrame = a.isKeyFrame ∧
      a'.presentationTimeUs = a.presentationTimeUs := by
  obtain ⟨_, rfl⟩ := set_eq_some h
  exact ⟨rfl, rfl, rfl, rfl⟩

/-- Filling a slot changes that slot only. -/
theorem set_part (h : a.set index payload = some a') (index' : Nat) :
    a'.part index' = if index' = index then some payload else a.part index' := by
  obtain ⟨hslot, rfl⟩ := set_eq_some h
  have hlt : index < a.parts.length := (List.getElem?_eq_some_iff.mp hslot).1
  simp only [part]
  by_cases heq : index' = index
  · subst heq
    simp [hlt]
  · simp [heq, Ne.symm heq]

end FrameAssembly

namespace Assembles

variable {spec : FrameSpec} {a a' : FrameAssembly} {index : Nat}
variable {payload : List UInt8}

/-- A frame that has just been opened. -/
theorem new (spec : FrameSpec) (now : Nat) :
    Assembles spec (FrameAssembly.new spec.frameId spec.pieces.length
      spec.isKeyFrame spec.presentationTimeUs now) := by
  refine ⟨rfl, rfl, rfl, rfl, List.length_replicate, ?_, ?_⟩
  · simp [FrameAssembly.new, List.countP_replicate]
  · intro slot part hpart
    simp only [FrameAssembly.part, FrameAssembly.new, List.getElem?_replicate] at hpart
    split at hpart <;> contradiction

/-- Filling a slot with its own piece keeps the frame right. -/
theorem set (h : Assembles spec a) (hpayload : spec.pieces[index]? = some payload)
    (hset : a.set index payload = some a') : Assembles spec a' := by
  have hpart := FrameAssembly.set_part hset
  obtain ⟨hslot, rfl⟩ := FrameAssembly.set_eq_some hset
  obtain ⟨hlt, hempty⟩ := List.getElem?_eq_some_iff.mp hslot
  refine ⟨h.frameId, h.isKeyFrame, h.time, h.count, ?_, ?_, ?_⟩
  · simpa using h.slots
  · simp [List.countP_set, hlt, hempty, h.received]
  · intro index' part hpart'
    rw [hpart] at hpart'
    split at hpart'
    · next heq =>
        obtain rfl := Option.some.inj hpart'
        rw [heq]
        exact hpayload
    · exact h.parts index' part hpart'

/-- A frame is complete when every slot is taken. -/
theorem isComplete_iff (h : Assembles spec a) :
    a.isComplete = true ↔ ∀ index < spec.pieces.length, (a.part index).isSome := by
  have hcomplete : a.isComplete = true ↔ ∀ slot ∈ a.parts, slot.isSome = true := by
    rw [← List.countP_eq_length, ← h.received, h.slots, ← h.count]
    simp [FrameAssembly.isComplete]
  rw [hcomplete, ← h.slots]
  constructor
  · intro hall index hlt
    have := hall _ (List.getElem_mem hlt)
    simpa [FrameAssembly.part, List.getElem?_eq_getElem hlt] using this
  · intro hall slot hslot
    obtain ⟨index, hlt, rfl⟩ := List.getElem_of_mem hslot
    have := hall index hlt
    simpa [FrameAssembly.part, List.getElem?_eq_getElem hlt] using this

/-- A complete frame is its pieces in order. -/
theorem join (h : Assembles spec a) (hcomplete : a.isComplete = true) :
    a.join = spec.pieces.flatten := by
  have hall := h.isComplete_iff.mp hcomplete
  have hparts : a.parts = spec.pieces.map some := by
    apply List.ext_getElem (by simpa using h.slots)
    intro index hlt hlt'
    obtain ⟨part, hpart⟩ := Option.isSome_iff_exists.mp (hall index (h.slots ▸ hlt))
    have hpiece := h.parts index part hpart
    rw [FrameAssembly.part, List.getElem?_eq_getElem hlt, Option.join_some] at hpart
    rw [hpart, List.getElem_map, (List.getElem?_eq_some_iff.mp hpiece).2]
  unfold FrameAssembly.join
  split
  · next hone =>
      rw [h.count] at hone
      obtain ⟨piece, hpiece⟩ := List.length_eq_one_iff.mp hone
      rw [hparts, hpiece]
      simp
  · rw [hparts]
    simp [List.filterMap_map]

end Assembles

end EvertyDesk.Reassembler
