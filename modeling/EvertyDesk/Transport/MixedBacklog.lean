import EvertyDesk.Transport.BatchDecoding

/-!
Trimming of a batch in which the codecs are mixed, as it is while the host changes the
codec. A batch is cut at its last key frame, whatever codec that is of; that a chain of
EVRTCK differences is broken is only reported when the whole batch is EVRTCK.
-/

namespace EvertyDesk.Transport.MixedBacklog

/-- A frame of a video message, as far as trimming looks at it. -/
structure EncodedVideoFrame where
  key : Bool
deriving DecidableEq, Repr

inductive DecoderInput where
  | png
  | h264 (frames : List EncodedVideoFrame)
  | vp8 (frames : List EncodedVideoFrame)
  | vp9 (frames : List EncodedVideoFrame)
  | h265 (frames : List EncodedVideoFrame)
  | av1 (frames : List EncodedVideoFrame)
  | evrtck (sid : String) (bytes : List UInt8) (key : Bool)
deriving DecidableEq, Repr

namespace DecoderInput

def hasKeyframe : DecoderInput → Bool
  | .evrtck _ _ key => key
  | .h264 frames | .vp8 frames | .vp9 frames | .h265 frames | .av1 frames =>
      frames.any EncodedVideoFrame.key
  | .png => false

def isEvrtck : DecoderInput → Bool
  | .evrtck .. => true
  | _ => false

end DecoderInput

open MixedBacklog.DecoderInput

/-- The index of the last item with the property. -/
def rposition {Item : Type} (p : Item → Bool) (items : List Item) : Option Nat :=
  (items.reverse.findIdx? p).map fun fromEnd => items.length - 1 - fromEnd

/-- From the last key frame on, or the last three inputs. -/
def drained (batch : List DecoderInput) : List DecoderInput :=
  match rposition hasKeyframe batch with
  | some index => batch.drop index
  | none => batch.drop (batch.length - maxVideoBacklog)

def trimVideoBacklogToKeyframe (batch : List DecoderInput) : List DecoderInput × BacklogTrim :=
  if batch.length ≤ maxVideoBacklog then (batch, ⟨0, false⟩)
  else
    let before := batch.length
    let evrtckOnly := batch.all isEvrtck
    let kept := drained batch
    let dropped := before - kept.length
    let evrtckChainBroken := evrtckOnly && decide (dropped > 0) && !kept.head?.any hasKeyframe
    (if evrtckChainBroken then [] else kept, ⟨dropped, evrtckChainBroken⟩)

/-- Where a batch is cut. -/
def cut (batch : List DecoderInput) : Nat :=
  if batch.length ≤ maxVideoBacklog then 0
  else (rposition hasKeyframe batch).getD (batch.length - maxVideoBacklog)

/-- All kept differences follow in the batch, among its EVRTCK inputs, directly upon one
that is kept too, or upon none. -/
def ChainsKept (gone kept : List DecoderInput) : Prop :=
  ∀ front delta rest, kept = front ++ delta :: rest → delta.isEvrtck = true →
    delta.hasKeyframe = false → gone.any isEvrtck = true → front.any isEvrtck = true

/-- The cut does not go between a difference and the EVRTCK input before it: the first
EVRTCK input from there on is a key frame, if there is one, or none was before. -/
def Undivided (batch : List DecoderInput) : Prop :=
  ∀ first, (batch.drop (cut batch)).find? isEvrtck = some first →
    first.hasKeyframe = true ∨ (batch.take (cut batch)).any isEvrtck = false

section Position

variable {Item : Type} {p : Item → Bool} {items : List Item}

theorem rposition_some {index : Nat} (h : rposition p items = some index) :
    index < items.length ∧ ∃ item, items[index]? = some item ∧ p item = true := by
  obtain ⟨fromEnd, hfind, rfl⟩ := Option.map_eq_some_iff.mp h
  obtain ⟨hlt, hp, -⟩ := List.findIdx?_eq_some_iff_getElem.mp hfind
  rw [List.length_reverse] at hlt
  refine ⟨by omega, _, List.getElem?_eq_getElem (by omega), ?_⟩
  rwa [List.getElem_reverse] at hp

theorem rposition_none (h : rposition p items = none) : ∀ item ∈ items, p item = false := by
  intro item hitem
  have hfind := List.findIdx?_eq_none_iff.mp (Option.map_eq_none_iff.mp h)
  exact hfind item (List.mem_reverse.mpr hitem)

end Position

section Cut

variable (batch : List DecoderInput)

theorem cut_le : cut batch ≤ batch.length := by
  unfold cut
  split
  · exact Nat.zero_le _
  · cases hlast : rposition hasKeyframe batch with
    | none => exact Nat.sub_le _ _
    | some index => exact (rposition_some hlast).1.le

/-- What trimming does: from the cut on the batch is kept, unless the chain is broken. -/
theorem trim_eq :
    ∃ broken, trimVideoBacklogToKeyframe batch =
        (if broken then [] else batch.drop (cut batch), ⟨cut batch, broken⟩) ∧
      broken = (batch.all isEvrtck && decide (cut batch > 0) &&
        !(batch.drop (cut batch)).head?.any hasKeyframe) := by
  by_cases hshort : batch.length ≤ maxVideoBacklog
  · refine ⟨false, ?_, ?_⟩
    · simp [trimVideoBacklogToKeyframe, cut, hshort]
    · simp [cut, hshort]
  · have hkept : drained batch = batch.drop (cut batch) := by
      rw [cut, if_neg hshort, drained]
      cases rposition hasKeyframe batch <;> rfl
    have hdropped : batch.length - (batch.drop (cut batch)).length = cut batch := by
      have hle := cut_le batch
      rw [List.length_drop]
      omega
    refine ⟨_, ?_, rfl⟩
    rw [trimVideoBacklogToKeyframe, if_neg hshort]
    simp only [hkept, hdropped]

/-- A large batch begins with a key frame from the cut on, or has none at all and the last
three inputs are kept. -/
theorem cut_cases (hlong : maxVideoBacklog < batch.length) :
    (∃ first rest, batch.drop (cut batch) = first :: rest ∧ first.hasKeyframe = true) ∨
      ((∀ input ∈ batch, input.hasKeyframe = false) ∧
        cut batch + maxVideoBacklog = batch.length) := by
  rw [cut, if_neg (by omega)]
  cases hlast : rposition hasKeyframe batch with
  | some index =>
      obtain ⟨hlt, first, hfirst, hkey⟩ := rposition_some hlast
      refine .inl ⟨first, batch.drop (index + 1), ?_, hkey⟩
      rw [Option.getD_some, List.drop_eq_getElem_cons hlt]
      rw [List.getElem?_eq_getElem hlt] at hfirst
      rw [Option.some.inj hfirst]
  | none =>
      refine .inr ⟨rposition_none hlast, ?_⟩
      rw [Option.getD_none]
      omega

end Cut

/-- The chains are kept if the first kept EVRTCK input does not hang in the air. -/
theorem chainsKept_iff {gone kept : List DecoderInput} :
    ChainsKept gone kept ↔ ∀ first, kept.find? isEvrtck = some first →
      first.hasKeyframe = true ∨ gone.any isEvrtck = false := by
  constructor
  · intro h first hfirst
    obtain ⟨hevrtck, front, rest, heq, hbefore⟩ := List.find?_eq_some_iff_append.mp hfirst
    by_contra hhangs
    have hdelta : first.hasKeyframe = false := by
      cases hkey : first.hasKeyframe with
      | false => rfl
      | true => exact absurd (.inl hkey) hhangs
    have hgone : gone.any isEvrtck = true := by
      cases hany : gone.any isEvrtck with
      | true => rfl
      | false => exact absurd (.inr hany) hhangs
    obtain ⟨input, hinput, hevrtck'⟩ := List.any_eq_true.mp
      (h front first rest heq hevrtck hdelta hgone)
    have hnot := hbefore input hinput
    simp [hevrtck'] at hnot
  · intro h front delta rest heq hevrtck hdelta hgone
    by_contra hnone
    have hnone : front.find? isEvrtck = none := by
      apply List.find?_eq_none.mpr
      intro input hinput hevrtck'
      exact hnone (List.any_eq_true.mpr ⟨input, hinput, hevrtck'⟩)
    have hfirst : kept.find? isEvrtck = some delta := by
      rw [heq, List.find?_append, hnone, Option.none_or, List.find?_cons_of_pos hevrtck]
    rcases h delta hfirst with hkey | hempty
    · simp [hkey] at hdelta
    · simp [hempty] at hgone

/-- Unless the broken chain is reported, the chains are kept exactly when the cut does not
divide one. -/
theorem chainsKept_trim_iff {batch : List DecoderInput}
    (h : (trimVideoBacklogToKeyframe batch).2.evrtckChainBroken = false) :
    ChainsKept
        (batch.take (batch.length - (trimVideoBacklogToKeyframe batch).1.length))
        (trimVideoBacklogToKeyframe batch).1 ↔ Undivided batch := by
  obtain ⟨broken, htrim, -⟩ := trim_eq batch
  rw [htrim] at h ⊢
  dsimp only at h
  subst h
  have hle := cut_le batch
  have hgone : batch.length - (batch.drop (cut batch)).length = cut batch := by
    rw [List.length_drop]
    omega
  dsimp only
  rw [if_neg Bool.false_ne_true, hgone]
  exact chainsKept_iff

/-- A batch of EVRTCK alone is cut at a key frame, or the broken chain is reported. -/
theorem undivided_of_evrtck {batch : List DecoderInput} (hall : batch.all isEvrtck = true)
    (h : (trimVideoBacklogToKeyframe batch).2.evrtckChainBroken = false) :
    Undivided batch := by
  obtain ⟨broken, htrim, hbroken⟩ := trim_eq batch
  rw [htrim] at h
  dsimp only at h
  rw [h, hall] at hbroken
  intro first hfirst
  by_cases hcut : cut batch = 0
  · right
    simp [hcut]
  · left
    have hkey : (batch.drop (cut batch)).head?.any hasKeyframe = true := by
      simpa [Nat.pos_of_ne_zero hcut] using hbroken
    cases hkept : batch.drop (cut batch) with
    | nil => simp [hkept] at hfirst
    | cons input rest =>
        have hinput : input.isEvrtck = true :=
          List.all_eq_true.mp hall input (List.mem_of_mem_drop (hkept ▸ List.mem_cons_self))
        rw [hkept, List.find?_cons_of_pos hinput] at hfirst
        obtain rfl := Option.some.inj hfirst
        rw [hkept] at hkey
        exact hkey

/-- What is kept is the end of the batch, or nothing. All that was before is counted; of a
broken chain the last three inputs go uncounted. In a batch of EVRTCK alone, and in a mixed
one whose cut does not divide a chain, the chains are kept or the break is reported. -/
theorem trim_keeps_chains (batch : List DecoderInput) :
    let kept := (trimVideoBacklogToKeyframe batch).1
    let trim := (trimVideoBacklogToKeyframe batch).2
    kept <:+ batch ∧
      (trim.evrtckChainBroken = false → kept.length + trim.dropped = batch.length) ∧
      (trim.evrtckChainBroken = true → kept = [] ∧ trim.dropped + maxVideoBacklog = batch.length) ∧
      (batch.all isEvrtck = true ∨ Undivided batch →
        trim.evrtckChainBroken = true ∨
          ChainsKept (batch.take (batch.length - kept.length)) kept) := by
  obtain ⟨broken, htrim, hbroken⟩ := trim_eq batch
  have hle := cut_le batch
  intro kept trim
  have hkept : kept = if broken then [] else batch.drop (cut batch) := congrArg Prod.fst htrim
  have hreport : trim = ⟨cut batch, broken⟩ := congrArg Prod.snd htrim
  refine ⟨?_, ?_, ?_, ?_⟩
  · rw [hkept]
    split
    · exact List.nil_suffix
    · exact List.drop_suffix _ _
  · intro hwhole
    have hfalse : broken = false := by rwa [hreport] at hwhole
    rw [hkept, hreport, hfalse, if_neg Bool.false_ne_true, List.length_drop]
    exact Nat.sub_add_cancel hle
  · intro hgiven
    have htrue : broken = true := by rwa [hreport] at hgiven
    rw [hkept, hreport, htrue, if_pos rfl]
    refine ⟨rfl, ?_⟩
    rw [htrue] at hbroken
    obtain ⟨⟨-, hcut⟩, hhead⟩ : (batch.all isEvrtck = true ∧ 0 < cut batch) ∧
        (batch.drop (cut batch)).head?.any hasKeyframe = false := by
      simpa using hbroken.symm
    have hlong : maxVideoBacklog < batch.length := by
      by_contra hshort
      simp [cut, Nat.le_of_not_lt hshort] at hcut
    rcases cut_cases batch hlong with ⟨first, rest, hdrop, hkey⟩ | ⟨-, hcount⟩
    · simp [hdrop, hkey] at hhead
    · exact hcount
  · intro hcondition
    cases hreported : trim.evrtckChainBroken with
    | true => exact .inl rfl
    | false =>
        right
        refine (chainsKept_trim_iff hreported).mpr ?_
        rcases hcondition with hall | hundivided
        · exact undivided_of_evrtck hall hreported
        · exact hundivided

private def delta : DecoderInput := .evrtck "" [] false

private def key : DecoderInput := .evrtck "" [] true

/-- The last key frame is of H264, and the EVRTCK difference behind it has lost the one
before it; nothing is reported. Of four differences all are given up and one is counted. -/
theorem mixed_backlog_divides_chain :
    ¬ (∀ batch : List DecoderInput,
        let kept := (trimVideoBacklogToKeyframe batch).1
        (trimVideoBacklogToKeyframe batch).2.evrtckChainBroken = true ∨
          ChainsKept (batch.take (batch.length - kept.length)) kept) ∧
    ¬ ∀ batch : List DecoderInput,
        (trimVideoBacklogToKeyframe batch).1.length +
          (trimVideoBacklogToKeyframe batch).2.dropped = batch.length := by
  constructor
  · intro halways
    rcases halways [key, delta, .h264 [⟨true⟩], delta] with hreported | hkept
    · exact absurd hreported (by decide)
    · have hbefore := hkept [.h264 [⟨true⟩]] delta [] rfl rfl rfl rfl
      exact absurd hbefore (by decide)
  · intro halways
    exact absurd (halways [delta, delta, delta, delta]) (by decide)

/-- The inputs of a batch that is EVRTCK alone. -/
def ofEvrtck (input : Transport.DecoderInput) : DecoderInput :=
  .evrtck input.sid input.bytes input.key

theorem rposition_ofEvrtck (batch : List Transport.DecoderInput) :
    rposition hasKeyframe (batch.map ofEvrtck) =
      Transport.rposition Transport.DecoderInput.key batch := by
  induction batch with
  | nil => rfl
  | cons input batch ih =>
      rw [Transport.rposition, ← ih]
      simp only [rposition, List.map_cons, List.reverse_cons, List.findIdx?_append,
        List.length_cons, List.length_map]
      cases hfind : (batch.map ofEvrtck).reverse.findIdx? hasKeyframe with
      | some fromEnd =>
          have hlt := (List.findIdx?_eq_some_iff_getElem.mp hfind).1
          simp only [List.length_reverse, List.length_map] at hlt
          simp only [Option.some_or, Option.map_some, Option.some.injEq]
          omega
      | none =>
          cases hkey : input.key <;> simp [ofEvrtck, hasKeyframe, hkey, List.findIdx?_cons]

/-- On EVRTCK alone trimming is what the decode loop of the relay stream does. -/
theorem trim_ofEvrtck (batch : List Transport.DecoderInput) :
    trimVideoBacklogToKeyframe (batch.map ofEvrtck) =
      ((Transport.trimVideoBacklogToKeyframe batch).1.map ofEvrtck,
        (Transport.trimVideoBacklogToKeyframe batch).2) := by
  have hall : (batch.map ofEvrtck).all isEvrtck = true := by
    simp [ofEvrtck, isEvrtck]
  have hdrained : drained (batch.map ofEvrtck) = (Transport.drained batch).map ofEvrtck := by
    rw [drained, rposition_ofEvrtck, Transport.drained, List.length_map]
    cases Transport.rposition Transport.DecoderInput.key batch <;> simp [List.map_drop]
  have hhead : ((Transport.drained batch).map ofEvrtck).head?.any hasKeyframe =
      (Transport.drained batch).head?.any Transport.DecoderInput.key := by
    cases Transport.drained batch <;> rfl
  unfold trimVideoBacklogToKeyframe Transport.trimVideoBacklogToKeyframe
  rw [List.length_map]
  split
  · rfl
  · simp only [hdrained, hhead, hall, List.length_map, Bool.true_and]
    split <;> rfl

end EvertyDesk.Transport.MixedBacklog
