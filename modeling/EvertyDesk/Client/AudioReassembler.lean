import EvertyDesk.Evrt.Packetize
import EvertyDesk.Lib.Collect
import EvertyDesk.Lib.Maps
import Mathlib.Data.Finset.Card

/-!
The client's reassembler of audio. A frame that is whole is handed over and forgotten, so
that later copies of its slices start it anew: it is handed over again when all of them
arrive once more while the frame is not yet too old.
-/

namespace EvertyDesk.Audio

open Evrt
open Packetizer (zeroDigest)

def maxAudioPacketCount : Nat := 8

structure AudioAssembly where
  parts : List (Option (List UInt8))
  received : Nat
  count : Nat

structure AudioReassembler where
  frames : AList fun _ : Nat => AudioAssembly
  latestIdSeen : Option Nat

/-- The parts one after the other, unless one is missing. -/
def concat : List (Option (List UInt8)) → Option (List UInt8)
  | [] => some []
  | none :: _ => none
  | some part :: parts => (concat parts).map (part ++ ·)

/-- A packet that can be a slice of audio. -/
def isSlice (pkt : EvrtPacket) : Bool :=
  !(decide (pkt.packetType ≠ typeAudioFrame) || decide (pkt.packetCount = 0) ||
    decide (pkt.packetCount > maxAudioPacketCount) ||
    decide (pkt.packetIndex ≥ pkt.packetCount) ||
    decide (pkt.payload.length > maxPayloadSize))

/-- The frame is more than four behind the newest one. -/
def tooOld (newest : Option Nat) (frameId : Nat) : Bool :=
  newest.any fun seen => decide (frameId < seen - 4)

namespace AudioReassembler

def new : AudioReassembler where
  frames := ∅
  latestIdSeen := none

variable (r : AudioReassembler)

/-- A newer frame makes those obsolete that are more than eight behind it. -/
def noteFrameId (frameId : Nat) : AudioReassembler :=
  if (r.latestIdSeen.map fun seen => decide (frameId > seen)).getD true then
    let cutoff := frameId - 8
    { frames := retainKeys (fun id => decide (id ≥ cutoff)) r.frames
      latestIdSeen := some frameId }
  else r

def entry (pkt : EvrtPacket) : AudioAssembly :=
  (r.frames.lookup pkt.frameId).getD {
    parts := List.replicate pkt.packetCount none
    received := 0
    count := pkt.packetCount }

/-- Put a slice into its frame, and hand the frame over if it is whole. -/
def store (pkt : EvrtPacket) : AudioReassembler × Option (List UInt8) :=
  let entry := r.entry pkt
  let kept (entry : AudioAssembly) : AudioReassembler :=
    { r with frames := r.frames.insert pkt.frameId entry }
  if entry.count ≠ pkt.packetCount then
    ({ r with frames := r.frames.erase pkt.frameId }, none)
  else if pkt.packetIndex ≥ entry.parts.length ∨
      (entry.parts[pkt.packetIndex]?.join).isSome then (kept entry, none)
  else
    let entry := { entry with
      parts := entry.parts.set pkt.packetIndex (some pkt.payload)
      received := entry.received + 1 }
    if entry.received < entry.count then (kept entry, none)
    else ({ r with frames := r.frames.erase pkt.frameId }, concat entry.parts)

def onPacket (pkt : EvrtPacket) : AudioReassembler × Option (List UInt8) :=
  if !isSlice pkt then (r, none)
  else if tooOld r.latestIdSeen pkt.frameId then (r, none)
  else (r.noteFrameId pkt.frameId).store pkt

end AudioReassembler

/-- The reassembler over the packets it is given. Beside what is handed over stands, as a
ghost, the number of the frame. -/
def machine : Machine AudioReassembler EvrtPacket (Option (Nat × List UInt8)) where
  step r pkt := ((r.onPacket pkt).1, (r.onPacket pkt).2.map fun pcm => (pkt.frameId, pcm))

/-- What is handed over, the oldest first. -/
def deliveries (r : AudioReassembler) (pkts : List EvrtPacket) : List (Nat × List UInt8) :=
  (machine.outputs r pkts).filterMap id

/-- A sender of audio: what each frame holds and when it is played. -/
structure AudioStream where
  pcm : Nat → List UInt8
  presentationTimeUs : Nat → Nat
  time_lt : ∀ frameId, presentationTimeUs frameId < 2 ^ 64
  sessionToken : Option (List UInt8)

namespace AudioStream

variable (stream : AudioStream) (sha : Sha256)

/-- The datagram is one of those sent for some frame. -/
def Sends (datagram : List UInt8) : Prop :=
  ∃ frameId < 2 ^ 32, datagram ∈ packetizeAudioFrameAuthenticated sha frameId
    (stream.presentationTimeUs frameId) (stream.pcm frameId) stream.sessionToken

/-- How the receiver reads datagrams. -/
def read (datagram : List UInt8) : Option EvrtPacket :=
  parseAuthenticated sha datagram datagram.length stream.sessionToken

def sliceCount (frameId : Nat) : Nat :=
  divCeil (stream.pcm frameId).length (baseMax stream.sessionToken)

def slice (frameId index : Nat) : List UInt8 :=
  chunk (baseMax stream.sessionToken) (stream.pcm frameId) index

/-- The packet is a slice of its frame. -/
structure Carries (pkt : EvrtPacket) : Prop where
  packetType : pkt.packetType = typeAudioFrame
  count : pkt.packetCount = stream.sliceCount pkt.frameId
  index : pkt.packetIndex < stream.sliceCount pkt.frameId
  payload : pkt.payload = stream.slice pkt.frameId pkt.packetIndex

theorem baseMax_pos (sessionToken : Option (List UInt8)) : 0 < baseMax sessionToken := by
  unfold baseMax
  split <;> decide

theorem read_sends {datagram : List UInt8} (h : stream.Sends sha datagram) :
    ∃ pkt, stream.read sha datagram = some pkt ∧ stream.Carries pkt := by
  obtain ⟨frameId, hid, hmember⟩ := h
  obtain ⟨index, hindex, -, hread⟩ := audioFrame_travels sha hid (stream.time_lt frameId) hmember
  exact ⟨_, hread, ⟨rfl, rfl, hindex, rfl⟩⟩

theorem slices_flatten (frameId : Nat) :
    ((List.range (stream.sliceCount frameId)).map (stream.slice frameId)).flatten =
      stream.pcm frameId :=
  chunks_flatten (baseMax_pos stream.sessionToken) (stream.pcm frameId)

end AudioStream

/-! When a frame is handed over, in terms of what arrives. -/

/-- The newest frame of which a slice arrived. -/
def newestAfter (newest : Option Nat) (pkt : EvrtPacket) : Option Nat :=
  if isSlice pkt then some (max pkt.frameId (newest.getD 0)) else newest

/-- The slices of a frame that arrive while it is not too old, in order. -/
def arrivals (frameId : Nat) : Option Nat → List EvrtPacket → List Nat
  | _, [] => []
  | newest, pkt :: pkts =>
      if isSlice pkt ∧ pkt.frameId = frameId ∧ ¬ tooOld newest frameId then
        pkt.packetIndex :: arrivals frameId (newestAfter newest pkt) pkts
      else arrivals frameId (newestAfter newest pkt) pkts

/-- All slices of a frame of `count` slices are there. -/
def Whole (count : Nat) (indices : List Nat) : Prop :=
  indices ≠ [] ∧ ∀ index < count, index ∈ indices

/-- All slices of the frame arrive, and then all of them once more. -/
def HeardTwice (count : Nat) (indices : List Nat) : Prop :=
  ∃ early late, indices = early ++ late ∧ Whole count early ∧ Whole count late

theorem whole_append {count : Nat} {held : List Nat} (items : List Nat)
    (h : Whole count items) : Whole count (held ++ items) :=
  ⟨List.append_ne_nil_of_right_ne_nil held h.1,
    fun index hindex => List.mem_append_right held (h.2 index hindex)⟩

theorem not_whole_nil (count : Nat) : ¬ Whole count [] := fun h => h.1 rfl

/-- Heard twice is handed over twice. -/
theorem two_le_handovers_iff (count : Nat) (indices : List Nat) :
    2 ≤ Collect.handovers (Whole count) [] (indices.map some) ↔ HeardTwice count indices := by
  rw [Collect.two_le_handovers_iff (fun _ items => whole_append items) (not_whole_nil count)]
  constructor
  · rintro ⟨before, first, between, second, after, heq, hfirst, hsecond⟩
    obtain ⟨before', rest, rfl, rfl, hrest⟩ := List.map_eq_append_iff.mp heq
    obtain ⟨first', rest', rfl, hfirst', hrest'⟩ := List.map_eq_append_iff.mp hrest
    obtain ⟨between', rest'', rfl, rfl, hrest''⟩ := List.map_eq_append_iff.mp hrest'
    obtain ⟨second', after', rfl, hsecond', rfl⟩ := List.map_eq_append_iff.mp hrest''
    have hinj := List.map_injective_iff.mpr (Option.some_injective Nat)
    obtain rfl := hinj hfirst'
    obtain rfl := hinj hsecond'
    refine ⟨before' ++ first', between' ++ (second' ++ after'), by simp, ?_, ?_⟩
    · exact whole_append _ hfirst
    · refine whole_append _ ⟨?_, fun index hindex => ?_⟩
      · exact List.append_ne_nil_of_left_ne_nil hsecond.1 after'
      · exact List.mem_append_left _ (hsecond.2 index hindex)
  · rintro ⟨early, late, rfl, hearly, hlate⟩
    exact ⟨[], early, [], late, [], by simp, hearly, hlate⟩

/-! The reassembler collects the slices of each frame. -/

theorem concat_map_some (parts : List (List UInt8)) :
    concat (parts.map some) = some parts.flatten := by
  induction parts with
  | nil => rfl
  | cons part parts ih => simp [concat, ih]

/-- The slices held of a frame that is not whole. -/
structure Building (count : Nat) (slice : Nat → List UInt8) (held : List Nat)
    (a : AudioAssembly) : Prop where
  counted : a.count = count
  length : a.parts.length = count
  parts : ∀ index < count,
    a.parts[index]? = some (if index ∈ held then some (slice index) else none)
  received : a.received = ((Finset.range count).filter (· ∈ held)).card
  unfinished : ¬ Whole count held

/-- What the frame of a packet starts from. -/
def AudioAssembly.fresh (count : Nat) : AudioAssembly where
  parts := List.replicate count none
  received := 0
  count := count

theorem building_fresh (count : Nat) (slice : Nat → List UInt8) :
    Building count slice [] (AudioAssembly.fresh count) where
  counted := rfl
  length := List.length_replicate
  parts index hindex := by simp [AudioAssembly.fresh, hindex]
  received := by simp [AudioAssembly.fresh]
  unfinished := not_whole_nil count

namespace Building

variable {count : Nat} {slice : Nat → List UInt8} {held : List Nat} {a : AudioAssembly}
variable {index : Nat}

variable (h : Building count slice held a)

include h

theorem hasPart_iff (hindex : index < count) :
    (a.parts[index]?.join).isSome = true ↔ index ∈ held := by
  rw [h.parts index hindex]
  by_cases hheld : index ∈ held <;> simp [hheld]

/-- A slice that is there already changes nothing. -/
theorem again (hheld : index ∈ held) : Building count slice (held ++ [index]) a := by
  have hsame : ∀ i, i ∈ held ++ [index] ↔ i ∈ held := by
    intro i
    simp only [List.mem_append, List.mem_singleton, or_iff_left_iff_imp]
    rintro rfl
    exact hheld
  refine ⟨h.counted, h.length, ?_, ?_, ?_⟩
  · simpa only [hsame] using h.parts
  · simpa only [hsame] using h.received
  · rintro ⟨-, hall⟩
    exact h.unfinished ⟨List.ne_nil_of_mem hheld, fun i hi => (hsame i).mp (hall i hi)⟩

/-- One slice more is counted. -/
theorem received_succ (hindex : index < count) (hnew : index ∉ held) :
    a.received + 1 = ((Finset.range count).filter (· ∈ held ++ [index])).card := by
  have hinsert : (Finset.range count).filter (· ∈ held ++ [index]) =
      insert index ((Finset.range count).filter (· ∈ held)) := by
    ext i
    simp only [Finset.mem_filter, Finset.mem_range, List.mem_append, List.mem_singleton,
      Finset.mem_insert]
    constructor
    · rintro ⟨hi, hmem | rfl⟩
      · exact .inr ⟨hi, hmem⟩
      · exact .inl rfl
    · rintro (rfl | ⟨hi, hmem⟩)
      · exact ⟨hindex, .inr rfl⟩
      · exact ⟨hi, .inl hmem⟩
  rw [hinsert, Finset.card_insert_of_notMem (by simp [hnew]), h.received]

/-- A frame that has no more slices than it has received is whole. -/
theorem lt_count_iff (hindex : index < count)
    (hnew : index ∉ held) : a.received + 1 < count ↔ ¬ Whole count (held ++ [index]) := by
  have hcard := h.received_succ hindex hnew
  have hle : ((Finset.range count).filter (· ∈ held ++ [index])).card ≤ count := by
    simpa using Finset.card_filter_le (Finset.range count) (· ∈ held ++ [index])
  have hfull : ((Finset.range count).filter (· ∈ held ++ [index])).card = count ↔
      Whole count (held ++ [index]) := by
    have hiff := Finset.card_filter_eq_iff (s := Finset.range count) (p := (· ∈ held ++ [index]))
    rw [Finset.card_range] at hiff
    rw [hiff, Whole]
    simp
  rw [hcard, ← hfull]
  omega

theorem parts_set (i : Nat) (hi : i < count) :
    (a.parts.set index (some (slice index)))[i]? =
      some (if i ∈ held ++ [index] then some (slice i) else none) := by
  rw [List.getElem?_set, h.length]
  by_cases hsame : index = i
  · subst hsame
    simp [hi]
  · rw [if_neg hsame, h.parts i hi]
    simp [Ne.symm hsame]

theorem more (hindex : index < count)
    (hnew : index ∉ held) (hopen : ¬ Whole count (held ++ [index])) :
    Building count slice (held ++ [index])
      { a with
        parts := a.parts.set index (some (slice index))
        received := a.received + 1 } where
  counted := h.counted
  length := by rw [List.length_set, h.length]
  parts := h.parts_set
  received := h.received_succ hindex hnew
  unfinished := hopen

/-- The last slice makes the frame whole. -/
theorem concat_set (hwhole : Whole count (held ++ [index])) :
    concat (a.parts.set index (some (slice index))) =
      some ((List.range count).map slice).flatten := by
  have hparts : a.parts.set index (some (slice index)) =
      ((List.range count).map slice).map some := by
    apply List.ext_getElem?
    intro i
    by_cases hi : i < count
    · rw [h.parts_set i hi, if_pos (hwhole.2 i hi)]
      simp [hi]
    · have hshort : (a.parts.set index (some (slice index))).length ≤ i := by
        rw [List.length_set, h.length]
        omega
      rw [List.getElem?_eq_none hshort]
      simp [Nat.not_lt.mp hi]
  rw [hparts, concat_map_some]

end Building

/-! What one packet does to the frame it is of, and to the others. -/

section Steps

variable {stream : AudioStream} {r : AudioReassembler} {pkt : EvrtPacket}
variable {frameId : Nat} {held : List Nat}

theorem noteFrameId_latest (r : AudioReassembler) (frameId : Nat) :
    (r.noteFrameId frameId).latestIdSeen = some (max frameId (r.latestIdSeen.getD 0)) := by
  unfold AudioReassembler.noteFrameId
  cases hseen : r.latestIdSeen with
  | none => simp
  | some seen =>
      by_cases hnewer : frameId > seen
      · simp [hnewer, hnewer.le]
      · simp [hnewer, hseen, Nat.not_lt.mp hnewer]

/-- Only frames that are too old are cleared away. -/
theorem noteFrameId_lookup {id : Nat} (h : tooOld (r.noteFrameId id).latestIdSeen frameId = false) :
    (r.noteFrameId id).frames.lookup frameId = r.frames.lookup frameId := by
  rw [noteFrameId_latest] at h
  have hrecent : id ≤ frameId + 4 := by
    simp only [tooOld, Option.any_some, decide_eq_false_iff_not] at h
    omega
  unfold AudioReassembler.noteFrameId
  split
  · rw [lookup_retainKeys, if_pos]
    simp only [decide_eq_true_eq]
    omega
  · rfl

theorem store_latest (r : AudioReassembler) (pkt : EvrtPacket) :
    (r.store pkt).1.latestIdSeen = r.latestIdSeen := by
  simp only [AudioReassembler.store]
  split
  · rfl
  split
  · rfl
  split <;> rfl

theorem store_lookup_ne (h : frameId ≠ pkt.frameId) :
    (r.store pkt).1.frames.lookup frameId = r.frames.lookup frameId := by
  simp only [AudioReassembler.store]
  split
  · exact AList.lookup_erase_ne h
  split
  · exact AList.lookup_insert_ne h
  split
  · exact AList.lookup_insert_ne h
  · exact AList.lookup_erase_ne h

theorem entry_eq (hpkt : stream.Carries pkt) : r.entry pkt =
    (r.frames.lookup pkt.frameId).getD (.fresh (stream.sliceCount pkt.frameId)) := by
  rw [AudioReassembler.entry, hpkt.count]
  rfl

/-- A slice is added to those held, or makes the frame whole. -/
theorem store_own (hpkt : stream.Carries pkt)
    (h : Building (stream.sliceCount pkt.frameId) (stream.slice pkt.frameId) held (r.entry pkt)) :
    (Whole (stream.sliceCount pkt.frameId) (held ++ [pkt.packetIndex]) →
      r.store pkt = ({ r with frames := r.frames.erase pkt.frameId },
        some (stream.pcm pkt.frameId))) ∧
    (¬ Whole (stream.sliceCount pkt.frameId) (held ++ [pkt.packetIndex]) →
      ∃ entry, r.store pkt = ({ r with frames := r.frames.insert pkt.frameId entry }, none) ∧
        Building (stream.sliceCount pkt.frameId) (stream.slice pkt.frameId)
          (held ++ [pkt.packetIndex]) entry) := by
  -- a slice that is there already is one of a frame that is not whole
  have hindex := hpkt.index
  have hcount : ¬ (r.entry pkt).count ≠ pkt.packetCount := by
    rw [h.counted, hpkt.count]
    exact fun hne => hne rfl
  have hinside : ¬ pkt.packetIndex ≥ (r.entry pkt).parts.length := by
    rw [h.length]
    omega
  simp only [AudioReassembler.store, if_neg hcount, hinside, false_or]
  by_cases hheld : pkt.packetIndex ∈ held
  · have hagain := h.again hheld
    rw [if_pos ((h.hasPart_iff hindex).mpr hheld)]
    exact ⟨fun hwhole => absurd hwhole hagain.unfinished, fun _ => ⟨_, rfl, hagain⟩⟩
  · have hlt : (r.entry pkt).received + 1 < (r.entry pkt).count ↔
        ¬ Whole (stream.sliceCount pkt.frameId) (held ++ [pkt.packetIndex]) := by
      rw [h.counted]
      exact h.lt_count_iff hindex hheld
    rw [if_neg (fun hpart => hheld ((h.hasPart_iff hindex).mp hpart)), hpkt.payload]
    constructor
    · intro hwhole
      rw [if_neg (fun hless => hlt.mp hless hwhole), h.concat_set hwhole, stream.slices_flatten]
    · intro hopen
      rw [if_pos (hlt.mpr hopen)]
      exact ⟨_, rfl, h.more hindex hheld hopen⟩

/-- As long as a frame is not too old, the slices held of it are these. -/
def Follows (stream : AudioStream) (r : AudioReassembler) (frameId : Nat)
    (held : List Nat) : Prop :=
  tooOld r.latestIdSeen frameId = false →
    Building (stream.sliceCount frameId) (stream.slice frameId) held
      ((r.frames.lookup frameId).getD (.fresh (stream.sliceCount frameId)))

theorem follows_new (stream : AudioStream) (frameId : Nat) :
    Follows stream AudioReassembler.new frameId [] :=
  fun _ => building_fresh _ _

theorem onPacket_latest (r : AudioReassembler) (pkt : EvrtPacket) :
    (r.onPacket pkt).1.latestIdSeen = newestAfter r.latestIdSeen pkt := by
  unfold AudioReassembler.onPacket newestAfter
  cases hslice : isSlice pkt with
  | false => rfl
  | true =>
      rw [if_neg (by decide), if_pos rfl]
      split
      · next hold =>
          cases hseen : r.latestIdSeen with
          | none => simp [hseen, tooOld] at hold
          | some seen =>
              have hless : pkt.frameId < seen - 4 := by simpa [hseen, tooOld] using hold
              rw [Option.getD_some, Nat.max_eq_right (by omega)]
      · rw [store_latest, noteFrameId_latest]

/-- What was too old stays so. -/
theorem tooOld_newestAfter {newest : Option Nat}
    (h : tooOld (newestAfter newest pkt) frameId = false) : tooOld newest frameId = false := by
  unfold newestAfter at h
  split at h
  · cases newest with
    | none => rfl
    | some seen =>
        simp only [tooOld, Option.any_some, Option.getD_some, decide_eq_false_iff_not] at h ⊢
        omega
  · exact h

/-- The newest frame moves on to a frame that is not too old itself. -/
theorem tooOld_own {newest : Option Nat} (h : tooOld newest pkt.frameId = false) :
    tooOld (newestAfter newest pkt) pkt.frameId = false := by
  unfold newestAfter
  split
  · cases newest with
    | none => simp [tooOld]
    | some seen =>
        simp only [tooOld, Option.any_some, Option.getD_some, decide_eq_false_iff_not] at h ⊢
        omega
  · exact h

theorem onPacket_ignored (h : ¬ (isSlice pkt = true ∧ tooOld r.latestIdSeen pkt.frameId = false)) :
    r.onPacket pkt = (r, none) := by
  unfold AudioReassembler.onPacket
  cases hslice : isSlice pkt with
  | false => rfl
  | true =>
      cases hold : tooOld r.latestIdSeen pkt.frameId with
      | true => rfl
      | false => exact absurd ⟨hslice, hold⟩ h

theorem onPacket_stored (hslice : isSlice pkt = true)
    (hold : tooOld r.latestIdSeen pkt.frameId = false) :
    r.onPacket pkt = (r.noteFrameId pkt.frameId).store pkt := by
  simp [AudioReassembler.onPacket, hslice, hold]

/-- A packet that is not a slice of the frame, or comes too late, leaves it alone. -/
theorem onPacket_other (h : Follows stream r frameId held)
    (hother : ¬ (isSlice pkt = true ∧ pkt.frameId = frameId ∧
      tooOld r.latestIdSeen frameId = false)) :
    Follows stream (r.onPacket pkt).1 frameId held ∧
      (pkt.frameId = frameId → (r.onPacket pkt).2 = none) := by
  by_cases hstored : isSlice pkt = true ∧ tooOld r.latestIdSeen pkt.frameId = false
  · have hne : pkt.frameId ≠ frameId := by
      rintro rfl
      exact hother ⟨hstored.1, rfl, hstored.2⟩
    refine ⟨fun hrecent => ?_, fun heq => absurd heq hne⟩
    have hbefore := hrecent
    rw [onPacket_latest] at hbefore
    rw [onPacket_stored hstored.1 hstored.2] at hrecent ⊢
    rw [store_latest] at hrecent
    rw [store_lookup_ne hne.symm, noteFrameId_lookup hrecent]
    exact h (tooOld_newestAfter hbefore)
  · rw [onPacket_ignored hstored]
    exact ⟨h, fun _ => rfl⟩

open Classical in
/-- A slice that arrives in time is one step of collecting. -/
theorem onPacket_own (hpkt : stream.Carries pkt) (h : Follows stream r pkt.frameId held)
    (hslice : isSlice pkt = true) (hold : tooOld r.latestIdSeen pkt.frameId = false) :
    Follows stream (r.onPacket pkt).1 pkt.frameId
        (Collect.step (Whole (stream.sliceCount pkt.frameId)) held (some pkt.packetIndex)).1 ∧
      (r.onPacket pkt).2 =
        if (Collect.step (Whole (stream.sliceCount pkt.frameId)) held
          (some pkt.packetIndex)).2 then some (stream.pcm pkt.frameId) else none := by
  have hrecent : tooOld (r.noteFrameId pkt.frameId).latestIdSeen pkt.frameId = false := by
    have hown := tooOld_own hold
    rwa [newestAfter, if_pos hslice, ← noteFrameId_latest] at hown
  have hbuilding : Building (stream.sliceCount pkt.frameId) (stream.slice pkt.frameId) held
      ((r.noteFrameId pkt.frameId).entry pkt) := by
    rw [entry_eq hpkt, noteFrameId_lookup hrecent]
    exact h hold
  obtain ⟨hdone, hmore⟩ := store_own hpkt hbuilding
  rw [onPacket_stored hslice hold]
  by_cases hwhole : Whole (stream.sliceCount pkt.frameId) (held ++ [pkt.packetIndex])
  · rw [hdone hwhole, Collect.step, if_pos hwhole]
    refine ⟨fun _ => ?_, rfl⟩
    rw [AList.lookup_erase]
    exact building_fresh _ _
  · obtain ⟨entry, hstore, hentry⟩ := hmore hwhole
    rw [hstore, Collect.step, if_neg hwhole]
    refine ⟨fun _ => ?_, rfl⟩
    rw [AList.lookup_insert]
    exact hentry

end Steps

/-! Whole runs. -/

section Runs

variable {stream : AudioStream} {pkts : List EvrtPacket}

theorem deliveries_cons (r : AudioReassembler) (pkt : EvrtPacket) (pkts : List EvrtPacket) :
    deliveries r (pkt :: pkts) =
      ((r.onPacket pkt).2.map fun pcm => (pkt.frameId, pcm)).toList ++
        deliveries (r.onPacket pkt).1 pkts := by
  rw [deliveries, Machine.outputs_cons, List.filterMap_cons]
  cases h : (r.onPacket pkt).2 <;> simp [machine, h, deliveries]

/-- A frame is handed over as often as its slices are collected. -/
theorem deliveries_count (hpkts : ∀ pkt ∈ pkts, stream.Carries pkt) {r : AudioReassembler}
    {frameId : Nat} {held : List Nat} (h : Follows stream r frameId held) :
    ((deliveries r pkts).map Prod.fst).count frameId =
      Collect.handovers (Whole (stream.sliceCount frameId)) held
        ((arrivals frameId r.latestIdSeen pkts).map some) := by
  induction pkts generalizing r held with
  | nil => rfl
  | cons pkt pkts ih =>
      have hpkt := hpkts pkt List.mem_cons_self
      have hrest : ∀ next ∈ pkts, stream.Carries next :=
        fun next hnext => hpkts next (List.mem_cons_of_mem _ hnext)
      rw [deliveries_cons, List.map_append, List.count_append, arrivals, ← onPacket_latest]
      split
      · next hown =>
          obtain ⟨hslice, rfl, hold⟩ := hown
          obtain ⟨hnext, hout⟩ := onPacket_own hpkt h hslice (by simpa using hold)
          rw [ih hrest hnext, List.map_cons, hout, Collect.handovers_cons]
          cases (Collect.step (Whole (stream.sliceCount pkt.frameId)) held
            (some pkt.packetIndex)).2 <;> simp
      · next hother =>
          obtain ⟨hnext, hout⟩ := onPacket_other h (by simpa using hother)
          rw [ih hrest hnext]
          by_cases hsame : pkt.frameId = frameId
          · simp [hout hsame]
          · cases (r.onPacket pkt).2 <;> simp [hsame]

/-- Whatever is handed over is what was sent. -/
theorem deliveries_exact (hpkts : ∀ pkt ∈ pkts, stream.Carries pkt) :
    ∀ delivery ∈ deliveries .new pkts, delivery.2 = stream.pcm delivery.1 := by
  have hstep : ∀ (r : AudioReassembler) (pkt : EvrtPacket),
      (∀ frameId, ∃ held, Follows stream r frameId held) → stream.Carries pkt →
      (∀ frameId, ∃ held, Follows stream (machine.step r pkt).1 frameId held) ∧
        ∀ delivery ∈ (machine.step r pkt).2, delivery.2 = stream.pcm delivery.1 := by
    intro r pkt hfollows hpkt
    constructor
    · intro frameId
      obtain ⟨held, hheld⟩ := hfollows frameId
      by_cases hown : isSlice pkt = true ∧ pkt.frameId = frameId ∧
          tooOld r.latestIdSeen frameId = false
      · obtain ⟨hslice, rfl, hold⟩ := hown
        exact ⟨_, (onPacket_own hpkt hheld hslice hold).1⟩
      · exact ⟨held, (onPacket_other hheld hown).1⟩
    · intro delivery hdelivery
      obtain ⟨held, hheld⟩ := hfollows pkt.frameId
      obtain ⟨pcm, hpcm, rfl⟩ := Option.map_eq_some_iff.mp hdelivery
      by_cases hown : isSlice pkt = true ∧ pkt.frameId = pkt.frameId ∧
          tooOld r.latestIdSeen pkt.frameId = false
      · rw [(onPacket_own hpkt hheld hown.1 hown.2.2).2] at hpcm
        split at hpcm
        · exact (Option.some.inj hpcm).symm
        · cases hpcm
      · rw [(onPacket_other hheld hown).2 rfl] at hpcm
        cases hpcm
  intro delivery hdelivery
  obtain ⟨output, houtput, hsome⟩ := List.mem_filterMap.mp hdelivery
  exact machine.outputs_forall (G := fun output => ∀ delivery ∈ output,
    delivery.2 = stream.pcm delivery.1) hstep (fun frameId => ⟨[], follows_new stream frameId⟩)
    (machine.along_of_inputs hpkts AudioReassembler.new) output houtput delivery hsome

/-- No frame is handed over twice, and each is what was sent. -/
def ExactlyOnce (stream : AudioStream) (pkts : List EvrtPacket) : Prop :=
  ((deliveries .new pkts).map Prod.fst).Nodup ∧
    ∀ delivery ∈ deliveries .new pkts, delivery.2 = stream.pcm delivery.1

theorem nodup_iff (hpkts : ∀ pkt ∈ pkts, stream.Carries pkt) :
    ((deliveries .new pkts).map Prod.fst).Nodup ↔
      ∀ frameId, ¬ HeardTwice (stream.sliceCount frameId) (arrivals frameId none pkts) := by
  rw [List.nodup_iff_count_le_one]
  apply forall_congr'
  intro frameId
  have hcount := deliveries_count hpkts (follows_new stream frameId)
  have htwice := two_le_handovers_iff (stream.sliceCount frameId) (arrivals frameId none pkts)
  change _ = Collect.handovers _ _ ((arrivals frameId none pkts).map some) at hcount
  rw [hcount, ← htwice]
  omega

theorem carries_of_sends (sha : Sha256) {datagrams : List (List UInt8)}
    (h : ∀ datagram ∈ datagrams, stream.Sends sha datagram) :
    ∀ pkt ∈ datagrams.filterMap (stream.read sha), stream.Carries pkt := by
  intro pkt hpkt
  obtain ⟨datagram, hmember, hread⟩ := List.mem_filterMap.mp hpkt
  obtain ⟨sent, hsent, hcarries⟩ := stream.read_sends sha (h datagram hmember)
  rw [hread] at hsent
  obtain rfl := Option.some.inj hsent
  exact hcarries

/-- Whatever of the datagrams of a stream arrives, in any order and any number of times:
the frames are handed over exactly once unless all slices of one arrive twice, the second
time after the first and before the frame is too old. -/
theorem exactly_once_iff (sha : Sha256) (stream : AudioStream)
    (datagrams : List (List UInt8)) (h : ∀ datagram ∈ datagrams, stream.Sends sha datagram) :
    ExactlyOnce stream (datagrams.filterMap (stream.read sha)) ↔
      ∀ frameId, ¬ HeardTwice (stream.sliceCount frameId)
        (arrivals frameId none (datagrams.filterMap (stream.read sha))) := by
  have hcarries := carries_of_sends sha h
  rw [ExactlyOnce, nodup_iff hcarries]
  exact and_iff_left (deliveries_exact hcarries)

/-- Frames of one byte, on a session without a token. -/
def beep : AudioStream where
  pcm _ := [7]
  presentationTimeUs _ := 0
  time_lt _ := by decide
  sessionToken := none

/-- The only datagram of the first frame. -/
def beepDatagram : List UInt8 := buildPacket typeAudioFrame 0 1 0 1 0 [7]

theorem beep_sends : beep.Sends zeroDigest beepDatagram := by
  refine ⟨1, by decide, ?_⟩
  have honly : packetizeAudioFrameAuthenticated zeroDigest 1 0 [7] none = [beepDatagram] := by
    decide
  change beepDatagram ∈ packetizeAudioFrameAuthenticated zeroDigest 1 0 [7] none
  rw [honly]
  exact List.mem_singleton_self beepDatagram

/-- The only datagram of the second. -/
def nextBeep : List UInt8 := buildPacket typeAudioFrame 0 2 0 1 0 [7]

theorem nextBeep_sends : beep.Sends zeroDigest nextBeep := by
  refine ⟨2, by decide, ?_⟩
  have honly : packetizeAudioFrameAuthenticated zeroDigest 2 0 [7] none = [nextBeep] := by
    decide
  change nextBeep ∈ packetizeAudioFrameAuthenticated zeroDigest 2 0 [7] none
  rw [honly]
  exact List.mem_singleton_self nextBeep

/-- The second frame comes before the first. -/
theorem exactly_once_iff_beeps :
    let pkts := [nextBeep, beepDatagram].filterMap (beep.read zeroDigest)
    (ExactlyOnce beep pkts ↔
      ∀ frameId, ¬ HeardTwice (beep.sliceCount frameId) (arrivals frameId none pkts)) ∧
      deliveries .new pkts = [(2, [7]), (1, [7])] :=
  ⟨exactly_once_iff zeroDigest beep [nextBeep, beepDatagram]
    (List.forall_mem_cons.mpr ⟨nextBeep_sends, List.forall_mem_singleton.mpr beep_sends⟩),
    by decide⟩

/-- A datagram that the network doubles is heard twice. -/
theorem beep_is_heard_twice :
    ¬ ∀ (sha : Sha256) (stream : AudioStream) (datagrams : List (List UInt8)),
      (∀ datagram ∈ datagrams, stream.Sends sha datagram) →
      ExactlyOnce stream (datagrams.filterMap (stream.read sha)) := by
  intro hall
  have honce := hall zeroDigest beep [beepDatagram, beepDatagram] (by
    intro datagram hmember
    have heq : datagram = beepDatagram := by simpa using hmember
    exact heq ▸ beep_sends)
  have htwice : (deliveries .new ([beepDatagram, beepDatagram].filterMap
      (beep.read zeroDigest))).map Prod.fst = [1, 1] := by decide
  rw [ExactlyOnce, htwice] at honce
  exact absurd honce.1 (by decide)

end Runs

end EvertyDesk.Audio
