import EvertyDesk.Evrtck.Lockstep

/-!
EVRTCK over the relay stream: the decode loop takes all packets that are waiting as one
batch, leaves out what the last key frame of a large batch makes superfluous, and shows
the last picture of the rest. A large batch without a key frame is given up, and the
decoder goes on from black.
-/

namespace EvertyDesk.Transport

open Evrtck

structure Picture where
  width : Nat
  height : Nat
  rgba : List UInt8
deriving DecidableEq, Repr

/-- A packet on the way to the decode loop. -/
structure DecoderInput where
  sid : String
  bytes : List UInt8
  key : Bool
  /-- Ghost: what the encoder had when it made the packet. -/
  picture : Picture
deriving DecidableEq, Repr

structure FrameEvent where
  sid : String
  codec : String
  picture : Picture
deriving DecidableEq, Repr

def flagAt (bytes : List UInt8) (flag : UInt8) : Bool := bytes.getD 5 0 &&& flag != 0

/-- What the client makes of a frame message. -/
def queueEvrtckFrame (bytes : List UInt8) (picture : Picture) : DecoderInput where
  sid :=
    let frameId := if 10 ≤ bytes.length then leNat (field bytes 6 4) else 0
    "evrtck-tcp-" ++ toString frameId
  bytes := bytes
  key := flagAt bytes flagKeyframe
  picture := picture

/-- The packets that calls of an encoder make, as they are queued. -/
def queued (zstd : Zstd) (e : EvrtckEncoder) : List Call → List DecoderInput
  | [] => []
  | call :: calls =>
      let rest := queued zstd (e.call zstd call).1 calls
      match (e.call zstd call).2, call.frame with
      | some packet, some bgra =>
          queueEvrtckFrame packet.data
            ⟨e.width % 2 ^ 32, e.height % 2 ^ 32, bgraToRgba bgra⟩ :: rest
      | _, _ => rest

def rposition (p : DecoderInput → Bool) : List DecoderInput → Option Nat
  | [] => none
  | item :: items =>
      match rposition p items with
      | some index => some (index + 1)
      | none => if p item then some 0 else none

structure BacklogTrim where
  dropped : Nat
  evrtckChainBroken : Bool
deriving DecidableEq, Repr

def maxVideoBacklog : Nat := 3

/-- From the last key frame on, or the last three packets. -/
def drained (batch : List DecoderInput) : List DecoderInput :=
  match rposition DecoderInput.key batch with
  | some index => batch.drop index
  | none => batch.drop (batch.length - maxVideoBacklog)

def trimVideoBacklogToKeyframe (batch : List DecoderInput) : List DecoderInput × BacklogTrim :=
  if batch.length ≤ maxVideoBacklog then (batch, ⟨0, false⟩)
  else
    let kept := drained batch
    let dropped := batch.length - kept.length
    let evrtckChainBroken := decide (dropped > 0) && !kept.head?.any DecoderInput.key
    (if evrtckChainBroken then [] else kept, ⟨dropped, evrtckChainBroken⟩)

/-- The decoder after a packet, and the event, if there is one. -/
def decodeOneFrame (zstd : Zstd) (d : EvrtckDecoder) (input : DecoderInput) :
    EvrtckDecoder × Option FrameEvent :=
  if flagAt input.bytes flagNop then (d, none)
  else
    match d.decodeWire zstd input.bytes with
    | .ok (next, .ok rgba) => (next, some ⟨input.sid, "EVRTCK", next.width, next.height, rgba⟩)
    | .ok (next, .error _) => (next, none)
    | .error _ => (d, none)

def resetDecoder (d : EvrtckDecoder) : EvrtckDecoder :=
  { d with frame := List.replicate d.frame.length 0 }

inductive DecoderFeedback where
  | backlogTrimmed (dropped : Nat)
  | evrtckChainBroken (dropped : Nat)
deriving DecidableEq, Repr

structure DecodeFrameLoop where
  decoder : EvrtckDecoder
  /-- Ghost: packets have been lost since the last key frame that was decoded. -/
  chainBroken : Bool

/-- What is shown, with the packet it was decoded from. -/
abbrev Shown := DecoderInput × FrameEvent

structure BatchOutput where
  feedback : Option DecoderFeedback
  latestEvent : Option Shown
deriving DecidableEq

namespace DecodeFrameLoop

def start : DecodeFrameLoop := ⟨EvrtckDecoder.new, false⟩

/-- The next packet of a batch. An event takes the place of the one before it. -/
def decodeNext (zstd : Zstd) (state : EvrtckDecoder × Option Shown) (input : DecoderInput) :
    EvrtckDecoder × Option Shown :=
  let (decoder, event) := decodeOneFrame zstd state.1 input
  (decoder, (event.map (input, ·)).or state.2)

def step (zstd : Zstd) (s : DecodeFrameLoop) (batch : List DecoderInput) :
    DecodeFrameLoop × BatchOutput :=
  let (kept, trim) := trimVideoBacklogToKeyframe batch
  let (s, feedback) : DecodeFrameLoop × Option DecoderFeedback :=
    if trim.dropped > 0 then
      if trim.evrtckChainBroken then
        (⟨resetDecoder s.decoder, true⟩, some (.evrtckChainBroken trim.dropped))
      else (s, some (.backlogTrimmed trim.dropped))
    else (s, none)
  let (decoder, latestEvent) := kept.foldl (decodeNext zstd) (s.decoder, none)
  (⟨decoder, s.chainBroken && !kept.any DecoderInput.key⟩, ⟨feedback, latestEvent⟩)

/-- While the chain is broken, nothing that changes the picture is decoded before a key
frame, unless in one batch with it. -/
def WaitsForKeyframe (s : DecodeFrameLoop) (batch : List DecoderInput) : Prop :=
  s.chainBroken = true → (trimVideoBacklogToKeyframe batch).1.any DecoderInput.key = false →
    ∀ input ∈ (trimVideoBacklogToKeyframe batch).1, flagAt input.bytes flagNop = true

end DecodeFrameLoop

def decodeFrameLoop (zstd : Zstd) : Machine DecodeFrameLoop (List DecoderInput) BatchOutput :=
  ⟨DecodeFrameLoop.step zstd⟩

section Trimming

variable {p : DecoderInput → Bool} {batch : List DecoderInput}

theorem rposition_some {index : Nat} (h : rposition p batch = some index) :
    ∃ item rest, batch.drop index = item :: rest ∧ p item = true := by
  induction batch generalizing index with
  | nil => cases h
  | cons item items ih =>
      rw [rposition] at h
      split at h
      · next later hlater =>
        obtain rfl := Option.some.inj h
        exact ih hlater
      · split at h
        · next hitem =>
          obtain rfl := Option.some.inj h
          exact ⟨item, items, rfl, hitem⟩
        · cases h

theorem rposition_none (h : rposition p batch = none) : ∀ item ∈ batch, p item = false := by
  induction batch with
  | nil => simp
  | cons item items ih =>
      rw [rposition] at h
      split at h
      · cases h
      · next hlater =>
        split at h
        · cases h
        · next hitem =>
          intro other hother
          rcases List.mem_cons.mp hother with rfl | hother
          · exact Bool.eq_false_of_not_eq_true hitem
          · exact ih hlater other hother

theorem drained_cases (hlong : maxVideoBacklog < batch.length) :
    (∃ before, batch = before ++ drained batch ∧
        (drained batch).head?.any DecoderInput.key = true) ∨
      ((drained batch).length < batch.length ∧
        (drained batch).head?.any DecoderInput.key = false) := by
  rw [drained]
  cases hindex : rposition DecoderInput.key batch with
  | some index =>
      obtain ⟨item, rest, hdrop, hkey⟩ := rposition_some hindex
      refine .inl ⟨batch.take index, (List.take_append_drop ..).symm, ?_⟩
      dsimp only
      rw [hdrop]
      exact hkey
  | none =>
      refine .inr ⟨?_, ?_⟩
      · simp only [List.length_drop, maxVideoBacklog] at hlong ⊢
        omega
      · dsimp only
        cases hdrop : batch.drop (batch.length - maxVideoBacklog) with
        | nil => rfl
        | cons item rest =>
            have hmember : item ∈ batch := List.mem_of_mem_drop (hdrop ▸ List.mem_cons_self)
            exact rposition_none hindex item hmember

/-- A batch is decoded as it is, or from its last key frame on, or given up. -/
theorem trim_cases (batch : List DecoderInput) :
    ((trimVideoBacklogToKeyframe batch).1 = batch ∧
        (trimVideoBacklogToKeyframe batch).2 = ⟨0, false⟩) ∨
      (∃ before, batch = before ++ (trimVideoBacklogToKeyframe batch).1 ∧
        (trimVideoBacklogToKeyframe batch).1.any DecoderInput.key = true ∧
        (trimVideoBacklogToKeyframe batch).2.evrtckChainBroken = false) ∨
      ((trimVideoBacklogToKeyframe batch).1 = [] ∧
        0 < (trimVideoBacklogToKeyframe batch).2.dropped ∧
        (trimVideoBacklogToKeyframe batch).2.evrtckChainBroken = true) := by
  rw [trimVideoBacklogToKeyframe]
  split
  · exact .inl ⟨rfl, rfl⟩
  · next hlong =>
    right
    have hcases := drained_cases (Nat.lt_of_not_le hlong)
    generalize drained batch = kept at hcases
    rcases hcases with ⟨before, rfl, hkey⟩ | ⟨hdropped, hdelta⟩
    · refine .inl ⟨before, ?_, ?_, ?_⟩
      · simp [hkey]
      · cases kept with
        | nil => cases hkey
        | cons item rest =>
            have hitem : item.key = true := hkey
            simp [hitem]
      · simp [hkey]
    · have hlost : 0 < batch.length - kept.length := by omega
      refine .inr ⟨?_, hlost, ?_⟩
      · simp [hdelta, hdropped]
      · simp [hdelta, hdropped]

end Trimming

/-- Calls of an encoder that make these packets, and where they leave the encoder. -/
inductive Produced (zstd : Zstd) : EvrtckEncoder → List DecoderInput → EvrtckEncoder → Prop
  | nil (e : EvrtckEncoder) : Produced zstd e [] e
  | quiet {e last : EvrtckEncoder} {call : Call} {inputs : List DecoderInput}
      (hfits : Fits Marked e call) (hframe : call.frame = none)
      (rest : Produced zstd (e.call zstd call).1 inputs last) : Produced zstd e inputs last
  | sent {e last : EvrtckEncoder} {call : Call} {bgra : List UInt8} {packet : EvrtckPacket}
      {inputs : List DecoderInput} (hfits : Fits Marked e call)
      (hframe : call.frame = some bgra) (hpacket : (e.call zstd call).2 = some packet)
      (rest : Produced zstd (e.call zstd call).1 inputs last) :
      Produced zstd e
        (queueEvrtckFrame packet.data ⟨e.width % 2 ^ 32, e.height % 2 ^ 32, bgraToRgba bgra⟩ ::
          inputs) last

/-- The event shows what the encoder had when it made the packet. -/
def Shown.Exact (shown : Shown) : Prop :=
  shown.2.sid = shown.1.sid ∧ shown.2.picture = shown.1.picture

section Decoding

variable {zstd : Zstd} {e last : EvrtckEncoder} {d : EvrtckDecoder}

theorem Produced.split {inputs before later : List DecoderInput}
    (h : Produced zstd e inputs last) (hsplit : inputs = before ++ later) :
    ∃ middle, Produced zstd e before middle ∧ Produced zstd middle later last := by
  induction h generalizing before with
  | nil e =>
      obtain ⟨rfl, rfl⟩ := List.append_eq_nil_iff.mp hsplit.symm
      exact ⟨e, .nil e, .nil e⟩
  | quiet hfits hframe _ ih =>
      obtain ⟨middle, hbefore, hlater⟩ := ih hsplit
      exact ⟨middle, .quiet hfits hframe hbefore, hlater⟩
  | sent hfits hframe hpacket rest ih =>
      cases before with
      | nil =>
          obtain rfl : later = _ := hsplit.symm
          exact ⟨_, .nil _, .sent hfits hframe hpacket rest⟩
      | cons first before =>
          obtain ⟨rfl, hrest⟩ := List.cons.inj hsplit
          obtain ⟨middle, hbefore, hlater⟩ := ih hrest
          exact ⟨middle, .sent hfits hframe hpacket hbefore, hlater⟩

theorem produced_queued (hzstd : zstd.Lawful) (hready : Ready e d) {calls : List Call}
    (hfits : (encoder zstd).Along (Fits Marked) e calls) :
    Produced zstd e (queued zstd e calls) ((encoder zstd).run e calls) := by
  induction calls generalizing e d with
  | nil => exact .nil e
  | cons call calls ih =>
      obtain ⟨hfirst, hrest⟩ := hfits
      rw [queued]
      cases hframe : call.frame with
      | none =>
          obtain ⟨hquiet, hready'⟩ := call_quiet hready hfirst hframe
          rw [hquiet]
          exact .quiet hfirst hframe (ih hready' hrest)
      | some bgra =>
          obtain ⟨packet, hpacket, hsent⟩ := call_sends hzstd hready hfirst hframe
          rw [hpacket]
          exact .sent hfirst hframe hpacket (ih (hsent.ready hready.tiles).1 hrest)

/-- The packet that changes nothing shows the frame that the decoder holds. -/
theorem holding_of_nop (hready : Ready e d) {call : Call} {bgra : List UInt8} {e' : EvrtckEncoder}
    {packet : EvrtckPacket} (hpacket : (e.call zstd call).2 = some packet)
    (hsent : Sent zstd e d bgra e' packet) (hnop : flagAt packet.data flagNop = true) :
    holding e.width e.height bgra = d := by
  obtain ⟨hpending, frameId, hdata⟩ := (call_flagged hpacket).nop (bne_iff_ne.mp hnop)
  have hheld := hready.held hpending
  have hsame : Shows zstd d packet.data e.width e.height e.prev := by
    rw [hdata, hheld]
    exact shows_nop hready.tiles hready.length frameId
  have houtcome := hsent.shown.symm.trans hsame
  exact (Prod.mk.inj (Except.ok.inj houtcome)).1.trans hheld.symm

/-- One packet of an encoder with which the decoder is in step. -/
theorem decodeOneFrame_ready (hzstd : zstd.Lawful) (hready : Ready e d) {call : Call}
    {bgra : List UInt8} {packet : EvrtckPacket} {input : DecoderInput}
    (hfits : Fits Marked e call) (hframe : call.frame = some bgra)
    (hpacket : (e.call zstd call).2 = some packet)
    (hinput : input = queueEvrtckFrame packet.data
      ⟨e.width % 2 ^ 32, e.height % 2 ^ 32, bgraToRgba bgra⟩) :
    Ready (e.call zstd call).1 (decodeOneFrame zstd d input).1 ∧
      (∀ event, (decodeOneFrame zstd d input).2 = some event → Shown.Exact (input, event)) ∧
      (flagAt input.bytes flagNop = false → (decodeOneFrame zstd d input).2.isSome) := by
  obtain ⟨packet', hpacket', hsent⟩ := call_sends hzstd hready hfits hframe
  obtain rfl := Option.some.inj (hpacket.symm.trans hpacket')
  have hnext := (hsent.ready hready.tiles).1
  subst hinput
  rw [decodeOneFrame]
  split
  · next hnop =>
    rw [holding_of_nop hready hpacket hsent hnop] at hnext
    exact ⟨hnext, by simp, fun hother => absurd (hnop.symm.trans hother) (by decide)⟩
  · have hdecoded : d.decodeWire zstd (queueEvrtckFrame packet.data
        ⟨e.width % 2 ^ 32, e.height % 2 ^ 32, bgraToRgba bgra⟩).bytes =
        .ok (holding e.width e.height bgra, .ok (bgraToRgba bgra)) := hsent.shown
    rw [hdecoded]
    refine ⟨hnext, ?_, fun _ => rfl⟩
    rintro event hevent
    obtain rfl := Option.some.inj hevent
    exact ⟨rfl, rfl⟩

/-- A key frame puts every decoder in step. -/
theorem ready_of_key (hready : Ready e d) {call : Call} {packet : EvrtckPacket}
    {picture : Picture} (hpacket : (e.call zstd call).2 = some packet)
    (hkey : (queueEvrtckFrame packet.data picture).key = true) (other : EvrtckDecoder) :
    Ready e other ∧ flagAt packet.data flagNop = false := by
  have hpending : e.pendingKeyframe = true := pending_of_isKeyframe hpacket hkey
  refine ⟨hready.of_pending hpending other, ?_⟩
  by_contra hnop
  have hquiet := ((call_flagged hpacket).nop (bne_iff_ne.mp (Bool.eq_true_of_not_eq_false hnop))).1
  cases hpending.symm.trans hquiet

/-- The event of the next packet, or else the one before it. -/
theorem decodeNext_exact {input : DecoderInput} {latest : Option Shown}
    (hexact : ∀ event, (decodeOneFrame zstd d input).2 = some event → Shown.Exact (input, event))
    (hlatest : (decodeOneFrame zstd d input).2 = none →
      ∀ shown, latest = some shown → shown.Exact) :
    ∀ shown, (DecodeFrameLoop.decodeNext zstd (d, latest) input).2 = some shown →
      shown.Exact := by
  intro shown hshown
  have hnext : ((decodeOneFrame zstd d input).2.map (input, ·)).or latest = some shown := hshown
  cases hevent : (decodeOneFrame zstd d input).2 with
  | none =>
      rw [hevent] at hnext
      exact hlatest hevent shown hnext
  | some event =>
      rw [hevent] at hnext
      obtain rfl := Option.some.inj hnext
      exact hexact event hevent

theorem nothing_exact : ∀ shown, (none : Option Shown) = some shown → shown.Exact := by
  intro shown habsurd
  cases habsurd

/-- From encoder and decoder in step on, every picture is exact. -/
theorem decode_in_step (hzstd : zstd.Lawful) {inputs : List DecoderInput}
    (h : Produced zstd e inputs last) (hready : Ready e d) {latest : Option Shown}
    (hlatest : ∀ shown, latest = some shown → shown.Exact) :
    Ready last (inputs.foldl (DecodeFrameLoop.decodeNext zstd) (d, latest)).1 ∧
      ∀ shown, (inputs.foldl (DecodeFrameLoop.decodeNext zstd) (d, latest)).2 = some shown →
        shown.Exact := by
  induction h generalizing d latest with
  | nil => exact ⟨hready, hlatest⟩
  | quiet hfits hframe _ ih => exact ih (call_quiet hready hfits hframe).2 hlatest
  | sent hfits hframe hpacket _ ih =>
      obtain ⟨hnext, hexact, -⟩ := decodeOneFrame_ready hzstd hready hfits hframe hpacket rfl
      exact ih hnext (decodeNext_exact hexact fun _ => hlatest)

/-- With a key frame among the packets the last picture is exact, whatever the decoder
was in before. -/
theorem decode_with_key (hzstd : zstd.Lawful) {inputs : List DecoderInput}
    (h : Produced zstd e inputs last) (hready : Ready e d)
    (hkey : inputs.any DecoderInput.key = true) (other : EvrtckDecoder)
    (latest : Option Shown) :
    Ready last (inputs.foldl (DecodeFrameLoop.decodeNext zstd) (other, latest)).1 ∧
      ∀ shown, (inputs.foldl (DecodeFrameLoop.decodeNext zstd) (other, latest)).2 =
        some shown → shown.Exact := by
  induction h generalizing d other latest with
  | nil => cases hkey
  | quiet hfits hframe _ ih => exact ih (call_quiet hready hfits hframe).2 hkey other latest
  | @sent e last call bgra packet inputs hfits hframe hpacket rest ih =>
      rw [List.any_cons, Bool.or_eq_true] at hkey
      by_cases hfirst : (queueEvrtckFrame packet.data
          ⟨e.width % 2 ^ 32, e.height % 2 ^ 32, bgraToRgba bgra⟩).key = true
      · obtain ⟨hany, hnop⟩ := ready_of_key hready hpacket hfirst other
        obtain ⟨hnext, hexact, hsome⟩ := decodeOneFrame_ready hzstd hany hfits hframe hpacket rfl
        refine decode_in_step hzstd rest hnext (decodeNext_exact hexact fun hnone => ?_)
        exact absurd hnone (Option.isSome_iff_ne_none.mp (hsome hnop))
      · have hlater := hkey.resolve_left hfirst
        exact ih (decodeOneFrame_ready hzstd hready hfits hframe hpacket rfl).1 hlater _ _

/-- Packets that change nothing show nothing. -/
theorem decode_nops {inputs : List DecoderInput}
    (h : ∀ input ∈ inputs, flagAt input.bytes flagNop = true) (latest : Option Shown) :
    inputs.foldl (DecodeFrameLoop.decodeNext zstd) (d, latest) = (d, latest) := by
  induction inputs with
  | nil => rfl
  | cons input inputs ih =>
      have hnext : DecodeFrameLoop.decodeNext zstd (d, latest) input = (d, latest) := by
        rw [DecodeFrameLoop.decodeNext, decodeOneFrame, if_pos (h input List.mem_cons_self)]
        rfl
      rw [List.foldl_cons, hnext]
      exact ih fun other hother => h other (List.mem_cons_of_mem _ hother)

end Decoding

/-- The decoder is in step with the encoder that made the packets so far, unless the
chain is broken. -/
structure InStep (e : EvrtckEncoder) (s : DecodeFrameLoop) : Prop where
  encoder : ∃ d, Ready e d
  decoder : s.chainBroken = false → Ready e s.decoder

section Steps

variable {zstd : Zstd} {e last : EvrtckEncoder} {s : DecodeFrameLoop}

theorem step_kept (zstd : Zstd) {batch : List DecoderInput}
    (h : (trimVideoBacklogToKeyframe batch).2.evrtckChainBroken = false) :
    (s.step zstd batch).1 =
        ⟨((trimVideoBacklogToKeyframe batch).1.foldl (DecodeFrameLoop.decodeNext zstd)
          (s.decoder, none)).1,
          s.chainBroken && !(trimVideoBacklogToKeyframe batch).1.any DecoderInput.key⟩ ∧
      (s.step zstd batch).2.latestEvent =
        ((trimVideoBacklogToKeyframe batch).1.foldl (DecodeFrameLoop.decodeNext zstd)
          (s.decoder, none)).2 := by
  rw [DecodeFrameLoop.step]
  generalize trimVideoBacklogToKeyframe batch = trimmed at h
  obtain ⟨kept, dropped, broken⟩ := trimmed
  obtain rfl : broken = false := h
  by_cases hdropped : dropped > 0
  · simp [hdropped]
  · simp [hdropped]

theorem step_given_up (zstd : Zstd) {batch : List DecoderInput}
    (hnone : (trimVideoBacklogToKeyframe batch).1 = [])
    (hdropped : 0 < (trimVideoBacklogToKeyframe batch).2.dropped)
    (hbroken : (trimVideoBacklogToKeyframe batch).2.evrtckChainBroken = true) :
    (s.step zstd batch).1 = ⟨resetDecoder s.decoder, true⟩ ∧
      (s.step zstd batch).2.latestEvent = none := by
  rw [DecodeFrameLoop.step]
  generalize trimVideoBacklogToKeyframe batch = trimmed at hnone hdropped hbroken
  obtain ⟨kept, dropped, broken⟩ := trimmed
  obtain rfl : kept = [] := hnone
  obtain rfl : broken = true := hbroken
  have hlost : dropped > 0 := hdropped
  simp [hlost]

/-- Nothing is shown for the batch with which the chain breaks, nor for those after it
up to the next key frame. -/
def Dark (s : DecodeFrameLoop) (batch : List DecoderInput) : Prop :=
  (s.chainBroken = true ∨ (trimVideoBacklogToKeyframe batch).2.evrtckChainBroken = true) ∧
    (trimVideoBacklogToKeyframe batch).1.any DecoderInput.key = false

theorem step_in_step (hzstd : zstd.Lawful) {batch : List DecoderInput} (h : InStep e s)
    (hbatch : Produced zstd e batch last) (hwaits : s.WaitsForKeyframe batch) :
    InStep last (s.step zstd batch).1 ∧
      (∀ shown, (s.step zstd batch).2.latestEvent = some shown → shown.Exact) ∧
      (Dark s batch → (s.step zstd batch).2.latestEvent = none) := by
  obtain ⟨d, hready⟩ := h.encoder
  have hlast : ∃ d, Ready last d := ⟨_, (decode_in_step hzstd hbatch hready nothing_exact).1⟩
  have hwithKey : ∀ middle, Produced zstd middle (trimVideoBacklogToKeyframe batch).1 last →
      (∃ d, Ready middle d) →
      (trimVideoBacklogToKeyframe batch).1.any DecoderInput.key = true →
      (trimVideoBacklogToKeyframe batch).2.evrtckChainBroken = false →
      InStep last (s.step zstd batch).1 ∧
        (∀ shown, (s.step zstd batch).2.latestEvent = some shown → shown.Exact) ∧
        (Dark s batch → (s.step zstd batch).2.latestEvent = none) := by
    rintro middle hkept ⟨d, hready⟩ hkey hwhole
    obtain ⟨hstate, hshown⟩ := step_kept zstd (s := s) hwhole
    obtain ⟨hdone, hexact⟩ := decode_with_key hzstd hkept hready hkey s.decoder none
    rw [hstate, hshown]
    exact ⟨⟨hlast, fun _ => hdone⟩, hexact, fun hdark => by cases hkey.symm.trans hdark.2⟩
  rcases trim_cases batch with ⟨hkept, htrim⟩ | ⟨before, hsplit, hkey, hwhole⟩ |
    ⟨hnone, hdropped, hbroken⟩
  · have hwhole : (trimVideoBacklogToKeyframe batch).2.evrtckChainBroken = false := by
      rw [htrim]
    cases hkey : (trimVideoBacklogToKeyframe batch).1.any DecoderInput.key with
    | true =>
        refine hwithKey e ?_ h.encoder hkey hwhole
        rw [hkept]
        exact hbatch
    | false =>
        obtain ⟨hstate, hshown⟩ := step_kept zstd (s := s) hwhole
        rw [hstate, hshown, hkey]
        cases hchain : s.chainBroken with
        | true =>
            rw [decode_nops (hwaits hchain hkey)]
            exact ⟨⟨hlast, fun habsurd => by cases habsurd⟩, by simp, fun _ => rfl⟩
        | false =>
            rw [hkept]
            obtain ⟨hdone, hexact⟩ := decode_in_step hzstd hbatch (h.decoder hchain) nothing_exact
            refine ⟨⟨hlast, fun _ => hdone⟩, hexact, ?_⟩
            rintro ⟨hdark | hdark, -⟩
            · cases hchain.symm.trans hdark
            · cases hwhole.symm.trans hdark
  · obtain ⟨middle, hbefore, hlater⟩ := hbatch.split hsplit
    exact hwithKey middle hlater
      ⟨_, (decode_in_step hzstd hbefore hready nothing_exact).1⟩ hkey hwhole
  · obtain ⟨hstate, hshown⟩ := step_given_up zstd (s := s) hnone hdropped hbroken
    rw [hstate, hshown]
    exact ⟨⟨hlast, fun habsurd => by cases habsurd⟩, by simp, fun _ => rfl⟩

end Steps

theorem run_in_step {zstd : Zstd} (hzstd : zstd.Lawful) {e last : EvrtckEncoder}
    {s : DecodeFrameLoop} {batches : List (List DecoderInput)}
    (h : Produced zstd e batches.flatten last) (hs : InStep e s)
    (hwaits : (decodeFrameLoop zstd).Along DecodeFrameLoop.WaitsForKeyframe s batches) :
    (∀ output ∈ (decodeFrameLoop zstd).outputs s batches, ∀ shown,
        output.latestEvent = some shown → shown.Exact) ∧
      (decodeFrameLoop zstd).Along (fun s batch =>
        Dark s batch → (s.step zstd batch).2.latestEvent = none) s batches := by
  induction batches generalizing e s with
  | nil => exact ⟨by simp, trivial⟩
  | cons batch batches ih =>
      obtain ⟨middle, hbatch, hlater⟩ := h.split List.flatten_cons
      obtain ⟨hfirst, hrest⟩ := hwaits
      obtain ⟨hnext, hexact, hdark⟩ := step_in_step hzstd hs hbatch hfirst
      obtain ⟨houtputs, hdarks⟩ := ih hlater hnext hrest
      refine ⟨?_, hdark, hdarks⟩
      intro output hmember
      rcases List.mem_cons.mp hmember with rfl | hlast
      · exact hexact
      · exact houtputs output hlast

/-- However the packets of an encoder come in batches: every picture that is shown is
the one that the encoder had, and none is shown from a broken chain up to the next key
frame, in every run in which nothing but a key frame is decoded there. -/
theorem decode_loop_shows_true_pictures {zstd : Zstd} (hzstd : zstd.Lawful)
    {width height : Nat} (htiles : tilesInDim width * tilesInDim height ≤ 65536)
    {calls : List Call}
    (hfits : (encoder zstd).Along (Fits Covered) (EvrtckEncoder.new width height) calls)
    {batches : List (List DecoderInput)}
    (hbatches : batches.flatten = queued zstd (EvrtckEncoder.new width height) calls)
    (hwaits : (decodeFrameLoop zstd).Along DecodeFrameLoop.WaitsForKeyframe
      DecodeFrameLoop.start batches) :
    (∀ output ∈ (decodeFrameLoop zstd).outputs DecodeFrameLoop.start batches, ∀ shown,
        output.latestEvent = some shown → shown.Exact) ∧
      (decodeFrameLoop zstd).Along (fun s batch =>
        Dark s batch → (s.step zstd batch).2.latestEvent = none) DecodeFrameLoop.start
        batches := by
  have hready := ready_new htiles DecodeFrameLoop.start.decoder
  have hproduced := produced_queued hzstd hready (along_marked hfits)
  rw [← hbatches] at hproduced
  exact run_in_step hzstd hproduced ⟨⟨_, hready⟩, fun _ => hready⟩ hwaits

/-- A key frame and a delta frame of one pixel. -/
def twoPackets : List DecoderInput :=
  queued EvrtckDecoder.prefixing (EvrtckEncoder.new 1 1)
    [.encode [1, 2, 3, 4] 0, .encode [5, 6, 7, 8] 1]

theorem decode_loop_shows_two_packets :
    (∀ output ∈ (decodeFrameLoop EvrtckDecoder.prefixing).outputs DecodeFrameLoop.start
        [twoPackets], ∀ shown, output.latestEvent = some shown → shown.Exact) ∧
      (decodeFrameLoop EvrtckDecoder.prefixing).Along (fun s batch =>
        Dark s batch → (s.step EvrtckDecoder.prefixing batch).2.latestEvent = none)
        DecodeFrameLoop.start [twoPackets] := by
  have hfits : (encoder EvrtckDecoder.prefixing).Along (Fits Covered) (EvrtckEncoder.new 1 1)
      [.encode [1, 2, 3, 4] 0, .encode [5, 6, 7, 8] 1] := ⟨rfl, rfl, trivial⟩
  have hwaits : DecodeFrameLoop.start.WaitsForKeyframe twoPackets := nofun
  exact decode_loop_shows_true_pictures prefixing_lawful (by decide) hfits
    (List.append_nil twoPackets) ⟨hwaits, trivial⟩

/-- Two tiles, of which only the first one changes after the key frame. -/
def twoTileFrame (value : UInt8) : List UInt8 := value :: List.replicate 131 1

def sixCalls : List Call :=
  [.encode (twoTileFrame 0) 0, .encode (twoTileFrame 1) 1, .encode (twoTileFrame 2) 2,
    .encode (twoTileFrame 3) 3, .encode (twoTileFrame 4) 4, .encode (twoTileFrame 5) 5]

/-- The key frame, four delta frames at once, and one more. -/
def sixInBatches : List (List DecoderInput) :=
  let inputs := queued EvrtckDecoder.prefixing (EvrtckEncoder.new 33 1) sixCalls
  [inputs.take 1, (inputs.drop 1).take 4, (inputs.drop 1).drop 4]

/-- A delta frame that comes after the chain has broken is decoded on black and shown. -/
theorem delta_on_black_is_shown :
    ¬ ∀ (zstd : Zstd) (width height : Nat) (calls : List Call)
      (batches : List (List DecoderInput)), zstd.Lawful →
      tilesInDim width * tilesInDim height ≤ 65536 →
      (encoder zstd).Along (Fits Covered) (EvrtckEncoder.new width height) calls →
      batches.flatten = queued zstd (EvrtckEncoder.new width height) calls →
      ∀ output ∈ (decodeFrameLoop zstd).outputs DecodeFrameLoop.start batches, ∀ shown,
        output.latestEvent = some shown → shown.Exact := by
  intro hall
  have hlength : ∀ value, (twoTileFrame value).length = 33 * 1 * 4 := fun _ => by
    simp [twoTileFrame]
  have hflatten : sixInBatches.flatten =
      queued EvrtckDecoder.prefixing (EvrtckEncoder.new 33 1) sixCalls := by
    rw [sixInBatches, List.flatten_cons, List.flatten_cons, List.flatten_cons, List.flatten_nil,
      List.append_nil, List.take_append_drop, List.take_append_drop]
  have hexact := hall EvrtckDecoder.prefixing 33 1 sixCalls sixInBatches prefixing_lawful
    (by decide) ⟨hlength 0, hlength 1, hlength 2, hlength 3, hlength 4, hlength 5, trivial⟩
    hflatten
  have hwrong : ((decodeFrameLoop EvrtckDecoder.prefixing).outputs DecodeFrameLoop.start
      sixInBatches).all (fun output => output.latestEvent.all fun shown =>
        decide (shown.2.picture = shown.1.picture)) = false := by
    decide +kernel
  have hright : ((decodeFrameLoop EvrtckDecoder.prefixing).outputs DecodeFrameLoop.start
      sixInBatches).all (fun output => output.latestEvent.all fun shown =>
        decide (shown.2.picture = shown.1.picture)) = true := by
    simp only [List.all_eq_true, Option.all_eq_true, decide_eq_true_eq]
    intro output hmember shown hshown
    exact (hexact output hmember shown hshown).2
  cases hright.symm.trans hwrong

end EvertyDesk.Transport
