import EvertyDesk.Client.CodecSwitch
import EvertyDesk.Client.DeliveryOrder
import EvertyDesk.Client.LossRecovery
import EvertyDesk.Client.QueueContinuity
import EvertyDesk.Client.ReassemblerContinuity
import EvertyDesk.Transport.BatchDecoding
import Mathlib.Data.List.Chain

/-!
The way of EVRTCK frames through the client, from the datagrams to the pictures: the
reassembler, the frame queue and the decoder. Datagrams may be lost, doubled, reordered
and forged by someone without the token of the session.

A delta frame reaches the decoder only directly after its base, and a key frame makes up
for everything that was lost before it; so the decoder holds what the host's encoder held
when it made the frame.
-/

namespace EvertyDesk.EvrtClient

open Evrt Reassembler FrameQueue Evrtck
open Transport (DecoderInput Produced flagAt queueEvrtckFrame queued)

/-- The EVRTCK arm of the decode loop: the decoder after a frame, and the picture for the
viewer, if there is one. -/
def decodeEvrtck (zstd : Zstd) (d : EvrtckDecoder) (bytes : List UInt8) :
    EvrtckDecoder × Option (List UInt8) :=
  if flagAt bytes flagNop then (d, none)
  else
    match d.decodeWire zstd bytes with
    | .ok (next, .ok rgba) => (next, some rgba)
    | .ok (next, .error _) => (next, none)
    | .error _ => (d, none)

structure Viewer where
  receiver : Receiver
  evrtckDec : EvrtckDecoder
  /-- The last picture that the loop gave to the viewer. -/
  screen : Option (List UInt8)
  /-- Ghost: the frames that the reassembler has delivered. -/
  delivered : List Delivery
  /-- Ghost: those of them that the decode loop has taken. -/
  shown : List Delivery

def Reaction.delivery : Reaction → Option Delivery
  | .enqueue delivery => some delivery
  | _ => none

namespace Viewer

def start (queueCfg : FrameQueueConfig) (codec : String) (opened : Nat) : Viewer where
  receiver := Receiver.start queueCfg codec opened
  evrtckDec := EvrtckDecoder.new
  screen := none
  delivered := []
  shown := []

variable (iter : IterOrder Nat) (sha : Sha256) (sessionToken : Option (List UInt8))
  (zstd : Zstd) (v : Viewer)

/-- The frame that the reassembler delivers for a datagram, if the thread takes it. -/
def delivery (datagram : InFlight) (now : Nat) : Option Delivery :=
  match v.receiver.client.duties with
  | [] => (onDatagram iter sha sessionToken v.receiver.client.reassembler datagram.bytes
      now).2.delivery
  | _ => none

/-- The decode loop has taken a unit. -/
def decode (unit : QueuedUnit) (decoded : Decoded) : Viewer :=
  let v := { v with shown := v.shown ++ v.delivered[unit.seq]?.toList }
  match decoded.decoder with
  | .evrtck =>
      let (evrtckDec, picture) := decodeEvrtck zstd v.evrtckDec decoded.bytes
      { v with evrtckDec := evrtckDec, screen := picture.or v.screen }
  | _ => v

def step (input : ReceiverInput) : Viewer :=
  let (receiver, _) := v.receiver.step iter sha sessionToken input
  match input with
  | .datagram datagram now =>
      { v with
        receiver := receiver
        delivered := v.delivered ++ (v.delivery iter sha sessionToken datagram now).toList }
  | .dequeuePass cancel now =>
      match (v.receiver.client.dequeuePass cancel now).2,
        (v.receiver.client.queue.dequeuePass cancel now).2 with
      | some decoded, .returned unit => { v with receiver := receiver }.decode zstd unit decoded
      | _, _ => { v with receiver := receiver }
  | _ => { v with receiver := receiver }

end Viewer

/-- The client up to the pictures. -/
def viewer (iter : IterOrder Nat) (sha : Sha256) (sessionToken : Option (List UInt8))
    (zstd : Zstd) : Machine Viewer ReceiverInput Unit where
  step v input := (v.step iter sha sessionToken zstd input, ())

/-! What the network may bring, and which steps lose no base. -/

/-- Whatever passes for the host's is the host's: its frames, and names of the codec. -/
def Genuine (sha : Sha256) (sessionToken : Option (List UInt8))
    (source : Nat → Option VideoFrame) : ReceiverInput → Prop
  | .datagram datagram now =>
      (∀ name, nameIn sha sessionToken datagram.bytes = some name → decoderOf name = .evrtck) ∧
      configIn sha sessionToken datagram.bytes = none ∧
      ∀ pkt, parseAuthenticated sha datagram.bytes datagram.bytes.length sessionToken = some pkt →
        pkt.packetType = typeFec ∨ pkt.packetType = typeVideoFrame →
          Honest sha sessionToken source (.datagram datagram.bytes now)
  | _ => True

/-- The reassembler, and the number of the frame that it delivered last. -/
def Viewer.tracked (v : Viewer) : Tracked :=
  ⟨v.receiver.client.reassembler, v.delivered.getLast?.map (·.frameId)⟩

/-- A frame may be decoded directly after another one. -/
def ComesNext (a b : Delivery) : Prop :=
  a.frameId < b.frameId ∧ (b.isKeyFrame = true ∨ b.frameId = a.frameId + 1)

section Assembly

variable (iter : IterOrder Nat) {sha : Sha256} {sessionToken : Option (List UInt8)}
  {source : Nat → Option VideoFrame} {r : ChannelReassembler} {delivered : List Delivery}

/-- Between parameter sets, the reassembler does what it does without names of codecs. -/
theorem onDatagram_receive {datagram : List UInt8}
    (hconfig : configIn sha sessionToken datagram = none) (now : Nat) :
    (onDatagram iter sha sessionToken r datagram now).1 =
        (receive iter sha sessionToken r datagram now).1 ∧
      (onDatagram iter sha sessionToken r datagram now).2.delivery =
        (receive iter sha sessionToken r datagram now).2 := by
  unfold configIn at hconfig
  unfold onDatagram receive
  cases hparse : parseAuthenticated sha datagram datagram.length sessionToken with
  | none => exact ⟨rfl, rfl⟩
  | some pkt =>
      rw [hparse] at hconfig
      dsimp only [onPacket]
      split
      · next htype =>
          have hfec : pkt.packetType ≠ typeFec := htype ▸ by decide
          have hvideo : pkt.packetType ≠ typeVideoFrame := htype ▸ by decide
          rw [if_neg hfec, if_neg hvideo]
          split
          · split <;> exact ⟨rfl, rfl⟩
          · next hname => simp [htype, hname] at hconfig
      · split
        · split <;> next heq => rw [heq]; exact ⟨rfl, rfl⟩
        · split
          · split <;> next heq => rw [heq]; exact ⟨rfl, rfl⟩
          · exact ⟨rfl, rfl⟩

/-- A datagram is ignored, or is one call of the reassembler. -/
theorem receive_cases (sha : Sha256) (sessionToken : Option (List UInt8))
    (r : ChannelReassembler) (datagram : List UInt8) (now : Nat) :
    receive iter sha sessionToken r datagram now = (r, none) ∨
      ∃ pkt op, parseAuthenticated sha datagram datagram.length sessionToken = some pkt ∧
        (pkt.packetType = typeFec ∧ op = .fecPacket pkt now ∨
          videoIn sha sessionToken datagram = some pkt ∧ op = .packet pkt now) ∧
        receive iter sha sessionToken r datagram now = (machine iter).step r op := by
  unfold receive videoIn
  cases parseAuthenticated sha datagram datagram.length sessionToken with
  | none => exact .inl rfl
  | some pkt =>
      dsimp only
      split
      · next hfec => exact .inr ⟨pkt, _, rfl, .inl ⟨hfec, rfl⟩, rfl⟩
      · split
        · exact .inr ⟨pkt, _, rfl, .inr ⟨rfl, rfl⟩, rfl⟩
        · exact .inl rfl

/-- What has come out of the reassembler is the host's, and one frame follows the other. -/
structure Received (sessionToken : Option (List UInt8)) (source : Nat → Option VideoFrame)
    (r : ChannelReassembler) (delivered : List Delivery) : Prop where
  guarded : Guarded ⟨r, delivered.getLast?.map (·.frameId)⟩
  holds : ChannelReassembler.Holds (HonestFrame sessionToken source)
    (HonestMeta sessionToken source) r
  config : r.latestCodecConfig = none
  done : ∀ last, delivered.getLast? = some last → DoneUpTo r.latestCompletedId last.frameId
  honest : ∀ delivery ∈ delivered, Delivers source none delivery
  chain : delivered.IsChain ComesNext

theorem getLast_concat_toList (out : Option Delivery) :
    (delivered ++ out.toList).getLast?.map (·.frameId) =
      (out.map (·.frameId)).or (delivered.getLast?.map (·.frameId)) := by
  cases out with
  | none => rw [Option.toList_none, List.append_nil]; rfl
  | some delivery => rw [Option.toList_some, List.getLast?_concat]; rfl

/-- One call that completes at most one frame, and loses no base. -/
theorem Received.call (h : Received sessionToken source r delivered) {op : Reassembler.Op}
    (hop : op ≠ .reset)
    (hkeeps : KeepsBase ⟨r, delivered.getLast?.map (·.frameId)⟩ op) :
    let result := (machine iter).step r op
    Guarded ⟨result.1, (delivered ++ result.2.toList).getLast?.map (·.frameId)⟩ ∧
      (∀ last, (delivered ++ result.2.toList).getLast? = some last →
        DoneUpTo result.1.latestCompletedId last.frameId) ∧
      (delivered ++ result.2.toList).IsChain ComesNext := by
  intro result
  obtain ⟨hguarded, hdecodable⟩ : Guarded ((tracked iter).step _ op).1 ∧ Decodable iter _ op :=
    step_guarded _ op h.guarded hkeeps
  obtain ⟨-, hcompleted⟩ := step_completes iter h.guarded.named hop
  have hnext : Tracked.next (delivered.getLast?.map (·.frameId)) op result.2 =
      (delivered ++ result.2.toList).getLast?.map (·.frameId) := by
    rw [getLast_concat_toList]
    cases op with
    | reset => exact absurd rfl hop
    | _ => cases result.2 <;> rfl
  have hless : ∀ id last, ¬ DoneUpTo r.latestCompletedId id →
      delivered.getLast? = some last → last.frameId < id := by
    intro id last hid hlast
    obtain ⟨completed, hsome, hle⟩ := h.done last hlast
    by_contra hnot
    exact hid ⟨completed, hsome, by omega⟩
  refine ⟨hnext ▸ hguarded, ?_, ?_⟩
  · cases hout : result.2 with
    | none =>
        rw [Option.toList_none, List.append_nil]
        intro last hlast
        obtain ⟨-, hsame⟩ | ⟨id, hid, hnew, -⟩ := hcompleted
        · exact hsame ▸ h.done last hlast
        · exact ⟨id, hnew, Nat.le_of_lt (hless id last hid hlast)⟩
    | some delivery =>
        rw [Option.toList_some, List.getLast?_concat]
        intro last hlast
        obtain rfl := Option.some.inj hlast
        obtain ⟨hnone, -⟩ | ⟨id, -, hnew, hid⟩ := hcompleted
        · exact absurd (hnone.symm.trans hout) (by simp)
        · exact ⟨id, hnew, Nat.le_of_eq (hid delivery hout)⟩
  · cases hout : result.2 with
    | none =>
        rw [Option.toList_none, List.append_nil]
        exact h.chain
    | some delivery =>
        rw [Option.toList_some, List.isChain_append]
        refine ⟨h.chain, .singleton _, ?_⟩
        rintro last hlast first hfirst
        obtain rfl : delivery = first := Option.some.inj hfirst
        obtain ⟨hnone, -⟩ | ⟨id, hid, -, hsame⟩ := hcompleted
        · exact absurd (hnone.symm.trans hout) (by simp)
        · refine ⟨(hsame delivery hout).symm ▸ hless id last hid hlast, ?_⟩
          obtain hkey | hbase := hdecodable delivery hout
          · exact .inl hkey
          · exact .inr (hbase last.frameId (by rw [hlast]; rfl))

/-- One datagram. -/
theorem Received.datagram (h : Received sessionToken source r delivered) {datagram : InFlight}
    {now : Nat} (hgenuine : Genuine sha sessionToken source (.datagram datagram now))
    (hkeeps : ∀ pkt, videoIn sha sessionToken datagram.bytes = some pkt →
      ¬ Tracked.LosesBase ⟨r, delivered.getLast?.map (·.frameId)⟩ pkt) :
    Received sessionToken source (onDatagram iter sha sessionToken r datagram.bytes now).1
      (delivered ++ (onDatagram iter sha sessionToken r datagram.bytes now).2.delivery.toList) := by
  obtain ⟨-, hconfig, hhost⟩ := hgenuine
  obtain ⟨hstate, hout⟩ := onDatagram_receive iter (r := r) hconfig now
  rw [hstate, hout]
  obtain hnothing | ⟨pkt, op, hparse, hkind, hcall⟩ :=
    receive_cases iter sha sessionToken r datagram.bytes now
  · rw [hnothing, Option.toList_none, List.append_nil]
    exact h
  · have hop : op ≠ .reset := by
      obtain ⟨-, rfl⟩ | ⟨-, rfl⟩ := hkind <;> simp
    have hbase : KeepsBase ⟨r, delivered.getLast?.map (·.frameId)⟩ op := by
      obtain ⟨-, rfl⟩ | ⟨hvideo, rfl⟩ := hkind
      · trivial
      · exact hkeeps pkt hvideo
    have htype : pkt.packetType = typeFec ∨ pkt.packetType = typeVideoFrame := by
      obtain ⟨hfec, -⟩ | ⟨hvideo, -⟩ := hkind
      · exact .inl hfec
      · unfold videoIn at hvideo
        rw [hparse] at hvideo
        simp only [Option.ite_none_right_eq_some] at hvideo
        exact .inr hvideo.1
    obtain ⟨hguarded, hdone, hchain⟩ := h.call iter hop hbase
    obtain ⟨hholds, hsame, hdelivers⟩ := client_step iter h.holds
      (.datagram datagram.bytes now) (hhost pkt hparse htype)
    rw [← hcall] at hguarded hdone hchain
    refine ⟨hguarded, hholds, hsame.trans h.config, hdone, ?_, hchain⟩
    intro delivery hmem
    obtain hold | hnew := List.mem_append.mp hmem
    · exact h.honest delivery hold
    · have hdelivery := hdelivers delivery (Option.mem_toList.mp hnew)
      rwa [h.config] at hdelivery

end Assembly

section Queueing

variable {iter : IterOrder Nat} {sha : Sha256} {sessionToken : Option (List UInt8)}

/-- The frames that the receive thread still has to hand over. -/
def pending (duties : List Duty) : List Delivery :=
  duties.filterMap fun duty =>
    match duty with
    | .enqueue delivery _ => some delivery
    | .waitForKeyframe => none

/-- The frames delivered, from the reassembler's output through the queue. -/
structure Carried (c : Client) (delivered shown : List Delivery) (last : Option Nat) : Prop where
  handed : ∃ handed, delivered = handed ++ pending c.duties ∧ handed.length = c.queue.calls
  units : ∀ unit ∈ c.queue.held, ∃ delivery, delivered[unit.seq]? = some delivery ∧
    unit.bytes = delivery.bytes ∧ unit.isKeyFrame = delivery.isKeyFrame
  continuous : Continuous last c.queue
  taken : shown.getLast? = last.bind (delivered[·]?)
  codec : decoderOf c.codec = .evrtck
  names : ∀ switch ∈ c.names, decoderOf switch.setting = .evrtck

theorem comesNext_of_chain {delivered : List Delivery} (h : delivered.IsChain ComesNext)
    {n m : Nat} {a b : Delivery} (ha : delivered[n]? = some a) (hb : delivered[m]? = some b)
    (hless : n < m) (hnext : b.isKeyFrame = true ∨ m = n + 1) : ComesNext a b := by
  obtain ⟨hn, rfl⟩ := List.getElem?_eq_some_iff.mp ha
  obtain ⟨hm, rfl⟩ := List.getElem?_eq_some_iff.mp hb
  obtain hkey | rfl := hnext
  · have hordered : delivered.IsChain fun a b => a.frameId < b.frameId :=
      h.imp fun _ _ hstep => hstep.1
    have hpairwise : delivered.Pairwise fun a b => a.frameId < b.frameId :=
      List.isChain_iff_pairwise.mp hordered
    exact ⟨List.pairwise_iff_getElem.mp hpairwise n m hn hm hless, .inl hkey⟩
  · exact h.getElem n hm

namespace Carried

variable {c : Client} {delivered shown : List Delivery} {last : Option Nat}

/-- Units known before are known in a longer list. -/
theorem known {n : Nat} {delivery : Delivery} (hknown : delivered[n]? = some delivery)
    (more : List Delivery) : (delivered ++ more)[n]? = some delivery := by
  obtain ⟨hn, -⟩ := List.getElem?_eq_some_iff.mp hknown
  rw [List.getElem?_append_left hn]
  exact hknown

variable (h : Carried c delivered shown last)

include h

theorem last_known {n : Nat} (hlast : last = some n) : n < delivered.length := by
  subst hlast
  obtain ⟨handed, rfl, hlength⟩ := h.handed
  obtain ⟨m, hm, hle⟩ := h.continuous.linked.le_lastSeq
  have hbound := h.continuous.bounded m hm
  rw [List.length_append]
  omega

theorem loses {queue : Inner} (hqueue : Loses c.queue queue) (hcontinuous : Continuous last queue) :
    Carried { c with queue := queue } delivered shown last where
  handed := by
    obtain ⟨handed, hsplit, hlength⟩ := h.handed
    exact ⟨handed, hsplit, hlength.trans hqueue.calls.symm⟩
  units unit hunit := h.units unit (hqueue.held unit hunit)
  continuous := hcontinuous
  taken := h.taken
  codec := h.codec
  names := h.names

/-- The thread has taken a datagram. -/
theorem deliver (hduties : c.duties = []) {c' : Client}
    {out : Option Delivery} (hqueue : c'.queue = c.queue) (hcodec : c'.codec = c.codec)
    (hpending : pending c'.duties = out.toList)
    (hnames : ∀ switch ∈ c'.names, decoderOf switch.setting = .evrtck) :
    Carried c' (delivered ++ out.toList) shown last where
  handed := by
    obtain ⟨handed, hsplit, hlength⟩ := h.handed
    rw [hduties] at hsplit
    refine ⟨delivered, by rw [hpending], ?_⟩
    rw [hqueue, ← hlength, hsplit, pending, List.filterMap_nil, List.append_nil]
  units unit hunit := by
    rw [hqueue] at hunit
    obtain ⟨delivery, hknown, hsame⟩ := h.units unit hunit
    exact ⟨delivery, known hknown _, hsame⟩
  continuous := hqueue ▸ h.continuous
  taken := by
    rw [h.taken]
    cases hlast : last with
    | none => rfl
    | some n => exact (List.getElem?_append_left (h.last_known hlast)).symm
  codec := hcodec ▸ h.codec
  names := hnames

/-- The thread goes on with its duties. -/
theorem perform (now : Nat)
    (hkeeps : ∀ delivery codec, .enqueue delivery codec ∈ c.duties →
      KeepsLoss c.queue (.enqueue delivery.bytes delivery.isKeyFrame
        delivery.presentationTimeUs now)) :
    Carried (c.perform now) delivered shown last := by
  unfold Client.perform
  split
  · exact h
  · next delivery codec duties hduties =>
      have hloss := hkeeps delivery codec (hduties ▸ List.mem_cons_self)
      obtain ⟨handed, hsplit, hlength⟩ := h.handed
      rw [hduties] at hsplit
      have hcalls : (c.queue.enqueue delivery.bytes delivery.isKeyFrame
          delivery.presentationTimeUs now).calls = c.queue.calls + 1 := enqueueInner_calls
      refine ⟨⟨handed ++ [delivery], ?_, ?_⟩, ?_, h.continuous.enqueue _ _ _ _ hloss, h.taken,
        h.codec, h.names⟩
      · rw [List.append_assoc]
        exact hsplit
      · rw [List.length_append, hlength, hcalls]
        rfl
      · intro unit hunit
        obtain hold | rfl := held_enqueueInner hunit
        · exact h.units unit hold
        · refine ⟨delivery, ?_, rfl, rfl⟩
          rw [hsplit]
          change (handed ++ delivery :: pending duties)[c.queue.calls]? = some delivery
          rw [← hlength, List.getElem?_append_right le_rfl, Nat.sub_self]
          rfl
  · next duties hduties =>
      have hwaits := h.loses loses_waitForKeyframe h.continuous.waitForKeyframe
      obtain ⟨handed, hsplit, hlength⟩ := hwaits.handed
      refine ⟨⟨handed, ?_, hlength⟩, hwaits.units, hwaits.continuous, hwaits.taken, hwaits.codec,
        hwaits.names⟩
      rw [hsplit]
      change handed ++ pending c.duties = handed ++ pending duties
      rw [hduties]
      rfl

theorem readName : Carried c.readName delivered shown last := by
  unfold Client.readName
  split
  · exact ⟨h.handed, h.units, h.continuous, h.taken, h.codec, h.names⟩
  · next first names _ hnames =>
      have hall := h.names
      rw [hnames] at hall
      exact ⟨h.handed, h.units, h.continuous, h.taken, hall first List.mem_cons_self,
        fun switch hmem => hall switch (List.mem_cons_of_mem _ hmem)⟩
  · exact h

/-- The decode loop looks for a frame: it takes none, or one that may be decoded after the
one before it. -/
theorem dequeuePass (hchain : delivered.IsChain ComesNext) (cancel : Bool) (now : Nat) :
    ((c.dequeuePass cancel now).2 = none ∧
        Carried (c.dequeuePass cancel now).1 delivered shown last) ∨
      ∃ unit decoded delivery,
        (c.dequeuePass cancel now).2 = some decoded ∧
        (c.queue.dequeuePass cancel now).2 = .returned unit ∧
        delivered[unit.seq]? = some delivery ∧
        decoded.decoder = .evrtck ∧ decoded.bytes = delivery.bytes ∧
        (∀ previous, shown.getLast? = some previous → ComesNext previous delivery) ∧
        Carried (c.dequeuePass cancel now).1 delivered (shown ++ [delivery]) (some unit.seq) := by
  obtain ⟨hcontinuous, hresult⟩ := h.continuous.dequeuePass cancel now
  have hloses := (loses_dequeuePass (g := c.queue) cancel now).1
  unfold Client.dequeuePass
  split
  · split
    · next queue unit heq =>
        rw [heq] at hcontinuous hresult hloses
        obtain ⟨hunit, hnext⟩ := hresult unit rfl
        obtain ⟨delivery, hknown, hbytes, hkey⟩ := h.units unit hunit
        obtain ⟨handed, hsplit, hlength⟩ := h.handed
        refine .inr ⟨unit, _, delivery, rfl, congrArg Prod.snd heq, hknown, h.codec,
          hbytes, ?_, ⟨⟨handed, hsplit, hlength.trans hloses.calls.symm⟩,
            fun other hother => h.units other (hloses.held other hother), hcontinuous, ?_, h.codec,
            h.names⟩⟩
        · intro previous hprevious
          rw [h.taken] at hprevious
          obtain ⟨n, hlast, hold⟩ := Option.bind_eq_some_iff.mp hprevious
          obtain ⟨hless, hdirect⟩ := hnext n hlast
          exact comesNext_of_chain hchain hold hknown hless (hkey ▸ hdirect)
        · rw [List.getLast?_concat]
          exact hknown.symm
    · next queue heq =>
        rw [heq] at hcontinuous hloses
        have hqueue := h.loses hloses hcontinuous
        exact .inl ⟨rfl, hqueue.handed, hqueue.units, hqueue.continuous, hqueue.taken,
          hqueue.codec, hqueue.names⟩
    · next queue heq =>
        rw [heq] at hcontinuous hloses
        exact .inl ⟨rfl, h.loses hloses hcontinuous⟩
  · exact .inl ⟨rfl, h⟩

end Carried

end Queueing

section Decoding

variable {zstd : Zstd} {e last : EvrtckEncoder} {d : EvrtckDecoder} {packets : List DecoderInput}

/-- The decoder and the screen are where the packet with this index leaves them. -/
def ShowsPacket (zstd : Zstd) (packets : List DecoderInput) (last : EvrtckEncoder) (k : Nat)
    (d : EvrtckDecoder) (screen : Option (List UInt8)) : Prop :=
  ∃ input middle, packets[k]? = some input ∧
    Produced zstd middle (packets.drop (k + 1)) last ∧ Ready middle d ∧
    d.frame = input.picture.rgba ∧ screen = some d.frame

/-- The call that made the first packet. -/
theorem produced_head {input : DecoderInput} {rest : List DecoderInput}
    (h : Produced zstd e (input :: rest) last) (hready : Ready e d) :
    ∃ e' call bgra packet, Ready e' d ∧ Fits Marked e' call ∧ call.frame = some bgra ∧
      (e'.call zstd call).2 = some packet ∧
      input = queueEvrtckFrame packet.data
        ⟨e'.width % 2 ^ 32, e'.height % 2 ^ 32, bgraToRgba bgra⟩ ∧
      Produced zstd (e'.call zstd call).1 rest last := by
  generalize hall : input :: rest = inputs at h
  induction h with
  | nil e => cases hall
  | quiet hfits hframe _ ih => exact ih (call_quiet hready hfits hframe).2 hall
  | sent hfits hframe hpacket hrest =>
      obtain ⟨rfl, rfl⟩ := List.cons.inj hall
      exact ⟨_, _, _, _, hready, hfits, hframe, hpacket, rfl, hrest⟩

/-- One packet of an encoder with which the decoder is in step. -/
theorem decodeEvrtck_sent (hzstd : zstd.Lawful) (hready : Ready e d) {call : Evrtck.Call}
    {bgra : List UInt8} {packet : EvrtckPacket} (hfits : Fits Marked e call)
    (hframe : call.frame = some bgra) (hpacket : (e.call zstd call).2 = some packet) :
    let result := decodeEvrtck zstd d packet.data
    Ready (e.call zstd call).1 result.1 ∧ result.1.frame = bgraToRgba bgra ∧
      (result.2 = some result.1.frame ∨
        result.2 = none ∧ result.1 = d ∧ flagAt packet.data flagNop = true) := by
  obtain ⟨packet', hpacket', hsent⟩ := call_sends hzstd hready hfits hframe
  obtain rfl := Option.some.inj (hpacket.symm.trans hpacket')
  have hnext := (hsent.ready hready.tiles).1
  dsimp only
  unfold decodeEvrtck
  split
  · next hnop =>
      have hstays := Transport.holding_of_nop hready hpacket hsent hnop
      rw [hstays] at hnext
      exact ⟨hnext, (congrArg EvrtckDecoder.frame hstays).symm, .inr ⟨rfl, rfl, hnop⟩⟩
  · have hshown : d.decodeWire zstd packet.data =
        .ok (holding e.width e.height bgra, .ok (bgraToRgba bgra)) := hsent.shown
    rw [hshown]
    exact ⟨hnext, rfl, .inl rfl⟩

/-- The packet after the one shown. -/
theorem showsPacket_next (hzstd : zstd.Lawful) {k : Nat} {screen : Option (List UInt8)}
    (h : ShowsPacket zstd packets last k d screen) {input : DecoderInput}
    (hinput : packets[k + 1]? = some input) :
    ShowsPacket zstd packets last (k + 1) (decodeEvrtck zstd d input.bytes).1
      ((decodeEvrtck zstd d input.bytes).2.or screen) := by
  obtain ⟨-, middle, -, hproduced, hready, -, hscreen⟩ := h
  obtain ⟨hk, rfl⟩ := List.getElem?_eq_some_iff.mp hinput
  rw [List.drop_eq_getElem_cons hk] at hproduced
  obtain ⟨e', call, bgra, packet, hready', hfits, hframe, hpacket, hmade, hrest⟩ :=
    produced_head hproduced hready
  obtain ⟨hnext, hpicture, hout⟩ := decodeEvrtck_sent hzstd hready' hfits hframe hpacket
  refine ⟨packets[k + 1], _, hinput, hrest, ?_⟩
  rw [hmade]
  refine ⟨hnext, hpicture, ?_⟩
  change (decodeEvrtck zstd d packet.data).2.or screen = _
  obtain hsome | ⟨hnone, hsame, -⟩ := hout
  · rw [hsome]
    rfl
  · rw [hnone, hscreen, Option.none_or]
    exact congrArg (fun dec => some dec.frame) hsame.symm

/-- A key frame is shown whatever the decoder was in before. -/
theorem showsPacket_key (hzstd : zstd.Lawful) (hproduced : Produced zstd e packets last)
    (hready : Ready e d) {k : Nat} {input : DecoderInput} (hinput : packets[k]? = some input)
    (hkey : input.key = true) (other : EvrtckDecoder) (screen : Option (List UInt8)) :
    ShowsPacket zstd packets last k (decodeEvrtck zstd other input.bytes).1
      ((decodeEvrtck zstd other input.bytes).2.or screen) := by
  obtain ⟨hk, rfl⟩ := List.getElem?_eq_some_iff.mp hinput
  obtain ⟨middle, hbefore, hlater⟩ := hproduced.split (List.take_append_drop k packets).symm
  have hmiddle := (Transport.decode_in_step hzstd hbefore hready Transport.nothing_exact).1
  rw [List.drop_eq_getElem_cons hk] at hlater
  obtain ⟨e', call, bgra, packet, hready', hfits, hframe, hpacket, hmade, hrest⟩ :=
    produced_head hlater hmiddle
  rw [hmade] at hkey
  obtain ⟨hany, hnop⟩ := Transport.ready_of_key hready' hpacket hkey other
  obtain ⟨hnext, hpicture, hout⟩ := decodeEvrtck_sent hzstd hany hfits hframe hpacket
  refine ⟨packets[k], _, hinput, hrest, ?_⟩
  rw [hmade]
  refine ⟨hnext, hpicture, ?_⟩
  change (decodeEvrtck zstd other packet.data).2.or screen = _
  obtain hsome | ⟨-, -, habsurd⟩ := hout
  · rw [hsome]
    rfl
  · rw [hnop] at habsurd
    contradiction

end Decoding

/-- The host numbers its packets on from the first, and each frame is its packet. -/
def Numbers (first : Nat) (packets : List DecoderInput) (source : Nat → Option VideoFrame) :
    Prop :=
  ∀ id frame, source id = some frame → ∃ k input, id = first + k ∧
    packets[k]? = some input ∧ frame.payload = input.bytes ∧ frame.isKeyFrame = input.key

section Watching

variable {iter : IterOrder Nat} {sha : Sha256} {sessionToken : Option (List UInt8)}
  {zstd : Zstd} {source : Nat → Option VideoFrame} {first : Nat}
  {packets : List DecoderInput} {last : EvrtckEncoder}

/-- The frames shown follow each other, and from the first key frame on the screen is that
of the last of them. -/
structure Watched (sessionToken : Option (List UInt8)) (zstd : Zstd)
    (source : Nat → Option VideoFrame) (first : Nat) (packets : List DecoderInput)
    (last : EvrtckEncoder) (v : Viewer) : Prop where
  received : Received sessionToken source v.receiver.client.reassembler v.delivered
  carried : ∃ seq, Carried v.receiver.client v.delivered v.shown seq
  chain : v.shown.IsChain ComesNext
  screen : (∃ key ∈ v.shown, key.isKeyFrame = true) →
    ∀ delivery, v.shown.getLast? = some delivery → ∃ k, delivery.frameId = first + k ∧
      ShowsPacket zstd packets last k v.evrtckDec v.screen

/-- The decode loop takes one more frame. -/
theorem Watched.decode (hzstd : zstd.Lawful) {e : EvrtckEncoder} {d : EvrtckDecoder}
    (hproduced : Produced zstd e packets last) (hready : Ready e d)
    (hsource : Numbers first packets source) {v v' : Viewer}
    (h : Watched sessionToken zstd source first packets last v) {delivery : Delivery}
    (hmem : delivery ∈ v.delivered)
    (hnext : ∀ previous, v.shown.getLast? = some previous → ComesNext previous delivery)
    (hclient : v'.receiver.client.reassembler = v.receiver.client.reassembler)
    (hdelivered : v'.delivered = v.delivered) (hshown : v'.shown = v.shown ++ [delivery])
    (hcarried : ∃ seq, Carried v'.receiver.client v.delivered (v.shown ++ [delivery]) seq)
    (hdecoder : v'.evrtckDec = (decodeEvrtck zstd v.evrtckDec delivery.bytes).1)
    (hscreen : v'.screen = (decodeEvrtck zstd v.evrtckDec delivery.bytes).2.or v.screen) :
    Watched sessionToken zstd source first packets last v' := by
  refine ⟨?_, ?_, ?_, ?_⟩
  · rw [hclient, hdelivered]
    exact h.received
  · rw [hdelivered, hshown]
    exact hcarried
  · rw [hshown, List.isChain_append]
    refine ⟨h.chain, .singleton _, ?_⟩
    rintro previous hprevious next hfirst
    obtain rfl := Option.some.inj hfirst
    exact hnext previous hprevious
  · rw [hshown, hdecoder, hscreen]
    rintro ⟨key, hkeyMem, hkey⟩ taken htaken
    rw [List.getLast?_concat] at htaken
    obtain rfl := Option.some.inj htaken
    obtain ⟨frame, ⟨hframe, -⟩, hsameKey, -, hbytes⟩ := h.received.honest delivery hmem
    obtain ⟨k, input, hid, hinput, hpayload, hinputKey⟩ := hsource _ _ hframe
    have hwhole : delivery.bytes = input.bytes := by
      rw [hbytes, Option.getD_none, ite_self, List.nil_append, hpayload]
    rw [hwhole]
    cases hisKey : delivery.isKeyFrame with
    | true =>
        refine ⟨k, hid, showsPacket_key hzstd hproduced hready hinput ?_ _ _⟩
        rw [← hinputKey, ← hsameKey, hisKey]
    | false =>
        -- the key frame was shown before, so the frame before this one is on the screen
        have hearlier : key ∈ v.shown := by
          obtain hold | hnew := List.mem_append.mp hkeyMem
          · exact hold
          · rw [List.mem_singleton.mp hnew, hisKey] at hkey
            contradiction
        obtain ⟨previous, hprevious⟩ :=
          Option.isSome_iff_exists.mp (List.getLast?_isSome.mpr (List.ne_nil_of_mem hearlier))
        obtain ⟨before, hbefore, hshows⟩ := h.screen ⟨key, hearlier, hkey⟩ previous hprevious
        obtain ⟨-, hdirect⟩ := hnext previous hprevious
        have hidNext : delivery.frameId = previous.frameId + 1 :=
          hdirect.resolve_left (by rw [hisKey]; exact Bool.false_ne_true)
        obtain rfl : k = before + 1 := by omega
        exact ⟨before + 1, hid, showsPacket_next hzstd hshows hinput⟩

/-- Nothing has changed for the frames. -/
theorem Watched.quiet {v v' : Viewer} (h : Watched sessionToken zstd source first packets last v)
    (hreassembler : v'.receiver.client.reassembler = v.receiver.client.reassembler)
    (hsame : (v'.evrtckDec, v'.screen, v'.delivered, v'.shown) =
      (v.evrtckDec, v.screen, v.delivered, v.shown))
    (hcarried : ∀ seq, Carried v.receiver.client v.delivered v.shown seq →
      Carried v'.receiver.client v.delivered v.shown seq) :
    Watched sessionToken zstd source first packets last v' := by
  simp only [Prod.mk.injEq] at hsame
  obtain ⟨hdecoder, hscreen, hdelivered, hshown⟩ := hsame
  obtain ⟨seq, hold⟩ := h.carried
  refine ⟨?_, ⟨seq, ?_⟩, ?_, ?_⟩
  · rw [hreassembler, hdelivered]
    exact h.received
  · rw [hdelivered, hshown]
    exact hcarried seq hold
  · rw [hshown]
    exact h.chain
  · rw [hshown, hdecoder, hscreen]
    exact h.screen

section Watching

variable {e : EvrtckEncoder} {d : EvrtckDecoder} {v : Viewer} (hzstd : zstd.Lawful)
  (hproduced : Produced zstd e packets last) (hready : Ready e d)
  (hsource : Numbers first packets source)
  (h : Watched sessionToken zstd source first packets last v)

include hzstd hproduced hready hsource h

end Watching

end Watching

/-- Two pictures of one pixel, of which the second makes a delta frame. -/
def twoPackets : List DecoderInput :=
  queued EvrtckDecoder.prefixing (EvrtckEncoder.new 1 1)
    [.encode [1, 2, 3, 4] 0, .encode [5, 6, 7, 8] 1]

def packetFrame (k : Fin 2) : VideoFrame where
  frameId := 7 + k.val
  presentationTimeUs := 0
  isKeyFrame := twoPackets[k.val]?.any DecoderInput.key
  payload := (twoPackets[k.val]?.map DecoderInput.bytes).getD []
  frameId_lt := (Nat.add_lt_add_left k.isLt 7).trans (by decide)
  time_lt := (Nat.zero_le k.val).trans_lt (k.isLt.trans (by decide))

def twoFrames : Nat → Option VideoFrame
  | 7 => some (packetFrame 0)
  | 8 => some (packetFrame 1)
  | _ => none

/-- The last completed frame was delivered, and frames are handed over to an empty queue. -/
def Undisturbed (v : Viewer) : ReceiverInput → Prop
  | .datagram _ _ => v.receiver.client.reassembler.latestCompletedId =
      v.delivered.getLast?.map (·.frameId)
  | .perform _ => v.receiver.client.queue.queue = [] ∧ v.receiver.client.queue.current = none
  | _ => True

instance (v : Viewer) (input : ReceiverInput) : Decidable (Undisturbed v input) := by
  cases input <;> unfold Undisturbed <;> infer_instance

end EvertyDesk.EvrtClient
