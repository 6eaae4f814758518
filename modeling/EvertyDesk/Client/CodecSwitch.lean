import EvertyDesk.Client.DecodeLoop
import EvertyDesk.Host.SendLoop

/-!
A stream of frames with switches of the codec, from the host's send loop over a
network that keeps the order to the client's decoders. The name of a codec comes
before its frames up to the client's receive thread, and then takes another way than
they do.

A name must not be read while older frames for another decoder wait, and a frame must
not be taken while a name from before it is unread; then each frame gets the decoder
of its codec.
-/

namespace EvertyDesk.EvrtClient

open Evrt Reassembler FrameQueue Host EvrtSession

/-! The system. -/

/-- The decoder for frames of a codec. -/
def decoderFor : CodecLabel → Option Decoder
  | .h264 => some .h264
  | .h265 => some .h265
  | .av1 => some .av1
  | .png => none
  | .evrtck => some .evrtck

def Decoded.Ok (d : Decoded) : Prop :=
  ∃ codec, d.encodedWith = some codec ∧ decoderFor codec = some d.decoder

structure Stream where
  sender : SendLoop
  /-- The datagrams on their way, in order. -/
  network : List InFlight
  client : Client

inductive StreamInput where
  | takeFrame (frame : SendFrame) (fps : UInt32)
  | requestKeyFrame
  | receive (now : Nat) (due : Bool)
  | perform (now : Nat)
  | setJitterDelay (delay : Nat)
  | waitForKeyframe
  | close
  | readName
  | dequeuePass (cancel : Bool) (now : Nat)

namespace Stream

def start (queueCfg : FrameQueueConfig) (initialCodec : CodecLabel) : Stream where
  sender := SendLoop.start initialCodec
  network := []
  client := Client.start queueCfg (announcedText initialCodec)

variable (iter : IterOrder Nat) (sha : Sha256) (cfg : SendConfig) (s : Stream)

/-- The receive thread takes the next datagram when it is done with the last one. -/
def receive (now : Nat) (due : Bool) : Stream :=
  match s.client.duties, s.network with
  | [], datagram :: network =>
      { s with
        network := network
        client := s.client.receive iter sha cfg.sessionToken datagram now due }
  | _, _ => s

def withQueue (queue : Inner) : Stream := { s with client := { s.client with queue := queue } }

def step : StreamInput → Stream × Option Decoded
  | .takeFrame frame fps =>
      let (sender, datagrams) := s.sender.takeFrame sha cfg frame fps
      ({ s with
        sender := sender
        network := s.network ++ datagrams.map (⟨·, frame.codec⟩) }, none)
  | .requestKeyFrame => ({ s with sender := s.sender.requestKeyFrame }, none)
  | .receive now due => (s.receive iter sha cfg now due, none)
  | .perform now => ({ s with client := s.client.perform now }, none)
  | .setJitterDelay delay => (s.withQueue (s.client.queue.setJitterDelay delay), none)
  | .waitForKeyframe => (s.withQueue s.client.queue.waitForKeyframe, none)
  | .close => (s.withQueue s.client.queue.close, none)
  | .readName => ({ s with client := s.client.readName }, none)
  | .dequeuePass cancel now =>
      let (client, decoded) := s.client.dequeuePass cancel now
      ({ s with client := client }, decoded)

end Stream

def stream (iter : IterOrder Nat) (sha : Sha256) (cfg : SendConfig) :
    Machine Stream StreamInput (Option Decoded) where
  step := Stream.step iter sha cfg

/-! The guard. -/

/-- The frames that wait to be decoded. -/
def held (g : Inner) : List QueuedUnit := g.current.toList ++ g.queue

/-- A frame that is sent has a decoder, which its parameter sets do not change. -/
def Announceable (frame : SendFrame) : Prop :=
  (decoderFor frame.codec).isSome ∧
    ∀ config, frame.isIdr = true → frame.spsPps = some config →
      isCodecName config = true → ∀ name, codecName config = some name →
        decoderFor frame.codec = some (decoderOf name)

/-- No name overtakes frames for another decoder, and no frame overtakes a name that
changes the decoder. -/
def Stream.KeepsOrder (sha : Sha256) (cfg : SendConfig) (s : Stream) : StreamInput → Prop
  | .takeFrame frame _ =>
      (s.sender.announce sha cfg frame).1.skips frame = false → Announceable frame
  | .readName => s.client.phase = .readingNames →
      ∀ first, s.client.names.head? = some first → ∀ unit ∈ held s.client.queue,
        unit.seq < first.after → ∀ codec, s.client.handedOver[unit.seq]? = some codec →
          decoderFor codec = some (decoderOf first.setting)
  | .dequeuePass cancel now => s.client.phase = .dequeuing →
      ∀ unit, (s.client.queue.dequeuePass cancel now).2 = .returned unit →
        decoderOf (Switch.inForce s.client.names s.client.codec unit.seq) = decoderOf s.client.codec
  | _ => True

/-! The queue. -/

section Queue

variable {g : Inner} {unit : QueuedUnit}

/-- What a cleared queue still holds. -/
theorem held_of_emptied {cleared : Inner} (h : g.Emptied cleared) {old : QueuedUnit}
    (hold : old ∈ held cleared) : old ∈ held g := by
  rw [held, h.queue, List.append_nil] at hold
  rcases h.current with hsame | hnone
  · rw [hsame] at hold
    exact List.mem_append_left _ hold
  · rw [hnone] at hold
    cases hold

theorem held_push {old : QueuedUnit} (h : old ∈ held (g.push unit)) :
    old ∈ held g ∨ old = unit := by
  rw [held, Inner.push_current, Inner.push_queue, ← List.append_assoc] at h
  rcases List.mem_append.mp h with hold | hnew
  · exact .inl hold
  · exact .inr (List.mem_singleton.mp hnew)

theorem held_enqueueInner {old : QueuedUnit} (h : old ∈ held (g.enqueueInner unit)) :
    old ∈ held g ∨ old = unit := by
  rcases g.enqueueInner_cases unit with ⟨_, hsame⟩ | ⟨_, hrefused⟩ |
    ⟨cleared, hempty, _, htaken⟩ | ⟨cleared, hempty, hlost⟩ | ⟨_, _, hpushed⟩
  · rw [hsame] at h
    exact .inl h
  · rw [hrefused] at h
    exact .inl h
  · rw [htaken] at h
    rcases held_push h with hold | hnew
    · exact .inl (held_of_emptied hempty hold)
    · exact .inr hnew
  · rw [hlost] at h
    exact .inl (held_of_emptied hempty h)
  · rw [hpushed] at h
    exact held_push h

theorem enqueueInner_calls : (g.enqueueInner unit).calls = g.calls := by
  rcases g.enqueueInner_cases unit with ⟨_, hsame⟩ | ⟨_, hrefused⟩ |
    ⟨cleared, hempty, _, htaken⟩ | ⟨cleared, hempty, hlost⟩ | ⟨_, _, hpushed⟩
  · rw [hsame]
  · rw [hrefused]
    rfl
  · rw [htaken]
    exact hempty.calls
  · rw [hlost]
    exact hempty.calls
  · rw [hpushed]
    rfl

/-- A queue that is ordered has only some of another one's frames, and counts the
same calls. -/
structure Loses (g g' : Inner) : Prop where
  ordered : Ordered g → Ordered g'
  held : ∀ unit ∈ held g', unit ∈ EvrtClient.held g
  calls : g'.calls = g.calls

theorem loses_setJitterDelay (delay : Nat) : Loses g (g.setJitterDelay delay) :=
  ⟨fun h => h.step (.setJitterDelay delay), fun _ hunit => hunit, rfl⟩

theorem loses_waitForKeyframe : Loses g g.waitForKeyframe := by
  refine ⟨fun h => h.step .waitForKeyframe, ?_, ?_⟩
  · intro unit hunit
    unfold Inner.waitForKeyframe at hunit
    split at hunit
    · exact hunit
    · exact held_of_emptied g.emptied_dropCurrentOnWait hunit
  · unfold Inner.waitForKeyframe
    split
    · rfl
    · exact g.emptied_dropCurrentOnWait.calls

theorem loses_close : Loses g g.close := by
  refine ⟨fun h => h.step .close, ?_, by simp [Inner.close]⟩
  intro unit hunit
  simp [held, Inner.close] at hunit

theorem held_advance : held g.advance = held g := by
  unfold Inner.advance held
  split
  next hcurrent hqueue => simp [hcurrent, hqueue]
  · rfl

theorem advance_calls : g.advance.calls = g.calls := by
  unfold Inner.advance
  split <;> rfl

/-- A pass takes a frame out, or leaves all of them. -/
theorem loses_dequeuePass (cancel : Bool) (now : Nat) :
    Loses g (g.dequeuePass cancel now).1 ∧
      ∀ unit, (g.dequeuePass cancel now).2 = .returned unit → unit ∈ held g := by
  constructor
  · refine ⟨fun h => h.step (.dequeuePass cancel now), ?_, ?_⟩
    · intro unit hunit
      unfold Inner.dequeuePass at hunit
      split at hunit
      · exact hunit
      · dsimp only at hunit
        rw [← held_advance]
        split at hunit
        · split at hunit
          · exact hunit
          · exact List.mem_append_right _ hunit
        · exact hunit
    · unfold Inner.dequeuePass
      split
      · rfl
      · dsimp only
        split
        · split
          · exact advance_calls
          · exact advance_calls
        · exact advance_calls
  · intro unit hunit
    unfold Inner.dequeuePass at hunit
    split at hunit
    · cases hunit
    · dsimp only at hunit
      rw [← held_advance]
      split at hunit
      next hcurrent =>
        split at hunit
        · cases hunit
        · cases hunit
          rw [held, hcurrent]
          exact List.mem_append_left _ (List.mem_singleton.mpr rfl)
      · cases hunit

end Queue

/-! The client. -/

namespace Client

/-- The codec that the frames received next are of. -/
def announced (c : Client) : String := Switch.latest c.names c.codec

/-- Every frame that is in the client is for the decoder that the names before it
ask for. -/
structure Consistent (c : Client) : Prop where
  duties : ∀ delivery codec, .enqueue delivery codec ∈ c.duties →
    decoderFor codec = some (decoderOf c.announced)
  ordered : Ordered c.queue
  counted : c.handedOver.length = c.queue.calls
  switches : ∀ switch ∈ c.names, switch.after ≤ c.queue.calls
  held : ∀ unit ∈ held c.queue, ∃ codec, c.handedOver[unit.seq]? = some codec ∧
    decoderFor codec = some (decoderOf (Switch.inForce c.names c.codec unit.seq))

section Steps

variable {c : Client}

theorem consistent_start (queueCfg : FrameQueueConfig) (codec : String) :
    (start queueCfg codec).Consistent where
  duties := nofun
  ordered := Ordered.new queueCfg
  counted := rfl
  switches := nofun
  held := nofun

/-- The queue may lose frames. -/
theorem Consistent.loses (h : c.Consistent) {queue : Inner} (hqueue : Loses c.queue queue) :
    { c with queue := queue }.Consistent where
  duties := h.duties
  ordered := hqueue.ordered h.ordered
  counted := h.counted.trans hqueue.calls.symm
  switches := by
    intro switch hswitch
    rw [hqueue.calls]
    exact h.switches switch hswitch
  held := fun unit hunit => h.held unit (hqueue.held unit hunit)

/-- A frame that is handed over comes after all names. -/
theorem Consistent.enqueue (h : c.Consistent) {codec : CodecLabel} (bytes : List UInt8)
    (isKeyFrame : Bool) (pts now : Nat)
    (hcodec : decoderFor codec = some (decoderOf c.announced)) :
    { c with
      queue := c.queue.enqueue bytes isKeyFrame pts now
      handedOver := c.handedOver ++ [codec] }.Consistent := by
  have hcalls : (c.queue.enqueue bytes isKeyFrame pts now).calls = c.queue.calls + 1 :=
    enqueueInner_calls
  refine ⟨h.duties, h.ordered.step (.enqueue bytes isKeyFrame pts now), ?_, ?_, ?_⟩
  · rw [List.length_append, h.counted]
    exact hcalls.symm
  · intro switch hswitch
    have hbefore := h.switches switch hswitch
    rw [hcalls]
    omega
  · intro unit hunit
    rcases held_enqueueInner hunit with hold | rfl
    · have hseq : unit.seq < c.handedOver.length := by
        rw [h.counted]
        exact h.ordered.bounded unit hold
      obtain ⟨encoded, hencoded, hdecoder⟩ := h.held unit hold
      exact ⟨encoded, by rw [List.getElem?_append_left hseq, hencoded], hdecoder⟩
    · refine ⟨codec, ?_, ?_⟩
      · rw [List.getElem?_append_right (Nat.le_of_eq h.counted), h.counted]
        simp
      · rw [Switch.inForce_eq_latest h.switches]
        exact hcodec

/-- A duty is done. -/
theorem Consistent.done (h : c.Consistent) {duty : Duty} {duties : List Duty}
    (hduties : c.duties = duty :: duties) : { c with duties := duties }.Consistent := by
  refine ⟨?_, h.ordered, h.counted, h.switches, h.held⟩
  intro delivery codec hmem
  apply h.duties delivery codec
  rw [hduties]
  exact List.mem_cons_of_mem _ hmem

theorem perform_consistent (h : c.Consistent) (now : Nat) : (c.perform now).Consistent := by
  unfold perform
  split
  · exact h
  next delivery codec duties hduties =>
    have hcodec : decoderFor codec = some (decoderOf c.announced) := by
      apply h.duties delivery codec
      rw [hduties]
      exact List.mem_cons_self
    exact (h.done hduties).enqueue _ _ _ now hcodec
  next duties hduties => exact (h.done hduties).loses loses_waitForKeyframe

theorem perform_announced (now : Nat) : (c.perform now).announced = c.announced := by
  unfold perform
  split <;> rfl

/-- A name that is read does not change what has been announced. -/
theorem readName_announced : c.readName.announced = c.announced := by
  unfold readName
  split
  · rfl
  next hnames =>
    rw [announced, announced, hnames]
    rfl
  · rfl

theorem readName_consistent (h : c.Consistent)
    (hfirst : c.phase = .readingNames → ∀ first, c.names.head? = some first →
      ∀ unit ∈ EvrtClient.held c.queue, unit.seq < first.after →
        ∀ codec, c.handedOver[unit.seq]? = some codec →
          decoderFor codec = some (decoderOf first.setting)) :
    c.readName.Consistent := by
  have hannounced := c.readName_announced
  unfold readName at hannounced ⊢
  split
  · exact ⟨h.duties, h.ordered, h.counted, h.switches, h.held⟩
  next first names hphase hnames =>
    rw [hphase, hnames] at hannounced
    refine ⟨?_, h.ordered, h.counted, ?_, ?_⟩
    · intro delivery codec hmem
      have hcodec := h.duties delivery codec hmem
      rw [← hannounced] at hcodec
      exact hcodec
    · intro switch hswitch
      exact h.switches switch (by rw [hnames]; exact List.mem_cons_of_mem _ hswitch)
    · intro unit hunit
      obtain ⟨codec, hencoded, hdecoder⟩ := h.held unit hunit
      refine ⟨codec, hencoded, ?_⟩
      rcases Switch.inForce_make names first c.codec unit.seq with hsame | ⟨hbefore, hnew⟩
      · dsimp only
        rw [hsame, ← hnames]
        exact hdecoder
      · dsimp only
        rw [hnew]
        exact hfirst hphase first (by rw [hnames]; rfl) unit hunit hbefore codec hencoded
  · exact h

theorem dequeuePass_consistent (h : c.Consistent) (cancel : Bool) (now : Nat) :
    (c.dequeuePass cancel now).1.Consistent := by
  have hqueue := h.loses (loses_dequeuePass cancel now).1
  unfold dequeuePass
  split
  · split
    next hpass =>
      rw [hpass] at hqueue
      exact ⟨hqueue.duties, hqueue.ordered, hqueue.counted, hqueue.switches, hqueue.held⟩
    next hpass =>
      rw [hpass] at hqueue
      exact ⟨hqueue.duties, hqueue.ordered, hqueue.counted, hqueue.switches, hqueue.held⟩
    next hpass =>
      rw [hpass] at hqueue
      exact hqueue
  · exact h

theorem dequeuePass_announced (cancel : Bool) (now : Nat) :
    (c.dequeuePass cancel now).1.announced = c.announced := by
  unfold dequeuePass
  split
  · split <;> rfl
  · rfl

/-- A frame that is taken in its turn gets the decoder of its codec. -/
theorem dequeuePass_ok (h : c.Consistent) {cancel : Bool} {now : Nat}
    (hturn : c.phase = .dequeuing →
      ∀ unit, (c.queue.dequeuePass cancel now).2 = .returned unit →
        decoderOf (Switch.inForce c.names c.codec unit.seq) = decoderOf c.codec)
    {decoded : Decoded} (hdecoded : (c.dequeuePass cancel now).2 = some decoded) :
    decoded.Ok := by
  have hmem := (loses_dequeuePass (g := c.queue) cancel now).2
  unfold dequeuePass at hdecoded
  split at hdecoded
  next hphase =>
    split at hdecoded
    next unit hpass =>
      cases hdecoded
      rw [hpass] at hmem
      obtain ⟨codec, hencoded, hdecoder⟩ := h.held unit (hmem unit rfl)
      have hsame := hturn hphase unit (by rw [hpass])
      exact ⟨codec, hencoded, hsame ▸ hdecoder⟩
    · cases hdecoded
    · cases hdecoded
  · cases hdecoded

section Receiving

variable {iter : IterOrder Nat} {sha : Sha256} {sessionToken : Option (List UInt8)}
  {datagram : InFlight} {now : Nat} {due : Bool}

theorem lossDuties_no_frame (reassembler : ChannelReassembler) :
    ∀ delivery codec, .enqueue delivery codec ∉
      c.lossDuties sha sessionToken reassembler datagram due := by
  intro delivery codec hmem
  unfold lossDuties at hmem
  split at hmem
  · split at hmem
    · cases List.mem_singleton.mp hmem
    · cases hmem
  · cases hmem

theorem receive_announced : (c.receive iter sha sessionToken datagram now due).announced =
    (nameIn sha sessionToken datagram.bytes).getD c.announced := by
  unfold receive
  rcases onDatagram_cases iter sha sessionToken c.reassembler datagram.bytes now with
    ⟨name, hname, _, hstep⟩ | ⟨config, hname, _, hstep⟩ | ⟨hname, _, hstep⟩
  · rw [hstep, hname]
    exact Switch.latest_append
  · rw [hstep, hname]
    rfl
  · rw [hstep, hname]
    dsimp only
    cases (Reassembler.receive iter sha sessionToken c.reassembler datagram.bytes now).2 <;>
      rfl

theorem receive_consistent (h : c.Consistent)
    (hcodec : nameIn sha sessionToken datagram.bytes = none →
      decoderFor datagram.codec = some (decoderOf c.announced)) :
    (c.receive iter sha sessionToken datagram now due).Consistent := by
  unfold receive
  rcases onDatagram_cases iter sha sessionToken c.reassembler datagram.bytes now with
    ⟨name, hname, _, hstep⟩ | ⟨config, hname, _, hstep⟩ | ⟨hname, _, hstep⟩
  · rw [hstep]
    refine ⟨?_, h.ordered, h.counted, ?_, ?_⟩
    · intro delivery codec hmem
      exact absurd hmem (lossDuties_no_frame _ delivery codec)
    · intro switch hswitch
      rcases List.mem_append.mp hswitch with hold | hnew
      · exact h.switches switch hold
      · rw [List.mem_singleton.mp hnew]
    · intro unit hunit
      obtain ⟨codec, hencoded, hdecoder⟩ := h.held unit hunit
      refine ⟨codec, hencoded, ?_⟩
      rw [Switch.inForce_append (h.ordered.bounded unit hunit)]
      exact hdecoder
  · rw [hstep]
    refine ⟨?_, h.ordered, h.counted, h.switches, h.held⟩
    intro delivery codec hmem
    exact absurd hmem (lossDuties_no_frame _ delivery codec)
  · rw [hstep]
    dsimp only
    cases (Reassembler.receive iter sha sessionToken c.reassembler datagram.bytes now).2 with
    | none =>
        refine ⟨?_, h.ordered, h.counted, h.switches, h.held⟩
        intro delivery codec hmem
        exact absurd hmem (lossDuties_no_frame _ delivery codec)
    | some delivered =>
        refine ⟨?_, h.ordered, h.counted, h.switches, h.held⟩
        intro delivery codec hmem
        rcases List.mem_cons.mp hmem with heq | hloss
        · cases heq
          exact hcodec hname
        · exact absurd hloss (lossDuties_no_frame _ delivery codec)

end Receiving

end Steps

end Client

/-! The network. -/

section Network

variable {sha : Sha256}

/-- From the decoder for what was sent before them, the datagrams are each for the
decoder that the names before them ask for. -/
def Follows (sha : Sha256) (sessionToken : Option (List UInt8)) (decoder : Decoder) :
    List InFlight → Decoder → Prop
  | [], last => decoder = last
  | datagram :: rest, last =>
      match nameIn sha sessionToken datagram.bytes with
      | some name => Follows sha sessionToken (decoderOf name) rest last
      | none => decoderFor datagram.codec = some decoder ∧
          Follows sha sessionToken decoder rest last

theorem follows_append {sessionToken : Option (List UInt8)} {decoder middle last : Decoder}
    {sent more : List InFlight} (hsent : Follows sha sessionToken decoder sent middle)
    (hmore : Follows sha sessionToken middle more last) :
    Follows sha sessionToken decoder (sent ++ more) last := by
  induction sent generalizing decoder with
  | nil =>
      rw [Follows] at hsent
      exact hsent ▸ hmore
  | cons datagram sent ih =>
      rw [List.cons_append, Follows]
      rw [Follows] at hsent
      split
      next name hname =>
        rw [hname] at hsent
        exact ih hsent
      next hname =>
        rw [hname] at hsent
        exact ⟨hsent.1, ih hsent.2⟩

/-- Datagrams that change no decoder. -/
theorem follows_same {sessionToken : Option (List UInt8)} {decoder : Decoder}
    {codec : CodecLabel} (hcodec : decoderFor codec = some decoder)
    {datagrams : List (List UInt8)}
    (h : ∀ datagram ∈ datagrams, ∀ name, nameIn sha sessionToken datagram = some name →
      decoderOf name = decoder) :
    Follows sha sessionToken decoder (datagrams.map (⟨·, codec⟩)) decoder := by
  induction datagrams with
  | nil => rfl
  | cons datagram datagrams ih =>
      have hrest := ih fun other hother => h other (List.mem_cons_of_mem _ hother)
      rw [List.map_cons, Follows]
      dsimp only
      split
      next name hname =>
        rw [h datagram List.mem_cons_self name hname]
        exact hrest
      · exact ⟨hcodec, hrest⟩

/-- Only a payload that is a name is read as one. -/
theorem nameIn_codecConfig {sessionToken : Option (List UInt8)} {config : List UInt8} :
    nameIn sha sessionToken (buildCodecConfigAuthenticated sha config sessionToken) =
      if config.length ≤ baseMax sessionToken ∧ isCodecName config then codecName config
      else none := by
  unfold nameIn
  by_cases hfits : config.length ≤ baseMax sessionToken
  · have htravels := (codecConfig_travels sha hfits).2
    dsimp only at htravels
    rw [htravels]
    simp [codecConfigPacket, hfits]
  · have hempty : buildCodecConfigAuthenticated sha config sessionToken = [] :=
      if_pos (Nat.lt_of_not_le hfits)
    have hnothing : parseAuthenticated sha [] ([] : List UInt8).length sessionToken = none := by
      unfold parseAuthenticated
      split
      · rfl
      · rw [if_pos (.inl (by decide))]
    rw [hempty, hnothing, if_neg (by simp [hfits])]

/-- The datagrams of a frame are no names. -/
theorem nameIn_video {p : Packetizer} {frame : VideoFrame} {datagram : List UInt8}
    (h : datagram ∈ (p.emit sha frame).1 ++ (p.emit sha frame).2) :
    nameIn sha p.sessionToken datagram = none := by
  by_cases hfew : p.sliceCount frame ≤ maxFramePacketCount
  · rw [Packetizer.emit_slices sha hfew, Packetizer.emit_groups sha hfew] at h
    rcases List.mem_append.mp h with hdata | hfec
    · obtain ⟨index, hindex, rfl⟩ := List.mem_map.mp hdata
      have htravels := (Packetizer.dataPacket_travels sha hfew (List.mem_range.mp hindex)).2
      rw [p.read_eq] at htravels
      have hvideo : (p.dataPacket frame index).packetType ≠ typeCodecConfig := by
        cases p <;> exact Nat.ne_of_beq_eq_false rfl
      unfold nameIn
      rw [htravels]
      exact if_neg fun hconfig => hvideo hconfig.1
    · obtain ⟨index, hindex, rfl⟩ := List.mem_map.mp hfec
      have htravels := (Packetizer.fecPacket_travels sha hfew (List.mem_range.mp hindex)).2
      rw [p.read_eq] at htravels
      have hparity : (p.fecPacket frame index).packetType ≠ typeCodecConfig :=
        Nat.ne_of_beq_eq_false rfl
      unfold nameIn
      rw [htravels]
      exact if_neg fun hconfig => hparity hconfig.1
  · rw [Packetizer.emit_nothing sha (Nat.lt_of_not_le hfew)] at h
    cases h

/-! The host. -/

/-- Names are told apart without regard to case. -/
theorem decoderOf_of_upper {codec other : String} (h : codec.toUpper = other.toUpper) :
    decoderOf codec = decoderOf other := by
  unfold decoderOf
  rw [h]

theorem decoderFor_text {codec : CodecLabel} (h : (decoderFor codec).isSome) :
    decoderFor codec = some (decoderOf (codecText codec)) := by
  cases codec with
  | png => cases h
  | h264 => decide +kernel
  | h265 => decide +kernel
  | av1 => decide +kernel
  | evrtck => decide +kernel

theorem announcedText_bytes (codec : CodecLabel) :
    (announcedText codec).toUTF8.data.toList.length ≤ 6 ∧
      isCodecName (announcedText codec).toUTF8.data.toList = true ∧
      codecName (announcedText codec).toUTF8.data.toList = some (announcedText codec) := by
  cases codec <;> decide +kernel

/-- The name of a codec is read as such. -/
theorem nameIn_text (sessionToken : Option (List UInt8)) (codec : CodecLabel) :
    nameIn sha sessionToken (buildCodecConfigAuthenticated sha
      (codecText codec).toUpper.toUTF8.data.toList sessionToken) =
      some (codecText codec).toUpper := by
  have hbase : 6 ≤ baseMax sessionToken := by
    unfold baseMax
    split <;> decide
  obtain ⟨hlength, hname, htext⟩ := announcedText_bytes codec
  rw [codecText_upper, nameIn_codecConfig, if_pos ⟨hlength.trans hbase, hname⟩, htext]

section Sending

variable {cfg : SendConfig} {s : SendLoop} {frame : SendFrame}

/-- What is announced is the codec of the frame. -/
theorem announce_follows (sha : Sha256) (cfg : SendConfig) (s : SendLoop)
    (frame : SendFrame) : Follows sha cfg.sessionToken (decoderOf s.currentCodec)
      ((s.announce sha cfg frame).2.map (⟨·, frame.codec⟩))
      (decoderOf (s.announce sha cfg frame).1.currentCodec) ∧
    decoderOf (s.announce sha cfg frame).1.currentCodec = decoderOf (codecText frame.codec) := by
  unfold SendLoop.announce
  split
  next hsame => exact ⟨rfl, decoderOf_of_upper hsame.symm⟩
  · constructor
    · simp only [List.map_cons, List.map_nil, Follows, nameIn_text]
    · apply decoderOf_of_upper
      dsimp only
      rw [codecText_upper]
      cases frame.codec <;> decide +kernel

theorem configPackets_same (h : Announceable frame) :
    Follows sha cfg.sessionToken (decoderOf (codecText frame.codec))
      ((SendLoop.configPackets sha cfg frame).map (⟨·, frame.codec⟩))
      (decoderOf (codecText frame.codec)) := by
  apply follows_same (decoderFor_text h.1)
  intro datagram hmem name hname
  unfold SendLoop.configPackets at hmem
  split at hmem
  next hidr =>
    split at hmem
    next config hconfig =>
      obtain rfl : datagram = buildCodecConfigAuthenticated sha config cfg.sessionToken := by
        simpa using hmem
      rw [nameIn_codecConfig] at hname
      split at hname
      next hread =>
        have hdecoder := h.2 config hidr hconfig hread.2 name hname
        rw [decoderFor_text h.1] at hdecoder
        exact (Option.some.inj hdecoder).symm
      · cases hname
    · cases hmem
  · cases hmem

theorem video_same (h : Announceable frame) (video : VideoFrame) :
    Follows sha cfg.sessionToken (decoderOf (codecText frame.codec))
      ((((SendLoop.packetizer cfg).emit sha video).1 ++
        ((SendLoop.packetizer cfg).emit sha video).2).map (⟨·, frame.codec⟩))
      (decoderOf (codecText frame.codec)) := by
  have htoken : (SendLoop.packetizer cfg).sessionToken = cfg.sessionToken := by
    unfold SendLoop.packetizer
    split <;> rfl
  apply follows_same (decoderFor_text h.1)
  intro datagram hmem name hname
  rw [← htoken, nameIn_video hmem] at hname
  cases hname

/-- The datagrams that a frame leads to follow what was sent before. -/
theorem takeFrame_follows (h : (s.announce sha cfg frame).1.skips frame = false →
      Announceable frame) (fps : UInt32) :
    Follows sha cfg.sessionToken (decoderOf s.currentCodec)
      ((s.takeFrame sha cfg frame fps).2.map (⟨·, frame.codec⟩))
      (decoderOf (s.takeFrame sha cfg frame fps).1.currentCodec) := by
  obtain ⟨hnames, hcodec⟩ := announce_follows sha cfg s frame
  unfold SendLoop.takeFrame
  cases hannounce : s.announce sha cfg frame with
  | mk next names =>
      rw [hannounce] at h hnames hcodec
      dsimp only at h hnames hcodec ⊢
      split
      · exact hnames
      next hsent =>
        have hframe := h (Bool.eq_false_of_not_eq_true hsent)
        have hlast : (if frame.isIdr = true then { next with waitingForIdr := false }
            else next).currentCodec = next.currentCodec := by
          split <;> rfl
        dsimp only
        rw [hlast, hcodec, List.append_assoc, List.map_append, List.map_append]
        rw [hcodec] at hnames
        rw [List.append_assoc]
        exact follows_append hnames
          (follows_append (configPackets_same hframe) (video_same hframe _))

end Sending

end Network

/-! Runs. -/

namespace Stream

variable {iter : IterOrder Nat} {sha : Sha256} {cfg : SendConfig} {s : Stream}

structure Consistent (sha : Sha256) (cfg : SendConfig) (s : Stream) : Prop where
  client : s.client.Consistent
  network : Follows sha cfg.sessionToken (decoderOf s.client.announced) s.network
    (decoderOf s.sender.currentCodec)

theorem receive_consistent (h : s.Consistent sha cfg) (now : Nat) (due : Bool) :
    (s.receive iter sha cfg now due).Consistent sha cfg := by
  unfold receive
  split
  next datagram network hduties hnetwork =>
    have hfollows := h.network
    rw [hnetwork, Follows] at hfollows
    constructor
    · apply Client.receive_consistent h.client
      intro hname
      rw [hname] at hfollows
      exact hfollows.1
    · dsimp only
      rw [Client.receive_announced]
      split at hfollows
      next name hname =>
        rw [hname]
        exact hfollows
      next hname =>
        rw [hname]
        exact hfollows.2
  · exact h

theorem step_consistent {input : StreamInput} (h : s.Consistent sha cfg)
    (horder : s.KeepsOrder sha cfg input) :
    (s.step iter sha cfg input).1.Consistent sha cfg ∧
      ∀ decoded, (s.step iter sha cfg input).2 = some decoded → decoded.Ok := by
  cases input with
  | takeFrame frame fps =>
      refine ⟨⟨h.client, ?_⟩, nofun⟩
      exact follows_append h.network (takeFrame_follows horder fps)
  | requestKeyFrame => exact ⟨⟨h.client, h.network⟩, nofun⟩
  | receive now due => exact ⟨receive_consistent h now due, nofun⟩
  | perform now =>
      refine ⟨⟨Client.perform_consistent h.client now, ?_⟩, nofun⟩
      unfold step
      dsimp only
      rw [Client.perform_announced]
      exact h.network
  | setJitterDelay delay =>
      exact ⟨⟨h.client.loses (loses_setJitterDelay delay), h.network⟩, nofun⟩
  | waitForKeyframe => exact ⟨⟨h.client.loses loses_waitForKeyframe, h.network⟩, nofun⟩
  | close => exact ⟨⟨h.client.loses loses_close, h.network⟩, nofun⟩
  | readName =>
      refine ⟨⟨Client.readName_consistent h.client horder, ?_⟩, nofun⟩
      unfold step
      dsimp only
      rw [Client.readName_announced]
      exact h.network
  | dequeuePass cancel now =>
      refine ⟨⟨Client.dequeuePass_consistent h.client cancel now, ?_⟩, ?_⟩
      · unfold step
        dsimp only
        rw [Client.dequeuePass_announced]
        exact h.network
      · intro decoded hdecoded
        exact Client.dequeuePass_ok h.client horder hdecoded

theorem consistent_start (queueCfg : FrameQueueConfig) (initialCodec : CodecLabel) :
    (start queueCfg initialCodec).Consistent sha cfg where
  client := Client.consistent_start queueCfg _
  network := by
    change decoderOf (announcedText initialCodec) = decoderOf (announcedText initialCodec).toUpper
    cases initialCodec <;> decide +kernel

end Stream

/-- In every run that keeps the order of names and frames, each frame is decoded by
the decoder of the codec that it was encoded with. -/
theorem frames_keep_decoders {iter : IterOrder Nat} {sha : Sha256} {cfg : SendConfig}
    {queueCfg : FrameQueueConfig} {initialCodec : CodecLabel} {inputs : List StreamInput}
    (h : (stream iter sha cfg).Along (Stream.KeepsOrder sha cfg)
      (Stream.start queueCfg initialCodec) inputs) :
    ∀ output ∈ (stream iter sha cfg).outputs (Stream.start queueCfg initialCodec) inputs,
      ∀ decoded, output = some decoded → decoded.Ok :=
  (stream iter sha cfg).outputs_forall (fun _ _ => Stream.step_consistent)
    (Stream.consistent_start queueCfg initialCodec) h

/-- A key frame of EVRTCK. -/
def evrtckFrame : SendFrame where
  bytes := [1, 2, 3]
  isIdr := true
  frameId := 1
  spsPps := none
  codec := .evrtck

def noToken : SendConfig where
  sessionToken := none
  fecEnabled := true

/-- The codec is announced, and then the frame comes in one datagram. -/
def arrive : List StreamInput := [.receive 0 false, .receive 1 false, .receive 2 false, .perform 3]

/-- The decode loop reads the names after that. -/
theorem frames_keep_decoders_in_turn :
    some ⟨[1, 2, 3], true, some .evrtck, .evrtck⟩ ∈
        (stream (IterOrder.stored _) Packetizer.zeroDigest noToken).outputs
          (Stream.start .default .h264) (.takeFrame evrtckFrame 30 :: arrive ++
            [.readName, .readName, .readName, .dequeuePass false 4]) ∧
      Decoded.Ok ⟨[1, 2, 3], true, some .evrtck, .evrtck⟩ := by
  have hdecoded : some ⟨[1, 2, 3], true, some .evrtck, .evrtck⟩ ∈
      (stream (IterOrder.stored _) Packetizer.zeroDigest noToken).outputs
        (Stream.start .default .h264) (.takeFrame evrtckFrame 30 :: arrive ++
          [.readName, .readName, .readName, .dequeuePass false 4]) := by
    decide +kernel
  refine ⟨hdecoded, frames_keep_decoders ?_ _ hdecoded _ rfl⟩
  refine ⟨?_, trivial, trivial, trivial, trivial, ?_, ?_, ?_, ?_, trivial⟩
  · intro _
    exact ⟨rfl, fun config _ hconfig => nomatch hconfig⟩
  · intro _ first hfirst unit _ hbefore
    obtain rfl : (⟨"EVRTCK", 0⟩ : Switch String) = first :=
      Option.some.inj (Eq.trans (by decide +kernel) hfirst)
    exact absurd hbefore (Nat.not_lt_zero _)
  · intro _ first hfirst unit _ hbefore
    obtain rfl : (⟨"EVRTCK", 0⟩ : Switch String) = first :=
      Option.some.inj (Eq.trans (by decide +kernel) hfirst)
    exact absurd hbefore (Nat.not_lt_zero _)
  · intro _ first hfirst
    exact absurd (Eq.trans (by decide +kernel) hfirst) (Option.some_ne_none first).symm
  · intro _ unit _
    have hread : ∀ (names : List (Switch String)) (codec : String), names = [] →
        decoderOf (Switch.inForce names codec unit.seq) = decoderOf codec := by
      rintro names codec rfl
      rfl
    apply hread
    decide +kernel

/-- The decode loop waits for a frame while the name comes. -/
theorem frame_overtakes_name :
    ¬ ∀ (iter : IterOrder Nat) (sha : Sha256) (cfg : SendConfig)
      (queueCfg : FrameQueueConfig) (initialCodec : CodecLabel) (inputs : List StreamInput),
      ∀ output ∈ (stream iter sha cfg).outputs (Stream.start queueCfg initialCodec) inputs,
        ∀ decoded, output = some decoded → decoded.Ok := by
  intro hall
  have hdecoded : some ⟨[1, 2, 3], true, some .evrtck, .h264⟩ ∈
      (stream (IterOrder.stored _) Packetizer.zeroDigest noToken).outputs
        (Stream.start .default .h264) (.takeFrame evrtckFrame 30 :: .readName :: arrive ++
          [.dequeuePass false 4]) := by
    decide +kernel
  obtain ⟨codec, hcodec, hdecoder⟩ := hall _ _ _ _ _ _ _ hdecoded _ rfl
  cases hcodec
  cases hdecoder

end EvertyDesk.EvrtClient
