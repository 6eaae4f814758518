import EvertyDesk.Client.FrameAssembly
import EvertyDesk.Client.ReassemblerSteps
import Mathlib.Data.List.Induction

/-!
Exactness of reassembly. The datagrams that arrive are those of some set of
frames, in any order, with any loss and any repetition; whatever is delivered
is then the payload of one of these frames, behind the codec configuration if
it is a key frame. What parity recovers is the lost piece itself, in its own
slot.
-/

namespace EvertyDesk.Reassembler

open ChannelReassembler Evrt

/-- What reaches the client, in any order. -/
inductive Arrival where
  | datagram (bytes : List UInt8) (now : Nat)
  | setCodecConfig (payload : List UInt8)
  | reset

section

variable (iter : IterOrder Nat) (sha : Sha256)
variable (sessionToken : Option (List UInt8))

/-- The receive loop's dispatch of video and parity packets. -/
def receive (r : ChannelReassembler) (datagram : List UInt8) (now : Nat) :
    ChannelReassembler × Option Delivery :=
  match parseAuthenticated sha datagram datagram.length sessionToken with
  | none => (r, none)
  | some pkt =>
      if pkt.packetType = typeFec then r.onFecPacket pkt now
      else if pkt.packetType = typeVideoFrame then r.onPacket iter pkt now
      else (r, none)

/-- The reassembler behind the parser, as a machine over arrivals. -/
def client : Machine ChannelReassembler Arrival (Option Delivery) where
  step r arrival :=
    match arrival with
    | .datagram bytes now => receive iter sha sessionToken r bytes now
    | .setCodecConfig payload => (r.setCodecConfig payload, none)
    | .reset => (r.reset, none)

/-- The codec configuration set last. -/
def lastConfig (arrivals : List Arrival) : Option (List UInt8) :=
  arrivals.foldl (fun config arrival =>
    match arrival with
    | .setCodecConfig payload => some payload
    | _ => config) none

/-- A frame of the sender, under its own number. -/
def Sends (source : Nat → Option VideoFrame) (id : Nat) (frame : VideoFrame) :
    Prop :=
  source id = some frame ∧ frame.frameId = id

/-- Every datagram that arrives was made from one of the sender's frames. -/
def Honest (source : Nat → Option VideoFrame) : Arrival → Prop
  | .datagram bytes _ => ∃ id frame, Sends source id frame ∧
      (bytes ∈ (frame.packetize sha sessionToken).1 ∨ bytes ∈ (frame.packetize sha sessionToken).2)
  | _ => True

/-- What the packets of a frame say. -/
def spec (frame : VideoFrame) : FrameSpec where
  frameId := frame.frameId
  isKeyFrame := frame.isKeyFrame
  presentationTimeUs := frame.presentationTimeUs
  pieces := frame.pieces sessionToken

/-- An unfinished frame holds only pieces of its frame, each in its slot. -/
def HonestFrame (source : Nat → Option VideoFrame) (id : Nat) (a : FrameAssembly) : Prop :=
  ∃ frame, Sends source id frame ∧ Assembles (spec sessionToken frame) a

/-- A parity packet is that of a group of its frame. -/
def HonestMeta (source : Nat → Option VideoFrame) (id : Nat) (fec : FecMeta) :
    Prop :=
  ∃ frame gi group, Sends source id frame ∧
    (frame.groups sessionToken)[gi]? = some group ∧
    (frame.pieces sessionToken).length ≤ maxFramePacketCount ∧
    fec = groupMeta id gi group

end

variable {iter : IterOrder Nat} {sha : Sha256}
variable {sessionToken : Option (List UInt8)} {source : Nat → Option VideoFrame}

private theorem honest_recoverable :
    Recoverable (HonestFrame sessionToken source) (HonestMeta sessionToken source) := by
  rintro id a fec index bytes a' ⟨frame, hsource, h⟩ ⟨frame', gi, group, hsends,
    hgroup, hlimit, rfl⟩ hrecover hset
  obtain rfl : frame = frame' := Option.some.inj (hsource.1.symm.trans hsends.1)
  obtain ⟨_, hsize, hbase⟩ := frame.group_length sessionToken hgroup
  have hmax : maxFramePacketCount = 16384 := rfl
  have height : fecGroupSize = 8 := rfl
  have hpieces : ∀ off < group.length, group[off]? =
      (frame.pieces sessionToken)[gi * fecGroupSize + off]? := fun off hoff =>
    frame.group_getElem? sessionToken hgroup (hoff.trans_le hsize)
  obtain ⟨off, rfl, hmember, _⟩ := fecRecoverOne_honest hsize (by omega) (by
      intro member hmember
      obtain ⟨off, hoff, rfl⟩ := List.getElem_of_mem hmember
      have hpiece := (hpieces off hoff).symm.trans (List.getElem?_eq_getElem hoff)
      have hlength := frame.piece_length_le sessionToken (List.mem_of_getElem? hpiece)
      have hchunk := VideoFrame.chunkSize_le sessionToken
      have hfits := VideoFrame.baseMax_le sessionToken
      have hpayload : maxPayloadSize = 1176 := rfl
      omega) (by
      intro off hoff part hpart
      rw [hpieces off hoff]
      exact h.parts _ part hpart) hrecover
  refine ⟨frame, hsource, h.set ?_ hset⟩
  change (frame.pieces sessionToken)[_]? = _
  rw [← hpieces off (List.getElem?_eq_some_iff.mp hmember).1]
  exact hmember

/-- A delivery is a frame of the sender: its payload, behind the codec
configuration if it is a key frame. -/
def Delivers (source : Nat → Option VideoFrame) (config : Option (List UInt8))
    (delivery : Delivery) : Prop :=
  ∃ frame, Sends source delivery.frameId frame ∧
    delivery.isKeyFrame = frame.isKeyFrame ∧
    delivery.presentationTimeUs = frame.presentationTimeUs ∧
    delivery.bytes = (if frame.isKeyFrame then config.getD [] else []) ++ frame.payload

private theorem delivers_of_outcome {r r' : ChannelReassembler} {id now : Nat}
    {out : Option Delivery}
    (h : Outcome (HonestFrame sessionToken source) r id now r' out) :
    r'.latestCodecConfig = r.latestCodecConfig ∧
      ∀ delivery, out = some delivery → Delivers source r.latestCodecConfig delivery := by
  rcases h with ⟨rfl, hsame⟩ | ⟨a, last, ⟨frame, hsends, ha⟩, hcomplete, hlast, hconfig, _, hfinish⟩
  · exact ⟨hsame.config, by simp⟩
  refine ⟨hconfig, ?_⟩
  intro delivery hdelivery
  have hjoin : a.join = frame.payload :=
    (ha.join hcomplete).trans (frame.pieces_flatten sessionToken)
  refine ⟨frame, ?_⟩
  cases hfinish with
  | key hkey =>
      obtain rfl := Option.some.inj hdelivery
      have hframe : frame.isKeyFrame = true := ha.isKeyFrame.symm.trans hkey
      exact ⟨hsends, hframe.symm, ha.time, by
        rw [hjoin, hlast.config, if_pos hframe]⟩
  | withheld => contradiction
  | delta hdelta =>
      obtain rfl := Option.some.inj hdelivery
      have hframe : frame.isKeyFrame = false := ha.isKeyFrame.symm.trans hdelta
      exact ⟨hsends, hframe.symm, ha.time, by simp [hjoin, hframe]⟩

private theorem onPacket_delivers {r : ChannelReassembler}
    (h : Holds (HonestFrame sessionToken source) (HonestMeta sessionToken source) r)
    {frame : VideoFrame} (hsends : Sends source frame.frameId frame)
    {index : Nat} {piece : List UInt8}
    (hpiece : (frame.pieces sessionToken)[index]? = some piece) (now : Nat) :
    let result := r.onPacket iter (frame.dataPacket sessionToken index piece) now
    Holds (HonestFrame sessionToken source) (HonestMeta sessionToken source) result.1 ∧
      result.1.latestCodecConfig = r.latestCodecConfig ∧
      ∀ delivery, result.2 = some delivery → Delivers source r.latestCodecConfig delivery := by
  intro result
  let pkt := frame.dataPacket sessionToken index piece
  rcases r.onPacket_cases iter pkt now with
    ⟨r', seen, hresult, hshrinks⟩ | ⟨opened, hresult, _, hopens⟩
  · simp only [result, pkt] at hresult ⊢
    rw [hresult]
    exact ⟨⟨fun id a hlookup => h.frames id a (hshrinks.frames id a hlookup),
      fun id fecs hlookup => h.fec id fecs (hshrinks.fec id fecs hlookup)⟩,
      hshrinks.config, by simp⟩
  · obtain ⟨seen, hshrinks⟩ := hopens.shrinks
    have hopened : Holds (HonestFrame sessionToken source)
        (HonestMeta sessionToken source) opened :=
      ⟨fun id a hlookup => h.frames id a (hshrinks.frames id a hlookup),
        fun id fecs hlookup => h.fec id fecs (hshrinks.fec id fecs hlookup)⟩
    have haccepts : Accepts (HonestFrame sessionToken source) opened pkt now := by
      refine ⟨fun _ => ⟨frame, hsends, ?_⟩, ?_⟩
      · have hkey : pkt.isKeyFrame = frame.isKeyFrame :=
          frame.dataPacket_isKeyFrame sessionToken index piece
        rw [hkey]
        exact Assembles.new (spec sessionToken frame) now
      · rintro a a' ⟨frame', hsource, ha⟩ _ hset
        obtain rfl : frame = frame' := Option.some.inj (hsends.1.symm.trans hsource.1)
        exact ⟨frame, hsource, ha.set hpiece hset⟩
    obtain ⟨hdone, houtcome⟩ := assemble_holds honest_recoverable hopened haccepts
    obtain ⟨hconfig, hdelivers⟩ := delivers_of_outcome houtcome
    simp only [result, pkt] at hresult ⊢
    rw [hresult]
    refine ⟨hdone, hconfig.trans hshrinks.config, ?_⟩
    rw [← hshrinks.config]
    exact hdelivers

private theorem onFecPacket_delivers {r : ChannelReassembler}
    (h : Holds (HonestFrame sessionToken source) (HonestMeta sessionToken source) r)
    {frame : VideoFrame} (hsends : Sends source frame.frameId frame)
    {gi : Nat} {group : List (List UInt8)}
    (hgroup : (frame.groups sessionToken)[gi]? = some group)
    (hlimit : (frame.pieces sessionToken).length ≤ maxFramePacketCount)
    (now : Nat) :
    let result := r.onFecPacket (frame.fecPacket sessionToken gi group) now
    Holds (HonestFrame sessionToken source) (HonestMeta sessionToken source) result.1 ∧
      result.1.latestCodecConfig = r.latestCodecConfig ∧
      ∀ delivery, result.2 = some delivery → Delivers source r.latestCodecConfig delivery := by
  intro result
  obtain ⟨hpositive, hsize, hbase⟩ := frame.group_length sessionToken hgroup
  have hmax : maxFramePacketCount = 16384 := rfl
  rcases onFecPacket_holds honest_recoverable h
    (frame.fecPacket sessionToken gi group) now (by
      intro fec hfec
      simp only [VideoFrame.fecPacket,
        parseFecPayload_fecPayload hpositive hsize (by omega : gi * fecGroupSize < 2 ^ 16)] at hfec
      exact ⟨frame, gi, group, hsends, hgroup, hlimit,
        (Option.some.inj hfec).symm⟩) with hsame | ⟨_, hdone, houtcome⟩
  · simp only [result, hsame]
    exact ⟨h, trivial, by simp⟩
  · obtain ⟨hconfig, hdelivers⟩ := delivers_of_outcome houtcome
    exact ⟨hdone, hconfig, hdelivers⟩

/-- The configuration after one more arrival. -/
def configAfter (config : Option (List UInt8)) : Arrival → Option (List UInt8)
  | .setCodecConfig payload => some payload
  | _ => config

theorem client_step (iter : IterOrder Nat) {r : ChannelReassembler}
    (h : Holds (HonestFrame sessionToken source) (HonestMeta sessionToken source) r)
    (arrival : Arrival) (hhonest : Honest sha sessionToken source arrival) :
    let result := (client iter sha sessionToken).step r arrival
    Holds (HonestFrame sessionToken source) (HonestMeta sessionToken source) result.1 ∧
      result.1.latestCodecConfig = configAfter r.latestCodecConfig arrival ∧
      ∀ delivery, result.2 = some delivery → Delivers source r.latestCodecConfig delivery := by
  cases arrival with
  | datagram bytes now =>
      obtain ⟨id, frame, ⟨hsource, rfl⟩, hdata | hfec⟩ := hhonest
      · obtain ⟨index, piece, hpiece, _, hparse⟩ := frame.parse_data sha sessionToken hdata
        have hstep : (client iter sha sessionToken).step r (.datagram bytes now) =
            r.onPacket iter (frame.dataPacket sessionToken index piece) now := by
          have htype : (frame.dataPacket sessionToken index piece).packetType =
              typeVideoFrame := rfl
          simp only [client, receive, hparse, htype]
          rfl
        rw [hstep]
        exact onPacket_delivers h ⟨hsource, rfl⟩ hpiece now
      · obtain ⟨gi, group, hgroup, hlimit, hparse⟩ := frame.parse_fec sha sessionToken hfec
        have hstep : (client iter sha sessionToken).step r (.datagram bytes now) =
            r.onFecPacket (frame.fecPacket sessionToken gi group) now := by
          have htype : (frame.fecPacket sessionToken gi group).packetType =
              typeFec := rfl
          simp only [client, receive, hparse, htype, if_true]
        rw [hstep]
        exact onFecPacket_delivers h ⟨hsource, rfl⟩ hgroup hlimit now
  | setCodecConfig payload => exact ⟨⟨h.frames, h.fec⟩, rfl, by simp [client]⟩
  | reset =>
      refine ⟨⟨?_, ?_⟩, rfl, by simp [client]⟩
      · intro id a hlookup
        simp [client, reset] at hlookup
      · intro id fecs hlookup
        simp [client, reset] at hlookup

private theorem client_run (iter : IterOrder Nat) (arrivals : List Arrival)
    (h : ∀ arrival ∈ arrivals, Honest sha sessionToken source arrival) :
    let r := (client iter sha sessionToken).run ChannelReassembler.new arrivals
    Holds (HonestFrame sessionToken source) (HonestMeta sessionToken source) r ∧
      r.latestCodecConfig = lastConfig arrivals := by
  induction arrivals using List.reverseRecOn with
  | nil =>
      refine ⟨⟨?_, ?_⟩, rfl⟩
      · intro id a hlookup
        simp [ChannelReassembler.new] at hlookup
      · intro id fecs hlookup
        simp [ChannelReassembler.new] at hlookup
  | append_singleton arrivals arrival ih =>
      obtain ⟨hholds, hconfig⟩ := ih fun arrival member =>
        h arrival (List.mem_append_left _ member)
      obtain ⟨hnext, hnextConfig, _⟩ := client_step iter hholds arrival (h arrival (by simp))
      rw [Machine.run_append]
      refine ⟨hnext, hnextConfig.trans ?_⟩
      rw [hconfig, lastConfig, lastConfig, List.foldl_append]
      cases arrival <;> rfl

/-- However the datagrams of a set of frames arrive, a delivered frame is one
of them: its exact payload, with its time and kind, behind the codec
configuration set last if it is a key frame. -/
theorem delivers_exact_payload (iter : IterOrder Nat) (sha : Sha256)
    (sessionToken : Option (List UInt8)) (source : Nat → Option VideoFrame)
    (arrivals : List Arrival) (arrival : Arrival)
    (h : ∀ arrived ∈ arrivals ++ [arrival], Honest sha sessionToken source arrived)
    (delivery : Delivery)
    (hdelivery : ((client iter sha sessionToken).step
      ((client iter sha sessionToken).run ChannelReassembler.new arrivals)
      arrival).2 = some delivery) :
    Delivers source (lastConfig arrivals) delivery := by
  obtain ⟨hholds, hconfig⟩ := client_run iter arrivals
    fun arrived member => h arrived (List.mem_append_left _ member)
  obtain ⟨_, _, hdelivers⟩ := client_step iter hholds arrival (h arrival (by simp))
  rw [← hconfig]
  exact hdelivers delivery hdelivery

private def zeroSha : Sha256 where
  digest _ := List.replicate 32 0
  digest_length _ := rfl

/-- A key frame of two packets and their parity. -/
private def splitKeyFrame : VideoFrame where
  frameId := 7
  presentationTimeUs := 40
  isKeyFrame := true
  payload := List.replicate 1171 1 ++ [2, 3]
  frameId_lt := by decide
  time_lt := by decide

/-- The first packet is lost, and the second comes after a codec configuration. -/
private def lostFirstPacket : List Arrival :=
  [.setCodecConfig [9], .datagram ((splitKeyFrame.packetize zeroSha none).1.getD 1 []) 0]

theorem delivers_exact_payload_repaired :
    let source : Nat → Option VideoFrame := fun id => if id = 7 then some splitKeyFrame else none
    let parity := (splitKeyFrame.packetize zeroSha none).2.getD 0 []
    let delivery : Delivery := ⟨7, 9 :: splitKeyFrame.payload, true, 1, 40⟩
    ((client (IterOrder.stored Nat) zeroSha none).step
      ((client (IterOrder.stored Nat) zeroSha none).run ChannelReassembler.new lostFirstPacket)
      (.datagram parity 1)).2 = some delivery ∧
    Delivers source (lastConfig lostFirstPacket) delivery := by
  intro source parity delivery
  have hdelivery : ((client (IterOrder.stored Nat) zeroSha none).step
      ((client (IterOrder.stored Nat) zeroSha none).run ChannelReassembler.new lostFirstPacket)
      (.datagram parity 1)).2 = some delivery := by
    decide +kernel
  refine ⟨hdelivery, delivers_exact_payload _ zeroSha none source lostFirstPacket
    (.datagram parity 1) ?_ delivery hdelivery⟩
  intro arrived member
  simp only [lostFirstPacket, List.cons_append, List.nil_append, List.mem_cons,
    List.not_mem_nil, or_false] at member
  rcases member with rfl | rfl | rfl
  · trivial
  · refine ⟨7, splitKeyFrame, ⟨rfl, rfl⟩, Or.inl ?_⟩
    decide +kernel
  · refine ⟨7, splitKeyFrame, ⟨rfl, rfl⟩, Or.inr ?_⟩
    decide +kernel

end EvertyDesk.Reassembler
