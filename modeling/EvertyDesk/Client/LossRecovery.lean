import EvertyDesk.Client.DecodeLoop
import EvertyDesk.Client.KeyFrameRecovery
import EvertyDesk.Lib.Throttle

/-!
How the client's receive thread answers a loss: it asks the host for a key frame and
freezes the frame queue until one comes, unless it did so less than a quarter of a second
ago. A loss is noticed by the counter of dropped frames, and only while a data packet is
taken in.
-/

namespace EvertyDesk.EvrtClient

open Evrt Reassembler FrameQueue

/-- In milliseconds. -/
def lossRequestInterval : Nat := 250

/-- The client with the receive thread's clock of key frame requests. -/
structure Receiver where
  client : Client
  lastLossKeyframeRequest : Int
  /-- Ghost: one more than the highest frame number of the data packets so far. -/
  bound : Nat

inductive ReceiverInput where
  | datagram (datagram : InFlight) (now : Nat)
  | perform (now : Nat)
  | setJitterDelay (delay : Nat)
  | waitForKeyframe
  | close
  | readName
  | dequeuePass (cancel : Bool) (now : Nat)

/-- The data packet that a datagram is read as. -/
def videoIn (sha : Sha256) (sessionToken : Option (List UInt8)) (datagram : List UInt8) :
    Option EvrtPacket :=
  match parseAuthenticated sha datagram datagram.length sessionToken with
  | some pkt => if pkt.packetType = typeVideoFrame then some pkt else none
  | none => none

namespace Receiver

/-- The thread starts as if it had asked a second ago. -/
def start (queueCfg : FrameQueueConfig) (codec : String) (now : Nat) : Receiver where
  client := Client.start queueCfg codec
  lastLossKeyframeRequest := now - 1000
  bound := 0

variable (iter : IterOrder Nat) (sha : Sha256) (sessionToken : Option (List UInt8)) (s : Receiver)

/-- `last_loss_keyframe_request.elapsed() >= 250 ms`. -/
def due (now : Nat) : Bool :=
  decide ((lossRequestInterval : Int) ≤ now - s.lastLossKeyframeRequest)

/-- The thread takes a datagram when it is done with the one before it. The result is the
time of the request that it sends. -/
def receive (datagram : InFlight) (now : Nat) : Receiver × Option Nat :=
  match s.client.duties with
  | [] =>
      let client := s.client.receive iter sha sessionToken datagram now (s.due now)
      let bound :=
        match videoIn sha sessionToken datagram.bytes with
        | some pkt => max s.bound (pkt.frameId + 1)
        | none => s.bound
      if .waitForKeyframe ∈ client.duties then
        ({ client := client, lastLossKeyframeRequest := now, bound := bound }, some now)
      else ({ s with client := client, bound := bound }, none)
  | _ => (s, none)

def withQueue (queue : Inner) : Receiver := { s with client := { s.client with queue := queue } }

def step : ReceiverInput → Receiver × Option Nat
  | .datagram datagram now => s.receive iter sha sessionToken datagram now
  | .perform now => ({ s with client := s.client.perform now }, none)
  | .setJitterDelay delay => (s.withQueue (s.client.queue.setJitterDelay delay), none)
  | .waitForKeyframe => (s.withQueue s.client.queue.waitForKeyframe, none)
  | .close => (s.withQueue s.client.queue.close, none)
  | .readName => ({ s with client := s.client.readName }, none)
  | .dequeuePass cancel now => ({ s with client := (s.client.dequeuePass cancel now).1 }, none)

end Receiver

/-- The receive thread beside the other users of the queue. Its outputs are the times of
its requests. -/
def receiver (iter : IterOrder Nat) (sha : Sha256) (sessionToken : Option (List UInt8)) :
    Machine Receiver ReceiverInput (Option Nat) where
  step := Receiver.step iter sha sessionToken

section Asking

variable (iter : IterOrder Nat) (sha : Sha256) (sessionToken : Option (List UInt8))

/-- The reading of the clock at which a datagram is taken. -/
def takenAt (s : Receiver) : ReceiverInput → Option Nat
  | .datagram _ now => if s.client.duties = [] then some now else none
  | _ => none

/-- The time of a data packet that raises the counter of dropped frames. -/
def lossAt (s : Receiver) : ReceiverInput → Option Nat
  | .datagram datagram now =>
      if s.client.duties = [] ∧ (videoIn sha sessionToken datagram.bytes).isSome ∧
          s.client.reassembler.droppedFrames <
            (onDatagram iter sha sessionToken s.client.reassembler datagram.bytes
              now).1.droppedFrames
      then some now
      else none
  | _ => none

/-- The time of a data packet of a delta frame that is newer than all frames so far. -/
def newsAt (s : Receiver) : ReceiverInput → Option Nat
  | .datagram datagram now =>
      match videoIn sha sessionToken datagram.bytes with
      | some pkt =>
          if s.client.duties = [] ∧ pkt.isKeyFrame = false ∧ s.bound ≤ pkt.frameId then some now
          else none
      | none => none
  | _ => none

/-- The times of the requests of a run. -/
def requestTimes (s : Receiver) (inputs : List ReceiverInput) : List Nat :=
  ((receiver iter sha sessionToken).outputs s inputs).filterMap id

end Asking

section Steps

variable {iter : IterOrder Nat} {sha : Sha256} {sessionToken : Option (List UInt8)}

/-- A datagram leaves the reassembler below a bound if its data packet is. -/
theorem onDatagram_below {n : Nat} {r : ChannelReassembler} {datagram : List UInt8}
    (h : r.NumbersBelow n)
    (hvideo : ∀ pkt, videoIn sha sessionToken datagram = some pkt → pkt.frameId < n)
    (now : Nat) : (onDatagram iter sha sessionToken r datagram now).1.NumbersBelow n := by
  unfold onDatagram
  unfold videoIn at hvideo
  cases hparse : parseAuthenticated sha datagram datagram.length sessionToken with
  | none => exact h
  | some pkt =>
      rw [hparse] at hvideo
      dsimp only at hvideo ⊢
      unfold onPacket
      split
      · split
        · split <;> exact h
        · exact h.congr (fun _ _ hlookup => hlookup) rfl rfl rfl
      · split
        · have hfec := h.onFecPacket pkt now
          split
          · next heq => rw [heq] at hfec; exact hfec
          · next heq => rw [heq] at hfec; exact hfec
        · split
          · next htype =>
              have hdata : (r.onPacket iter pkt now).1.NumbersBelow n :=
                h.onPacket pkt now (hvideo pkt (if_pos htype))
              split
              · next heq => rw [heq] at hdata; exact hdata
              · next heq => rw [heq] at hdata; exact hdata
          · exact h

/-- The reassembler alone sees a data packet. -/
theorem onDatagram_video {r : ChannelReassembler} {datagram : List UInt8} {pkt : EvrtPacket}
    (h : videoIn sha sessionToken datagram = some pkt) (now : Nat) :
    (onDatagram iter sha sessionToken r datagram now).1 = (r.onPacket iter pkt now).1 := by
  unfold videoIn at h
  unfold onDatagram
  split at h
  · next pkt' hparse =>
      split at h
      · next htype =>
          cases h
          have hother : typeVideoFrame ≠ typeCodecConfig ∧ typeVideoFrame ≠ typeFec := by decide
          rw [hparse]
          dsimp only
          rw [onPacket, if_neg (htype ▸ hother.1), if_neg (htype ▸ hother.2), if_pos htype]
          split <;> next heq => rw [heq]
      · contradiction
  · contradiction

variable (iter sha sessionToken) in
/-- After a datagram the thread has to freeze the queue if its data packet raised the
counter of dropped frames and a request is due. -/
theorem mem_duties_receive (c : Client) (datagram : InFlight) (now : Nat) (due : Bool) :
    .waitForKeyframe ∈ (c.receive iter sha sessionToken datagram now due).duties ↔
      due = true ∧ (videoIn sha sessionToken datagram.bytes).isSome ∧
        c.reassembler.droppedFrames <
          (onDatagram iter sha sessionToken c.reassembler datagram.bytes now).1.droppedFrames := by
  have hloss : ∀ r : ChannelReassembler,
      Duty.waitForKeyframe ∈ c.lossDuties sha sessionToken r datagram due ↔
        due = true ∧ (videoIn sha sessionToken datagram.bytes).isSome ∧
          c.reassembler.droppedFrames < r.droppedFrames := by
    intro r
    unfold Client.lossDuties videoIn
    cases parseAuthenticated sha datagram.bytes datagram.bytes.length sessionToken with
    | none => simp
    | some pkt =>
        by_cases htype : pkt.packetType = typeVideoFrame
        · simp [htype]
        · simp [htype]
  have hreceive : Duty.waitForKeyframe ∈ (c.receive iter sha sessionToken datagram now due).duties ↔
      Duty.waitForKeyframe ∈ c.lossDuties sha sessionToken
        (onDatagram iter sha sessionToken c.reassembler datagram.bytes now).1 datagram due := by
    unfold Client.receive
    cases onDatagram iter sha sessionToken c.reassembler datagram.bytes now with
    | mk r reaction => cases reaction <;> simp
  rw [hreceive, hloss]

theorem reassembler_receive {c : Client} {datagram : InFlight} {now : Nat} {due : Bool} :
    (c.receive iter sha sessionToken datagram now due).reassembler =
      (onDatagram iter sha sessionToken c.reassembler datagram.bytes now).1 := by
  unfold Client.receive
  cases onDatagram iter sha sessionToken c.reassembler datagram.bytes now with
  | mk r reaction => cases reaction <;> rfl

/-- No other step touches the reassembler or the clock of requests. -/
theorem perform_reassembler (c : Client) (now : Nat) :
    (c.perform now).reassembler = c.reassembler := by
  unfold Client.perform
  split <;> rfl

theorem readName_reassembler (c : Client) : c.readName.reassembler = c.reassembler := by
  unfold Client.readName
  split <;> rfl

theorem dequeuePass_reassembler (c : Client) (cancel : Bool) (now : Nat) :
    (c.dequeuePass cancel now).1.reassembler = c.reassembler := by
  unfold Client.dequeuePass
  split
  · split <;> rfl
  · rfl

variable (iter sha sessionToken) in
/-- What a step does to the reassembler and to the clock: a datagram is taken, or both stay
as they are. -/
theorem receiver_step_cases (s : Receiver) (input : ReceiverInput) :
    (∃ datagram now, input = .datagram datagram now ∧ s.client.duties = [] ∧
      ((receiver iter sha sessionToken).step s input) =
        s.receive iter sha sessionToken datagram now) ∨
    (takenAt s input = none ∧
      ((receiver iter sha sessionToken).step s input).2 = none ∧
      ((receiver iter sha sessionToken).step s input).1.client.reassembler = s.client.reassembler ∧
      ((receiver iter sha sessionToken).step s input).1.lastLossKeyframeRequest =
        s.lastLossKeyframeRequest ∧
      ((receiver iter sha sessionToken).step s input).1.bound = s.bound) := by
  cases input with
  | datagram datagram now =>
      cases hduties : s.client.duties with
      | nil => exact .inl ⟨datagram, now, rfl, rfl, rfl⟩
      | cons duty duties =>
          have hstep : (receiver iter sha sessionToken).step s (.datagram datagram now) =
              (s, none) := by
            change s.receive iter sha sessionToken datagram now = (s, none)
            unfold Receiver.receive
            rw [hduties]
          rw [hstep]
          exact .inr ⟨by simp [takenAt, hduties], rfl, rfl, rfl, rfl⟩
  | perform now => exact .inr ⟨rfl, rfl, perform_reassembler s.client now, rfl, rfl⟩
  | setJitterDelay delay => exact .inr ⟨rfl, rfl, rfl, rfl, rfl⟩
  | waitForKeyframe => exact .inr ⟨rfl, rfl, rfl, rfl, rfl⟩
  | close => exact .inr ⟨rfl, rfl, rfl, rfl, rfl⟩
  | readName => exact .inr ⟨rfl, rfl, readName_reassembler s.client, rfl, rfl⟩
  | dequeuePass cancel now =>
      exact .inr ⟨rfl, rfl, dequeuePass_reassembler s.client cancel now, rfl, rfl⟩

variable (iter sha sessionToken) in
/-- A datagram that is taken. -/
theorem receive_taken {s : Receiver} (hduties : s.client.duties = []) (datagram : InFlight)
    (now : Nat) :
    let result := s.receive iter sha sessionToken datagram now
    result.1.client.reassembler =
        (onDatagram iter sha sessionToken s.client.reassembler datagram.bytes now).1 ∧
      (result.1.bound = match videoIn sha sessionToken datagram.bytes with
        | some pkt => max s.bound (pkt.frameId + 1)
        | none => s.bound) ∧
      (if s.due now = true ∧ lossAt iter sha sessionToken s (.datagram datagram now) = some now
      then result.2 = some now ∧ result.1.lastLossKeyframeRequest = now
      else result.2 = none ∧ result.1.lastLossKeyframeRequest = s.lastLossKeyframeRequest) := by
  have hmem := mem_duties_receive iter sha sessionToken s.client datagram now (s.due now)
  have hasked : (s.due now = true ∧
      lossAt iter sha sessionToken s (.datagram datagram now) = some now) ↔
      Duty.waitForKeyframe ∈
        (s.client.receive iter sha sessionToken datagram now (s.due now)).duties := by
    rw [hmem]
    simp only [lossAt, hduties, true_and]
    split
    · next h => simp [h]
    · next h => simp [h]
  dsimp only
  unfold Receiver.receive
  rw [hduties]
  dsimp only
  split
  · next hduty =>
      refine ⟨reassembler_receive, rfl, ?_⟩
      rw [if_pos (hasked.mpr hduty)]
      exact ⟨rfl, rfl⟩
  · next hduty =>
      refine ⟨reassembler_receive, rfl, ?_⟩
      rw [if_neg (fun h => hduty (hasked.mp h))]
      exact ⟨rfl, rfl⟩

end Steps

section Requests

variable {iter : IterOrder Nat} {sha : Sha256} {sessionToken : Option (List UInt8)}

theorem lossAt_eq_some {s : Receiver} {input : ReceiverInput} {t : Nat}
    (h : lossAt iter sha sessionToken s input = some t) :
    ∃ datagram, input = .datagram datagram t ∧ s.client.duties = [] := by
  cases input with
  | datagram datagram now =>
      simp only [lossAt, Option.ite_none_right_eq_some] at h
      obtain ⟨⟨hduties, -⟩, hnow⟩ := h
      cases hnow
      exact ⟨datagram, rfl, hduties⟩
  | _ => contradiction

/-- The requests are the losses, throttled. -/
theorem requestTimes_eq_fires (s : Receiver) (inputs : List ReceiverInput) :
    requestTimes iter sha sessionToken s inputs =
      fires lossRequestInterval s.lastLossKeyframeRequest
        ((receiver iter sha sessionToken).observe (lossAt iter sha sessionToken) s inputs) := by
  unfold requestTimes
  apply outputs_eq_fires
  · intro s input hquiet
    obtain ⟨datagram, now, rfl, hduties, hstep⟩ | ⟨-, hout, -, hlast, -⟩ :=
      receiver_step_cases iter sha sessionToken s input
    · have htaken := (receive_taken iter sha sessionToken hduties datagram now).2.2
      rw [if_neg (by simp [hquiet])] at htaken
      rw [hstep]
      exact htaken
    · exact ⟨hout, hlast⟩
  · intro s input t hasked hdue
    obtain ⟨datagram, rfl, hduties⟩ := lossAt_eq_some hasked
    have htaken := (receive_taken iter sha sessionToken hduties datagram t).2.2
    rwa [if_pos ⟨decide_eq_true hdue, hasked⟩] at htaken
  · intro s input t hasked hnot
    obtain ⟨datagram, rfl, hduties⟩ := lossAt_eq_some hasked
    have htaken := (receive_taken iter sha sessionToken hduties datagram t).2.2
    rwa [if_neg (fun h => hnot (of_decide_eq_true h.1))] at htaken

/-- The reassembler knows of no frame past the highest one. -/
def Receiver.Bounded (s : Receiver) : Prop := s.client.reassembler.NumbersBelow s.bound

theorem step_bounded {s : Receiver} (h : s.Bounded) (input : ReceiverInput) :
    ((receiver iter sha sessionToken).step s input).1.Bounded := by
  unfold Receiver.Bounded at h ⊢
  obtain ⟨datagram, now, rfl, hduties, hstep⟩ | ⟨-, -, hsame, -, hbound⟩ :=
    receiver_step_cases iter sha sessionToken s input
  · obtain ⟨hnext, hbound, -⟩ := receive_taken iter sha sessionToken hduties datagram now
    rw [hstep, hnext, hbound]
    cases hvideo : videoIn sha sessionToken datagram.bytes with
    | none =>
        apply onDatagram_below h
        intro pkt hpkt
        rw [hvideo] at hpkt
        contradiction
    | some pkt =>
        apply onDatagram_below (h.mono (Nat.le_max_left _ _))
        intro pkt' hpkt
        rw [hvideo] at hpkt
        cases hpkt
        omega
  · rw [hsame, hbound]
    exact h

/-- While a key frame is waited for, the news are losses. -/
theorem lossAt_of_news {s : Receiver} (h : s.Bounded)
    (hwaiting : s.client.reassembler.waitingAfterLoss = true) {input : ReceiverInput} {t : Nat}
    (hnews : newsAt sha sessionToken s input = some t) :
    lossAt iter sha sessionToken s input = some t := by
  cases input with
  | datagram datagram now =>
      simp only [newsAt] at hnews
      cases hvideo : videoIn sha sessionToken datagram.bytes with
      | none => simp [hvideo] at hnews
      | some pkt =>
          simp only [hvideo, Option.ite_none_right_eq_some] at hnews
          obtain ⟨⟨hduties, hdelta, hnew⟩, hnow⟩ := hnews
          have hcounts : s.client.reassembler.droppedFrames <
              (s.client.reassembler.onPacket iter pkt now).1.droppedFrames :=
            h.counts_news hnew hwaiting hdelta now
          rw [← onDatagram_video hvideo now] at hcounts
          rw [lossAt, if_pos ⟨hduties, by simp [hvideo], hcounts⟩]
          exact hnow
  | _ => contradiction

/-- The clock of requests is not ahead of the datagrams taken. -/
theorem last_le {start : Nat} {s : Receiver} {inputs : List ReceiverInput}
    (hlast : s.lastLossKeyframeRequest ≤ start)
    (htaken : ∀ t ∈ (receiver iter sha sessionToken).observe takenAt s inputs, t ≤ start) :
    ((receiver iter sha sessionToken).run s inputs).lastLossKeyframeRequest ≤ start := by
  induction inputs generalizing s with
  | nil => exact hlast
  | cons input inputs ih =>
      rw [Machine.observe_cons] at htaken
      apply ih
      · obtain ⟨datagram, now, rfl, hduties, hstep⟩ | ⟨-, -, -, hsame, -⟩ :=
          receiver_step_cases iter sha sessionToken s input
        · have hclock := (receive_taken iter sha sessionToken hduties datagram now).2.2
          have hnow : now ≤ start := by
            apply htaken now
            simp [takenAt, hduties]
          rw [hstep]
          split at hclock
          · rw [hclock.2]
            exact Int.ofNat_le.mpr hnow
          · rw [hclock.2]
            exact hlast
        · rw [hsame]
          exact hlast
      · intro t ht
        exact htaken t (List.mem_append_right _ ht)

/-- The host is asked for a key frame at most four times a second. After a loss, for as
long as the reassembler waits for a key frame while packets of newer and newer delta frames
come in, at most a gap apart, it is asked again after a quarter of a second and that gap. -/
theorem asks_while_waiting (iter : IterOrder Nat) (sha : Sha256)
    (sessionToken : Option (List UInt8)) (queueCfg : FrameQueueConfig) (codec : String)
    (opened start finish gap : Nat) (before during : List ReceiverInput)
    (hclock : ((receiver iter sha sessionToken).observe takenAt
      (Receiver.start queueCfg codec opened) (before ++ during)).Pairwise (· ≤ ·))
    (hopened : opened ≤ start)
    (hbefore : ∀ t ∈ (receiver iter sha sessionToken).observe takenAt
      (Receiver.start queueCfg codec opened) before, t ≤ start)
    (hwaiting : (receiver iter sha sessionToken).Along
      (fun s _ => s.client.reassembler.waitingAfterLoss = true)
      ((receiver iter sha sessionToken).run (Receiver.start queueCfg codec opened) before)
      during)
    (hnews : Dense gap start finish ((receiver iter sha sessionToken).observe
      (newsAt sha sessionToken)
      ((receiver iter sha sessionToken).run (Receiver.start queueCfg codec opened) before)
      during)) :
    (requestTimes iter sha sessionToken (Receiver.start queueCfg codec opened)
        (before ++ during)).Pairwise (fun t t' => t + lossRequestInterval ≤ t') ∧
      (finish - start) / (lossRequestInterval + gap) ≤
        (requestTimes iter sha sessionToken ((receiver iter sha sessionToken).run
          (Receiver.start queueCfg codec opened) before) during).length := by
  have hsublist : ∀ s inputs, ((receiver iter sha sessionToken).observe
      (lossAt iter sha sessionToken) s inputs).Sublist
      ((receiver iter sha sessionToken).observe takenAt s inputs) := by
    apply Machine.observe_sublist_of_forall
    intro s input t ht
    obtain ⟨datagram, rfl, hduties⟩ := lossAt_eq_some ht
    simp [takenAt, hduties]
  constructor
  · rw [requestTimes_eq_fires]
    exact fires_spaced (hclock.sublist (hsublist _ _))
  · rw [Machine.observe_append] at hclock
    have hbounded : ((receiver iter sha sessionToken).run
        (Receiver.start queueCfg codec opened) before).Bounded :=
      @Machine.run_preserves _ _ _ _ Receiver.Bounded (fun _ input h => step_bounded h input)
        (Receiver.start queueCfg codec opened) (ChannelReassembler.NumbersBelow.new 0) before
    have hsharp : ∀ (s : Receiver) input, s.Bounded →
        s.client.reassembler.waitingAfterLoss = true →
        ((receiver iter sha sessionToken).step s input).1.Bounded ∧
          ∀ t, newsAt sha sessionToken s input = some t →
            lossAt iter sha sessionToken s input = some t :=
      fun s input h hwait => ⟨step_bounded h input, fun t ht => lossAt_of_news h hwait ht⟩
    rw [requestTimes_eq_fires]
    apply fires_often (by decide)
    · exact (List.pairwise_append.mp hclock).2.1.sublist (hsublist _ _)
    · apply last_le _ hbefore
      change (opened : Int) - 1000 ≤ start
      omega
    · exact hnews.mono (Machine.observe_sublist hsharp hbounded hwaiting).subset

end Requests

/-- The first slice of a delta frame. -/
def deltaSlice (frameId count : Nat) (now : Nat) : ReceiverInput :=
  .datagram ⟨buildPacket typeVideoFrame 0 frameId 0 count 0 [1], .h264⟩ now

/-- Frame 1 stays unfinished and is lost when frame 6 begins. -/
def afterFrameSix : List ReceiverInput :=
  [deltaSlice 1 2 10, .perform 10, deltaSlice 6 2 20, .perform 20]

def newerFrames : List ReceiverInput :=
  [deltaSlice 7 2 100, deltaSlice 8 2 200, deltaSlice 9 2 300, .perform 300, deltaSlice 10 2 400]

/-- The client once frame 6 has begun. -/
def waitingReceiver : Receiver :=
  (receiver (IterOrder.stored Nat) Packetizer.zeroDigest none).run
    (Receiver.start FrameQueueConfig.default "H264" 0) afterFrameSix

theorem asks_while_waiting_again :
    (requestTimes (IterOrder.stored Nat) Packetizer.zeroDigest none
        (Receiver.start FrameQueueConfig.default "H264" 0)
        (afterFrameSix ++ newerFrames)).Pairwise (fun t t' => t + lossRequestInterval ≤ t') ∧
      (400 - 20) / (lossRequestInterval + 100) ≤
        (requestTimes (IterOrder.stored Nat) Packetizer.zeroDigest none waitingReceiver
          newerFrames).length := by
  apply asks_while_waiting (IterOrder.stored Nat) Packetizer.zeroDigest none
    FrameQueueConfig.default "H264" 0 20 400 100 afterFrameSix newerFrames
  · decide +kernel
  · decide
  · decide +kernel
  · decide +kernel
  · have hnews : (receiver (IterOrder.stored Nat) Packetizer.zeroDigest none).observe
        (newsAt Packetizer.zeroDigest none) waitingReceiver newerFrames = [100, 200, 300, 400] := by
      decide +kernel
    change Dense 100 20 400 ((receiver (IterOrder.stored Nat) Packetizer.zeroDigest none).observe
      (newsAt Packetizer.zeroDigest none) waitingReceiver newerFrames)
    rw [hnews]
    intro t hstart hfinish
    obtain ht | ht := Nat.le_total t 100
    · exact ⟨100, by simp, ht, by omega⟩
    · obtain ht' | ht' := Nat.le_total t 200
      · exact ⟨200, by simp, ht', by omega⟩
      · exact ⟨300, by simp, by omega, by omega⟩

end EvertyDesk.EvrtClient
