import EvertyDesk.Host.SendLoop
import EvertyDesk.Lib.Chain
import EvertyDesk.Lib.Machine

/-!
The delta chain of an EVRT session. The session loop holds delta frames back from a
key frame request, and from a change of codec, to the next key frame. A frame that is
let through but has no datagrams (it is empty, or of too many slices) is lost without
the loop noticing, and the deltas on it are sent.
-/

namespace EvertyDesk.EvrtSession

open Evrt Host

/-- The least time between two key frame requests for an EVRTCK stream. -/
def idrRatelimitEvrtck : Int := 500

/-- What one pass of the session loop meets. Times are in milliseconds from the start
of the session. -/
structure Pass where
  kfRequested : Bool
  now : Int
  /-- None came within the time that the loop waits. -/
  frame : Option SendFrame
  fps : UInt32
  /-- The datagram of the frame at which the socket fails. -/
  failsAt : Option Nat

/-- A frame that the loop has taken from the pipeline. -/
structure Processed where
  frame : SendFrame
  heldBack : Bool
  sent : Bool

structure SessionLoop where
  sender : SendLoop
  lastKfRequest : Int
  stop : Bool
  /-- The last one comes first. -/
  processed : List Processed

namespace SessionLoop

def start (initialCodec : CodecLabel) : SessionLoop where
  sender := .start initialCodec
  lastKfRequest := -60000
  stop := false
  processed := []

variable (sha : Sha256) (cfg : SendConfig) (s : SessionLoop) (i : Pass)

def isEvrtck : Bool := s.sender.currentCodec.toUpper == "EVRTCK"

/-- A request is taken at once, but not too often for an EVRTCK stream. -/
def takeRequest : SessionLoop :=
  if i.kfRequested && !s.sender.waitingForIdr &&
      (!s.isEvrtck || decide (idrRatelimitEvrtck ≤ i.now - s.lastKfRequest)) then
    { s with sender := s.sender.requestKeyFrame, lastKfRequest := i.now }
  else s

/-- The sender once the frame's codec is announced. -/
def announced (frame : SendFrame) : SendLoop := (s.sender.announce sha cfg frame).1

/-- The data datagrams and the parity datagrams that a frame leads to. -/
def datagrams (frame : SendFrame) : List (List UInt8) × List (List UInt8) :=
  if (s.announced sha cfg frame).skips frame then ([], [])
  else (SendLoop.packetizer cfg).emit sha ((s.announced sha cfg frame).videoFrame frame)

/-- All data datagrams are sent, and there are some. -/
def sends (frame : SendFrame) : Bool :=
  !(s.datagrams sha cfg frame).1.isEmpty && i.failsAt.all ((s.datagrams sha cfg frame).1.length ≤ ·)

def sendFrame (frame : SendFrame) : SessionLoop where
  sender := (s.sender.takeFrame sha cfg frame i.fps).1
  lastKfRequest := s.lastKfRequest
  stop :=
    let (pkts, fecPkts) := s.datagrams sha cfg frame
    i.failsAt.any (· < pkts.length + fecPkts.length)
  processed :=
    ⟨frame, (s.announced sha cfg frame).skips frame, s.sends sha cfg i frame⟩ :: s.processed

/-- The loop ends once a datagram of a frame cannot be sent. -/
def pass : SessionLoop :=
  if s.stop then s
  else
    match i.frame with
    | none => s.takeRequest i
    | some frame => (s.takeRequest i).sendFrame sha cfg i frame

end SessionLoop

def sessionLoop (sha : Sha256) (cfg : SendConfig) : Machine SessionLoop Pass Unit where
  step s i := (s.pass sha cfg i, ())

/-- What a delta frame is built on: all frames since the last key frame of its codec. -/
def deltaChain : Chain Processed String where
  key p := p.frame.isIdr
  sent p := p.sent
  stream p := (codecText p.frame.codec).toUpper

/-- The frame is not empty, and not of more slices than the packetizer makes. -/
def Fills (cfg : SendConfig) (frame : SendFrame) : Prop :=
  frame.bytes ≠ [] ∧
    divCeil frame.bytes.length (SendLoop.packetizer cfg).sliceSize ≤ maxFramePacketCount

namespace SessionLoop

/-- The last frame that was not held back. -/
def lastThrough (s : SessionLoop) : Option Processed := s.processed.find? fun p => !p.heldBack

/-- A delta frame that goes out follows a frame that has gone out. -/
def Follows (sha : Sha256) (cfg : SendConfig) (s : SessionLoop) (i : Pass) : Prop :=
  ∀ frame last, s.stop = false → i.frame = some frame → frame.isIdr = false →
    ((s.takeRequest i).announced sha cfg frame).skips frame = false → Fills cfg frame →
    s.lastThrough = some last → Fills cfg last.frame

/-- While the loop waits for no key frame, a break in the chain can only come from
the last frame let through. -/
structure Chained (cfg : SendConfig) (s : SessionLoop) : Prop where
  kept : deltaChain.Kept s.processed
  whole : s.stop = false → s.sender.waitingForIdr = false →
    (∀ last, s.lastThrough = some last → Fills cfg last.frame) →
    deltaChain.Whole s.sender.currentCodec.toUpper s.processed

end SessionLoop

namespace SendLoop

section Senders

variable {sha : Sha256} {cfg : SendConfig} {s : SendLoop} {frame : SendFrame}

theorem sliceCount_videoFrame :
    (SendLoop.packetizer cfg).sliceCount (s.videoFrame frame) =
      divCeil frame.bytes.length (SendLoop.packetizer cfg).sliceSize := rfl

theorem emit_fills (h : Fills cfg frame) :
    ((SendLoop.packetizer cfg).emit sha (s.videoFrame frame)).1 ≠ [] := by
  have hcount : divCeil frame.bytes.length (SendLoop.packetizer cfg).sliceSize ≠ 0 := by
    have hlength : 0 < frame.bytes.length := List.length_pos_of_ne_nil h.1
    have hpos := (SendLoop.packetizer cfg).sliceSize_pos
    exact (Nat.div_pos (by omega) hpos).ne'
  rw [Packetizer.emit_slices sha (sliceCount_videoFrame ▸ h.2), sliceCount_videoFrame]
  simpa using hcount

theorem emit_hollow (h : ¬ Fills cfg frame) :
    ((SendLoop.packetizer cfg).emit sha (s.videoFrame frame)).1 = [] := by
  by_cases hmany : divCeil frame.bytes.length (SendLoop.packetizer cfg).sliceSize >
      maxFramePacketCount
  · rw [Packetizer.emit_nothing sha (sliceCount_videoFrame ▸ hmany)]
  · have hempty : frame.bytes = [] := by
      by_contra hbytes
      exact h ⟨hbytes, Nat.le_of_not_lt hmany⟩
    have hcount : divCeil frame.bytes.length (SendLoop.packetizer cfg).sliceSize = 0 := by
      have hpos := (SendLoop.packetizer cfg).sliceSize_pos
      rw [hempty, List.length_nil]
      exact Nat.div_eq_of_lt (by omega)
    rw [Packetizer.emit_slices sha (sliceCount_videoFrame ▸ Nat.le_of_not_lt hmany),
      sliceCount_videoFrame, hcount]
    rfl

theorem announce_codec : (s.announce sha cfg frame).1.currentCodec.toUpper =
    (codecText frame.codec).toUpper := by
  unfold SendLoop.announce
  split
  · next hsame => exact hsame.symm
  · rw [codecText_upper, announcedText_upper]

/-- A delta frame is let through only where the loop waits for no key frame, and only
in the codec announced last. -/
theorem announce_delta (hdelta : frame.isIdr = false)
    (hthrough : (s.announce sha cfg frame).1.skips frame = false) :
    s.waitingForIdr = false ∧ (codecText frame.codec).toUpper = s.currentCodec.toUpper := by
  unfold SendLoop.announce at hthrough
  split at hthrough
  · next hsame => exact ⟨by simpa [SendLoop.skips, hdelta] using hthrough, hsame⟩
  · simp [SendLoop.skips, hdelta] at hthrough

/-- After a frame the loop waits for a key frame if and only if it has held the frame
back. -/
theorem takeFrame_state (sha : Sha256) (cfg : SendConfig) (s : SendLoop) (frame : SendFrame)
    (fps : UInt32) :
    (s.takeFrame sha cfg frame fps).1.currentCodec = (s.announce sha cfg frame).1.currentCodec ∧
      (s.takeFrame sha cfg frame fps).1.waitingForIdr =
        (s.announce sha cfg frame).1.skips frame := by
  cases hskips : (s.announce sha cfg frame).1.skips frame with
  | true =>
      have hwaits : (s.announce sha cfg frame).1.waitingForIdr = true := by
        simp only [SendLoop.skips, Bool.and_eq_true] at hskips
        exact hskips.1
      simp [SendLoop.takeFrame, hskips, hwaits]
  | false =>
      cases hkey : frame.isIdr with
      | true => simp [SendLoop.takeFrame, hskips, hkey]
      | false =>
          have hcalm : (s.announce sha cfg frame).1.waitingForIdr = false := by
            simpa [SendLoop.skips, hkey] using hskips
          simp [SendLoop.takeFrame, hskips, hkey, hcalm]

theorem skips_key (hkey : frame.isIdr = true) : s.skips frame = false := by
  simp [skips, hkey]

/-- After a frame that was let through, so is the next one of its codec. -/
theorem skips_again {other : SendFrame} {fps : UInt32} (hcodec : other.codec = frame.codec)
    (h : (s.announce sha cfg frame).1.skips frame = false) :
    (((s.takeFrame sha cfg frame fps).1.announce sha cfg other).1).skips other = false := by
  obtain ⟨hcurrent, hwaits⟩ := takeFrame_state sha cfg s frame fps
  have hsame : (codecText other.codec).toUpper =
      (s.takeFrame sha cfg frame fps).1.currentCodec.toUpper := by
    rw [hcurrent, announce_codec, hcodec]
  rw [announce, if_pos hsame, skips, hwaits, h]
  rfl

end Senders

end SendLoop

namespace SessionLoop

section Steps

variable {sha : Sha256} {cfg : SendConfig} {s : SessionLoop} {i : Pass} {frame : SendFrame}

theorem takeRequest_chained (h : s.Chained cfg) : (s.takeRequest i).Chained cfg := by
  unfold takeRequest
  split
  · exact ⟨h.kept, fun _ hcalm => by cases hcalm⟩
  · exact h

theorem sends_through (h : s.sends sha cfg i frame = true) :
    (s.announced sha cfg frame).skips frame = false ∧ Fills cfg frame := by
  have hpkts : (!(s.datagrams sha cfg frame).1.isEmpty) = true := by
    rw [sends, Bool.and_eq_true] at h
    exact h.1
  unfold datagrams at hpkts
  cases hskips : (s.announced sha cfg frame).skips frame with
  | true =>
      rw [if_pos hskips] at hpkts
      cases hpkts
  | false =>
      rw [if_neg (by simp [hskips])] at hpkts
      refine ⟨rfl, ?_⟩
      by_contra hhollow
      rw [SendLoop.emit_hollow hhollow] at hpkts
      cases hpkts

/-- A frame that is let through and has datagrams is sent, or the loop ends. -/
theorem sends_of_fills (hthrough : (s.announced sha cfg frame).skips frame = false)
    (hfills : Fills cfg frame) (hopen : (s.sendFrame sha cfg i frame).stop = false) :
    s.sends sha cfg i frame = true := by
  have hdata : (s.datagrams sha cfg frame).1 ≠ [] := by
    rw [datagrams, if_neg (by simp [hthrough])]
    exact SendLoop.emit_fills hfills
  have hgoes : i.failsAt.any (· < (s.datagrams sha cfg frame).1.length +
      (s.datagrams sha cfg frame).2.length) = false := hopen
  have hall : i.failsAt.all ((s.datagrams sha cfg frame).1.length ≤ ·) = true := by
    cases hfails : i.failsAt with
    | none => rfl
    | some k =>
        rw [hfails] at hgoes
        simp only [Option.any_some, decide_eq_false_iff_not] at hgoes
        exact decide_eq_true (by omega)
  rw [sends, hall, Bool.and_true]
  simpa using hdata

theorem announced_again {other : SendFrame} (hcodec : other.codec = frame.codec)
    (h : (s.announced sha cfg frame).skips frame = false) :
    ((s.sendFrame sha cfg i frame).announced sha cfg other).skips other = false :=
  SendLoop.skips_again hcodec h

theorem sendFrame_chained (h : s.Chained cfg)
    (hfollows : ∀ last, frame.isIdr = false → (s.announced sha cfg frame).skips frame = false →
      Fills cfg frame → s.lastThrough = some last → Fills cfg last.frame)
    (hstop : s.stop = false) :
    (s.sendFrame sha cfg i frame).Chained cfg := by
  obtain ⟨hcodec, hwaits⟩ := s.sender.takeFrame_state sha cfg frame i.fps
  -- A delta frame that is let through and has datagrams finds a whole chain.
  have hdelta : (s.announced sha cfg frame).skips frame = false → Fills cfg frame →
      frame.isIdr = false → deltaChain.Whole (codecText frame.codec).toUpper s.processed := by
    intro hthrough hfills hnokey
    obtain ⟨hcalm, hsame⟩  := SendLoop.announce_delta hnokey hthrough
    rw [hsame]
    exact h.whole hstop hcalm fun last hlast => hfollows last hnokey hthrough hfills hlast
  refine ⟨?_, ?_⟩
  · refine h.kept.cons ?_
    intro hout hnokey
    obtain ⟨hthrough, hfills⟩ := sends_through hout
    exact hdelta hthrough hfills hnokey
  · intro hgoes hcalm hlast
    have hthrough : (s.announced sha cfg frame).skips frame = false := hwaits.symm.trans hcalm
    have hfills : Fills cfg frame := hlast _ (List.find?_cons_of_pos (by simp [hthrough]))
    have hout := sends_of_fills hthrough hfills hgoes
    have hcurrent : (s.sendFrame sha cfg i frame).sender.currentCodec.toUpper =
        (codecText frame.codec).toUpper :=
      (congrArg String.toUpper hcodec).trans SendLoop.announce_codec
    rw [hcurrent]
    cases hkey : frame.isIdr with
    | true => exact Chain.whole_of_key (c := deltaChain) hkey hout
    | false => exact (hdelta hthrough hfills hkey).cons hout

theorem pass_chained (h : s.Chained cfg) (hfollows : s.Follows sha cfg i) :
    (s.pass sha cfg i).Chained cfg := by
  have hkept : (s.takeRequest i).processed = s.processed ∧ (s.takeRequest i).stop = s.stop := by
    unfold takeRequest
    split <;> exact ⟨rfl, rfl⟩
  unfold pass
  split
  · exact h
  · next hstop =>
    have hopen : s.stop = false := by simpa using hstop
    cases hframe : i.frame with
    | none => exact takeRequest_chained h
    | some frame =>
        refine sendFrame_chained (takeRequest_chained h) ?_ (hkept.2.trans hopen)
        intro last hnokey hthrough hfills hlast
        rw [lastThrough, hkept.1] at hlast
        exact hfollows frame last hopen hframe hnokey hthrough hfills hlast

end Steps

end SessionLoop

/-- What is sent can be decoded, in every run in which a delta frame that goes out
follows a frame that has gone out. -/
theorem delta_chain_kept {sha : Sha256} {cfg : SendConfig} {initialCodec : CodecLabel}
    {passes : List Pass}
    (h : (sessionLoop sha cfg).Along (SessionLoop.Follows sha cfg)
      (SessionLoop.start initialCodec) passes) :
    deltaChain.Kept ((sessionLoop sha cfg).run (SessionLoop.start initialCodec) passes).processed :=
  ((sessionLoop sha cfg).invariant (I := SessionLoop.Chained cfg)
    (fun _ _ => SessionLoop.pass_chained)
    ⟨Chain.kept_nil, fun _ hcalm => by cases hcalm⟩ h).kept

def plainSend : SendConfig := ⟨none, false⟩

def frameOf (isIdr : Bool) (bytes : List UInt8) : SendFrame := ⟨bytes, isIdr, 0, none, .evrtck⟩

def framePass (frame : SendFrame) : Pass := ⟨false, 0, some frame, 30, none⟩

/-- Where no request comes and no send fails, the frames are taken one after another. -/
theorem run_framePasses {sha : Sha256} {cfg : SendConfig} {s : SessionLoop}
    (hstop : s.stop = false) (frames : List SendFrame) :
    (sessionLoop sha cfg).run s (frames.map framePass) =
      frames.foldl (fun s frame => s.sendFrame sha cfg (framePass frame) frame) s := by
  induction frames generalizing s with
  | nil => rfl
  | cons frame frames ih =>
      have hpass : s.pass sha cfg (framePass frame) =
          s.sendFrame sha cfg (framePass frame) frame := by
        rw [SessionLoop.pass, if_neg (by simp [hstop])]
        rfl
      have hstep : ((sessionLoop sha cfg).step s (framePass frame)).1 =
          s.sendFrame sha cfg (framePass frame) frame := hpass
      rw [List.map_cons, Machine.run_cons, hstep, List.foldl_cons]
      exact ih rfl

theorem delta_chain_kept_two_frames :
    deltaChain.Kept ((sessionLoop Packetizer.zeroDigest plainSend).run
      (SessionLoop.start .evrtck)
      [framePass (frameOf true [1]), framePass (frameOf false [2])]).processed := by
  refine delta_chain_kept ⟨?_, ?_, trivial⟩
  · intro frame last _ hframe hdelta
    cases hframe
    cases hdelta
  · intro frame last _ _ _ _ _ hlast
    obtain rfl := List.mem_singleton.mp (List.mem_of_find?_eq_some hlast)
    exact ⟨by decide, by decide⟩

/-- A delta after a frame without datagrams breaks the chain. -/
theorem not_kept_of_hollow {sha : Sha256} {cfg : SendConfig} {s : SessionLoop}
    {key hollow delta : SendFrame} (hstop : s.stop = false) (hkey : key.isIdr = true)
    (hcodec : hollow.codec = key.codec) (hhollow : ¬ Fills cfg hollow)
    (hdelta : delta.isIdr = false) (hsame : delta.codec = hollow.codec)
    (hfills : Fills cfg delta) :
    ¬ deltaChain.Kept
      ((sessionLoop sha cfg).run s ([key, hollow, delta].map framePass)).processed := by
  intro hkept
  rw [run_framePasses hstop] at hkept
  simp only [List.foldl_cons, List.foldl_nil] at hkept
  have hfirst : (s.announced sha cfg key).skips key = false := SendLoop.skips_key hkey
  have hsecond := SessionLoop.announced_again (i := framePass key) hcodec hfirst
  have hthird := SessionLoop.announced_again (i := framePass hollow) hsame hsecond
  have hwhole := hkept [] _ _ rfl (SessionLoop.sends_of_fills hthird hfills rfl) hdelta
  exact hhollow (SessionLoop.sends_through hwhole.sent_head).2

/-- The second frame has one byte more than there is room for in its datagrams. -/
theorem oversize_delta_breaks_chain :
    ¬ ∀ (sha : Sha256) (cfg : SendConfig) (initialCodec : CodecLabel) (passes : List Pass),
      deltaChain.Kept
        ((sessionLoop sha cfg).run (SessionLoop.start initialCodec) passes).processed := by
  intro hall
  have hlength : (frameOf false (List.replicate 19267585 0)).bytes.length = 19267585 :=
    List.length_replicate
  have hhollow : ¬ Fills plainSend (frameOf false (List.replicate 19267585 0)) := by
    intro hfills
    rw [Fills, hlength] at hfills
    exact absurd hfills.2 (by decide)
  have hstart : (SessionLoop.start .evrtck).stop = false := rfl
  have hfills : Fills plainSend (frameOf false [2]) := ⟨by decide, by decide⟩
  have hbroken : ¬ deltaChain.Kept ((sessionLoop Packetizer.zeroDigest plainSend).run
      (SessionLoop.start .evrtck) ([frameOf true [1], frameOf false (List.replicate 19267585 0),
        frameOf false [2]].map framePass)).processed :=
    not_kept_of_hollow hstart rfl rfl hhollow rfl rfl hfills
  exact hbroken (hall Packetizer.zeroDigest plainSend .evrtck _)

end EvertyDesk.EvrtSession
