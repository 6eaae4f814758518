import EvertyDesk.Client.AudioReassembler
import EvertyDesk.Evrt.SessionConfig
import EvertyDesk.Lib.ChunkQueue

/-!
The sound of a session at the client: the receive thread puts the frames of the host
together and queues them, and writes to the device whenever it has room. Too much that waits
is thrown away from the front, and all of it when the viewer turns the sound off.

How long the queue is counts from the format of the device. Before a device has been opened
there is none, and nothing is thrown away.
-/

namespace EvertyDesk

def Evrt.AudioConfig.default : Evrt.AudioConfig := ⟨48000, 2, 16⟩

def Evrt.AudioConfig.bytesPerSample (cfg : Evrt.AudioConfig) : Nat := cfg.bitsPerSample.toNat / 8

def Evrt.AudioConfig.bytesPerFrame (cfg : Evrt.AudioConfig) : Nat :=
  cfg.channels.toNat * cfg.bytesPerSample

namespace Audio

open Evrt
open Packetizer (zeroDigest)

def typeAudioConfig : Nat := 5

def audioPrebufferMs : Nat := 40
def audioMaxBufferMs : Nat := 180

/-- Frames of at most eight slices are far too short for a number of 32 bits. -/
def pcmDurationMs (cfg : AudioConfig) (bytes : Nat) : Nat :=
  bytes / max cfg.bytesPerFrame 1 * 1000 / max cfg.sampleRate.toNat 1

/-- A device that has been opened. It takes blocks of at least one byte. -/
structure WasapiPlayer where
  blockAlign : Nat
  blockAlign_pos : 0 < blockAlign

/-- The device refuses a format without bytes, and may refuse any. -/
def WasapiPlayer.new (cfg : AudioConfig) (opens : Bool) : Option WasapiPlayer :=
  let blockAlign := (cfg.channels * cfg.bitsPerSample / 8).toNat
  if h : 0 < blockAlign ∧ opens then some ⟨blockAlign, h.1⟩ else none

/-- What is written to a device with room for some blocks, or that fails. -/
def WasapiPlayer.writeSome (inner : WasapiPlayer) (pcm : List UInt8) (available : Option Nat) :
    Option Nat :=
  available.map fun available => min (pcm.length / inner.blockAlign) available * inner.blockAlign

structure AudioPlayer where
  cfg : Option AudioConfig
  queue : ChunkQueue UInt8
  buffering : Bool
  inner : Option WasapiPlayer

/-- What the device does: whether it can be opened, and its room at each write. -/
structure Device where
  opens : Bool
  available : Nat → Option Nat

namespace AudioPlayer

def new : AudioPlayer where
  cfg := none
  queue := .empty
  buffering := true
  inner := none

variable (p : AudioPlayer)

def queuedMs : Nat :=
  match p.cfg with
  | none => 0
  | some cfg => pcmDurationMs cfg p.queue.size

def init (cfg : AudioConfig) (opens : Bool) : AudioPlayer :=
  if p.cfg = some cfg ∧ p.inner.isSome then p
  else
    match WasapiPlayer.new cfg opens with
    | some inner => { cfg := some cfg, queue := .empty, buffering := true, inner := some inner }
    | none => p

def clearBuffer : AudioPlayer := { p with queue := .empty, buffering := true }

/-- The oldest chunks are thrown away until the rest is short enough, or the last is left. -/
def trim : Nat → AudioPlayer → AudioPlayer
  | 0, p => p
  | chunks + 1, p =>
      if audioMaxBufferMs < p.queuedMs ∧ 1 < p.queue.chunks.length then
        trim chunks { p with queue := p.queue.dropFirst, buffering := false }
      else p

def enqueuePcm (pcm : List UInt8) : AudioPlayer :=
  trim (p.queue.chunks.length + 1) { p with queue := p.queue.push pcm }

/-- At most so many writes. Chunks that have been written whole are left first. -/
def writeLoop (inner : WasapiPlayer) (available : Nat → Option Nat) :
    Nat → AudioPlayer → AudioPlayer × List UInt8
  | 0, p => (p, [])
  | writes + 1, p =>
      let queue := p.queue.settle p.queue.chunks.length
      if h : queue.chunks = [] then ({ p with queue := queue, buffering := true }, [])
      else
        match inner.writeSome queue.first (available writes) with
        | none => ({ p with queue := queue }, [])
        | some 0 => ({ p with queue := queue }, [])
        | some (consumed + 1) =>
            let rest := writeLoop inner available writes
              { p with queue := queue.advance (consumed + 1) h }
            (rest.1, queue.first.take (consumed + 1) ++ rest.2)

def pump (available : Nat → Option Nat) : AudioPlayer × List UInt8 :=
  if p.buffering ∧ p.queuedMs < audioPrebufferMs then (p, [])
  else
    match p.inner with
    | none => ({ p with buffering := false }, [])
    | some inner => writeLoop inner available 8 { p with buffering := false }

/-- A device is opened for the default format if none has been. -/
def prepared (opens : Bool) : AudioPlayer :=
  if p.cfg = none ∨ p.inner.isNone then p.init .default opens else p

def play (pcm : List UInt8) (device : Device) : AudioPlayer × List UInt8 :=
  if pcm = [] then (p, [])
  else (((p.prepared device.opens).enqueuePcm pcm).pump device.available)

/-- A format that the device takes throws away what waits; another one changes nothing. -/
theorem init_cases (cfg : AudioConfig) (opens : Bool) :
    p.init cfg opens = p ∨ ∃ inner, WasapiPlayer.new cfg opens = some inner ∧
      p.init cfg opens = ⟨some cfg, .empty, true, some inner⟩ := by
  unfold init
  split
  · exact .inl rfl
  · split
    · next inner hinner => exact .inr ⟨inner, hinner, rfl⟩
    · exact .inl rfl

theorem prepared_cases (opens : Bool) :
    p.prepared opens = p ∨ p.prepared opens = p.init .default opens := by
  unfold prepared
  split
  · exact .inr rfl
  · exact .inl rfl

end AudioPlayer

/-- The receive thread's part of the sound. Since the sound was turned off last, `heard` are
the frames that were handed to the player, with their numbers, and `written` is what the
device got; both are ghosts. -/
structure SoundThread where
  audioRe : AudioReassembler
  player : AudioPlayer
  wasEnabled : Bool
  heard : List (Nat × List UInt8)
  written : List UInt8

/-- What the socket gives: a datagram of the host, something else, or nothing in time. -/
inductive Arrival where
  | datagram (bytes : List UInt8)
  | foreign
  | timeout

/-- What one pass of the thread reads. The device has room at the start of a pass, and room
for what the pass does after. -/
structure Pass where
  enabled : Bool
  available : Nat → Option Nat
  arrival : Arrival
  device : Device

namespace SoundThread

def start : SoundThread where
  audioRe := .new
  player := .new
  wasEnabled := true
  heard := []
  written := []

variable (s : SoundThread)

def setEnabled (enabled : Bool) : SoundThread :=
  if s.wasEnabled ∧ ¬ enabled then
    { s with player := s.player.clearBuffer, wasEnabled := false, heard := [], written := [] }
  else { s with wasEnabled := enabled }

def tick (available : Nat → Option Nat) : SoundThread :=
  if s.wasEnabled then
    { s with
      player := (s.player.pump available).1
      written := s.written ++ (s.player.pump available).2 }
  else s

def initPlayer (payload : List UInt8) (opens : Bool) : SoundThread :=
  match AudioConfig.fromJson payload with
  | some cfg => { s with player := s.player.init cfg opens }
  | none => s

/-- Frames are put together when the sound is off as well, and forgotten. -/
def hear (pkt : EvrtPacket) (device : Device) : SoundThread :=
  match (s.audioRe.onPacket pkt).2, s.wasEnabled with
  | some pcm, true =>
      { s with
        audioRe := (s.audioRe.onPacket pkt).1
        player := (s.player.play pcm device).1
        heard := s.heard ++ [(pkt.frameId, pcm)]
        written := s.written ++ (s.player.play pcm device).2 }
  | _, _ => { s with audioRe := (s.audioRe.onPacket pkt).1 }

def onPacket (pkt : EvrtPacket) (device : Device) : SoundThread :=
  if pkt.packetType = typeAudioConfig then s.initPlayer pkt.payload device.opens
  else if pkt.packetType = typeAudioFrame then s.hear pkt device
  else s

/-- One pass. Whether the sound is on is read once. -/
def pass (sha : Sha256) (sessionToken : Option (List UInt8)) (input : Pass) : SoundThread :=
  let s := (s.setEnabled input.enabled).tick input.available
  match input.arrival with
  | .datagram bytes =>
      match parseAuthenticated sha bytes bytes.length sessionToken with
      | some pkt => s.onPacket pkt input.device
      | none => s
  | .foreign => s
  | .timeout => s.tick input.device.available

end SoundThread

def soundThread (sha : Sha256) (sessionToken : Option (List UInt8)) :
    Machine SoundThread Pass Unit where
  step s input := (s.pass sha sessionToken input, ())

/-- Only the host can make a datagram of sound that the client takes. -/
def Pass.Genuine (sha : Sha256) (stream : AudioStream) (input : Pass) : Prop :=
  ∀ bytes pkt, input.arrival = .datagram bytes → stream.read sha bytes = some pkt →
    pkt.packetType = typeAudioFrame → stream.Sends sha bytes

/-! What the player writes are beginnings of the chunks that it is given. -/

section Writing

variable {p : AudioPlayer} {taken : List UInt8} {given : List (List UInt8)}

variable (h : p.queue.Accounts taken given)

include h

theorem accounts_init (cfg : AudioConfig) (opens : Bool) :
    (p.init cfg opens).queue.Accounts taken given := by
  obtain hsame | ⟨inner, -, hfresh⟩ := p.init_cases cfg opens
  · rwa [hsame]
  · rw [hfresh]
    exact h.clear

theorem accounts_trim (chunks : Nat) : (p.trim chunks).queue.Accounts taken given := by
  induction chunks generalizing p with
  | zero => exact h
  | succ chunks ih =>
      rw [AudioPlayer.trim]
      split
      · exact ih h.dropFirst
      · exact h

theorem accounts_writeLoop (inner : WasapiPlayer) (available : Nat → Option Nat) (writes : Nat) :
    (p.writeLoop inner available writes).1.queue.Accounts
      (taken ++ (p.writeLoop inner available writes).2) given := by
  induction writes generalizing p taken with
  | zero => simpa [AudioPlayer.writeLoop] using h
  | succ writes ih =>
      have hsettled := h.settle p.queue.chunks.length
      rw [AudioPlayer.writeLoop]
      dsimp only
      split
      · simpa using hsettled
      · next hsome =>
          split
          · simpa using hsettled
          · simpa using hsettled
          · next consumed _ =>
              have hrest := ih (p := { p with
                queue := (p.queue.settle p.queue.chunks.length).advance (consumed + 1) hsome })
                (hsettled.advance (consumed + 1) hsome)
              rwa [List.append_assoc] at hrest

theorem accounts_pump (available : Nat → Option Nat) :
    (p.pump available).1.queue.Accounts (taken ++ (p.pump available).2) given := by
  unfold AudioPlayer.pump
  split
  · simpa using h
  · split
    · simpa using h
    · next inner _ =>
        exact accounts_writeLoop (p := { p with buffering := false }) h inner available 8

theorem accounts_play (pcm : List UInt8) (device : Device) :
    (p.play pcm device).1.queue.Accounts (taken ++ (p.play pcm device).2) (given ++ [pcm]) := by
  unfold AudioPlayer.play
  split
  · rw [List.append_nil]
    exact h.more (List.sublist_append_left given [pcm])
  · have hprepared : (p.prepared device.opens).queue.Accounts taken given := by
      obtain hsame | hinit := p.prepared_cases device.opens
      · rwa [hsame]
      · rw [hinit]
        exact accounts_init h .default device.opens
    exact accounts_pump (accounts_trim (hprepared.push pcm) _) device.available

end Writing

/-! How much the player keeps. -/

/-- A device has been opened, and what waits for it is short, or a single chunk. -/
structure AudioPlayer.Opened (p : AudioPlayer) : Prop where
  cfg : p.cfg ≠ none
  short : p.queuedMs ≤ audioMaxBufferMs ∨ p.queue.chunks.length ≤ 1

/-- No device has been opened, and everything waits. -/
structure AudioPlayer.Unopened (p : AudioPlayer) (frames : List (List UInt8)) : Prop where
  cfg : p.cfg = none
  inner : p.inner = none
  buffering : p.buffering = true
  offset : p.queue.offset = 0
  chunks : p.queue.chunks = frames

section Keeping

variable {p q : AudioPlayer} {frames : List (List UInt8)}

theorem pcmDurationMs_mono (cfg : AudioConfig) {bytes more : Nat} (h : bytes ≤ more) :
    pcmDurationMs cfg bytes ≤ pcmDurationMs cfg more :=
  Nat.div_le_div_right (Nat.mul_le_mul_right 1000 (Nat.div_le_div_right h))

theorem AudioPlayer.Opened.of_atMost (h : p.Opened) (hcfg : q.cfg = p.cfg)
    (hqueue : q.queue.AtMost p.queue) : q.Opened := by
  refine ⟨hcfg ▸ h.cfg, h.short.imp (fun hshort => ?_) hqueue.length.trans⟩
  refine le_trans ?_ hshort
  unfold AudioPlayer.queuedMs
  rw [hcfg]
  split
  · exact le_rfl
  · exact pcmDurationMs_mono _ hqueue.size

theorem writeLoop_atMost (inner : WasapiPlayer) (available : Nat → Option Nat) (writes : Nat)
    (p : AudioPlayer) : (p.writeLoop inner available writes).1.cfg = p.cfg ∧
      (p.writeLoop inner available writes).1.queue.AtMost p.queue := by
  induction writes generalizing p with
  | zero => exact ⟨rfl, .refl _⟩
  | succ writes ih =>
      have hsettled := p.queue.settle_atMost p.queue.chunks.length
      rw [AudioPlayer.writeLoop]
      dsimp only
      split
      · exact ⟨rfl, hsettled⟩
      · next hsome =>
          split
          · exact ⟨rfl, hsettled⟩
          · exact ⟨rfl, hsettled⟩
          · next consumed _ =>
              obtain ⟨hcfg, hrest⟩ := ih { p with
                queue := (p.queue.settle p.queue.chunks.length).advance (consumed + 1) hsome }
              exact ⟨hcfg, hrest.trans ((ChunkQueue.advance_atMost _ _ hsome).trans hsettled)⟩

theorem opened_pump (h : p.Opened) (available : Nat → Option Nat) :
    (p.pump available).1.Opened := by
  unfold AudioPlayer.pump
  split
  · exact h
  · split
    · exact h.of_atMost rfl (.refl _)
    · next inner _ =>
        obtain ⟨hcfg, hqueue⟩ := writeLoop_atMost inner available 8 { p with buffering := false }
        exact h.of_atMost hcfg hqueue

theorem opened_init (h : p.Opened) (cfg : AudioConfig) (opens : Bool) :
    (p.init cfg opens).Opened := by
  obtain hsame | ⟨inner, -, hfresh⟩ := p.init_cases cfg opens
  · rwa [hsame]
  · rw [hfresh]
    exact ⟨Option.some_ne_none cfg, .inr (Nat.zero_le 1)⟩

/-- With as many turns as there are chunks the loop ends by its own condition. -/
theorem opened_trim {chunks : Nat} (hcfg : p.cfg ≠ none)
    (hchunks : p.queue.chunks.length ≤ chunks + 1) : (p.trim chunks).Opened := by
  induction chunks generalizing p with
  | zero => exact ⟨hcfg, .inr hchunks⟩
  | succ chunks ih =>
      rw [AudioPlayer.trim]
      split
      · apply ih (p := { p with queue := p.queue.dropFirst, buffering := false }) hcfg
        rw [ChunkQueue.dropFirst, List.length_tail]
        omega
      · next hends =>
          refine ⟨hcfg, ?_⟩
          omega

theorem opened_enqueuePcm (hcfg : p.cfg ≠ none) (pcm : List UInt8) : (p.enqueuePcm pcm).Opened := by
  apply opened_trim (p := { p with queue := p.queue.push pcm }) hcfg
  rw [ChunkQueue.push, List.length_append, List.length_singleton]
  omega

theorem init_unopened (h : p.Unopened frames) (cfg : AudioConfig) (opens : Bool) :
    ((p.init cfg opens).Opened ∧ opens = true) ∨ (p.init cfg opens).Unopened frames := by
  obtain hsame | ⟨inner, hinner, hfresh⟩ := p.init_cases cfg opens
  · rw [hsame]
    exact .inr h
  · rw [hfresh]
    refine .inl ⟨⟨Option.some_ne_none cfg, .inr (Nat.zero_le 1)⟩, ?_⟩
    unfold WasapiPlayer.new at hinner
    dsimp only at hinner
    split at hinner
    · next hopens => exact hopens.2
    · cases hinner

theorem AudioPlayer.Unopened.queuedMs (h : p.Unopened frames) : p.queuedMs = 0 := by
  rw [AudioPlayer.queuedMs, h.cfg]

theorem unopened_enqueuePcm (h : p.Unopened frames) (pcm : List UInt8) :
    (p.enqueuePcm pcm).Unopened (frames ++ [pcm]) := by
  have hpushed : AudioPlayer.Unopened { p with queue := p.queue.push pcm } (frames ++ [pcm]) :=
    ⟨h.cfg, h.inner, h.buffering, h.offset, congrArg (· ++ [pcm]) h.chunks⟩
  rw [AudioPlayer.enqueuePcm, AudioPlayer.trim, hpushed.queuedMs, if_neg (by omega)]
  exact hpushed

theorem pump_unopened (h : p.Unopened frames) (available : Nat → Option Nat) :
    p.pump available = (p, []) := by
  rw [AudioPlayer.pump, h.queuedMs, if_pos ⟨h.buffering, by decide⟩]

/-- Before a device has been opened nothing is written, and frames only come in. -/
theorem play_unopened (h : p.Unopened frames) {pcm : List UInt8} (hpcm : pcm ≠ [])
    (device : Device) :
    ((p.play pcm device).1.Opened ∧ device.opens = true) ∨
      ((p.play pcm device).1.Unopened (frames ++ [pcm]) ∧ (p.play pcm device).2 = []) := by
  rw [AudioPlayer.play, if_neg hpcm]
  have hprepared : p.prepared device.opens = p.init .default device.opens := if_pos (.inl h.cfg)
  rw [hprepared]
  obtain ⟨hopened, hopens⟩ | hunopened := init_unopened h .default device.opens
  · exact .inl ⟨opened_pump (opened_enqueuePcm hopened.cfg pcm) device.available, hopens⟩
  · have henqueued := unopened_enqueuePcm hunopened pcm
    rw [pump_unopened henqueued]
    exact .inr ⟨henqueued, rfl⟩

theorem opened_play (h : p.Opened) (pcm : List UInt8) (device : Device) :
    (p.play pcm device).1.Opened := by
  unfold AudioPlayer.play
  split
  · exact h
  · have hprepared : (p.prepared device.opens).Opened := by
      obtain hsame | hinit := p.prepared_cases device.opens
      · rwa [hsame]
      · rw [hinit]
        exact opened_init h .default device.opens
    exact opened_pump (opened_enqueuePcm hprepared.cfg pcm) device.available

end Keeping

/-! Whole runs of the thread. -/

namespace SoundThread

/-- What was heard of a stream since the sound was turned off last, and what the device got
of it. -/
structure Faithful (stream : AudioStream) (s : SoundThread) : Prop where
  exact : ∀ frame ∈ s.heard, frame.2 = stream.pcm frame.1
  written : ∃ parts : List (List UInt8 × Nat),
    (parts.map Prod.fst).Sublist (s.heard.map Prod.snd) ∧ s.written = ChunkQueue.beginnings parts
  silent : s.wasEnabled = false → s.heard = [] ∧ s.written = [] ∧ s.player.queue.chunks = []

/-- The reassembler has taken slices of the stream, and what was heard was handed over
by it. -/
structure Kept (stream : AudioStream) (s : SoundThread) : Prop where
  fed : ∃ pkts, (∀ pkt ∈ pkts, stream.Carries pkt) ∧ machine.run .new pkts = s.audioRe ∧
    ∀ frame ∈ s.heard, frame ∈ deliveries .new pkts
  accounts : s.player.queue.Accounts s.written (s.heard.map Prod.snd)
  silent : s.wasEnabled = false → s.heard = [] ∧ s.written = [] ∧ s.player.queue.chunks = []

variable {stream : AudioStream} {s : SoundThread}

theorem Kept.faithful (h : s.Kept stream) : s.Faithful stream where
  exact frame hframe := by
    obtain ⟨pkts, hpkts, -, hheard⟩ := h.fed
    exact deliveries_exact hpkts frame (hheard frame hframe)
  written := h.accounts.parts
  silent := h.silent

theorem kept_start : start.Kept stream where
  fed := ⟨[], fun _ h => absurd h List.not_mem_nil, rfl, fun _ h => absurd h List.not_mem_nil⟩
  accounts := ChunkQueue.accounts_empty
  silent habsurd := nomatch habsurd

theorem kept_setEnabled (h : s.Kept stream) (enabled : Bool) :
    (s.setEnabled enabled).Kept stream := by
  unfold setEnabled
  split
  · obtain ⟨pkts, hpkts, hrun, -⟩ := h.fed
    exact ⟨⟨pkts, hpkts, hrun, fun _ hmem => absurd hmem List.not_mem_nil⟩,
      ChunkQueue.accounts_empty, fun _ => ⟨rfl, rfl, rfl⟩⟩
  · next hstays =>
      refine ⟨h.fed, h.accounts, fun hoff => h.silent ?_⟩
      have hoff : enabled = false := hoff
      simpa [hoff] using hstays

theorem kept_tick (h : s.Kept stream) (available : Nat → Option Nat) :
    (s.tick available).Kept stream := by
  unfold tick
  split
  · next hon =>
      exact ⟨h.fed, accounts_pump h.accounts available,
        fun hoff => absurd (hon.symm.trans hoff) (by decide)⟩
  · exact h

theorem chunks_init {p : AudioPlayer} (h : p.queue.chunks = []) (cfg : AudioConfig)
    (opens : Bool) : (p.init cfg opens).queue.chunks = [] := by
  obtain hsame | ⟨inner, -, hfresh⟩ := p.init_cases cfg opens
  · rwa [hsame]
  · rw [hfresh]
    rfl

theorem kept_initPlayer (h : s.Kept stream) (payload : List UInt8) (opens : Bool) :
    (s.initPlayer payload opens).Kept stream := by
  unfold initPlayer
  split
  · next cfg _ =>
      refine ⟨h.fed, accounts_init h.accounts cfg opens, fun hoff => ?_⟩
      obtain ⟨hheard, hwritten, hchunks⟩ := h.silent hoff
      exact ⟨hheard, hwritten, chunks_init hchunks cfg opens⟩
  · exact h

theorem deliveries_concat (r : AudioReassembler) (pkts : List EvrtPacket) (pkt : EvrtPacket) :
    deliveries r (pkts ++ [pkt]) = deliveries r pkts ++
      (((machine.run r pkts).onPacket pkt).2.map fun pcm => (pkt.frameId, pcm)).toList := by
  rw [deliveries, Machine.outputs_append, List.filterMap_append]
  exact congrArg (deliveries r pkts ++ ·)
    ((deliveries_cons (machine.run r pkts) pkt []).trans (List.append_nil _))

theorem kept_hear (h : s.Kept stream) {pkt : EvrtPacket} (hpkt : stream.Carries pkt)
    (device : Device) : (s.hear pkt device).Kept stream := by
  obtain ⟨pkts, hpkts, hrun, hheard⟩ := h.fed
  have hmore : ∀ next ∈ pkts ++ [pkt], stream.Carries next := by
    intro next hnext
    obtain hnext | hnext := List.mem_append.mp hnext
    · exact hpkts next hnext
    · exact List.mem_singleton.mp hnext ▸ hpkt
  have hnext : machine.run .new (pkts ++ [pkt]) = (s.audioRe.onPacket pkt).1 := by
    rw [Machine.run_append, hrun]
    rfl
  have hdeliveries := deliveries_concat .new pkts pkt
  rw [hrun] at hdeliveries
  unfold hear
  split
  · next pcm hpcm hon =>
      refine ⟨⟨pkts ++ [pkt], hmore, hnext, fun frame hframe => ?_⟩, ?_,
        fun hoff => absurd (hon.symm.trans hoff) (by decide)⟩
      · rw [hdeliveries, hpcm]
        obtain hframe | hframe := List.mem_append.mp hframe
        · exact List.mem_append_left _ (hheard frame hframe)
        · exact List.mem_append_right _ hframe
      · rw [List.map_append]
        exact accounts_play h.accounts pcm device
  · refine ⟨⟨pkts ++ [pkt], hmore, hnext, fun frame hframe => ?_⟩, h.accounts, h.silent⟩
    rw [hdeliveries]
    exact List.mem_append_left _ (hheard frame hframe)

theorem kept_pass {sha : Sha256} (h : s.Kept stream) {input : Pass}
    (hgenuine : input.Genuine sha stream) :
    (s.pass sha stream.sessionToken input).Kept stream := by
  have hready := kept_tick (kept_setEnabled h input.enabled) input.available
  unfold pass
  dsimp only
  split
  · next bytes harrival =>
      split
      · next pkt hread =>
          unfold onPacket
          split
          · exact kept_initPlayer hready pkt.payload input.device.opens
          · split
            · next haudio =>
                obtain ⟨sent, hsent, hcarries⟩ :=
                  stream.read_sends sha (hgenuine bytes pkt harrival hread haudio)
                obtain rfl := Option.some.inj (hread.symm.trans hsent)
                exact kept_hear hready hcarries input.device
            · exact hready
      · exact hready
  · exact hready
  · exact kept_tick hready input.device.available

end SoundThread

/-- Whatever arrives in any order, and whatever the device has room for: what was written
since the sound was turned off last are beginnings of some of the frames that were handed
over since then, in that order, and each of these is what the host sent under its number.
While the sound is off there is nothing. -/
theorem plays_what_was_sent (sha : Sha256) (stream : AudioStream) (passes : List Pass)
    (h : ∀ input ∈ passes, input.Genuine sha stream) :
    ((soundThread sha stream.sessionToken).run .start passes).Faithful stream :=
  ((soundThread sha stream.sessionToken).invariant
    (C := fun _ input => input.Genuine sha stream) (I := SoundThread.Kept stream)
    (fun _ _ hkept hgenuine => SoundThread.kept_pass hkept hgenuine) SoundThread.kept_start
    (Machine.along_of_inputs _ h SoundThread.start)).faithful

/-- One byte a second, so that a single one is played at once. -/
def slowConfig : List UInt8 := buildPacket typeAudioConfig 0 0 0 1 0 (AudioConfig.toJson ⟨1, 1, 8⟩)

def roomyPass (bytes : List UInt8) : Pass where
  enabled := true
  available _ := some 10
  arrival := .datagram bytes
  device := ⟨true, fun _ => some 10⟩

theorem roomyPass_genuine (bytes : List UInt8) (h : bytes ∈ [slowConfig, beepDatagram]) :
    (roomyPass bytes).Genuine zeroDigest beep := by
  intro sent pkt harrival hread haudio
  obtain rfl := Arrival.datagram.inj harrival
  obtain rfl | hbeep := List.mem_cons.mp h
  · have htype : (beep.read zeroDigest slowConfig).map EvrtPacket.packetType =
        some typeAudioConfig := by
      decide +kernel
    rw [hread, Option.map_some, haudio] at htype
    exact absurd htype (by decide)
  · exact List.mem_singleton.mp hbeep ▸ beep_sends

theorem plays_what_was_sent_beep :
    let s := (soundThread zeroDigest none).run .start ([slowConfig, beepDatagram].map roomyPass)
    s.Faithful beep ∧ s.written = [7] :=
  ⟨plays_what_was_sent zeroDigest beep _ (List.forall_mem_map.mpr roomyPass_genuine),
    by decide +kernel⟩

namespace SoundThread

/-- No device has been opened. Nothing has been written, and every frame that was heard
waits. -/
structure Waiting (s : SoundThread) : Prop where
  unopened : s.player.Unopened ((s.heard.map Prod.snd).filter fun pcm => !pcm.isEmpty)
  written : s.written = []

variable {s : SoundThread}

theorem waiting_start : start.Waiting := ⟨⟨rfl, rfl, rfl, rfl, rfl⟩, rfl⟩

theorem opened_setEnabled (h : s.player.Opened) (enabled : Bool) :
    (s.setEnabled enabled).player.Opened := by
  unfold setEnabled
  split
  · exact h.of_atMost rfl ⟨Nat.zero_le _, Nat.zero_le _⟩
  · exact h

theorem opened_tick (h : s.player.Opened) (available : Nat → Option Nat) :
    (s.tick available).player.Opened := by
  unfold tick
  split
  · exact opened_pump h available
  · exact h

theorem opened_onPacket (h : s.player.Opened) (pkt : EvrtPacket) (device : Device) :
    (s.onPacket pkt device).player.Opened := by
  unfold onPacket
  split
  · unfold initPlayer
    split
    · next cfg _ => exact opened_init h cfg device.opens
    · exact h
  · split
    · unfold hear
      split
      · next pcm _ _ => exact opened_play h pcm device
      · exact h
    · exact h

theorem waiting_setEnabled (h : s.Waiting) (enabled : Bool) : (s.setEnabled enabled).Waiting := by
  unfold setEnabled
  split
  · exact ⟨⟨h.unopened.cfg, h.unopened.inner, rfl, rfl, rfl⟩, rfl⟩
  · exact ⟨h.unopened, h.written⟩

theorem waiting_tick (h : s.Waiting) (available : Nat → Option Nat) :
    (s.tick available).Waiting := by
  unfold tick
  split
  · rw [pump_unopened h.unopened, List.append_nil]
    exact h
  · exact h

theorem waiting_hear (h : s.Waiting) (pkt : EvrtPacket) (device : Device) :
    ((s.hear pkt device).player.Opened ∧ device.opens = true) ∨ (s.hear pkt device).Waiting := by
  unfold hear
  split
  · next pcm _ _ =>
      by_cases hpcm : pcm = []
      · subst hpcm
        refine .inr ⟨?_, ?_⟩
        · simpa [AudioPlayer.play] using h.unopened
        · simpa [AudioPlayer.play] using h.written
      · obtain hopened | ⟨hunopened, hnothing⟩ := play_unopened h.unopened hpcm device
        · exact .inl hopened
        · refine .inr ⟨?_, ?_⟩
          · simpa [hpcm] using hunopened
          · simp [h.written, hnothing]
  · exact .inr ⟨h.unopened, h.written⟩

theorem waiting_onPacket (h : s.Waiting) (pkt : EvrtPacket) (device : Device) :
    ((s.onPacket pkt device).player.Opened ∧ device.opens = true) ∨
      (s.onPacket pkt device).Waiting := by
  unfold onPacket
  split
  · unfold initPlayer
    split
    · next cfg _ =>
        obtain hopened | hunopened := init_unopened h.unopened cfg device.opens
        · exact .inl hopened
        · exact .inr ⟨hunopened, h.written⟩
    · exact .inr h
  · split
    · exact waiting_hear h pkt device
    · exact .inr h

theorem opened_pass (sha : Sha256) (sessionToken : Option (List UInt8))
    (h : s.player.Opened) (input : Pass) : (s.pass sha sessionToken input).player.Opened := by
  have hready := opened_tick (opened_setEnabled h input.enabled) input.available
  unfold pass
  dsimp only
  split
  · split
    · next pkt _ => exact opened_onPacket hready pkt input.device
    · exact hready
  · exact hready
  · exact opened_tick hready input.device.available

theorem waiting_pass (sha : Sha256) (sessionToken : Option (List UInt8)) (h : s.Waiting)
    (input : Pass) :
    ((s.pass sha sessionToken input).player.Opened ∧ input.device.opens = true) ∨
      (s.pass sha sessionToken input).Waiting := by
  have hready := waiting_tick (waiting_setEnabled h input.enabled) input.available
  unfold pass
  dsimp only
  split
  · split
    · next pkt _ => exact waiting_onPacket hready pkt input.device
    · exact .inr hready
  · exact .inr hready
  · exact .inr (waiting_tick hready input.device.available)

end SoundThread

/-- In every run, once a device could be opened, what waits is at most as long as the bound,
or a single chunk. Until then nothing is thrown away: all frames that were heard wait, however
many these are. -/
theorem waits_whole_until_opened (sha : Sha256) (sessionToken : Option (List UInt8))
    (passes : List Pass) :
    (((soundThread sha sessionToken).run .start passes).player.Opened ∧
        ∃ input ∈ passes, input.device.opens = true) ∨
      ((soundThread sha sessionToken).run .start passes).Waiting := by
  apply (soundThread sha sessionToken).invariant_history (C := fun _ _ => True)
    (I := fun before s => (s.player.Opened ∧ ∃ input ∈ before, input.device.opens = true) ∨
      s.Waiting) ?_ (.inr SoundThread.waiting_start)
    (Machine.along_of_forall _ (fun _ _ => trivial) _ _)
  rintro before s input (⟨hopened, earlier, hearlier, hopens⟩ | hwaiting) -
  · exact .inl ⟨SoundThread.opened_pass sha sessionToken hopened input, earlier,
      List.mem_append_left _ hearlier, hopens⟩
  · obtain ⟨hopened, hopens⟩ | hwaiting := SoundThread.waiting_pass sha sessionToken hwaiting input
    · exact .inl ⟨hopened, input, List.mem_append_right _ (List.mem_singleton_self input), hopens⟩
    · exact .inr hwaiting

end Audio

end EvertyDesk
