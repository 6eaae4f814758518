import EvertyDesk.Lib.Machine
import EvertyDesk.Lib.Maps

/-!
The host's video pipeline: the command loop, the video services it starts and
stops, one for each subscribed display, and the channel through which all of
them send frames to the EVRT session.

A pipeline has one EVRT session at most. What decides whether and when a
service encodes a frame is left open: a frame may be encoded at any time, and a
service whose thread has ended encodes no more. Commands that neither start nor
stop services are left out. Sets of displays are lists without duplicates; they
are gone through in any order.
-/

namespace EvertyDesk.Host

inductive PreferCodec where
  | auto
  | vp9
  | h264
  | h265
  | vp8
  | av1
deriving DecidableEq, Repr

structure ClientVideoSupport where
  h264 : Bool
  h265 : Bool
  av1 : Bool
  prefer : PreferCodec
deriving DecidableEq, Repr

/-- A running service. Its thread counts the frames that it encodes; the
thread's number says which one it is and is not read by the code. -/
structure VideoService where
  clientVideo : ClientVideoSupport
  usingEvrtck : Bool
  frameId : UInt32
  thread : Nat
deriving DecidableEq, Repr

/-- The frames that the EVRT channel holds at most. -/
def evrtChannelCapacity : Nat := 2

structure Pipeline where
  services : AList fun _ : Int => VideoService
  subscribedDisplays : List Int
  clientVideo : ClientVideoSupport
  wantEvrtck : Bool
  firstCodecSet : Bool
  pendingGameVideo : ClientVideoSupport
  gameCodecCommitted : Bool
  siliconActive : Bool
  /-- A peer has punched and the session has not ended. -/
  evrtActive : Bool
  /-- What the command loop last saw of it. -/
  prevEvrt : Bool
  /-- The session is over; there is no second one. -/
  evrtEnded : Bool
  /-- The frames in the channel, by number. -/
  channel : List UInt32
  /-- How many threads have been started. -/
  threads : Nat

/-- A frame that is put into the EVRT channel. -/
structure Put where
  frameId : UInt32
  thread : Nat
deriving DecidableEq, Repr

/-- EVRTCK is what clients get that do not ask for a particular codec. -/
def PreferCodec.wantsEvrtck (prefer : PreferCodec) : Bool := prefer == .auto || prefer == .vp9

/-- The codec that is committed when the EVRT session starts. -/
def ClientVideoSupport.best (video : ClientVideoSupport) : PreferCodec :=
  if video.prefer = .av1 ∧ video.av1 then .av1
  else if video.prefer = .h265 ∧ video.h265 then .h265
  else if video.prefer = .h264 ∧ video.h264 then .h264
  else if video.h265 then .h265
  else video.prefer

def evrtckSiliconPrefer (client : ClientVideoSupport) (evrtLive : Bool) : Option PreferCodec :=
  if client.h264 then some .h264
  else if evrtLive && client.h265 then some .h265
  else if evrtLive && client.av1 then some .av1
  else none

namespace Pipeline

variable (iter : IterOrder Int)

/-- The new thread counts from zero. -/
def startVideoService (p : Pipeline) (display : Int) : Pipeline :=
  { p with
    services := p.services.insert display {
      clientVideo := p.clientVideo
      usingEvrtck := p.wantEvrtck
      frameId := 0
      thread := p.threads }
    threads := p.threads + 1 }

/-- The thread is joined before the service is forgotten. -/
def stopVideoService (p : Pipeline) (display : Int) : Pipeline :=
  { p with services := p.services.erase display }

/-- A service runs with another codec than the one wanted now. -/
def outdated (p : Pipeline) (display : Int) : Bool :=
  match p.services.lookup display with
  | some service =>
      decide (service.clientVideo ≠ p.clientVideo) || service.usingEvrtck != p.wantEvrtck
  | none => false

/-- Stop the services of displays that are not wanted any more and those with
another codec, then start those that are missing. -/
def setSubscribedDisplays (p : Pipeline) (displays : List Int) : Pipeline :=
  let next := (displays.map fun display => max display 0).dedup
  let next := if next.isEmpty then [0] else next
  let restart := (iter.order (next.filter (· ∈ p.subscribedDisplays))).filter p.outdated
  let removed := iter.order (p.subscribedDisplays.filter (· ∉ next)) ++ restart
  let p := removed.foldl stopVideoService p
  let added := (iter.order next).filter fun display =>
    (p.services.lookup display).isNone
  let p := added.foldl startVideoService p
  { p with subscribedDisplays := next }

/-- Restart the services with the codec chosen last. -/
def restartServices (p : Pipeline) : Pipeline := p.setSubscribedDisplays iter p.subscribedDisplays

def withGameCodec (p : Pipeline) (prefer : PreferCodec) : Pipeline :=
  { p with
    gameCodecCommitted := true
    clientVideo := { p.pendingGameVideo with prefer := prefer } }

/-- The one choice of a codec in game mode. -/
def commitGameCodec (p : Pipeline) (prefer : PreferCodec) : Pipeline :=
  if p.subscribedDisplays.isEmpty then p.withGameCodec prefer
  else (p.withGameCodec prefer).restartServices iter

/-- The pipeline as it is before its first command: one display. -/
def start (initial : ClientVideoSupport) : Pipeline :=
  let p : Pipeline := {
    services := ∅
    subscribedDisplays := []
    clientVideo := initial
    wantEvrtck := initial.prefer.wantsEvrtck
    firstCodecSet := false
    pendingGameVideo := initial
    gameCodecCommitted := false
    siliconActive := false
    evrtActive := false
    prevEvrt := false
    evrtEnded := false
    channel := []
    threads := 0 }
  p.setSubscribedDisplays iter [0]

/-- Note a change of the EVRT session; the codec of a game is committed when
the session starts. -/
def noteEvrt (p : Pipeline) : Pipeline :=
  if p.evrtActive != p.prevEvrt then
    let seen := { p with prevEvrt := p.evrtActive }
    if p.evrtActive && !p.wantEvrtck && !p.gameCodecCommitted then
      seen.commitGameCodec iter p.pendingGameVideo.best
    else seen
  else p

/-- The top of the command loop: the codec of a game is also committed once the
wait for the session is over. -/
def poll (p : Pipeline) (deadlinePassed : Bool) : Pipeline :=
  let p := p.noteEvrt iter
  if !p.wantEvrtck && !p.gameCodecCommitted && deadlinePassed then
    p.commitGameCodec iter .h264
  else p

/-- Whether the client gets EVRTCK is decided by the first codec it sets. -/
def noteFirstCodec (p : Pipeline) (newVideo : ClientVideoSupport) : Pipeline :=
  if p.firstCodecSet then p
  else { p with
    firstCodecSet := true
    wantEvrtck := newVideo.prefer.wantsEvrtck }

/-- Codecs that need EVRT are not taken without it. -/
def effectiveVideo (p : Pipeline) (newVideo : ClientVideoSupport) :
    ClientVideoSupport :=
  if !p.evrtActive && (newVideo.prefer == .h265 || newVideo.prefer == .av1) then
    { newVideo with prefer := .h264 }
  else newVideo

def setClientCodec (p : Pipeline) (newVideo : ClientVideoSupport) : Pipeline :=
  let p := p.noteFirstCodec newVideo
  if !p.wantEvrtck then
    let clientVideo := { p.clientVideo with
      h264 := newVideo.h264
      h265 := newVideo.h265
      av1 := newVideo.av1 }
    if p.gameCodecCommitted then { p with clientVideo := clientVideo }
    else { p with pendingGameVideo := newVideo, clientVideo := clientVideo }
  else
    let effVideo := p.effectiveVideo newVideo
    if effVideo.prefer = p.clientVideo.prefer then
      { p with clientVideo := effVideo }
    else { p with clientVideo := effVideo }.restartServices iter

def withSilicon (p : Pipeline) (prefer : PreferCodec) : Pipeline :=
  { p with
    wantEvrtck := false
    siliconActive := true
    clientVideo := { p.clientVideo with prefer := prefer } }

def withEvrtck (p : Pipeline) : Pipeline :=
  { p with
    siliconActive := false
    wantEvrtck := true
    clientVideo := { p.clientVideo with prefer := .auto } }

/-- Follow a service's request to leave EVRTCK for a hardware codec. -/
def leaveEvrtck (p : Pipeline) : Pipeline :=
  match evrtckSiliconPrefer p.clientVideo p.evrtActive with
  | some prefer => (p.withSilicon prefer).restartServices iter
  | none => p

def returnToEvrtck (p : Pipeline) : Pipeline := p.withEvrtck.restartServices iter

/-- What the command loop does when no command came. -/
def idle (p : Pipeline) (siliconRequested returnRequested : Bool) : Pipeline :=
  let p :=
    if siliconRequested && p.wantEvrtck then p.leaveEvrtck iter else p
  if returnRequested && p.siliconActive then p.returnToEvrtck iter else p

/-- A service has encoded a frame: it takes the next number, and the frame goes
into the EVRT channel if the session is on and the channel has room. `evrtOn`
is what the service saw of the session before it encoded. -/
def encoded (p : Pipeline) (display : Int) (evrtOn : Bool) : Pipeline × Option Put :=
  match p.services.lookup display with
  | none => (p, none)
  | some service =>
      let frameId := service.frameId + 1
      let p := { p with
        services := p.services.insert display { service with frameId := frameId } }
      if evrtOn && p.evrtActive && decide (p.channel.length < evrtChannelCapacity) then
        ({ p with channel := p.channel ++ [frameId] },
          some { frameId := frameId, thread := service.thread })
      else (p, none)

end Pipeline

/-- One step of the pipeline: of its command loop, of the EVRT session, or of a
service. -/
inductive Input where
  | poll (deadlinePassed : Bool)
  | setDisplay (display : Int)
  | setSubscribedDisplays (displays : List Int)
  | addSubscribedDisplays (displays : List Int)
  | removeSubscribedDisplays (displays : List Int)
  | setClientCodec (newVideo : ClientVideoSupport)
  | idle (siliconRequested returnRequested : Bool)
  | punch
  | sessionEnded
  | receive
  | encoded (display : Int) (evrtOn : Bool)

def Pipeline.step (iter : IterOrder Int) (p : Pipeline) : Input → Pipeline × Option Put
  | .poll deadlinePassed => (p.poll iter deadlinePassed, none)
  | .setDisplay display => (p.setSubscribedDisplays iter [max display 0], none)
  | .setSubscribedDisplays displays => (p.setSubscribedDisplays iter displays, none)
  | .addSubscribedDisplays displays =>
      (p.setSubscribedDisplays iter
        (p.subscribedDisplays ++ displays.map fun display => max display 0), none)
  | .removeSubscribedDisplays displays =>
      let removed := displays.map fun display => max display 0
      (p.setSubscribedDisplays iter (p.subscribedDisplays.filter (· ∉ removed)), none)
  | .setClientCodec newVideo => (p.setClientCodec iter newVideo, none)
  | .idle siliconRequested returnRequested =>
      (p.idle iter siliconRequested returnRequested, none)
  | .punch => (if p.evrtEnded then p else { p with evrtActive := true }, none)
  | .sessionEnded =>
      (if p.evrtActive then { p with evrtActive := false, evrtEnded := true } else p, none)
  | .receive => ({ p with channel := p.channel.drop 1 }, none)
  | .encoded display evrtOn => p.encoded display evrtOn

def pipeline (iter : IterOrder Int) : Machine Pipeline Input (Option Put) where
  step := Pipeline.step iter

/-! What every command keeps. -/

/-- A property of the services and their displays that a change of the subscription
keeps. -/
structure Kept (iter : IterOrder Int) (I : Pipeline → Prop) : Prop where
  congr : ∀ {p p' : Pipeline}, I p → p'.services = p.services →
    p'.subscribedDisplays = p.subscribedDisplays → p'.threads = p.threads → I p'
  setSubscribedDisplays : ∀ {p : Pipeline} (displays : List Int), I p →
    I (p.setSubscribedDisplays iter displays)

namespace Kept

variable {iter : IterOrder Int} {I : Pipeline → Prop} {p : Pipeline}

variable (kept : Kept iter I) (h : I p)

include kept h

theorem restartServices : I (p.restartServices iter) := kept.setSubscribedDisplays _ h

theorem commitGameCodec (prefer : PreferCodec) : I (p.commitGameCodec iter prefer) := by
  have hcommitted : I (p.withGameCodec prefer) := kept.congr h rfl rfl rfl
  unfold Pipeline.commitGameCodec
  split
  · exact hcommitted
  · exact kept.restartServices hcommitted

theorem noteEvrt : I (p.noteEvrt iter) := by
  have hseen : I { p with prevEvrt := p.evrtActive } := kept.congr h rfl rfl rfl
  unfold Pipeline.noteEvrt
  split
  · dsimp only
    split
    · exact kept.commitGameCodec hseen _
    · exact hseen
  · exact h

theorem poll (deadlinePassed : Bool) : I (p.poll iter deadlinePassed) := by
  have hnoted := kept.noteEvrt h
  unfold Pipeline.poll
  dsimp only
  split
  · exact kept.commitGameCodec hnoted _
  · exact hnoted

theorem noteFirstCodec (newVideo : ClientVideoSupport) : I (p.noteFirstCodec newVideo) := by
  unfold Pipeline.noteFirstCodec
  split
  · exact h
  · exact kept.congr h rfl rfl rfl

theorem setClientCodec (newVideo : ClientVideoSupport) : I (p.setClientCodec iter newVideo) := by
  have hfirst := kept.noteFirstCodec h newVideo
  unfold Pipeline.setClientCodec
  generalize p.noteFirstCodec newVideo = q at hfirst ⊢
  have hvideo : ∀ video, I { q with clientVideo := video } := fun _ => kept.congr hfirst rfl rfl rfl
  dsimp only
  split
  · split
    · exact kept.congr hfirst rfl rfl rfl
    · exact kept.congr hfirst rfl rfl rfl
  · split
    · exact hvideo (q.effectiveVideo newVideo)
    · exact kept.restartServices (hvideo (q.effectiveVideo newVideo))

theorem leaveEvrtck : I (p.leaveEvrtck iter) := by
  have hchosen : ∀ prefer, I (p.withSilicon prefer) := fun _ => kept.congr h rfl rfl rfl
  unfold Pipeline.leaveEvrtck
  split
  · exact kept.restartServices (hchosen _)
  · exact h

theorem returnToEvrtck : I (p.returnToEvrtck iter) := by
  have hback : I p.withEvrtck := kept.congr h rfl rfl rfl
  exact kept.restartServices hback

theorem idle (siliconRequested returnRequested : Bool) :
    I (p.idle iter siliconRequested returnRequested) := by
  have hleft : I (if siliconRequested && p.wantEvrtck then p.leaveEvrtck iter else p) := by
    split
    · exact kept.leaveEvrtck h
    · exact h
  unfold Pipeline.idle
  dsimp only
  generalize (if siliconRequested && p.wantEvrtck then
    p.leaveEvrtck iter else p) = q at hleft ⊢
  split
  · exact kept.returnToEvrtck hleft
  · exact hleft

/-- Only a service that encodes does anything else, and only it puts a frame into
the channel. -/
theorem step {input : Input} (hinput : ∀ display evrtOn, input ≠ .encoded display evrtOn) :
    (p.step iter input).2 = none ∧ I (p.step iter input).1 := by
  cases input with
  | poll deadlinePassed => exact ⟨rfl, kept.poll h deadlinePassed⟩
  | setDisplay display => exact ⟨rfl, kept.setSubscribedDisplays _ h⟩
  | setSubscribedDisplays displays => exact ⟨rfl, kept.setSubscribedDisplays _ h⟩
  | addSubscribedDisplays displays => exact ⟨rfl, kept.setSubscribedDisplays _ h⟩
  | removeSubscribedDisplays displays => exact ⟨rfl, kept.setSubscribedDisplays _ h⟩
  | setClientCodec newVideo => exact ⟨rfl, kept.setClientCodec h newVideo⟩
  | idle siliconRequested returnRequested =>
      exact ⟨rfl, kept.idle h siliconRequested returnRequested⟩
  | punch =>
      refine ⟨rfl, ?_⟩
      simp only [Pipeline.step]
      split
      · exact h
      · exact kept.congr h rfl rfl rfl
  | sessionEnded =>
      refine ⟨rfl, ?_⟩
      simp only [Pipeline.step]
      split
      · exact kept.congr h rfl rfl rfl
      · exact h
  | receive => exact ⟨rfl, kept.congr h rfl rfl rfl⟩
  | encoded display evrtOn => exact absurd rfl (hinput display evrtOn)

end Kept

end EvertyDesk.Host
