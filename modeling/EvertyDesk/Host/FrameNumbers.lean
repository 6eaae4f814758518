import EvertyDesk.Client.ReassemblerInOrder
import EvertyDesk.Host.Pipeline

/-!
The numbers of the frames of an EVRT session. Every service counts for itself
and from zero, so the numbers that go into the channel increase as long as the
same service sends, and from one service to another only if the second is ahead
of the first. The client's reassembler then discards no frame as completed.
-/

namespace EvertyDesk.Host

open Reassembler

/-- A pipeline and the frame it put into the channel last. -/
structure Tracked where
  pipeline : Pipeline
  lastPut : Option Put

def Tracked.start (iter : IterOrder Int) (initial : ClientVideoSupport) : Tracked where
  pipeline := Pipeline.start iter initial
  lastPut := none

def tracked (iter : IterOrder Int) : Machine Tracked Input (Option Put) where
  step s input :=
    ({ pipeline := (s.pipeline.step iter input).1
       lastPut := (s.pipeline.step iter input).2.or s.lastPut },
      (s.pipeline.step iter input).2)

/-- The frames of a run, in the order in which they are put into the channel. -/
def puts (iter : IterOrder Int) (initial : ClientVideoSupport) (inputs : List Input) : List Put :=
  ((pipeline iter).outputs (Pipeline.start iter initial) inputs).filterMap id

/-- No service encodes a frame after the last 32-bit number. -/
def CountsOn (s : Tracked) : Input → Prop
  | .encoded display _ => ∀ service,
      s.pipeline.services.lookup display = some service →
      service.frameId.toNat + 1 < 2 ^ 32
  | _ => True

/-- A service whose frame goes into the channel after one of another service
has counted at least as far as that one. -/
def HandsOver (s : Tracked) : Input → Prop
  | .encoded display evrtOn => ∀ service last,
      s.pipeline.services.lookup display = some service →
      evrtOn = true → s.pipeline.evrtActive = true →
      s.pipeline.channel.length < evrtChannelCapacity →
      s.lastPut = some last → last.thread ≠ service.thread →
      last.frameId.toNat ≤ service.frameId.toNat
  | _ => True

def Increasing (frames : List Put) : Prop :=
  frames.Pairwise fun earlier later => earlier.frameId.toNat < later.frameId.toNat

/-- Whatever of the frames is sent, and however it is cut into packets: if all
packets arrive in order, none is discarded as already completed. -/
def NoneDiscarded (frames : List Put) : Prop :=
  ∀ (iter : IterOrder Nat) (now : SentFrame → Nat → Nat) (sent : List SentFrame),
    (sent.map SentFrame.frameId).Sublist (frames.map Put.frameId) →
    (Reassembler.machine iter).Along NotDiscarded ChannelReassembler.new
      (sent.flatMap fun frame => frame.calls (now frame))

/-! Services are told apart by their threads. -/

/-- Running services have different threads, none of them yet to be started,
and the one that put the last frame has counted on from it. -/
structure Numbered (p : Pipeline) (lastPut : Option Put) : Prop where
  started : ∀ display service, p.services.lookup display = some service → service.thread < p.threads
  apart : ∀ left right service service',
    p.services.lookup left = some service →
    p.services.lookup right = some service' →
    service.thread = service'.thread → left = right
  past : ∀ last, lastPut = some last → last.thread < p.threads
  ahead : ∀ last, lastPut = some last → ∀ display service,
    p.services.lookup display = some service → service.thread = last.thread →
    last.frameId.toNat ≤ service.frameId.toNat

namespace Numbered

variable {p p' : Pipeline} {lastPut : Option Put} {iter : IterOrder Int}

theorem congr (h : Numbered p lastPut) (hservices : p'.services = p.services)
    (hthreads : p'.threads = p.threads) : Numbered p' lastPut := by
  constructor
  · rw [hservices, hthreads]
    exact h.started
  · rw [hservices]
    exact h.apart
  · rw [hthreads]
    exact h.past
  · rw [hservices]
    exact h.ahead

theorem startVideoService (h : Numbered p lastPut) (display : Int) :
    Numbered (p.startVideoService display) lastPut := by
  have hcases : ∀ other service,
      (p.startVideoService display).services.lookup other = some service →
      other = display ∧ service.thread = p.threads ∨ p.services.lookup other = some service := by
    intro other service hlookup
    simp only [Pipeline.startVideoService] at hlookup
    by_cases hsame : other = display
    · subst hsame
      rw [AList.lookup_insert] at hlookup
      obtain rfl := Option.some.inj hlookup
      exact Or.inl ⟨rfl, rfl⟩
    · rw [AList.lookup_insert_ne hsame] at hlookup
      exact Or.inr hlookup
  constructor
  · intro other service hlookup
    simp only [Pipeline.startVideoService]
    rcases hcases other service hlookup with ⟨_, hthread⟩ | hold
    · omega
    · have := h.started other service hold
      omega
  · intro left right service service' hleft hright hthread
    rcases hcases left service hleft with ⟨hl, hnew⟩ | hold
    · rcases hcases right service' hright with ⟨hr, _⟩ | hold'
      · rw [hl, hr]
      · have := h.started right service' hold'
        omega
    · rcases hcases right service' hright with ⟨_, hnew⟩ | hold'
      · have := h.started left service hold
        omega
      · exact h.apart left right service service' hold hold' hthread
  · intro last hlast
    have := h.past last hlast
    simp only [Pipeline.startVideoService]
    omega
  · intro last hlast other service hlookup hthread
    have hpast := h.past last hlast
    rcases hcases other service hlookup with ⟨_, hnew⟩ | hold
    · omega
    · exact h.ahead last hlast other service hold hthread

theorem stopVideoService (h : Numbered p lastPut) (display : Int) :
    Numbered (p.stopVideoService display) lastPut := by
  have hold : ∀ other service,
      (p.stopVideoService display).services.lookup other = some service →
      p.services.lookup other = some service := by
    intro other service hlookup
    simp only [Pipeline.stopVideoService] at hlookup
    by_cases hsame : other = display
    · subst hsame
      simp at hlookup
    · rwa [AList.lookup_erase_ne hsame] at hlookup
  constructor
  · exact fun other service hlookup => h.started other service (hold _ _ hlookup)
  · exact fun left right service service' hleft hright =>
      h.apart left right service service' (hold _ _ hleft) (hold _ _ hright)
  · exact h.past
  · exact fun last hlast other service hlookup =>
      h.ahead last hlast other service (hold _ _ hlookup)

theorem foldl {change : Pipeline → Int → Pipeline}
    (hchange : ∀ p display, Numbered p lastPut → Numbered (change p display) lastPut)
    (displays : List Int) (h : Numbered p lastPut) :
    Numbered (displays.foldl change p) lastPut := by
  induction displays generalizing p with
  | nil => exact h
  | cons display displays ih => exact ih (hchange p display h)

theorem setSubscribedDisplays (h : Numbered p lastPut) (displays : List Int) :
    Numbered (p.setSubscribedDisplays iter displays) lastPut := by
  -- the lists of displays are those of the definition
  refine congr (foldl ?_ _ (foldl ?_ _ h)) rfl rfl
  · exact fun _ display hp => hp.startVideoService display
  · exact fun _ display hp => hp.stopVideoService display

theorem kept : Kept iter fun p => Numbered p lastPut where
  congr := fun h hservices _ hthreads => h.congr hservices hthreads
  setSubscribedDisplays := fun displays h => h.setSubscribedDisplays displays

end Numbered

/-! One step, and whole runs. -/

section

variable {s : Tracked}

/-- The service that encoded counts one on. -/
private theorem numbered_counted {display : Int} {service : VideoService}
    (h : Numbered s.pipeline s.lastPut)
    (hservice : s.pipeline.services.lookup display = some service)
    (hcounts : service.frameId.toNat + 1 < 2 ^ 32) (channel : List UInt32)
    {lastPut : Option Put} (hlast : lastPut = s.lastPut ∨
      lastPut = some { frameId := service.frameId + 1, thread := service.thread }) :
    Numbered { s.pipeline with
      services := s.pipeline.services.insert display { service with frameId := service.frameId + 1 }
      channel := channel } lastPut := by
  have hnext : (service.frameId + 1).toNat = service.frameId.toNat + 1 := by
    rw [UInt32.toNat_add]
    exact Nat.mod_eq_of_lt hcounts
  have hcases : ∀ other found, (s.pipeline.services.insert display
      { service with frameId := service.frameId + 1 }).lookup other = some found →
      other = display ∧ found = { service with frameId := service.frameId + 1 } ∨
        other ≠ display ∧ s.pipeline.services.lookup other = some found := by
    intro other found hlookup
    by_cases hsame : other = display
    · subst hsame
      rw [AList.lookup_insert] at hlookup
      exact Or.inl ⟨rfl, (Option.some.inj hlookup).symm⟩
    · rw [AList.lookup_insert_ne hsame] at hlookup
      exact Or.inr ⟨hsame, hlookup⟩
  -- a service that is found now was there before, with the same thread
  have hbefore : ∀ other found, (s.pipeline.services.insert display
      { service with frameId := service.frameId + 1 }).lookup other = some found →
      ∃ old, s.pipeline.services.lookup other = some old ∧
        old.thread = found.thread ∧ old.frameId.toNat ≤ found.frameId.toNat := by
    intro other found hlookup
    rcases hcases other found hlookup with ⟨rfl, rfl⟩ | ⟨_, hold⟩
    · refine ⟨service, hservice, rfl, ?_⟩
      dsimp only
      omega
    · exact ⟨found, hold, rfl, Nat.le_refl _⟩
  constructor
  · intro other found hlookup
    obtain ⟨old, hold, hthread, _⟩ := hbefore other found hlookup
    rw [← hthread]
    exact h.started other old hold
  · intro left right found found' hleft hright hthread
    obtain ⟨old, hold, hsame, _⟩ := hbefore left found hleft
    obtain ⟨old', hold', hsame', _⟩ := hbefore right found' hright
    exact h.apart left right old old' hold hold' (by omega)
  · intro last hput
    rcases hlast with rfl | rfl
    · exact h.past last hput
    · obtain rfl := Option.some.inj hput
      exact h.started display service hservice
  · intro last hput other found hlookup hthread
    rcases hlast with rfl | rfl
    · obtain ⟨old, hold, hsame, hle⟩ := hbefore other found hlookup
      have := h.ahead last hput other old hold (hsame.trans hthread)
      omega
    · obtain rfl := Option.some.inj hput
      rcases hcases other found hlookup with ⟨rfl, rfl⟩ | ⟨hne, hold⟩
      · exact Nat.le_refl _
      · exact absurd (h.apart other display found service hold hservice hthread) hne

/-- A step keeps the numbering; and a frame that is put into the channel has a
greater number than the last one exactly when the hand-over is in order. -/
theorem step_numbered (iter : IterOrder Int) {input : Input} (h : Numbered s.pipeline s.lastPut)
    (hcounts : CountsOn s input) :
    Numbered (s.pipeline.step iter input).1 ((s.pipeline.step iter input).2.or s.lastPut) ∧
      (HandsOver s input ↔ ∀ put last, (s.pipeline.step iter input).2 = some put →
        s.lastPut = some last → last.frameId.toNat < put.frameId.toNat) := by
  by_cases hencoded : ∃ display evrtOn, input = .encoded display evrtOn
  · obtain ⟨display, evrtOn, rfl⟩ := hencoded
    simp only [Pipeline.step, Pipeline.encoded]
    cases hservice : s.pipeline.services.lookup display with
    | none =>
        refine ⟨h, ?_⟩
        simp [HandsOver, hservice]
    | some service =>
        have hroom := hcounts service hservice
        have hnext : (service.frameId + 1).toNat = service.frameId.toNat + 1 := by
          rw [UInt32.toNat_add]
          exact Nat.mod_eq_of_lt hroom
        dsimp only
        split
        next hsent =>
          simp only [Bool.and_eq_true, decide_eq_true_eq] at hsent
          obtain ⟨⟨hon, hactive⟩, hcapacity⟩ := hsent
          refine ⟨numbered_counted h hservice hroom _ (Or.inr rfl), ?_⟩
          constructor
          · intro hhands put last hput hlast
            obtain rfl := Option.some.inj hput
            rw [hnext]
            by_cases hthread : last.thread = service.thread
            · have := h.ahead last hlast display service hservice hthread.symm
              omega
            · have := hhands service last hservice hon hactive hcapacity hlast hthread
              omega
          · intro hless found last hfound _ _ _ hlast _
            rw [hservice] at hfound
            obtain rfl := Option.some.inj hfound
            have := hless _ last rfl hlast
            rw [hnext] at this
            omega
        next hunsent =>
          refine ⟨numbered_counted h hservice hroom _ (Or.inl rfl), ?_⟩
          constructor
          · intro _ put last hput
            cases hput
          · intro _ found last _ hon hactive hcapacity
            simp [hon, hactive, hcapacity] at hunsent
  · push Not at hencoded
    obtain ⟨hnone, hnumbered⟩ := (@Numbered.kept s.lastPut iter).step h hencoded
    rw [hnone]
    refine ⟨hnumbered, ?_⟩
    cases input with
    | encoded display evrtOn => exact absurd rfl (hencoded display evrtOn)
    | _ => simp [HandsOver]

end

theorem start_numbered (iter : IterOrder Int) (initial : ClientVideoSupport) :
    Numbered (Pipeline.start iter initial) none := by
  apply Numbered.setSubscribedDisplays
  constructor
  · intro display service hlookup
    simp at hlookup
  · intro left right service service' hleft
    simp at hleft
  · intro last hlast
    cases hlast
  · intro last hlast
    cases hlast

/-- Whole runs: all frames put are numbered above the last one before, and one
above the other, exactly when every hand-over is in order. -/
theorem run_increasing {iter : IterOrder Int} {s : Tracked} {inputs : List Input}
    (h : Numbered s.pipeline s.lastPut) (hcounts : (tracked iter).Along CountsOn s inputs) :
    (tracked iter).Along HandsOver s inputs ↔
      Increasing (s.lastPut.toList ++
        ((pipeline iter).outputs s.pipeline inputs).filterMap id) := by
  induction inputs generalizing s with
  | nil =>
      cases s.lastPut <;> simp [Increasing]
  | cons input inputs ih =>
      obtain ⟨hnumbered, hhands⟩ := step_numbered iter h hcounts.1
      have hrest := ih (s := ((tracked iter).step s input).1) hnumbered hcounts.2
      rw [Machine.along_cons, hrest, hhands]
      simp only [tracked, pipeline, Machine.outputs_cons, List.filterMap_cons]
      cases hput : (s.pipeline.step iter input).2 with
      | none => simp
      | some put =>
          cases hlast : s.lastPut with
          | none => simp [Increasing]
          | some last =>
              simp only [Option.some_or, Option.toList_some, List.cons_append,
                List.nil_append, Increasing, List.pairwise_cons, id_eq,
                List.mem_cons, forall_eq_or_imp, Option.some.injEq]
              constructor
              · rintro ⟨hless, hlater, hpairwise⟩
                have hfirst := hless put last rfl rfl
                refine ⟨⟨hfirst, ?_⟩, hlater, hpairwise⟩
                exact fun later hmember => hfirst.trans (hlater later hmember)
              · rintro ⟨⟨hless, _⟩, hlater, hpairwise⟩
                refine ⟨?_, hlater, hpairwise⟩
                rintro _ _ rfl rfl
                exact hless

theorem noneDiscarded_of_increasing {frames : List Put} (h : Increasing frames) :
    NoneDiscarded frames := by
  intro iter now sent hsub
  apply in_order_not_discarded
  have hids : ((frames.map Put.frameId).map UInt32.toNat).Pairwise (· < ·) := by
    rw [List.map_map, List.pairwise_map]
    exact h
  have hsent := hids.sublist (hsub.map UInt32.toNat)
  rwa [List.map_map] at hsent

/-- In every run of the pipeline the numbers of the frames put into the channel
increase, and no frame is discarded as completed, exactly when every hand-over
from one service to another is in order. -/
theorem increasing_iff_hands_over (iter : IterOrder Int)
    (initial : ClientVideoSupport) (inputs : List Input)
    (hcounts : (tracked iter).Along CountsOn (Tracked.start iter initial) inputs) :
    Increasing (puts iter initial inputs) ∧ NoneDiscarded (puts iter initial inputs) ↔
      (tracked iter).Along HandsOver (Tracked.start iter initial) inputs := by
  have hrun := run_increasing (start_numbered iter initial) hcounts
  have hputs : Increasing (puts iter initial inputs) ↔
      (tracked iter).Along HandsOver (Tracked.start iter initial) inputs := hrun.symm
  constructor
  · rintro ⟨hincreasing, _⟩
    exact hputs.mp hincreasing
  · intro hhands
    have hincreasing := hputs.mpr hhands
    exact ⟨hincreasing, noneDiscarded_of_increasing hincreasing⟩

/-- A client that can decode everything and asks for nothing in particular. -/
def anyCodec : ClientVideoSupport where
  h264 := true
  h265 := true
  av1 := true
  prefer := .auto

/-- One display over a whole session, with frames lost to a full channel. -/
def oneDisplay : List Input :=
  [.punch, .encoded 0 true, .encoded 0 true, .encoded 0 true, .receive, .encoded 0 true]

theorem increasing_iff_hands_over_one_display :
    Increasing (puts (IterOrder.stored _) anyCodec oneDisplay) ∧
        NoneDiscarded (puts (IterOrder.stored _) anyCodec oneDisplay) ↔
      (tracked (IterOrder.stored _)).Along HandsOver
        (Tracked.start (IterOrder.stored _) anyCodec) oneDisplay := by
  apply increasing_iff_hands_over
  simp only [oneDisplay, Machine.along_cons, Machine.along_nil]
  refine ⟨trivial, ?_, ?_, ?_, trivial, ?_, trivial⟩
  all_goals
    intro service hservice
    obtain rfl := Option.some.inj hservice
    decide

/-- Another display is selected: its service counts from zero again. -/
theorem second_display_counts_again :
    ¬ ∀ (iter : IterOrder Int) (initial : ClientVideoSupport) (inputs : List Input),
      Increasing (puts iter initial inputs) := by
  intro hall
  have hswitched := hall (IterOrder.stored _) anyCodec
    [.punch, .encoded 0 true, .setDisplay 1, .encoded 1 true]
  revert hswitched
  unfold Increasing
  decide

end EvertyDesk.Host
