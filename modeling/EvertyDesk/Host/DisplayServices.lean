import EvertyDesk.Host.Pipeline
import Mathlib.Data.List.Dedup

/-!
The services after a change of the subscription: one for each display that was asked
for, all of them with the current codec, and none of those that had it already was
interrupted.
-/

namespace EvertyDesk.Host

namespace Pipeline

variable {iter : IterOrder Int} {p : Pipeline} {displays : List Int}

/-- The services are those of the subscribed displays, and their threads have been
started. -/
structure InAgreement (p : Pipeline) : Prop where
  subscribed : ∀ display, display ∈ p.services ↔ display ∈ p.subscribedDisplays
  started : ∀ display service, p.services.lookup display = some service → service.thread < p.threads

/-- A display that is asked for: none is below zero, and there is always one. -/
def Requested (displays : List Int) (display : Int) : Prop :=
  (∃ asked ∈ displays, display = max asked 0) ∨ displays = [] ∧ display = 0

/-- A service encodes with the codec that is wanted now. -/
def UpToDate (p : Pipeline) (service : VideoService) : Prop :=
  service.clientVideo = p.clientVideo ∧ service.usingEvrtck = p.wantEvrtck

/-! Stopping and starting several services. -/

theorem lookup_foldl_stop (displays : List Int) (display : Int) :
    (displays.foldl stopVideoService p).services.lookup display =
      if display ∈ displays then none else p.services.lookup display := by
  induction displays generalizing p with
  | nil => rw [List.foldl_nil, if_neg List.not_mem_nil]
  | cons first displays ih =>
      rw [List.foldl_cons, ih]
      by_cases hfirst : display = first
      · subst hfirst
        simp [stopVideoService]
      · simp [stopVideoService, hfirst, AList.lookup_erase_ne hfirst]

theorem foldl_stop_other (displays : List Int) :
    (displays.foldl stopVideoService p).clientVideo = p.clientVideo ∧
      (displays.foldl stopVideoService p).wantEvrtck = p.wantEvrtck ∧
      (displays.foldl stopVideoService p).threads = p.threads := by
  induction displays generalizing p with
  | nil => exact ⟨rfl, rfl, rfl⟩
  | cons first displays ih => exact @ih (p.stopVideoService first)

theorem foldl_start_other (displays : List Int) :
    (displays.foldl startVideoService p).clientVideo = p.clientVideo ∧
      (displays.foldl startVideoService p).wantEvrtck = p.wantEvrtck ∧
      (displays.foldl startVideoService p).threads = p.threads + displays.length := by
  induction displays generalizing p with
  | nil => exact ⟨rfl, rfl, rfl⟩
  | cons first displays ih =>
      obtain ⟨hvideo, hwant, hthreads⟩ := @ih (p.startVideoService first)
      refine ⟨hvideo, hwant, hthreads.trans ?_⟩
      rw [List.length_cons, startVideoService]
      dsimp only
      omega

theorem lookup_foldl_start_other {displays : List Int} {display : Int} (h : display ∉ displays) :
    (displays.foldl startVideoService p).services.lookup display = p.services.lookup display := by
  induction displays generalizing p with
  | nil => rfl
  | cons first displays ih =>
      rw [List.foldl_cons, ih (List.not_mem_of_not_mem_cons h), startVideoService,
        AList.lookup_insert_ne (List.ne_of_not_mem_cons h)]

/-- A service has been started with the codec that is wanted now, on a thread of its
own that counts from zero. -/
def StartedNow (p : Pipeline) (service : VideoService) : Prop :=
  p.UpToDate service ∧ service.frameId = 0 ∧ p.threads ≤ service.thread

theorem lookup_foldl_start {displays : List Int} {display : Int} (h : display ∈ displays) :
    ∃ service, (displays.foldl startVideoService p).services.lookup display = some service ∧
      p.StartedNow service ∧ service.thread < p.threads + displays.length := by
  induction displays using List.reverseRecOn with
  | nil => cases h
  | append_singleton displays last ih =>
      obtain ⟨hvideo, hwant, hthreads⟩ := @foldl_start_other p displays
      rw [List.foldl_append, List.foldl_cons, List.foldl_nil, startVideoService]
      dsimp only
      by_cases hlast : display = last
      · subst hlast
        rw [AList.lookup_insert]
        refine ⟨_, rfl, ⟨⟨hvideo, hwant⟩, rfl, ?_⟩, ?_⟩
        · dsimp only
          omega
        · dsimp only
          rw [List.length_append, List.length_singleton]
          omega
      · rw [AList.lookup_insert_ne hlast]
        obtain ⟨service, hlookup, hnow, hthread⟩ :=
          ih ((List.mem_append.mp h).resolve_right (by simpa using hlast))
        refine ⟨service, hlookup, hnow, ?_⟩
        rw [List.length_append, List.length_singleton]
        omega

/-! The change of the subscription. -/

/-- The displays that are asked for, each once. -/
def nextDisplays (displays : List Int) : List Int :=
  let next := (displays.map fun display => max display 0).dedup
  if next.isEmpty then [0] else next

theorem mem_nextDisplays {display : Int} :
    display ∈ nextDisplays displays ↔ Requested displays display := by
  unfold nextDisplays Requested
  cases displays with
  | nil => simp
  | cons first displays =>
      have hsome : ((first :: displays).map fun display => max display 0).dedup.isEmpty =
          false := by
        rw [List.isEmpty_eq_false_iff_exists_mem]
        exact ⟨max first 0, List.mem_dedup.mpr (List.mem_map_of_mem List.mem_cons_self)⟩
      simp only [hsome, Bool.false_eq_true, if_false, List.mem_dedup, List.mem_map,
        List.cons_ne_nil, false_and, or_false]
      constructor
      · rintro ⟨asked, hasked, rfl⟩
        exact ⟨asked, hasked, rfl⟩
      · rintro ⟨asked, hasked, rfl⟩
        exact ⟨asked, hasked, rfl⟩

theorem outdated_iff {display : Int} :
    p.outdated display ↔
      ∃ service, p.services.lookup display = some service ∧ ¬ p.UpToDate service := by
  unfold outdated UpToDate
  cases hlookup : p.services.lookup display with
  | none => simp
  | some service =>
      simp only [Bool.or_eq_true, decide_eq_true_eq, bne_iff_ne, Option.some.injEq,
        exists_eq_left', not_and_or]

/-- The displays whose services are stopped. -/
def removedDisplays (iter : IterOrder Int) (p : Pipeline) (displays : List Int) : List Int :=
  iter.order (p.subscribedDisplays.filter (· ∉ nextDisplays displays)) ++
    (iter.order ((nextDisplays displays).filter (· ∈ p.subscribedDisplays))).filter p.outdated

/-- The displays whose services are started after that. -/
def addedDisplays (iter : IterOrder Int) (p : Pipeline) (displays : List Int) : List Int :=
  (iter.order (nextDisplays displays)).filter fun display =>
    (((removedDisplays iter p displays).foldl stopVideoService p).services.lookup display).isNone

theorem setSubscribedDisplays_eq :
    p.setSubscribedDisplays iter displays =
      { (addedDisplays iter p displays).foldl startVideoService
          ((removedDisplays iter p displays).foldl stopVideoService p) with
        subscribedDisplays := nextDisplays displays } := rfl

theorem mem_removedDisplays {display : Int} :
    display ∈ removedDisplays iter p displays ↔
      display ∈ p.subscribedDisplays ∧ (Requested displays display → p.outdated display) := by
  simp only [removedDisplays, List.mem_append, IterOrder.mem_order, List.mem_filter,
    decide_eq_true_eq, mem_nextDisplays]
  constructor
  · rintro (⟨hsubscribed, hnot⟩ | ⟨⟨_, hsubscribed⟩, houtdated⟩)
    · exact ⟨hsubscribed, fun hrequested => absurd hrequested hnot⟩
    · exact ⟨hsubscribed, fun _ => houtdated⟩
  · rintro ⟨hsubscribed, houtdated⟩
    by_cases hrequested : Requested displays display
    · exact Or.inr ⟨⟨hrequested, hsubscribed⟩, houtdated hrequested⟩
    · exact Or.inl ⟨hsubscribed, hrequested⟩

/-- Of the services that were running, those go on that are asked for and up to date. -/
theorem lookup_stopped (h : p.InAgreement) {display : Int} {service : VideoService} :
    ((removedDisplays iter p displays).foldl stopVideoService p).services.lookup display =
        some service ↔
      p.services.lookup display = some service ∧ Requested displays display ∧
        p.UpToDate service := by
  rw [lookup_foldl_stop]
  by_cases hremoved : display ∈ removedDisplays iter p displays
  · rw [if_pos hremoved]
    refine iff_of_false (by simp) ?_
    rintro ⟨hservice, hrequested, hcurrent⟩
    obtain ⟨_, houtdated⟩ := mem_removedDisplays.mp hremoved
    obtain ⟨other, hother, hnot⟩ := outdated_iff.mp (houtdated hrequested)
    rw [hservice] at hother
    cases hother
    exact hnot hcurrent
  · rw [if_neg hremoved]
    refine ⟨fun hservice => ?_, fun hkept => hkept.1⟩
    have hrunning : display ∈ p.services := by
      rw [← AList.lookup_isSome, hservice]
      rfl
    have hsubscribed := (h.subscribed display).mp hrunning
    rw [mem_removedDisplays] at hremoved
    push Not at hremoved
    obtain ⟨hrequested, hcurrent⟩ := hremoved hsubscribed
    refine ⟨hservice, hrequested, ?_⟩
    apply Classical.byContradiction
    intro hnot
    exact hcurrent (outdated_iff.mpr ⟨service, hservice, hnot⟩)

theorem mem_addedDisplays (h : p.InAgreement) {display : Int} :
    display ∈ addedDisplays iter p displays ↔
      Requested displays display ∧
        ∀ service, p.services.lookup display = some service → ¬ p.UpToDate service := by
  rw [addedDisplays, List.mem_filter, IterOrder.mem_order, mem_nextDisplays,
    Option.isNone_iff_eq_none, Option.eq_none_iff_forall_ne_some]
  constructor
  · rintro ⟨hrequested, hnone⟩
    refine ⟨hrequested, fun service hservice hcurrent => ?_⟩
    exact hnone service ((lookup_stopped h).mpr ⟨hservice, hrequested, hcurrent⟩)
  · rintro ⟨hrequested, hnone⟩
    refine ⟨hrequested, fun service hservice => ?_⟩
    obtain ⟨hbefore, _, hcurrent⟩ := (lookup_stopped h).mp hservice
    exact hnone service hbefore hcurrent

theorem startedNow_stopped {service : VideoService}
    (h : ((removedDisplays iter p displays).foldl stopVideoService p).StartedNow service) :
    p.StartedNow service := by
  obtain ⟨hvideo, hwant, hthreads⟩ := @foldl_stop_other p (removedDisplays iter p displays)
  obtain ⟨⟨hservice, husing⟩, hframe, hthread⟩ := h
  rw [hvideo] at hservice
  rw [hwant] at husing
  rw [hthreads] at hthread
  exact ⟨⟨hservice, husing⟩, hframe, hthread⟩

theorem threads_setSubscribedDisplays :
    (p.setSubscribedDisplays iter displays).threads =
      p.threads + (addedDisplays iter p displays).length := by
  rw [setSubscribedDisplays_eq, ← (@foldl_stop_other p (removedDisplays iter p displays)).2.2]
  exact (foldl_start_other _).2.2

/-- A service that was running and has the current codec goes on if it is asked for. -/
theorem lookup_kept (h : p.InAgreement) {display : Int} {service : VideoService}
    (hservice : p.services.lookup display = some service) (hcurrent : p.UpToDate service)
    (hrequested : Requested displays display) :
    (p.setSubscribedDisplays iter displays).services.lookup display = some service := by
  have hnot : display ∉ addedDisplays iter p displays := fun hadded =>
    ((mem_addedDisplays h).mp hadded).2 service hservice hcurrent
  rw [setSubscribedDisplays_eq]
  dsimp only
  rw [lookup_foldl_start_other hnot, lookup_stopped h]
  exact ⟨hservice, hrequested, hcurrent⟩

/-- A display without such a service gets a new one. -/
theorem lookup_new (iter : IterOrder Int) (h : p.InAgreement) {display : Int}
    (hnone : ∀ service, p.services.lookup display = some service → ¬ p.UpToDate service)
    (hrequested : Requested displays display) :
    ∃ service, (p.setSubscribedDisplays iter displays).services.lookup display = some service ∧
      p.StartedNow service ∧ service.thread < (p.setSubscribedDisplays iter displays).threads := by
  obtain ⟨service, hservice, hnow, hthread⟩ := @lookup_foldl_start
    ((removedDisplays iter p displays).foldl stopVideoService p) _ _
    ((mem_addedDisplays h).mpr ⟨hrequested, hnone⟩)
  refine ⟨service, hservice, startedNow_stopped hnow, ?_⟩
  rw [threads_setSubscribedDisplays]
  rwa [(@foldl_stop_other p (removedDisplays iter p displays)).2.2] at hthread

/-- Nothing runs for any other display. -/
theorem lookup_unrequested (h : p.InAgreement) {display : Int}
    (hnot : ¬ Requested displays display) :
    (p.setSubscribedDisplays iter displays).services.lookup display = none := by
  have hadded : display ∉ addedDisplays iter p displays := fun hadded =>
    hnot ((mem_addedDisplays h).mp hadded).1
  rw [setSubscribedDisplays_eq]
  dsimp only
  rw [lookup_foldl_start_other hadded, Option.eq_none_iff_forall_ne_some]
  intro service hservice
  exact hnot ((lookup_stopped h).mp hservice).2.1

/-- The service of a display that was asked for, from before or new. -/
theorem lookup_requested (iter : IterOrder Int) (h : p.InAgreement) {display : Int}
    (hrequested : Requested displays display) :
    ∃ service, (p.setSubscribedDisplays iter displays).services.lookup display = some service ∧
      (p.services.lookup display = some service ∧ p.UpToDate service ∨
        (∀ before, p.services.lookup display = some before → ¬ p.UpToDate before) ∧
          p.StartedNow service) ∧
      service.thread < (p.setSubscribedDisplays iter displays).threads := by
  by_cases hcurrent : ∃ before, p.services.lookup display = some before ∧ p.UpToDate before
  · obtain ⟨before, hbefore, hcurrent⟩ := hcurrent
    refine ⟨before, lookup_kept h hbefore hcurrent hrequested, Or.inl ⟨hbefore, hcurrent⟩, ?_⟩
    have hstarted := h.started display before hbefore
    rw [threads_setSubscribedDisplays]
    omega
  · push Not at hcurrent
    obtain ⟨service, hservice, hnow, hthread⟩ := lookup_new iter h hcurrent hrequested
    exact ⟨service, hservice, Or.inr ⟨hcurrent, hnow⟩, hthread⟩

theorem mem_services_setSubscribedDisplays (h : p.InAgreement) (display : Int) :
    display ∈ (p.setSubscribedDisplays iter displays).services ↔ Requested displays display := by
  rw [← AList.lookup_isSome]
  constructor
  · intro hrunning
    apply Classical.byContradiction
    intro hnot
    rw [lookup_unrequested h hnot] at hrunning
    cases hrunning
  · intro hrequested
    obtain ⟨service, hservice, -⟩ := lookup_requested iter h hrequested
    rw [hservice]
    rfl

theorem InAgreement.setSubscribedDisplays (h : p.InAgreement) (displays : List Int) :
    (p.setSubscribedDisplays iter displays).InAgreement := by
  constructor
  · intro display
    rw [mem_services_setSubscribedDisplays h]
    exact mem_nextDisplays.symm
  · intro display service hservice
    have hrunning : display ∈ (p.setSubscribedDisplays iter displays).services := by
      rw [← AList.lookup_isSome, hservice]
      rfl
    obtain ⟨found, hfound, -, hthread⟩ := lookup_requested iter h
      ((mem_services_setSubscribedDisplays h display).mp hrunning)
    rw [hservice] at hfound
    cases hfound
    exact hthread

theorem start_inAgreement (initial : ClientVideoSupport) : (start iter initial).InAgreement := by
  apply InAgreement.setSubscribedDisplays
  constructor
  · intro display
    simp
  · intro display service hservice
    simp at hservice

/-- As many threads are started as displays come to another service than before. -/
theorem length_addedDisplays (h : p.InAgreement) :
    (addedDisplays iter p displays).length =
      ((nextDisplays displays).filter fun display =>
        (p.setSubscribedDisplays iter displays).services.lookup display ≠
          p.services.lookup display).length := by
  have hperm := (iter.perm (nextDisplays displays)).filter fun display =>
    (((removedDisplays iter p displays).foldl stopVideoService p).services.lookup display).isNone
  rw [addedDisplays, hperm.length_eq]
  congr 1
  apply List.filter_congr
  intro display hmem
  have hrequested := mem_nextDisplays.mp hmem
  have hadded := @mem_addedDisplays iter p displays h display
  rw [addedDisplays, List.mem_filter, IterOrder.mem_order] at hadded
  rw [Bool.eq_iff_iff, decide_eq_true_eq]
  constructor
  · intro hnone hsame
    obtain ⟨-, hnot⟩ := hadded.mp ⟨hmem, hnone⟩
    obtain ⟨service, hservice, hnow, -⟩ := lookup_new iter h hnot hrequested
    rw [hsame] at hservice
    exact hnot service hservice hnow.1
  · intro hother
    apply And.right
    refine hadded.mpr ⟨hrequested, fun service hservice hcurrent => ?_⟩
    apply hother
    rw [lookup_kept h hservice hcurrent hrequested, hservice]

/-- After a change of the subscription exactly the displays asked for have a service,
with the current codec; those that had one with it before keep it, and each other one
is started once. -/
theorem setSubscribedDisplays_matches (iter : IterOrder Int) (p : Pipeline)
    (displays : List Int) (h : p.InAgreement) :
    (p.setSubscribedDisplays iter displays).InAgreement ∧
      (∀ display, display ∈ (p.setSubscribedDisplays iter displays).services ↔
        Requested displays display) ∧
      (∀ display service,
        (p.setSubscribedDisplays iter displays).services.lookup display = some service →
        p.UpToDate service ∧ (p.services.lookup display ≠ some service → p.StartedNow service)) ∧
      (∀ display service, Requested displays display →
        p.services.lookup display = some service →
        ((p.setSubscribedDisplays iter displays).services.lookup display = some service ↔
          p.UpToDate service)) ∧
      (p.setSubscribedDisplays iter displays).threads = p.threads +
        ((nextDisplays displays).filter fun display =>
          (p.setSubscribedDisplays iter displays).services.lookup display ≠
            p.services.lookup display).length := by
  have hupToDate : ∀ display service,
      (p.setSubscribedDisplays iter displays).services.lookup display = some service →
      p.UpToDate service ∧ (p.services.lookup display ≠ some service → p.StartedNow service) := by
    intro display service hservice
    have hrunning : display ∈ (p.setSubscribedDisplays iter displays).services := by
      rw [← AList.lookup_isSome, hservice]
      rfl
    have hrequested : Requested displays display :=
      (mem_services_setSubscribedDisplays h display).mp hrunning
    obtain ⟨found, hfound, hcases, -⟩ := lookup_requested iter h hrequested
    rw [hservice] at hfound
    cases hfound
    rcases hcases with ⟨hbefore, hcurrent⟩ | ⟨-, hnow⟩
    · exact ⟨hcurrent, fun hother => absurd hbefore hother⟩
    · exact ⟨hnow.1, fun _ => hnow⟩
  refine ⟨h.setSubscribedDisplays displays, mem_services_setSubscribedDisplays h, hupToDate, ?_, ?_⟩
  · intro display service hrequested hservice
    constructor
    · intro hkept
      exact (hupToDate display service hkept).1
    · intro hcurrent
      exact lookup_kept h hservice hcurrent hrequested
  · rw [threads_setSubscribedDisplays, length_addedDisplays h]

def negativeRequest : Pipeline :=
  (start (.stored Int) ⟨true, false, false, .h264⟩).setSubscribedDisplays (.stored Int) [-3, 1, 1]

/-- A negative number stands for the first display, and asking twice for the second one
starts it once. -/
theorem setSubscribedDisplays_matches_negative :
    0 ∈ negativeRequest.services ∧ 1 ∈ negativeRequest.services ∧
      -3 ∉ negativeRequest.services := by
  obtain ⟨-, hservices, -⟩ := setSubscribedDisplays_matches (.stored Int)
    (start (.stored Int) ⟨true, false, false, .h264⟩) [-3, 1, 1] (start_inAgreement _)
  rw [negativeRequest, hservices 0, hservices 1, hservices (-3)]
  simp [Requested]

/-! Whole runs. -/

theorem InAgreement.kept : Kept iter InAgreement where
  congr := fun h hservices hsubscribed hthreads => by
    constructor
    · rw [hservices, hsubscribed]
      exact h.subscribed
    · rw [hservices, hthreads]
      exact h.started
  setSubscribedDisplays := fun displays h => h.setSubscribedDisplays displays

/-- A service that encodes stays where it is. -/
theorem InAgreement.encoded (h : p.InAgreement) (display : Int) (evrtOn : Bool) :
    (p.encoded display evrtOn).1.InAgreement := by
  unfold Pipeline.encoded
  cases hservice : p.services.lookup display with
  | none => exact h
  | some service =>
      have hrunning : display ∈ p.services := by
        rw [← AList.lookup_isSome, hservice]
        rfl
      have hcounted : ∀ channel, InAgreement { p with
          services := p.services.insert display { service with frameId := service.frameId + 1 }
          channel := channel } := by
        intro channel
        constructor
        · intro other
          dsimp only
          rw [AList.mem_insert, ← h.subscribed other]
          refine ⟨fun hmem => ?_, Or.inr⟩
          rcases hmem with rfl | hmem
          · exact hrunning
          · exact hmem
        · intro other found hfound
          dsimp only at hfound ⊢
          by_cases hother : other = display
          · subst hother
            rw [AList.lookup_insert] at hfound
            cases hfound
            exact h.started other service hservice
          · rw [AList.lookup_insert_ne hother] at hfound
            exact h.started other found hfound
      dsimp only
      split
      · exact hcounted _
      · exact hcounted _

/-- Services and subscription agree at every point of every run. -/
theorem run_inAgreement (iter : IterOrder Int) (initial : ClientVideoSupport)
    (inputs : List Input) : ((pipeline iter).run (start iter initial) inputs).InAgreement := by
  apply (pipeline iter).invariant (C := fun _ _ => True) _ (start_inAgreement initial)
  · apply Machine.along_of_forall
    intro _ _
    trivial
  · intro p input h _
    by_cases hencoded : ∃ display evrtOn, input = .encoded display evrtOn
    · obtain ⟨display, evrtOn, rfl⟩ := hencoded
      exact h.encoded display evrtOn
    · push Not at hencoded
      exact (InAgreement.kept.step h hencoded).2

end Pipeline

end EvertyDesk.Host
