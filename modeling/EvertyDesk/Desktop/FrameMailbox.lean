import EvertyDesk.Desktop.SessionEvents
import EvertyDesk.Lib.Interleavings
import Mathlib.Algebra.GroupWithZero.Nat

/-!
The mailbox between the event threads of the sessions and the viewer. A thread puts a
picture into it, counts it, sets a flag and, if the flag was not set, sends an event. The
viewer clears the flag and then takes the picture; a restart empties the mailbox and then
clears the flag. Each of these is a step of its own, and the steps of all threads and of
the viewer come in any order.
-/

namespace EvertyDesk.Desktop

/-- A picture that a thread has let through. -/
structure CheckedFrame where
  frame : RemoteFrame
  valid : validateRgbaPayload frame.width frame.height frame.rgba.length maxFrameDimension
    maxFrameBytes = none

structure FrameMailbox where
  latest : Option CheckedFrame
  wakePending : Bool
  frameSequence : UInt64

/-- How far an event thread is with a picture. -/
inductive PuttingFrame where
  | idle
  | stored
  | counted
  /-- The flag was not set; the event is still to be sent. -/
  | waking
deriving DecidableEq

/-- What the viewer is about to do. -/
inductive ViewerTurn where
  | waiting
  /-- An event has come; `present_latest_frame` is about to clear the flag. -/
  | clearing
  | taking
  | emptying
  | resetting
  | spawning
deriving DecidableEq

structure MailboxSystem where
  mailbox : FrameMailbox
  threads : List PuttingFrame
  /-- Events of the kind `FrameReady` that wait in the queue. -/
  frameReady : Nat
  viewer : ViewerTurn
  /-- The pictures that `present_latest_frame` has taken. -/
  presented : List CheckedFrame

inductive MailboxAction where
  | store (thread : Nat) (frame : CheckedFrame)
  | count (thread : Nat)
  | swap (thread : Nat)
  | send (thread : Nat)
  | receive
  | clear
  | take
  | restart
  | empty
  | reset
  | spawn (succeeds : Bool)

namespace MailboxSystem

def start (threads : Nat) : MailboxSystem where
  mailbox := { latest := none, wakePending := false, frameSequence := 0 }
  threads := List.replicate threads .idle
  frameReady := 0
  viewer := .waiting
  presented := []

variable (s : MailboxSystem)

def setThread (thread : Nat) (next : PuttingFrame) : MailboxSystem :=
  { s with threads := s.threads.set thread next }

/-- A thread that is as far as this goes on. -/
def threadAt (thread : Nat) (stage : PuttingFrame) (next : MailboxSystem) : Option MailboxSystem :=
  if s.threads[thread]? = some stage then some next else none

def viewerAt (turn : ViewerTurn) (next : MailboxSystem) : Option MailboxSystem :=
  if s.viewer = turn then some next else none

def act : MailboxAction → Option MailboxSystem
  | .store thread frame =>
      s.threadAt thread .idle
        { s.setThread thread .stored with mailbox := { s.mailbox with latest := some frame } }
  | .count thread =>
      s.threadAt thread .stored
        { s.setThread thread .counted with
          mailbox := { s.mailbox with frameSequence := s.mailbox.frameSequence + 1 } }
  | .swap thread =>
      s.threadAt thread .counted
        { s.setThread thread (if s.mailbox.wakePending then .idle else .waking) with
          mailbox := { s.mailbox with wakePending := true } }
  | .send thread =>
      s.threadAt thread .waking { s.setThread thread .idle with frameReady := s.frameReady + 1 }
  | .receive =>
      if 0 < s.frameReady then
        s.viewerAt .waiting { s with frameReady := s.frameReady - 1, viewer := .clearing }
      else none
  | .clear =>
      s.viewerAt .clearing
        { s with mailbox := { s.mailbox with wakePending := false }, viewer := .taking }
  | .take =>
      s.viewerAt .taking
        { s with
          mailbox := { s.mailbox with latest := none }
          viewer := .waiting
          presented := s.presented ++ s.mailbox.latest.toList }
  | .restart => s.viewerAt .waiting { s with viewer := .emptying }
  | .empty =>
      s.viewerAt .emptying
        { s with mailbox := { s.mailbox with latest := none }, viewer := .resetting }
  | .reset =>
      s.viewerAt .resetting
        { s with mailbox := { s.mailbox with wakePending := false }, viewer := .spawning }
  | .spawn succeeds =>
      s.viewerAt .spawning
        { s with
          viewer := .waiting
          threads := if succeeds then s.threads ++ [.idle] else s.threads }

end MailboxSystem

def mailboxSystem : Interleaving MailboxSystem MailboxAction where
  act := MailboxSystem.act

namespace MailboxSystem

variable {s s' next : MailboxSystem}

theorem threadAt_eq_some {thread : Nat} {stage : PuttingFrame} :
    s.threadAt thread stage next = some s' ↔ s.threads[thread]? = some stage ∧ next = s' := by
  simp [threadAt]

theorem viewerAt_eq_some {turn : ViewerTurn} :
    s.viewerAt turn next = some s' ↔ s.viewer = turn ∧ next = s' := by
  simp [viewerAt]

theorem receive_eq_some :
    s.act .receive = some s' ↔ 0 < s.frameReady ∧ s.viewer = .waiting ∧
      { s with frameReady := s.frameReady - 1, viewer := .clearing } = s' := by
  simp [act, viewerAt_eq_some]

theorem mem_set_self {thread : Nat} {stage : PuttingFrame} (next : PuttingFrame)
    (h : s.threads[thread]? = some stage) : next ∈ s.threads.set thread next := by
  have hlength := (List.getElem?_eq_some_iff.mp h).1
  exact List.mem_set hlength next

/-- A thread goes on without the others. -/
theorem mem_set_other {thread : Nat} {stage other : PuttingFrame} (next : PuttingFrame)
    (h : s.threads[thread]? = some stage) (hother : other ≠ stage) (hmem : other ∈ s.threads) :
    other ∈ s.threads.set thread next := by
  obtain ⟨i, hi⟩ := List.mem_iff_getElem?.mp hmem
  have hne : thread ≠ i := by
    rintro rfl
    exact hother (Option.some.inj (hi.symm.trans h))
  exact List.mem_iff_getElem?.mpr ⟨i, by rw [List.getElem?_set_ne hne, hi]⟩

/-! A frame is announced. -/

/-- The viewer will clear the flag. -/
def OnTheWay (s : MailboxSystem) : Prop :=
  .waking ∈ s.threads ∨ 0 < s.frameReady ∨ s.viewer = .clearing

structure Signalled (s : MailboxSystem) : Prop where
  wake : s.mailbox.wakePending = true → s.OnTheWay
  frame : s.mailbox.latest.isSome → .stored ∈ s.threads ∨ .counted ∈ s.threads ∨ s.OnTheWay ∨
    s.viewer = .taking

/-- It will still do so where it does something else than to clear the flag. -/
theorem OnTheWay.turn (h : s.OnTheWay) (hturn : s.viewer ≠ .clearing)
    (hthreads : .waking ∈ s.threads → .waking ∈ s'.threads)
    (hready : s'.frameReady = s.frameReady) : s'.OnTheWay := by
  obtain hwaking | hqueued | hclearing := h
  · exact Or.inl (hthreads hwaking)
  · exact Or.inr (Or.inl (hready ▸ hqueued))
  · exact absurd hclearing hturn

theorem OnTheWay.act {action : MailboxAction} (h : s.OnTheWay) (hact : s.act action = some s') :
    s'.OnTheWay ∨ s'.viewer = .taking ∧ s'.mailbox.wakePending = false := by
  cases action with
  | store thread frame =>
      obtain ⟨hat, rfl⟩ := threadAt_eq_some.mp hact
      exact Or.inl (h.imp_left (mem_set_other _ hat (by decide)))
  | count thread =>
      obtain ⟨hat, rfl⟩ := threadAt_eq_some.mp hact
      exact Or.inl (h.imp_left (mem_set_other _ hat (by decide)))
  | swap thread =>
      obtain ⟨hat, rfl⟩ := threadAt_eq_some.mp hact
      exact Or.inl (h.imp_left (mem_set_other _ hat (by decide)))
  | send thread =>
      obtain ⟨-, rfl⟩ := threadAt_eq_some.mp hact
      exact Or.inl (Or.inr (Or.inl (Nat.succ_pos _)))
  | receive =>
      obtain ⟨-, -, rfl⟩ := receive_eq_some.mp hact
      exact Or.inl (Or.inr (Or.inr rfl))
  | clear =>
      obtain ⟨-, rfl⟩ := viewerAt_eq_some.mp hact
      exact Or.inr ⟨rfl, rfl⟩
  | take =>
      obtain ⟨hturn, rfl⟩ := viewerAt_eq_some.mp hact
      exact Or.inl (h.turn (by rw [hturn]; decide) id rfl)
  | restart =>
      obtain ⟨hturn, rfl⟩ := viewerAt_eq_some.mp hact
      exact Or.inl (h.turn (by rw [hturn]; decide) id rfl)
  | empty =>
      obtain ⟨hturn, rfl⟩ := viewerAt_eq_some.mp hact
      exact Or.inl (h.turn (by rw [hturn]; decide) id rfl)
  | reset =>
      obtain ⟨hturn, rfl⟩ := viewerAt_eq_some.mp hact
      exact Or.inl (h.turn (by rw [hturn]; decide) id rfl)
  | spawn succeeds =>
      obtain ⟨hturn, rfl⟩ := viewerAt_eq_some.mp hact
      refine Or.inl (h.turn (by rw [hturn]; decide) ?_ rfl)
      intro hwaking
      cases succeeds with
      | false => exact hwaking
      | true => exact List.mem_append_left _ hwaking

theorem wake_act {action : MailboxAction} (h : s.mailbox.wakePending = true → s.OnTheWay)
    (hact : s.act action = some s') (hwake : s'.mailbox.wakePending = true) : s'.OnTheWay := by
  by_cases hbefore : s.mailbox.wakePending = true
  · obtain hway | ⟨-, hcleared⟩ := (h hbefore).act hact
    · exact hway
    · rw [hcleared] at hwake
      cases hwake
  · cases action with
    | swap thread =>
        obtain ⟨hat, rfl⟩ := threadAt_eq_some.mp hact
        have hwaking := mem_set_self .waking hat
        exact Or.inl (by simpa [setThread, hbefore] using hwaking)
    | store thread frame =>
        obtain ⟨-, rfl⟩ := threadAt_eq_some.mp hact
        exact absurd hwake hbefore
    | count thread =>
        obtain ⟨-, rfl⟩ := threadAt_eq_some.mp hact
        exact absurd hwake hbefore
    | send thread =>
        obtain ⟨-, rfl⟩ := threadAt_eq_some.mp hact
        exact absurd hwake hbefore
    | receive =>
        obtain ⟨-, -, rfl⟩ := receive_eq_some.mp hact
        exact absurd hwake hbefore
    | clear =>
        obtain ⟨-, rfl⟩ := viewerAt_eq_some.mp hact
        cases hwake
    | reset =>
        obtain ⟨-, rfl⟩ := viewerAt_eq_some.mp hact
        cases hwake
    | take | restart | empty | spawn =>
        obtain ⟨-, rfl⟩ := viewerAt_eq_some.mp hact
        exact absurd hwake hbefore

/-- A frame that was announced still is while the viewer does something else. -/
theorem Signalled.turn (h : s.Signalled) (hclearing : s.viewer ≠ .clearing)
    (htaking : s.viewer ≠ .taking) (hthreads : ∀ stage ∈ s.threads, stage ∈ s'.threads)
    (hready : s'.frameReady = s.frameReady) (hlatest : s.mailbox.latest.isSome) :
    .stored ∈ s'.threads ∨ .counted ∈ s'.threads ∨ s'.OnTheWay ∨ s'.viewer = .taking := by
  obtain hstored | hcounted | hway | hturn := h.frame hlatest
  · exact Or.inl (hthreads _ hstored)
  · exact Or.inr (Or.inl (hthreads _ hcounted))
  · exact Or.inr (Or.inr (Or.inl (hway.turn hclearing (hthreads _) hready)))
  · exact absurd hturn htaking

theorem Signalled.act {action : MailboxAction} (h : s.Signalled)
    (hact : s.act action = some s') : s'.Signalled := by
  have hwake := wake_act h.wake hact
  refine ⟨hwake, ?_⟩
  intro hlatest
  cases action with
  | store thread frame =>
      obtain ⟨hat, rfl⟩ := threadAt_eq_some.mp hact
      exact Or.inl (mem_set_self .stored hat)
  | count thread =>
      obtain ⟨hat, rfl⟩ := threadAt_eq_some.mp hact
      exact Or.inr (Or.inl (mem_set_self .counted hat))
  | swap thread =>
      obtain ⟨-, rfl⟩ := threadAt_eq_some.mp hact
      exact Or.inr (Or.inr (Or.inl (hwake rfl)))
  | send thread =>
      obtain ⟨-, rfl⟩ := threadAt_eq_some.mp hact
      exact Or.inr (Or.inr (Or.inl (Or.inr (Or.inl (Nat.succ_pos _)))))
  | receive =>
      obtain ⟨-, -, rfl⟩ := receive_eq_some.mp hact
      exact Or.inr (Or.inr (Or.inl (Or.inr (Or.inr rfl))))
  | clear =>
      obtain ⟨-, rfl⟩ := viewerAt_eq_some.mp hact
      exact Or.inr (Or.inr (Or.inr rfl))
  | take | empty =>
      obtain ⟨-, rfl⟩ := viewerAt_eq_some.mp hact
      cases hlatest
  | restart | reset =>
      obtain ⟨hturn, rfl⟩ := viewerAt_eq_some.mp hact
      exact h.turn (by rw [hturn]; decide) (by rw [hturn]; decide) (fun _ => id) rfl hlatest
  | spawn succeeds =>
      obtain ⟨hturn, rfl⟩ := viewerAt_eq_some.mp hact
      refine h.turn (by rw [hturn]; decide) (by rw [hturn]; decide) ?_ rfl hlatest
      intro stage hstage
      cases succeeds with
      | false => exact hstage
      | true => exact List.mem_append_left _ hstage

theorem signalled_start (threads : Nat) : (start threads).Signalled where
  wake h := nomatch h
  frame h := nomatch h

/-! What has begun comes to an end. -/

end MailboxSystem

def PuttingFrame.work : PuttingFrame → Nat
  | .idle => 0
  | .stored => 6
  | .counted => 5
  | .waking => 4

def ViewerTurn.work : ViewerTurn → Nat
  | .waiting => 0
  | .taking => 1
  | .clearing => 2
  | .spawning => 1
  | .resetting => 2
  | .emptying => 3

/-- A frame is stored. -/
def MailboxAction.Stores : MailboxAction → Prop
  | .store _ _ => True
  | _ => False

/-- A frame or a restart comes in; everything else only goes on with what has begun. -/
def MailboxAction.ComesIn : MailboxAction → Prop
  | .restart => True
  | action => action.Stores

namespace MailboxSystem

/-- How many steps what has begun still takes at most. -/
def work (s : MailboxSystem) : Nat :=
  (s.threads.map PuttingFrame.work).sum + 3 * s.frameReady + s.viewer.work

variable {s s' next : MailboxSystem}

theorem sum_set_work {threads : List PuttingFrame} {thread : Nat} {stage : PuttingFrame}
    (next : PuttingFrame) (h : threads[thread]? = some stage) :
    ((threads.set thread next).map PuttingFrame.work).sum + stage.work =
      (threads.map PuttingFrame.work).sum + next.work := by
  induction threads generalizing thread with
  | nil => cases h
  | cons first threads ih =>
      cases thread with
      | zero =>
          obtain rfl := Option.some.inj h
          simp only [List.set_cons_zero, List.map_cons, List.sum_cons]
          omega
      | succ thread =>
          have hrest := ih h
          simp only [List.set_cons_succ, List.map_cons, List.sum_cons]
          omega

theorem work_act {action : MailboxAction} (hcomes : ¬ action.ComesIn)
    (hact : s.act action = some s') : s'.work < s.work := by
  cases action with
  | store thread frame => exact absurd trivial hcomes
  | restart => exact absurd trivial hcomes
  | count thread =>
      obtain ⟨hat, rfl⟩ := threadAt_eq_some.mp hact
      have hsum := sum_set_work .counted hat
      simp only [work, setThread, PuttingFrame.work] at hsum ⊢
      omega
  | swap thread =>
      obtain ⟨hat, rfl⟩ := threadAt_eq_some.mp hact
      cases hwake : s.mailbox.wakePending with
      | true =>
          have hsum := sum_set_work .idle hat
          simp only [work, setThread, PuttingFrame.work, if_true] at hsum ⊢
          omega
      | false =>
          have hsum := sum_set_work .waking hat
          simp only [work, setThread, PuttingFrame.work, Bool.false_eq_true, if_false] at hsum ⊢
          omega
  | send thread =>
      obtain ⟨hat, rfl⟩ := threadAt_eq_some.mp hact
      have hsum := sum_set_work .idle hat
      simp only [work, setThread, PuttingFrame.work] at hsum ⊢
      omega
  | receive =>
      obtain ⟨hready, hturn, rfl⟩ := receive_eq_some.mp hact
      simp only [work, hturn, ViewerTurn.work]
      omega
  | clear | take | empty | reset =>
      obtain ⟨hturn, rfl⟩ := viewerAt_eq_some.mp hact
      simp only [work, hturn, ViewerTurn.work]
      omega
  | spawn succeeds =>
      obtain ⟨hturn, rfl⟩ := viewerAt_eq_some.mp hact
      cases succeeds with
      | false =>
          simp only [work, hturn, ViewerTurn.work, Bool.false_eq_true, if_false]
          omega
      | true =>
          simp only [work, hturn, ViewerTurn.work, if_true, List.map_append, List.sum_append,
            List.map_singleton, List.sum_singleton, PuttingFrame.work]
          omega

/-- Where nothing can go on, no thread and no restart is under way and no event waits. -/
theorem rested (h : mailboxSystem.Stuck (¬ MailboxAction.ComesIn ·) s) :
    (∀ stage ∈ s.threads, stage = .idle) ∧ s.frameReady = 0 ∧ s.viewer = .waiting := by
  have hviewer : s.viewer = .waiting := by
    cases hturn : s.viewer with
    | waiting => rfl
    | clearing =>
        have hstuck := h .clear id
        simp [mailboxSystem, act, viewerAt, hturn] at hstuck
    | taking =>
        have hstuck := h .take id
        simp [mailboxSystem, act, viewerAt, hturn] at hstuck
    | emptying =>
        have hstuck := h .empty id
        simp [mailboxSystem, act, viewerAt, hturn] at hstuck
    | resetting =>
        have hstuck := h .reset id
        simp [mailboxSystem, act, viewerAt, hturn] at hstuck
    | spawning =>
        have hstuck := h (.spawn true) id
        simp [mailboxSystem, act, viewerAt, hturn] at hstuck
  refine ⟨?_, ?_, hviewer⟩
  · intro stage hstage
    obtain ⟨thread, hat⟩ := List.mem_iff_getElem?.mp hstage
    cases stage with
    | idle => rfl
    | stored =>
        have hstuck := h (.count thread) id
        simp [mailboxSystem, act, threadAt, hat] at hstuck
    | counted =>
        have hstuck := h (.swap thread) id
        simp [mailboxSystem, act, threadAt, hat] at hstuck
    | waking =>
        have hstuck := h (.send thread) id
        simp [mailboxSystem, act, threadAt, hat] at hstuck
  · have hstuck := h .receive id
    simpa [mailboxSystem, act, viewerAt, hviewer] using hstuck

theorem Signalled.empty_of_rested (h : s.Signalled)
    (hrested : mailboxSystem.Stuck (¬ MailboxAction.ComesIn ·) s) :
    s.mailbox.latest = none := by
  obtain ⟨hthreads, hready, hviewer⟩ := rested hrested
  rw [← Option.not_isSome_iff_eq_none]
  intro hlatest
  obtain hstored | hcounted | (hwaking | hqueued | hclearing) | htaking := h.frame hlatest
  · cases hthreads _ hstored
  · cases hthreads _ hcounted
  · cases hthreads _ hwaking
  · omega
  · rw [hviewer] at hclearing
    cases hclearing
  · rw [hviewer] at htaking
    cases htaking

/-! The frame stored last. -/

/-- The frame is in the mailbox, or it has been taken since. -/
def Pending (frame : CheckedFrame) (presented : List CheckedFrame) (s : MailboxSystem) : Prop :=
  s.mailbox.latest = some frame ∧ s.presented = presented ∨
    s.mailbox.latest = none ∧ s.presented = presented ++ [frame]

theorem Pending.act {frame : CheckedFrame} {presented : List CheckedFrame}
    {action : MailboxAction} (h : s.Pending frame presented)
    (hquiet : ¬ action.Stores ∧ action ≠ .empty) (hact : s.act action = some s') :
    s'.Pending frame presented := by
  cases action with
  | store thread frame => exact absurd trivial hquiet.1
  | empty => exact absurd rfl hquiet.2
  | take =>
      obtain ⟨-, rfl⟩ := viewerAt_eq_some.mp hact
      obtain ⟨hlatest, hpresented⟩ | ⟨hlatest, hpresented⟩ := h
      · exact Or.inr ⟨rfl, by rw [hlatest, hpresented]; rfl⟩
      · exact Or.inr ⟨rfl, by rw [hlatest, hpresented]; exact List.append_nil _⟩
  | count | swap | send =>
      obtain ⟨-, rfl⟩ := threadAt_eq_some.mp hact
      exact h
  | receive =>
      obtain ⟨-, -, rfl⟩ := receive_eq_some.mp hact
      exact h
  | clear | restart | reset | spawn =>
      obtain ⟨-, rfl⟩ := viewerAt_eq_some.mp hact
      exact h

theorem Pending.run {frame : CheckedFrame} {presented : List CheckedFrame}
    {actions : List MailboxAction} (h : s.Pending frame presented)
    (hquiet : ∀ action ∈ actions, ¬ action.Stores ∧ action ≠ .empty)
    (hrun : mailboxSystem.run s actions = some s') : s'.Pending frame presented :=
  @Interleaving.run_induction _ _ mailboxSystem _ _ _
    (fun action => ¬ action.Stores ∧ action ≠ .empty) (Pending frame presented)
    (fun hkind h hact => h.act hkind hact) hquiet hrun h

/-! No wake-up is lost. -/

def Restarting (s : MailboxSystem) : Prop :=
  s.viewer = .emptying ∨ s.viewer = .resetting ∨ s.viewer = .spawning

/-- An event is queued or about to be sent, the viewer is about to take a frame, or the
session is restarted. -/
def Announced (s : MailboxSystem) : Prop :=
  0 < s.frameReady ∨ .waking ∈ s.threads ∨ s.viewer = .taking ∨ s.Restarting

/-- A thread has stored its frame and not yet come to the flag, or the viewer has received
the event and not yet cleared the flag. -/
def BeforeFlag (s : MailboxSystem) : Prop :=
  .stored ∈ s.threads ∨ .counted ∈ s.threads ∨ s.viewer = .clearing

instance (s : MailboxSystem) : Decidable s.Announced :=
  inferInstanceAs (Decidable (_ ∨ _ ∨ _ ∨ _ ∨ _ ∨ _))

theorem Signalled.announced (h : s.Signalled) (hlatest : s.mailbox.latest.isSome) :
    s.Announced ∨ s.BeforeFlag := by
  obtain hstored | hcounted | (hwaking | hqueued | hclearing) | htaking := h.frame hlatest
  · exact Or.inr (Or.inl hstored)
  · exact Or.inr (Or.inr (Or.inl hcounted))
  · exact Or.inl (Or.inr (Or.inl hwaking))
  · exact Or.inl (Or.inl hqueued)
  · exact Or.inr (Or.inr (Or.inr hclearing))
  · exact Or.inl (Or.inr (Or.inr (Or.inl htaking)))

theorem Signalled.run {actions : List MailboxAction} (h : s.Signalled)
    (hrun : mailboxSystem.run s actions = some s') : s'.Signalled :=
  @Interleaving.run_induction _ _ mailboxSystem _ _ _ (fun _ => True) Signalled
    (fun _ h hact => h.act hact) (fun _ _ => trivial) hrun h

/-- A frame in the mailbox is announced. Without new frames and restarts there are only
so many steps, and where there are none left, the frame stored last has been taken, unless
a restart has emptied the mailbox. -/
theorem frame_announced {threads : Nat} {actions : List MailboxAction}
    (hrun : mailboxSystem.run (start threads) actions = some s) :
    (s.mailbox.latest.isSome → s.Announced ∨ s.BeforeFlag) ∧
      (∀ more s', mailboxSystem.run s more = some s' → (∀ action ∈ more, ¬ action.ComesIn) →
        more.length ≤ s.work) ∧
      (∀ thread frame stored more s', s.act (.store thread frame) = some stored →
        mailboxSystem.run stored more = some s' → (∀ action ∈ more, ¬ action.Stores) →
        mailboxSystem.Stuck (¬ MailboxAction.ComesIn ·) s' →
        .empty ∈ more ∨ s'.presented = stored.presented ++ [frame]) := by
  have hsignalled := (signalled_start threads).run hrun
  refine ⟨hsignalled.announced, ?_, ?_⟩
  · intro more s' hmore hquiet
    have hlength := Interleaving.length_le_of_work (m := mailboxSystem) work_act hquiet hmore
    omega
  · intro thread frame stored more s' hstore hmore hquiet hrested
    rw [or_iff_not_imp_left]
    intro hempty
    have hpending : stored.Pending frame stored.presented := by
      obtain ⟨-, rfl⟩ := threadAt_eq_some.mp hstore
      exact Or.inl ⟨rfl, rfl⟩
    have hend := hpending.run
      (fun action haction => ⟨hquiet action haction, fun hsame => hempty (hsame ▸ haction)⟩) hmore
    have hnone := ((hsignalled.act hstore).run hmore).empty_of_rested hrested
    obtain ⟨hlatest, -⟩ | ⟨-, hpresented⟩ := hend
    · rw [hnone] at hlatest
      cases hlatest
    · exact hpresented

def onePixel : CheckedFrame where
  frame := { width := 1, height := 1, rgba := [0, 0, 0, 255], session := 0 }
  valid := by decide

theorem stored_frame_announced :
    ∃ s, mailboxSystem.run (start 1) [.store 0 onePixel, .count 0, .swap 0, .send 0] = some s ∧
      (s.Announced ∨ s.BeforeFlag) := by
  obtain ⟨s, hrun, hlatest⟩ : ∃ s, mailboxSystem.run (start 1)
      [.store 0 onePixel, .count 0, .swap 0, .send 0] = some s ∧ s.mailbox.latest.isSome :=
    ⟨_, rfl, rfl⟩
  exact ⟨s, hrun, (frame_announced hrun).1 hlatest⟩

/-- A frame that has just been stored is not announced yet, and a restart may take it away
before the viewer does. -/
theorem frame_not_yet_announced :
    (∃ s, mailboxSystem.run (start 1) [.store 0 onePixel] = some s ∧
      s.mailbox.latest.isSome ∧ ¬ s.Announced) ∧
    ∃ s, mailboxSystem.run (start 1) [.store 0 onePixel, .restart, .empty, .reset, .spawn true,
        .count 0, .swap 0, .send 0, .receive, .clear, .take] = some s ∧
      s.mailbox.latest = none ∧ s.frameReady = 0 ∧ s.presented = [] :=
  ⟨⟨_, rfl, rfl, by decide⟩, _, rfl, rfl, rfl, rfl⟩

end MailboxSystem

end EvertyDesk.Desktop
