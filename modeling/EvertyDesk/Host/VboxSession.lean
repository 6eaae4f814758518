import EvertyDesk.Lib.Machine
import Mathlib.Data.List.TakeWhile

/-!
The session with the console of a VirtualBox machine. A worker thread takes the commands
out of a queue, then a screenshot, and so on until it finds `Stop`. Commands and `Stop`
are put into the queue only if it has room. For the worker a queue that is empty and one
whose session is gone are the same.
-/

namespace EvertyDesk.Host

inductive VboxCmd where
  | putString (text : String)
  | putScancodes (make brk : List UInt8)
  | moveMouseAbs (x y : UInt32)
  | mouseButton (btn : String)
  | stop
deriving DecidableEq, Repr

def vboxQueueCapacity : Nat := 32

def vboxStatusCapacity : Nat := 8

inductive VboxStage where
  | draining
  | capturing
  /-- A status is to be sent, which waits for room as long as there is a reader. -/
  | reporting
  | exited
deriving DecidableEq, Repr

structure VboxSession where
  /-- The session has neither been stopped nor dropped. -/
  alive : Bool
  queue : List VboxCmd
  /-- How many statuses have not been read. -/
  statuses : Nat
  stage : VboxStage
  /-- What follows is not kept by the code: the commands sent, and whether they are ahead
  of any `Stop` in the queue, the commands that the worker has run, and how many
  screenshots it has taken. -/
  history : List (VboxCmd × Bool)
  executed : List VboxCmd
  screenshots : Nat

inductive VboxInput where
  | send (cmd : VboxCmd)
  | stop
  | drop
  | tryRecvStatus
  /-- The next step of the worker, and whether VBoxManage does what it is called for. -/
  | worker (ok : Bool)

namespace VboxSession

/-- The worker first reports that it captures the screen. -/
def start : VboxSession where
  alive := true
  queue := []
  statuses := 0
  stage := .reporting
  history := []
  executed := []
  screenshots := 0

variable (s : VboxSession)

/-- When the worker has ended nobody reads the queue. -/
def trySend (cmd : VboxCmd) : VboxSession :=
  if s.stage ≠ .exited ∧ s.queue.length < vboxQueueCapacity then
    { s with queue := s.queue ++ [cmd] }
  else s

/-- The worker will run a command that is sent. -/
def Accepts : Prop := s.stage ≠ .exited ∧ s.queue.length < vboxQueueCapacity ∧ .stop ∉ s.queue

instance : Decidable s.Accepts := inferInstanceAs (Decidable (_ ∧ _ ∧ _))

def send (cmd : VboxCmd) : VboxSession :=
  { s.trySend cmd with history := s.history ++ [(cmd, decide s.Accepts)] }

/-- Both ends of the session are given up by it. -/
def drop : VboxSession := { s with alive := false }

def stop : VboxSession := (s.trySend .stop).drop

/-- The queue ends with the worker. -/
def runCommand (cmd : VboxCmd) (rest : List VboxCmd) (ok : Bool) : VboxSession :=
  match cmd with
  | .stop => { s with queue := [], stage := .exited }
  | .putString text =>
      { s with
        queue := rest
        executed := s.executed ++ [.putString text]
        stage := if ok then .draining else .reporting }
  | cmd => { s with queue := rest, executed := s.executed ++ [cmd] }

def worker (ok : Bool) : VboxSession :=
  match s.stage with
  | .draining =>
      match s.queue with
      | cmd :: rest => s.runCommand cmd rest ok
      | [] => { s with stage := .capturing }
  | .capturing =>
      { s with
        screenshots := s.screenshots + 1
        stage := if ok then .draining else .reporting }
  | .reporting =>
      if s.alive then
        if s.statuses < vboxStatusCapacity then
          { s with statuses := s.statuses + 1, stage := .draining }
        else s
      else { s with stage := .draining }
  | .exited => s

def step : VboxInput → VboxSession × Unit
  | .send cmd => (if s.alive then s.send cmd else s, ())
  | .stop => (if s.alive then s.stop else s, ())
  | .drop => (s.drop, ())
  | .tryRecvStatus => ({ s with statuses := s.statuses - 1 }, ())
  | .worker ok => (s.worker ok, ())

end VboxSession

def vboxSession : Machine VboxSession VboxInput Unit := ⟨VboxSession.step⟩

namespace VboxSession

/-- The worker comes to its end by itself, with at most the screenshot that it is about
to take. -/
def EndsAtNextDrain (s : VboxSession) : Prop :=
  ∃ bound, ∀ outcomes : List Bool, bound ≤ outcomes.length →
    let t := vboxSession.run s (outcomes.map .worker)
    t.stage = .exited ∧ t.screenshots ≤ s.screenshots + 1

inductive VboxButton where
  | left
  | right
deriving DecidableEq, Repr

def VboxButton.down : VboxButton → String
  | .left => "leftdown"
  | .right => "rightdown"

def VboxButton.up : VboxButton → String
  | .left => "leftup"
  | .right => "rightup"

/-- The button is down in the machine, once it has got what it gets of these. -/
def held (button : VboxButton) (history : List (VboxCmd × Bool)) : Bool :=
  history.foldl (fun down entry =>
    if entry.2 then
      if entry.1 = .mouseButton button.down then true
      else if entry.1 = .mouseButton button.up then false
      else down
    else down) false

/-- No release is lost of a button that is down. -/
def ReleasesKept (s : VboxSession) : Prop :=
  ∀ button before after, s.history = before ++ (.mouseButton button.up, false) :: after →
    held button before = false

/-- There is room in the queue for `Stop`, which comes before the session is dropped, and
for the release of a button that is down. -/
def Room (s : VboxSession) : VboxInput → Prop
  | .send cmd => ∀ button : VboxButton, cmd = .mouseButton button.up →
      held button s.history = true → s.Accepts
  | .stop => s.stage = .exited ∨ .stop ∈ s.queue ∨ s.queue.length < vboxQueueCapacity
  | .drop => s.alive = true → s.stage = .exited ∨ .stop ∈ s.queue
  | _ => True

/-- What the worker has still to run. -/
def waiting (s : VboxSession) : List VboxCmd := s.queue.takeWhile (· ≠ .stop)

/-- The commands that have been sent and are not lost. -/
def accepted (s : VboxSession) : List VboxCmd :=
  (s.history.filter fun entry => entry.2 && entry.1 != .stop).map (·.1)

variable {s : VboxSession}

/-! The end of the worker. -/

/-- How many steps the worker is away from `Stop` at most. -/
def work (s : VboxSession) : Nat :=
  2 * s.queue.length +
    match s.stage with
    | .draining => 1
    | .capturing => 3
    | .reporting => 2
    | .exited => 0

def screenshotsDue (s : VboxSession) : Nat := s.screenshots + if s.stage = .capturing then 1 else 0

/-- A step of the worker of a session that is gone, with `Stop` ahead of it. -/
theorem worker_ending (hdead : s.alive = false) (hstop : .stop ∈ s.queue)
    (hrunning : s.stage ≠ .exited) (ok : Bool) :
    (s.worker ok).alive = false ∧ (s.worker ok).work < s.work ∧
      (s.worker ok).screenshotsDue ≤ s.screenshotsDue ∧
      ((s.worker ok).stage = .exited ∨ .stop ∈ (s.worker ok).queue) := by
  cases hstage : s.stage with
  | draining =>
      cases hqueue : s.queue with
      | nil => simp [hqueue] at hstop
      | cons cmd rest =>
          rw [hqueue, List.mem_cons] at hstop
          cases cmd with
          | stop => simp [worker, hstage, hqueue, runCommand, hdead, work, screenshotsDue]
          | putString text =>
              have hrest : .stop ∈ rest := hstop.resolve_left (by simp)
              cases ok with
              | true =>
                  simp [worker, hstage, hqueue, runCommand, hdead, work, screenshotsDue, hrest]
              | false =>
                  simp [worker, hstage, hqueue, runCommand, hdead, work, screenshotsDue, hrest]
                  omega
          | _ =>
              have hrest : .stop ∈ rest := hstop.resolve_left (by simp)
              simp [worker, hstage, hqueue, runCommand, hdead, work, screenshotsDue, hrest]
  | capturing =>
      cases ok <;> simp [worker, hstage, hdead, work, screenshotsDue, hstop]
  | reporting => simp [worker, hstage, hdead, work, screenshotsDue, hstop]
  | exited => exact absurd hstage hrunning

theorem worker_exited (h : s.stage = .exited) (ok : Bool) : s.worker ok = s := by
  simp [worker, h]

theorem run_exited (h : s.stage = .exited) (outcomes : List Bool) :
    vboxSession.run s (outcomes.map .worker) = s := by
  induction outcomes with
  | nil => rfl
  | cons ok outcomes ih =>
      change vboxSession.run (s.worker ok) (outcomes.map .worker) = s
      rw [worker_exited h]
      exact ih

theorem run_ending (hdead : s.alive = false) (hstop : s.stage = .exited ∨ .stop ∈ s.queue)
    {outcomes : List Bool} (hlength : s.work ≤ outcomes.length) :
    (vboxSession.run s (outcomes.map .worker)).stage = .exited ∧
      (vboxSession.run s (outcomes.map .worker)).screenshots ≤ s.screenshotsDue := by
  induction outcomes generalizing s with
  | nil =>
      rcases hstop with hexited | hmember
      · exact ⟨hexited, Nat.le_add_right _ _⟩
      · have hpos := List.length_pos_of_mem hmember
        simp only [work, List.length_nil] at hlength
        omega
  | cons ok outcomes ih =>
      rcases hstop with hexited | hmember
      · rw [run_exited hexited]
        exact ⟨hexited, Nat.le_add_right _ _⟩
      · by_cases hexited : s.stage = .exited
        · rw [run_exited hexited]
          exact ⟨hexited, Nat.le_add_right _ _⟩
        · obtain ⟨hdead', hwork, hdue, hnext⟩ := worker_ending hdead hmember hexited ok
          rw [List.length_cons] at hlength
          obtain ⟨hend, hscreenshots⟩ := ih hdead' hnext (by omega)
          exact ⟨hend, Nat.le_trans hscreenshots hdue⟩

/-- Without `Stop` the worker goes on for ever, also when the session is gone. -/
theorem run_without_stop {outcomes : List Bool} (hrunning : s.stage ≠ .exited)
    (hstop : .stop ∉ s.queue) :
    (vboxSession.run s (outcomes.map .worker)).stage ≠ .exited := by
  induction outcomes generalizing s with
  | nil => exact hrunning
  | cons ok outcomes ih =>
      suffices hnext : (s.worker ok).stage ≠ .exited ∧ .stop ∉ (s.worker ok).queue from
        ih hnext.1 hnext.2
      cases hstage : s.stage with
      | draining =>
          cases hqueue : s.queue with
          | nil => simp [worker, hstage, hqueue]
          | cons cmd rest =>
              rw [hqueue, List.mem_cons, not_or] at hstop
              cases cmd with
              | stop => exact absurd rfl hstop.1
              | putString text =>
                  cases ok <;> simp [worker, hstage, hqueue, runCommand, hstop.2]
              | _ => simp [worker, hstage, hqueue, runCommand, hstop.2]
      | capturing => cases ok <;> simp [worker, hstage, hstop]
      | reporting =>
          simp only [worker, hstage]
          split
          · split
            · exact ⟨by simp, hstop⟩
            · exact ⟨hrunning, hstop⟩
          · exact ⟨by simp, hstop⟩
      | exited => exact absurd hstage hrunning

theorem endsAtNextDrain_iff (hdead : s.alive = false) :
    s.EndsAtNextDrain ↔ s.stage = .exited ∨ .stop ∈ s.queue := by
  constructor
  · rintro ⟨bound, hends⟩
    by_contra hstop
    rw [not_or] at hstop
    exact run_without_stop hstop.1 hstop.2 (hends (List.replicate bound true) (by simp)).1
  · intro hstop
    refine ⟨s.work, fun outcomes hlength => ?_⟩
    obtain ⟨hend, hscreenshots⟩ := run_ending hdead hstop hlength
    refine ⟨hend, Nat.le_trans hscreenshots (Nat.add_le_add_left ?_ _)⟩
    split <;> decide

/-! Commands. -/

/-- What is behind `Stop` is not run. -/
theorem takeWhile_snoc_of_mem {queue : List VboxCmd} (h : .stop ∈ queue) (cmd : VboxCmd) :
    (queue ++ [cmd]).takeWhile (· ≠ .stop) = queue.takeWhile (· ≠ .stop) := by
  obtain ⟨before, after, rfl⟩ := List.append_of_mem h
  rw [List.append_assoc, List.cons_append, List.takeWhile_append, List.takeWhile_append]
  split <;> simp

theorem takeWhile_snoc_of_not_mem {queue : List VboxCmd} (h : .stop ∉ queue) (cmd : VboxCmd) :
    (queue ++ [cmd]).takeWhile (· ≠ .stop) =
      queue.takeWhile (· ≠ .stop) ++ if cmd = .stop then [] else [cmd] := by
  have hall : queue.takeWhile (· ≠ .stop) = queue := by
    rw [List.takeWhile_eq_self_iff]
    intro c hc
    have hother : c ≠ .stop := fun hsame => h (hsame ▸ hc)
    simpa using hother
  rw [List.takeWhile_append, hall, if_pos rfl]
  by_cases hcmd : cmd = .stop <;> simp [hcmd]

/-- The commands that are not lost are those that the worker has run and has still to
run, in their order. -/
structure InOrder (s : VboxSession) : Prop where
  accepted : s.accepted = s.executed ++ s.waiting
  released : s.ReleasesKept
  stopped : s.alive = false → s.stage = .exited ∨ .stop ∈ s.queue

theorem start_inOrder : start.InOrder where
  accepted := rfl
  released := by simp [ReleasesKept, start]
  stopped := by simp [start]

theorem trySend_waiting (cmd : VboxCmd) :
    (s.trySend cmd).waiting = s.waiting ++ if s.Accepts ∧ cmd ≠ .stop then [cmd] else [] := by
  unfold trySend
  by_cases hstop : .stop ∈ s.queue
  · have hrefused : ¬ s.Accepts := fun h => h.2.2 hstop
    split
    · simpa [waiting, hrefused] using takeWhile_snoc_of_mem hstop cmd
    · simp [hrefused]
  · split
    next hroom =>
      have haccepts : s.Accepts := ⟨hroom.1, hroom.2, hstop⟩
      by_cases hcmd : cmd = .stop <;>
        simpa [waiting, haccepts, hcmd] using takeWhile_snoc_of_not_mem hstop cmd
    next hroom =>
      have hrefused : ¬ s.Accepts := fun h => hroom ⟨h.1, h.2.1⟩
      simp [hrefused]

theorem trySend_fixed (cmd : VboxCmd) :
    (s.trySend cmd).alive = s.alive ∧ (s.trySend cmd).executed = s.executed ∧
      (s.trySend cmd).history = s.history ∧ (s.trySend cmd).stage = s.stage := by
  unfold trySend
  split <;> exact ⟨rfl, rfl, rfl, rfl⟩

/-- What is in the queue stays there. -/
theorem mem_trySend {cmd other : VboxCmd} (h : other ∈ s.queue) :
    other ∈ (s.trySend cmd).queue := by
  unfold trySend
  split
  · exact List.mem_append_left _ h
  · exact h

theorem InOrder.send (h : s.InOrder) (halive : s.alive = true) {cmd : VboxCmd}
    (hroom : s.Room (.send cmd)) : (s.send cmd).InOrder := by
  obtain ⟨halive', hexecuted, -, hstage⟩ := s.trySend_fixed cmd
  constructor
  · have hwaiting : (s.send cmd).waiting = (s.trySend cmd).waiting := rfl
    have hrun : (s.send cmd).executed = s.executed := hexecuted
    have haccepted : (s.send cmd).accepted =
        s.accepted ++ if s.Accepts ∧ cmd ≠ .stop then [cmd] else [] := by
      by_cases haccepts : s.Accepts <;> by_cases hcmd : cmd = .stop <;>
        simp [VboxSession.accepted, VboxSession.send, haccepts, hcmd]
    rw [haccepted, hrun, hwaiting, trySend_waiting, h.accepted, List.append_assoc]
  · intro button before after hsplit
    rcases List.eq_nil_or_concat after with rfl | ⟨after, last, rfl⟩
    · obtain ⟨rfl, hlast⟩ := List.append_inj' (hsplit.symm.trans rfl : before ++ [_] = _ ++ [_]) rfl
      rw [List.cons.injEq, Prod.mk.injEq] at hlast
      by_contra hheld
      have haccepts := hroom button hlast.1.1.symm (by simpa using hheld)
      simp [haccepts] at hlast
    · rw [List.concat_eq_append, ← List.cons_append, ← List.append_assoc] at hsplit
      have hinit := (List.append_inj' hsplit rfl).1
      exact h.released button before after hinit
  · intro hdead
    rw [show (s.send cmd).alive = s.alive from halive', halive] at hdead
    cases hdead

theorem InOrder.stop (h : s.InOrder) (hroom : s.Room .stop) :
    s.stop.InOrder := by
  obtain ⟨-, hexecuted, hhistory, hstage⟩ := s.trySend_fixed .stop
  constructor
  · have hwaiting : s.stop.waiting = s.waiting := by
      change (s.trySend .stop).waiting = s.waiting
      simp [trySend_waiting]
    rw [hwaiting, show s.stop.executed = s.executed from hexecuted, ← h.accepted]
    exact congrArg (fun history : List (VboxCmd × Bool) =>
      (history.filter fun entry => entry.2 && entry.1 != .stop).map (·.1)) hhistory
  · intro button before after hsplit
    exact h.released button before after (hhistory.symm.trans hsplit)
  · intro _
    rcases hroom with hexited | hmember | hroom
    · exact .inl (hstage.trans hexited)
    · exact .inr (mem_trySend hmember)
    · by_cases hexited : s.stage = .exited
      · exact .inl (hstage.trans hexited)
      · refine .inr ?_
        have hsent : (s.trySend .stop).queue = s.queue ++ [.stop] := by
          simp [trySend, hexited, hroom]
        exact hsent ▸ List.mem_append_right _ List.mem_cons_self

theorem InOrder.drop (h : s.InOrder) (hroom : s.Room .drop) : s.drop.InOrder where
  accepted := h.accepted
  released := h.released
  stopped _ := by
    cases halive : s.alive with
    | true => exact hroom halive
    | false => exact h.stopped halive

/-- A command moves from those waiting to those that have been run. -/
theorem worker_inOrder (ok : Bool) :
    (s.worker ok).executed ++ (s.worker ok).waiting = s.executed ++ s.waiting ∧
      (s.worker ok).history = s.history ∧ (s.worker ok).alive = s.alive ∧
      (s.stage = .exited ∨ .stop ∈ s.queue →
        (s.worker ok).stage = .exited ∨ .stop ∈ (s.worker ok).queue) := by
  cases hstage : s.stage with
  | draining =>
      cases hqueue : s.queue with
      | nil => simp [worker, hstage, hqueue, waiting]
      | cons cmd rest =>
          cases cmd with
          | stop => simp [worker, hstage, hqueue, waiting, runCommand]
          | putString text => cases ok <;> simp [worker, hstage, hqueue, waiting, runCommand]
          | _ => simp [worker, hstage, hqueue, waiting, runCommand]
  | capturing => cases ok <;> simp [worker, hstage, waiting]
  | reporting =>
      cases halive : s.alive with
      | true =>
          by_cases hroom : s.statuses < vboxStatusCapacity <;>
            simp [worker, hstage, halive, hroom, waiting]
      | false => simp [worker, hstage, halive, waiting]
  | exited =>
      rw [worker_exited hstage]
      exact ⟨rfl, rfl, rfl, fun _ => .inl hstage⟩

theorem InOrder.worker (h : s.InOrder) (ok : Bool) : (s.worker ok).InOrder := by
  obtain ⟨hmoved, hhistory, halive, hstop⟩ := s.worker_inOrder ok
  constructor
  · rw [hmoved, ← h.accepted, VboxSession.accepted, hhistory]
    rfl
  · intro button before after hsplit
    exact h.released button before after (hhistory.symm.trans hsplit)
  · intro hdead
    exact hstop (h.stopped (halive.symm.trans hdead))

theorem InOrder.step (h : s.InOrder) {i : VboxInput} (hroom : s.Room i) : (s.step i).1.InOrder := by
  cases i with
  | send cmd =>
      cases halive : s.alive with
      | true => simpa [VboxSession.step, halive] using h.send halive hroom
      | false => simpa [VboxSession.step, halive] using h
  | stop =>
      cases halive : s.alive with
      | true => simpa [VboxSession.step, halive] using h.stop hroom
      | false => simpa [VboxSession.step, halive] using h
  | drop => exact h.drop hroom
  | tryRecvStatus => exact ⟨h.accepted, h.released, h.stopped⟩
  | worker ok => exact h.worker ok

/-- As long as there is room for `Stop` and for the releases of the buttons that are down,
a session that has been stopped or dropped ends and no such release is lost. -/
theorem vbox_session_stops {is : List VboxInput} (hroom : vboxSession.Along Room start is) :
    let s := vboxSession.run start is
    (s.alive = false → s.EndsAtNextDrain) ∧ s.ReleasesKept ∧
      s.accepted = s.executed ++ s.waiting := by
  intro s
  have hinv : s.InOrder :=
    vboxSession.invariant (I := InOrder) (fun _ _ h hroom => h.step hroom) start_inOrder hroom
  refine ⟨fun hdead => ?_, hinv.released, hinv.accepted⟩
  rw [endsAtNextDrain_iff hdead]
  exact hinv.stopped hdead

/-- A click is run by the worker before it ends. -/
theorem vbox_session_stops_click :
    let is := [VboxInput.send (.mouseButton "leftdown"), .worker true, .worker true,
      .send (.mouseButton "leftup"), .stop]
    let s := vboxSession.run start is
    (s.alive = false → s.EndsAtNextDrain) ∧ s.ReleasesKept ∧
      s.accepted = s.executed ++ s.waiting ∧ s.accepted.length = 2 := by
  intro is s
  have hroom : vboxSession.Along Room start is := by
    refine ⟨?_, trivial, trivial, ?_, ?_, trivial⟩
    · exact fun _ _ _ => by decide
    · exact fun _ _ _ => by decide
    · exact .inr (.inr (by decide))
  obtain ⟨hends, hkept, haccepted⟩ := vbox_session_stops hroom
  exact ⟨hends, hkept, haccepted, rfl⟩

/-- While a screenshot is taken the queue fills, and `Stop` does not get into it. The
worker goes on. -/
theorem stop_is_lost :
    let s := vboxSession.run start
      (.worker true :: .worker true :: List.replicate 32 (.send (.moveMouseAbs 0 0)) ++ [.stop])
    s.stage = .capturing ∧ s.alive = false ∧ ¬ s.EndsAtNextDrain := by
  intro s
  have hdead : s.alive = false := by decide +kernel
  refine ⟨by decide +kernel, hdead, ?_⟩
  rw [endsAtNextDrain_iff hdead]
  decide +kernel

end VboxSession

end EvertyDesk.Host
