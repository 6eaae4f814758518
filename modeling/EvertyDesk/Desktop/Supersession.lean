import EvertyDesk.Desktop.SessionEvents

/-!
Sessions that a restart has replaced. The window cannot tell their events from those of
the current session, apart from the events that carry a generation. So a replaced session
is silent only where the restart waits until the session has nothing more to tell.
-/

namespace EvertyDesk.Desktop

/-- The event changes the window and does not say from which session it is. A notice of a
picture is not one of these: the picture itself is in the mailbox. -/
def ViewerEvent.anonymous : ViewerEvent → Bool
  | .failed _ _ | .closed _ | .frameReady => false
  | _ => true

def ThreadAction.anonymous : ThreadAction → Bool
  | .send event => event.anonymous
  | .put _ _ _ => true
  | .wake => false

/-- Who sends what to the window. -/
def ViewerEvent.IsFrom : Option Nat → ViewerEvent → Prop
  | some n, .failed generation _ | some n, .closed generation => generation = generationOf n
  | some _, .reconnect _ | some _, .launcherReconnect | some _, .watchdogStalled _ => False
  | some _, _ => True
  | none, .reconnect _ | none, .launcherReconnect | none, .watchdogStalled _ => True
  | none, _ => False

theorem EventThread.tell_isFrom (t : EventThread) {origin : Option Nat}
    {events : List ViewerEvent} (hevents : ∀ event ∈ events, event.IsFrom origin) :
    ∀ event, .send event ∈ (t.tell events).todo → event.IsFrom origin := by
  intro event hevent
  obtain ⟨told, htold, hsame⟩ := List.mem_map.mp hevent
  obtain rfl := ThreadAction.send.inj hsame
  exact hevents told htold

theorem EventThread.forwardFrame_isFrom (t : EventThread) (n : Nat) (codec : String)
    (width height : Nat) (rgba : List UInt8) :
    ∀ event, .send event ∈ (t.forwardFrame codec width height rgba).todo →
      event.IsFrom (some n) := by
  have hcodec : ∀ e ∈ (if t.lastCodec = codec then [] else [ViewerEvent.codec codec]),
      e.IsFrom (some n) := by
    split <;> simp [ViewerEvent.IsFrom]
  unfold forwardFrame
  dsimp only
  split
  · exact tell_isFrom _ hcodec
  · split
    · apply tell_isFrom
      intro event hevent
      rcases List.mem_append.mp hevent with hold | hnew
      · exact hcodec event hold
      · rw [List.mem_singleton.mp hnew]
        trivial
    · intro event hevent
      rcases List.mem_append.mp hevent with hold | hnew
      · exact tell_isFrom t hcodec event hold
      · simp at hnew

theorem EventThread.forward_isFrom (cfg : ViewerConfig) (n : Nat) (t : EventThread)
    (event : SessionEvent) :
    ∀ told, .send told ∈ (t.forward cfg (generationOf n) event).todo → told.IsFrom (some n) := by
  cases event with
  | frame codec width height rgba => exact t.forwardFrame_isFrom n codec width height rgba
  | connected peer =>
      simp only [forward, tell]
      split <;> simp [ViewerEvent.IsFrom]
  | evrtStatus active hostAddr port =>
      simp only [forward]
      split <;> simp [tell, finish, ViewerEvent.IsFrom]
  | cursorData id hotx hoty width height rgba =>
      simp only [forward]
      split <;> simp [tell, ViewerEvent.IsFrom]
  | clipboardText text =>
      simp only [forward]
      split <;> simp [tell, ViewerEvent.IsFrom]
  | _ => simp [forward, tell, finish, ViewerEvent.IsFrom]

theorem generationOf_inj {n m : Nat} (hn : n + 1 < 2 ^ 64) (hm : m + 1 < 2 ^ 64)
    (h : generationOf n = generationOf m) : n = m := by
  have hnat := congrArg UInt64.toNat h
  simp only [generationOf, UInt64.toNat_ofNat'] at hnat
  rw [Nat.mod_eq_of_lt hn, Nat.mod_eq_of_lt hm] at hnat
  exact Nat.succ.inj hnat

theorem generationOf_succ (n : Nat) : generationOf n + 1 = generationOf (n + 1) := by
  simp [generationOf]

namespace ViewerSessions

variable (cfg : ViewerConfig) (s : ViewerSessions)

/-! When replaced sessions are silent. -/

def beginsRestart : SessionsInput → Bool
  | .restart => !s.restarting
  | .handle _ =>
      !s.restarting &&
        match s.queue.head? with
        | some (_, .launcherReconnect) => true
        | some (_, .reconnect generation) => generation == s.generation
        | _ => false
  | _ => false

/-- A restart begins when nothing that a session has told anonymously is waiting for the
window, and from then on the old session's thread does nothing of this kind any more.
Generations must not be used up either. -/
def Drained (i : SessionsInput) : Prop :=
  (s.beginsRestart i → (∀ e ∈ s.queue, e.1.isSome → e.2.anonymous = false) ∧
    s.current + 2 < 2 ^ 64) ∧
  match i with
  | .act n =>
      n ≠ s.current → ∀ t ∈ s.threads[n]?, ∀ action ∈ t.todo.head?, action.anonymous = false
  | _ => True

instance instDecidableDrained : ∀ i, Decidable (s.Drained i) := by
  intro i
  unfold Drained
  cases i <;> infer_instance

/-- Events of replaced sessions change nothing, the picture is always one of the current
session, and the viewer is connected only if the current session is. That there is a picture
says no session for itself: what the window then changes, the notice of a stalled video
included, it changes for a picture of the current session. -/
structure Silent (i : SessionsInput) : Prop where
  events : ∀ o n event rest, i = .handle o → s.restarting = false →
    s.queue = (some n, event) :: rest → n ≠ s.current → event ≠ .frameReady →
    (s.step cfg i).1.viewer = s.viewer
  frames : ∀ o origin rest, i = .handle o → s.restarting = false →
    s.queue = (origin, .frameReady) :: rest →
    (s.step cfg i).1.viewer = s.viewer ∨
      ∃ frame, s.latest = some frame ∧ frame.session = s.current ∧
        (s.step cfg i).1.viewer = s.viewer.presentFrame cfg o frame
  picture : (s.step cfg i).1.viewer.picture = s.viewer.picture ∨
    (s.step cfg i).1.viewer.shownOf = some s.current
  connected : (s.step cfg i).1.viewer.sessionConnected = true →
    (s.step cfg i).1.current ∈ (s.step cfg i).1.connectedSessions

/-! What keeps them apart. -/

structure Separate : Prop where
  generation : s.generation = generationOf s.current
  below : s.current + 1 < 2 ^ 64
  threads : s.threads.length + s.restarting.toNat = s.current + 1
  todo : ∀ (n : Nat) (t : EventThread), s.threads[n]? = some t →
    ∀ event, .send event ∈ t.todo → event.IsFrom (some n)
  isFrom : ∀ e ∈ s.queue, e.2.IsFrom e.1
  queued : ∀ e ∈ s.queue, ∀ n, e.1 = some n → n ≤ s.current ∧
    (n ≠ s.current → e.2.anonymous = false)
  latest : ∀ frame ∈ s.latest, frame.session = s.current
  connected : s.viewer.sessionConnected = true → s.current ∈ s.connectedSessions

theorem start_separate (allowClipboard : Bool) : (start cfg allowClipboard).Separate where
  generation := rfl
  below := Nat.one_lt_two_pow (by decide)
  threads := rfl
  todo n t ht event hevent := by
    rcases n with _ | n
    · obtain rfl := Option.some.inj ht
      cases hevent
    · cases ht
  isFrom := by simp [start]
  queued := by simp [start]
  latest := by simp [start]
  connected h := by cases h

variable {s}

theorem Separate.le_current (h : s.Separate) {n : Nat} {t : EventThread}
    (ht : s.threads[n]? = some t) : n ≤ s.current := by
  obtain ⟨hlt, -⟩ := List.getElem?_eq_some_iff.mp ht
  have hlength := h.threads
  omega

theorem Separate.setThread (h : s.Separate) {n : Nat} {t : EventThread}
    (ht : ∀ event, .send event ∈ t.todo → event.IsFrom (some n)) :
    (s.setThread n t).Separate := by
  refine { h with threads := ?_, todo := ?_ }
  · refine Eq.trans ?_ h.threads
    simp [ViewerSessions.setThread]
  · intro m u hu event hevent
    rcases eq_or_ne n m with rfl | hother
    · rw [ViewerSessions.setThread, List.getElem?_set_self'] at hu
      obtain ⟨_, -, rfl⟩ := Option.map_eq_some_iff.mp hu
      exact ht event hevent
    · rw [ViewerSessions.setThread, List.getElem?_set_ne hother] at hu
      exact h.todo m u hu event hevent

/-- An event joins those of the window. -/
theorem Separate.enqueue (h : s.Separate) {origin : Option Nat} {event : ViewerEvent}
    (hfrom : event.IsFrom origin)
    (hsigned : ∀ n, origin = some n → n ≤ s.current ∧ (n ≠ s.current → event.anonymous = false)) :
    { s with queue := s.queue ++ [(origin, event)] }.Separate := by
  refine { h with isFrom := ?_, queued := ?_ }
  · intro e he
    rcases List.mem_append.mp he with hold | hnew
    · exact h.isFrom e hold
    · rw [List.mem_singleton.mp hnew]
      exact hfrom
  · intro e he n hn
    rcases List.mem_append.mp he with hold | hnew
    · exact h.queued e hold n hn
    · rw [List.mem_singleton.mp hnew] at hn ⊢
      exact hsigned n hn

theorem Separate.told (h : s.Separate) {n : Nat} {event : ViewerEvent} (hn : n ≤ s.current)
    (hfrom : event.IsFrom (some n)) (hsigned : n ≠ s.current → event.anonymous = false) :
    { s with queue := s.queue ++ [(some n, event)] }.Separate := by
  apply h.enqueue hfrom
  rintro m ⟨⟩
  exact ⟨hn, hsigned⟩

theorem Separate.post (h : s.Separate) {event : ViewerEvent} (hevent : event.IsFrom none) :
    (s.post event).Separate := by
  apply h.enqueue hevent
  intro n hn
  cases hn

theorem Separate.act (h : s.Separate) {n : Nat} (hn : n ≤ s.current) {action : ThreadAction}
    (hfrom : ∀ event, action = .send event → event.IsFrom (some n))
    (hsigned : n ≠ s.current → action.anonymous = false) : (s.act n action).Separate := by
  cases action with
  | send event => exact h.told hn (hfrom event rfl) hsigned
  | put width height rgba =>
      have hcurrent : n = s.current := by
        by_contra hother
        cases hsigned hother
      refine { h with latest := ?_ }
      intro frame hframe
      obtain rfl := Option.some.inj hframe
      exact hcurrent
  | wake =>
      have hwoken : { s with wakePending := true }.Separate := { h with }
      simp only [ViewerSessions.act]
      split
      · exact hwoken
      · exact hwoken.told hn trivial fun _ => rfl

theorem Separate.beginRestart (h : s.Separate) (hidle : s.restarting = false)
    (hdrained : ∀ e ∈ s.queue, e.1.isSome → e.2.anonymous = false)
    (hbelow : s.current + 2 < 2 ^ 64) : s.beginRestart.Separate where
  generation := by
    simp only [ViewerSessions.beginRestart, h.generation, generationOf_succ]
  below := hbelow
  threads := by
    have hlength := h.threads
    rw [hidle] at hlength
    exact congrArg (· + 1) hlength
  todo := h.todo
  isFrom := h.isFrom
  queued e he n hn :=
    ⟨Nat.le_succ_of_le (h.queued e he n hn).1, fun _ => hdrained e he (by rw [hn]; rfl)⟩
  latest := by simp [ViewerSessions.beginRestart]
  connected hconnected := by cases hconnected

theorem respawn_view (o : Outcomes) : (s.respawn cfg o).viewer.view = s.viewer.view := by
  simp only [ViewerSessions.respawn]
  split
  · exact Viewer.view_remoteTitle ..
  · exact Viewer.view_scheduleReconnect ..

theorem Separate.respawn (h : s.Separate) (hrestarting : s.restarting = true) (o : Outcomes) :
    (s.respawn cfg o).Separate := by
  have hsame : (s.respawn cfg o).viewer.sessionConnected = s.viewer.sessionConnected :=
    congrArg Prod.snd (respawn_view cfg o)
  refine { h with threads := ?_, todo := ?_, connected := ?_ }
  · have hlength := h.threads
    rw [hrestarting] at hlength
    simpa [ViewerSessions.respawn] using hlength
  · intro n t ht event hevent
    change (s.threads ++ _)[n]? = some t at ht
    rcases Nat.lt_or_ge n s.threads.length with hold | hnew
    · rw [List.getElem?_append_left hold] at ht
      exact h.todo n t ht event hevent
    · rw [List.getElem?_append_right hnew] at ht
      rw [List.mem_singleton.mp (List.mem_of_getElem? ht)] at hevent
      cases hevent
  · intro hconnected
    exact h.connected (hsame ▸ hconnected)

/-! The window. -/

theorem Separate.withViewer (h : s.Separate) {v : Viewer}
    (hv : v.sessionConnected = s.viewer.sessionConnected) :
    { s with viewer := v }.Separate :=
  { h with connected := fun hconnected => h.connected (hv ▸ hconnected) }

theorem Separate.popped (h : s.Separate) {e : Option Nat × ViewerEvent}
    {rest : List (Option Nat × ViewerEvent)} (hqueue : s.queue = e :: rest) :
    { s with queue := rest }.Separate :=
  { h with
    isFrom := fun e he => h.isFrom e (hqueue ▸ List.mem_cons_of_mem _ he)
    queued := fun e he => h.queued e (hqueue ▸ List.mem_cons_of_mem _ he) }

theorem Separate.same_of_generation (h : s.Separate) {n : Nat} (hn : n ≤ s.current)
    (hgeneration : generationOf n = s.generation) : n = s.current := by
  have hbelow := h.below
  exact generationOf_inj (by omega) hbelow (hgeneration.trans h.generation)

/-- A session has told of its end, which counts if it is the current one. -/
theorem Separate.ended (h : s.Separate) {n : Nat} (hn : n ≤ s.current) {v : Viewer}
    (hv : v.sessionConnected = false) :
    { s with
      viewer := if generationOf n = s.generation then v else s.viewer
      connectedSessions := s.connectedSessions.filter (some · != some n) }.Separate := by
  refine { h with connected := ?_ }
  intro hconnected
  dsimp only at hconnected ⊢
  split at hconnected
  next => rw [hv] at hconnected; cases hconnected
  next hother =>
    have hne : s.current ≠ n := by
      rintro rfl
      exact hother h.generation.symm
    exact List.mem_filter.mpr ⟨h.connected hconnected, by simpa using hne⟩

theorem Separate.handleEvent (h : s.Separate) (hidle : s.restarting = false) (o : Outcomes)
    {origin : Option Nat} {event : ViewerEvent} (hfrom : event.IsFrom origin)
    (horigin : ∀ n, origin = some n → n ≤ s.current ∧ (n ≠ s.current → event.anonymous = false))
    (hrestart : event = .launcherReconnect ∨ event = .reconnect s.generation →
      (∀ e ∈ s.queue, e.1.isSome → e.2.anonymous = false) ∧ s.current + 2 < 2 ^ 64) :
    (s.handleEvent cfg o origin event).Separate := by
  cases event with
  | frameReady =>
      have hshown : { s with wakePending := false, latest := none }.Separate :=
        { h with latest := by simp }
      refine hshown.withViewer ?_
      split
      · exact Viewer.presentFrame_sessionConnected ..
      · rfl
  | connected peer =>
      cases origin with
      | none => exact hfrom.elim
      | some n =>
          obtain ⟨-, hsigned⟩ := horigin n rfl
          have hcurrent : n = s.current := by
            by_contra hother
            cases hsigned hother
          exact { h with connected := fun _ => hcurrent ▸ List.mem_cons_self }
  | failed generation error =>
      cases origin with
      | none => exact hfrom.elim
      | some n =>
          obtain rfl : generation = generationOf n := hfrom
          exact h.ended (horigin n rfl).1 (congrArg Prod.snd (Viewer.view_failed ..))
  | closed generation =>
      cases origin with
      | none => exact hfrom.elim
      | some n =>
          obtain rfl : generation = generationOf n := hfrom
          exact h.ended (horigin n rfl).1 (congrArg Prod.snd (Viewer.view_closed ..))
  | reconnect generation =>
      simp only [ViewerSessions.handleEvent]
      split
      next hsame =>
        obtain ⟨hdrained, hbelow⟩ := hrestart (.inr (by rw [hsame]))
        exact h.beginRestart hidle hdrained hbelow
      next => exact h
  | launcherReconnect =>
      obtain ⟨hdrained, hbelow⟩ := hrestart (.inl rfl)
      have hzero : { s with viewer := { s.viewer with reconnectAttempts := 0 } }.Separate :=
        h.withViewer rfl
      exact hzero.beginRestart hidle hdrained hbelow
  | _ => exact h.withViewer (s.viewer.observe_sessionConnected cfg o _)

/-- Whichever session has told that there is a picture, it is one of the current session. -/
theorem Separate.handleEvent_frameReady (h : s.Separate) (o : Outcomes) (origin : Option Nat) :
    (s.handleEvent cfg o origin .frameReady).viewer = s.viewer ∨
      ∃ frame, s.latest = some frame ∧ frame.session = s.current ∧
        (s.handleEvent cfg o origin .frameReady).viewer = s.viewer.presentFrame cfg o frame := by
  simp only [ViewerSessions.handleEvent]
  split
  next frame hframe => exact .inr ⟨frame, hframe, h.latest frame hframe, rfl⟩
  next => exact .inl rfl

/-- The picture that an event of the window may show is one of the current session. -/
theorem Separate.handleEvent_picture (h : s.Separate) (o : Outcomes) (origin : Option Nat)
    (event : ViewerEvent) :
    (s.handleEvent cfg o origin event).viewer.picture = s.viewer.picture ∨
      (s.handleEvent cfg o origin event).viewer.shownOf = some s.current := by
  cases event with
  | frameReady =>
      rcases h.handleEvent_frameReady cfg o origin with hkept | ⟨frame, -, hcurrent, hshown⟩
      · exact .inl (congrArg Viewer.picture hkept)
      · rw [hshown, ← hcurrent]
        exact Viewer.presentFrame_picture ..
  | connected peer => exact .inl (congrArg Prod.fst (Viewer.view_connected ..))
  | failed generation error =>
      simp only [ViewerSessions.handleEvent]
      split
      · exact .inl (congrArg Prod.fst (Viewer.view_failed ..))
      · exact .inl rfl
  | closed generation =>
      simp only [ViewerSessions.handleEvent]
      split
      · exact .inl (congrArg Prod.fst (Viewer.view_closed ..))
      · exact .inl rfl
  | reconnect generation =>
      simp only [ViewerSessions.handleEvent]
      split <;> exact .inl rfl
  | launcherReconnect => exact .inl rfl
  | _ =>
      simp only [ViewerSessions.handleEvent, Viewer.observe_picture, true_or]

/-- An event of a replaced session is ignored. -/
theorem Separate.handleEvent_replaced (h : s.Separate) (o : Outcomes) {n : Nat}
    {event : ViewerEvent} (hfrom : event.IsFrom (some n)) (hn : n ≤ s.current)
    (hother : n ≠ s.current) (hsigned : event.anonymous = false) (hevent : event ≠ .frameReady) :
    (s.handleEvent cfg o (some n) event).viewer = s.viewer := by
  cases event with
  | frameReady => exact absurd rfl hevent
  | failed generation error =>
      obtain rfl : generation = generationOf n := hfrom
      exact if_neg fun hsame => hother (h.same_of_generation hn hsame)
  | closed generation =>
      obtain rfl : generation = generationOf n := hfrom
      exact if_neg fun hsame => hother (h.same_of_generation hn hsame)
  | _ => cases hsigned

/-! Steps. -/

theorem act_viewer (s : ViewerSessions) (n : Nat) (action : ThreadAction) :
    (s.act n action).viewer = s.viewer := by
  cases action <;> rfl

theorem Separate.handle (h : s.Separate) (hidle : s.restarting = false) (o : Outcomes)
    (hdrained : s.Drained (.handle o)) :
    (s.handle cfg o).Separate := by
  cases hqueue : s.queue with
  | nil => simpa [ViewerSessions.handle, hqueue] using h
  | cons e rest =>
      obtain ⟨origin, event⟩ := e
      have hhead : (origin, event) ∈ s.queue := hqueue ▸ List.mem_cons_self
      have hnext : s.handle cfg o = { s with queue := rest }.handleEvent cfg o origin event := by
        simp only [ViewerSessions.handle, hqueue]
      rw [hnext]
      refine (h.popped hqueue).handleEvent cfg hidle o (h.isFrom _ hhead) (h.queued _ hhead) ?_
      intro hrestart
      have hbegins : s.beginsRestart (.handle o) = true := by
        rcases hrestart with rfl | rfl <;> simp [beginsRestart, hidle, hqueue]
      obtain ⟨hsigned, hbelow⟩ := hdrained.1 hbegins
      exact ⟨fun e he => hsigned e (hqueue ▸ List.mem_cons_of_mem _ he), hbelow⟩

theorem Separate.step (h : s.Separate) {i : SessionsInput} (hdrained : s.Drained i) :
    (s.step cfg i).1.Separate := by
  cases i with
  | session n event =>
      simp only [ViewerSessions.step]
      split
      next t ht =>
        dsimp only
        split
        · exact h.setThread (t.forward_isFrom cfg n event)
        · exact h
      next => exact h
  | act n =>
      simp only [ViewerSessions.step]
      split
      next t ht =>
        split
        next action rest htodo =>
          have htask : ∀ event, .send event ∈ action :: rest → event.IsFrom (some n) :=
            htodo ▸ h.todo n t ht
          have hrest : (s.setThread n { t with todo := rest }).Separate :=
            h.setThread fun event hevent => htask event (List.mem_cons_of_mem _ hevent)
          refine hrest.act (h.le_current ht) ?_ fun hother => ?_
          · rintro event rfl
            exact htask event List.mem_cons_self
          · exact hdrained.2 hother t ht action (by rw [htodo]; rfl)
        next => exact h
      next => exact h
  | delayOver generation => exact h.post trivial
  | launcherReconnect => exact h.post trivial
  | watchdog watching => exact h.post trivial
  | handle o =>
      cases hidle : s.restarting with
      | true => simpa [ViewerSessions.step, hidle] using h
      | false => simpa [ViewerSessions.step, hidle] using h.handle cfg hidle o hdrained
  | restart =>
      cases hidle : s.restarting with
      | true => simpa [ViewerSessions.step, hidle] using h
      | false =>
          obtain ⟨hsigned, hbelow⟩ := hdrained.1 (by simp [beginsRestart, hidle])
          have hzero : { s with viewer := { s.viewer with reconnectAttempts := 0 } }.Separate :=
            h.withViewer rfl
          simpa [ViewerSessions.step, hidle] using hzero.beginRestart hidle hsigned hbelow
  | respawn o =>
      cases hrestarting : s.restarting with
      | true => simpa [ViewerSessions.step, hrestarting] using h.respawn cfg hrestarting o
      | false => simpa [ViewerSessions.step, hrestarting] using h
  | resumed => exact h.withViewer rfl

theorem Separate.silent (h : s.Separate) {i : SessionsInput} (hdrained : s.Drained i) :
    s.Silent cfg i where
  events := by
    rintro o n event rest rfl hidle hqueue hother hevent
    have hhead : (some n, event) ∈ s.queue := hqueue ▸ List.mem_cons_self
    obtain ⟨hn, hsigned⟩ := h.queued _ hhead n rfl
    have hkept := (h.popped hqueue).handleEvent_replaced cfg o (h.isFrom _ hhead) hn hother
      (hsigned hother) hevent
    simpa [ViewerSessions.step, ViewerSessions.handle, hidle, hqueue] using hkept
  frames := by
    rintro o origin rest rfl hidle hqueue
    have hshown := (h.popped hqueue).handleEvent_frameReady cfg o origin
    simpa [ViewerSessions.step, ViewerSessions.handle, hidle, hqueue] using hshown
  picture := by
    cases i with
    | handle o =>
        simp only [ViewerSessions.step, ViewerSessions.handle]
        split
        · exact .inl rfl
        · split
          next => exact .inl rfl
          next origin event rest hqueue =>
            exact (h.popped hqueue).handleEvent_picture cfg o origin event
    | respawn o =>
        left
        simp only [ViewerSessions.step]
        split
        · exact congrArg Prod.fst (respawn_view cfg o)
        · rfl
    | session n event =>
        left
        simp only [ViewerSessions.step]
        split
        · split <;> rfl
        · rfl
    | act n =>
        left
        simp only [ViewerSessions.step]
        split
        · split
          · exact congrArg Viewer.picture (act_viewer ..)
          · rfl
        · rfl
    | restart =>
        left
        simp only [ViewerSessions.step]
        split <;> rfl
    | _ => exact .inl rfl
  connected := (h.step cfg hdrained).connected

end ViewerSessions

/-- Where every restart waits until the old session has nothing more to tell, replaced
sessions are silent in every order of events. -/
theorem superseded_sessions_silent (cfg : ViewerConfig) (allowClipboard : Bool)
    (inputs : List SessionsInput)
    (hdrained : (viewerSessions cfg).Along ViewerSessions.Drained
      (.start cfg allowClipboard) inputs) :
    (viewerSessions cfg).Along (ViewerSessions.Silent cfg) (.start cfg allowClipboard) inputs :=
  (viewerSessions cfg).along_of_invariant
    (fun _ _ hseparate hstep => ⟨hseparate.step cfg hstep, hseparate.silent cfg hstep⟩)
    (ViewerSessions.start_separate cfg allowClipboard) hdrained

/-- A viewer without a filter over pictures. -/
def plainConfig : ViewerConfig where
  remoteId := "100"
  transportProfileLabel := "auto"
  strictEvrtRequired := false
  requestEvrt2Experiment := false
  toLowercase := String.toLower
  fsr := none

def noFailures : Outcomes where
  now := 0
  resizeOk := true
  cursorOk := true
  clipboardOk := true
  spawnOk := true

/-- A session that shows a picture is replaced and ends only after that. -/
theorem superseded_sessions_silent_restart :
    (viewerSessions plainConfig).Along (ViewerSessions.Silent plainConfig) (.start plainConfig true)
      [.resumed, .session 0 (.connected "host"), .act 0, .handle noFailures,
        .session 0 (.frame "h264" 1 1 [1, 2, 3, 255]), .act 0, .act 0, .act 0,
        .handle noFailures, .handle noFailures, .restart, .session 0 .closed, .act 0,
        .respawn noFailures, .session 1 (.connected "host"), .act 1, .handle noFailures,
        .handle noFailures] :=
  superseded_sessions_silent plainConfig true _ (by decide)

/-- A session has connected, and before the window takes the event up the user restarts. -/
theorem replaced_session_connects :
    ¬ ∀ (cfg : ViewerConfig) (allowClipboard : Bool) (inputs : List SessionsInput),
      (viewerSessions cfg).Along (ViewerSessions.Silent cfg) (.start cfg allowClipboard)
        inputs := by
  intro h
  have hlast := (viewerSessions plainConfig).along_iff.mp
    (h plainConfig true [.session 0 (.connected "host"), .act 0, .restart,
      .respawn noFailures, .handle noFailures])
    [.session 0 (.connected "host"), .act 0, .restart, .respawn noFailures]
    (.handle noFailures) [] rfl
  have hmember : (1 : Nat) ∈ [0] := hlast.connected rfl
  simp at hmember

end EvertyDesk.Desktop
