import EvertyDesk.Desktop.RemoteInput
import EvertyDesk.Lib.Signals

/-!
Buttons and modifiers are signals, and the commands to a session are a log of their
switchings. The viewer keeps the log well formed, and everything up where it should be,
except where a release comes without its press, where a press is told twice, where the
pointer goes from one element of the toolbar to another, and where the picture cannot be
drawn any more.
-/

namespace EvertyDesk.Desktop

open Signals

/-- What may be left down. -/
inductive InputKey where
  | left | right | middle | control | alt | shift | metaKey
deriving DecidableEq

def MouseButton.inputKey : MouseButton → Option InputKey
  | .left => some .left
  | .right => some .right
  | .middle => some .middle
  | _ => none

def ControlKey.inputKey : ControlKey → Option InputKey
  | .control => some .control
  | .alt => some .alt
  | .shift => some .shift
  | .metaKey => some .metaKey
  | _ => none

/-- What a command switches, and whether down. -/
def SessionCommand.edge : SessionCommand → Option (InputKey × Bool)
  | .mouseDown _ _ => some (.left, true)
  | .mouseUp _ _ => some (.left, false)
  | .mouseRightDown _ _ => some (.right, true)
  | .mouseRightUp _ _ => some (.right, false)
  | .mouseMiddleDown _ _ => some (.middle, true)
  | .mouseMiddleUp _ _ => some (.middle, false)
  | .keyControlState key down => key.inputKey.map (·, down)
  | _ => none

def edges (log : List SessionCommand) : List (InputKey × Bool) := log.filterMap SessionCommand.edge

@[simp] theorem edges_nil : edges [] = [] := rfl

@[simp] theorem edges_append (log more : List SessionCommand) :
    edges (log ++ more) = edges log ++ edges more := List.filterMap_append

theorem mouseButtonCommand_edge (button : MouseButton) (state : ElementState)
    (position : Int × Int) :
    (mouseButtonCommand button state position).bind SessionCommand.edge =
      button.inputKey.map (·, state == .pressed) := by
  cases button <;> cases state <;> rfl

theorem inputKey_inj {a b : MouseButton} {key : InputKey} (ha : key ∈ a.inputKey)
    (hb : key ∈ b.inputKey) : a = b := by
  cases a <;> cases b <;> cases ha <;> first | rfl | cases hb

namespace RemoteInput

variable (iter : IterOrder MouseButton) (s : RemoteInput)

def holds : InputKey → Bool
  | .left => .left ∈ s.pressedMouseButtons
  | .right => .right ∈ s.pressedMouseButtons
  | .middle => .middle ∈ s.pressedMouseButtons
  | .control => s.modifiers.control
  | .alt => s.modifiers.alt
  | .shift => s.modifiers.shift
  | .metaKey => s.modifiers.super

def Released : Prop := ∀ key, s.holds key = false

/-- The window is not in use. -/
def Idle : Prop := s.focused = false ∨ s.inputEnabled = false ∨ s.exited = true

/-- The pointer comes upon an element of the toolbar. -/
def Enters : InputEvent → Prop
  | .window (.cursorMoved (some (x, y))) =>
      s.exited = false ∧ s.window = true ∧ (s.chromeAt x y).isSome ∧
        s.hoverChanges (s.chromeAt x y) = true
  | _ => False

/-- No session gets an unmatched command, and everything is up where it has to be. -/
structure Matched (i : InputEvent × Outcomes) : Prop where
  alternating : ∀ log ∈ (s.step iter i).1.sent :: (s.step iter i).1.replaced, ∀ key,
    Alternating key (edges log)
  up : (s.step iter i).1.Idle ∨ s.Enters i.1 →
    ∀ log ∈ (s.step iter i).1.sent :: (s.step iter i).1.replaced, ∀ key,
      level key (edges log) = false

/-- The click is neither for the toolbar nor dropped, and the pointer is over the
picture. -/
def ForSession : Prop :=
  s.toolbarHover = none ∧ s.toolbarHandleHover = false ∧ s.focused = true ∧
    s.inputEnabled = true ∧ s.cursorPosition.isSome

/-- Buttons are pressed only when they are up and released only when they are down, as far
as the session gets to know; what is down is not taken along over the toolbar; and where
the picture cannot be drawn, all is up. -/
def Regular : InputEvent → Prop
  | .window (.mouseInput state button) =>
      s.exited = false → s.window = true → s.ForSession → ∀ key, button.inputKey = some key →
        s.holds key = (state == .released)
  | .window (.cursorMoved position) =>
      s.Enters (.window (.cursorMoved position)) →
        s.toolbarHover.isSome ∨ s.toolbarHandleHover = true → s.Released
  | .window (.redrawRequested false) => s.exited = false → s.window = true → s.Released
  | _ => True

/-! What is held is what the log says. -/

structure Logged : Prop where
  sent : Follows (edges s.sent) s.holds
  replaced : ∀ log ∈ s.replaced, Follows (edges log) fun _ => false

structure Settled : Prop extends s.Logged where
  released : s.Released

structure Tracked : Prop extends s.Logged where
  released : s.Idle → s.Released
  unopened : s.window = false → s.focused = false

/-- What is to be tracked. -/
def view : List (InputKey × Bool) × List (List SessionCommand) ×
    (AList fun _ : MouseButton => Int × Int) × ModifiersState :=
  (edges s.sent, s.replaced, s.pressedMouseButtons, s.modifiers)

/-- What it has to be tracked for. -/
def flags : Bool × Bool × Bool × Bool := (s.focused, s.inputEnabled, s.window, s.exited)

theorem start_tracked : start.Tracked where
  sent := by
    have hholds : start.holds = fun _ => false := by
      funext key
      cases key <;> rfl
    rw [hholds]
    exact follows_nil
  replaced := by simp [start]
  released _ key := by cases key <;> rfl
  unopened _ := rfl

variable {s} {t : RemoteInput}

theorem holds_congr (hview : t.view = s.view) : t.holds = s.holds := by
  obtain ⟨-, -, hpressed, hmodifiers⟩ : _ ∧ _ ∧ _ ∧ _ := by
    simpa only [view, Prod.mk.injEq] using hview
  funext key
  cases key <;> simp only [holds, hpressed, hmodifiers]

theorem Logged.congr (h : s.Logged) (hview : t.view = s.view) : t.Logged := by
  have hholds := holds_congr hview
  obtain ⟨hsent, hreplaced, -⟩ : _ ∧ _ ∧ _ := by
    simpa only [view, Prod.mk.injEq] using hview
  constructor
  · rw [hsent, hholds]
    exact h.sent
  · rw [hreplaced]
    exact h.replaced

theorem Settled.congr (h : s.Settled) (hview : t.view = s.view) : t.Settled where
  toLogged := h.toLogged.congr hview
  released key := by rw [holds_congr hview, h.released key]

theorem flags_fields (hflags : t.flags = s.flags) :
    t.focused = s.focused ∧ t.inputEnabled = s.inputEnabled ∧ t.window = s.window ∧
      t.exited = s.exited := by
  simpa only [flags, Prod.mk.injEq] using hflags

theorem Tracked.congr (h : s.Tracked) (hview : t.view = s.view) (hflags : t.flags = s.flags) :
    t.Tracked := by
  obtain ⟨hfocused, henabled, hwindow, hexited⟩ := flags_fields hflags
  refine { h.toLogged.congr hview with released := ?_, unopened := ?_ }
  · intro hidle key
    rw [Idle, hfocused, henabled, hexited] at hidle
    rw [holds_congr hview, h.released hidle key]
  · rw [hwindow, hfocused]
    exact h.unopened

theorem Settled.tracked (h : t.Settled) (hopen : t.window = false → t.focused = false) :
    t.Tracked := { h with released := fun _ => h.released, unopened := hopen }

theorem Settled.follows (h : s.Settled) : Follows (edges s.sent) fun _ => false := by
  have hholds : s.holds = fun _ => false := funext h.released
  exact hholds ▸ h.sent

theorem Tracked.alternating (h : s.Tracked) :
    ∀ log ∈ s.sent :: s.replaced, ∀ key, Alternating key (edges log) := by
  intro log hlog key
  rcases List.mem_cons.mp hlog with rfl | hold
  · exact (h.sent key).1
  · exact (h.replaced log hold key).1

theorem Settled.up (h : s.Settled) :
    ∀ log ∈ s.sent :: s.replaced, ∀ key, level key (edges log) = false := by
  intro log hlog key
  rcases List.mem_cons.mp hlog with rfl | hold
  · exact (h.follows key).2
  · exact (h.replaced log hold key).2

/-! Commands. -/

theorem send_view {command : SessionCommand} (h : command.edge = none) :
    (s.send command).view = s.view := by
  simp [view, send, edges, h]

theorem sendIf_sent (command : Option SessionCommand) :
    (s.sendIf command).sent = s.sent ++ command.toList := by
  cases command
  · exact (List.append_nil _).symm
  · rfl

/-- A change of modifiers. -/
theorem edgesOf_change (key : InputKey) (switched : ControlKey) (wasDown nowDown : Bool) :
    edgesOf key (edges (if wasDown = nowDown then [] else [.keyControlState switched nowDown])) =
      if switched.inputKey = some key then if wasDown = nowDown then [] else [nowDown]
      else [] := by
  by_cases hsame : wasDown = nowDown
  · simp [hsame]
  · cases hkey : switched.inputKey with
    | none => simp [hsame, edges, SessionCommand.edge, hkey]
    | some own => simp [hsame, edges, SessionCommand.edge, hkey]

theorem Logged.updateModifiers (h : s.Logged) (next : ModifiersState) :
    (s.updateModifiers next).Logged := by
  refine { h with sent := ?_ }
  simp only [RemoteInput.updateModifiers, List.flatMap_cons, List.flatMap_nil, List.append_nil,
    edges_append]
  apply h.sent.append
  intro key
  simp only [edgesOf_append, edgesOf_change]
  cases key <;> simp [holds, ControlKey.inputKey] <;> rfl

theorem edges_releaseButtons :
    edges (s.releaseButtons iter).sent = edges s.sent ++
      ((iter.order s.pressedMouseButtons.keys).filterMap MouseButton.inputKey).map (·, false) := by
  refine (edges_append _ _).trans (congrArg (edges s.sent ++ ·) ?_)
  rw [edges, List.filterMap_filterMap, List.map_filterMap]
  apply List.filterMap_congr
  intro button hbutton
  have hlookup : (s.pressedMouseButtons.lookup button).isSome :=
    AList.lookup_isSome.mpr ((iter.mem_order _ _).mp hbutton)
  obtain ⟨position, hposition⟩ :
      ∃ position, (s.cursorPosition <|> s.pressedMouseButtons.lookup button) = some position := by
    obtain ⟨pressedAt, hpressedAt⟩ := Option.isSome_iff_exists.mp hlookup
    cases hcursor : s.cursorPosition with
    | none => exact ⟨pressedAt, hpressedAt⟩
    | some position => exact ⟨position, rfl⟩
  rw [hposition]
  exact mouseButtonCommand_edge button .released position

theorem holds_button {button : MouseButton} {key : InputKey} (h : button.inputKey = some key) :
    s.holds key = decide (button ∈ s.pressedMouseButtons) := by
  cases button <;> cases h <;> rfl

/-- Modifiers are no buttons. -/
theorem mem_releases (hmodifiers : s.modifiers = .empty) (key : InputKey) :
    key ∈ (iter.order s.pressedMouseButtons.keys).filterMap MouseButton.inputKey ↔
      s.holds key = true := by
  rw [List.mem_filterMap]
  constructor
  · rintro ⟨button, hbutton, hkey⟩
    rw [holds_button hkey]
    simpa using AList.mem_keys.mpr ((iter.mem_order _ _).mp hbutton)
  · intro hheld
    obtain ⟨button, hkey⟩ : ∃ button : MouseButton, button.inputKey = some key := by
      cases key with
      | left => exact ⟨.left, rfl⟩
      | right => exact ⟨.right, rfl⟩
      | middle => exact ⟨.middle, rfl⟩
      | _ => simp [holds, hmodifiers, ModifiersState.empty] at hheld
    rw [holds_button hkey] at hheld
    have hbutton : button ∈ s.pressedMouseButtons := by simpa using hheld
    exact ⟨button, (iter.mem_order _ _).mpr (AList.mem_keys.mp hbutton), hkey⟩

theorem releaseButtons_released (hmodifiers : s.modifiers = .empty) :
    (s.releaseButtons iter).Released := by
  intro key
  cases key <;> simp [RemoteInput.releaseButtons, holds, hmodifiers, ModifiersState.empty]

theorem Logged.releaseButtons (h : s.Logged) (hmodifiers : s.modifiers = .empty) :
    (s.releaseButtons iter).Logged := by
  refine { h with sent := ?_ }
  have hnodup : ((iter.order s.pressedMouseButtons.keys).filterMap MouseButton.inputKey).Nodup :=
    ((iter.perm _).nodup_iff.mpr s.pressedMouseButtons.keys_nodup).filterMap
      fun _ _ _ ha hb => inputKey_inj ha hb
  rw [edges_releaseButtons]
  apply h.sent.append
  intro key
  rw [edgesOf_map hnodup, releaseButtons_released iter hmodifiers key]
  by_cases hheld : s.holds key = true
  · rw [if_pos ((mem_releases iter hmodifiers key).mpr hheld), if_neg (by simp [hheld])]
  · rw [if_neg (mt (mem_releases iter hmodifiers key).mp hheld), if_pos (by simpa using hheld)]

theorem Logged.release (h : s.Logged) : (s.releaseRemoteInputs iter).Settled :=
  { (h.updateModifiers .empty).releaseButtons iter rfl with
    released := releaseButtons_released iter rfl }

theorem Settled.trackedFrom (h : t.Settled) (hs : s.Tracked) (hwindow : t.window = s.window)
    (hfocused : t.focused = s.focused) : t.Tracked := by
  apply h.tracked
  rw [hwindow, hfocused]
  exact hs.unopened

theorem Tracked.release (h : s.Tracked) : (s.releaseRemoteInputs iter).Tracked :=
  (h.toLogged.release iter).trackedFrom h rfl rfl

/-! Sessions. -/

variable (o : Outcomes)

theorem Settled.restart (h : s.Settled) : (s.restart o).Settled := by
  have hclosed : ({ s.send .close with generation := s.generation + 1 } : RemoteInput).Settled :=
    h.congr (send_view rfl)
  unfold RemoteInput.restart
  dsimp only
  split
  · have hholds : s.holds = fun _ => false := funext h.released
    refine ⟨⟨?_, ?_⟩, h.released⟩
    · change Follows (edges []) s.holds
      rw [hholds]
      exact follows_nil
    · intro log hlog
      rcases List.mem_append.mp hlog with hold | hlast
      · exact h.replaced log hold
      · rw [List.mem_singleton.mp hlast]
        exact hclosed.follows
  · exact hclosed

theorem Logged.restartSession (h : s.Logged) : (s.restartSession iter o).Settled :=
  Settled.restart o ((h.release iter).congr (t := { s.releaseRemoteInputs iter with
    displays := []
    cursorPosition := none
    pressedMouseButtons := ∅
    modifiers := .empty }) rfl)

theorem restartSession_flags : (s.restartSession iter o).flags = s.flags := by
  unfold RemoteInput.restartSession RemoteInput.restart
  dsimp only
  split <;> rfl

theorem Tracked.restartSession (h : s.Tracked) : (s.restartSession iter o).Tracked := by
  obtain ⟨hfocused, -, hwindow, -⟩ := flags_fields (restartSession_flags iter o (s := s))
  exact (h.toLogged.restartSession iter o).trackedFrom h hwindow hfocused

theorem Tracked.exit (h : s.Tracked) (hreleased : s.Released) : s.exit.Tracked :=
  { h with released := fun _ => hreleased }

theorem Tracked.disconnect (h : s.Tracked) : (s.disconnect iter).Tracked := by
  have hreleased := h.toLogged.release iter
  have hclosed : ((s.releaseRemoteInputs iter).send .close).Settled :=
    hreleased.congr (send_view rfl)
  exact Tracked.exit (hclosed.trackedFrom h rfl rfl) hclosed.released

theorem Tracked.setInputEnabled (h : s.Tracked) (enabled : Bool) :
    (s.setInputEnabled iter enabled).Tracked := by
  cases enabled with
  | true =>
      refine { h with released := ?_ }
      rintro (hfocused | henabled | hexited)
      · exact h.released (.inl hfocused)
      · cases henabled
      · exact h.released (.inr (.inr hexited))
  | false =>
      have hsettled : (s.setInputEnabled iter false).Settled := (h.toLogged.release iter).congr rfl
      exact hsettled.trackedFrom h rfl rfl

/-! The toolbar and the displays. -/

theorem Tracked.toggleToolbarCollapsed (h : s.Tracked) : (s.toggleToolbarCollapsed o).Tracked := by
  unfold RemoteInput.toggleToolbarCollapsed
  split <;> exact h.congr rfl rfl

theorem Tracked.toggleFullscreen (h : s.Tracked) : (s.toggleFullscreen o).Tracked := by
  unfold RemoteInput.toggleFullscreen
  split
  · exact h
  · split <;> exact h.congr rfl rfl

theorem Tracked.cycleDisplay (h : s.Tracked) (direction : Int) :
    (s.cycleDisplay direction).Tracked := by
  unfold RemoteInput.cycleDisplay
  split
  · exact h
  · dsimp only
    split
    · exact h.congr (send_view rfl) rfl
    · exact h

theorem Tracked.sendCtrlAltDelete (h : s.Tracked) : s.sendCtrlAltDelete.Tracked := by
  unfold RemoteInput.sendCtrlAltDelete
  split
  · exact h
  · exact h.congr (send_view rfl) rfl

theorem Tracked.displaysChanged (h : s.Tracked) (displays : List RemoteDisplay) :
    (s.displaysChanged displays).Tracked := by
  unfold RemoteInput.displaysChanged
  dsimp only
  split
  · exact h.congr rfl rfl
  · split
    · exact h.congr (send_view rfl) rfl
    · exact h.congr rfl rfl

theorem Tracked.updateToolbarVisibility (h : s.Tracked) :
    (s.updateToolbarVisibility o).Tracked := by
  unfold RemoteInput.updateToolbarVisibility
  split <;> split
  · exact h.congr rfl rfl
  · exact h
  · exact h.congr rfl rfl
  · exact h

theorem Tracked.activateToolbarAction (h : s.Tracked) (action : ToolbarAction) :
    (s.activateToolbarAction iter o action).Tracked := by
  suffices hrun : (s.runToolbarAction iter o action).Tracked from hrun.congr rfl rfl
  cases action with
  | fullscreen => exact h.toggleFullscreen o
  | display => exact h.cycleDisplay 1
  | reconnect => exact h.restartSession iter o
  | input => exact h.setInputEnabled iter _
  | ctrlAltDelete => exact h.sendCtrlAltDelete
  | diagnostics => exact h.congr rfl rfl
  | disconnect => exact h.disconnect iter
  | _ => exact h

/-! The keyboard. -/

theorem Tracked.activateShortcut (h : s.Tracked) (shortcut : ViewerShortcut) :
    (s.activateShortcut iter o shortcut).Tracked := by
  cases shortcut with
  | toggleFullscreen => exact h.toggleFullscreen o
  | previousDisplay => exact h.cycleDisplay (-1)
  | nextDisplay => exact h.cycleDisplay 1
  | reconnect => exact h.restartSession iter o
  | toggleInput => exact h.setInputEnabled iter _
  | toggleToolbar => exact h.toggleToolbarCollapsed o
  | toggleDiagnostics => exact h.congr rfl rfl
  | ctrlAltDelete => exact h.sendCtrlAltDelete
  | _ => exact h

theorem keyCommand_edge (key : LogicalKey) {command : SessionCommand}
    (h : s.keyCommand key = some command) : command.edge = none := by
  cases key with
  | named key =>
      obtain ⟨sentKey, -, rfl⟩ := Option.map_eq_some_iff.mp h
      rfl
  | character text =>
      simp only [keyCommand] at h
      split at h
      · cases h
      · split at h <;> cases h <;> rfl
  | other => cases h

theorem Tracked.sendKeyboardInput (h : s.Tracked) (event : KeyEvent) :
    (s.sendKeyboardInput iter o event).Tracked := by
  unfold RemoteInput.sendKeyboardInput
  split
  · exact h
  · split
    · exact (h.release iter).activateShortcut iter o _
    · split
      · exact h
      · cases hcommand : s.keyCommand event.logicalKey with
        | none => exact h
        | some command => exact h.congr (send_view (keyCommand_edge _ hcommand)) rfl

/-! The mouse. -/

theorem edges_toList (command : Option SessionCommand) :
    edges command.toList = (command.bind SessionCommand.edge).toList := by
  cases command with
  | none => rfl
  | some command => cases h : command.edge <;> simp [edges, h]

theorem sendIf_holds (command : Option SessionCommand) : (s.sendIf command).holds = s.holds := by
  cases command <;> rfl

theorem sendIf_replaced (command : Option SessionCommand) :
    (s.sendIf command).replaced = s.replaced := by
  cases command <;> rfl

theorem sendIf_flags (command : Option SessionCommand) : (s.sendIf command).flags = s.flags := by
  cases command <;> rfl

theorem edges_sendButton (button : MouseButton) (state : ElementState) (position : Int × Int) :
    edges (s.sendIf (mouseButtonCommand button state position)).sent =
      edges s.sent ++ (button.inputKey.map (·, state == .pressed)).toList := by
  rw [sendIf_sent, edges_append, edges_toList, mouseButtonCommand_edge]

theorem holds_insert (button : MouseButton) (position : Int × Int) (key : InputKey) :
    { s with
      pressedMouseButtons := s.pressedMouseButtons.insert button position }.holds key =
      if button.inputKey = some key then true else s.holds key := by
  cases key <;> cases button <;> simp [holds, MouseButton.inputKey]

theorem holds_erase (button : MouseButton) (key : InputKey) :
    { s with pressedMouseButtons := s.pressedMouseButtons.erase button }.holds key =
      if button.inputKey = some key then false else s.holds key := by
  cases key <;> cases button <;> simp [holds, MouseButton.inputKey]

/-- What is switched was not so before. -/
theorem Logged.switch (h : s.Logged) (button : MouseButton) (down : Bool)
    (hsent : edges t.sent = edges s.sent ++ (button.inputKey.map (·, down)).toList)
    (hreplaced : t.replaced = s.replaced)
    (hholds : ∀ key, t.holds key = if button.inputKey = some key then down else s.holds key)
    (hregular : ∀ key, button.inputKey = some key → s.holds key = !down) : t.Logged := by
  constructor
  · rw [hsent]
    apply h.sent.append
    intro key
    rw [hholds]
    cases hkey : button.inputKey with
    | none => simp
    | some own =>
        by_cases hsame : own = key
        · subst hsame
          simp [hregular own hkey]
        · simp [hsame]
  · rw [hreplaced]
    exact h.replaced

/-- Another switching of the same kind is not well formed. -/
theorem Logged.not_switch (h : s.Logged) {button : MouseButton} {down : Bool} {key : InputKey}
    (hkey : button.inputKey = some key)
    (hsent : edges t.sent = edges s.sent ++ (button.inputKey.map (·, down)).toList)
    (halternating : Alternating key (edges t.sent)) : s.holds key = !down := by
  rw [hsent, alternating_append down (by simp [hkey]), (h.sent key).2] at halternating
  exact Bool.eq_not.mpr halternating.2

theorem Tracked.of_logged (h : s.Tracked) (hbusy : ¬ s.Idle) (hlogged : t.Logged)
    (hflags : t.flags = s.flags) : t.Tracked := by
  obtain ⟨hfocused, henabled, hwindow, hexited⟩ := flags_fields hflags
  refine { hlogged with released := ?_, unopened := ?_ }
  · intro hidle
    rw [Idle, hfocused, henabled, hexited] at hidle
    exact absurd hidle hbusy
  · rw [hwindow, hfocused]
    exact h.unopened

theorem Tracked.remoteMouseInput (h : s.Tracked) (hbusy : ¬ s.Idle) (state : ElementState)
    (button : MouseButton)
    (hregular : s.cursorPosition.isSome → ∀ key, button.inputKey = some key →
      s.holds key = (state == .released)) :
    (s.remoteMouseInput state button).Tracked := by
  have hreleased : ∀ position, (∀ key, button.inputKey = some key → s.holds key = true) →
      ({ s with pressedMouseButtons := s.pressedMouseButtons.erase button }.sendIf
        (mouseButtonCommand button .released position)).Tracked := by
    intro position hheld
    refine h.of_logged hbusy ?_ (sendIf_flags _)
    refine h.toLogged.switch button false (edges_sendButton ..) (sendIf_replaced _) ?_ hheld
    intro key
    rw [sendIf_holds, holds_erase]
  unfold RemoteInput.remoteMouseInput
  split
  next position hposition =>
    refine h.of_logged hbusy ?_ (sendIf_flags _)
    refine h.toLogged.switch button true (edges_sendButton ..) (sendIf_replaced _) ?_
      (hregular (by rw [hposition]; rfl))
    intro key
    rw [sendIf_holds, holds_insert]
  next position hposition =>
    exact hreleased position (hregular (by rw [hposition]; rfl))
  next =>
    split
    next position hlookup =>
      apply hreleased
      intro key hkey
      rw [holds_button hkey]
      exact decide_eq_true (AList.lookup_isSome.mp (by rw [hlookup]; rfl))
    next => exact h
  next => exact h

theorem Tracked.mouseInput (h : s.Tracked) (hexited : s.exited = false) (state : ElementState)
    (button : MouseButton)
    (hregular : s.ForSession → ∀ key, button.inputKey = some key →
      s.holds key = (state == .released)) :
    (s.mouseInput iter o state button).Tracked := by
  unfold RemoteInput.mouseInput
  dsimp only
  split
  · split
    · exact h.toggleToolbarCollapsed o
    · exact h
  next hhandle =>
    split
    next action haction =>
      split
      · exact h.activateToolbarAction iter o action
      · exact h
    next haction =>
      split
      · exact h
      next huse =>
        obtain ⟨hfocused, henabled⟩ : s.focused = true ∧ s.inputEnabled = true := by
          simpa using huse
        have hbusy : ¬ s.Idle := by simp [Idle, hfocused, henabled, hexited]
        exact h.remoteMouseInput hbusy state button fun hcursor =>
          hregular ⟨haction, by simpa using hhandle, hfocused, henabled, hcursor⟩

theorem Tracked.mouseWheel (h : s.Tracked) (x y : Int) : (s.mouseWheel x y).Tracked := by
  unfold RemoteInput.mouseWheel
  split
  · exact h
  · split
    · exact h.congr (send_view rfl) rfl
    · exact h

theorem Tracked.hover (h : s.Tracked) (next : Option ToolbarChrome) :
    (s.hover iter next).Tracked := by
  unfold RemoteInput.hover
  split
  · dsimp only
    split
    · exact (h.release iter).congr rfl rfl
    · exact h.congr rfl rfl
  · exact h

theorem Tracked.refreshActivity (h : s.Tracked) (next : Option ToolbarChrome) :
    (s.refreshActivity o next).Tracked := by
  unfold RemoteInput.refreshActivity
  split
  · exact h.congr rfl rfl
  · exact h

theorem Tracked.moveCursor (h : s.Tracked) (x y : Int) : (s.moveCursor x y).Tracked := by
  unfold RemoteInput.moveCursor
  dsimp only
  split
  · exact h.congr (send_view rfl) rfl
  · exact h.congr rfl rfl

theorem Tracked.cursorMoved (h : s.Tracked) (position : Option (Int × Int)) :
    (s.cursorMoved iter o position).Tracked := by
  cases position with
  | none => exact h.congr rfl rfl
  | some position =>
      have hhovered := (h.hover iter (s.chromeAt position.1 position.2)).refreshActivity o
        (s.chromeAt position.1 position.2)
      simp only [RemoteInput.cursorMoved]
      split
      · exact hhovered.congr rfl rfl
      · exact hhovered.moveCursor _ _

/-- Over the toolbar nothing more is released. -/
theorem hover_view {next : Option ToolbarChrome}
    (hhovered : s.toolbarHover.isSome ∨ s.toolbarHandleHover = true) :
    (s.hover iter next).view = s.view := by
  unfold RemoteInput.hover
  split
  · have hinside : (next.isSome && s.toolbarHover.isNone && !s.toolbarHandleHover) = false := by
      rcases hhovered with h | h
      · simp [Option.isNone_eq_false_iff.mpr h]
      · simp [h]
    rw [hinside]
    rfl
  · rfl

theorem hover_released (h : s.Logged) {next : Option ToolbarChrome} (hnext : next.isSome)
    (hchanges : s.hoverChanges next = true)
    (hreleased : s.toolbarHover.isSome ∨ s.toolbarHandleHover = true → s.Released) :
    (s.hover iter next).Released := by
  by_cases hhovered : s.toolbarHover.isSome ∨ s.toolbarHandleHover = true
  · intro key
    rw [holds_congr (hover_view iter hhovered), hreleased hhovered key]
  · obtain ⟨hnone, hhandle⟩ : s.toolbarHover.isNone ∧ s.toolbarHandleHover = false := by
      simpa using hhovered
    intro key
    simp only [RemoteInput.hover, hchanges, hnext, hnone, hhandle, if_true, Bool.not_false,
      Bool.and_self]
    exact (h.release iter).released key

theorem cursorMoved_view {x y : Int} (hnext : (s.chromeAt x y).isSome) :
    (s.cursorMoved iter o (some (x, y))).view = (s.hover iter (s.chromeAt x y)).view := by
  simp only [RemoteInput.cursorMoved, hnext, if_true, RemoteInput.refreshActivity]
  split <;> rfl

/-! Steps. -/

theorem Tracked.windowEvent (h : s.Tracked) (hexited : s.exited = false)
    (hwindow : s.window = true) {event : WindowEvent} (hregular : s.Regular (.window event)) :
    (s.windowEvent iter o event).Tracked := by
  cases event with
  | closeRequested => exact (h.release iter).exit (h.toLogged.release iter).released
  | focused on =>
      cases on with
      | true =>
          refine { h with released := ?_, unopened := ?_ }
          · rintro (hfocused | henabled | hexit)
            · cases hfocused
            · exact h.released (.inr (.inl henabled))
            · exact h.released (.inr (.inr hexit))
          · intro hclosed
            exact absurd (hwindow.symm.trans hclosed) Bool.noConfusion
      | false =>
          have hlogged : ({ s with focused := false } : RemoteInput).clearToolbarHover.Logged :=
            h.toLogged.congr rfl
          exact (hlogged.release iter).tracked fun _ => rfl
  | resized width height =>
      simp only [RemoteInput.windowEvent]
      split
      next hsize =>
        rw [if_pos (by simp [resizeSurface]; omega)]
        exact h.congr rfl rfl
      next => exact h
  | cursorMoved position => exact h.cursorMoved iter o position
  | mouseInput state button =>
      exact h.mouseInput iter o hexited state button (hregular hexited hwindow)
  | mouseWheel x y => exact h.mouseWheel x y
  | modifiersChanged modifiers =>
      simp only [RemoteInput.windowEvent]
      split
      next huse =>
        obtain ⟨hfocused, henabled⟩ := (Bool.and_eq_true _ _).mp huse
        have hbusy : ¬ s.Idle := by simp [Idle, hfocused, henabled, hexited]
        exact h.of_logged hbusy (h.toLogged.updateModifiers modifiers) rfl
      next => exact h
  | keyboardInput event => exact h.sendKeyboardInput iter o event
  | redrawRequested rendered =>
      cases rendered with
      | true => exact h
      | false => exact h.exit (hregular hexited hwindow)
  | other => exact h

theorem Tracked.handleEvent (h : s.Tracked) (hexited : s.exited = false) {event : InputEvent}
    (hregular : s.Regular event) : (s.handleEvent iter o event).Tracked := by
  cases event with
  | window event =>
      simp only [RemoteInput.handleEvent]
      split
      next hwindow => exact h.windowEvent iter o hexited hwindow hregular
      next => exact h
  | resumed created =>
      simp only [RemoteInput.handleEvent]
      split
      · exact h
      next hclosed =>
        have hunfocused := h.unopened (by simpa using hclosed)
        split
        · exact { h with unopened := fun _ => hunfocused }
        · exact h.exit (h.released (.inl hunfocused))
  | launcher command =>
      cases command with
      | disconnect => exact h.disconnect iter
      | toggleFullscreen => exact h.toggleFullscreen o
      | reconnect => exact h.restartSession iter o
      | setInputEnabled enabled => exact h.setInputEnabled iter enabled
      | cycleDisplay direction =>
          simp only [RemoteInput.handleEvent, RemoteInput.launcherCommand]
          split
          · exact h.cycleDisplay _
          · exact h
      | other => exact h
  | reconnect generation =>
      simp only [RemoteInput.handleEvent]
      split
      · exact h.restartSession iter o
      · exact h
  | displays displays => exact h.displaysChanged displays
  | framePresented size =>
      simp only [RemoteInput.handleEvent]
      split
      · exact h.congr rfl rfl
      · exact h
  | uiTick => exact h.updateToolbarVisibility o

theorem Tracked.step (h : s.Tracked) {i : InputEvent × Outcomes} (hregular : s.Regular i.1) :
    (s.step iter i).1.Tracked := by
  simp only [RemoteInput.step]
  split
  · exact h
  next hexited => exact h.handleEvent iter i.2 (by simpa using hexited) hregular

theorem step_cursorMoved {x y : Int} (henters : s.Enters (.window (.cursorMoved (some (x, y))))) :
    (s.step iter (.window (.cursorMoved (some (x, y))), o)).1 =
      s.cursorMoved iter o (some (x, y)) := by
  obtain ⟨hexited, hwindow, -⟩ := henters
  simp [RemoteInput.step, RemoteInput.handleEvent, RemoteInput.windowEvent, hexited, hwindow]

theorem step_mouseInput {state : ElementState} {button : MouseButton} (hexited : s.exited = false)
    (hwindow : s.window = true) (hsession : s.ForSession) :
    (s.step iter (.window (.mouseInput state button), o)).1 = s.remoteMouseInput state button := by
  obtain ⟨haction, hhandle, hfocused, henabled, -⟩ := hsession
  simp [RemoteInput.step, RemoteInput.handleEvent, RemoteInput.windowEvent,
    RemoteInput.mouseInput, hexited, hwindow, haction, hhandle, hfocused, henabled]

theorem edges_remoteMouseInput {state : ElementState} {button : MouseButton}
    (hcursor : s.cursorPosition.isSome) :
    edges (s.remoteMouseInput state button).sent =
      edges s.sent ++ (button.inputKey.map (·, state == .pressed)).toList := by
  obtain ⟨position, hposition⟩ := Option.isSome_iff_exists.mp hcursor
  unfold RemoteInput.remoteMouseInput
  rw [hposition]
  cases state <;> exact edges_sendButton ..

theorem Tracked.enters (h : s.Tracked) {i : InputEvent × Outcomes} (hregular : s.Regular i.1)
    (henters : s.Enters i.1) : (s.step iter i).1.Released := by
  obtain ⟨event, o⟩ := i
  match event, henters with
  | .window (.cursorMoved (some (x, y))), henters =>
      rw [step_cursorMoved iter o henters]
      have hreleased := hregular henters
      obtain ⟨-, -, hnext, hchanges⟩ := henters
      intro key
      rw [holds_congr (cursorMoved_view iter o hnext)]
      exact hover_released iter h.toLogged hnext hchanges hreleased key

theorem Tracked.regular_of_matched (h : s.Tracked) {i : InputEvent × Outcomes}
    (hmatched : s.Matched iter i) : s.Regular i.1 := by
  obtain ⟨event, o⟩ := i
  have hlevel : ∀ key, level key (edges s.sent) = s.holds key := fun key => (h.sent key).2
  cases event with
  | window event =>
      cases event with
      | mouseInput state button =>
          intro hexited hwindow hsession key hkey
          have halternating := hmatched.alternating _ List.mem_cons_self key
          rw [step_mouseInput iter o hexited hwindow hsession] at halternating
          have hheld := h.toLogged.not_switch hkey
            (edges_remoteMouseInput hsession.2.2.2.2) halternating
          rw [hheld]
          cases state <;> rfl
      | cursorMoved position =>
          intro henters hhovered key
          cases position with
          | none => exact henters.elim
          | some position =>
              have hup := hmatched.up (.inr henters) _ List.mem_cons_self key
              have hview := (cursorMoved_view iter o henters.2.2.1).trans (hover_view iter hhovered)
              rw [step_cursorMoved iter o henters,
                show edges (s.cursorMoved iter o (some position)).sent = edges s.sent from
                  congrArg Prod.fst hview, hlevel] at hup
              exact hup
      | redrawRequested rendered =>
          cases rendered with
          | true => trivial
          | false =>
              intro hexited hwindow key
              have hstep : (s.step iter (.window (.redrawRequested false), o)).1 = s.exit := by
                simp [RemoteInput.step, RemoteInput.handleEvent, RemoteInput.windowEvent,
                  hexited, hwindow]
              have hup := hmatched.up (.inl (.inr (.inr (by rw [hstep]; rfl)))) _
                List.mem_cons_self key
              rw [hstep] at hup
              exact (hlevel key).symm.trans hup
      | _ => trivial
  | _ => trivial

theorem Tracked.matched_iff (h : s.Tracked) (i : InputEvent × Outcomes) :
    s.Matched iter i ↔ s.Regular i.1 := by
  constructor
  · exact h.regular_of_matched iter
  · intro hregular
    have hnext := h.step iter hregular
    refine ⟨hnext.alternating, fun hup => ?_⟩
    have hreleased : (s.step iter i).1.Released := by
      rcases hup with hidle | henters
      · exact hnext.released hidle
      · exact h.enters iter hregular henters
    exact Settled.up ⟨hnext.toLogged, hreleased⟩

end RemoteInput

/-- In every run, all commands match and all is up where it has to be exactly if every
step is regular. -/
theorem remote_inputs_matched (iter : IterOrder MouseButton)
    (inputs : List (InputEvent × Outcomes)) :
    (remoteInput iter).Along (RemoteInput.Matched iter) .start inputs ↔
      (remoteInput iter).Along (fun s i => s.Regular i.1) .start inputs := by
  constructor
  · intro hmatched
    refine (remoteInput iter).along_of_invariant (fun s i htracked hstep => ?_)
      RemoteInput.start_tracked hmatched
    have hregular := (htracked.matched_iff iter i).mp hstep
    exact ⟨htracked.step iter hregular, hregular⟩
  · intro hregular
    refine (remoteInput iter).along_of_invariant (fun s i htracked hstep => ?_)
      RemoteInput.start_tracked hregular
    exact ⟨htracked.step iter hstep, (htracked.matched_iff iter i).mpr hstep⟩

/-- The left button is pressed over the picture, taken over the toolbar and back, and
released. -/
def dragOverToolbar : List WindowEvent :=
  [.focused true, .cursorMoved (some (500, 300)), .mouseInput .pressed .left,
    .cursorMoved (some (500, 10)), .cursorMoved (some (500, 300))]

/-- The session is told of the release twice. -/
theorem drag_over_toolbar_releases_twice :
    ¬ ∀ (iter : IterOrder MouseButton) (inputs : List (InputEvent × Outcomes)),
      (remoteInput iter).Along (RemoteInput.Matched iter) .start inputs := by
  intro h
  let o : Outcomes := ⟨0, true, true, true, true⟩
  let before := (.resumed true, o) :: dragOverToolbar.map (InputEvent.window ·, o)
  have hlast := (remoteInput (.stored _)).along_iff.mp
    (h (.stored _) (before ++ [(.window (.mouseInput .released .left), o)])) before _ [] rfl
  have halternating := hlast.alternating _ List.mem_cons_self .left
  revert halternating
  decide

end EvertyDesk.Desktop
