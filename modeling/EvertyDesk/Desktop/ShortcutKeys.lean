import EvertyDesk.Desktop.RemoteInput

/-!
Which keys the viewer takes for its shortcuts. It looks at the modifiers that the session
was told to be down, and these are not always the ones held: every release takes them away,
and while no input is sent no change of them is noticed.
-/

namespace EvertyDesk.Desktop

/-- The shortcut of a key together with these modifiers. -/
def viewerShortcut (modifiers : ModifiersState) : LogicalKey → Option ViewerShortcut
  | .named key => namedViewerShortcut modifiers key
  | .character text =>
      if text.isEmpty then none else characterViewerShortcut modifiers text
  | .other => none

theorem viewerShortcut_empty (key : LogicalKey) : viewerShortcut .empty key = none := by
  cases key with
  | named key => rfl
  | character text => exact ite_self none
  | other => rfl

/-- What the press of a key is taken for. -/
inductive KeyUse where
  | shortcut (shortcut : ViewerShortcut)
  | command (command : SessionCommand)
  | nothing

namespace RemoteInput

variable (iter : IterOrder MouseButton) (s : RemoteInput) (o : Outcomes)

theorem shortcut?_eq (key : LogicalKey) : s.shortcut? key = viewerShortcut s.modifiers key := by
  cases key <;> rfl

def keyUse (key : LogicalKey) : KeyUse :=
  match s.shortcut? key with
  | some shortcut => .shortcut shortcut
  | none =>
      if !s.inputEnabled then .nothing
      else
        match s.keyCommand key with
        | some command => .command command
        | none => .nothing

theorem sendKeyboardInput_eq {event : KeyEvent} (hfocused : s.focused = true)
    (hpressed : event.state = .pressed) : s.sendKeyboardInput iter o event =
      match s.keyUse event.logicalKey with
      | .shortcut shortcut => (s.releaseRemoteInputs iter).activateShortcut iter o shortcut
      | .command command => s.send command
      | .nothing => s := by
  have hheeded : (!s.focused || decide (event.state ≠ .pressed)) = false := by
    simp [hfocused, hpressed]
  rw [sendKeyboardInput, hheeded, keyUse]
  cases s.shortcut? event.logicalKey with
  | some shortcut => rfl
  | none =>
      cases s.inputEnabled with
      | false => rfl
      | true => cases hcommand : s.keyCommand event.logicalKey <;> simp [sendIf]

/-- The press does what the held modifiers make of it: it is taken for their shortcut if
there is one, and then nothing is sent for it, and else for no shortcut. -/
def FollowsKeys (held : ModifiersState) (key : LogicalKey) : Prop :=
  (∀ shortcut, s.keyUse key = .shortcut shortcut ↔ viewerShortcut held key = some shortcut) ∧
    ((viewerShortcut held key).isSome → ∀ command, s.keyUse key ≠ .command command)

theorem keyUse_shortcut_iff {key : LogicalKey} {shortcut : ViewerShortcut} :
    s.keyUse key = .shortcut shortcut ↔ viewerShortcut s.modifiers key = some shortcut := by
  rw [keyUse, shortcut?_eq]
  cases viewerShortcut s.modifiers key with
  | some found => simp
  | none =>
      refine iff_of_false ?_ nofun
      dsimp only
      split
      · nofun
      · split <;> nofun

theorem followsKeys_iff {held : ModifiersState} {key : LogicalKey} :
    s.FollowsKeys held key ↔ viewerShortcut s.modifiers key = viewerShortcut held key := by
  constructor
  · rintro ⟨htaken, -⟩
    apply Option.ext
    intro shortcut
    exact s.keyUse_shortcut_iff.symm.trans (htaken shortcut)
  · intro hsame
    refine ⟨fun shortcut => hsame ▸ s.keyUse_shortcut_iff, fun hsome command hsent => ?_⟩
    obtain ⟨shortcut, hshortcut⟩ := Option.isSome_iff_exists.mp (hsame ▸ hsome)
    rw [s.keyUse_shortcut_iff.mpr hshortcut] at hsent
    cases hsent

/-! What an event does to the modifiers. -/

/-- A change of the modifiers is noticed. -/
def listens : Bool := s.window && (s.focused && s.inputEnabled)

theorem listens_iff : s.listens = true ↔
    s.window = true ∧ s.focused = true ∧ s.inputEnabled = true := by
  simp [listens]

/-- The click on a button of the toolbar ends or restarts the session or stops input. -/
def toolbarReleases (state : ElementState) (button : MouseButton) : Bool :=
  !s.toolbarHandleHover && (state == .pressed && button == .left) &&
    match s.toolbarHover with
    | some .reconnect | some .disconnect => true
    | some .input => s.inputEnabled
    | _ => false

def windowReleases : WindowEvent → Bool
  | .closeRequested | .focused false => true
  | .cursorMoved (some (x, y)) =>
      s.hoverChanges (s.chromeAt x y) && ((s.chromeAt x y).isSome &&
        s.toolbarHover.isNone && !s.toolbarHandleHover)
  | .mouseInput state button => s.toolbarReleases state button
  | .keyboardInput event =>
      s.focused && event.state == .pressed && (s.shortcut? event.logicalKey).isSome
  | _ => false

def launcherReleases : LauncherCommand → Bool
  | .disconnect | .reconnect => true
  | .setInputEnabled enabled => !enabled
  | _ => false

/-- The event makes the viewer release what is down. -/
def releases : InputEvent → Bool
  | .window event => s.window && s.windowReleases event
  | .launcher command => launcherReleases command
  | .reconnect generation => generation == s.generation
  | _ => false

/-- The modifiers stay, and input is not stopped. -/
structure Keeps (s t : RemoteInput) : Prop where
  modifiers : t.modifiers = s.modifiers
  listens : s.listens = true → t.listens = true

theorem Keeps.refl : s.Keeps s := ⟨rfl, id⟩

variable {s} {t u : RemoteInput}

theorem Keeps.trans (h : s.Keeps t) (hnext : t.Keeps u) : s.Keeps u :=
  ⟨hnext.modifiers.trans h.modifiers, fun hs => hnext.listens (h.listens hs)⟩

/-! Steps that keep the modifiers. -/

variable (s) (iter : IterOrder MouseButton) (o : Outcomes)

theorem keeps_sendIf (command : Option SessionCommand) : s.Keeps (s.sendIf command) := by
  cases command <;> exact ⟨rfl, id⟩

theorem keeps_toggleFullscreen : s.Keeps (s.toggleFullscreen o) := by
  unfold toggleFullscreen
  split
  · exact .refl s
  · split <;> exact ⟨rfl, id⟩

theorem keeps_toggleToolbarCollapsed : s.Keeps (s.toggleToolbarCollapsed o) := by
  unfold toggleToolbarCollapsed
  split <;> exact ⟨rfl, id⟩

theorem keeps_cycleDisplay (direction : Int) : s.Keeps (s.cycleDisplay direction) := by
  unfold cycleDisplay
  split
  · exact .refl s
  · dsimp only
    split <;> exact ⟨rfl, id⟩

theorem keeps_sendCtrlAltDelete : s.Keeps s.sendCtrlAltDelete := by
  unfold sendCtrlAltDelete
  split <;> exact ⟨rfl, id⟩

theorem keeps_displaysChanged (displays : List RemoteDisplay) :
    s.Keeps (s.displaysChanged displays) := by
  unfold displaysChanged
  dsimp only
  split
  · exact ⟨rfl, id⟩
  · split <;> exact ⟨rfl, id⟩

theorem keeps_updateToolbarVisibility : s.Keeps (s.updateToolbarVisibility o) := by
  unfold updateToolbarVisibility
  split <;> split <;> exact ⟨rfl, id⟩

theorem keeps_moveCursor (x y : Int) : s.Keeps (s.moveCursor x y) := by
  unfold moveCursor
  dsimp only
  split <;> exact ⟨rfl, id⟩

theorem keeps_refreshActivity (next : Option ToolbarChrome) :
    s.Keeps (s.refreshActivity o next) := by
  unfold refreshActivity
  split <;> exact ⟨rfl, id⟩

theorem keeps_remoteMouseInput (state : ElementState) (button : MouseButton) :
    s.Keeps (s.remoteMouseInput state button) := by
  have hsent : ∀ pressed command,
      s.Keeps ({ s with pressedMouseButtons := pressed }.sendIf command) := by
    intro pressed command
    refine Keeps.trans ?_ (keeps_sendIf _ command)
    exact ⟨rfl, id⟩
  unfold remoteMouseInput
  split
  · exact hsent _ _
  · exact hsent _ _
  · split
    · exact hsent _ _
    · exact .refl s
  · exact .refl s

theorem keeps_mouseWheel (x y : Int) : s.Keeps (s.mouseWheel x y) := by
  unfold mouseWheel
  split
  · exact .refl s
  · split <;> exact ⟨rfl, id⟩

/-! Steps that release. -/

theorem restartSession_modifiers : (s.restartSession iter o).modifiers = .empty := by
  unfold restartSession restart
  dsimp only
  split <;> rfl

theorem setInputEnabled_modifiers (enabled : Bool) :
    (s.setInputEnabled iter enabled).modifiers = if enabled then s.modifiers else .empty := by
  cases enabled <;> rfl

theorem keeps_setInputEnabled : s.Keeps (s.setInputEnabled iter true) := by
  refine ⟨rfl, fun hlistens => ?_⟩
  obtain ⟨hwindow, hfocused, -⟩ := s.listens_iff.mp hlistens
  exact (listens_iff _).mpr ⟨hwindow, hfocused, rfl⟩

/-- Either nothing is down any more, or the modifiers stay. -/
def Comes (releases : Bool) (s t : RemoteInput) : Prop :=
  if releases then t.modifiers = .empty else s.Keeps t

variable {s} in
theorem Comes.trans {releases : Bool} (h : Comes releases s t) (hnext : t.Keeps u) :
    Comes releases s u := by
  cases releases with
  | false => exact Keeps.trans h hnext
  | true => exact hnext.modifiers.trans h

theorem activateToolbarAction_comes (action : ToolbarAction) :
    Comes (match action with
      | .reconnect | .disconnect => true
      | .input => s.inputEnabled
      | _ => false) s (s.activateToolbarAction iter o action) := by
  cases action with
  | fullscreen => exact (keeps_toggleFullscreen s o).trans ⟨rfl, id⟩
  | display => exact (keeps_cycleDisplay s 1).trans ⟨rfl, id⟩
  | reconnect => exact restartSession_modifiers s iter o
  | input =>
      cases henabled : s.inputEnabled with
      | false =>
          have hnext : s.Keeps (s.setInputEnabled iter !s.inputEnabled) := by
            rw [henabled]
            exact keeps_setInputEnabled s iter
          exact hnext.trans ⟨rfl, id⟩
      | true =>
          change (s.setInputEnabled iter !s.inputEnabled).modifiers = .empty
          rw [setInputEnabled_modifiers, henabled]
          rfl
  | ctrlAltDelete => exact (keeps_sendCtrlAltDelete s).trans ⟨rfl, id⟩
  | disconnect => rfl
  | _ => exact ⟨rfl, id⟩

theorem activateShortcut_modifiers (h : s.modifiers = .empty) (shortcut : ViewerShortcut) :
    (s.activateShortcut iter o shortcut).modifiers = .empty := by
  cases shortcut with
  | toggleFullscreen => exact (keeps_toggleFullscreen s o).modifiers.trans h
  | previousDisplay => exact (keeps_cycleDisplay s (-1)).modifiers.trans h
  | nextDisplay => exact (keeps_cycleDisplay s 1).modifiers.trans h
  | reconnect => exact restartSession_modifiers s iter o
  | toggleInput =>
      refine (setInputEnabled_modifiers s iter _).trans ?_
      split
      · exact h
      · rfl
  | toggleToolbar => exact (keeps_toggleToolbarCollapsed s o).modifiers.trans h
  | ctrlAltDelete => exact (keeps_sendCtrlAltDelete s).modifiers.trans h
  | _ => exact h

theorem sendKeyboardInput_comes (event : KeyEvent) :
    Comes (s.focused && event.state == .pressed && (s.shortcut? event.logicalKey).isSome) s
      (s.sendKeyboardInput iter o event) := by
  unfold sendKeyboardInput
  cases hfocused : s.focused with
  | false => exact .refl s
  | true =>
      cases event.state with
      | released => exact .refl s
      | pressed =>
          cases s.shortcut? event.logicalKey with
          | some shortcut => exact activateShortcut_modifiers _ iter o rfl shortcut
          | none =>
              dsimp [Comes]
              split
              · exact .refl s
              · exact keeps_sendIf s _

theorem hover_comes (next : Option ToolbarChrome) :
    Comes (s.hoverChanges next && (next.isSome && s.toolbarHover.isNone &&
      !s.toolbarHandleHover)) s (s.hover iter next) := by
  unfold hover
  cases s.hoverChanges next with
  | false => exact .refl s
  | true =>
      cases hentered : next.isSome && s.toolbarHover.isNone && !s.toolbarHandleHover with
      | false => exact ⟨rfl, id⟩
      | true => rfl

theorem cursorMoved_comes (x y : Int) :
    Comes (s.hoverChanges (s.chromeAt x y) && ((s.chromeAt x y).isSome &&
        s.toolbarHover.isNone && !s.toolbarHandleHover)) s
      (s.cursorMoved iter o (some (x, y))) := by
  refine (hover_comes s iter (s.chromeAt x y)).trans ?_
  refine (keeps_refreshActivity _ o (s.chromeAt x y)).trans ?_
  unfold cursorMoved
  dsimp only
  split
  · exact ⟨rfl, id⟩
  · exact keeps_moveCursor _ x y

theorem mouseInput_comes (state : ElementState) (button : MouseButton) :
    Comes (s.toolbarReleases state button) s (s.mouseInput iter o state button) := by
  unfold mouseInput toolbarReleases
  dsimp only
  cases s.toolbarHandleHover with
  | true =>
      dsimp [Comes]
      split
      · exact keeps_toggleToolbarCollapsed s o
      · exact .refl s
  | false =>
      cases s.toolbarHover with
      | some action =>
          cases state == .pressed && button == .left with
          | true =>
              have haction := activateToolbarAction_comes s iter o action
              cases action <;> exact haction
          | false => exact .refl s
      | none =>
          rw [Bool.and_false]
          dsimp [Comes]
          split
          · exact .refl s
          · exact keeps_remoteMouseInput s state button

theorem windowEvent_comes {event : WindowEvent}
    (hreport : ∀ modifiers, event ≠ .modifiersChanged modifiers) :
    Comes (s.windowReleases event) s (s.windowEvent iter o event) := by
  cases event with
  | closeRequested => rfl
  | focused on =>
      cases on with
      | true =>
          refine ⟨rfl, fun hlistens => ?_⟩
          obtain ⟨hwindow, -, henabled⟩ := s.listens_iff.mp hlistens
          exact (listens_iff _).mpr ⟨hwindow, rfl, henabled⟩
      | false => rfl
  | resized width height =>
      dsimp [Comes, windowReleases, windowEvent]
      split
      · split <;> exact ⟨rfl, id⟩
      · exact .refl s
  | cursorMoved position =>
      cases position with
      | some position => exact cursorMoved_comes s iter o position.1 position.2
      | none => exact ⟨rfl, id⟩
  | mouseInput state button => exact mouseInput_comes s iter o state button
  | mouseWheel x y => exact keeps_mouseWheel s x y
  | modifiersChanged modifiers => exact absurd rfl (hreport modifiers)
  | keyboardInput event => exact sendKeyboardInput_comes s iter o event
  | redrawRequested rendered => cases rendered <;> exact ⟨rfl, id⟩
  | other => exact .refl s

theorem launcherCommand_comes (command : LauncherCommand) :
    Comes (launcherReleases command) s (s.launcherCommand iter o command) := by
  cases command with
  | disconnect => rfl
  | toggleFullscreen => exact keeps_toggleFullscreen s o
  | reconnect => exact restartSession_modifiers s iter o
  | setInputEnabled enabled =>
      cases enabled with
      | true => exact keeps_setInputEnabled s iter
      | false => rfl
  | cycleDisplay direction =>
      dsimp [Comes, launcherReleases, launcherCommand]
      split
      · exact keeps_cycleDisplay s direction.sign
      · exact .refl s
  | other => exact .refl s

/-- What an event comes to, if it is no report of the modifiers. -/
theorem handleEvent_comes {event : InputEvent}
    (hreport : ∀ modifiers, event ≠ .window (.modifiersChanged modifiers)) :
    Comes (s.releases event) s (s.handleEvent iter o event) := by
  cases event with
  | window event =>
      have hevent := windowEvent_comes s iter o fun modifiers heq =>
        hreport modifiers (congrArg InputEvent.window heq)
      unfold handleEvent releases
      cases s.window with
      | false => exact .refl s
      | true => exact hevent
  | resumed created =>
      dsimp [Comes, releases, handleEvent]
      split
      · exact .refl s
      · rename_i hclosed
        split
        · exact ⟨rfl, fun hlistens => absurd (s.listens_iff.mp hlistens).1 hclosed⟩
        · exact ⟨rfl, id⟩
  | launcher command => exact launcherCommand_comes s iter o command
  | reconnect generation =>
      change Comes (generation == s.generation) s
        (if generation = s.generation then s.restartSession iter o else s)
      by_cases hcurrent : generation = s.generation
      · rw [if_pos hcurrent, beq_iff_eq.mpr hcurrent]
        exact restartSession_modifiers s iter o
      · rw [if_neg hcurrent, beq_eq_false_iff_ne.mpr hcurrent]
        exact .refl s
  | displays displays => exact keeps_displaysChanged s displays
  | framePresented size =>
      dsimp [Comes, releases, handleEvent]
      split <;> exact ⟨rfl, id⟩
  | uiTick => exact keeps_updateToolbarVisibility s o

end RemoteInput

/-! The keyboard. -/

/-- The viewer, and the keyboard before it: every change of the modifiers that are held is
told, whether the viewer heeds it or not. -/
structure ShortcutKeys where
  viewer : RemoteInput
  held : ModifiersState
  /-- The viewer has heeded the last report and has released nothing since. -/
  known : Bool

namespace ShortcutKeys

variable (iter : IterOrder MouseButton) (k : ShortcutKeys)

def start (held : ModifiersState) : ShortcutKeys where
  viewer := .start
  held := held
  known := false

def step (i : InputEvent × Outcomes) : ShortcutKeys × Unit :=
  (if k.viewer.exited then k
    else { viewer := (k.viewer.step iter i).1
           held :=
             match i.1 with
             | .window (.modifiersChanged modifiers) => modifiers
             | _ => k.held
           known :=
             match i.1 with
             | .window (.modifiersChanged _) => k.viewer.listens
             | event => k.known && !k.viewer.releases event }, ())

/-- The key of the event is pressed in the focused window. -/
def Pressed (key : LogicalKey) (i : InputEvent × Outcomes) : Prop :=
  k.viewer.exited = false ∧ k.viewer.window = true ∧ k.viewer.focused = true ∧
    i.1 = .window (.keyboardInput ⟨.pressed, key⟩)

/-- Every press does what the held modifiers make of it. -/
def FollowsHeld (i : InputEvent × Outcomes) : Prop :=
  ∀ key, k.Pressed key i → k.viewer.FollowsKeys k.held key

/-- No key is pressed for a shortcut while the viewer does not know the modifiers. -/
def KnownAtShortcuts (i : InputEvent × Outcomes) : Prop :=
  ∀ key, k.Pressed key i → (viewerShortcut k.held key).isSome → k.known = true

/-- The viewer has the modifiers that are held, or none. -/
structure Settled : Prop where
  known : k.known = true → k.viewer.modifiers = k.held
  unknown : k.known = false → k.viewer.modifiers = .empty
  quiet : k.viewer.listens = false → k.viewer.modifiers = .empty

end ShortcutKeys

def shortcutKeys (iter : IterOrder MouseButton) :
    Machine ShortcutKeys (InputEvent × Outcomes) Unit :=
  ⟨ShortcutKeys.step iter⟩

namespace ShortcutKeys

variable {iter : IterOrder MouseButton} {k : ShortcutKeys}

theorem start_settled (held : ModifiersState) : (start held).Settled where
  known := nofun
  unknown _ := rfl
  quiet _ := rfl

variable {o : Outcomes}

theorem step_exited (h : k.viewer.exited = true) (i : InputEvent × Outcomes) :
    (k.step iter i).1 = k := by
  rw [step, if_pos h]

/-- A report of the modifiers is heeded where the viewer listens. -/
theorem step_report (h : k.viewer.exited = false) (modifiers : ModifiersState) :
    (k.step iter (.window (.modifiersChanged modifiers), o)).1 =
      { viewer :=
          if k.viewer.listens then k.viewer.updateModifiers modifiers else k.viewer
        held := modifiers
        known := k.viewer.listens } := by
  have hopen : ¬ k.viewer.exited = true := by simp [h]
  have hviewer : k.viewer.handleEvent iter o (.window (.modifiersChanged modifiers)) =
      if k.viewer.listens then k.viewer.updateModifiers modifiers else k.viewer := by
    unfold RemoteInput.handleEvent RemoteInput.listens
    cases k.viewer.window <;> rfl
  rw [step, if_neg hopen, RemoteInput.step, if_neg hopen]
  dsimp only
  rw [hviewer]

theorem step_other (h : k.viewer.exited = false) {event : InputEvent}
    (hreport : ∀ modifiers, event ≠ .window (.modifiersChanged modifiers)) :
    (k.step iter (event, o)).1 =
      { viewer := k.viewer.handleEvent iter o event
        held := k.held
        known := k.known && !k.viewer.releases event } := by
  have hopen : ¬ k.viewer.exited = true := by simp [h]
  rw [step, if_neg hopen, RemoteInput.step, if_neg hopen]
  dsimp only
  congr 1
  · split
    · exact absurd rfl (hreport _)
    · rfl
  · split
    · exact absurd rfl (hreport _)
    · rfl

theorem Settled.report (h : k.Settled) (hexited : k.viewer.exited = false)
    (modifiers : ModifiersState) :
    (k.step iter (.window (.modifiersChanged modifiers), o)).1.Settled := by
  rw [step_report hexited]
  cases hlistens : k.viewer.listens with
  | true =>
      have hstill : (k.viewer.updateModifiers modifiers).listens = true := hlistens
      exact {
        known := fun _ => rfl
        unknown := nofun
        quiet := fun hquiet => absurd (hstill.symm.trans hquiet) (by decide) }
  | false =>
      exact {
        known := nofun
        unknown := fun _ => h.quiet hlistens
        quiet := h.quiet }

theorem Settled.other (h : k.Settled) (hexited : k.viewer.exited = false) {event : InputEvent}
    (hreport : ∀ modifiers, event ≠ .window (.modifiersChanged modifiers)) :
    (k.step iter (event, o)).1.Settled := by
  have hcomes := k.viewer.handleEvent_comes iter o hreport
  rw [step_other hexited hreport]
  cases hreleases : k.viewer.releases event with
  | true =>
      have hnone : (k.viewer.handleEvent iter o event).modifiers = .empty := by
        rwa [hreleases] at hcomes
      exact {
        known := fun hknown => by simp at hknown
        unknown := fun _ => hnone
        quiet := fun _ => hnone }
  | false =>
      have hkeeps : k.viewer.Keeps (k.viewer.handleEvent iter o event) := by
        rwa [hreleases] at hcomes
      rw [Bool.not_false, Bool.and_true]
      exact {
        known := fun hknown => hkeeps.modifiers.trans (h.known hknown)
        unknown := fun hunknown => hkeeps.modifiers.trans (h.unknown hunknown)
        quiet := fun hquiet => hkeeps.modifiers.trans (h.quiet (by
          by_contra hlistens
          rw [hkeeps.listens (Bool.not_eq_false _ ▸ hlistens)] at hquiet
          cases hquiet)) }

theorem Settled.step (h : k.Settled) (i : InputEvent × Outcomes) : (k.step iter i).1.Settled := by
  obtain ⟨event, o⟩ := i
  cases hexited : k.viewer.exited with
  | true =>
      rw [step_exited hexited]
      exact h
  | false =>
      by_cases hreport : ∃ modifiers, event = .window (.modifiersChanged modifiers)
      · obtain ⟨modifiers, rfl⟩ := hreport
        exact h.report hexited modifiers
      · exact h.other hexited fun modifiers heq => hreport ⟨modifiers, heq⟩

/-- In such a state the press does what the held modifiers make of it exactly when it is
for no shortcut of theirs, or the viewer knows them. -/
theorem Settled.followsKeys_iff (h : k.Settled) {key : LogicalKey} :
    k.viewer.FollowsKeys k.held key ↔ ((viewerShortcut k.held key).isSome → k.known = true) := by
  rw [RemoteInput.followsKeys_iff]
  cases hknown : k.known with
  | true => exact iff_of_true (by rw [h.known hknown]) fun _ => rfl
  | false =>
      rw [h.unknown hknown, viewerShortcut_empty]
      cases viewerShortcut k.held key <;> simp

theorem Settled.followsHeld_iff (h : k.Settled) (i : InputEvent × Outcomes) :
    k.FollowsHeld i ↔ k.KnownAtShortcuts i :=
  forall_congr' fun _ => imp_congr_right fun _ => h.followsKeys_iff

end ShortcutKeys

/-- In every run the shortcuts follow the held modifiers exactly when no key of a shortcut
is pressed after a release, and none after a report that came while the window was out of
focus or input was stopped. -/
theorem shortcuts_follow_held_iff (iter : IterOrder MouseButton) (held : ModifiersState)
    (is : List (InputEvent × Outcomes)) :
    (shortcutKeys iter).Along ShortcutKeys.FollowsHeld (.start held) is ↔
      (shortcutKeys iter).Along ShortcutKeys.KnownAtShortcuts (.start held) is :=
  Machine.along_congr (shortcutKeys iter)
    (fun _ i h => ⟨ShortcutKeys.Settled.followsHeld_iff h i, fun _ => h.step i⟩)
    (ShortcutKeys.start_settled held)

/-- The modifiers of a shortcut go down in the focused window, and its key is pressed. -/
def shortcutOnce : List WindowEvent :=
  [.focused true, .modifiersChanged .empty, .modifiersChanged ⟨true, true, false, false⟩,
    .keyboardInput ⟨.pressed, .named .arrowRight⟩]

/-- The key is pressed once more, with the modifiers still down, and is sent. -/
theorem repeated_shortcut_sent :
    ¬ ∀ (iter : IterOrder MouseButton) (held : ModifiersState) (is : List (InputEvent × Outcomes)),
      (shortcutKeys iter).Along ShortcutKeys.FollowsHeld (.start held) is := by
  intro h
  let o : Outcomes := ⟨0, true, true, true, true⟩
  let before := (.resumed true, o) :: shortcutOnce.map (InputEvent.window ·, o)
  let k := (shortcutKeys (.stored _)).run (.start .empty) before
  have hlast : k.FollowsHeld (.window (.keyboardInput ⟨.pressed, .named .arrowRight⟩), o) :=
    (shortcutKeys (.stored _)).along_iff.mp
      (h (.stored _) .empty
        (before ++ [(.window (.keyboardInput ⟨.pressed, .named .arrowRight⟩), o)])) before _ [] rfl
  obtain ⟨hmodifiers, hheld⟩ :
      k.viewer.modifiers = .empty ∧ k.held = ⟨true, true, false, false⟩ := by decide
  obtain ⟨hexited, hwindow, hfocused⟩ :
      k.viewer.exited = false ∧ k.viewer.window = true ∧ k.viewer.focused = true := by decide
  have hfollows := hlast (.named .arrowRight) ⟨hexited, hwindow, hfocused, rfl⟩
  rw [RemoteInput.followsKeys_iff, hmodifiers, hheld] at hfollows
  cases hfollows

end EvertyDesk.Desktop
