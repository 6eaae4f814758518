import EvertyDesk.Desktop.SessionEvents
import EvertyDesk.Lib.Maps

/-!
What the viewer does with the mouse and the keyboard. The commands to the sessions are
kept, each session with its own; those about pictures, sound and the clipboard are left
out, as are the notices that are drawn over the picture.
-/

namespace EvertyDesk.Desktop

inductive MouseButton where
  | left | right | middle | back | forward
  | other (number : UInt16)
deriving DecidableEq

inductive ElementState where
  | pressed | released
deriving DecidableEq

structure ModifiersState where
  control : Bool
  alt : Bool
  shift : Bool
  super : Bool
deriving DecidableEq

def ModifiersState.empty : ModifiersState := ⟨false, false, false, false⟩

inductive ControlKey where
  | control | alt | shift | metaKey
  | downArrow | leftArrow | rightArrow | upArrow
  | escape | tab | backspace | returnKey | space | insert | delete
  | home | endKey | pageUp | pageDown
  | f (number : Fin 12)
  | ctrlAltDel

inductive NamedKey where
  | arrowDown | arrowLeft | arrowRight | arrowUp
  | escape | tab | backspace | enter | space | insert | delete
  | home | endKey | pageUp | pageDown
  | f (number : Fin 12)
  | other
deriving DecidableEq

inductive LogicalKey where
  | named (key : NamedKey)
  | character (text : String)
  | other

structure KeyEvent where
  state : ElementState
  logicalKey : LogicalKey

inductive SessionCommand where
  | mouseMove (x y : Int)
  | mouseDown (x y : Int)
  | mouseUp (x y : Int)
  | mouseRightDown (x y : Int)
  | mouseRightUp (x y : Int)
  | mouseMiddleDown (x y : Int)
  | mouseMiddleUp (x y : Int)
  | mouseWheel (x y : Int)
  | keyControlState (key : ControlKey) (down : Bool)
  | keyControl (key : ControlKey)
  | keyText (text : String)
  | keyTextWithModifiers (text : String) (modifiers : List ControlKey)
  | setDisplay (display : RemoteDisplay)
  | close

def mouseButtonCommand : MouseButton → ElementState → Int × Int → Option SessionCommand
  | .left, .pressed, (x, y) => some (.mouseDown x y)
  | .left, .released, (x, y) => some (.mouseUp x y)
  | .right, .pressed, (x, y) => some (.mouseRightDown x y)
  | .right, .released, (x, y) => some (.mouseRightUp x y)
  | .middle, .pressed, (x, y) => some (.mouseMiddleDown x y)
  | .middle, .released, (x, y) => some (.mouseMiddleUp x y)
  | _, _, _ => none

def namedKeyToControlKey : NamedKey → Option ControlKey
  | .arrowDown => some .downArrow
  | .arrowLeft => some .leftArrow
  | .arrowRight => some .rightArrow
  | .arrowUp => some .upArrow
  | .escape => some .escape
  | .tab => some .tab
  | .backspace => some .backspace
  | .enter => some .returnKey
  | .space => some .space
  | .insert => some .insert
  | .delete => some .delete
  | .home => some .home
  | .endKey => some .endKey
  | .pageUp => some .pageUp
  | .pageDown => some .pageDown
  | .f number => some (.f number)
  | .other => none

def activeControlModifiers (modifiers : ModifiersState) : List ControlKey :=
  (if modifiers.control then [.control] else []) ++ (if modifiers.alt then [.alt] else []) ++
    (if modifiers.shift then [.shift] else []) ++ if modifiers.super then [.metaKey] else []

/-! Shortcuts. -/

inductive ViewerShortcut where
  | toggleFullscreen | previousDisplay | nextDisplay | nextScaling | nextQuality
  | toggleVideoPause | reconnect | toggleAudio | toggleInput | toggleClipboard
  | toggleToolbar | screenshot | toggleDiagnostics | refreshVideo | ctrlAltDelete

def namedViewerShortcut (modifiers : ModifiersState) (key : NamedKey) : Option ViewerShortcut :=
  if modifiers.alt && key = .enter then some .toggleFullscreen
  else if !(modifiers.control && modifiers.alt) then none
  else
    match key with
    | .arrowLeft => some .previousDisplay
    | .arrowRight => some .nextDisplay
    | .endKey => some .ctrlAltDelete
    | _ => none

def shortcutLetters : List (Char × ViewerShortcut) :=
  [('f', .toggleFullscreen), ('m', .nextScaling), ('q', .nextQuality), ('p', .toggleVideoPause),
    ('k', .reconnect), ('a', .toggleAudio), ('i', .toggleInput), ('h', .toggleToolbar),
    ('c', .toggleClipboard), ('s', .screenshot), ('d', .toggleDiagnostics), ('r', .refreshVideo)]

/-- Without regard to the case of ASCII letters. -/
def characterViewerShortcut (modifiers : ModifiersState) (text : String) : Option ViewerShortcut :=
  if !(modifiers.control && modifiers.alt) then none
  else
    match text.toList with
    | [letter] => shortcutLetters.lookup letter.toLower
    | _ => none

/-! The toolbar. -/

inductive ToolbarAction where
  | fullscreen | display | scaling | quality | pauseVideo | refresh | reconnect | audio
  | input | clipboard | screenshot | ctrlAltDelete | diagnostics | disconnect
deriving DecidableEq

inductive ToolbarChrome where
  | action (action : ToolbarAction)
  | handle
deriving DecidableEq

def toolbarActions : List ToolbarAction :=
  [.fullscreen, .display, .scaling, .quality, .pauseVideo, .refresh, .reconnect, .audio,
    .input, .clipboard, .screenshot, .ctrlAltDelete, .diagnostics, .disconnect]

def toolbarActionCount : Int := toolbarActions.length

def toolbarHeight : Int := 42

def toolbarButtonWidth : Int := 46

def toolbarHandleWidth : Int := 128

def toolbarHandleHeight : Int := 20

/-- In milliseconds. -/
def toolbarHideDelay : Nat := 3000

/-- Where the buttons start, how wide each of them is, and all of them. -/
def toolbarGeometry (frameWidth : Int) : Int × Int × Int :=
  let available := max frameWidth toolbarActionCount
  let buttonWidth :=
    if toolbarButtonWidth * toolbarActionCount ≤ available then toolbarButtonWidth
    else max (available / toolbarActionCount) 1
  let totalWidth := min (buttonWidth * toolbarActionCount) available
  (max (frameWidth - totalWidth) 0 / 2, buttonWidth, totalWidth)

def toolbarActionAtIndex (index : Int) : Option ToolbarAction :=
  if 0 ≤ index then toolbarActions[index.toNat]? else none

def toolbarHitTest (x y frameWidth : Int) : Option ToolbarAction :=
  if ¬ (0 ≤ y ∧ y < toolbarHeight) ∨ ¬ (0 ≤ x ∧ x < frameWidth) then none
  else
    let (startX, buttonWidth, totalWidth) := toolbarGeometry frameWidth
    if x < startX ∨ startX + totalWidth ≤ x then none
    else toolbarActionAtIndex ((x - startX) / buttonWidth)

def toolbarHandleHitTest (x y frameWidth : Int) (toolbarVisible : Bool) : Bool :=
  let handleX := max ((frameWidth - toolbarHandleWidth) / 2) 0
  let handleY := if toolbarVisible then toolbarHeight else 0
  (0 ≤ x ∧ x < frameWidth) ∧ (handleX ≤ x ∧ x < handleX + toolbarHandleWidth) ∧
    handleY ≤ y ∧ y < handleY + toolbarHandleHeight

def toolbarChromeHitTest (x y frameWidth : Int) (toolbarVisible : Bool) : Option ToolbarChrome :=
  if toolbarHandleHitTest x y frameWidth toolbarVisible then some .handle
  else if toolbarVisible then (toolbarHitTest x y frameWidth).map .action
  else none

/-- The code's arithmetic has no room for more than 64 bits, and does not need it. -/
def mapFramePositionToDisplay (frameX frameY : Int) (frameSize : UInt32 × UInt32)
    (display : RemoteDisplay) : Int × Int :=
  let scale (position : Int) (frame : UInt32) (size : Int32) : Int :=
    let size := max size.toInt 1
    max 0 (min (max position 0 * size / max frame.toNat 1) (size - 1))
  let place (start : Int32) (scaled : Int) : Int :=
    let placed := start.toInt + scaled
    if -2 ^ 31 ≤ placed ∧ placed < 2 ^ 31 then placed
    else if start < 0 then -2 ^ 31
    else 2 ^ 31 - 1
  (place display.x (scale frameX frameSize.1 display.width),
    place display.y (scale frameY frameSize.2 display.height))

/-! The window. -/

inductive WindowEvent where
  | closeRequested
  | focused (on : Bool)
  | resized (width height : Nat)
  /-- Where the pointer is in the picture, if it is over it. -/
  | cursorMoved (position : Option (Int × Int))
  | mouseInput (state : ElementState) (button : MouseButton)
  /-- As steps, of which there are twenty at most. -/
  | mouseWheel (x y : Int)
  | modifiersChanged (modifiers : ModifiersState)
  | keyboardInput (event : KeyEvent)
  | redrawRequested (rendered : Bool)
  | other

inductive LauncherCommand where
  | disconnect
  | toggleFullscreen
  | reconnect
  | setInputEnabled (enabled : Bool)
  | cycleDisplay (direction : Int)
  | other

inductive InputEvent where
  | window (event : WindowEvent)
  /-- A window can be made, or not. -/
  | resumed (created : Bool)
  | launcher (command : LauncherCommand)
  /-- The session asks for another one, as told by its generation. -/
  | reconnect (generation : UInt64)
  | displays (displays : List RemoteDisplay)
  /-- A picture is shown. -/
  | framePresented (size : UInt32 × UInt32)
  | uiTick

structure RemoteInput where
  /-- There is a window. -/
  window : Bool
  exited : Bool
  frameSize : UInt32 × UInt32
  displays : List RemoteDisplay
  selectedDisplay : Option Int32
  cursorPosition : Option (Int × Int)
  toolbarHover : Option ToolbarAction
  toolbarHandleHover : Bool
  toolbarVisible : Bool
  toolbarCollapsedByUser : Bool
  toolbarLastActivity : Nat
  fullscreen : Bool
  diagnosticsVisible : Bool
  modifiers : ModifiersState
  pressedMouseButtons : AList fun _ : MouseButton => Int × Int
  focused : Bool
  inputEnabled : Bool
  generation : UInt64
  /-- What has been sent to the session that can be sent to, oldest first. -/
  sent : List SessionCommand
  /-- What had been sent to the sessions before. -/
  replaced : List (List SessionCommand)

namespace RemoteInput

def start : RemoteInput where
  window := false
  exited := false
  frameSize := (960, 540)
  displays := []
  selectedDisplay := none
  cursorPosition := none
  toolbarHover := none
  toolbarHandleHover := false
  toolbarVisible := true
  toolbarCollapsedByUser := false
  toolbarLastActivity := 0
  fullscreen := false
  diagnosticsVisible := false
  modifiers := .empty
  pressedMouseButtons := ∅
  focused := false
  inputEnabled := true
  generation := 1
  sent := []
  replaced := []

variable (iter : IterOrder MouseButton) (s : RemoteInput) (o : Outcomes)

def send (command : SessionCommand) : RemoteInput := { s with sent := s.sent ++ [command] }

def sendIf (command : Option SessionCommand) : RemoteInput :=
  match command with
  | some command => s.send command
  | none => s

def exit : RemoteInput := { s with exited := true }

/-! What is held. -/

def updateModifiers (next : ModifiersState) : RemoteInput :=
  let changes : List (ControlKey × Bool × Bool) :=
    [(.control, s.modifiers.control, next.control), (.alt, s.modifiers.alt, next.alt),
      (.shift, s.modifiers.shift, next.shift), (.metaKey, s.modifiers.super, next.super)]
  { s with
    modifiers := next
    sent := s.sent ++ changes.flatMap fun (key, wasDown, nowDown) =>
      if wasDown = nowDown then [] else [.keyControlState key nowDown] }

/-- The buttons that are pressed come up in some order. -/
def releaseButtons : RemoteInput :=
  { s with
    pressedMouseButtons := ∅
    sent := s.sent ++ (iter.order s.pressedMouseButtons.keys).filterMap fun button =>
      (s.cursorPosition <|> s.pressedMouseButtons.lookup button).bind
        (mouseButtonCommand button .released) }

def releaseRemoteInputs : RemoteInput := (s.updateModifiers .empty).releaseButtons iter

/-! Sessions. -/

/-- The old session is told to close also where no new one can be made. -/
def restart : RemoteInput :=
  let s := { s.send .close with generation := s.generation + 1 }
  if o.spawnOk then { s with sent := [], replaced := s.replaced ++ [s.sent] } else s

def restartSession : RemoteInput :=
  { s.releaseRemoteInputs iter with
    displays := []
    cursorPosition := none
    pressedMouseButtons := ∅
    modifiers := .empty }.restart o

def disconnect : RemoteInput := ((s.releaseRemoteInputs iter).send .close).exit

def setInputEnabled (enabled : Bool) : RemoteInput :=
  { (if enabled then s else s.releaseRemoteInputs iter) with inputEnabled := enabled }

/-! The toolbar and the displays. -/

def clearToolbarHover : RemoteInput := { s with toolbarHover := none, toolbarHandleHover := false }

def showToolbar : RemoteInput :=
  { s with toolbarVisible := true, toolbarCollapsedByUser := false }.clearToolbarHover

def toggleToolbarCollapsed : RemoteInput :=
  if s.toolbarVisible then
    { s with
      toolbarVisible := false
      toolbarCollapsedByUser := true
      diagnosticsVisible := false }.clearToolbarHover
  else
    { s with
      toolbarVisible := true
      toolbarCollapsedByUser := false
      toolbarLastActivity := o.now }.clearToolbarHover

def toggleFullscreen : RemoteInput :=
  if !s.window then s
  else if s.fullscreen then
    { s with fullscreen := false, toolbarVisible := true, toolbarCollapsedByUser := false }
  else { s with fullscreen := true, toolbarLastActivity := o.now }.showToolbar

def cycleDisplay (direction : Int) : RemoteInput :=
  if s.displays.length < 2 then s
  else
    let current :=
      (s.selectedDisplay.bind fun selected =>
        s.displays.findIdx? fun display => display.index == selected).getD 0
    let next := (current + direction) % s.displays.length
    match s.displays[next.toNat]? with
    | some display =>
        { s with selectedDisplay := some display.index }.send (.setDisplay display)
    | none => s

def sendCtrlAltDelete : RemoteInput :=
  if !s.inputEnabled then s else s.send (.keyControl .ctrlAltDel)

def displaysChanged (displays : List RemoteDisplay) : RemoteInput :=
  let selected := Viewer.resolvedDisplayIndex displays s.selectedDisplay
  let next := { s with displays := displays, selectedDisplay := selected }
  match selected.bind fun index => displays.find? (·.index == index) with
  | none => next
  | some display =>
      if s.selectedDisplay = some display.index ∧
          displays.head?.map (·.index) ≠ some display.index then
        next.send (.setDisplay display)
      else next

def updateToolbarVisibility : RemoteInput :=
  if !s.fullscreen then
    if !s.toolbarVisible && !s.toolbarCollapsedByUser then { s with toolbarVisible := true }
    else s
  else if s.toolbarVisible && s.toolbarHover.isNone && !s.toolbarHandleHover &&
      !s.diagnosticsVisible && !s.toolbarCollapsedByUser &&
      toolbarHideDelay ≤ o.now - s.toolbarLastActivity then
    { s with toolbarVisible := false }
  else s

def runToolbarAction : ToolbarAction → RemoteInput
  | .fullscreen => s.toggleFullscreen o
  | .display => s.cycleDisplay 1
  | .reconnect => s.restartSession iter o
  | .input => s.setInputEnabled iter !s.inputEnabled
  | .ctrlAltDelete => s.sendCtrlAltDelete
  | .diagnostics => { s with diagnosticsVisible := !s.diagnosticsVisible }
  | .disconnect => s.disconnect iter
  | .scaling | .quality | .pauseVideo | .refresh | .audio | .clipboard | .screenshot => s

def activateToolbarAction (action : ToolbarAction) : RemoteInput :=
  { s.runToolbarAction iter o action with toolbarLastActivity := o.now }

/-! The keyboard. -/

def activateShortcut : ViewerShortcut → RemoteInput
  | .toggleFullscreen => s.toggleFullscreen o
  | .previousDisplay => s.cycleDisplay (-1)
  | .nextDisplay => s.cycleDisplay 1
  | .reconnect => s.restartSession iter o
  | .toggleInput => s.setInputEnabled iter !s.inputEnabled
  | .toggleToolbar => s.toggleToolbarCollapsed o
  | .toggleDiagnostics =>
      { s with
        diagnosticsVisible := !s.diagnosticsVisible
        toolbarLastActivity := o.now }.showToolbar
  | .ctrlAltDelete => s.sendCtrlAltDelete
  | .nextScaling | .nextQuality | .toggleVideoPause | .toggleAudio | .toggleClipboard
  | .screenshot | .refreshVideo => s

def shortcut? : LogicalKey → Option ViewerShortcut
  | .named key => namedViewerShortcut s.modifiers key
  | .character text =>
      if text.isEmpty then none else characterViewerShortcut s.modifiers text
  | .other => none

/-- What a key sends that is not a shortcut. -/
def keyCommand : LogicalKey → Option SessionCommand
  | .named key => (namedKeyToControlKey key).map .keyControl
  | .character text =>
      if text.isEmpty then none
      else
        match activeControlModifiers s.modifiers with
        | [] => some (.keyText text)
        | modifiers => some (.keyTextWithModifiers text modifiers)
  | .other => none

def sendKeyboardInput (event : KeyEvent) : RemoteInput :=
  if !s.focused || event.state ≠ .pressed then s
  else
    match s.shortcut? event.logicalKey with
    | some shortcut => (s.releaseRemoteInputs iter).activateShortcut iter o shortcut
    | none => if !s.inputEnabled then s else s.sendIf (s.keyCommand event.logicalKey)

/-! The mouse. -/

def remoteInputPosition (frameX frameY : Int) : Int × Int :=
  match s.selectedDisplay.bind fun selected => s.displays.find? (·.index == selected) with
  | some display => mapFramePositionToDisplay frameX frameY s.frameSize display
  | none => (frameX, frameY)

def chromeAt (x y : Int) : Option ToolbarChrome :=
  toolbarChromeHitTest x y (min s.frameSize.1.toNat (2 ^ 31 - 1)) s.toolbarVisible

/-- The element that the pointer is over becomes another one. -/
def hoverChanges (next : Option ToolbarChrome) : Bool :=
  (match next with
    | some (.action action) => s.toolbarHover ≠ some action
    | _ => s.toolbarHover ≠ none) ||
    (next == some .handle) != s.toolbarHandleHover

def hover (next : Option ToolbarChrome) : RemoteInput :=
  if s.hoverChanges next then
    let s :=
      if next.isSome && s.toolbarHover.isNone && !s.toolbarHandleHover then
        s.releaseRemoteInputs iter
      else s
    { s with
      toolbarHover :=
        match next with
        | some (.action action) => some action
        | _ => none
      toolbarHandleHover := next == some .handle }
  else s

def refreshActivity (next : Option ToolbarChrome) : RemoteInput :=
  if s.toolbarVisible && next.isSome then { s with toolbarLastActivity := o.now } else s

def moveCursor (x y : Int) : RemoteInput :=
  let position := s.remoteInputPosition x y
  let s := { s with cursorPosition := some position }
  if s.focused && s.inputEnabled then s.send (.mouseMove position.1 position.2) else s

def cursorMoved : Option (Int × Int) → RemoteInput
  | some (x, y) =>
      let next := s.chromeAt x y
      let s := (s.hover iter next).refreshActivity o next
      if next.isSome then { s with cursorPosition := none } else s.moveCursor x y
  | none =>
      { s with
        toolbarHover := none
        toolbarHandleHover := s.toolbarHover.isSome && s.toolbarHandleHover
        cursorPosition := none }

/-- A press or a release that is meant for the session. -/
def remoteMouseInput (state : ElementState) (button : MouseButton) : RemoteInput :=
  match state, s.cursorPosition with
  | .pressed, some position =>
      { s with
        pressedMouseButtons := s.pressedMouseButtons.insert button position }.sendIf
          (mouseButtonCommand button .pressed position)
  | .released, some position =>
      { s with pressedMouseButtons := s.pressedMouseButtons.erase button }.sendIf
        (mouseButtonCommand button .released position)
  | .released, none =>
      match s.pressedMouseButtons.lookup button with
      | some position =>
          { s with pressedMouseButtons := s.pressedMouseButtons.erase button }.sendIf
            (mouseButtonCommand button .released position)
      | none => s
  | .pressed, none => s

def mouseInput (state : ElementState) (button : MouseButton) : RemoteInput :=
  let click := state == .pressed && button == .left
  if s.toolbarHandleHover then if click then s.toggleToolbarCollapsed o else s
  else
    match s.toolbarHover with
    | some action => if click then s.activateToolbarAction iter o action else s
    | none => if !s.focused || !s.inputEnabled then s else s.remoteMouseInput state button

def mouseWheel (x y : Int) : RemoteInput :=
  if s.toolbarHover.isSome || s.toolbarHandleHover || !s.focused || !s.inputEnabled then s
  else if x ≠ 0 ∨ y ≠ 0 then s.send (.mouseWheel x y)
  else s

/-- The renderer refuses a surface without pixels. -/
def resizeSurface (width height : Nat) : Bool := width ≠ 0 && height ≠ 0

def windowEvent : WindowEvent → RemoteInput
  | .closeRequested => (s.releaseRemoteInputs iter).exit
  | .focused true => { s with focused := true }
  | .focused false => { s with focused := false }.clearToolbarHover.releaseRemoteInputs iter
  | .resized width height =>
      if 0 < width ∧ 0 < height then
        if resizeSurface width height then s.clearToolbarHover else s.exit
      else s
  | .cursorMoved position => s.cursorMoved iter o position
  | .mouseInput state button => s.mouseInput iter o state button
  | .mouseWheel x y => s.mouseWheel x y
  | .modifiersChanged modifiers =>
      if s.focused && s.inputEnabled then s.updateModifiers modifiers else s
  | .keyboardInput event => s.sendKeyboardInput iter o event
  | .redrawRequested rendered => if rendered then s else s.exit
  | .other => s

def launcherCommand : LauncherCommand → RemoteInput
  | .disconnect => s.disconnect iter
  | .toggleFullscreen => s.toggleFullscreen o
  | .reconnect => s.restartSession iter o
  | .setInputEnabled enabled => s.setInputEnabled iter enabled
  | .cycleDisplay direction =>
      if direction.sign ≠ 0 then s.cycleDisplay direction.sign else s
  | .other => s

def handleEvent : InputEvent → RemoteInput
  | .window event => if s.window then s.windowEvent iter o event else s
  | .resumed created =>
      if s.window then s else if created then { s with window := true } else s.exit
  | .launcher command => s.launcherCommand iter o command
  | .reconnect generation =>
      if generation = s.generation then s.restartSession iter o else s
  | .displays displays => s.displaysChanged displays
  | .framePresented size => if s.window then { s with frameSize := size } else s
  | .uiTick => s.updateToolbarVisibility o

/-- When the event loop has been left, no more events are handled. -/
def step (i : InputEvent × Outcomes) : RemoteInput × Unit :=
  (if s.exited then s else s.handleEvent iter i.2 i.1, ())

end RemoteInput

def remoteInput (iter : IterOrder MouseButton) : Machine RemoteInput (InputEvent × Outcomes) Unit :=
  ⟨RemoteInput.step iter⟩

end EvertyDesk.Desktop
