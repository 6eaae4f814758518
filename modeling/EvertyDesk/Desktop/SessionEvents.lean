import EvertyDesk.Launcher.LauncherStore
import EvertyDesk.Lib.Machine
import Mathlib.Algebra.Group.Int.Defs
import Mathlib.Algebra.Group.Nat.Defs
import Mathlib.Data.List.Basic
import Mathlib.Data.List.Infix

/-!
What the sessions of a viewer tell its window. Every session has an event thread that
turns the session's events into events of the window and puts pictures into a mailbox
that all sessions share. A restart replaces the session; the thread of the old one goes on
until its channel is empty. Of the window's events only three say from which session
they are.
-/

namespace EvertyDesk.Desktop

structure RemoteDisplay where
  index : Int32
  name : String
  width : Int32
  height : Int32
  x : Int32
  y : Int32
  cursorEmbedded : Bool
deriving DecidableEq

/-- What a session reports. The frame rate is already a number without a fraction, which
the code makes of it when it passes it on. -/
inductive SessionEvent where
  | frame (codec : String) (width height : Nat) (rgba : List UInt8)
  | progress (percent : UInt8) (message : String)
  | info (message : String)
  | connected (peer : String)
  | latency (milliseconds : UInt32)
  | evrtStatus (active : Bool) (hostAddr : String) (port : UInt16)
  | evrtMetrics (pressure : String) (jitterMs fps : UInt32) (reassemblyDrops queueDrops : UInt64)
  | frameMetrics (dropped : Nat)
  | videoPacketMetrics (fpsTimes100 : UInt32) (inputKbps : UInt64)
  | displays (displays : List RemoteDisplay)
  | cursorData (id : UInt64) (hotx hoty : Int32) (width height : UInt32) (rgba : List UInt8)
  | cursorId (id : UInt64)
  | clipboardText (text : String)
  | failed (error : String)
  | closed
  /-- Sound, and what the viewer has no use for. -/
  | other

inductive ViewerEvent where
  | frameReady
  | status (status : String)
  | latency (milliseconds : UInt32)
  | codec (codec : String)
  | evrtStatus (active : Bool) (endpoint : String)
  | evrtMetrics (pressure : String) (jitterMs fps : UInt32) (reassemblyDrops queueDrops : UInt64)
  | displays (displays : List RemoteDisplay)
  | cursorData (id : UInt64) (hotx hoty : Int32) (width height : UInt32) (rgba : List UInt8)
  | cursorId (id : UInt64)
  | clipboardText (text : String)
  | connected (peer : String)
  | failed (generation : UInt64) (error : String)
  | closed (generation : UInt64)
  | reconnect (generation : UInt64)
  | performance (fpsTimes100 : UInt32) (inputKbps droppedFrames : UInt64)
  | rejectedPayload (reason : String) (refreshVideo : Bool)
  /-- The launcher asks for a new session. -/
  | launcherReconnect
  /-- No picture has come for a while, and whether one should have. -/
  | watchdogStalled (watching : Bool)

structure RemoteFrame where
  width : UInt32
  height : UInt32
  rgba : List UInt8
  /-- The session whose picture it is. The code does not keep it. -/
  session : Nat

/-! Limits. -/

def maxFrameDimension : UInt32 := 16384

def maxFrameBytes : Nat := 256 * 1024 * 1024

def maxCursorDimension : UInt32 := 512

def maxCursorBytes : Nat := 1024 * 1024

def maxCachedCursors : Nat := 256

def maxClipboardBytes : Nat := 1024 * 1024

def formatByteLimit (bytes : Nat) : String :=
  if 1024 * 1024 ≤ bytes ∧ bytes % (1024 * 1024) = 0 then
    s!"{bytes / (1024 * 1024)} МиБ"
  else if 1024 ≤ bytes ∧ bytes % 1024 = 0 then s!"{bytes / 1024} КиБ"
  else s!"{bytes} байт"

/-- The reason to reject the payload, if there is one. The code's check for overflow is
left out, as the dimensions are checked before. -/
def validateRgbaPayload (width height : UInt32) (actualBytes : Nat) (maxDimension : UInt32)
    (maxBytes : Nat) : Option String :=
  let expectedBytes := width.toNat * height.toNat * 4
  if width = 0 ∨ height = 0 then some "нулевой размер"
  else if maxDimension < width ∨ maxDimension < height then
    some s!"размер {width}×{height} превышает предел {maxDimension}×{maxDimension}"
  else if maxBytes < expectedBytes then
    some s!"RGBA занимает {formatByteLimit expectedBytes}, предел {formatByteLimit maxBytes}"
  else if actualBytes ≠ expectedBytes then
    some s!"ожидалось {expectedBytes} байт RGBA, получено {actualBytes}"
  else none

/-! The event thread of a session. -/

structure ViewerConfig where
  remoteId : String
  transportProfileLabel : String
  strictEvrtRequired : Bool
  requestEvrt2Experiment : Bool
  /-- By the tables of the Unicode standard. -/
  toLowercase : String → String
  /-- The filter over pictures, from dimensions to dimensions, if there is one. -/
  fsr : Option (List UInt8 → UInt32 → UInt32 → UInt32 → UInt32 → List UInt8)

inductive ThreadAction where
  | send (event : ViewerEvent)
  /-- Put a picture into the mailbox. -/
  | put (width height : UInt32) (rgba : List UInt8)
  /-- Tell the window that there is one, unless it has been told. -/
  | wake

structure EventThread where
  running : Bool
  /-- What is still to be done about the event taken last. -/
  todo : List ThreadAction
  lastCodec : String
  droppedFrames : UInt64

namespace EventThread

def start : EventThread where
  running := true
  todo := []
  lastCodec := ""
  droppedFrames := 0

variable (cfg : ViewerConfig) (generation : UInt64) (t : EventThread)

def tell (events : List ViewerEvent) : EventThread := { t with todo := events.map .send }

def finish (events : List ViewerEvent) : EventThread :=
  { t with running := false, todo := events.map .send }

def forwardFrame (codec : String) (width height : Nat) (rgba : List UInt8) : EventThread :=
  let codecs := if t.lastCodec = codec then [] else [ViewerEvent.codec codec]
  let t := { t with lastCodec := codec }
  if 2 ^ 32 ≤ width ∨ 2 ^ 32 ≤ height ∨ width = 0 ∨ height = 0 then t.tell codecs
  else
    let width := UInt32.ofNat width
    let height := UInt32.ofNat height
    match validateRgbaPayload width height rgba.length maxFrameDimension maxFrameBytes with
    | some reason =>
        t.tell (codecs ++ [.rejectedPayload s!"Отклонён удалённый кадр: {reason}" true])
    | none => { t with todo := codecs.map .send ++ [.put width height rgba, .wake] }

/-- What a thread has to do about an event. -/
def forward : SessionEvent → EventThread
  | .frame codec width height rgba => t.forwardFrame codec width height rgba
  | .progress percent message => t.tell [.status s!"{percent}% — {message}"]
  | .info message => t.tell [.status message]
  | .connected peer =>
      let experiment :=
        if cfg.requestEvrt2Experiment then
          [.status "Game EVRT2: запрошен экспериментальный поток"]
        else []
      t.tell (.connected peer :: experiment)
  | .latency milliseconds =>
      t.tell [.latency milliseconds, .status s!"Подключено — {milliseconds} мс"]
  | .evrtStatus active hostAddr port =>
      let endpoint := s!"{hostAddr}:{port}"
      if !active && cfg.strictEvrtRequired then
        let label := cfg.transportProfileLabel
        let error := label ++ ": EVRT UDP не активен; TCP relay отключён для этого профиля"
        t.finish [.evrtStatus active endpoint, .failed generation error]
      else
        let status :=
          if active then s!"EVRT UDP активен — {endpoint}"
          else "EVRT UDP не активен — используется TCP relay"
        t.tell [.evrtStatus active endpoint, .status status]
  | .evrtMetrics pressure jitterMs fps reassemblyDrops queueDrops =>
      t.tell [.evrtMetrics pressure jitterMs fps reassemblyDrops queueDrops]
  | .frameMetrics dropped =>
      let total := min (t.droppedFrames.toNat + dropped) (2 ^ 64 - 1)
      { t with droppedFrames := UInt64.ofNat total }.tell []
  | .videoPacketMetrics fpsTimes100 inputKbps =>
      t.tell [.performance fpsTimes100 inputKbps t.droppedFrames]
  | .displays displays => t.tell [.displays displays]
  | .cursorData id hotx hoty width height rgba =>
      match validateRgbaPayload width height rgba.length maxCursorDimension maxCursorBytes with
      | some reason => t.tell [.rejectedPayload s!"Отклонён удалённый курсор: {reason}" false]
      | none => t.tell [.cursorData id hotx hoty width height rgba]
  | .cursorId id => t.tell [.cursorId id]
  | .clipboardText text =>
      if maxClipboardBytes < text.utf8ByteSize then
        let limit := formatByteLimit maxClipboardBytes
        t.tell [.rejectedPayload s!"Удалённый буфер обмена превышает лимит {limit}" false]
      else t.tell [.clipboardText text]
  | .failed error => t.finish [.failed generation error]
  | .closed => t.finish [.closed generation]
  | .other => t.tell []

end EventThread

/-! The window. -/

/-- What the window reads from elsewhere while it handles an event. -/
structure Outcomes where
  now : Nat
  resizeOk : Bool
  cursorOk : Bool
  clipboardOk : Bool
  spawnOk : Bool

structure ViewerDiagnostics where
  codec : String
  fpsTimes100 : UInt32
  inputKbps : UInt64
  droppedFrames : UInt64
  latencyMs : Option UInt32
  evrtActive : Bool
  evrtEndpoint : String
  transportNote : String
  evrtPressure : String
  evrtJitterMs : Option UInt32
  evrtFps : Option UInt32
  evrtReassemblyDrops : UInt64
  evrtQueueDrops : UInt64
  lastPerformanceAt : Option Nat

def ViewerDiagnostics.default : ViewerDiagnostics where
  codec := ""
  fpsTimes100 := 0
  inputKbps := 0
  droppedFrames := 0
  latencyMs := none
  evrtActive := false
  evrtEndpoint := ""
  transportNote := ""
  evrtPressure := ""
  evrtJitterMs := none
  evrtFps := none
  evrtReassemblyDrops := 0
  evrtQueueDrops := 0
  lastPerformanceAt := none

structure CustomCursor where
  hotx : UInt16
  hoty : UInt16
  width : UInt16
  height : UInt16
  rgba : List UInt8

inductive SentCommand where
  | setDisplay (display : RemoteDisplay)
  | refreshVideo

structure Viewer where
  /-- There is a window that can show pictures. -/
  ready : Bool
  frameSize : UInt32 × UInt32
  baseFrame : List UInt8
  /-- The session whose picture is shown. The code does not keep it. -/
  shownOf : Option Nat
  fsrNativeSize : Option (UInt32 × UInt32)
  connectionNotice : Option String
  noticeExpiresAt : Option Nat
  diagnostics : ViewerDiagnostics
  displays : List RemoteDisplay
  selectedDisplay : Option Int32
  cursorVisible : Bool
  cursors : List (UInt64 × CustomCursor)
  cursor : Option CustomCursor
  sessionConnected : Bool
  sessionStarted : Option Nat
  reconnectAttempts : UInt32
  reconnectCount : UInt32
  reconnectScheduledFor : Option UInt64
  allowClipboard : Bool
  lastRemoteClipboard : Option String
  lastSentClipboard : Option String
  localClipboard : Option String
  sessionEndReason : String
  title : String
  /-- What has been sent to sessions on account of their events. -/
  sent : List SentCommand

namespace Viewer

def new (cfg : ViewerConfig) (allowClipboard : Bool) : Viewer where
  ready := false
  frameSize := (960, 540)
  baseFrame := []
  shownOf := none
  fsrNativeSize := none
  connectionNotice := some "CONNECTING..."
  noticeExpiresAt := none
  diagnostics := .default
  displays := []
  selectedDisplay := none
  cursorVisible := true
  cursors := []
  cursor := none
  sessionConnected := false
  sessionStarted := none
  reconnectAttempts := 0
  reconnectCount := 0
  reconnectScheduledFor := none
  allowClipboard := allowClipboard
  lastRemoteClipboard := none
  lastSentClipboard := none
  localClipboard := none
  sessionEndReason := "Сессия завершена"
  title := "EvertyDesk Viewer — " ++ cfg.remoteId
  sent := []

variable (cfg : ViewerConfig) (v : Viewer) (o : Outcomes)

/-- The title is that of a window. -/
def setTitle (title : String) : Viewer := if v.ready then { v with title := title } else v

def remoteTitle (text : String) : Viewer :=
  v.setTitle ("EvertyDesk Viewer — " ++ cfg.remoteId ++ " — " ++ text)

/-- RGBA and BGRA. -/
def swapRedBlue : List UInt8 → List UInt8
  | r :: g :: b :: a :: rest => b :: g :: r :: a :: swapRedBlue rest
  | _ => []

def fullAlpha : List UInt8 → List UInt8
  | r :: g :: b :: _ :: rest => r :: g :: b :: 255 :: fullAlpha rest
  | _ => []

def applyFsrUpscale (frame : RemoteFrame) : RemoteFrame :=
  match cfg.fsr with
  | none => frame
  | some processBgra =>
      let native := v.fsrNativeSize.getD (frame.width, frame.height)
      if native.1 = 0 ∨ native.2 = 0 then frame
      else
        { frame with
          width := native.1
          height := native.2
          rgba := fullAlpha (swapRedBlue
            (processBgra (swapRedBlue frame.rgba) frame.width frame.height native.1 native.2)) }

def clearStalled : Viewer :=
  if v.connectionNotice.any ("VIDEO STALLED".isPrefixOf ·) then
    { v with connectionNotice := none, noticeExpiresAt := none }
  else v

def presentFrame (frame : RemoteFrame) : Viewer :=
  if frame.rgba.length ≠ frame.width.toNat * frame.height.toNat * 4 then v
  else
    let v := v.clearStalled
    let frame := v.applyFsrUpscale cfg frame
    if !v.ready then v
    else if v.frameSize ≠ (frame.width, frame.height) ∧ !o.resizeOk then v
    else
      { v with
        frameSize := (frame.width, frame.height)
        baseFrame := frame.rgba
        shownOf := some frame.session }

def resolvedDisplayIndex (displays : List RemoteDisplay) (previous : Option Int32) : Option Int32 :=
  (previous.filter fun selected => displays.any (·.index == selected)) <|>
    displays.head?.map (·.index)

def setDisplays (displays : List RemoteDisplay) : Viewer :=
  let previousSelection := v.selectedDisplay
  let native :=
    match displays.head? with
    | some primary =>
        if 0 < primary.width ∧ 0 < primary.height then
          some (primary.width.toUInt32, primary.height.toUInt32)
        else v.fsrNativeSize
    | none => v.fsrNativeSize
  let selected := resolvedDisplayIndex displays previousSelection
  let v := { v with displays := displays, fsrNativeSize := native, selectedDisplay := selected }
  match selected.bind fun index => displays.find? (·.index == index) with
  | none => v
  | some display =>
      let v := if v.ready then { v with cursorVisible := !display.cursorEmbedded } else v
      if previousSelection = some display.index ∧
          displays.head?.map (·.index) ≠ some display.index then
        { v with sent := .setDisplay display :: v.sent }
      else v

def applyCursorId (id : UInt64) : Viewer :=
  match v.cursors.lookup id with
  | some cursor => if v.ready then { v with cursor := some cursor } else v
  | none => v

def fitsUInt16 (n : Int) : Bool := 0 ≤ n && n < 2 ^ 16

def cursorData (id : UInt64) (hotx hoty : Int32) (width height : UInt32) (rgba : List UInt8) :
    Viewer :=
  if fitsUInt16 width.toNat && fitsUInt16 height.toNat && fitsUInt16 hotx.toInt &&
      fitsUInt16 hoty.toInt && o.cursorOk then
    let cursor : CustomCursor :=
      { hotx := UInt16.ofNat hotx.toInt.toNat
        hoty := UInt16.ofNat hoty.toInt.toNat
        width := width.toUInt16
        height := height.toUInt16
        rgba := rgba }
    let cursors :=
      if (v.cursors.lookup id).isNone ∧ maxCachedCursors ≤ v.cursors.length then []
      else v.cursors.filter (·.1 != id)
    { v with cursors := (id, cursor) :: cursors }.applyCursorId id
  else v

def reportRejectedPayload (reason : String) (refreshVideo : Bool) : Viewer :=
  let v := if refreshVideo then { v with sent := .refreshVideo :: v.sent } else v
  v.setTitle ("EvertyDesk Viewer — " ++ reason)

def receiveRemoteClipboard (text : String) : Viewer :=
  if !v.allowClipboard then v
  else if maxClipboardBytes < text.utf8ByteSize then
    let limit := formatByteLimit maxClipboardBytes
    v.reportRejectedPayload s!"Удалённый буфер обмена превышает лимит {limit}" false
  else if v.lastRemoteClipboard = some text ∨ !o.clipboardOk then v
  else { v with localClipboard := some text, lastRemoteClipboard := some text }

/-! Connections. -/

def reconnectDelaySeconds (attempt : Nat) : Nat := min (5 * 2 ^ min (attempt - 1) 3) 40

def scheduleReconnect (generation : UInt64) : Viewer :=
  if v.reconnectScheduledFor = some generation then v
  else
    let attempts := min (v.reconnectAttempts.toNat + 1) (2 ^ 32 - 1)
    let delay := reconnectDelaySeconds attempts
    { v with
      reconnectScheduledFor := some generation
      reconnectAttempts := UInt32.ofNat attempts
      connectionNotice := some s!"RECONNECTING IN {delay}S · ATTEMPT {attempts}"
      noticeExpiresAt := none }.remoteTitle cfg s!"переподключение через {delay} с"

def permanentErrors : List String :=
  ["wrong password", "неверн", "введите", "enter password", "id does not exist", "id не существует"]

def isPermanentConnectionError (error : String) : Bool :=
  permanentErrors.any fun text => decide (text.toList <:+: (cfg.toLowercase error).toList)

def connected (peer : String) : Viewer :=
  { v with
    reconnectScheduledFor := none
    reconnectAttempts := 0
    sessionConnected := true
    sessionStarted := some (v.sessionStarted.getD o.now)
    connectionNotice := none
    noticeExpiresAt := none }.remoteTitle cfg ("подключено: " ++ peer)

/-- What a restart does before it gives up the old session. -/
def reset : Viewer :=
  { v with
    reconnectScheduledFor := none
    sessionConnected := false
    reconnectCount := UInt32.ofNat (min (v.reconnectCount.toNat + 1) (2 ^ 32 - 1))
    displays := []
    fsrNativeSize := none
    cursors := []
    diagnostics := .default
    lastSentClipboard := none
    connectionNotice := some "CONNECTING..."
    noticeExpiresAt := none }

def safeViewerEndReason (reason : String) : String :=
  let reason := Launcher.sanitizeEndReason reason.toList
  if reason.isEmpty then "Сессия завершена" else String.ofList reason

def failed (generation : UInt64) (error : String) : Viewer :=
  let v := { v with sessionConnected := false }.setTitle ("EvertyDesk Viewer — ошибка: " ++ error)
  if isPermanentConnectionError cfg error then
    { v with
      sessionEndReason := safeViewerEndReason error
      connectionNotice := some "FAILED"
      noticeExpiresAt := none }
  else v.scheduleReconnect cfg generation

def closed (generation : UInt64) : Viewer :=
  { v with sessionConnected := false }.scheduleReconnect cfg generation

def evrtStatus (active : Bool) (endpoint : String) : Viewer :=
  let d := v.diagnostics
  let d :=
    { d with
      evrtActive := active
      transportNote := if active then "UDP " ++ endpoint else "UDP inactive, TCP relay"
      evrtEndpoint := endpoint }
  if active then { v with diagnostics := d }
  else
    { v with
      diagnostics := { d with evrtPressure := "", evrtJitterMs := none, evrtFps := none } }

/-- What is neither about the connection nor a picture. -/
def observe : ViewerEvent → Viewer
  | .status status => v.remoteTitle cfg status
  | .latency milliseconds =>
      { v with diagnostics := { v.diagnostics with latencyMs := some milliseconds } }
  | .codec codec => { v with diagnostics := { v.diagnostics with codec := codec } }
  | .evrtStatus active endpoint => v.evrtStatus active endpoint
  | .evrtMetrics pressure jitterMs fps reassemblyDrops queueDrops =>
      { v with
        diagnostics :=
          { v.diagnostics with
            evrtPressure := pressure
            evrtJitterMs := some jitterMs
            evrtFps := some fps
            evrtReassemblyDrops := reassemblyDrops
            evrtQueueDrops := queueDrops } }
  | .displays displays => v.setDisplays displays
  | .cursorData id hotx hoty width height rgba =>
      v.cursorData o id hotx hoty width height rgba
  | .cursorId id => v.applyCursorId id
  | .clipboardText text => v.receiveRemoteClipboard o text
  | .performance fpsTimes100 inputKbps droppedFrames =>
      { v with
        diagnostics :=
          { v.diagnostics with
            fpsTimes100 := fpsTimes100
            inputKbps := inputKbps
            droppedFrames := droppedFrames
            lastPerformanceAt := some o.now } }
  | .rejectedPayload reason refreshVideo => v.reportRejectedPayload reason refreshVideo
  | .watchdogStalled watching =>
      if watching && v.sessionConnected then
        { v with
          connectionNotice := some "VIDEO STALLED · REQUESTING KEYFRAME"
          noticeExpiresAt := none
          sent := .refreshVideo :: v.sent }
      else v
  | _ => v

/-! What the window shows, and whether it counts as connected. -/

def picture : (UInt32 × UInt32) × List UInt8 × Option Nat := (v.frameSize, v.baseFrame, v.shownOf)

def view : ((UInt32 × UInt32) × List UInt8 × Option Nat) × Bool := (v.picture, v.sessionConnected)

theorem view_setTitle (title : String) : (v.setTitle title).view = v.view := by
  unfold setTitle
  split <;> rfl

theorem view_remoteTitle (text : String) : (v.remoteTitle cfg text).view = v.view :=
  v.view_setTitle _

theorem view_scheduleReconnect (generation : UInt64) :
    (v.scheduleReconnect cfg generation).view = v.view := by
  unfold scheduleReconnect
  split
  · rfl
  · exact view_remoteTitle ..

theorem view_connected (peer : String) : (v.connected cfg o peer).view = (v.picture, true) :=
  view_remoteTitle ..

theorem view_failed (generation : UInt64) (error : String) :
    (v.failed cfg generation error).view = (v.picture, false) := by
  have htitle := { v with sessionConnected := false }.view_setTitle
    ("EvertyDesk Viewer — ошибка: " ++ error)
  unfold failed
  split
  · exact htitle
  · exact (view_scheduleReconnect ..).trans htitle

theorem view_closed (generation : UInt64) :
    (v.closed cfg generation).view = (v.picture, false) := view_scheduleReconnect ..

theorem view_setDisplays (displays : List RemoteDisplay) :
    (v.setDisplays displays).view = v.view := by
  unfold setDisplays
  dsimp only
  split
  · rfl
  · split <;> split <;> rfl

theorem view_applyCursorId (id : UInt64) : (v.applyCursorId id).view = v.view := by
  unfold applyCursorId
  split
  · split <;> rfl
  · rfl

theorem view_cursorData (id : UInt64) (hotx hoty : Int32) (width height : UInt32)
    (rgba : List UInt8) : (v.cursorData o id hotx hoty width height rgba).view = v.view := by
  unfold cursorData
  split
  · exact view_applyCursorId ..
  · rfl

theorem view_reportRejectedPayload (reason : String) (refreshVideo : Bool) :
    (v.reportRejectedPayload reason refreshVideo).view = v.view := by
  unfold reportRejectedPayload
  rw [view_setTitle]
  split <;> rfl

theorem view_receiveRemoteClipboard (text : String) :
    (v.receiveRemoteClipboard o text).view = v.view := by
  unfold receiveRemoteClipboard
  split
  · rfl
  · split
    · exact view_reportRejectedPayload ..
    · split <;> rfl

theorem view_evrtStatus (active : Bool) (endpoint : String) :
    (v.evrtStatus active endpoint).view = v.view := by
  unfold evrtStatus
  split <;> rfl

theorem view_observe (event : ViewerEvent) : (v.observe cfg o event).view = v.view := by
  cases event with
  | status => exact view_remoteTitle ..
  | evrtStatus => exact view_evrtStatus ..
  | displays => exact view_setDisplays ..
  | cursorData => exact view_cursorData ..
  | cursorId => exact view_applyCursorId ..
  | clipboardText => exact view_receiveRemoteClipboard ..
  | rejectedPayload => exact view_reportRejectedPayload ..
  | watchdogStalled watching =>
      rw [observe]
      split <;> rfl
  | _ => rfl

theorem observe_picture (event : ViewerEvent) : (v.observe cfg o event).picture = v.picture :=
  congrArg Prod.fst (v.view_observe cfg o event)

theorem observe_sessionConnected (event : ViewerEvent) :
    (v.observe cfg o event).sessionConnected = v.sessionConnected :=
  congrArg Prod.snd (v.view_observe cfg o event)

theorem view_clearStalled : v.clearStalled.view = v.view := by
  unfold clearStalled
  split <;> rfl

theorem applyFsrUpscale_session (frame : RemoteFrame) :
    (v.applyFsrUpscale cfg frame).session = frame.session := by
  unfold applyFsrUpscale
  split
  · rfl
  · dsimp only
    split <;> rfl

/-- A picture that is shown is the one of the given frame. -/
theorem presentFrame_picture (frame : RemoteFrame) :
    (v.presentFrame cfg o frame).picture = v.picture ∨
      (v.presentFrame cfg o frame).shownOf = some frame.session := by
  have hcleared : v.clearStalled.picture = v.picture := congrArg Prod.fst v.view_clearStalled
  unfold presentFrame
  split
  · exact .inl rfl
  · dsimp only
    split
    · exact .inl hcleared
    · split
      · exact .inl hcleared
      · exact .inr (congrArg some (applyFsrUpscale_session ..))

theorem presentFrame_sessionConnected (frame : RemoteFrame) :
    (v.presentFrame cfg o frame).sessionConnected = v.sessionConnected := by
  have hcleared : v.clearStalled.sessionConnected = v.sessionConnected :=
    congrArg Prod.snd v.view_clearStalled
  unfold presentFrame
  split
  · rfl
  · dsimp only
    split
    · exact hcleared
    · split <;> exact hcleared

end Viewer

/-! The viewer and its sessions, numbered from zero. -/

/-- The first generation is one. -/
def generationOf (session : Nat) : UInt64 := UInt64.ofNat (session + 1)

structure ViewerSessions where
  viewer : Viewer
  generation : UInt64
  /-- The threads of all sessions so far. -/
  threads : List EventThread
  /-- The window is in the middle of a restart: the mailbox is empty, and the new session
  is not there yet. -/
  restarting : Bool
  latest : Option RemoteFrame
  wakePending : Bool
  /-- The window's events, and from which session they are; some are from none. The code
  does not keep the latter, and neither what follows: the number of the current session,
  and the sessions that have told that they are connected and not that they have ended. -/
  queue : List (Option Nat × ViewerEvent)
  current : Nat
  connectedSessions : List Nat

inductive SessionsInput where
  /-- The thread of a session takes the next event. -/
  | session (session : Nat) (event : SessionEvent)
  /-- It does the next thing about it. -/
  | act (session : Nat)
  /-- The delay before a new attempt to connect is over. -/
  | delayOver (generation : UInt64)
  | launcherReconnect
  | watchdog (watching : Bool)
  /-- The window handles its next event. -/
  | handle (o : Outcomes)
  /-- A restart by the toolbar or the keyboard. -/
  | restart
  /-- The second part of a restart. -/
  | respawn (o : Outcomes)
  /-- The window appears. -/
  | resumed

namespace ViewerSessions

def start (cfg : ViewerConfig) (allowClipboard : Bool) : ViewerSessions where
  viewer := Viewer.new cfg allowClipboard
  generation := 1
  threads := [EventThread.start]
  restarting := false
  latest := none
  wakePending := false
  queue := []
  current := 0
  connectedSessions := []

variable (cfg : ViewerConfig) (s : ViewerSessions)

def setThread (n : Nat) (t : EventThread) : ViewerSessions :=
  { s with threads := s.threads.set n t }

def act (n : Nat) : ThreadAction → ViewerSessions
  | .send event => { s with queue := s.queue ++ [(some n, event)] }
  | .put width height rgba => { s with latest := some ⟨width, height, rgba, n⟩ }
  | .wake =>
      { s with
        wakePending := true
        queue := if s.wakePending then s.queue else s.queue ++ [(some n, .frameReady)] }

def beginRestart : ViewerSessions :=
  { s with
    viewer := s.viewer.reset
    generation := s.generation + 1
    restarting := true
    latest := none
    current := s.current + 1 }

def respawn (o : Outcomes) : ViewerSessions :=
  { s with
    viewer :=
      if o.spawnOk then s.viewer.remoteTitle cfg "подключение…"
      else s.viewer.scheduleReconnect cfg s.generation
    restarting := false
    wakePending := false
    threads := s.threads ++ [{ EventThread.start with running := o.spawnOk }] }

def handleEvent (o : Outcomes) (origin : Option Nat) : ViewerEvent → ViewerSessions
  | .frameReady =>
      { s with
        wakePending := false
        latest := none
        viewer :=
          match s.latest with
          | some frame => s.viewer.presentFrame cfg o frame
          | none => s.viewer }
  | .connected peer =>
      { s with
        viewer := s.viewer.connected cfg o peer
        connectedSessions := origin.toList ++ s.connectedSessions }
  | .failed generation error =>
      { s with
        viewer :=
          if generation = s.generation then s.viewer.failed cfg generation error else s.viewer
        connectedSessions := s.connectedSessions.filter (some · != origin) }
  | .closed generation =>
      { s with
        viewer := if generation = s.generation then s.viewer.closed cfg generation else s.viewer
        connectedSessions := s.connectedSessions.filter (some · != origin) }
  | .reconnect generation => if generation = s.generation then s.beginRestart else s
  | .launcherReconnect =>
      { s with viewer := { s.viewer with reconnectAttempts := 0 } }.beginRestart
  | event => { s with viewer := s.viewer.observe cfg o event }

def handle (o : Outcomes) : ViewerSessions :=
  match s.queue with
  | [] => s
  | (origin, event) :: rest => { s with queue := rest }.handleEvent cfg o origin event

def post (event : ViewerEvent) : ViewerSessions := { s with queue := s.queue ++ [(none, event)] }

/-- A thread has done all about an event before it takes the next one. -/
def step : SessionsInput → ViewerSessions × Unit
  | .session n event =>
      match s.threads[n]? with
      | some t =>
          (if t.running && t.todo.isEmpty then
            s.setThread n (t.forward cfg (generationOf n) event)
          else s, ())
      | none => (s, ())
  | .act n =>
      match s.threads[n]? with
      | some t =>
          match t.todo with
          | action :: rest => ((s.setThread n { t with todo := rest }).act n action, ())
          | [] => (s, ())
      | none => (s, ())
  | .delayOver generation => (s.post (.reconnect generation), ())
  | .launcherReconnect => (s.post .launcherReconnect, ())
  | .watchdog watching => (s.post (.watchdogStalled watching), ())
  | .handle o => (if s.restarting then s else s.handle cfg o, ())
  | .restart =>
      (if s.restarting then s
        else { s with viewer := { s.viewer with reconnectAttempts := 0 } }.beginRestart, ())
  | .respawn o => (if s.restarting then s.respawn cfg o else s, ())
  | .resumed => ({ s with viewer := { s.viewer with ready := true } }, ())

end ViewerSessions

def viewerSessions (cfg : ViewerConfig) : Machine ViewerSessions SessionsInput Unit :=
  ⟨ViewerSessions.step cfg⟩

end EvertyDesk.Desktop
