import EvertyDesk.Desktop.SessionEvents

/-!
The clipboards of both machines. A thread watches the local one and tells the viewer of
what is new there; the viewer sends it to the host, unless it is what it has sent or
received last. The host sets its clipboard to what it is sent and reports what its user
copies.
-/

namespace EvertyDesk.Desktop

/-- The code does not know who has copied a text. -/
inductive Copier where
  | localUser | remoteUser
deriving DecidableEq

structure Clip where
  text : String
  copier : Copier
deriving DecidableEq

inductive WatcherStage where
  | waiting
  /-- The clipboards are to be kept the same, so the local one is read next. -/
  | reading
  | telling (clip : Clip)
deriving DecidableEq

inductive ClipboardEvent where
  | localClipboardText (clip : Clip)
  | clipboardText (text : String)
  | rejectedPayload (reason : String)
deriving DecidableEq

structure Clipboards where
  localClipboard : Option Clip
  remoteClipboard : Option String
  allowClipboard : Bool
  sessionConnected : Bool
  stage : WatcherStage
  /-- The length and the hash. -/
  lastObserved : Option (Nat × UInt64)
  /-- The viewer's events. -/
  events : List ClipboardEvent
  lastSentClipboard : Option String
  lastRemoteClipboard : Option String
  /-- What the host has still to take. -/
  commands : List Clip
  /-- What the session has still to take. -/
  reports : List String
  /-- What has been sent so far. Neither this is kept by the code nor what follows: the
  last copy, and whether all copies so far were of texts that can be sent, were made when
  there was nothing left to do for those before, and the session was connected and the
  clipboard allowed all the time. -/
  sent : List Clip
  lastCopy : Option String
  orderly : Bool

inductive ClipboardsInput where
  | copyLocal (text : String)
  | copyRemote (text : String)
  /-- The watcher's steps; the clipboard cannot always be read. -/
  | poll
  | read (ok : Bool)
  | tell
  /-- The session's event thread takes a report. -/
  | deliver
  /-- The viewer takes its next event; the clipboard cannot always be written. -/
  | handle (ok : Bool)
  | hostTakes
  /-- Ctrl+V. -/
  | paste (ok : Bool)
  | setClipboardEnabled (enabled : Bool)
  | connection (connected : Bool)
  | restart

def shouldForwardClipboard (text : String) (lastSent lastRemote : Option String) : Bool :=
  !text.isEmpty && lastSent ≠ some text && lastRemote ≠ some text

def clipboardTextFingerprint (hash : String → UInt64) (text : String) : Nat × UInt64 :=
  (text.utf8ByteSize, hash text)

namespace Clipboards

def start (allowClipboard sessionConnected : Bool) (localText remoteText : Option String) :
    Clipboards where
  localClipboard := localText.map (⟨·, .localUser⟩)
  remoteClipboard := remoteText
  allowClipboard := allowClipboard
  sessionConnected := sessionConnected
  stage := .waiting
  lastObserved := none
  events := []
  lastSentClipboard := none
  lastRemoteClipboard := none
  commands := []
  reports := []
  sent := []
  lastCopy := none
  orderly := allowClipboard && sessionConnected

variable (hash : String → UInt64) (s : Clipboards)

/-! The watcher. -/

def poll : Clipboards :=
  match s.stage with
  | .waiting =>
      if s.allowClipboard && s.sessionConnected then { s with stage := .reading }
      else { s with lastObserved := none }
  | _ => s

def observe (clip : Clip) : Clipboards :=
  let fingerprint := clipboardTextFingerprint hash clip.text
  if s.lastObserved = some fingerprint then { s with stage := .waiting }
  else { s with lastObserved := some fingerprint, stage := .telling clip }

def read (ok : Bool) : Clipboards :=
  match s.stage with
  | .reading =>
      match s.localClipboard with
      | some clip => if ok then s.observe hash clip else { s with stage := .waiting }
      | none => { s with stage := .waiting }
  | _ => s

def tell : Clipboards :=
  match s.stage with
  | .telling clip =>
      let limit := formatByteLimit maxClipboardBytes
      let event :=
        if clip.text.utf8ByteSize ≤ maxClipboardBytes then ClipboardEvent.localClipboardText clip
        else .rejectedPayload s!"Локальный буфер обмена превышает лимит {limit}"
      { s with stage := .waiting, events := s.events ++ [event] }
  | _ => s

/-! The viewer. -/

def forwardLocalClipboard (clip : Clip) : Clipboards :=
  if !s.allowClipboard || clip.text.isEmpty then s
  else if maxClipboardBytes < clip.text.utf8ByteSize then s
  else if !shouldForwardClipboard clip.text s.lastSentClipboard s.lastRemoteClipboard then s
  else
    { s with
      lastSentClipboard := some clip.text
      commands := s.commands ++ [clip]
      sent := s.sent ++ [clip] }

def syncLocalClipboardToRemote (ok : Bool) : Clipboards :=
  if !s.allowClipboard || !ok then s
  else
    match s.localClipboard with
    | some clip => if clip.text.isEmpty then s else s.forwardLocalClipboard clip
    | none => s

def receiveRemoteClipboard (ok : Bool) (text : String) : Clipboards :=
  if !s.allowClipboard then s
  else if maxClipboardBytes < text.utf8ByteSize then s
  else if s.lastRemoteClipboard = some text then s
  else if ok then
    { s with localClipboard := some ⟨text, .remoteUser⟩, lastRemoteClipboard := some text }
  else s

def handle (ok : Bool) : Clipboards :=
  match s.events with
  | [] => s
  | .localClipboardText clip :: rest => { s with events := rest }.forwardLocalClipboard clip
  | .clipboardText text :: rest => { s with events := rest }.receiveRemoteClipboard ok text
  | .rejectedPayload _ :: rest => { s with events := rest }

def setClipboardEnabled (enabled : Bool) : Clipboards :=
  let s := { s with allowClipboard := enabled, orderly := s.orderly && enabled }
  if enabled then s else { s with lastRemoteClipboard := none, lastSentClipboard := none }

/-! The host. -/

def deliver : Clipboards :=
  match s.reports with
  | [] => s
  | text :: rest =>
      let limit := formatByteLimit maxClipboardBytes
      let event :=
        if maxClipboardBytes < text.utf8ByteSize then
          ClipboardEvent.rejectedPayload s!"Удалённый буфер обмена превышает лимит {limit}"
        else .clipboardText text
      { s with reports := rest, events := s.events ++ [event] }

def hostTakes : Clipboards :=
  match s.commands with
  | [] => s
  | clip :: rest => { s with commands := rest, remoteClipboard := some clip.text }

/-! Copies. -/

def localText : Option String := s.localClipboard.map (·.text)

/-- There is nothing left to do. -/
def Settled : Prop :=
  s.reports = [] ∧ s.events = [] ∧ s.commands = [] ∧ s.stage = .waiting ∧
    ∀ clip ∈ s.localClipboard, s.lastObserved = some (clipboardTextFingerprint hash clip.text)

instance instDecidableSettled : Decidable (s.Settled hash) := by
  unfold Settled
  infer_instance

def sendable (text : String) : Bool := !text.isEmpty && text.utf8ByteSize ≤ maxClipboardBytes

def copied (text : String) : Clipboards :=
  { s with
    lastCopy := some text
    orderly := s.orderly && decide (s.Settled hash) && sendable text }

def copyLocal (text : String) : Clipboards :=
  { s.copied hash text with localClipboard := some ⟨text, .localUser⟩ }

def copyRemote (text : String) : Clipboards :=
  { s.copied hash text with
    remoteClipboard := some text
    reports := s.reports ++ [text] }

def step : ClipboardsInput → Clipboards × Unit
  | .copyLocal text => (s.copyLocal hash text, ())
  | .copyRemote text => (s.copyRemote hash text, ())
  | .poll => (s.poll, ())
  | .read ok => (s.read hash ok, ())
  | .tell => (s.tell, ())
  | .deliver => (s.deliver, ())
  | .handle ok => (s.handle ok, ())
  | .hostTakes => (s.hostTakes, ())
  | .paste ok => (s.syncLocalClipboardToRemote ok, ())
  | .setClipboardEnabled enabled => (s.setClipboardEnabled enabled, ())
  | .connection connected =>
      ({ s with sessionConnected := connected, orderly := s.orderly && connected }, ())
  | .restart =>
      ({ s with lastSentClipboard := none, sessionConnected := false, orderly := false }, ())

end Clipboards

def clipboards (hash : String → UInt64) : Machine Clipboards ClipboardsInput Unit :=
  ⟨Clipboards.step hash⟩

end EvertyDesk.Desktop
