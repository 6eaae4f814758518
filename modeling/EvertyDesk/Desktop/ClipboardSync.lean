import EvertyDesk.Desktop.Clipboard

/-!
Whether the clipboards become the same, and whether a text comes back to where it is from.
Both depend on what the viewer remembers of the texts that it has sent and received.
-/

namespace EvertyDesk.Desktop

def Clip.fromRemote (clip : Clip) : Bool := clip.copier == .remoteUser && !clip.text.isEmpty

def WatcherStage.clips : WatcherStage → List Clip
  | .telling clip => [clip]
  | _ => []

def ClipboardEvent.clips : ClipboardEvent → List Clip
  | .localClipboardText clip => [clip]
  | _ => []

namespace Clipboards

variable (hash : String → UInt64) (s : Clipboards)

/-! Echoes. -/

/-- What has been read from the local clipboard and not been handled yet. -/
def pending : List Clip := s.stage.clips ++ s.events.flatMap ClipboardEvent.clips

def carried : List Clip := s.localClipboard.toList ++ s.pending

/-- The text from the remote side that the viewer takes next. -/
def nextRemote : Option String :=
  match s.events with
  | .clipboardText text :: _ => some text
  | _ => none

/-- When the viewer takes over another text from the remote side, or the clipboard is
allowed again, nothing from the remote side is under way to the viewer, and then not in the
clipboard either. -/
def KeepsApart : ClipboardsInput → Prop
  | .handle ok =>
      ∀ text ∈ s.nextRemote, ok = true → s.allowClipboard = true →
        s.lastRemoteClipboard ≠ some text → ∀ clip ∈ s.pending, clip.fromRemote = false
  | .setClipboardEnabled true =>
      s.allowClipboard = false → ∀ clip ∈ s.carried, clip.fromRemote = false
  | _ => True

instance instDecidableKeepsApart : ∀ i, Decidable (s.KeepsApart i) := by
  intro i
  unfold KeepsApart
  cases i with
  | setClipboardEnabled enabled => cases enabled <;> infer_instance
  | _ => infer_instance

/-- What is sent has been copied by the local user. -/
def EchoFree (i : ClipboardsInput) : Prop :=
  ∀ clip ∈ (s.step hash i).1.sent, clip.copier = .localUser

structure Apart : Prop where
  sent : ∀ clip ∈ s.sent, clip.copier = .localUser
  carried : s.allowClipboard = true → ∀ clip ∈ s.carried, clip.fromRemote = true →
    s.lastRemoteClipboard = some clip.text

theorem start_apart (allowClipboard sessionConnected : Bool)
    (localText remoteText : Option String) :
    (start allowClipboard sessionConnected localText remoteText).Apart where
  sent := by simp [start]
  carried _ clip hclip hremote := by
    cases localText with
    | none => simp [Clipboards.carried, pending, start, WatcherStage.clips] at hclip
    | some text =>
        have hlocal : clip = ⟨text, .localUser⟩ := by
          simpa [Clipboards.carried, pending, start, WatcherStage.clips] using hclip
        rw [hlocal] at hremote
        cases hremote

variable {s} {t : Clipboards}

theorem Apart.of_subset (h : s.Apart) (hsent : t.sent = s.sent)
    (hallow : t.allowClipboard = s.allowClipboard)
    (hremote : t.lastRemoteClipboard = s.lastRemoteClipboard)
    (hcarried : ∀ clip ∈ t.carried, clip ∈ s.carried) : t.Apart where
  sent := hsent ▸ h.sent
  carried hallowed clip hclip := by
    rw [hremote]
    exact h.carried (hallow ▸ hallowed) clip (hcarried clip hclip)

theorem Apart.poll (h : s.Apart) : s.poll.Apart := by
  unfold Clipboards.poll
  split
  next hstage =>
    have hcarried : ∀ clip ∈ ({ s with stage := .reading } : Clipboards).carried,
        clip ∈ s.carried := by
      intro clip hclip
      simpa [Clipboards.carried, pending, hstage, WatcherStage.clips] using hclip
    split
    · exact h.of_subset rfl rfl rfl hcarried
    · exact h.of_subset rfl rfl rfl fun _ => id
  next => exact h

theorem Apart.read (h : s.Apart) (ok : Bool) : (s.read hash ok).Apart := by
  have hwaiting : s.stage = .reading → ({ s with stage := .waiting } : Clipboards).Apart := by
    intro hstage
    refine h.of_subset rfl rfl rfl fun clip hclip => ?_
    simpa [Clipboards.carried, pending, hstage, WatcherStage.clips] using hclip
  unfold Clipboards.read
  split
  next hstage =>
    split
    next clip hclip =>
      split
      · unfold observe
        dsimp only
        split
        · exact hwaiting hstage
        · refine h.of_subset rfl rfl rfl fun other hother => ?_
          have hother : other = clip ∨ other ∈ s.events.flatMap ClipboardEvent.clips := by
            simpa [Clipboards.carried, pending, WatcherStage.clips, hclip] using hother
          simpa [Clipboards.carried, pending, hstage, WatcherStage.clips, hclip] using hother
      · exact hwaiting hstage
    next => exact hwaiting hstage
  next => exact h

theorem Apart.tell (h : s.Apart) : s.tell.Apart := by
  unfold Clipboards.tell
  split
  next clip hstage =>
    refine h.of_subset rfl rfl rfl fun other hother => ?_
    simp only [Clipboards.carried, pending, WatcherStage.clips, List.nil_append,
      List.flatMap_append, List.flatMap_singleton, List.mem_append] at hother
    rcases hother with hlocal | hevents | hnew
    · exact List.mem_append_left _ hlocal
    · exact List.mem_append_right _ (List.mem_append_right _ hevents)
    · have hsame : other = clip := by
        split at hnew
        · simpa [ClipboardEvent.clips] using hnew
        · simp [ClipboardEvent.clips] at hnew
      rw [hsame]
      simp [Clipboards.carried, pending, hstage, WatcherStage.clips]
  next => exact h

/-- A text that is forwarded is not the one received last. -/
theorem Apart.forward (h : s.Apart) {clip : Clip}
    (hclip : s.allowClipboard = true → clip.fromRemote = true →
      s.lastRemoteClipboard = some clip.text) :
    (s.forwardLocalClipboard clip).Apart := by
  unfold forwardLocalClipboard
  split
  · exact h
  next hallowed =>
    split
    · exact h
    · split
      · exact h
      next hforward =>
        obtain ⟨hallow, hnonempty⟩ : s.allowClipboard = true ∧ clip.text.isEmpty = false := by
          simpa using hallowed
        have hother : s.lastRemoteClipboard ≠ some clip.text := by
          have hboth : ¬ s.lastSentClipboard = some clip.text ∧
              ¬ s.lastRemoteClipboard = some clip.text := by
            simpa [shouldForwardClipboard, hnonempty] using hforward
          exact hboth.2
        refine ⟨?_, h.carried⟩
        intro sent hsent
        rcases List.mem_append.mp hsent with hold | hnew
        · exact h.sent sent hold
        · rw [List.mem_singleton.mp hnew]
          cases hcopier : clip.copier with
          | localUser => rfl
          | remoteUser =>
              exact absurd (hclip hallow (by simp [Clip.fromRemote, hcopier, hnonempty])) hother

theorem Apart.popped (h : s.Apart) {event : ClipboardEvent} {rest : List ClipboardEvent}
    (hevents : s.events = event :: rest) : ({ s with events := rest } : Clipboards).Apart := by
  refine h.of_subset rfl rfl rfl fun clip hclip => ?_
  simp only [Clipboards.carried, pending, List.mem_append, hevents, List.flatMap_cons] at hclip ⊢
  tauto

theorem Apart.handle (h : s.Apart) {ok : Bool} (hkeeps : s.KeepsApart (.handle ok)) :
    (s.handle ok).Apart := by
  unfold Clipboards.handle
  split
  · exact h
  next clip rest hevents =>
    refine (h.popped hevents).forward fun hallow hremote => h.carried hallow clip ?_ hremote
    simp [Clipboards.carried, pending, hevents, ClipboardEvent.clips]
  next text rest hevents =>
    have hpopped := h.popped hevents
    unfold receiveRemoteClipboard
    split
    · exact hpopped
    next hallowed =>
      split
      · exact hpopped
      · split
        · exact hpopped
        next hother =>
          split
          next hok =>
            refine ⟨h.sent, fun hallow clip hclip hremote => ?_⟩
            have hnone := hkeeps text (by simp [nextRemote, hevents]) hok hallow hother
            have hparts : clip = ⟨text, .remoteUser⟩ ∨ clip ∈ s.pending := by
              simpa [Clipboards.carried, pending, hevents, ClipboardEvent.clips] using hclip
            rcases hparts with rfl | hpending
            · rfl
            · rw [hnone clip hpending] at hremote
              cases hremote
          next => exact hpopped
  next reason rest hevents => exact h.popped hevents

theorem Apart.step (h : s.Apart) {i : ClipboardsInput} (hkeeps : s.KeepsApart i) :
    (s.step hash i).1.Apart := by
  cases i with
  | copyLocal text =>
      refine ⟨h.sent, fun hallow clip hclip hremote => ?_⟩
      have hparts : clip = ⟨text, .localUser⟩ ∨ clip ∈ s.pending := by
        simpa [Clipboards.carried, pending, Clipboards.step, copyLocal, copied] using hclip
      rcases hparts with rfl | hpending
      · cases hremote
      · exact h.carried hallow clip (List.mem_append_right _ hpending) hremote
  | copyRemote text => exact h.of_subset rfl rfl rfl fun _ => id
  | poll => exact h.poll
  | read ok => exact h.read hash ok
  | tell => exact h.tell
  | deliver =>
      simp only [Clipboards.step, deliver]
      split
      · exact h
      · refine h.of_subset rfl rfl rfl fun clip hclip => ?_
        simp only [Clipboards.carried, pending, List.flatMap_append, List.flatMap_singleton,
          List.mem_append] at hclip ⊢
        rcases hclip with hlocal | hstage | hevents | hnew
        · exact .inl hlocal
        · exact .inr (.inl hstage)
        · exact .inr (.inr hevents)
        · split at hnew <;> simp [ClipboardEvent.clips] at hnew
  | handle ok => exact h.handle hkeeps
  | hostTakes =>
      simp only [Clipboards.step, hostTakes]
      split
      · exact h
      · exact h.of_subset rfl rfl rfl fun _ => id
  | paste ok =>
      simp only [Clipboards.step, syncLocalClipboardToRemote]
      split
      · exact h
      · split
        next clip hclip =>
          split
          · exact h
          · refine h.forward fun hallow hremote => h.carried hallow clip ?_ hremote
            simp [Clipboards.carried, hclip]
        next => exact h
  | setClipboardEnabled enabled =>
      cases enabled with
      | true =>
          refine ⟨h.sent, fun _ clip hclip hremote => ?_⟩
          cases hallow : s.allowClipboard with
          | true => exact h.carried hallow clip hclip hremote
          | false =>
              rw [hkeeps hallow clip hclip] at hremote
              cases hremote
      | false => exact ⟨h.sent, fun hallow => Bool.noConfusion hallow⟩
  | connection connected => exact h.of_subset rfl rfl rfl fun _ => id
  | restart => exact h.of_subset rfl rfl rfl fun _ => id

/-! Convergence. -/

variable (s)

/-- The viewer remembers the text, so it does not send it. -/
def Known (text : String) : Prop :=
  s.lastSentClipboard = some text ∨ s.lastRemoteClipboard = some text

/-- A text is copied that the viewer does not remember, or that is in the local clipboard
already, and the watcher can tell it from the one before; and the local clipboard can be
written. -/
def Passes : ClipboardsInput → Prop
  | .copyLocal text => s.orderly = true → s.Settled hash → sendable text = true →
      s.localText = some text ∨
        (s.lastObserved ≠ some (clipboardTextFingerprint hash text) ∧ ¬ s.Known text)
  | .copyRemote text => s.orderly = true → s.Settled hash → sendable text = true →
      s.localText = some text ∨ s.lastRemoteClipboard ≠ some text
  | .handle ok => s.orderly = true →
      ∀ text ∈ s.nextRemote, s.lastRemoteClipboard ≠ some text → ok = true
  | _ => True

instance instDecidablePasses : ∀ i, Decidable (s.Passes hash i) := by
  intro i
  unfold Passes Known
  cases i <;> infer_instance

/-- When all copies so far have been made and processed one after the other, both
clipboards hold what has been copied last. -/
def Converged (i : ClipboardsInput) : Prop :=
  (s.step hash i).1.orderly = true → (s.step hash i).1.Settled hash →
    ∀ text ∈ (s.step hash i).1.lastCopy,
      (s.step hash i).1.localText = some text ∧ (s.step hash i).1.remoteClipboard = some text

/-- The watcher has still to find the text, or what it has found has still to be handled. -/
def Due (text : String) : Prop :=
  s.lastObserved ≠ some (clipboardTextFingerprint hash text) ∨ s.stage.clips ≠ [] ∨
    ∃ clip, .localClipboardText clip ∈ s.events

/-- The text is in the local clipboard, and nothing else is under way. -/
structure Carrying (text : String) : Prop where
  here : s.localText = some text
  reports : s.reports = []
  events : ∀ event ∈ s.events, ∀ remote, event ≠ .clipboardText remote
  clips : ∀ clip ∈ s.pending, clip.text = text
  commands : ∀ clip ∈ s.commands, clip.text = text
  known : s.Known text → sendable text = true → s.remoteClipboard = some text ∨ s.commands ≠ []

/-- It is on its way to the host, or there. -/
structure Outbound (text : String) : Prop extends s.Carrying text where
  due : ¬ s.Known text → sendable text = true → s.Due hash text

/-- The text is in the host's clipboard and on its way to the viewer. -/
structure Inbound (text : String) : Prop where
  there : s.remoteClipboard = some text
  sendable : sendable text = true
  commands : s.commands = []
  clips : s.stage.clips = []
  underway : s.reports = [text] ∧ s.events = [] ∨ s.reports = [] ∧ s.events = [.clipboardText text]
  before : ∀ clip ∈ s.localClipboard,
    s.lastObserved = some (clipboardTextFingerprint hash clip.text) ∧
      (Clipboards.sendable clip.text = true → s.Known clip.text)
  unknown : s.localText = some text ∨ s.lastRemoteClipboard ≠ some text

/-- No text has been seen yet. -/
structure Blank : Prop where
  here : s.localClipboard = none
  reports : s.reports = []
  events : s.events = []
  commands : s.commands = []
  clips : s.stage.clips = []
  lastCopy : s.lastCopy = none

structure Orderly : Prop where
  allowed : s.allowClipboard = true
  connected : s.sessionConnected = true
  texts : s.Blank ∨
    (∃ text, s.Outbound hash text ∧ ∀ last ∈ s.lastCopy, last = text ∧ sendable text = true) ∨
    ∃ text, s.Inbound hash text ∧ s.lastCopy = some text

theorem start_orderly {allowClipboard sessionConnected : Bool}
    (localText remoteText : Option String)
    (h : (start allowClipboard sessionConnected localText remoteText).orderly = true) :
    (start allowClipboard sessionConnected localText remoteText).Orderly hash := by
  obtain ⟨hallow, hconnected⟩ := (Bool.and_eq_true _ _).mp h
  refine ⟨hallow, hconnected, ?_⟩
  cases localText with
  | none => exact .inl ⟨rfl, rfl, rfl, rfl, rfl, rfl⟩
  | some text =>
      refine .inr (.inl ⟨text, ⟨⟨rfl, rfl, ?_, ?_, ?_, ?_⟩, ?_⟩, ?_⟩)
      · simp [start]
      · simp [start, pending, WatcherStage.clips]
      · simp [start]
      · simp [start, Known]
      · exact fun _ _ => .inl (by simp [start])
      · simp [start]

variable {hash} {s}

theorem Carrying.text_of_local {text : String} (h : s.Carrying text) {clip : Clip}
    (hclip : s.localClipboard = some clip) : clip.text = text := by
  have hhere := h.here
  rw [localText, hclip] at hhere
  exact Option.some.inj hhere

/-! Settled states. -/

theorem Outbound.settled {text : String} (h : s.Outbound hash text) (hsettled : s.Settled hash)
    (hsendable : sendable text = true) : s.Known text ∧ s.remoteClipboard = some text := by
  obtain ⟨-, hevents, hcommands, hstage, hobserved⟩ := hsettled
  obtain ⟨clip, hclip, htext⟩ := Option.map_eq_some_iff.mp h.here
  have hknown : s.Known text := by
    by_contra hunknown
    rcases h.due hunknown hsendable with hnew | hclips | ⟨found, hfound⟩
    · rw [← htext] at hnew
      exact hnew (hobserved clip hclip)
    · rw [hstage] at hclips
      exact hclips rfl
    · rw [hevents] at hfound
      cases hfound
  refine ⟨hknown, ?_⟩
  rcases h.known hknown hsendable with hthere | hsome
  · exact hthere
  · exact absurd hcommands hsome

theorem Inbound.not_settled {text : String} (h : s.Inbound hash text) : ¬ s.Settled hash := by
  rintro ⟨hreports, hevents, -⟩
  rcases h.underway with ⟨hreport, -⟩ | ⟨-, hevent⟩
  · rw [hreports] at hreport
    cases hreport
  · rw [hevents] at hevent
    cases hevent

theorem Orderly.converged (h : s.Orderly hash) (hsettled : s.Settled hash) :
    ∀ text ∈ s.lastCopy, s.localText = some text ∧ s.remoteClipboard = some text := by
  intro text htext
  rcases h.texts with hblank | ⟨own, hout, hlast⟩ | ⟨own, hin, -⟩
  · rw [hblank.lastCopy] at htext
    cases htext
  · obtain ⟨rfl, hsendable⟩ := hlast text htext
    exact ⟨hout.here, (hout.settled hsettled hsendable).2⟩
  · exact absurd hsettled hin.not_settled

/-! Copies. -/

theorem copied_orderly {text : String} (h : (s.copied hash text).orderly = true) :
    s.orderly = true ∧ s.Settled hash ∧ sendable text = true := by
  simpa [copied, and_assoc] using h

theorem Orderly.copyLocal (h : s.Orderly hash) (hsettled : s.Settled hash) {text : String}
    (hsendable : sendable text = true)
    (hpasses : s.localText = some text ∨
      (s.lastObserved ≠ some (clipboardTextFingerprint hash text) ∧ ¬ s.Known text)) :
    (s.copyLocal hash text).Orderly hash := by
  obtain ⟨hreports, hevents, hcommands, hstage, -⟩ := id hsettled
  refine ⟨h.allowed, h.connected, .inr (.inl ⟨text, ⟨⟨rfl, hreports, ?_, ?_, ?_, ?_⟩, ?_⟩, ?_⟩)⟩
  · simp [Clipboards.copyLocal, copied, hevents]
  · simp [Clipboards.copyLocal, copied, pending, hevents, hstage, WatcherStage.clips]
  · simp [Clipboards.copyLocal, copied, hcommands]
  · intro hknown _
    rcases hpasses with hsame | ⟨-, hunknown⟩
    · rcases h.texts with hblank | ⟨own, hout, -⟩ | ⟨own, hin, -⟩
      · rw [localText, hblank.here] at hsame
        cases hsame
      · obtain rfl := Option.some.inj (hout.here.symm.trans hsame)
        exact .inl (hout.settled hsettled hsendable).2
      · exact absurd hsettled hin.not_settled
    · exact absurd hknown hunknown
  · intro hunknown _
    rcases hpasses with hsame | ⟨hnew, -⟩
    · rcases h.texts with hblank | ⟨own, hout, -⟩ | ⟨own, hin, -⟩
      · rw [localText, hblank.here] at hsame
        cases hsame
      · obtain rfl := Option.some.inj (hout.here.symm.trans hsame)
        exact absurd (hout.settled hsettled hsendable).1 hunknown
      · exact absurd hsettled hin.not_settled
    · exact .inl hnew
  · intro last hlast
    obtain rfl := Option.some.inj hlast
    exact ⟨rfl, hsendable⟩

theorem Orderly.copyRemote (h : s.Orderly hash) (hsettled : s.Settled hash) {text : String}
    (hsendable : sendable text = true)
    (hpasses : s.localText = some text ∨ s.lastRemoteClipboard ≠ some text) :
    (s.copyRemote hash text).Orderly hash := by
  obtain ⟨hreports, hevents, hcommands, hstage, hobserved⟩ := id hsettled
  refine ⟨h.allowed, h.connected, .inr (.inr ⟨text, ⟨rfl, hsendable, hcommands, ?_, ?_, ?_,
    hpasses⟩, rfl⟩)⟩
  · exact congrArg WatcherStage.clips hstage
  · exact .inl ⟨by simp [Clipboards.copyRemote, hreports], hevents⟩
  · intro clip hclip
    refine ⟨hobserved clip hclip, fun hsends => ?_⟩
    rcases h.texts with hblank | ⟨own, hout, -⟩ | ⟨own, hin, -⟩
    · cases hblank.here.symm.trans hclip
    · obtain rfl := hout.text_of_local hclip
      exact (hout.settled hsettled hsends).1
    · exact absurd hsettled hin.not_settled

/-! Processing. -/

theorem Orderly.withStage (h : s.Orderly hash) {stage : WatcherStage}
    (hclips : stage.clips = s.stage.clips) :
    ({ s with stage := stage } : Clipboards).Orderly hash := by
  have hpending : ({ s with stage := stage } : Clipboards).pending = s.pending :=
    congrArg (· ++ s.events.flatMap ClipboardEvent.clips) hclips
  refine ⟨h.allowed, h.connected, ?_⟩
  rcases h.texts with hblank | ⟨own, hout, hlast⟩ | ⟨own, hin, hlast⟩
  · exact .inl { hblank with clips := hclips.trans hblank.clips }
  · refine .inr (.inl ⟨own, { hout with clips := ?_, due := ?_ }, hlast⟩)
    · rw [hpending]
      exact hout.clips
    · intro hunknown hsendable
      rcases hout.due hunknown hsendable with hnew | hsome | hfound
      · exact .inl hnew
      · exact .inr (.inl fun hnone => hsome (hclips.symm.trans hnone))
      · exact .inr (.inr hfound)
  · exact .inr (.inr ⟨own, { hin with clips := hclips.trans hin.clips }, hlast⟩)

theorem Orderly.poll (h : s.Orderly hash) : s.poll.Orderly hash := by
  unfold Clipboards.poll
  split
  next hstage =>
    rw [if_pos (by rw [h.allowed, h.connected]; rfl)]
    exact h.withStage (by rw [hstage]; rfl)
  next => exact h

theorem Orderly.observe (h : s.Orderly hash) (hstage : s.stage = .reading) {clip : Clip}
    (hclip : s.localClipboard = some clip) : (s.observe hash clip).Orderly hash := by
  unfold Clipboards.observe
  dsimp only
  split
  · exact h.withStage (by rw [hstage]; rfl)
  next hnew =>
    refine ⟨h.allowed, h.connected, ?_⟩
    rcases h.texts with hblank | ⟨own, hout, hlast⟩ | ⟨own, hin, hlast⟩
    · cases hblank.here.symm.trans hclip
    · have htext := hout.text_of_local hclip
      refine .inr (.inl ⟨own, { hout with clips := ?_, due := ?_ }, hlast⟩)
      · intro found hfound
        rcases List.mem_cons.mp hfound with rfl | hevents
        · exact htext
        · exact hout.clips found (List.mem_append_right _ hevents)
      · exact fun _ _ => .inr (.inl (List.cons_ne_nil _ _))
    · exact absurd (hin.before clip hclip).1 hnew

theorem Orderly.read (h : s.Orderly hash) (ok : Bool) : (s.read hash ok).Orderly hash := by
  unfold Clipboards.read
  split
  next hstage =>
    have hwaiting : ({ s with stage := .waiting } : Clipboards).Orderly hash :=
      h.withStage (by rw [hstage]; rfl)
    split
    next clip hclip =>
      split
      · exact h.observe hstage hclip
      · exact hwaiting
    next => exact hwaiting
  next => exact h

theorem sendable_iff {text : String} :
    sendable text = true ↔ text.isEmpty = false ∧ text.utf8ByteSize ≤ maxClipboardBytes := by
  simp [sendable]

theorem Orderly.tell (h : s.Orderly hash) : s.tell.Orderly hash := by
  unfold Clipboards.tell
  split
  next clip hstage =>
    have hsome : s.stage.clips = [clip] := by rw [hstage]; rfl
    refine ⟨h.allowed, h.connected, ?_⟩
    rcases h.texts with hblank | ⟨own, hout, hlast⟩ | ⟨own, hin, hlast⟩
    · cases hblank.clips.symm.trans hsome
    · have htext : clip.text = own :=
        hout.clips clip (List.mem_append_left _ (hsome ▸ List.mem_cons_self))
      refine .inr (.inl ⟨own, { hout with events := ?_, clips := ?_, due := ?_ }, hlast⟩)
      · intro event hevent remote
        rcases List.mem_append.mp hevent with hold | hnew
        · exact hout.events event hold remote
        · rw [List.mem_singleton.mp hnew]
          split <;> exact ClipboardEvent.noConfusion
      · intro found hfound
        simp only [pending, WatcherStage.clips, List.nil_append, List.flatMap_append,
          List.flatMap_singleton, List.mem_append] at hfound
        rcases hfound with hold | hnew
        · exact hout.clips found (List.mem_append_right _ hold)
        · split at hnew
          · rw [List.mem_singleton.mp hnew]
            exact htext
          · cases hnew
      · intro _ hsendable
        have hsize := (sendable_iff.mp hsendable).2
        refine .inr (.inr ⟨clip, ?_⟩)
        simp [htext, hsize]
    · cases hin.clips.symm.trans hsome
  next => exact h

theorem Carrying.forward {text : String} (h : s.Carrying text) (hallow : s.allowClipboard = true)
    {clip : Clip} (htext : clip.text = text) :
    (s.forwardLocalClipboard clip).Outbound hash text := by
  unfold forwardLocalClipboard
  split
  next hempty =>
    refine { h with due := fun _ hsendable => ?_ }
    have hnonempty := (sendable_iff.mp hsendable).1
    simp [hallow, htext, hnonempty] at hempty
  next =>
    split
    next hsize =>
      refine { h with due := fun _ hsendable => ?_ }
      have hfits := (sendable_iff.mp hsendable).2
      rw [htext] at hsize
      omega
    next =>
      split
      next hsuppressed =>
        refine { h with due := fun hunknown hsendable => ?_ }
        have hnonempty := (sendable_iff.mp hsendable).1
        obtain ⟨hsent, hremote⟩ := not_or.mp hunknown
        simp [shouldForwardClipboard, htext, hnonempty, hsent, hremote] at hsuppressed
      next =>
        refine { h with commands := ?_, known := ?_, due := ?_ }
        · intro sent hsent
          rcases List.mem_append.mp hsent with hold | hnew
          · exact h.commands sent hold
          · rw [List.mem_singleton.mp hnew]
            exact htext
        · exact fun _ _ => .inr (by simp)
        · exact fun hunknown _ => absurd (.inl (congrArg some htext)) hunknown

/-- What the viewer remembers is not sent. -/
theorem forward_known {clip : Clip} (h : sendable clip.text = true → s.Known clip.text) :
    s.forwardLocalClipboard clip = s := by
  unfold forwardLocalClipboard
  split
  · rfl
  next hallowed =>
    split
    · rfl
    next hsize =>
      have hnonempty : clip.text.isEmpty = false := by
        simp only [Bool.or_eq_true, not_or, Bool.not_eq_true] at hallowed
        exact hallowed.2
      have hknown := h (sendable_iff.mpr ⟨hnonempty, Nat.le_of_not_lt hsize⟩)
      rw [if_pos]
      rcases hknown with hsent | hremote
      · simp [shouldForwardClipboard, hsent]
      · simp [shouldForwardClipboard, hremote]

theorem Orderly.deliver (h : s.Orderly hash) : s.deliver.Orderly hash := by
  unfold Clipboards.deliver
  split
  · exact h
  next text rest hreports =>
    refine ⟨h.allowed, h.connected, ?_⟩
    rcases h.texts with hblank | ⟨own, hout, hlast⟩ | ⟨own, hin, hlast⟩
    · cases hblank.reports.symm.trans hreports
    · cases hout.reports.symm.trans hreports
    · rcases hin.underway with ⟨hreport, hevents⟩ | ⟨hreport, -⟩
      · obtain ⟨rfl, rfl⟩ := List.cons.inj (hreports.symm.trans hreport)
        have hsize := (sendable_iff.mp hin.sendable).2
        refine .inr (.inr ⟨text, { hin with underway := .inr ⟨rfl, ?_⟩ }, hlast⟩)
        simp [hevents, Nat.not_lt.mpr hsize]
      · cases hreport.symm.trans hreports

/-- The text from the host comes into the local clipboard, or it is there. -/
theorem Inbound.received {text : String} (h : s.Inbound hash text)
    (hallow : s.allowClipboard = true) (hreports : s.reports = []) {ok : Bool}
    (hok : s.lastRemoteClipboard ≠ some text → ok = true) :
    (({ s with events := [] } : Clipboards).receiveRemoteClipboard ok text).Outbound hash
      text := by
  have hsize := (sendable_iff.mp h.sendable).2
  unfold receiveRemoteClipboard
  rw [if_neg (by simp [hallow]), if_neg (Nat.not_lt.mpr hsize)]
  split
  next hlast =>
    have hhere : s.localText = some text := h.unknown.resolve_right fun hnot => hnot hlast
    refine ⟨⟨hhere, hreports, ?_, ?_, ?_, fun _ _ => .inl h.there⟩, ?_⟩
    · exact fun event hevent => nomatch hevent
    · simp [pending, h.clips]
    · simp [h.commands]
    · exact fun hunknown _ => absurd (.inr hlast) hunknown
  next hother =>
    rw [if_pos (hok hother)]
    refine ⟨⟨rfl, hreports, ?_, ?_, ?_, fun _ _ => .inl h.there⟩, ?_⟩
    · exact fun event hevent => nomatch hevent
    · simp [pending, h.clips]
    · simp [h.commands]
    · exact fun hunknown _ => absurd (.inr rfl) hunknown

/-- What the viewer's events leave alone. -/
def flags (s : Clipboards) : Bool × Bool × Option String × Bool :=
  (s.allowClipboard, s.sessionConnected, s.lastCopy, s.orderly)

theorem forward_flags (clip : Clip) : (s.forwardLocalClipboard clip).flags = s.flags := by
  unfold forwardLocalClipboard
  split
  · rfl
  · split
    · rfl
    · split <;> rfl

theorem receive_flags (ok : Bool) (text : String) :
    (s.receiveRemoteClipboard ok text).flags = s.flags := by
  unfold receiveRemoteClipboard
  split
  · rfl
  · split
    · rfl
    · split
      · rfl
      · split <;> rfl

theorem forward_orderly (clip : Clip) : (s.forwardLocalClipboard clip).orderly = s.orderly :=
  congrArg (·.2.2.2) (forward_flags clip)

theorem receive_orderly (ok : Bool) (text : String) :
    (s.receiveRemoteClipboard ok text).orderly = s.orderly :=
  congrArg (·.2.2.2) (receive_flags ok text)

theorem Orderly.outbound (h : s.Orderly hash) {text : String} (hflags : t.flags = s.flags)
    (hout : t.Outbound hash text)
    (hlast : ∀ last ∈ s.lastCopy, last = text ∧ sendable text = true) : t.Orderly hash := by
  obtain ⟨hallow, hconnected, hcopy, -⟩ : _ ∧ _ ∧ _ ∧ _ := by
    simpa only [flags, Prod.mk.injEq] using hflags
  refine ⟨hallow.trans h.allowed, hconnected.trans h.connected, .inr (.inl ⟨text, hout, ?_⟩)⟩
  rw [hcopy]
  exact hlast

theorem Carrying.popped {text : String} (h : s.Carrying text) {event : ClipboardEvent}
    {rest : List ClipboardEvent} (hevents : s.events = event :: rest) :
    ({ s with events := rest } : Clipboards).Carrying text := by
  refine { h with events := ?_, clips := ?_ }
  · intro other hother
    exact h.events other (hevents ▸ List.mem_cons_of_mem _ hother)
  · intro clip hclip
    refine h.clips clip ?_
    simp only [pending, hevents, List.flatMap_cons, List.mem_append] at hclip ⊢
    tauto

theorem Orderly.handle (h : s.Orderly hash) {ok : Bool}
    (hok : ∀ text ∈ s.nextRemote, s.lastRemoteClipboard ≠ some text → ok = true) :
    (s.handle ok).Orderly hash := by
  unfold Clipboards.handle
  split
  · exact h
  next clip rest hevents =>
    rcases h.texts with hblank | ⟨own, hout, hlast⟩ | ⟨own, hin, hlast⟩
    · cases hblank.events.symm.trans hevents
    · have htext : clip.text = own := hout.clips clip (by
        simp [pending, hevents, ClipboardEvent.clips])
      exact h.outbound (forward_flags clip)
        ((hout.toCarrying.popped hevents).forward h.allowed htext) hlast
    · rcases hin.underway with ⟨-, hnone⟩ | ⟨-, hone⟩
      · cases hnone.symm.trans hevents
      · cases hone.symm.trans hevents
  next text rest hevents =>
    rcases h.texts with hblank | ⟨own, hout, hlast⟩ | ⟨own, hin, hlast⟩
    · cases hblank.events.symm.trans hevents
    · exact absurd rfl (hout.events _ (hevents ▸ List.mem_cons_self) text)
    · rcases hin.underway with ⟨-, hnone⟩ | ⟨hreports, hone⟩
      · cases hnone.symm.trans hevents
      · obtain ⟨hsame, rfl⟩ := List.cons.inj (hone.symm.trans hevents)
        obtain rfl := ClipboardEvent.clipboardText.inj hsame
        have hwritten := hok own (by rw [nextRemote, hevents]; rfl)
        refine h.outbound (receive_flags ok own) (hin.received h.allowed hreports hwritten) ?_
        intro last hcopy
        obtain rfl := Option.some.inj (hlast.symm.trans hcopy)
        exact ⟨rfl, hin.sendable⟩
  next reason rest hevents =>
    rcases h.texts with hblank | ⟨own, hout, hlast⟩ | ⟨own, hin, hlast⟩
    · cases hblank.events.symm.trans hevents
    · refine ⟨h.allowed, h.connected, .inr (.inl ⟨own,
        { hout.toCarrying.popped hevents with due := ?_ }, hlast⟩)⟩
      intro hunknown hsendable
      rcases hout.due hunknown hsendable with hnew | hsome | ⟨found, hfound⟩
      · exact .inl hnew
      · exact .inr (.inl hsome)
      · refine .inr (.inr ⟨found, ?_⟩)
        rw [hevents] at hfound
        rcases List.mem_cons.mp hfound with hreason | hrest
        · cases hreason
        · exact hrest
    · rcases hin.underway with ⟨-, hnone⟩ | ⟨-, hone⟩
      · cases hnone.symm.trans hevents
      · cases hone.symm.trans hevents

theorem Orderly.hostTakes (h : s.Orderly hash) : s.hostTakes.Orderly hash := by
  unfold Clipboards.hostTakes
  split
  · exact h
  next clip rest hcommands =>
    rcases h.texts with hblank | ⟨own, hout, hlast⟩ | ⟨own, hin, hlast⟩
    · cases hblank.commands.symm.trans hcommands
    · have htext : clip.text = own := hout.commands clip (hcommands ▸ List.mem_cons_self)
      refine h.outbound rfl { hout with commands := ?_, known := ?_ } hlast
      · intro other hother
        exact hout.commands other (hcommands ▸ List.mem_cons_of_mem _ hother)
      · exact fun _ _ => .inl (congrArg some htext)
    · cases hin.commands.symm.trans hcommands

theorem Orderly.paste (h : s.Orderly hash) (ok : Bool) :
    (s.syncLocalClipboardToRemote ok).Orderly hash := by
  unfold syncLocalClipboardToRemote
  split
  · exact h
  · split
    next clip hclip =>
      split
      · exact h
      · rcases h.texts with hblank | ⟨own, hout, hlast⟩ | ⟨own, hin, hlast⟩
        · cases hblank.here.symm.trans hclip
        · exact h.outbound (forward_flags clip)
            (hout.toCarrying.forward h.allowed (hout.text_of_local hclip)) hlast
        · rw [forward_known (hin.before clip hclip).2]
          exact h
    next => exact h

/-- Copies out of turn are not forgotten. -/
theorem orderly_of_step {i : ClipboardsInput} (h : (s.step hash i).1.orderly = true) :
    s.orderly = true := by
  cases i with
  | copyLocal text => exact (copied_orderly h).1
  | copyRemote text => exact (copied_orderly h).1
  | poll =>
      simp only [Clipboards.step, Clipboards.poll] at h
      split at h
      · split at h <;> exact h
      · exact h
  | read ok =>
      simp only [Clipboards.step, Clipboards.read, Clipboards.observe] at h
      split at h
      · split at h
        · split at h
          · split at h <;> exact h
          · exact h
        · exact h
      · exact h
  | tell =>
      simp only [Clipboards.step, Clipboards.tell] at h
      split at h <;> exact h
  | deliver =>
      simp only [Clipboards.step, Clipboards.deliver] at h
      split at h <;> exact h
  | handle ok =>
      simp only [Clipboards.step, Clipboards.handle] at h
      split at h
      · exact h
      · rw [forward_orderly] at h
        exact h
      · rw [receive_orderly] at h
        exact h
      · exact h
  | hostTakes =>
      simp only [Clipboards.step, Clipboards.hostTakes] at h
      split at h <;> exact h
  | paste ok =>
      simp only [Clipboards.step, syncLocalClipboardToRemote] at h
      split at h
      · exact h
      · split at h
        · split at h
          · exact h
          · rw [forward_orderly] at h
            exact h
        · exact h
  | setClipboardEnabled enabled =>
      cases enabled
      · simp [Clipboards.step, setClipboardEnabled] at h
      · simpa [Clipboards.step, setClipboardEnabled] using h
  | connection connected => exact ((Bool.and_eq_true _ _).mp h).1
  | restart => cases h

theorem setClipboardEnabled_same (hallow : s.allowClipboard = true) (horderly : s.orderly = true) :
    (s.step hash (.setClipboardEnabled true)).1 = s := by
  cases s
  cases hallow
  cases horderly
  rfl

theorem connection_same (hconnected : s.sessionConnected = true) (horderly : s.orderly = true) :
    (s.step hash (.connection true)).1 = s := by
  cases s
  cases hconnected
  cases horderly
  rfl

theorem Orderly.step (h : s.orderly = true → s.Orderly hash) {i : ClipboardsInput}
    (hpasses : s.Passes hash i) (horderly : (s.step hash i).1.orderly = true) :
    (s.step hash i).1.Orderly hash := by
  have hbefore := orderly_of_step horderly
  have hs := h hbefore
  cases i with
  | copyLocal text =>
      obtain ⟨-, hsettled, hsendable⟩ := copied_orderly horderly
      exact hs.copyLocal hsettled hsendable (hpasses hbefore hsettled hsendable)
  | copyRemote text =>
      obtain ⟨-, hsettled, hsendable⟩ := copied_orderly horderly
      exact hs.copyRemote hsettled hsendable (hpasses hbefore hsettled hsendable)
  | poll => exact hs.poll
  | read ok => exact hs.read ok
  | tell => exact hs.tell
  | deliver => exact hs.deliver
  | handle ok => exact hs.handle (hpasses hbefore)
  | hostTakes => exact hs.hostTakes
  | paste ok => exact hs.paste ok
  | setClipboardEnabled enabled =>
      cases enabled with
      | true =>
          rw [setClipboardEnabled_same hs.allowed hbefore]
          exact hs
      | false => simp [Clipboards.step, setClipboardEnabled] at horderly
  | connection connected =>
      obtain rfl : connected = true := ((Bool.and_eq_true _ _).mp horderly).2
      rw [connection_same hs.connected hbefore]
      exact hs
  | restart => cases horderly

end Clipboards

/-- In every run, what is sent has been copied by the local user if the viewer keeps texts
from the remote side apart; and the clipboards become the same after every copy that can be
told from the texts before. -/
theorem clipboards_synchronised (hash : String → UInt64)
    (allowClipboard sessionConnected : Bool) (localText remoteText : Option String)
    (inputs : List ClipboardsInput) :
    ((clipboards hash).Along Clipboards.KeepsApart
        (.start allowClipboard sessionConnected localText remoteText) inputs →
      (clipboards hash).Along (Clipboards.EchoFree hash)
        (.start allowClipboard sessionConnected localText remoteText) inputs) ∧
    ((clipboards hash).Along (Clipboards.Passes hash)
        (.start allowClipboard sessionConnected localText remoteText) inputs →
      (clipboards hash).Along (Clipboards.Converged hash)
        (.start allowClipboard sessionConnected localText remoteText) inputs) := by
  constructor
  · intro hkeeps
    refine (clipboards hash).along_of_invariant (fun s i hs hstep => ?_)
      (Clipboards.start_apart ..) hkeeps
    have hnext := hs.step hash hstep
    exact ⟨hnext, hnext.sent⟩
  · intro hpasses
    refine (clipboards hash).along_of_invariant (I := fun s => s.orderly = true → s.Orderly hash)
      (fun s i hs hstep => ?_) (Clipboards.start_orderly hash localText remoteText) hpasses
    have hnext := fun horderly => Clipboards.Orderly.step hs hstep horderly
    exact ⟨hnext, fun horderly hsettled => (hnext horderly).converged hsettled⟩

def letterHash (text : String) : UInt64 :=
  UInt64.ofNat (text.toList.foldl (fun sum letter => 31 * sum + letter.toNat) 7)

/-- Both users copy, and every copy is processed before the next one. -/
def copiesInTurn : List ClipboardsInput :=
  [.poll, .read true, .tell, .handle true, .hostTakes,
    .copyRemote "a", .deliver, .handle true, .poll, .read true, .tell, .handle true,
    .copyLocal "bcd", .poll, .read true, .tell, .handle true, .hostTakes]

theorem clipboards_synchronised_in_turn :
    (clipboards letterHash).Along (Clipboards.EchoFree letterHash)
        (.start true true (some "old") (some "seen")) copiesInTurn ∧
      (clipboards letterHash).Along (Clipboards.Converged letterHash)
        (.start true true (some "old") (some "seen")) copiesInTurn :=
  ⟨(clipboards_synchronised letterHash true true (some "old") (some "seen") copiesInTurn).1
      (by decide),
    (clipboards_synchronised letterHash true true (some "old") (some "seen") copiesInTurn).2
      (by decide)⟩

/-- The remote user copies a text, the local user another one and the remote user the first
one again. -/
def firstTextAgain : List ClipboardsInput :=
  [.copyRemote "a", .deliver, .handle true, .poll, .read true, .tell, .handle true,
    .copyLocal "bcd", .poll, .read true, .tell, .handle true, .hostTakes,
    .copyRemote "a", .deliver]

/-- A text from the remote side has been read by the watcher when the next one comes. -/
def textOvertaken : List ClipboardsInput :=
  [.copyRemote "a", .deliver, .handle true, .poll, .read true, .copyRemote "bcd", .deliver,
    .tell, .handle true]

theorem clipboards_fall_apart :
    (¬ ∀ hash inputs, (clipboards hash).Along (Clipboards.Converged hash)
      (.start true true none none) inputs) ∧
    ¬ ∀ hash inputs, (clipboards hash).Along (Clipboards.EchoFree hash)
      (.start true true none none) inputs := by
  constructor
  · intro h
    have hlast := (clipboards letterHash).along_iff.mp
      (h letterHash (firstTextAgain ++ [.handle true])) firstTextAgain (.handle true) [] rfl
    have hlocal : some "bcd" = some "a" := (hlast rfl (by decide) "a" rfl).1
    simp at hlocal
  · intro h
    have hlast := (clipboards letterHash).along_iff.mp
      (h letterHash (textOvertaken ++ [.handle true])) textOvertaken (.handle true) [] rfl
    have hsent : Clip.mk "a" .remoteUser ∈ [Clip.mk "a" .remoteUser] := List.mem_cons_self
    exact absurd (hlast _ hsent) (by decide)

end EvertyDesk.Desktop
