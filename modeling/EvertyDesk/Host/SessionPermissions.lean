import EvertyDesk.Lib.Machine
import Mathlib.Logic.Function.Basic

/-!
What incoming sessions may do. One flag for the mouse and the keyboard, one for the
clipboard and one slot for the active session serve all of them: each session resets
the three when it starts, the end of the active one lifts the block, and commands of
the host user are for the active one.

The stores are steps of their own, and one thread takes the commands one after
another.
-/

namespace EvertyDesk.Host

structure Permissions where
  inputBlocked : Bool
  clipboardAllowed : Bool
deriving DecidableEq, Repr

/-- What a client sends for the host itself (not for a virtual machine). -/
inductive ClientInput where
  | mouse
  | key
  | clipboard
deriving DecidableEq, Repr

def Permissions.allows (p : Permissions) : ClientInput → Bool
  | .mouse | .key => !p.inputBlocked
  | .clipboard => p.clipboardAllowed

inductive SessionStage where
  | login
  /-- The start has lifted the block. -/
  | unblocked
  /-- The start has reset the clipboard as well. -/
  | reset
  | running
  /-- The end has found the session active, and is about to lift the block. -/
  | leaving
  | ended
deriving DecidableEq, Repr

/-- A `SetSessionPermissions` that was accepted, and whether its first store is done. -/
structure AcceptedCommand where
  sessionId : Nat
  permissions : Permissions
  blockedStored : Bool
deriving DecidableEq, Repr

structure SharedPermissions where
  blockRemoteInput : Bool
  allowRemoteClipboard : Bool
  activeSession : Option (Nat × String)
  command : Option AcceptedCommand
  stage : Nat → SessionStage
  /-- What each session has been given, by its start and by the commands for it. -/
  granted : Nat → Permissions

inductive PermissionInput where
  | unblockInput (sessionId : Nat)
  | resetClipboard (sessionId : Nat) (allowClipboard : Bool)
  | setActiveSession (sessionId : Nat) (peerId : String)
  | setSessionPermissions (sessionId : Nat) (peerId : String) (permissions : Permissions)
  | storeBlocked
  | storeClipboard
  | clientInput (sessionId : Nat) (kind : ClientInput)
  | clearActiveSession (sessionId : Nat)
  | unblockAtEnd (sessionId : Nat)
deriving DecidableEq, Repr

/-- The session that starts or ends. -/
def PermissionInput.actor : PermissionInput → Option Nat
  | unblockInput id | resetClipboard id _ | setActiveSession id _ | clearActiveSession id
  | unblockAtEnd id => some id
  | _ => none

namespace SharedPermissions

def start : SharedPermissions where
  blockRemoteInput := false
  allowRemoteClipboard := true
  activeSession := none
  command := none
  stage _ := .login
  granted _ := ⟨false, true⟩

variable (s : SharedPermissions)

def setStage (sessionId : Nat) (stage : SessionStage) : SharedPermissions :=
  { s with stage := Function.update s.stage sessionId stage }

def setRemoteInputBlocked (blocked : Bool) : SharedPermissions :=
  { s with blockRemoteInput := blocked }

def setRemoteClipboardAllowed (allowed : Bool) : SharedPermissions :=
  { s with allowRemoteClipboard := allowed }

def grantBlocked (sessionId : Nat) (blocked : Bool) : SharedPermissions :=
  let permissions : Permissions := ⟨blocked, (s.granted sessionId).clipboardAllowed⟩
  { s with granted := Function.update s.granted sessionId permissions }

def grantClipboard (sessionId : Nat) (allowed : Bool) : SharedPermissions :=
  let permissions : Permissions := ⟨(s.granted sessionId).inputBlocked, allowed⟩
  { s with granted := Function.update s.granted sessionId permissions }

/-- The output is whether a client's input takes effect. -/
def step : PermissionInput → SharedPermissions × Option Bool
  | .unblockInput id =>
      if s.stage id = .login then
        (((s.setRemoteInputBlocked false).grantBlocked id false).setStage id .unblocked, none)
      else (s, none)
  | .resetClipboard id allow =>
      if s.stage id = .unblocked then
        (((s.setRemoteClipboardAllowed allow).grantClipboard id allow).setStage id .reset, none)
      else (s, none)
  | .setActiveSession id peerId =>
      if s.stage id = .reset then
        ({ s.setStage id .running with activeSession := some (id, peerId) }, none)
      else (s, none)
  | .setSessionPermissions id peerId permissions =>
      if s.command = none ∧ s.activeSession = some (id, peerId) then
        ({ s with command := some ⟨id, permissions, false⟩ }, none)
      else (s, none)
  | .storeBlocked =>
      match s.command with
      | some ⟨id, permissions, false⟩ =>
          ({ (s.setRemoteInputBlocked permissions.inputBlocked).grantBlocked id
              permissions.inputBlocked with command := some ⟨id, permissions, true⟩ }, none)
      | _ => (s, none)
  | .storeClipboard =>
      match s.command with
      | some ⟨id, permissions, true⟩ =>
          ({ (s.setRemoteClipboardAllowed permissions.clipboardAllowed).grantClipboard id
              permissions.clipboardAllowed with command := none }, none)
      | _ => (s, none)
  | .clientInput id kind =>
      if s.stage id = .running then
        (s, some (Permissions.allows ⟨s.blockRemoteInput, s.allowRemoteClipboard⟩ kind))
      else (s, none)
  | .clearActiveSession id =>
      if s.stage id = .leaving ∨ s.stage id = .ended then (s, none)
      else if s.activeSession.any (·.1 = id) then
        ({ s.setStage id .leaving with activeSession := none }, none)
      else (s.setStage id .ended, none)
  | .unblockAtEnd id =>
      if s.stage id = .leaving then
        ((s.setRemoteInputBlocked false).setStage id .ended, none)
      else (s, none)

/-- The session counts on the flag for the mouse and the keyboard. -/
def InputInUse (sessionId : Nat) : Prop :=
  s.stage sessionId = .unblocked ∨ s.stage sessionId = .reset ∨ s.stage sessionId = .running

def ClipboardInUse (sessionId : Nat) : Prop :=
  s.stage sessionId = .reset ∨ s.stage sessionId = .running

/-- Every other session that counts on the flag has been given the value that is
stored. -/
def BlockedAgrees (sessionId : Nat) (blocked : Bool) : Prop :=
  ∀ other, other ≠ sessionId → s.InputInUse other → (s.granted other).inputBlocked = blocked

def ClipboardAgrees (sessionId : Nat) (allowed : Bool) : Prop :=
  ∀ other, other ≠ sessionId → s.ClipboardInUse other → (s.granted other).clipboardAllowed = allowed

/-- No store of one session's start, end or command takes from another what it has
been given. -/
def Agrees : PermissionInput → Prop
  | .unblockInput id | .unblockAtEnd id => s.BlockedAgrees id false
  | .resetClipboard id allow => s.ClipboardAgrees id allow
  | .storeBlocked =>
      ∀ command ∈ s.command, s.BlockedAgrees command.sessionId command.permissions.inputBlocked
  | .storeClipboard =>
      ∀ command ∈ s.command,
        s.ClipboardAgrees command.sessionId command.permissions.clipboardAllowed
  | _ => True

/-- The flags are what every session that counts on them has been given. -/
structure Isolated : Prop where
  input : ∀ id, s.InputInUse id → (s.granted id).inputBlocked = s.blockRemoteInput
  clipboard : ∀ id, s.ClipboardInUse id → (s.granted id).clipboardAllowed = s.allowRemoteClipboard

end SharedPermissions

def sharedPermissions : Machine SharedPermissions PermissionInput (Option Bool) :=
  ⟨SharedPermissions.step⟩

namespace SharedPermissions

section Steps

variable {s : SharedPermissions} {id : Nat}

theorem setStage_stage (stage : SessionStage) (other : Nat) :
    (s.setStage id stage).stage other = if other = id then stage else s.stage other :=
  Function.update_apply ..

theorem inputInUse_setStage {stage : SessionStage} {other : Nat}
    (h : (s.setStage id stage).InputInUse other) :
    other = id ∧ (stage = .unblocked ∨ stage = .reset ∨ stage = .running) ∨
      other ≠ id ∧ s.InputInUse other := by
  unfold InputInUse at h ⊢
  rw [setStage_stage] at h
  split at h
  · next hsame => exact .inl ⟨hsame, h⟩
  · next hother => exact .inr ⟨hother, h⟩

theorem clipboardInUse_setStage {stage : SessionStage} {other : Nat}
    (h : (s.setStage id stage).ClipboardInUse other) :
    other = id ∧ (stage = .reset ∨ stage = .running) ∨ other ≠ id ∧ s.ClipboardInUse other := by
  unfold ClipboardInUse at h ⊢
  rw [setStage_stage] at h
  split at h
  · next hsame => exact .inl ⟨hsame, h⟩
  · next hother => exact .inr ⟨hother, h⟩

/-- A session may go on to a stage in which it counts on flags that are as it has been
given them. -/
theorem Isolated.setStage {stage : SessionStage} (h : s.Isolated)
    (hinput : stage = .unblocked ∨ stage = .reset ∨ stage = .running →
      (s.granted id).inputBlocked = s.blockRemoteInput)
    (hclipboard : stage = .reset ∨ stage = .running →
      (s.granted id).clipboardAllowed = s.allowRemoteClipboard) :
    (s.setStage id stage).Isolated := by
  refine ⟨?_, ?_⟩
  · intro other hother
    rcases inputInUse_setStage hother with ⟨rfl, huse⟩ | ⟨-, huse⟩
    · exact hinput huse
    · exact h.input other huse
  · intro other hother
    rcases clipboardInUse_setStage hother with ⟨rfl, huse⟩ | ⟨-, huse⟩
    · exact hclipboard huse
    · exact h.clipboard other huse

theorem grantBlocked_self (blocked : Bool) : (s.grantBlocked id blocked).granted id =
    ⟨blocked, (s.granted id).clipboardAllowed⟩ :=
  Function.update_self ..

theorem grantClipboard_self (allowed : Bool) : (s.grantClipboard id allowed).granted id =
    ⟨(s.granted id).inputBlocked, allowed⟩ :=
  Function.update_self ..

/-- What is stored for a session is what it is given, and what the others have. -/
theorem Isolated.storeBlocked {blocked : Bool} (h : s.Isolated)
    (hagrees : s.BlockedAgrees id blocked) :
    ((s.setRemoteInputBlocked blocked).grantBlocked id blocked).Isolated := by
  refine ⟨?_, ?_⟩
  · intro other huse
    by_cases hother : other = id
    · subst hother
      rw [grantBlocked_self]
      rfl
    · have hsame := Function.update_of_ne hother
        (⟨blocked, (s.granted id).clipboardAllowed⟩ : Permissions) s.granted
      exact (congrArg Permissions.inputBlocked hsame).trans (hagrees other hother huse)
  · intro other huse
    have hkept : ((s.grantBlocked id blocked).granted other).clipboardAllowed =
        (s.granted other).clipboardAllowed := by
      by_cases hother : other = id
      · subst hother
        rw [grantBlocked_self]
      · exact congrArg Permissions.clipboardAllowed (Function.update_of_ne hother ..)
    exact hkept.trans (h.clipboard other huse)

theorem Isolated.storeClipboard {allowed : Bool} (h : s.Isolated)
    (hagrees : s.ClipboardAgrees id allowed) :
    ((s.setRemoteClipboardAllowed allowed).grantClipboard id allowed).Isolated := by
  refine ⟨?_, ?_⟩
  · intro other huse
    have hkept : ((s.grantClipboard id allowed).granted other).inputBlocked =
        (s.granted other).inputBlocked := by
      by_cases hother : other = id
      · subst hother
        rw [grantClipboard_self]
      · exact congrArg Permissions.inputBlocked (Function.update_of_ne hother ..)
    exact hkept.trans (h.input other huse)
  · intro other huse
    by_cases hother : other = id
    · subst hother
      rw [grantClipboard_self]
      rfl
    · have hsame := Function.update_of_ne hother
        (⟨(s.granted id).inputBlocked, allowed⟩ : Permissions) s.granted
      exact (congrArg Permissions.clipboardAllowed hsame).trans (hagrees other hother huse)

/-- The block is lifted for a session that leaves. -/
theorem Isolated.unblockAtEnd (h : s.Isolated) (hagrees : s.BlockedAgrees id false) :
    ((s.setRemoteInputBlocked false).setStage id .ended).Isolated := by
  refine ⟨?_, ?_⟩
  · intro other hother
    rcases inputInUse_setStage hother with ⟨-, huse⟩ | ⟨hne, huse⟩
    · simp at huse
    · exact hagrees other hne huse
  · intro other hother
    rcases clipboardInUse_setStage hother with ⟨-, huse⟩ | ⟨-, huse⟩
    · simp at huse
    · exact h.clipboard other huse

theorem step_isolated (h : s.Isolated) (input : PermissionInput) (hagrees : s.Agrees input) :
    (s.step input).1.Isolated := by
  cases input with
  | unblockInput id =>
      rw [step]
      split
      · refine (h.storeBlocked hagrees).setStage (fun _ => ?_) (by simp)
        rw [grantBlocked_self]
        rfl
      · exact h
  | resetClipboard id allow =>
      rw [step]
      split
      · next hstage =>
        refine (h.storeClipboard hagrees).setStage (fun _ => ?_) (fun _ => ?_)
        · rw [grantClipboard_self]
          exact h.input id (.inl hstage)
        · rw [grantClipboard_self]
          rfl
      · exact h
  | setActiveSession id peerId =>
      rw [step]
      split
      · next hstage =>
        have hnext : (s.setStage id .running).Isolated :=
          h.setStage (fun _ => h.input id (.inr (.inl hstage)))
            (fun _ => h.clipboard id (.inl hstage))
        exact ⟨hnext.input, hnext.clipboard⟩
      · exact h
  | setSessionPermissions id peerId permissions =>
      rw [step]
      split
      · exact ⟨h.input, h.clipboard⟩
      · exact h
  | storeBlocked =>
      rw [step]
      split
      · next id permissions hcommand =>
        have hnext := h.storeBlocked (hagrees _ hcommand)
        exact ⟨hnext.input, hnext.clipboard⟩
      · exact h
  | storeClipboard =>
      rw [step]
      split
      · next id permissions hcommand =>
        have hnext := h.storeClipboard (hagrees _ hcommand)
        exact ⟨hnext.input, hnext.clipboard⟩
      · exact h
  | clientInput id kind =>
      rw [step]
      split <;> exact h
  | clearActiveSession id =>
      rw [step]
      split
      · exact h
      split
      · have hnext : (s.setStage id .leaving).Isolated := h.setStage (by simp) (by simp)
        exact ⟨hnext.input, hnext.clipboard⟩
      · exact h.setStage (by simp) (by simp)
  | unblockAtEnd id =>
      rw [step]
      split
      · exact h.unblockAtEnd hagrees
      · exact h

/-- A session's stage is changed by its own start and end only. -/
theorem step_stage_of_ne {input : PermissionInput} {other : Nat}
    (h : input.actor ≠ some other) : (s.step input).1.stage other = s.stage other := by
  have hne {id : Nat} (hactor : some id ≠ some other) : other ≠ id :=
    fun hsame => hactor (congrArg some hsame.symm)
  cases input with
  | unblockInput id | resetClipboard id | setActiveSession id | unblockAtEnd id =>
      rw [step]
      split
      · exact Function.update_of_ne (hne h) ..
      · rfl
  | clearActiveSession id =>
      rw [step]
      split
      · rfl
      · split <;> exact Function.update_of_ne (hne h) ..
  | setSessionPermissions | storeBlocked | storeClipboard | clientInput =>
      rw [step]
      split <;> rfl

theorem run_stage_of_ne {inputs : List PermissionInput} {other : Nat}
    (h : ∀ input ∈ inputs, input.actor ≠ some other) :
    (sharedPermissions.run s inputs).stage other = s.stage other :=
  sharedPermissions.invariant (C := fun _ input => input.actor ≠ some other)
    (I := fun t => t.stage other = s.stage other)
    (fun _ _ hkept hinput => (step_stage_of_ne hinput).trans hkept) rfl
    (Machine.along_of_inputs _ h s)

theorem isolated_start : start.Isolated := by
  refine ⟨?_, ?_⟩
  · intro id huse
    rcases huse with h | h | h <;> cases h
  · intro id huse
    rcases huse with h | h <;> cases h

end Steps

end SharedPermissions

/-- The input of a running session takes effect as the session has been given it, in
every run in which no store of another session's start, end or command takes that
away. -/
theorem permissions_isolated {inputs : List PermissionInput}
    (h : sharedPermissions.Along SharedPermissions.Agrees SharedPermissions.start inputs)
    {before after : List PermissionInput} {id : Nat} {kind : ClientInput}
    (hsplit : inputs = before ++ .clientInput id kind :: after)
    (hrunning : (sharedPermissions.run SharedPermissions.start before).stage id = .running) :
    (sharedPermissions.step (sharedPermissions.run SharedPermissions.start before)
        (.clientInput id kind)).2 =
      some (((sharedPermissions.run SharedPermissions.start before).granted id).allows kind) := by
  subst hsplit
  have hbefore := ((sharedPermissions.along_append _ _ _ _).mp h).1
  have hisolated := sharedPermissions.invariant (I := SharedPermissions.Isolated)
    (fun _ input hs hagrees => SharedPermissions.step_isolated hs input hagrees)
    SharedPermissions.isolated_start hbefore
  have hinput := hisolated.input id (.inr (.inr hrunning))
  have hclipboard := hisolated.clipboard id (.inr hrunning)
  change (SharedPermissions.step _ _).2 = _
  rw [SharedPermissions.step, if_pos hrunning, ← hinput, ← hclipboard]

def startSession (id : Nat) : List PermissionInput :=
  [.unblockInput id, .resetClipboard id true, .setActiveSession id "peer"]

def blockSession (id : Nat) : List PermissionInput :=
  [.setSessionPermissions id "peer" ⟨true, true⟩, .storeBlocked, .storeClipboard]

/-- A session that is blocked ends, and another one starts. -/
def oneAfterAnother : List PermissionInput :=
  startSession 1 ++ blockSession 1 ++
    [.clientInput 1 .mouse, .clearActiveSession 1, .unblockAtEnd 1] ++ startSession 2 ++
    [.clientInput 2 .mouse]

/-- The second has not started up to its first step, and the first is over by then. -/
theorem oneAfterAnother_unused {n id other : Nat} (hother : other ≠ id)
    (hid : n ≤ 8 ∧ id = 1 ∨ 9 ≤ n ∧ n ≤ 10 ∧ id = 2) :
    ¬ (sharedPermissions.run SharedPermissions.start
      (oneAfterAnother.take n)).InputInUse other := by
  have hfirst : ∀ n, 9 ≤ n → n ≤ 10 → (sharedPermissions.run SharedPermissions.start
      (oneAfterAnother.take n)).stage 1 = .ended := by
    intro n hlow hhigh
    obtain rfl | rfl : n = 9 ∨ n = 10 := by omega
    · decide
    · decide
  have hsecond : ∀ n ≤ 9, (sharedPermissions.run SharedPermissions.start
      (oneAfterAnother.take n)).stage 2 = .login := by decide
  have hfresh (hone : other ≠ 1) (htwo : other ≠ 2) : (sharedPermissions.run
      SharedPermissions.start (oneAfterAnother.take n)).stage other = .login := by
    apply SharedPermissions.run_stage_of_ne
    intro input hinput
    have hactor : ∀ input ∈ oneAfterAnother, input.actor ∈ [none, some 1, some 2] := by decide
    have hknown := hactor input (List.mem_of_mem_take hinput)
    rintro hsome
    simp [hsome, hone, htwo] at hknown
  have hunused : (sharedPermissions.run SharedPermissions.start
      (oneAfterAnother.take n)).stage other = .login ∨
      (sharedPermissions.run SharedPermissions.start
        (oneAfterAnother.take n)).stage other = .ended := by
    by_cases hone : other = 1
    · subst hone
      exact .inr (hfirst n (by omega) (by omega))
    by_cases htwo : other = 2
    · subst htwo
      exact .inl (hsecond n (by omega))
    exact .inl (hfresh hone htwo)
  rintro (h | h | h) <;> simp [h] at hunused

theorem oneAfterAnother_agrees {n id : Nat} (hid : n ≤ 8 ∧ id = 1 ∨ 9 ≤ n ∧ n ≤ 10 ∧ id = 2)
    (value : Bool) :
    let s := sharedPermissions.run SharedPermissions.start (oneAfterAnother.take n)
    s.BlockedAgrees id value ∧ s.ClipboardAgrees id value :=
  ⟨fun _ hother huse => absurd huse (oneAfterAnother_unused hother hid),
    fun _ hother huse => absurd (.inr huse) (oneAfterAnother_unused hother hid)⟩

theorem permissions_isolated_two :
    let s := sharedPermissions.run SharedPermissions.start (oneAfterAnother.take 12)
    (sharedPermissions.step s (.clientInput 2 .mouse)).2 = some ((s.granted 2).allows .mouse) := by
  have hagrees : sharedPermissions.Along SharedPermissions.Agrees SharedPermissions.start
      oneAfterAnother := by
    refine ⟨?_, ?_, trivial, trivial, ?_, ?_, trivial, trivial, ?_, ?_, ?_, trivial, trivial,
      trivial⟩
    · exact (oneAfterAnother_agrees (n := 0) (.inl ⟨by decide, rfl⟩) false).1
    · exact (oneAfterAnother_agrees (n := 1) (.inl ⟨by decide, rfl⟩) true).2
    · rintro command hcommand
      obtain rfl := Option.mem_some.mp hcommand
      exact (oneAfterAnother_agrees (n := 4) (.inl ⟨by decide, rfl⟩) true).1
    · rintro command hcommand
      obtain rfl := Option.mem_some.mp hcommand
      exact (oneAfterAnother_agrees (n := 5) (.inl ⟨by decide, rfl⟩) true).2
    · exact (oneAfterAnother_agrees (n := 8) (.inl ⟨by decide, rfl⟩) false).1
    · exact (oneAfterAnother_agrees (n := 9) (.inr ⟨by decide, by decide, rfl⟩) false).1
    · exact (oneAfterAnother_agrees (n := 10) (.inr ⟨by decide, by decide, rfl⟩) true).2
  exact permissions_isolated hagrees rfl rfl

/-- The second session's start lifts the first one's block. -/
theorem second_session_lifts_block :
    ¬ ∀ (inputs before after : List PermissionInput) (id : Nat) (kind : ClientInput),
      inputs = before ++ .clientInput id kind :: after →
      (sharedPermissions.run SharedPermissions.start before).stage id = .running →
      (sharedPermissions.step (sharedPermissions.run SharedPermissions.start before)
          (.clientInput id kind)).2 =
        some (((sharedPermissions.run SharedPermissions.start before).granted id).allows kind) := by
  intro hall
  have hmouse := hall _ (startSession 1 ++ blockSession 1 ++ startSession 2) [] 1 .mouse rfl rfl
  exact absurd hmouse (by decide)

end EvertyDesk.Host
