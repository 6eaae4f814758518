import EvertyDesk.Lib.Machine
import Mathlib.Logic.Function.Basic

/-!
The kill switch of the host user. It is one flag for all sessions: whichever loop
comes first takes it, and every session clears it once when its loop starts, some time
after it has been announced.
-/

namespace EvertyDesk.Host

inductive KickPhase where
  | login
  /-- `SessionStarted` is out, the input loop has not started. -/
  | announced
  | running
  /-- A test session: it has no `SessionStarted`, but its loop takes kicks as well. -/
  | evrt2Only
  | ended
deriving DecidableEq, Repr

structure KickSwitch where
  kickActiveSession : Bool
  phase : Nat → KickPhase
  /-- A kick has come since the session's `SessionStarted`. -/
  kicked : Nat → Bool

inductive KickInput where
  | requestKickActiveSession
  | sessionStarted (sessionId : Nat)
  | clearKickRequest (sessionId : Nat)
  | startEvrt2Only (sessionId : Nat)
  | takeKickRequest (sessionId : Nat)
  /-- The session ends, but not by a kick. -/
  | sessionEnded (sessionId : Nat)
deriving DecidableEq, Repr

/-- The session whose loop or start or end it is. -/
def KickInput.actor : KickInput → Option Nat
  | requestKickActiveSession => none
  | sessionStarted id | clearKickRequest id | startEvrt2Only id | takeKickRequest id
  | sessionEnded id => some id

namespace KickSwitch

def start : KickSwitch where
  kickActiveSession := false
  phase _ := .login
  kicked _ := false

variable (s : KickSwitch)

def setPhase (sessionId : Nat) (phase : KickPhase) : KickSwitch :=
  { s with phase := Function.update s.phase sessionId phase }

theorem setPhase_phase (id other : Nat) (phase : KickPhase) :
    (s.setPhase id phase).phase other = if other = id then phase else s.phase other :=
  Function.update_apply ..

/-- The output is whether the loop that asks finds a kick, and ends. -/
def step : KickInput → KickSwitch × Option Bool
  | .requestKickActiveSession =>
      ({ s with kickActiveSession := true, kicked := fun _ => true }, none)
  | .sessionStarted id =>
      if s.phase id = .login then
        ({ s.setPhase id .announced with kicked := Function.update s.kicked id false }, none)
      else (s, none)
  | .clearKickRequest id =>
      if s.phase id = .announced then
        ({ s.setPhase id .running with kickActiveSession := false }, none)
      else (s, none)
  | .startEvrt2Only id =>
      if s.phase id = .login then
        ({ s.setPhase id .evrt2Only with kickActiveSession := false }, none)
      else (s, none)
  | .takeKickRequest id =>
      if s.phase id = .running ∨ s.phase id = .evrt2Only then
        if s.kickActiveSession then
          ({ s.setPhase id .ended with kickActiveSession := false }, some true)
        else (s, some false)
      else (s, none)
  | .sessionEnded id => (s.setPhase id .ended, none)

/-- The session has been announced and has not ended. -/
def Open (sessionId : Nat) : Prop := s.phase sessionId = .announced ∨ s.phase sessionId = .running

/-- The session has been kicked, and goes on. -/
def Owed (sessionId : Nat) : Prop := s.Open sessionId ∧ s.kicked sessionId = true

/-- A kick is cleared only when no session is still to be ended by it, and taken only
when no other session is. -/
def Passes : KickInput → Prop
  | .clearKickRequest _ | .startEvrt2Only _ => ∀ other, ¬ s.Owed other
  | .takeKickRequest id => ∀ other, other ≠ id → ¬ s.Owed other
  | _ => True

end KickSwitch

def kickSwitch : Machine KickSwitch KickInput (Option Bool) := ⟨KickSwitch.step⟩

/-- A kick was requested after the session's `SessionStarted`. -/
def KickedSince (sessionId : Nat) (inputs : List KickInput) : Prop :=
  ∃ earlier later, inputs = earlier ++ .requestKickActiveSession :: later ∧
    .sessionStarted sessionId ∈ earlier

theorem kickedSince_append {id : Nat} {inputs : List KickInput} {input : KickInput} :
    KickedSince id (inputs ++ [input]) ↔ KickedSince id inputs ∨
      input = .requestKickActiveSession ∧ .sessionStarted id ∈ inputs := by
  constructor
  · rintro ⟨earlier, later, hsplit, hstarted⟩
    rcases List.eq_nil_or_concat later with rfl | ⟨later, last, rfl⟩
    · obtain ⟨rfl, hlast⟩ := List.append_inj' hsplit rfl
      exact .inr ⟨(List.cons.inj hlast).1, hstarted⟩
    · rw [List.concat_eq_append, ← List.cons_append, ← List.append_assoc] at hsplit
      obtain ⟨rfl, -⟩ := List.append_inj' hsplit rfl
      exact .inl ⟨earlier, later, rfl, hstarted⟩
  · rintro (⟨earlier, later, rfl, hstarted⟩ | ⟨rfl, hstarted⟩)
    · exact ⟨earlier, later ++ [input], by simp, hstarted⟩
    · exact ⟨inputs, [], rfl, hstarted⟩

namespace KickSwitch

/-- What the state says of the inputs so far. A kick that is set came after every
session whose loop runs was announced. -/
structure Recorded (inputs : List KickInput) (s : KickSwitch) : Prop where
  login : ∀ id, s.phase id = .login → .sessionStarted id ∉ inputs
  started : ∀ id, s.Open id → .sessionStarted id ∈ inputs
  kicked : ∀ id, s.Open id → (s.kicked id = true ↔ KickedSince id inputs)
  running : s.kickActiveSession = true → ∀ id, s.phase id = .running → s.kicked id = true

/-- Every kick is still set until it has ended the sessions that it was meant for. -/
def Kept (s : KickSwitch) : Prop := ∀ id, s.Owed id → s.kickActiveSession = true

section Steps

variable {s next : KickSwitch} {inputs : List KickInput} {input : KickInput}

/-- An input that neither announces a session nor kicks. -/
theorem Recorded.quiet (h : s.Recorded inputs)
    (hstart : ∀ id, input = .sessionStarted id → next.phase id ≠ .login)
    (hkick : input ≠ .requestKickActiveSession)
    (hlogin : ∀ id, next.phase id = .login → s.phase id = .login)
    (hopen : ∀ id, next.Open id → s.Open id) (hkicked : next.kicked = s.kicked)
    (hrunning : next.kickActiveSession = true → s.kickActiveSession = true ∧
      ∀ id, next.phase id = .running → s.phase id = .running) :
    next.Recorded (inputs ++ [input]) := by
  refine ⟨?_, ?_, ?_, ?_⟩
  · intro id hphase member
    rcases List.mem_append.mp member with hbefore | hlast
    · exact h.login id (hlogin id hphase) hbefore
    · exact hstart id (List.mem_singleton.mp hlast).symm hphase
  · intro id hid
    exact List.mem_append_left _ (h.started id (hopen id hid))
  · intro id hid
    rw [hkicked, h.kicked id (hopen id hid), kickedSince_append]
    simp [hkick]
  · intro hflag id hphase
    obtain ⟨hset, hsame⟩ := hrunning hflag
    rw [hkicked]
    exact h.running hset id (hsame id hphase)

theorem Recorded.same (h : s.Recorded inputs)
    (hstart : ∀ id, input = .sessionStarted id → s.phase id ≠ .login)
    (hkick : input ≠ .requestKickActiveSession) : s.Recorded (inputs ++ [input]) :=
  h.quiet hstart hkick (fun _ hphase => hphase) (fun _ hopen => hopen) rfl
    fun hflag => ⟨hflag, fun _ hphase => hphase⟩

/-- A session that goes on to its loop, or ends, with no kick set. -/
theorem Recorded.setPhase {id : Nat} {phase : KickPhase} (h : s.Recorded inputs)
    (hstart : ∀ id, input ≠ .sessionStarted id) (hkick : input ≠ .requestKickActiveSession)
    (hphase : phase ≠ .login) (hopen : phase = .announced ∨ phase = .running → s.Open id) :
    ({ s.setPhase id phase with kickActiveSession := false } : KickSwitch).Recorded
      (inputs ++ [input]) := by
  refine h.quiet (fun other hother => absurd hother (hstart other)) hkick ?_ ?_ rfl
    (fun hflag => by cases hflag)
  · intro other hother
    grind [setPhase_phase]
  · intro other hother
    grind [setPhase_phase, Open]

theorem Recorded.announce {id : Nat} (h : s.Recorded inputs) (hlogin : s.phase id = .login) :
    ({ s.setPhase id .announced with kicked := Function.update s.kicked id false } :
      KickSwitch).Recorded (inputs ++ [.sessionStarted id]) := by
  have hnone : ¬ KickedSince id inputs := by
    rintro ⟨earlier, later, rfl, hstarted⟩
    exact h.login id hlogin (List.mem_append_left _ hstarted)
  refine ⟨?_, ?_, ?_, ?_⟩
  · intro other hother
    have := h.login other
    grind [setPhase_phase]
  · intro other hother
    have := h.started other
    grind [setPhase_phase, Open]
  · intro other hother
    rw [kickedSince_append]
    have := h.kicked other
    grind [setPhase_phase, Open]
  · intro hflag other hother
    have := h.running hflag other
    grind [setPhase_phase]

theorem recorded_step (h : s.Recorded inputs) (input : KickInput) :
    (s.step input).1.Recorded (inputs ++ [input]) := by
  cases input with
  | requestKickActiveSession =>
      refine ⟨?_, ?_, ?_, fun _ _ _ => rfl⟩
      · intro id hphase member
        exact h.login id hphase (by simpa using member)
      · exact fun id hid => List.mem_append_left _ (h.started id hid)
      · intro id hid
        rw [kickedSince_append]
        exact ⟨fun _ => .inr ⟨rfl, h.started id hid⟩, fun _ => rfl⟩
  | sessionStarted id =>
      rw [step]
      split
      · next hlogin => exact h.announce hlogin
      · next hbusy => exact h.same (by simpa using hbusy) (by simp)
  | clearKickRequest id =>
      rw [step]
      split
      · next hannounced => exact h.setPhase (by simp) (by simp) (by decide) fun _ => .inl hannounced
      · exact h.same (by simp) (by simp)
  | startEvrt2Only id =>
      rw [step]
      split
      · exact h.setPhase (by simp) (by simp) (by decide) (by simp)
      · exact h.same (by simp) (by simp)
  | takeKickRequest id =>
      rw [step]
      split
      · split
        · exact h.setPhase (by simp) (by simp) (by decide) (by simp)
        · exact h.same (by simp) (by simp)
      · exact h.same (by simp) (by simp)
  | sessionEnded id =>
      refine h.quiet (by simp) (by simp) ?_ ?_ rfl fun hflag => ⟨hflag, ?_⟩
      · intro other hother
        grind [step, setPhase_phase]
      · intro other hother
        grind [step, setPhase_phase, Open]
      · intro other hother
        grind [step, setPhase_phase]

theorem Kept.of_owed (h : s.Kept) (howed : ∀ id, next.Owed id → s.Owed id)
    (hflag : next.kickActiveSession = s.kickActiveSession) : next.Kept :=
  fun id hid => hflag.trans (h id (howed id hid))

/-- A session that goes on to its loop, or ends, is owed no more than before. -/
theorem owed_setPhase {id other : Nat} {phase : KickPhase} {flag : Bool}
    (hopen : phase = .announced ∨ phase = .running → s.Open id)
    (h : Owed { s.setPhase id phase with kickActiveSession := flag } other) :
    s.Owed other ∧ (other = id → phase = .announced ∨ phase = .running) := by
  obtain ⟨hphase, hkicked⟩ := h
  have hset := s.setPhase_phase id other phase
  by_cases hsame : other = id
  · rw [if_pos hsame] at hset
    have hgoes : phase = .announced ∨ phase = .running := by
      simpa only [Open, hset] using hphase
    exact ⟨⟨hsame ▸ hopen hgoes, hkicked⟩, fun _ => hgoes⟩
  · rw [if_neg hsame] at hset
    exact ⟨⟨by simpa only [Open, hset] using hphase, hkicked⟩, fun habsurd => absurd habsurd hsame⟩

theorem kept_step (h : s.Kept) (input : KickInput) (hpasses : s.Passes input) :
    (s.step input).1.Kept := by
  cases input with
  | requestKickActiveSession => exact fun _ _ => rfl
  | sessionStarted id =>
      rw [step]
      split
      · refine h.of_owed ?_ rfl
        rintro other ⟨hopen, hkicked⟩
        by_cases hsame : other = id
        · subst hsame
          cases (Function.update_self ..).symm.trans hkicked
        · refine ⟨?_, (Function.update_of_ne hsame ..).symm.trans hkicked⟩
          simpa only [Open, setPhase_phase, if_neg hsame] using hopen
      · exact h
  | clearKickRequest id =>
      rw [step]
      split
      · next hannounced =>
        intro other howed
        exact absurd (owed_setPhase (fun _ => .inl hannounced) howed).1 (hpasses other)
      · exact h
  | startEvrt2Only id =>
      rw [step]
      split
      · intro other howed
        exact absurd (owed_setPhase (by simp) howed).1 (hpasses other)
      · exact h
  | takeKickRequest id =>
      rw [step]
      split
      · split
        · intro other howed
          obtain ⟨hbefore, hgoes⟩ := owed_setPhase (by simp) howed
          exact absurd hbefore (hpasses other fun hsame => by simpa using hgoes hsame)
        · exact h
      · exact h
  | sessionEnded id =>
      refine h.of_owed ?_ rfl
      intro other howed
      have hended : Owed { s.setPhase id .ended with kickActiveSession := s.kickActiveSession }
          other := howed
      exact (owed_setPhase (by simp) hended).1

/-- A session's phase is changed by its own inputs only. -/
theorem step_phase_of_ne {input : KickInput} {other : Nat} (h : input.actor ≠ some other) :
    (s.step input).1.phase other = s.phase other := by
  have hne {id : Nat} (hactor : some id ≠ some other) : other ≠ id :=
    fun hsame => hactor (congrArg some hsame.symm)
  cases input with
  | requestKickActiveSession => rfl
  | sessionStarted id | clearKickRequest id | startEvrt2Only id =>
      rw [step]
      split
      · exact Function.update_of_ne (hne h) ..
      · rfl
  | takeKickRequest id =>
      rw [step]
      split
      · split
        · exact Function.update_of_ne (hne h) ..
        · rfl
      · rfl
  | sessionEnded id => exact Function.update_of_ne (hne h) ..

theorem run_phase_of_ne {inputs : List KickInput} {other : Nat}
    (h : ∀ input ∈ inputs, input.actor ≠ some other) :
    (kickSwitch.run s inputs).phase other = s.phase other :=
  kickSwitch.invariant (C := fun _ input => input.actor ≠ some other)
    (I := fun t => t.phase other = s.phase other)
    (fun _ _ hkept hinput => (step_phase_of_ne hinput).trans hkept) rfl
    (Machine.along_of_inputs _ h s)

theorem recorded_start : start.Recorded [] := by
  refine ⟨by simp, ?_, ?_, fun hflag => by cases hflag⟩
  · intro id hid
    rcases hid with hid | hid <;> cases hid
  · intro id hid
    rcases hid with hid | hid <;> cases hid

theorem kept_start : start.Kept := by
  rintro id ⟨-, hkicked⟩
  cases hkicked

/-- A loop finds the kick that is set. -/
theorem take_running {id : Nat} (hrunning : s.phase id = .running) :
    (s.step (.takeKickRequest id)).2 = some s.kickActiveSession ∧
      (s.kickActiveSession = true → (s.step (.takeKickRequest id)).1.phase id = .ended) := by
  rw [step, if_pos (.inl hrunning)]
  cases hflag : s.kickActiveSession with
  | true => exact ⟨rfl, fun _ => by simp [setPhase_phase]⟩
  | false => exact ⟨rfl, fun habsurd => by cases habsurd⟩

end Steps

end KickSwitch

theorem run_recorded (inputs : List KickInput) :
    (kickSwitch.run KickSwitch.start inputs).Recorded inputs :=
  kickSwitch.invariant_history (I := KickSwitch.Recorded)
    (fun _ _ input h _ => KickSwitch.recorded_step h input) KickSwitch.recorded_start
    (kickSwitch.along_of_forall (fun _ _ => trivial) KickSwitch.start inputs)

/-- Whatever the order, a session is not ended by kicks that came before its
`SessionStarted`. -/
theorem kickedSince_of_taken {before : List KickInput} {id : Nat}
    (hrunning : (kickSwitch.run KickSwitch.start before).phase id = .running)
    (htaken : (kickSwitch.step (kickSwitch.run KickSwitch.start before)
      (.takeKickRequest id)).2 = some true) : KickedSince id before := by
  have hrecorded := run_recorded before
  have hset : (kickSwitch.run KickSwitch.start before).kickActiveSession = true :=
    Option.some.inj ((KickSwitch.take_running hrunning).1.symm.trans htaken)
  exact (hrecorded.kicked id (.inr hrunning)).mp (hrecorded.running hset id hrunning)

/-- A loop that asks is ended if and only if a kick has come since its session's
`SessionStarted`, in every run in which no kick is cleared or taken while another
session is still to be ended by it. -/
theorem kick_ends_session {inputs : List KickInput}
    (h : kickSwitch.Along KickSwitch.Passes KickSwitch.start inputs)
    {before after : List KickInput} {id : Nat}
    (hsplit : inputs = before ++ .takeKickRequest id :: after)
    (hrunning : (kickSwitch.run KickSwitch.start before).phase id = .running) :
    ((kickSwitch.step (kickSwitch.run KickSwitch.start before)
        (.takeKickRequest id)).2 = some true ↔ KickedSince id before) ∧
      (KickedSince id before → (kickSwitch.step (kickSwitch.run KickSwitch.start before)
        (.takeKickRequest id)).1.phase id = .ended) := by
  subst hsplit
  have hbefore := ((kickSwitch.along_append _ _ _ _).mp h).1
  have hkept : (kickSwitch.run KickSwitch.start before).Kept :=
    kickSwitch.invariant (I := KickSwitch.Kept)
      (fun _ input hs hpasses => KickSwitch.kept_step hs input hpasses)
      KickSwitch.kept_start hbefore
  obtain ⟨houtput, hends⟩ := KickSwitch.take_running hrunning
  have hset : KickedSince id before →
      (kickSwitch.run KickSwitch.start before).kickActiveSession = true := fun hsince =>
    hkept id ⟨.inr hrunning, ((run_recorded before).kicked id (.inr hrunning)).mpr hsince⟩
  refine ⟨⟨kickedSince_of_taken hrunning, ?_⟩, fun hsince => hends (hset hsince)⟩
  intro hsince
  exact houtput.trans (congrArg some (hset hsince))

/-- A session is kicked, and then another one. -/
def twoKicks : List KickInput :=
  [.sessionStarted 1, .clearKickRequest 1, .requestKickActiveSession, .takeKickRequest 1,
    .sessionStarted 2, .clearKickRequest 2, .requestKickActiveSession, .takeKickRequest 2]

/-- The second has not been announced while the first goes on. -/
theorem twoKicks_closed {n other : Nat} (h : other ≠ 1 ∧ n ≤ 4 ∨ other ≠ 2 ∧ 4 ≤ n ∧ n ≤ 7) :
    ¬ (kickSwitch.run KickSwitch.start (twoKicks.take n)).Open other := by
  have hfirst : ∀ n ≤ 7, 4 ≤ n →
      (kickSwitch.run KickSwitch.start (twoKicks.take n)).phase 1 = .ended := by decide
  have hsecond : ∀ n ≤ 4,
      (kickSwitch.run KickSwitch.start (twoKicks.take n)).phase 2 = .login := by decide
  have hfresh (hone : other ≠ 1) (htwo : other ≠ 2) :
      (kickSwitch.run KickSwitch.start (twoKicks.take n)).phase other = .login := by
    apply KickSwitch.run_phase_of_ne
    intro input hinput hactor
    have hknown : ∀ input ∈ twoKicks, input.actor ∈ [none, some 1, some 2] := by decide
    simpa [hactor, hone, htwo] using hknown input (List.mem_of_mem_take hinput)
  have hclosed : (kickSwitch.run KickSwitch.start (twoKicks.take n)).phase other = .login ∨
      (kickSwitch.run KickSwitch.start (twoKicks.take n)).phase other = .ended := by
    by_cases hone : other = 1
    · subst hone
      exact .inr (hfirst n (by omega) (by omega))
    by_cases htwo : other = 2
    · subst htwo
      exact .inl (hsecond n (by omega))
    exact .inl (hfresh hone htwo)
  rintro (h | h) <;> simp [h] at hclosed

theorem kick_ends_session_two :
    let s := kickSwitch.run KickSwitch.start (twoKicks.take 7)
    ((kickSwitch.step s (.takeKickRequest 2)).2 = some true ↔ KickedSince 2 (twoKicks.take 7)) ∧
      (KickedSince 2 (twoKicks.take 7) →
        (kickSwitch.step s (.takeKickRequest 2)).1.phase 2 = .ended) := by
  have hpasses : kickSwitch.Along KickSwitch.Passes KickSwitch.start twoKicks := by
    refine ⟨trivial, ?_, trivial, ?_, trivial, ?_, trivial, ?_, trivial⟩
    · rintro other ⟨hopen, hkicked⟩
      by_cases hother : other = 1
      · subst hother
        cases hkicked
      · exact twoKicks_closed (n := 1) (.inl ⟨hother, by decide⟩) hopen
    · rintro other hother ⟨hopen, -⟩
      exact twoKicks_closed (n := 3) (.inl ⟨hother, by decide⟩) hopen
    · rintro other ⟨hopen, hkicked⟩
      by_cases hother : other = 2
      · subst hother
        cases hkicked
      · exact twoKicks_closed (n := 5) (.inr ⟨hother, by decide, by decide⟩) hopen
    · rintro other hother ⟨hopen, -⟩
      exact twoKicks_closed (n := 7) (.inr ⟨hother, by decide, by decide⟩) hopen
  exact kick_ends_session hpasses rfl rfl

/-- A kick between the announcement of a session and the start of its loop is lost. -/
theorem early_kick_is_lost :
    ¬ ∀ (inputs before after : List KickInput) (id : Nat),
      inputs = before ++ .takeKickRequest id :: after →
      (kickSwitch.run KickSwitch.start before).phase id = .running →
      ((kickSwitch.step (kickSwitch.run KickSwitch.start before)
          (.takeKickRequest id)).2 = some true ↔ KickedSince id before) ∧
        (KickedSince id before → (kickSwitch.step (kickSwitch.run KickSwitch.start before)
          (.takeKickRequest id)).1.phase id = .ended) := by
  intro hall
  have hends := (hall [.sessionStarted 1, .requestKickActiveSession, .clearKickRequest 1,
    .takeKickRequest 1] [.sessionStarted 1, .requestKickActiveSession, .clearKickRequest 1] [] 1
    rfl rfl).2 ⟨[.sessionStarted 1], [.clearKickRequest 1], rfl, by simp⟩
  exact absurd hends (by decide)

end EvertyDesk.Host
