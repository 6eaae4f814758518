import EvertyDesk.Host.LoginLoop
import Mathlib.Data.List.Nodup
import Mathlib.Logic.Function.Basic

/-!
The approvals of the host user. Decisions are in one map for all sessions, under the
identity that the peer gave itself; every waiting session polls it, and a session
removes what is left under its identity before it asks.

A decision reaches the map at once, or a little later when sessions run in the agent
process.
-/

namespace EvertyDesk.Host

/-- An answer of the host user to the `ApprovalRequested` of one session. -/
structure Decision where
  number : Nat
  answers : Nat
  accept : Bool
deriving DecidableEq, Repr

inductive ApprovalStage where
  | connected
  | reading (peerId : String)
  /-- The peer has logged in with no password, `ApprovalRequested` is not out. -/
  | asking (peerId : String)
  | waiting (peerId : String)
  | closed
deriving DecidableEq

structure Approvals where
  approvals : List (String × Decision)
  /-- The decisions on their way to the map. -/
  commands : List (String × Decision)
  stage : Nat → ApprovalStage
  /-- The identity in the `ApprovalRequested` of each session. -/
  asked : Nat → Option String
  decisions : Nat

inductive ApprovalInput where
  | clearStale (sessionId : Nat) (peerId : String)
  | loginRequest (sessionId : Nat) (login : LoginRequest) (verified : Bool)
  | requestApproval (sessionId : Nat)
  /-- The host user answers the request of the session. -/
  | approveIncoming (sessionId : Nat) (accept : Bool)
  | applyDecision
  | poll (sessionId : Nat)
  | approvalTimeout (sessionId : Nat)

/-- A session that is admitted by an approval, and the decision it has consumed. -/
structure ApprovalUsed where
  sessionId : Nat
  decision : Decision
deriving DecidableEq, Repr

namespace Approvals

def start : Approvals where
  approvals := []
  commands := []
  stage _ := .connected
  asked _ := none
  decisions := 0

variable (s : Approvals)

def lookup (peerId : String) : Option Decision := (s.approvals.find? (·.1 = peerId)).map (·.2)

def remove (peerId : String) : Approvals :=
  { s with approvals := s.approvals.filter (·.1 ≠ peerId) }

def insert (peerId : String) (decision : Decision) : Approvals :=
  { s with approvals := (peerId, decision) :: (s.remove peerId).approvals }

def setStage (sessionId : Nat) (stage : ApprovalStage) : Approvals :=
  { s with stage := Function.update s.stage sessionId stage }

def handleLogin (sessionId : Nat) (login : LoginRequest) (verified : Bool) : Approvals :=
  match s.stage sessionId with
  | .reading peerId =>
      let requestPeerId := (remoteIdentityFromLogin login).peerId
      let s := if requestPeerId ≠ peerId then s.remove requestPeerId else s
      if login.password.isEmpty then s.setStage sessionId (.asking requestPeerId)
      else if verified then s.setStage sessionId .closed
      else s
  | _ => s

def step : ApprovalInput → Approvals × Option ApprovalUsed
  | .clearStale id peerId =>
      if s.stage id = .connected then ((s.remove peerId).setStage id (.reading peerId), none)
      else (s, none)
  | .loginRequest id login verified => (s.handleLogin id login verified, none)
  | .requestApproval id =>
      match s.stage id with
      | .asking peerId =>
          ({ s.setStage id (.waiting peerId) with
              asked := Function.update s.asked id (some peerId) }, none)
      | _ => (s, none)
  | .approveIncoming id accept =>
      match s.asked id with
      | some peerId =>
          ({ s with
              commands := s.commands ++ [(peerId, ⟨s.decisions, id, accept⟩)]
              decisions := s.decisions + 1 }, none)
      | none => (s, none)
  | .applyDecision =>
      match s.commands with
      | (peerId, decision) :: commands => ({ s.insert peerId decision with commands }, none)
      | [] => (s, none)
  | .poll id =>
      match s.stage id with
      | .waiting peerId =>
          match s.lookup peerId with
          | some decision =>
              ((s.remove peerId).setStage id .closed,
                if decision.accept then some ⟨id, decision⟩ else none)
          | none => (s, none)
      | _ => (s, none)
  | .approvalTimeout id =>
      match s.stage id with
      | .waiting _ => (s.setStage id .closed, none)
      | _ => (s, none)

/-- A session asks only when no approval is left under its identity, and an approval
gets into the map only while no session but the one it answers waits under it. -/
def Unambiguous : ApprovalInput → Prop
  | .requestApproval id => ∀ entry ∈ s.approvals,
      s.stage id = .asking entry.1 → entry.2.accept = false
  | .applyDecision => ∀ entry ∈ s.commands.head?, entry.2.accept = true →
      ∀ id, s.stage id = .waiting entry.1 → id = entry.2.answers
  | _ => True

end Approvals

def approvalDesk : Machine Approvals ApprovalInput (Option ApprovalUsed) := ⟨Approvals.step⟩

namespace Approvals

/-- An approval in the map is for whoever waits for it. -/
def Bound (s : Approvals) : Prop :=
  ∀ entry ∈ s.approvals, entry.2.accept = true →
    ∀ id, s.stage id = .waiting entry.1 → entry.2.answers = id

/-- The numbers of the decisions that have not been consumed. -/
def pending (s : Approvals) : List Nat := (s.commands ++ s.approvals).map (·.2.number)

structure Numbered (s : Approvals) : Prop where
  nodup : s.pending.Nodup
  bounded : ∀ number ∈ s.pending, number < s.decisions

/-- Decisions may be gone from the map, and sessions from those who wait. -/
structure Calms (s t : Approvals) : Prop where
  entries : t.approvals.Sublist s.approvals
  commands : t.commands = s.commands
  decisions : t.decisions = s.decisions
  waiting : ∀ id peerId, t.stage id = .waiting peerId → s.stage id = .waiting peerId

/-- Decisions are moved, dropped, or one new is on its way. -/
def Renumbers (s t : Approvals) : Prop :=
  ∃ numbers, t.pending.Perm numbers ∧
    (numbers.Sublist s.pending ∧ t.decisions = s.decisions ∨
      numbers = s.decisions :: s.pending ∧ t.decisions = s.decisions + 1)

section Steps

variable {s t : Approvals} {peerId : String} {id : Nat} {stage : ApprovalStage}

theorem Calms.refl (s : Approvals) : s.Calms s := ⟨.refl _, rfl, rfl, fun _ _ h => h⟩

theorem Calms.remove (h : s.Calms t) (peerId : String) : s.Calms (t.remove peerId) :=
  ⟨List.filter_sublist.trans h.entries, h.commands, h.decisions, h.waiting⟩

theorem Calms.setStage (h : s.Calms t) (id : Nat) (hstage : ∀ peerId, stage ≠ .waiting peerId) :
    s.Calms (t.setStage id stage) := by
  refine ⟨h.entries, h.commands, h.decisions, fun other peerId hwaiting => ?_⟩
  change Function.update t.stage id stage other = _ at hwaiting
  rw [Function.update_apply] at hwaiting
  split at hwaiting
  · exact absurd hwaiting (hstage peerId)
  · exact h.waiting other peerId hwaiting

theorem calms_handleLogin (s : Approvals) (id : Nat) (login : LoginRequest) (verified : Bool) :
    s.Calms (s.handleLogin id login verified) := by
  simp only [handleLogin]
  split
  · next peerId _ =>
    have hremoved : s.Calms (if (remoteIdentityFromLogin login).peerId ≠ peerId then
        s.remove (remoteIdentityFromLogin login).peerId else s) := by
      split
      · exact (Calms.refl s).remove _
      · exact .refl s
    split
    · exact hremoved.setStage id (by simp)
    · split
      · exact hremoved.setStage id (by simp)
      · exact hremoved
  · exact .refl s

theorem Calms.bound (h : s.Calms t) (hs : s.Bound) : t.Bound :=
  fun entry hentry haccept id hwaiting =>
    hs entry (h.entries.subset hentry) haccept id (h.waiting id _ hwaiting)

theorem Calms.pending (h : s.Calms t) : t.pending.Sublist s.pending := by
  rw [Approvals.pending, Approvals.pending, h.commands]
  exact (h.entries.append_left s.commands).map _

theorem Calms.renumbers (h : s.Calms t) : s.Renumbers t :=
  ⟨_, .refl _, .inl ⟨h.pending, h.decisions⟩⟩

theorem Renumbers.numbered (h : s.Renumbers t) (hs : s.Numbered) : t.Numbered := by
  obtain ⟨numbers, hperm, ⟨hsub, hdecisions⟩ | ⟨rfl, hdecisions⟩⟩ := h
  · refine ⟨hperm.nodup_iff.mpr (hsub.nodup hs.nodup), fun number hnumber => ?_⟩
    rw [hdecisions]
    exact hs.bounded number (hsub.subset (hperm.mem_iff.mp hnumber))
  · have hnew : s.decisions ∉ s.pending := fun hmember =>
      absurd (hs.bounded _ hmember) (Nat.lt_irrefl _)
    refine ⟨hperm.nodup_iff.mpr (List.nodup_cons.mpr ⟨hnew, hs.nodup⟩), fun number hnumber => ?_⟩
    rw [hdecisions]
    rcases List.mem_cons.mp (hperm.mem_iff.mp hnumber) with rfl | hold
    · exact Nat.lt_succ_self _
    · exact Nat.lt_succ_of_lt (hs.bounded number hold)

theorem Renumbers.mem (h : s.Renumbers t) {number : Nat} (hnumber : number ∈ t.pending) :
    number ∈ s.pending ∨ s.decisions ≤ number := by
  obtain ⟨numbers, hperm, ⟨hsub, -⟩ | ⟨rfl, -⟩⟩ := h
  · exact .inl (hsub.subset (hperm.mem_iff.mp hnumber))
  · rcases List.mem_cons.mp (hperm.mem_iff.mp hnumber) with rfl | hold
    · exact .inr (Nat.le_refl _)
    · exact .inl hold

theorem Renumbers.decisions_le (h : s.Renumbers t) : s.decisions ≤ t.decisions := by
  obtain ⟨numbers, -, ⟨-, hdecisions⟩ | ⟨-, hdecisions⟩⟩ := h <;> omega

theorem lookup_mem {decision : Decision} (h : s.lookup peerId = some decision) :
    (peerId, decision) ∈ s.approvals := by
  obtain ⟨entry, hfind, rfl⟩ := Option.map_eq_some_iff.mp h
  have hkey : entry.1 = peerId := by simpa using List.find?_some hfind
  exact hkey ▸ List.mem_of_find?_eq_some hfind

/-- What a session takes from the map. -/
theorem step_used {input : ApprovalInput} {used : ApprovalUsed} (h : (s.step input).2 = some used) :
    ∃ peerId, s.stage used.sessionId = .waiting peerId ∧
      (peerId, used.decision) ∈ s.approvals ∧ used.decision.accept = true ∧
      (s.step input).1 = (s.remove peerId).setStage used.sessionId .closed := by
  cases input with
  | poll id =>
      simp only [step] at h ⊢
      split at h
      · next peerId hwaiting =>
        split at h
        · next decision hfound =>
          obtain ⟨haccept, hused⟩ := Option.ite_none_right_eq_some.mp h
          obtain rfl := Option.some.inj hused
          exact ⟨peerId, hwaiting, lookup_mem hfound, haccept, rfl⟩
        · cases h
      · cases h
  | loginRequest => cases h
  | clearStale | requestApproval | approveIncoming | applyDecision | approvalTimeout =>
      simp only [step] at h
      split at h <;> cases h

theorem Bound.step (hs : s.Bound) (input : ApprovalInput) (hinput : s.Unambiguous input) :
    (s.step input).1.Bound := by
  cases input with
  | clearStale id peerId =>
      rw [Approvals.step]
      split
      · exact (((Calms.refl s).remove peerId).setStage id (by simp)).bound hs
      · exact hs
  | loginRequest id login verified => exact (calms_handleLogin s id login verified).bound hs
  | requestApproval id =>
      rw [Approvals.step]
      split
      · next peerId hasking =>
        intro entry hentry haccept other hwaiting
        change Function.update s.stage id _ other = _ at hwaiting
        rw [Function.update_apply] at hwaiting
        split at hwaiting
        · cases hwaiting
          cases (hinput entry hentry hasking).symm.trans haccept
        · exact hs entry hentry haccept other hwaiting
      · exact hs
  | approveIncoming id accept =>
      rw [Approvals.step]
      split
      · exact hs
      · exact hs
  | applyDecision =>
      rw [Approvals.step]
      split
      · next peerId decision commands hcommands =>
        intro entry hentry haccept id hwaiting
        rcases List.mem_cons.mp hentry with rfl | hentry
        · exact (hinput (peerId, decision) (by simp [hcommands]) haccept id hwaiting).symm
        · exact hs entry (List.mem_of_mem_filter hentry) haccept id hwaiting
      · exact hs
  | poll id =>
      rw [Approvals.step]
      split
      · split
        · exact (((Calms.refl s).remove _).setStage id (by simp)).bound hs
        · exact hs
      · exact hs
  | approvalTimeout id =>
      rw [Approvals.step]
      split
      · exact ((Calms.refl s).setStage id (by simp)).bound hs
      · exact hs

theorem step_renumbers (s : Approvals) (input : ApprovalInput) : s.Renumbers (s.step input).1 := by
  cases input with
  | clearStale id peerId =>
      rw [Approvals.step]
      split
      · exact (((Calms.refl s).remove peerId).setStage id (by simp)).renumbers
      · exact (Calms.refl s).renumbers
  | loginRequest id login verified => exact (calms_handleLogin s id login verified).renumbers
  | requestApproval id =>
      rw [Approvals.step]
      split
      · exact ⟨_, .refl _, .inl ⟨.refl _, rfl⟩⟩
      · exact (Calms.refl s).renumbers
  | approveIncoming id accept =>
      rw [Approvals.step]
      split
      · next peerId _ =>
        refine ⟨_, ?_, .inr ⟨rfl, rfl⟩⟩
        simp [pending]
      · exact (Calms.refl s).renumbers
  | applyDecision =>
      rw [Approvals.step]
      split
      · next peerId decision commands hcommands =>
        have hmoved : (commands ++ (s.insert peerId decision).approvals).Perm
            ((peerId, decision) :: commands ++ (s.remove peerId).approvals) := List.perm_middle
        refine ⟨_, hmoved.map fun entry : String × Decision => entry.2.number, .inl ⟨?_, rfl⟩⟩
        rw [pending, hcommands]
        exact (List.filter_sublist.append_left _).map _
      · exact (Calms.refl s).renumbers
  | poll id =>
      rw [Approvals.step]
      split
      · split
        · exact (((Calms.refl s).remove _).setStage id (by simp)).renumbers
        · exact (Calms.refl s).renumbers
      · exact (Calms.refl s).renumbers
  | approvalTimeout id =>
      rw [Approvals.step]
      split
      · exact ((Calms.refl s).setStage id (by simp)).renumbers
      · exact (Calms.refl s).renumbers

/-- What a session has taken is in the map no longer. -/
theorem step_consumes {input : ApprovalInput} {used : ApprovalUsed} (hs : s.Numbered)
    (h : (s.step input).2 = some used) :
    used.decision.number ∈ s.pending ∧ used.decision.number ∉ (s.step input).1.pending := by
  obtain ⟨peerId, -, hentry, -, hnext⟩ := step_used h
  have hmember : (peerId, used.decision) ∈ s.commands ++ s.approvals :=
    List.mem_append_right _ hentry
  refine ⟨List.mem_map_of_mem hmember, fun hleft => ?_⟩
  rw [hnext] at hleft
  obtain ⟨entry, hrest, hnumber⟩ := List.mem_map.mp hleft
  have hold : entry ∈ s.commands ++ s.approvals :=
    (List.filter_sublist.append_left s.commands).subset hrest
  obtain rfl := List.inj_on_of_nodup_map hs.nodup hold hmember hnumber
  rcases List.mem_append.mp hrest with hcommand | hremoved
  · -- the same decision cannot be on its way as well
    have hsplit := hs.nodup
    rw [pending, List.map_append] at hsplit
    exact List.disjoint_of_nodup_append hsplit (List.mem_map_of_mem hcommand)
      (List.mem_map_of_mem hentry)
  · simpa using (List.mem_filter.mp hremoved).2

end Steps

theorem numbered_start : start.Numbered := ⟨List.nodup_nil, by simp [pending, start]⟩

theorem bound_start : start.Bound := by simp [Bound, start]

end Approvals

/-- The decisions that sessions were admitted by, in the order of the admissions. -/
def consumed (outputs : List (Option ApprovalUsed)) : List Nat :=
  (outputs.filterMap id).map (·.decision.number)

theorem run_consumes (inputs : List ApprovalInput) {s : Approvals} (hs : s.Numbered) :
    (consumed (approvalDesk.outputs s inputs)).Nodup ∧
      ∀ number ∈ consumed (approvalDesk.outputs s inputs),
        number ∈ s.pending ∨ s.decisions ≤ number := by
  induction inputs generalizing s with
  | nil => simp [consumed]
  | cons input inputs ih =>
      have hrenumbers := s.step_renumbers input
      obtain ⟨hnodup, hlater⟩ := ih (s := (s.step input).1) (hrenumbers.numbered hs)
      have hkept : ∀ number ∈ consumed (approvalDesk.outputs (s.step input).1 inputs),
          number ∈ s.pending ∨ s.decisions ≤ number := by
        intro number hnumber
        rcases hlater number hnumber with hpending | hnew
        · exact hrenumbers.mem hpending
        · exact .inr (hrenumbers.decisions_le.trans hnew)
      rw [Machine.outputs_cons]
      cases hused : (approvalDesk.step s input).2 with
      | none => exact ⟨hnodup, hkept⟩
      | some used =>
          obtain ⟨hbefore, hgone⟩ := Approvals.step_consumes hs hused
          refine ⟨List.nodup_cons.mpr ⟨fun hagain => ?_, hnodup⟩, ?_⟩
          · rcases hlater _ hagain with hpending | hnew
            · exact hgone hpending
            · exact absurd (hs.bounded _ hbefore) (Nat.not_lt.mpr
                (hrenumbers.decisions_le.trans hnew))
          · intro number hnumber
            rcases List.mem_cons.mp hnumber with rfl | hlast
            · exact .inl hbefore
            · exact hkept number hlast

/-- A session that an approval admits has consumed an approval of its own request, and
no decision is consumed twice, in every run in which no approval reaches the map while
another session could take it. -/
theorem approvals_bound_to_session {inputs : List ApprovalInput}
    (h : approvalDesk.Along Approvals.Unambiguous Approvals.start inputs) :
    (∀ used ∈ (approvalDesk.outputs Approvals.start inputs).filterMap id,
      used.decision.accept = true ∧ used.decision.answers = used.sessionId) ∧
    (consumed (approvalDesk.outputs Approvals.start inputs)).Nodup := by
  refine ⟨?_, (run_consumes inputs Approvals.numbered_start).1⟩
  have hall := approvalDesk.outputs_forall (I := Approvals.Bound)
    (G := fun output => ∀ used, output = some used →
      used.decision.accept = true ∧ used.decision.answers = used.sessionId)
    (fun s input hs hinput => ⟨hs.step input hinput, fun used hused => ?_⟩)
    Approvals.bound_start h
  · intro used hmember
    obtain ⟨output, houtput, hsome⟩ := List.mem_filterMap.mp hmember
    exact hall output houtput used hsome
  · obtain ⟨peerId, hwaiting, hentry, haccept, -⟩ := Approvals.step_used hused
    exact ⟨haccept, hs _ hentry haccept _ hwaiting⟩

/-- Two sessions under two identities, which wait at once and are approved in time. -/
def approvedRun : List ApprovalInput :=
  [.clearStale 1 "9", .clearStale 2 "8", .loginRequest 1 ⟨[], "9", "", "", ""⟩ false,
    .loginRequest 2 ⟨[], "8", "", "", ""⟩ false, .requestApproval 1, .requestApproval 2,
    .approveIncoming 2 true, .applyDecision, .approveIncoming 1 true, .applyDecision, .poll 1,
    .poll 2]

theorem approvedRun_stage (id : Nat) :
    (approvalDesk.run Approvals.start (approvedRun.take 6)).stage id =
      if id = 1 then .waiting "9" else if id = 2 then .waiting "8" else .connected := by
  have hnine : remoteIdentityFromLogin ⟨[], "9", "", "", ""⟩ = ⟨"9", "", "", ""⟩ := by
    decide +kernel
  have height : remoteIdentityFromLogin ⟨[], "8", "", "", ""⟩ = ⟨"8", "", "", ""⟩ := by
    decide +kernel
  by_cases hfirst : id = 1
  · subst hfirst
    decide +kernel
  by_cases hsecond : id = 2
  · subst hsecond
    decide +kernel
  rw [if_neg hfirst, if_neg hsecond]
  simp [approvalDesk, approvedRun, Machine.run, Approvals.step, Approvals.start, Approvals.remove,
    Approvals.setStage, Approvals.handleLogin, Function.update, hnine, height, hfirst, hsecond]

theorem approvals_bound_to_session_two :
    (∀ used ∈ (approvalDesk.outputs Approvals.start approvedRun).filterMap id,
      used.decision.accept = true ∧ used.decision.answers = used.sessionId) ∧
    (consumed (approvalDesk.outputs Approvals.start approvedRun)).Nodup := by
  have hwaits (id : Nat) (peerId : String)
      (hwaiting : (approvalDesk.run Approvals.start (approvedRun.take 6)).stage id =
        .waiting peerId) : id = 1 ∧ peerId = "9" ∨ id = 2 ∧ peerId = "8" := by
    rw [approvedRun_stage] at hwaiting
    split at hwaiting
    · next hid => exact .inl ⟨hid, (ApprovalStage.waiting.inj hwaiting).symm⟩
    · split at hwaiting
      · next hid => exact .inr ⟨hid, (ApprovalStage.waiting.inj hwaiting).symm⟩
      · cases hwaiting
  have hunambiguous : approvalDesk.Along Approvals.Unambiguous Approvals.start approvedRun := by
    refine ⟨trivial, trivial, trivial, trivial, ?_, ?_, trivial, ?_, trivial, ?_, trivial, trivial,
      trivial⟩
    · exact fun entry hentry => absurd hentry List.not_mem_nil
    · exact fun entry hentry => absurd hentry List.not_mem_nil
    · rintro entry hentry - id hwaiting
      obtain rfl := Option.mem_some.mp hentry
      exact (hwaits id "8" hwaiting).elim (fun h => absurd h.2 (by decide)) And.left
    · rintro entry hentry - id hwaiting
      obtain rfl := Option.mem_some.mp hentry
      exact (hwaits id "9" hwaiting).elim And.left fun h => absurd h.2 (by decide)
  exact approvals_bound_to_session hunambiguous

/-- Two sessions under one identity: the host user approves the first, and the second
takes the approval. -/
theorem approval_taken_by_another :
    ¬ ∀ inputs : List ApprovalInput,
      (∀ used ∈ (approvalDesk.outputs Approvals.start inputs).filterMap id,
        used.decision.accept = true ∧ used.decision.answers = used.sessionId) ∧
      (consumed (approvalDesk.outputs Approvals.start inputs)).Nodup := by
  intro hall
  have htaken := (hall [.clearStale 1 "9", .clearStale 2 "9",
    .loginRequest 1 ⟨[], "9", "", "", ""⟩ false, .loginRequest 2 ⟨[], "9", "", "", ""⟩ false,
    .requestApproval 1, .requestApproval 2, .approveIncoming 1 true, .applyDecision,
    .poll 2]).1 ⟨2, ⟨0, 1, true⟩⟩ (by decide)
  exact absurd htaken.2 (by decide)

end EvertyDesk.Host
