import Mathlib.Data.List.Nodup
import Mathlib.Data.List.Pairwise
import Mathlib.Order.Basic
import Mathlib.Tactic.SplitIfs
import Mathlib.Tactic.Tauto

/-!
Which way a session with a virtual machine is opened. A machine comes with a graph of its
capabilities; what the policy allows and the client can decode is scored, and the best of
it is taken with the others to fall back to. An explicit request is granted or refused as
it is.
-/

namespace EvertyDesk.Host

inductive CapabilityState where
  | available
  | degraded
  | blockedByPolicy
  | unsupported
  | unknown
  | experimental
deriving DecidableEq, Repr

def CapabilityState.isAvailable : CapabilityState → Bool
  | .available | .degraded => true
  | _ => false

inductive SessionMode where
  | offline
  | previewOnly
  | basicRescue
  | rdpRelay
  | vncConsole
  | spiceConsole
  | webConsole
  | webMksConsole
  | serialConsole
  | enhancedSession
  | providerNativeConsole
  | experimentalHvSocket
  | experimental (name : String)
deriving DecidableEq, Repr

def SessionMode.label : SessionMode → String
  | .offline => "Offline"
  | .previewOnly => "Preview Only"
  | .basicRescue => "Basic Rescue"
  | .rdpRelay => "RDP Relay"
  | .vncConsole => "VNC Console"
  | .spiceConsole => "SPICE Console"
  | .webConsole => "Web Console"
  | .webMksConsole => "WebMKS Console"
  | .serialConsole => "Serial Console"
  | .enhancedSession => "Enhanced Session"
  | .providerNativeConsole => "Provider Console"
  | .experimentalHvSocket => "Experimental (HvSocket)"
  | .experimental name => name

structure Capability where
  state : CapabilityState
  reasonCode : String
  humanReason : String
  remediation : Option String
deriving DecidableEq, Repr

structure VmCapabilityGraph where
  preview : Capability
  keyboardRescue : Capability
  rdpRelay : Capability
  vncConsole : Capability
  spiceConsole : Capability
  webConsole : Capability
  webmksConsole : Capability
  serialConsole : Capability
  enhancedSession : Capability
  hvSocket : Capability
  clipboard : Capability
  recording : Capability
  experimental : Capability
  recommendedMode : SessionMode

def VmCapabilityGraph.anyInteractive (graph : VmCapabilityGraph) : Bool :=
  [graph.rdpRelay, graph.vncConsole, graph.spiceConsole, graph.webConsole,
    graph.webmksConsole, graph.serialConsole, graph.enhancedSession,
    graph.keyboardRescue].any (·.state.isAvailable)

inductive RequestedMode where
  | auto
  | explicit (mode : SessionMode)
deriving DecidableEq, Repr

structure ClientCapabilities where
  canRdp : Bool
  canVnc : Bool
  canSpice : Bool
  canWebmks : Bool
  canSerial : Bool
  canPreview : Bool
  canRescue : Bool

def ClientCapabilities.supports (client : ClientCapabilities) : SessionMode → Bool
  | .offline => false
  | .previewOnly => client.canPreview
  | .basicRescue => client.canRescue
  | .rdpRelay => client.canRdp
  | .vncConsole => client.canVnc
  | .spiceConsole => client.canSpice
  | .webConsole => true
  | .webMksConsole => client.canWebmks
  | .serialConsole => client.canSerial
  | .enhancedSession => client.canRdp
  | .providerNativeConsole => true
  | .experimentalHvSocket => false
  | .experimental _ => false

inductive RecordingMode where
  | disabled
  | eventTimeline
  | videoRequired
deriving DecidableEq, Repr

/-- What the policy says to the choice. -/
structure PolicyResult where
  allowedModes : List SessionMode
  recordingMode : RecordingMode
  reason : Option String

structure BackendScore where
  mode : SessionMode
  available : Bool
  score : Int
  reason : String
deriving DecidableEq, Repr

structure BackendDecision where
  selectedMode : SessionMode
  fallbackModes : List SessionMode
  reason : String
  warnings : List String
deriving DecidableEq, Repr

def BackendDecision.refused (reason : String) : BackendDecision where
  selectedMode := .offline
  fallbackModes := []
  reason := reason
  warnings := []

/-- The capability that a mode rests on. -/
def modeCapability (graph : VmCapabilityGraph) : SessionMode → Capability
  | .previewOnly => graph.preview
  | .basicRescue => graph.keyboardRescue
  | .rdpRelay => graph.rdpRelay
  | .vncConsole => graph.vncConsole
  | .spiceConsole => graph.spiceConsole
  | .webConsole => graph.webConsole
  | .webMksConsole => graph.webmksConsole
  | .serialConsole => graph.serialConsole
  | .enhancedSession => graph.enhancedSession
  | .providerNativeConsole => graph.experimental
  | .experimentalHvSocket | .experimental _ => graph.hvSocket
  | .offline => graph.preview

/-- The modes that are tried without a request, with their capabilities and base scores. -/
def allCandidates (graph : VmCapabilityGraph) : List (SessionMode × Capability × Int) :=
  [(.providerNativeConsole, graph.experimental, 100),
    (.enhancedSession, graph.enhancedSession, 95),
    (.webMksConsole, graph.webmksConsole, 95),
    (.spiceConsole, graph.spiceConsole, 90),
    (.vncConsole, graph.vncConsole, 85),
    (.rdpRelay, graph.rdpRelay, 80),
    (.webConsole, graph.webConsole, 75),
    (.serialConsole, graph.serialConsole, 55),
    (.basicRescue, graph.keyboardRescue, 50),
    (.previewOnly, graph.preview, 20)]

section

variable (graph : VmCapabilityGraph) (policy : PolicyResult) (client : ClientCapabilities)

def eligible (candidate : SessionMode × Capability × Int) : Bool :=
  let (mode, cap, _) := candidate
  (cap.state ≠ .unsupported ∧ cap.state ≠ .blockedByPolicy ∧ cap.state ≠ .experimental) &&
    mode ∈ policy.allowedModes && client.supports mode

/-- The score of a mode with its modifiers. -/
def modeScore (mode : SessionMode) (cap : Capability) (base : Int) : Int :=
  base
    - (if cap.state = .degraded then 20 else 0)
    - (if cap.state = .unknown then 10 else 0)
    + (if mode = .basicRescue ∨ mode = .serialConsole then 20 else 0)
    + (if graph.clipboard.state.isAvailable ∧ mode ∈ [.enhancedSession, .rdpRelay,
        .webMksConsole, .spiceConsole, .vncConsole] then 10 else 0)
    - (if policy.recordingMode = .videoRequired ∧ ¬ graph.recording.state.isAvailable then 30
      else 0)

def scoreCandidate (candidate : SessionMode × Capability × Int) : BackendScore :=
  let (mode, cap, base) := candidate
  { mode := mode
    available := cap.state.isAvailable
    score := modeScore graph policy mode cap base
    reason := cap.humanReason }

/-- The eligible candidates, the best first; of equal ones the earlier stays first. -/
def scored : List BackendScore :=
  (((allCandidates graph).filter (eligible policy client)).map
    (scoreCandidate graph policy)).mergeSort fun a b => decide (b.score ≤ a.score)

def chooseBackend : RequestedMode → BackendDecision
  | .explicit mode =>
      let cap := modeCapability graph mode
      if mode ∉ policy.allowedModes then
        .refused ("Mode '" ++ mode.label ++ "' is blocked by policy: " ++
          policy.reason.getD "policy denied")
      else if client.supports mode = false then
        .refused ("Client does not support decoder for '" ++ mode.label ++ "'")
      else if cap.state = .unsupported ∨ cap.state = .blockedByPolicy then
        .refused ("Mode '" ++ mode.label ++ "' is not available: " ++ cap.humanReason)
      else
        { selectedMode := mode
          fallbackModes := []
          reason := cap.humanReason
          warnings :=
            if cap.state = .degraded then ["Mode is degraded: " ++ cap.reasonCode] else [] }
  | .auto =>
      match scored graph policy client with
      | [] => .refused "No accessible backend available — VM may be offline or access blocked"
      | best :: others =>
          { selectedMode := best.mode
            fallbackModes := others.map (·.mode)
            reason := best.reason
            warnings :=
              if graph.anyInteractive then []
              else ["No interactive backend available — preview/rescue only"] }

end

/-! Why there is no interactive access. -/

structure ExplainReason where
  code : String
  message : String
  remediation : Option String
deriving DecidableEq, Repr

structure ExplainAction where
  label : String
  mode : Option SessionMode
deriving DecidableEq, Repr

structure ExplainResult where
  summary : String
  reasons : List ExplainReason
  recommendedActions : List ExplainAction
deriving DecidableEq, Repr

def interactiveModes (graph : VmCapabilityGraph) : List (SessionMode × Capability) :=
  [(.enhancedSession, graph.enhancedSession),
    (.rdpRelay, graph.rdpRelay),
    (.vncConsole, graph.vncConsole),
    (.spiceConsole, graph.spiceConsole),
    (.webMksConsole, graph.webmksConsole),
    (.serialConsole, graph.serialConsole),
    (.basicRescue, graph.keyboardRescue)]

def consoleUnavailable : String := "Interactive console is unavailable for this VM."

def explainUnavailability (graph : VmCapabilityGraph) : ExplainResult :=
  if (interactiveModes graph).any (·.2.state.isAvailable) then
    { summary := "At least one interactive backend is available."
      reasons := []
      recommendedActions := [⟨"Open " ++ graph.recommendedMode.label, some graph.recommendedMode⟩] }
  else
    { summary := consoleUnavailable
      reasons := (interactiveModes graph).map fun (mode, cap) =>
        ⟨cap.reasonCode, mode.label ++ " — " ++ cap.humanReason, cap.remediation⟩
      recommendedActions :=
        (if graph.keyboardRescue.state.isAvailable then
          [⟨"Open Basic Rescue", some .basicRescue⟩] else []) ++
        (if graph.preview.state.isAvailable then
          [⟨"Open Preview Only", some .previewOnly⟩] else []) }

/-! What a choice keeps to. -/

/-- The policy allows the mode, and the client can decode it. -/
def Permitted (policy : PolicyResult) (client : ClientCapabilities) (mode : SessionMode) :
    Prop :=
  mode ∈ policy.allowedModes ∧ client.supports mode = true

/-- There is something behind the mode that is neither blocked nor experimental. -/
def Offered (graph : VmCapabilityGraph) (mode : SessionMode) : Prop :=
  (modeCapability graph mode).state ≠ .unsupported ∧
    (modeCapability graph mode).state ≠ .blockedByPolicy ∧
      (modeCapability graph mode).state ≠ .experimental

instance (policy : PolicyResult) (client : ClientCapabilities) (mode : SessionMode) :
    Decidable (Permitted policy client mode) :=
  inferInstanceAs (Decidable (_ ∧ _))

instance (graph : VmCapabilityGraph) (mode : SessionMode) : Decidable (Offered graph mode) :=
  inferInstanceAs (Decidable (_ ∧ _))

/-- The modes of a decision, the selected one first. -/
def BackendDecision.modes (decision : BackendDecision) : List SessionMode :=
  decision.selectedMode :: decision.fallbackModes

/-- Without a request: every mode of the decision may be used, each candidate that may be
used is among them, and one that comes first has no lower score than one that comes
later. -/
structure AutoChoice (graph : VmCapabilityGraph) (policy : PolicyResult)
    (client : ClientCapabilities) (decision : BackendDecision) : Prop where
  usable : ∀ mode ∈ decision.modes, mode ≠ .offline →
    Permitted policy client mode ∧ Offered graph mode
  complete : ∀ candidate ∈ allCandidates graph, Permitted policy client candidate.1 →
    Offered graph candidate.1 → candidate.1 ∈ decision.modes
  best_first : decision.modes.Pairwise fun mode later =>
    ∀ c ∈ allCandidates graph, ∀ d ∈ allCandidates graph, c.1 = mode → d.1 = later →
      modeScore graph policy d.1 d.2.1 d.2.2 ≤ modeScore graph policy c.1 c.2.1 c.2.2

/-- An explicit request is granted exactly if the mode is permitted, supported and not
blocked, and there is nothing to fall back to. -/
structure ExplicitChoice (graph : VmCapabilityGraph) (policy : PolicyResult)
    (client : ClientCapabilities) (mode : SessionMode) (decision : BackendDecision) : Prop where
  fallbacks : decision.fallbackModes = []
  selected : decision.selectedMode = .offline ∨ decision.selectedMode = mode
  granted : decision.selectedMode ≠ .offline ↔
    Permitted policy client mode ∧ (modeCapability graph mode).state ≠ .unsupported ∧
      (modeCapability graph mode).state ≠ .blockedByPolicy

def SoundChoice (graph : VmCapabilityGraph) (policy : PolicyResult)
    (client : ClientCapabilities) (requested : RequestedMode) (decision : BackendDecision) :
    Prop :=
  match requested with
  | .auto => AutoChoice graph policy client decision
  | .explicit mode => ExplicitChoice graph policy client mode decision

section

variable {graph : VmCapabilityGraph} {policy : PolicyResult} {client : ClientCapabilities}

/-! The candidates. -/

theorem capability_of_candidate {candidate : SessionMode × Capability × Int}
    (h : candidate ∈ allCandidates graph) :
    modeCapability graph candidate.1 = candidate.2.1 := by
  simp only [allCandidates, List.mem_cons, List.not_mem_nil, or_false] at h
  rcases h with rfl | rfl | rfl | rfl | rfl | rfl | rfl | rfl | rfl | rfl <;> rfl

theorem candidate_modes_nodup (graph : VmCapabilityGraph) :
    ((allCandidates graph).map (·.1)).Nodup := by
  simp [allCandidates]

/-- A mode is a candidate once. -/
theorem candidate_unique {c d : SessionMode × Capability × Int} (hc : c ∈ allCandidates graph)
    (hd : d ∈ allCandidates graph) (h : c.1 = d.1) : c = d :=
  List.inj_on_of_nodup_map (candidate_modes_nodup graph) hc hd h

theorem eligible_iff {candidate : SessionMode × Capability × Int}
    (h : candidate ∈ allCandidates graph) :
    eligible policy client candidate = true ↔
      Permitted policy client candidate.1 ∧ Offered graph candidate.1 := by
  rw [Offered, capability_of_candidate h, eligible, Permitted]
  simp only [Bool.and_eq_true, decide_eq_true_eq]
  tauto

theorem mem_scored {score : BackendScore} : score ∈ scored graph policy client ↔
    ∃ candidate ∈ allCandidates graph, Permitted policy client candidate.1 ∧
      Offered graph candidate.1 ∧ scoreCandidate graph policy candidate = score := by
  rw [scored, List.mem_mergeSort, List.mem_map]
  constructor
  · rintro ⟨candidate, hmem, hscore⟩
    obtain ⟨hcandidate, heligible⟩ := List.mem_filter.mp hmem
    obtain ⟨hpermitted, hoffered⟩ := (eligible_iff hcandidate).mp heligible
    exact ⟨candidate, hcandidate, hpermitted, hoffered, hscore⟩
  · rintro ⟨candidate, hcandidate, hpermitted, hoffered, hscore⟩
    exact ⟨candidate, List.mem_filter.mpr
      ⟨hcandidate, (eligible_iff hcandidate).mpr ⟨hpermitted, hoffered⟩⟩, hscore⟩

theorem scored_modes_nodup : ((scored graph policy client).map (·.mode)).Nodup := by
  have hperm := (List.mergeSort_perm (((allCandidates graph).filter
    (eligible policy client)).map (scoreCandidate graph policy))
    fun a b => decide (b.score ≤ a.score)).map (·.mode)
  rw [scored, hperm.nodup_iff, List.map_map]
  exact (candidate_modes_nodup graph).sublist (List.filter_sublist.map _)

theorem scored_best_first : (scored graph policy client).Pairwise fun a b => b.score ≤ a.score := by
  have htrans : ∀ a b c : BackendScore, decide (b.score ≤ a.score) = true →
      decide (c.score ≤ b.score) = true → decide (c.score ≤ a.score) = true := by
    intro a b c hab hbc
    rw [decide_eq_true_eq] at hab hbc ⊢
    exact Int.le_trans hbc hab
  have htotal : ∀ a b : BackendScore,
      (decide (b.score ≤ a.score) || decide (a.score ≤ b.score)) = true := by
    intro a b
    rw [Bool.or_eq_true, decide_eq_true_eq, decide_eq_true_eq]
    exact Int.le_total _ _
  exact (List.pairwise_mergeSort htrans htotal _).imp fun h => of_decide_eq_true h

/-! The decision. -/

theorem chooseBackend_auto_modes (graph : VmCapabilityGraph) (policy : PolicyResult)
    (client : ClientCapabilities) :
    (chooseBackend graph policy client .auto).modes =
      if (scored graph policy client).isEmpty then [.offline]
      else (scored graph policy client).map (·.mode) := by
  rw [chooseBackend]
  cases scored graph policy client <;> rfl

theorem auto_choice : AutoChoice graph policy client (chooseBackend graph policy client .auto) := by
  have hmodes := chooseBackend_auto_modes graph policy client
  by_cases hempty : (scored graph policy client).isEmpty
  · rw [if_pos hempty] at hmodes
    refine ⟨?_, ?_, ?_⟩
    · rw [hmodes]
      intro mode hmem hmode
      exact absurd (List.mem_singleton.mp hmem) hmode
    · intro candidate hcandidate hpermitted hoffered
      have hmem := mem_scored.mpr ⟨candidate, hcandidate, hpermitted, hoffered, rfl⟩
      rw [List.isEmpty_iff.mp hempty] at hmem
      cases hmem
    · rw [hmodes]
      exact List.pairwise_singleton _ _
  · rw [if_neg hempty] at hmodes
    refine ⟨?_, ?_, ?_⟩
    · rw [hmodes]
      intro mode hmem _
      obtain ⟨score, hscore, rfl⟩ := List.mem_map.mp hmem
      obtain ⟨candidate, _, hpermitted, hoffered, rfl⟩ := mem_scored.mp hscore
      exact ⟨hpermitted, hoffered⟩
    · intro candidate hcandidate hpermitted hoffered
      rw [hmodes]
      exact List.mem_map.mpr
        ⟨_, mem_scored.mpr ⟨candidate, hcandidate, hpermitted, hoffered, rfl⟩, rfl⟩
    · rw [hmodes, List.pairwise_map]
      refine scored_best_first.imp_of_mem fun {a b} ha hb hle c hc d hd hmode hlater => ?_
      obtain ⟨c', hc', _, _, rfl⟩ := mem_scored.mp ha
      obtain ⟨d', hd', _, _, rfl⟩ := mem_scored.mp hb
      obtain rfl := candidate_unique hc hc' hmode
      obtain rfl := candidate_unique hd hd' hlater
      exact hle

theorem explicit_choice (mode : SessionMode) :
    ExplicitChoice graph policy client mode
      (chooseBackend graph policy client (.explicit mode)) := by
  have hoffline : client.supports .offline = false := rfl
  simp only [chooseBackend]
  by_cases hallowed : mode ∈ policy.allowedModes
  · rw [if_neg (not_not.mpr hallowed)]
    by_cases hsupports : client.supports mode = false
    · rw [if_pos hsupports]
      exact ⟨rfl, .inl rfl, fun h => absurd rfl h, fun h =>
        absurd (hsupports.symm.trans h.1.2) Bool.false_ne_true⟩
    · rw [if_neg hsupports]
      by_cases hblocked : (modeCapability graph mode).state = .unsupported ∨
          (modeCapability graph mode).state = .blockedByPolicy
      · rw [if_pos hblocked]
        exact ⟨rfl, .inl rfl, fun h => absurd rfl h, fun h =>
          absurd hblocked (not_or.mpr h.2)⟩
      · rw [if_neg hblocked]
        refine ⟨rfl, .inr rfl, fun _ => ⟨⟨hallowed, eq_true_of_ne_false hsupports⟩,
          not_or.mp hblocked⟩, fun _ (hmode : mode = .offline) => ?_⟩
        rw [hmode] at hsupports
        exact hsupports hoffline
  · rw [if_pos hallowed]
    exact ⟨rfl, .inl rfl, fun h => absurd rfl h, fun h => absurd h.1.1 hallowed⟩

theorem modes_nodup (requested : RequestedMode) :
    (chooseBackend graph policy client requested).modes.Nodup := by
  cases requested with
  | auto =>
      rw [chooseBackend_auto_modes]
      split_ifs
      · exact List.nodup_singleton _
      · exact scored_modes_nodup
  | explicit mode =>
      rw [BackendDecision.modes, (explicit_choice mode).fallbacks]
      exact List.nodup_singleton _

/-- An available console of those that are explained is one of the interactive ones. -/
theorem anyInteractive_of_explained
    (h : (explainUnavailability graph).summary ≠ consoleUnavailable) :
    graph.anyInteractive = true := by
  by_cases hany : (interactiveModes graph).any (·.2.state.isAvailable)
  · simp only [interactiveModes, List.any_cons, List.any_nil, Bool.or_false,
      Bool.or_eq_true] at hany
    simp only [VmCapabilityGraph.anyInteractive, List.any_cons, List.any_nil, Bool.or_false,
      Bool.or_eq_true]
    tauto
  · rw [explainUnavailability, if_neg hany] at h
    exact absurd rfl h

end

/-- For every graph, policy, client and request the decision is a sound one, names no mode
twice, and a console that is explained as available is an interactive one. -/
theorem chooseBackend_sound (graph : VmCapabilityGraph) (policy : PolicyResult)
    (client : ClientCapabilities) (requested : RequestedMode) :
    SoundChoice graph policy client requested (chooseBackend graph policy client requested) ∧
      (chooseBackend graph policy client requested).modes.Nodup ∧
      ((explainUnavailability graph).summary ≠ consoleUnavailable →
        graph.anyInteractive = true) := by
  refine ⟨?_, modes_nodup requested, anyInteractive_of_explained⟩
  cases requested with
  | auto => exact auto_choice
  | explicit mode => exact explicit_choice mode

/-! A graph of which nothing is there but an experimental console. -/

def absentCapability : Capability where
  state := .unsupported
  reasonCode := "NONE"
  humanReason := "not available"
  remediation := none

def experimentalCapability : Capability where
  state := .experimental
  reasonCode := "EXPERIMENTAL_DISABLED"
  humanReason := "Experimental backend — POC checklist not passed"
  remediation := some "Enable feature flag hv_socket_backend.enabled"

def experimentalGraph : VmCapabilityGraph where
  preview := absentCapability
  keyboardRescue := absentCapability
  rdpRelay := absentCapability
  vncConsole := absentCapability
  spiceConsole := absentCapability
  webConsole := absentCapability
  webmksConsole := absentCapability
  serialConsole := absentCapability
  enhancedSession := absentCapability
  hvSocket := experimentalCapability
  clipboard := absentCapability
  recording := absentCapability
  experimental := experimentalCapability
  recommendedMode := .offline

/-- The permissive policy. -/
def PolicyResult.allowAll : PolicyResult where
  allowedModes := [.previewOnly, .basicRescue, .rdpRelay, .vncConsole, .spiceConsole,
    .webConsole, .webMksConsole, .serialConsole, .enhancedSession, .providerNativeConsole]
  recordingMode := .eventTimeline
  reason := none

def ClientCapabilities.default : ClientCapabilities where
  canRdp := true
  canVnc := true
  canSpice := true
  canWebmks := true
  canSerial := true
  canPreview := true
  canRescue := true

/-- It is selected when it is asked for. -/
theorem experimental_console_selected :
    let decision := chooseBackend experimentalGraph .allowAll .default
      (.explicit .providerNativeConsole)
    decision.selectedMode ≠ .offline ∧ ¬ Offered experimentalGraph decision.selectedMode := by
  decide

end EvertyDesk.Host
