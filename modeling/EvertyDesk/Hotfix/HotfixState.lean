import EvertyDesk.Host.MultiEncoder
import EvertyDesk.Lib.Machine

/-!
The hotfix pipeline of the client. Report threads fetch plans and publish them under a
lock: a plan that needs no consent joins a queue, one that does takes the single place of
the plan that waits for an answer. The thread of the user interface takes them from there,
changes the display settings, and puts them back when the time of a plan is over. Each
input of the machine is one section of the code that holds the lock, with what the thread
does alone after it.
-/

namespace EvertyDesk.Hotfix

open Host (CodecPreference EncoderPreference)

/-! The settings. -/

inductive StreamingMode where
  | support
  | interactive
  | game
deriving DecidableEq, Repr

inductive FsrQualitySetting where
  | off
  | native
  | ultraQuality
  | quality
  | balanced
  | performance
deriving DecidableEq, Repr

/-- The sharpness is a float and is carried as its bits. -/
structure DisplayConfig where
  codec : CodecPreference
  encoder : EncoderPreference
  targetFps : UInt32
  adaptiveQuality : Bool
  minFps : UInt32
  streamingMode : StreamingMode
  fsrQuality : FsrQualitySetting
  fsrSharpness : UInt32
  nearestNeighbour : Bool
  idrIntervalSecs : UInt32
deriving DecidableEq, Repr

/-- The settings of a new client. -/
def DisplayConfig.default : DisplayConfig where
  codec := .evrtck
  encoder := .auto
  targetFps := 30
  adaptiveQuality := true
  minFps := 15
  streamingMode := .support
  fsrQuality := .off
  fsrSharpness := 0x3F600000
  nearestNeighbour := false
  idrIntervalSecs := 20

structure DisplaySnapshot where
  targetFps : UInt32
  encoder : EncoderPreference
  fsrQuality : FsrQualitySetting
deriving DecidableEq, Repr

def snapshotDisplay (display : DisplayConfig) : DisplaySnapshot where
  targetFps := display.targetFps
  encoder := display.encoder
  fsrQuality := display.fsrQuality

def applySnapshot (snap : DisplaySnapshot) (display : DisplayConfig) : DisplayConfig :=
  { display with
    targetFps := snap.targetFps
    encoder := snap.encoder
    fsrQuality := snap.fsrQuality }

/-! Plans. -/

/-- A number as the library keeps it: of the kind that it was written as. -/
inductive Number where
  | posInt (n : UInt64)
  | negInt (n : Int)
  | float (bits : UInt64)
deriving DecidableEq, Repr

inductive Value where
  | null
  | bool (b : Bool)
  | number (n : Number)
  | string (s : String)
  | array (items : List Value)
  | object (fields : List (String × Value))

namespace Value

def asU64 : Value → Option UInt64
  | number (.posInt n) => some n
  | _ => none

def asStr : Value → Option String
  | string s => some s
  | _ => none

def asBool : Value → Option Bool
  | bool b => some b
  | _ => none

end Value

structure PlanAction where
  op : String
  param : String
  value : Value

def encoderOf (s : String) : EncoderPreference :=
  if s = "software" then .software
  else if s = "nvenc" ∨ s = "videotoolbox" then .nvenc
  else .auto

def fsrQualityOf (s : String) : FsrQualitySetting :=
  if s = "off" then .off
  else if s = "native" then .native
  else if s = "ultra_quality" then .ultraQuality
  else if s = "quality" then .quality
  else if s = "balanced" then .balanced
  else if s = "performance" then .performance
  else .off

/-- A value of another type than the setting has leaves the setting as it is. -/
def applyAction (display : DisplayConfig) (action : PlanAction) : DisplayConfig :=
  if action.op = "set_target_fps" then
    match action.value.asU64 with
    | some v => { display with targetFps := UInt32.ofNat (min (max v.toNat 5) 120) }
    | none => display
  else if action.op = "set_encoder" then
    match action.value.asStr with
    | some s => { display with encoder := encoderOf s }
    | none => display
  else if action.op = "set_fsr_quality" then
    match action.value.asStr with
    | some s => { display with fsrQuality := fsrQualityOf s }
    | none => display
  else if action.op = "set_adaptive_quality" then
    match action.value.asBool with
    | some b => { display with adaptiveQuality := b }
    | none => display
  else display

def applyActions (actions : List PlanAction) (display : DisplayConfig) : DisplayConfig :=
  actions.foldl applyAction display

def actionHumanLabel (render : Value → String) (action : PlanAction) : String :=
  if action.op = "set_target_fps" then "Установить FPS = " ++ render action.value
  else if action.op = "set_encoder" then "Сменить энкодер на " ++ render action.value
  else if action.op = "set_fsr_quality" then "FSR качество = " ++ render action.value
  else if action.op = "set_adaptive_quality" then
    "Адаптивное качество = " ++ render action.value
  else action.op ++ " = " ++ render action.value

structure ReadyPlan where
  planId : String
  actions : List PlanAction
  rollbackActions : List PlanAction
  ttlSeconds : UInt64

structure PendingRollback where
  deadlineUnix : UInt64
  planId : String
  rollbackActions : List PlanAction
  original : DisplaySnapshot

structure ConsentRequest where
  planId : String
  riskLevel : String
  summary : String
  actionsHuman : List String
deriving DecidableEq

structure PendingConsent where
  planId : String
  riskLevel : String
  summary : String
  actionsHuman : List String
  ready : ReadyPlan

def PendingConsent.request (pc : PendingConsent) : ConsentRequest where
  planId := pc.planId
  riskLevel := pc.riskLevel
  summary := pc.summary
  actionsHuman := pc.actionsHuman

/-! What a report thread makes of the server's answers. -/

structure AnalysisResponse where
  status : String
  planId : Option String

structure PlanResponse where
  decision : String
  riskLevel : String
  requiresUserConsent : Bool
  ttlSeconds : UInt64
  actions : List PlanAction
  rollbackActions : List PlanAction
  summaryText : Option String
  sig : String
  payload : String

/-- The answers to one report; what is missing is a request that failed. -/
structure ServerAnswers where
  incidentId : Option String
  analysis : Nat → Option AnalysisResponse
  plan : String → Option PlanResponse

/-- The libraries for base64, for signatures and for the text of a value. A signed message is
opened into a buffer of some length, which has to be that of the message. -/
structure Libraries where
  b64Decode : String → Option (List UInt8)
  cryptoSignOpen : Nat → List UInt8 → List UInt8 → Option (List UInt8)
  render : Value → String

inductive SignatureError where
  | sigDecode
  | sigLength (got : Nat)
  | pubkeyDecode
  | pubkeyLength
  | invalid
deriving DecidableEq, Repr

/-- A plan on its way to the user interface. -/
inductive Published where
  | ready (plan : ReadyPlan)
  | consent (pc : PendingConsent)

def Published.plan : Published → ReadyPlan
  | ready plan => plan
  | consent pc => pc.ready

section Reports

variable (lib : Libraries)

/-- The signature stands before the bytes that are signed. The buffer for them is empty. -/
def verifyPlanSignature (payload sigB64 pubkeyB64 : String) : Except SignatureError Unit :=
  match lib.b64Decode sigB64 with
  | none => .error .sigDecode
  | some sigBytes =>
      if sigBytes.length ≠ 64 then .error (.sigLength sigBytes.length)
      else
        match lib.b64Decode pubkeyB64 with
        | none => .error .pubkeyDecode
        | some pk =>
            if pk.length ≠ 32 then .error .pubkeyLength
            else
              match lib.cryptoSignOpen 0 (sigBytes ++ payload.toUTF8.toList) pk with
              | some _ => .ok ()
              | none => .error .invalid

/-- Up to 24 polls; the inner `none` is no plan in time. -/
def pollAnalysis (analysis : Nat → Option AnalysisResponse) : Nat → Nat → Option (Option String)
  | 0, _ => some none
  | left + 1, poll =>
      match analysis poll with
      | none => none
      | some ar =>
          if ar.status = "ready" then some ar.planId
          else if ar.status = "failed" then none
          else pollAnalysis analysis left (poll + 1)

/-- What is published of a plan that was fetched. -/
def publishPlan (planId : String) (plan : PlanResponse) : Published :=
  let ready : ReadyPlan := {
    planId := planId
    actions := plan.actions
    rollbackActions := plan.rollbackActions
    ttlSeconds := plan.ttlSeconds }
  if plan.requiresUserConsent then
    .consent {
      planId := planId
      riskLevel := plan.riskLevel
      summary := plan.summaryText.getD
        ("Изменить настройки (" ++ toString plan.actions.length ++ " действий)")
      actionsHuman := plan.actions.map (actionHumanLabel lib.render)
      ready := ready }
  else .ready ready

/-- The plan is wanted, and its payload is signed if there is a key to check it with. -/
def acceptPlan (signingPublicKey : String) (plan : PlanResponse) : Bool :=
  if plan.decision = "no_action" ∨ plan.decision = "advice_only" then false
  else if signingPublicKey = "" then true
  else
    match verifyPlanSignature lib plan.payload plan.sig signingPublicKey with
    | .ok () => true
    | .error _ => false

/-- The plan that the analysis of the incident came to, with the id it was asked by. -/
def fetchedPlan (answers : ServerAnswers) : Option (String × PlanResponse) := do
  let _incidentId ← answers.incidentId
  let planId ← (← pollAnalysis answers.analysis 24 0)
  if planId = "" then none else (answers.plan planId).map fun plan => (planId, plan)

def runReport (signingPublicKey : String) (answers : ServerAnswers) : Option Published := do
  let (planId, plan) ← fetchedPlan answers
  if acceptPlan lib signingPublicKey plan then some (publishPlan lib planId plan) else none

/-- What a report publishes is a plan that it fetched and accepted. -/
theorem runReport_eq_some {signingPublicKey : String} {answers : ServerAnswers}
    {published : Published} (h : runReport lib signingPublicKey answers = some published) :
    ∃ planId plan, fetchedPlan answers = some (planId, plan) ∧
      acceptPlan lib signingPublicKey plan = true ∧ published = publishPlan lib planId plan := by
  rw [runReport] at h
  cases hfetched : fetchedPlan answers with
  | none =>
      rw [hfetched] at h
      cases h
  | some fetched =>
      obtain ⟨planId, plan⟩ := fetched
      rw [hfetched] at h
      cases haccept : acceptPlan lib signingPublicKey plan with
      | false =>
          simp only [Option.bind_eq_bind, Option.bind_some, haccept] at h
          cases h
      | true =>
          simp only [Option.bind_eq_bind, Option.bind_some, haccept] at h
          exact ⟨planId, plan, rfl, haccept, (Option.some.inj h).symm⟩

/-- A server that has a plan ready at the first poll. -/
def ServerAnswers.ofPlan (planId : String) (plan : PlanResponse) : ServerAnswers where
  incidentId := some "incident"
  analysis _ := some { status := "ready", planId := some planId }
  plan _ := some plan

/-- A plan without signature, as a server sends it when the client has no key. -/
def unsignedPlan (requiresUserConsent : Bool) (ttlSeconds : UInt64) (actions : List PlanAction) :
    PlanResponse where
  decision := "apply"
  riskLevel := "low"
  requiresUserConsent := requiresUserConsent
  ttlSeconds := ttlSeconds
  actions := actions
  rollbackActions := []
  summaryText := none
  sig := ""
  payload := ""

/-- The libraries where there is no key and so nothing to decode or to verify. -/
def withoutKey : Libraries where
  b64Decode _ := none
  cryptoSignOpen _ _ _ := none
  render
    | .bool b => toString b
    | .number (.posInt n) => toString n
    | _ => "null"

end Reports

/-- The shared state, and the display settings of the user interface. -/
structure HotfixState where
  pendingRollbacks : List PendingRollback
  pendingConsent : Option PendingConsent
  readyPlans : List ReadyPlan
  display : DisplayConfig

/-- What happens to the shared state: a report comes to its end, or the user interface is in
one of its sections. A `tick` is `expire`, `drain` and `request` in turn, with reports in
between. -/
inductive HotfixInput where
  | report (answers : ServerAnswers)
  | expire (now : UInt64)
  | drain (clock : Nat → UInt64)
  | request
  | confirm (now : UInt64)
  | deny

namespace HotfixState

def new (display : DisplayConfig) : HotfixState where
  pendingRollbacks := []
  pendingConsent := none
  readyPlans := []
  display := display

def publish (s : HotfixState) : Published → HotfixState
  | .ready plan => { s with readyPlans := s.readyPlans ++ [plan] }
  | .consent pc => { s with pendingConsent := some pc }

/-- The first section of `tick`: the expired plans are rolled back, in their order. -/
def expire (s : HotfixState) (now : UInt64) : HotfixState :=
  let expired := s.pendingRollbacks.filter fun rb => decide (rb.deadlineUnix ≤ now)
  { s with
    pendingRollbacks := s.pendingRollbacks.filter fun rb => !decide (rb.deadlineUnix ≤ now)
    display := expired.foldl (fun display rb => applySnapshot rb.original display) s.display }

/-- Apply a plan; the clock is read after it was applied. -/
def applyPlan (s : HotfixState) (plan : ReadyPlan) (now : UInt64) : HotfixState :=
  let snapshot := snapshotDisplay s.display
  let s := { s with display := applyActions plan.actions s.display }
  if plan.ttlSeconds > 0 then
    { s with pendingRollbacks := s.pendingRollbacks ++ [{
        deadlineUnix := now + plan.ttlSeconds
        planId := plan.planId
        rollbackActions := plan.rollbackActions
        original := snapshot }] }
  else s

/-- Apply plans in turn, each with its own reading of the clock. -/
def applyPlans (s : HotfixState) : List ReadyPlan → (Nat → UInt64) → HotfixState
  | [], _ => s
  | plan :: plans, clock => (s.applyPlan plan (clock 0)).applyPlans plans fun n => clock (n + 1)

/-- The second section of `tick`: the queue is taken and applied. -/
def drain (s : HotfixState) (clock : Nat → UInt64) : HotfixState :=
  { s with readyPlans := [] }.applyPlans s.readyPlans clock

/-- The third section of `tick`. -/
def request (s : HotfixState) : Option ConsentRequest := s.pendingConsent.map (·.request)

def confirmConsent (s : HotfixState) (now : UInt64) : HotfixState :=
  match s.pendingConsent with
  | some pc => { s with pendingConsent := none }.applyPlan pc.ready now
  | none => s

def denyConsent (s : HotfixState) : HotfixState := { s with pendingConsent := none }

theorem applyPlan_display (s : HotfixState) (plan : ReadyPlan) (now : UInt64) :
    (s.applyPlan plan now).display = applyActions plan.actions s.display := by
  rw [applyPlan]
  split <;> rfl

theorem applyPlan_waiting (s : HotfixState) (plan : ReadyPlan) (now : UInt64) :
    (s.applyPlan plan now).readyPlans = s.readyPlans ∧
      (s.applyPlan plan now).pendingConsent = s.pendingConsent := by
  rw [applyPlan]
  split <;> exact ⟨rfl, rfl⟩

theorem applyPlans_display (s : HotfixState) (plans : List ReadyPlan) (clock : Nat → UInt64) :
    (s.applyPlans plans clock).display =
      plans.foldl (fun display plan => applyActions plan.actions display) s.display := by
  induction plans generalizing s clock with
  | nil => rfl
  | cons plan plans ih =>
      rw [applyPlans, ih, applyPlan_display]
      rfl

theorem applyPlans_waiting (s : HotfixState) (plans : List ReadyPlan) (clock : Nat → UInt64) :
    (s.applyPlans plans clock).readyPlans = s.readyPlans ∧
      (s.applyPlans plans clock).pendingConsent = s.pendingConsent := by
  induction plans generalizing s clock with
  | nil => exact ⟨rfl, rfl⟩
  | cons plan plans ih =>
      obtain ⟨hready, hconsent⟩ := ih (s.applyPlan plan (clock 0)) fun n => clock (n + 1)
      obtain ⟨hready', hconsent'⟩ := s.applyPlan_waiting plan (clock 0)
      exact ⟨hready.trans hready', hconsent.trans hconsent'⟩

/-- All plans that wait, in the queue or for an answer, meet a condition. -/
structure AllWaiting (P : ReadyPlan → Prop) (s : HotfixState) : Prop where
  ready : ∀ plan ∈ s.readyPlans, P plan
  consent : ∀ pc, s.pendingConsent = some pc → P pc.ready

theorem AllWaiting.publish {P : ReadyPlan → Prop} {s : HotfixState} (h : s.AllWaiting P)
    {published : Published} (hpublished : P published.plan) :
    (s.publish published).AllWaiting P := by
  cases published with
  | ready plan =>
      refine ⟨fun other hother => ?_, h.consent⟩
      rcases List.mem_append.mp hother with hother | hother
      · exact h.ready other hother
      · obtain rfl := List.mem_singleton.mp hother
        exact hpublished
  | consent pc =>
      refine ⟨h.ready, fun other hother => ?_⟩
      obtain rfl := Option.some.inj hother
      exact hpublished

theorem AllWaiting.drained {P : ReadyPlan → Prop} {s : HotfixState} (h : s.AllWaiting P) :
    HotfixState.AllWaiting P { s with readyPlans := [] } :=
  ⟨fun _ hplan => absurd hplan List.not_mem_nil, h.consent⟩

theorem AllWaiting.answered {P : ReadyPlan → Prop} {s : HotfixState} (h : s.AllWaiting P) :
    HotfixState.AllWaiting P { s with pendingConsent := none } :=
  ⟨h.ready, fun _ hpc => (nomatch hpc)⟩

theorem AllWaiting.applyPlans {P : ReadyPlan → Prop} {s : HotfixState} (h : s.AllWaiting P)
    (plans : List ReadyPlan) (clock : Nat → UInt64) :
    (s.applyPlans plans clock).AllWaiting P := by
  obtain ⟨hready, hconsent⟩ := s.applyPlans_waiting plans clock
  constructor
  · rw [hready]
    exact h.ready
  · rw [hconsent]
    exact h.consent

/-- The plans that a step applies. -/
def applied (s : HotfixState) : HotfixInput → List ReadyPlan
  | .drain _ => s.readyPlans
  | .confirm _ => (s.pendingConsent.map (·.ready)).toList
  | _ => []

end HotfixState

section Machine

variable (lib : Libraries) (signingPublicKey : String)

def HotfixState.step (s : HotfixState) : HotfixInput → HotfixState
  | .report answers =>
      match runReport lib signingPublicKey answers with
      | some published => s.publish published
      | none => s
  | .expire now => s.expire now
  | .drain clock => s.drain clock
  | .request => s
  | .confirm now => s.confirmConsent now
  | .deny => s.denyConsent

/-- The output is the request that `tick` returns. -/
def hotfixPipeline : Machine HotfixState HotfixInput (Option ConsentRequest) where
  step s input := (s.step lib signingPublicKey input,
    match input with
    | .request => s.request
    | _ => none)

/-- Only a report adds to the plans that wait. -/
theorem HotfixState.AllWaiting.step {P : ReadyPlan → Prop} {s : HotfixState}
    (h : s.AllWaiting P) (i : HotfixInput)
    (hreport : ∀ answers published, i = .report answers →
      runReport lib signingPublicKey answers = some published → P published.plan) :
    (s.step lib signingPublicKey i).AllWaiting P := by
  cases i with
  | report answers =>
      rw [HotfixState.step]
      cases hrun : runReport lib signingPublicKey answers with
      | none => exact h
      | some published => exact h.publish (hreport answers published rfl hrun)
  | expire now => exact ⟨h.ready, h.consent⟩
  | drain clock => exact h.drained.applyPlans s.readyPlans clock
  | request => exact h
  | confirm now =>
      rw [HotfixState.step, confirmConsent]
      cases s.pendingConsent with
      | none => exact h
      | some pc => exact h.answered.applyPlans [pc.ready] fun _ => now
  | deny => exact h.answered

theorem HotfixState.AllWaiting.applied {P : ReadyPlan → Prop} {s : HotfixState}
    (h : s.AllWaiting P) (i : HotfixInput) : ∀ plan ∈ s.applied i, P plan := by
  intro plan hplan
  cases i with
  | drain clock => exact h.ready plan hplan
  | confirm now =>
      rw [HotfixState.applied, Option.mem_toList, Option.map_eq_some_iff] at hplan
      obtain ⟨pc, hpc, rfl⟩ := hplan
      exact h.consent pc hpc
  | report answers => exact absurd hplan List.not_mem_nil
  | expire now => exact absurd hplan List.not_mem_nil
  | request => exact absurd hplan List.not_mem_nil
  | deny => exact absurd hplan List.not_mem_nil

theorem HotfixState.new_allWaiting (P : ReadyPlan → Prop) (display : DisplayConfig) :
    (new display).AllWaiting P :=
  ⟨fun _ hplan => absurd hplan List.not_mem_nil, fun _ hpc => (nomatch hpc)⟩

/-- The settings change by the actions of the plans that a step applies, and by snapshots
where plans are over. -/
theorem HotfixState.step_display (s : HotfixState) {i : HotfixInput} (hi : ∀ now, i ≠ .expire now) :
    (s.step lib signingPublicKey i).display =
      (s.applied i).foldl (fun display plan => applyActions plan.actions display) s.display := by
  cases i with
  | expire now => exact absurd rfl (hi now)
  | report answers =>
      rw [step]
      cases runReport lib signingPublicKey answers with
      | none => rfl
      | some published => cases published <;> rfl
  | drain clock => exact applyPlans_display { s with readyPlans := [] } s.readyPlans clock
  | request => rfl
  | confirm now =>
      rw [step, confirmConsent, applied]
      cases s.pendingConsent with
      | none => rfl
      | some pc => exact applyPlan_display { s with pendingConsent := none } pc.ready now
  | deny => rfl

end Machine

end EvertyDesk.Hotfix
