import EvertyDesk.Hotfix.HotfixState

/-!
Signed plans. The signature of a response is over its payload string, and what is applied
is taken from the fields next to that string, which no one compares with it. So what is
applied is signed as far as the server keeps the fields and the payload the same.
-/

namespace EvertyDesk.Hotfix

section Signed

variable (lib : Libraries) (signingPublicKey : String)

/-- What the actions and the time are that a payload stands for. -/
abbrev PayloadReading := String → Option (List PlanAction × UInt64)

variable (encodedIn : PayloadReading)

/-- The actions and the time of the plan are those of a payload with a signature that
verifies. -/
def Signed (plan : ReadyPlan) : Prop :=
  ∃ payload sig, verifyPlanSignature lib payload sig signingPublicKey = .ok () ∧
    encodedIn payload = some (plan.actions, plan.ttlSeconds)

/-- A response that is accepted says next to its payload what the payload says. -/
def MatchesPayload : HotfixInput → Prop
  | .report answers => ∀ planId plan, fetchedPlan answers = some (planId, plan) →
      acceptPlan lib signingPublicKey plan = true →
        encodedIn plan.payload = some (plan.actions, plan.ttlSeconds)
  | _ => True

end Signed

section Acceptance

variable {lib : Libraries} {signingPublicKey : String} {encodedIn : PayloadReading}

theorem acceptPlan_verified (hkey : signingPublicKey ≠ "") {plan : PlanResponse}
    (h : acceptPlan lib signingPublicKey plan = true) :
    verifyPlanSignature lib plan.payload plan.sig signingPublicKey = .ok () := by
  unfold acceptPlan at h
  split at h
  · cases h
  · split at h
    next hverified => exact hverified
    · cases h

@[simp] theorem publishPlan_actions (planId : String) (plan : PlanResponse) :
    (publishPlan lib planId plan).plan.actions = plan.actions := by
  unfold publishPlan
  split <;> rfl

@[simp] theorem publishPlan_ttlSeconds (planId : String) (plan : PlanResponse) :
    (publishPlan lib planId plan).plan.ttlSeconds = plan.ttlSeconds := by
  unfold publishPlan
  split <;> rfl

theorem published_signed (hkey : signingPublicKey ≠ "") {answers : ServerAnswers}
    {published : Published} (hrun : runReport lib signingPublicKey answers = some published)
    (hmatches : MatchesPayload lib signingPublicKey encodedIn (.report answers)) :
    Signed lib signingPublicKey encodedIn published.plan := by
  obtain ⟨planId, plan, hfetched, haccept, rfl⟩ := runReport_eq_some lib hrun
  refine ⟨plan.payload, plan.sig, acceptPlan_verified hkey haccept, ?_⟩
  rw [publishPlan_actions, publishPlan_ttlSeconds]
  exact hmatches planId plan hfetched haccept

end Acceptance

section Runs

variable {lib : Libraries} {signingPublicKey : String} {encodedIn : PayloadReading}
variable {inputs : List HotfixInput}

/-- With a key, and responses that say next to their payload what it says, all that is ever
applied is signed. -/
theorem applied_signed (hkey : signingPublicKey ≠ "")
    (hmatches : ∀ i ∈ inputs, MatchesPayload lib signingPublicKey encodedIn i)
    (display : DisplayConfig) :
    (hotfixPipeline lib signingPublicKey).Along
      (fun s i => ∀ plan ∈ s.applied i, Signed lib signingPublicKey encodedIn plan)
      (.new display) inputs := by
  apply Machine.along_of_invariant
    (I := HotfixState.AllWaiting (Signed lib signingPublicKey encodedIn))
    _ _ _ (Machine.along_of_inputs _ hmatches _)
  · intro s i h hok
    refine ⟨h.step lib signingPublicKey i ?_, h.applied i⟩
    rintro answers published rfl hrun
    exact published_signed hkey hrun hok
  · exact HotfixState.new_allWaiting _ display

/-- A server's key in base64, and as the library decodes it. -/
def serverKey : String := "11qYAYKxCrfVS/7TyWQHOg7hcvPapiMlrwIaaPcHURo="

def serverKeyBytes : List UInt8 :=
  [215, 90, 152, 1, 130, 177, 10, 183, 213, 75, 254, 211, 201, 100, 7, 58, 14, 225, 114, 243,
    218, 166, 35, 37, 175, 2, 26, 104, 247, 7, 81, 26]

/-- The server's signature of nothing. -/
def emptySig : String :=
  "5VZDAMNgrHKQhuLMgG6CioSHfx645dl02HPgZSJJAVVfuIIVkKM7rMYeOXAc+bRr0lv18FlbviRlUUFDjnoQCw=="

def emptySigBytes : List UInt8 :=
  [229, 86, 67, 0, 195, 96, 172, 114, 144, 134, 226, 204, 128, 110, 130, 138, 132, 135, 127, 30,
    184, 229, 217, 116, 216, 115, 224, 101, 34, 73, 1, 85, 95, 184, 130, 21, 144, 163, 59, 172,
    198, 30, 57, 112, 28, 249, 180, 107, 210, 91, 245, 240, 89, 91, 190, 36, 101, 81, 65, 67, 142,
    122, 16, 11]

/-- The libraries on this key and this signature. -/
def oneSignature : Libraries where
  b64Decode text :=
    if text = serverKey then some serverKeyBytes
    else if text = emptySig then some emptySigBytes
    else none
  cryptoSignOpen room signed key :=
    if signed.length = 64 + room ∧ signed = emptySigBytes ∧ key = serverKeyBytes then some []
    else none
  render
    | .bool b => toString b
    | .number (.posInt n) => toString n
    | _ => "null"

/-- An action that is in no payload. -/
def otherAction : PlanAction where
  op := "set_encoder"
  param := "encoder"
  value := .string "software"

/-- An empty payload has no actions and no time. -/
def readPayload : PayloadReading := fun payload => if payload = "" then some ([], 0) else none

/-- A response with the empty payload and its signature, and with fields of its own. -/
def signedResponse (actions : List PlanAction) (ttlSeconds : UInt64) : PlanResponse where
  decision := "apply"
  riskLevel := "low"
  requiresUserConsent := false
  ttlSeconds := ttlSeconds
  actions := actions
  rollbackActions := []
  summaryText := none
  sig := emptySig
  payload := ""

def appliedAtOnce (plan : PlanResponse) : List HotfixInput :=
  [.report (.ofPlan "plan" plan), .drain fun _ => 100]

theorem verify_emptySig : verifyPlanSignature oneSignature "" emptySig serverKey = .ok () := by
  have hsig : oneSignature.b64Decode emptySig = some emptySigBytes := by
    have hother : emptySig ≠ serverKey := by decide
    simp only [oneSignature, if_neg hother, if_true]
  have hkey : oneSignature.b64Decode serverKey = some serverKeyBytes := by
    simp only [oneSignature, if_true]
  have hempty : "".toUTF8.toList = [] := by decide +kernel
  have hopen : oneSignature.cryptoSignOpen 0 emptySigBytes serverKeyBytes = some [] := by
    decide
  have hsigLength : emptySigBytes.length = 64 := rfl
  have hkeyLength : serverKeyBytes.length = 32 := rfl
  unfold verifyPlanSignature
  simp only [hsig, hkey, hempty, List.append_nil, hopen, hsigLength, hkeyLength, ne_eq,
    not_true_eq_false, if_false]

theorem accept_signedResponse (actions : List PlanAction) (ttlSeconds : UInt64) :
    acceptPlan oneSignature serverKey (signedResponse actions ttlSeconds) = true := by
  unfold acceptPlan
  have hdecision : ¬ ("apply" = "no_action" ∨ "apply" = "advice_only") := by decide
  have hkey : ¬ serverKey = "" := by decide
  have hverified := verify_emptySig
  simp only [signedResponse, if_neg hdecision, if_neg hkey, hverified]

theorem applied_signed_payload :
    acceptPlan oneSignature serverKey (signedResponse [] 0) = true ∧
      (hotfixPipeline oneSignature serverKey).Along
        (fun s i => ∀ plan ∈ s.applied i, Signed oneSignature serverKey readPayload plan)
        (.new .default) (appliedAtOnce (signedResponse [] 0)) := by
  refine ⟨accept_signedResponse [] 0, applied_signed (by decide) ?_ .default⟩
  intro i hi
  simp only [appliedAtOnce, List.mem_cons, List.not_mem_nil, or_false] at hi
  obtain rfl | rfl := hi
  · intro planId plan hfetched _
    obtain ⟨rfl, rfl⟩ := Prod.mk.inj (Option.some.inj hfetched)
    exact if_pos rfl
  · trivial

/-- With the same payload and signature a plan of other actions is applied, for ever. -/
theorem unsigned_fields_applied :
    ¬ (hotfixPipeline oneSignature serverKey).Along
      (fun s i => ∀ plan ∈ s.applied i, Signed oneSignature serverKey readPayload plan)
      (.new .default) (appliedAtOnce (signedResponse [otherAction] 0)) := by
  rintro ⟨-, hdrain, -⟩
  have hrun : runReport oneSignature serverKey (.ofPlan "plan" (signedResponse [otherAction] 0)) =
      some (publishPlan oneSignature "plan" (signedResponse [otherAction] 0)) :=
    if_pos (accept_signedResponse [otherAction] 0)
  simp only [hotfixPipeline, HotfixState.step, hrun] at hdrain
  obtain ⟨payload, sig, -, hread⟩ := hdrain _ List.mem_cons_self
  unfold readPayload at hread
  split at hread
  · have hactions : ([] : List PlanAction) = [otherAction] :=
      congrArg Prod.fst (Option.some.inj hread)
    cases hactions
  · cases hread

end Runs

end EvertyDesk.Hotfix
