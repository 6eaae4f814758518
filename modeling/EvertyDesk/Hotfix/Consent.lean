import EvertyDesk.Hotfix.HotfixState

/-!
Consent. The plans that need it are numbered in the order of their publication, and what
the user interface was shown last and what each of its answers took are written down next
to the state. There is one place for a plan that waits, and an answer takes what is there.
-/

namespace EvertyDesk.Hotfix

/-- A call of `confirm_consent` or `deny_consent`: the plan that the latest request
described, the plan that was taken, and the plans that were applied. -/
structure Answer where
  confirmed : Bool
  shown : Option Nat
  taken : Option Nat
  applied : List ReadyPlan

/-- The state, and what is written down of the run. `unanswered` says that a request was
received after the last answer. -/
structure ConsentRun where
  hotfix : HotfixState
  published : List PendingConsent
  inSlot : Option Nat
  shown : Option Nat
  unanswered : Bool
  answers : List Answer

namespace ConsentRun

def new (display : DisplayConfig) : ConsentRun where
  hotfix := .new display
  published := []
  inSlot := none
  shown := none
  unanswered := false
  answers := []

def publish (r : ConsentRun) : Published → ConsentRun
  | .ready plan => { r with hotfix := r.hotfix.publish (.ready plan) }
  | .consent pc => { r with
      hotfix := r.hotfix.publish (.consent pc)
      published := r.published ++ [pc]
      inSlot := some r.published.length }

def request (r : ConsentRun) : ConsentRun :=
  match r.hotfix.pendingConsent with
  | some _ => { r with shown := r.inSlot, unanswered := true }
  | none => r

/-- An answer takes what is in the slot. -/
def answer (r : ConsentRun) (confirmed : Bool) (next : HotfixState) (applied : List ReadyPlan) :
    ConsentRun :=
  { r with
    hotfix := next
    inSlot := none
    unanswered := false
    answers := r.answers ++ [{
      confirmed := confirmed
      shown := r.shown
      taken := r.inSlot
      applied := applied }] }

end ConsentRun

section Machine

variable (lib : Libraries) (signingPublicKey : String)

def ConsentRun.step (r : ConsentRun) (i : HotfixInput) : ConsentRun :=
  match i with
  | .report answers =>
      match runReport lib signingPublicKey answers with
      | some published => r.publish published
      | none => r
  | .expire now => { r with hotfix := r.hotfix.expire now }
  | .drain clock => { r with hotfix := r.hotfix.drain clock }
  | .request => r.request
  | .confirm now => r.answer true (r.hotfix.confirmConsent now) (r.hotfix.applied i)
  | .deny => r.answer false r.hotfix.denyConsent (r.hotfix.applied i)

def consentPipeline : Machine ConsentRun HotfixInput (Option ConsentRequest) where
  step r i := (r.step lib signingPublicKey i,
    ((hotfixPipeline lib signingPublicKey).step r.hotfix i).2)

/-- What is written down changes nothing. -/
theorem ConsentRun.step_hotfix (r : ConsentRun) (i : HotfixInput) :
    (r.step lib signingPublicKey i).hotfix = r.hotfix.step lib signingPublicKey i := by
  cases i with
  | report answers =>
      rw [step, HotfixState.step]
      cases runReport lib signingPublicKey answers with
      | none => rfl
      | some published => cases published <;> rfl
  | request =>
      rw [step, request]
      cases r.hotfix.pendingConsent <;> rfl
  | expire now => rfl
  | drain clock => rfl
  | confirm now => rfl
  | deny => rfl

theorem run_hotfix (r : ConsentRun) (inputs : List HotfixInput) :
    ((consentPipeline lib signingPublicKey).run r inputs).hotfix =
      (hotfixPipeline lib signingPublicKey).run r.hotfix inputs := by
  induction inputs generalizing r with
  | nil => rfl
  | cons i inputs ih =>
      rw [Machine.run_cons, Machine.run_cons, ih]
      congr 1
      exact r.step_hotfix lib signingPublicKey i

end Machine

namespace ConsentRun

variable {lib : Libraries} {signingPublicKey : String} {r : ConsentRun}

/-- The plan of a number, to be applied. -/
def plansOf (r : ConsentRun) (number : Option Nat) : List ReadyPlan :=
  ((number.bind fun n => r.published[n]?).map (·.ready)).toList

/-- A confirmation applies the plan that the latest request described, a refusal takes no
other, and every plan waits or was taken by an answer. -/
structure Binding (r : ConsentRun) : Prop where
  confirmed : ∀ a ∈ r.answers, a.confirmed = true →
    a.taken = a.shown ∧ a.applied = r.plansOf a.shown
  denied : ∀ a ∈ r.answers, a.confirmed = false → ∀ n, a.taken = some n → a.shown = some n
  kept : ∀ n < r.published.length, r.inSlot = some n ∨ ∃ a ∈ r.answers, a.taken = some n

/-- A plan that needs consent is published where none waits, and an answer is given to a
request that was received after the answer before. Where no plan waits a refusal does
nothing, nor does a confirmation before the first request. -/
def AnswersRequest (lib : Libraries) (signingPublicKey : String) (r : ConsentRun) :
    HotfixInput → Prop
  | .report answers => ∀ pc, runReport lib signingPublicKey answers = some (.consent pc) →
      r.hotfix.pendingConsent = none
  | .confirm _ => r.unanswered = true ∨ r.shown = none ∧ r.hotfix.pendingConsent = none
  | .deny => r.unanswered = true ∨ r.hotfix.pendingConsent = none
  | _ => True

/-- What always holds of what is written down. -/
structure Recorded (r : ConsentRun) : Prop where
  slot : r.hotfix.pendingConsent = r.inSlot.bind fun n => r.published[n]?
  slot_lt : ∀ n, r.inSlot = some n → n < r.published.length
  slot_fresh : ∀ n, r.inSlot = some n → ∀ a ∈ r.answers, a.taken ≠ some n
  shown_lt : ∀ n, r.shown = some n → n < r.published.length
  taken_lt : ∀ a ∈ r.answers, ∀ n, a.taken = some n → n < r.published.length
  applied : ∀ a ∈ r.answers, a.confirmed = true → a.applied = r.plansOf a.taken
  open_request : r.unanswered = true →
    ∃ n, r.shown = some n ∧ ∀ a ∈ r.answers, a.taken ≠ some n
  answered_request : r.unanswered = false → ∀ n, r.shown = some n → r.inSlot ≠ some n

theorem Recorded.slot_empty (h : r.Recorded) :
    r.hotfix.pendingConsent = none ↔ r.inSlot = none := by
  rw [h.slot]
  cases hslot : r.inSlot with
  | none => exact iff_of_true rfl rfl
  | some n =>
      rw [Option.bind_some, List.getElem?_eq_getElem (h.slot_lt n hslot)]
      exact iff_of_false nofun nofun

/-- What leaves the slot alone changes nothing of what is written down. -/
theorem Recorded.of_slot (h : r.Recorded) {next : HotfixState}
    (hnext : next.pendingConsent = r.hotfix.pendingConsent) :
    ConsentRun.Recorded { r with hotfix := next } :=
  ⟨hnext.trans h.slot, h.slot_lt, h.slot_fresh, h.shown_lt, h.taken_lt, h.applied,
    h.open_request, h.answered_request⟩

theorem Binding.of_hotfix (hb : r.Binding) (next : HotfixState) :
    ConsentRun.Binding { r with hotfix := next } :=
  ⟨hb.confirmed, hb.denied, hb.kept⟩

theorem Recorded.applied_confirm (h : r.Recorded) (now : UInt64) :
    r.hotfix.applied (.confirm now) = r.plansOf r.inSlot := by
  rw [HotfixState.applied, h.slot, plansOf]

/-- The numbers of the plans published so far stay. -/
theorem plansOf_publish (pc : PendingConsent) {number : Option Nat}
    (hnumber : ∀ n, number = some n → n < r.published.length) :
    (r.publish (.consent pc)).plansOf number = r.plansOf number := by
  cases number with
  | none => rfl
  | some n =>
      unfold plansOf publish
      rw [Option.bind_some, Option.bind_some, List.getElem?_append_left (hnumber n rfl)]

theorem publish_recorded (h : r.Recorded) (published : Published) :
    (r.publish published).Recorded := by
  cases published with
  | ready plan => exact h.of_slot rfl
  | consent pc =>
      have hlonger {n : Nat} (hn : n < r.published.length) :
          n < (r.publish (.consent pc)).published.length := by
        simp only [publish, List.length_append, List.length_singleton]
        omega
      have hnew {n : Nat} (hn : (r.publish (.consent pc)).inSlot = some n) :
          n = r.published.length := (Option.some.inj hn).symm
      constructor
      · simp [publish, HotfixState.publish]
      · intro n hn
        rw [hnew hn]
        simp [publish]
      · intro n hn a ha htaken
        exact absurd (h.taken_lt a ha n htaken) (by rw [hnew hn]; exact lt_irrefl _)
      · exact fun n hn => hlonger (h.shown_lt n hn)
      · exact fun a ha n hn => hlonger (h.taken_lt a ha n hn)
      · intro a ha hconfirmed
        rw [plansOf_publish pc (h.taken_lt a ha)]
        exact h.applied a ha hconfirmed
      · exact h.open_request
      · intro _ n hn hslot
        exact absurd (h.shown_lt n hn) (by rw [hnew hslot]; exact lt_irrefl _)

theorem request_recorded (h : r.Recorded) : r.request.Recorded := by
  rw [request]
  cases hpending : r.hotfix.pendingConsent with
  | none => exact h
  | some pc =>
      have hslot : r.inSlot ≠ none := by
        intro hnone
        rw [h.slot_empty.mpr hnone] at hpending
        cases hpending
      obtain ⟨n, hn⟩ := Option.ne_none_iff_exists'.mp hslot
      exact ⟨h.slot, h.slot_lt, h.slot_fresh, h.slot_lt, h.taken_lt, h.applied,
        fun _ => ⟨n, hn, h.slot_fresh n hn⟩, fun hanswered => (nomatch hanswered)⟩

theorem mem_answers_answer {confirmed : Bool} {next : HotfixState} {applied : List ReadyPlan}
    {a : Answer} : a ∈ (r.answer confirmed next applied).answers ↔
      a ∈ r.answers ∨ a = ⟨confirmed, r.shown, r.inSlot, applied⟩ := by
  rw [answer, List.mem_append, List.mem_singleton]

theorem answer_recorded (h : r.Recorded) {confirmed : Bool} {next : HotfixState}
    {applied : List ReadyPlan} (hnext : next.pendingConsent = none)
    (happlied : confirmed = true → applied = r.plansOf r.inSlot) :
    (r.answer confirmed next applied).Recorded := by
  constructor
  · exact hnext
  · exact fun n hn => (nomatch hn)
  · exact fun n hn => (nomatch hn)
  · exact h.shown_lt
  · intro a ha n hn
    rcases mem_answers_answer.mp ha with ha | rfl
    · exact h.taken_lt a ha n hn
    · exact h.slot_lt n hn
  · intro a ha hconfirmed
    rcases mem_answers_answer.mp ha with ha | rfl
    · exact h.applied a ha hconfirmed
    · exact happlied hconfirmed
  · exact fun hopen => (nomatch hopen)
  · exact fun _ n _ hslot => (nomatch hslot)

/-- Publishing keeps the binding just where no plan waits. -/
theorem publish_binding_iff (h : r.Recorded) (hb : r.Binding) (pc : PendingConsent) :
    r.hotfix.pendingConsent = none ↔ (r.publish (.consent pc)).Binding := by
  rw [h.slot_empty]
  constructor
  · intro hempty
    refine ⟨fun a ha hconfirmed => ?_, hb.denied, fun n hn => ?_⟩
    · obtain ⟨htaken, happlied⟩ := hb.confirmed a ha hconfirmed
      refine ⟨htaken, ?_⟩
      rw [plansOf_publish pc (htaken ▸ h.taken_lt a ha)]
      exact happlied
    · rw [publish, List.length_append, List.length_singleton] at hn
      rcases Nat.lt_succ_iff_lt_or_eq.mp hn with hn | rfl
      · right
        rcases hb.kept n hn with hslot | htaken
        · rw [hempty] at hslot
          cases hslot
        · exact htaken
      · exact Or.inl rfl
  · intro hnext
    by_contra hfull
    obtain ⟨n, hn⟩ := Option.ne_none_iff_exists'.mp hfull
    have hlt : n < r.published.length := h.slot_lt n hn
    have hlonger : n < (r.publish (.consent pc)).published.length := by
      rw [publish, List.length_append]
      omega
    -- The plan that waited is neither in the slot nor was it taken.
    rcases hnext.kept n hlonger with hslot | ⟨a, ha, htaken⟩
    · exact absurd (Option.some.inj hslot) (Nat.ne_of_gt hlt)
    · exact h.slot_fresh n hn a ha htaken

/-- The plan of an open request is in the slot. -/
theorem Binding.slot_of_open (hb : r.Binding) (h : r.Recorded) (hopen : r.unanswered = true) :
    r.inSlot = r.shown := by
  obtain ⟨n, hshown, hfresh⟩ := h.open_request hopen
  rw [hshown]
  rcases hb.kept n (h.shown_lt n hshown) with hslot | ⟨a, ha, htaken⟩
  · exact hslot
  · exact absurd htaken (hfresh a ha)

theorem answer_kept (hb : r.Binding) (confirmed : Bool) (next : HotfixState)
    (applied : List ReadyPlan) : ∀ n < r.published.length,
      (r.answer confirmed next applied).inSlot = some n ∨
        ∃ a ∈ (r.answer confirmed next applied).answers, a.taken = some n := by
  intro n hn
  right
  rcases hb.kept n hn with hslot | ⟨a, ha, htaken⟩
  · exact ⟨_, mem_answers_answer.mpr (Or.inr rfl), hslot⟩
  · exact ⟨a, mem_answers_answer.mpr (Or.inl ha), htaken⟩

theorem confirm_binding_iff (h : r.Recorded) (hb : r.Binding) (now : UInt64) :
    (r.unanswered = true ∨ r.shown = none ∧ r.hotfix.pendingConsent = none) ↔
      (r.answer true (r.hotfix.confirmConsent now) (r.hotfix.applied (.confirm now))).Binding := by
  rw [h.slot_empty, h.applied_confirm]
  constructor
  · intro hok
    have hsame : r.inSlot = r.shown := by
      rcases hok with hopen | ⟨hshown, hslot⟩
      · exact hb.slot_of_open h hopen
      · rw [hshown, hslot]
    refine ⟨fun a ha hconfirmed => ?_, fun a ha hdenied => ?_, answer_kept hb _ _ _⟩
    · rcases mem_answers_answer.mp ha with ha | rfl
      · exact hb.confirmed a ha hconfirmed
      · exact ⟨hsame, congrArg r.plansOf hsame⟩
    · rcases mem_answers_answer.mp ha with ha | rfl
      · exact hb.denied a ha hdenied
      · cases hdenied
  · intro hnext
    have hsame : r.inSlot = r.shown :=
      (hnext.confirmed _ (mem_answers_answer.mpr (Or.inr rfl)) rfl).1
    cases hopen : r.unanswered with
    | true => exact Or.inl rfl
    | false =>
        cases hshown : r.shown with
        | none => exact Or.inr ⟨rfl, hsame.trans hshown⟩
        | some n => exact absurd (hsame.trans hshown) (h.answered_request hopen n hshown)

theorem deny_binding_iff (h : r.Recorded) (hb : r.Binding) (applied : List ReadyPlan) :
    (r.unanswered = true ∨ r.hotfix.pendingConsent = none) ↔
      (r.answer false r.hotfix.denyConsent applied).Binding := by
  rw [h.slot_empty]
  constructor
  · intro hok
    refine ⟨fun a ha hconfirmed => ?_, fun a ha hdenied n hn => ?_, answer_kept hb _ _ _⟩
    · rcases mem_answers_answer.mp ha with ha | rfl
      · exact hb.confirmed a ha hconfirmed
      · cases hconfirmed
    · rcases mem_answers_answer.mp ha with ha | rfl
      · exact hb.denied a ha hdenied n hn
      · rcases hok with hopen | hslot
        · exact (hb.slot_of_open h hopen).symm.trans hn
        · exact absurd (hslot.symm.trans hn) nofun
  · intro hnext
    cases hopen : r.unanswered with
    | true => exact Or.inl rfl
    | false =>
        right
        by_contra hfull
        obtain ⟨n, hn⟩ := Option.ne_none_iff_exists'.mp hfull
        have hshown : r.shown = some n :=
          hnext.denied _ (mem_answers_answer.mpr (Or.inr rfl)) rfl n hn
        exact h.answered_request hopen n hshown hn

theorem confirmConsent_pending (s : HotfixState) (now : UInt64) :
    (s.confirmConsent now).pendingConsent = none := by
  rw [HotfixState.confirmConsent]
  split
  next pc _ => exact (HotfixState.applyPlan_waiting _ pc.ready now).2
  next hpending => exact hpending

/-- A step keeps the binding just if it meets the condition. -/
theorem step_binding (i : HotfixInput) (h : r.Recorded) (hb : r.Binding) :
    (r.step lib signingPublicKey i).Recorded ∧
      (r.AnswersRequest lib signingPublicKey i ↔ (r.step lib signingPublicKey i).Binding) := by
  cases i with
  | report answers =>
      rw [AnswersRequest, step]
      cases runReport lib signingPublicKey answers with
      | none => exact ⟨h, iff_of_true nofun hb⟩
      | some published =>
          refine ⟨publish_recorded h published, ?_⟩
          cases published with
          | ready plan => exact iff_of_true nofun (hb.of_hotfix _)
          | consent pc =>
              rw [← publish_binding_iff h hb pc]
              exact ⟨fun hempty => hempty pc rfl, fun hempty _ _ => hempty⟩
  | expire now => exact ⟨h.of_slot rfl, iff_of_true trivial (hb.of_hotfix _)⟩
  | drain clock =>
      have hslot : (r.hotfix.drain clock).pendingConsent = r.hotfix.pendingConsent :=
        (HotfixState.applyPlans_waiting { r.hotfix with readyPlans := [] } _ clock).2
      exact ⟨h.of_slot hslot, iff_of_true trivial (hb.of_hotfix _)⟩
  | request =>
      refine ⟨request_recorded h, iff_of_true trivial ?_⟩
      rw [step, request]
      cases r.hotfix.pendingConsent with
      | none => exact hb
      | some pc => exact ⟨hb.confirmed, hb.denied, hb.kept⟩
  | confirm now =>
      exact ⟨answer_recorded h (confirmConsent_pending _ now) (fun _ => h.applied_confirm now),
        confirm_binding_iff h hb now⟩
  | deny => exact ⟨answer_recorded h rfl (fun hconfirmed => (nomatch hconfirmed)),
      deny_binding_iff h hb _⟩

theorem new_recorded (display : DisplayConfig) : (new display).Recorded :=
  ⟨rfl, nofun, nofun, nofun, nofun, nofun, nofun, nofun⟩

theorem new_binding (display : DisplayConfig) : (new display).Binding := ⟨nofun, nofun, nofun⟩

end ConsentRun

section Runs

/-- In every state of a run the confirmations have applied what was shown, and no plan was
dropped, just if a plan that needs consent always finds the slot empty and the answers are
given to open requests. -/
theorem consent_binding_iff (lib : Libraries) (signingPublicKey : String)
    (display : DisplayConfig) (inputs : List HotfixInput) :
    (∀ before after, inputs = before ++ after →
      ((consentPipeline lib signingPublicKey).run (.new display) before).Binding) ↔
    (consentPipeline lib signingPublicKey).Along
      (fun r i => r.AnswersRequest lib signingPublicKey i) (.new display) inputs := by
  have hall : ∀ i ∈ inputs, True := fun _ _ => trivial
  exact (Machine.along_iff_every_state (J := ConsentRun.Recorded)
    (consentPipeline lib signingPublicKey)
    (fun r i _ h hb => ConsentRun.step_binding i h hb) hall
    (ConsentRun.new_recorded display) (ConsentRun.new_binding display)).symm

/-- A report on which the server asks for one action, with consent. -/
def asksFor (action : PlanAction) : HotfixInput :=
  .report (.ofPlan "plan" (unsignedPlan true 10 [action]))

def halveFps : PlanAction where
  op := "set_target_fps"
  param := "target_fps"
  value := .number (.posInt 15)

def toSoftware : PlanAction where
  op := "set_encoder"
  param := "encoder"
  value := .string "software"

/-- A second plan comes between the dialog and its answer. -/
def overtakenDialog : List HotfixInput :=
  [asksFor halveFps, .request, asksFor toSoftware, .confirm 100]

/-- The dialog showed the lower frame rate, and its confirmation changed the encoder. -/
theorem overtakenDialog_applies_other :
    ((consentPipeline withoutKey "").run (.new .default) overtakenDialog).hotfix.display =
        { DisplayConfig.default with encoder := .software } ∧
      ¬ ((consentPipeline withoutKey "").run (.new .default) overtakenDialog).Binding := by
  refine ⟨rfl, fun h => ?_⟩
  obtain ⟨htaken, -⟩ := h.confirmed _ List.mem_cons_self rfl
  exact absurd (Option.some.inj htaken) (by decide)

end Runs

end EvertyDesk.Hotfix
