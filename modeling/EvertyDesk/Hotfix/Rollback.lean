import EvertyDesk.Hotfix.HotfixState

/-!
The rollback of hotfixes. A snapshot has three of the four settings that an action can
change, and each plan keeps the settings that it found; those of the plan that was applied
last are put back last. So the settings come back just if, whenever all plans are over at
one time, the last of them found the settings of the beginning, and the fourth setting is
as it was.
-/

namespace EvertyDesk.Hotfix

open Host (CodecPreference EncoderPreference)

section Settings

/-- The settings that no action changes. -/
def restOf (display : DisplayConfig) :
    CodecPreference × UInt32 × StreamingMode × UInt32 × Bool × UInt32 :=
  (display.codec, display.minFps, display.streamingMode, display.fsrSharpness,
    display.nearestNeighbour, display.idrIntervalSecs)

theorem display_eq_iff (display other : DisplayConfig) :
    display = other ↔ restOf display = restOf other ∧
      snapshotDisplay display = snapshotDisplay other ∧
      display.adaptiveQuality = other.adaptiveQuality := by
  constructor
  · rintro rfl
    exact ⟨rfl, rfl, rfl⟩
  · rintro ⟨hrest, hsnapshot, hadaptive⟩
    simp only [restOf, Prod.mk.injEq] at hrest
    obtain ⟨hcodec, hmin, hmode, hsharpness, hnearest, hidr⟩ := hrest
    simp only [snapshotDisplay, DisplaySnapshot.mk.injEq] at hsnapshot
    obtain ⟨hfps, hencoder, hfsr⟩ := hsnapshot
    cases display
    cases other
    simp only [DisplayConfig.mk.injEq]
    exact ⟨hcodec, hencoder, hfps, hadaptive, hmin, hmode, hfsr, hsharpness, hnearest, hidr⟩

@[simp] theorem restOf_applySnapshot (snap : DisplaySnapshot) (display : DisplayConfig) :
    restOf (applySnapshot snap display) = restOf display := rfl

@[simp] theorem snapshotDisplay_applySnapshot (snap : DisplaySnapshot)
    (display : DisplayConfig) : snapshotDisplay (applySnapshot snap display) = snap := rfl

@[simp] theorem adaptiveQuality_applySnapshot (snap : DisplaySnapshot)
    (display : DisplayConfig) :
    (applySnapshot snap display).adaptiveQuality = display.adaptiveQuality := rfl

theorem restOf_applyAction (display : DisplayConfig) (action : PlanAction) :
    restOf (applyAction display action) = restOf display := by
  unfold applyAction
  repeat' split
  all_goals rfl

theorem restOf_applyActions (actions : List PlanAction) (display : DisplayConfig) :
    restOf (applyActions actions display) = restOf display := by
  induction actions generalizing display with
  | nil => rfl
  | cons action actions ih => exact (ih _).trans (restOf_applyAction display action)

/-- Of several snapshots the last one stays. -/
theorem foldl_applySnapshot (expired : List PendingRollback) (display : DisplayConfig) :
    expired.foldl (fun display rb => applySnapshot rb.original display) display =
      match expired.getLast? with
      | some rb => applySnapshot rb.original display
      | none => display := by
  rcases List.eq_nil_or_concat expired with rfl | ⟨before, last, rfl⟩
  · rfl
  · have hkeeps : ∀ (rollbacks : List PendingRollback) (display : DisplayConfig),
        applySnapshot last.original
          (rollbacks.foldl (fun display rb => applySnapshot rb.original display) display) =
        applySnapshot last.original display := by
      intro rollbacks
      induction rollbacks with
      | nil => exact fun _ => rfl
      | cons rb rollbacks ih => exact fun display => ih _
    rw [List.concat_eq_append, List.foldl_append, List.getLast?_append]
    exact hkeeps before display

end Settings

/-- What a report publishes has a time after which it is rolled back. -/
def PositiveTtl (lib : Libraries) (signingPublicKey : String) : HotfixInput → Prop
  | .report answers => ∀ published,
      runReport lib signingPublicKey answers = some published → 0 < published.plan.ttlSeconds
  | _ => True

namespace HotfixState

variable {lib : Libraries} {signingPublicKey : String} {s : HotfixState}
variable {display : DisplayConfig}

/-- The plans that wait have a time, and the settings that no action changes are those of
the beginning. -/
structure Timed (display : DisplayConfig) (s : HotfixState) : Prop where
  waiting : s.AllWaiting fun plan => 0 < plan.ttlSeconds
  rest : restOf s.display = restOf display

/-- With no rollback pending the settings are those of the beginning. -/
def Restored (display : DisplayConfig) (s : HotfixState) : Prop :=
  s.pendingRollbacks = [] → s.display = display

/-- Where all pending rollbacks are over, the last of them puts back the settings of the
beginning, and the one that is not put back has not changed. -/
def RestoresOriginal (display : DisplayConfig) (s : HotfixState) : HotfixInput → Prop
  | .expire now => ∀ last, s.pendingRollbacks.getLast? = some last →
      (∀ rb ∈ s.pendingRollbacks, rb.deadlineUnix ≤ now) →
      last.original = snapshotDisplay display ∧ s.display.adaptiveQuality = display.adaptiveQuality
  | _ => True

theorem applyPlan_pending (s : HotfixState) {plan : ReadyPlan} (hplan : 0 < plan.ttlSeconds)
    (now : UInt64) : (s.applyPlan plan now).pendingRollbacks = s.pendingRollbacks ++ [{
      deadlineUnix := now + plan.ttlSeconds
      planId := plan.planId
      rollbackActions := plan.rollbackActions
      original := snapshotDisplay s.display }] := by
  rw [applyPlan, if_pos hplan]

/-- Rolling back: the expired plans leave, and the last of them says what stays. -/
theorem expire_restored_iff (htimed : s.Timed display) (hs : s.Restored display) (now : UInt64) :
    s.RestoresOriginal display (.expire now) ↔ (s.expire now).Restored display := by
  have hempty : (s.expire now).pendingRollbacks = [] ↔
      ∀ rb ∈ s.pendingRollbacks, rb.deadlineUnix ≤ now := by
    simp [expire, List.filter_eq_nil_iff]
  have hdisplay (hover : ∀ rb ∈ s.pendingRollbacks, rb.deadlineUnix ≤ now) :
      (s.expire now).display =
        match s.pendingRollbacks.getLast? with
        | some rb => applySnapshot rb.original s.display
        | none => s.display := by
    have hall : s.pendingRollbacks.filter (fun rb => decide (rb.deadlineUnix ≤ now)) =
        s.pendingRollbacks :=
      List.filter_eq_self.mpr fun rb hrb => decide_eq_true (hover rb hrb)
    rw [← foldl_applySnapshot]
    simp only [expire, hall]
  rw [Restored, hempty]
  cases hlast : s.pendingRollbacks.getLast? with
  | none =>
      have hnil : s.pendingRollbacks = [] := List.getLast?_eq_none_iff.mp hlast
      refine ⟨fun _ hover => ?_, fun _ last h => ?_⟩
      · rw [hdisplay hover, hlast]
        exact hs hnil
      · rw [hlast] at h
        cases h
  | some last =>
      have hback (hover : ∀ rb ∈ s.pendingRollbacks, rb.deadlineUnix ≤ now) :
          (s.expire now).display = display ↔ last.original = snapshotDisplay display ∧
            s.display.adaptiveQuality = display.adaptiveQuality := by
        rw [hdisplay hover, hlast, display_eq_iff, restOf_applySnapshot,
          snapshotDisplay_applySnapshot, adaptiveQuality_applySnapshot]
        exact and_iff_right htimed.rest
      constructor
      · intro h hover
        exact (hback hover).mpr (h last hlast hover)
      · intro h other hother hover
        obtain rfl : last = other := Option.some.inj (hlast.symm.trans hother)
        exact (hback hover).mp (h hover)

/-- No step changes the settings that no action changes. -/
theorem step_rest (s : HotfixState) (i : HotfixInput) :
    restOf (s.step lib signingPublicKey i).display = restOf s.display := by
  have happly (plans : List ReadyPlan) (shown : DisplayConfig) :
      restOf (plans.foldl (fun display plan => applyActions plan.actions display) shown) =
        restOf shown := by
    induction plans generalizing shown with
    | nil => rfl
    | cons plan plans ih => exact (ih _).trans (restOf_applyActions plan.actions shown)
  by_cases hexpire : ∃ now, i = .expire now
  · obtain ⟨now, rfl⟩ := hexpire
    rw [step, expire, foldl_applySnapshot]
    split
    · exact restOf_applySnapshot _ _
    · rfl
  · rw [s.step_display lib signingPublicKey fun now hi => hexpire ⟨now, hi⟩]
    exact happly _ _

theorem step_timed (i : HotfixInput) (hi : PositiveTtl lib signingPublicKey i)
    (h : s.Timed display) : (s.step lib signingPublicKey i).Timed display := by
  refine ⟨h.waiting.step lib signingPublicKey i ?_, (step_rest s i).trans h.rest⟩
  rintro answers published rfl hrun
  exact hi published hrun

/-- A plan with a time that is applied leaves a rollback behind. -/
theorem applyPlan_restored {plan : ReadyPlan} (hplan : 0 < plan.ttlSeconds) (now : UInt64) :
    (s.applyPlan plan now).Restored display := by
  intro hnil
  rw [applyPlan_pending s hplan] at hnil
  exact absurd hnil (List.append_ne_nil_of_right_ne_nil _ (List.cons_ne_nil _ _))

theorem applyPlans_restored {plans : List ReadyPlan}
    (hplans : ∀ plan ∈ plans, 0 < plan.ttlSeconds) (hs : s.Restored display)
    (clock : Nat → UInt64) : (s.applyPlans plans clock).Restored display := by
  induction plans generalizing s clock with
  | nil => exact hs
  | cons plan plans ih =>
      have hplan : 0 < plan.ttlSeconds := hplans plan List.mem_cons_self
      exact ih (fun later hlater => hplans later (List.mem_cons_of_mem _ hlater))
        (applyPlan_restored hplan _) _

/-- Publishing leaves the settings and the pending rollbacks alone. -/
theorem publish_settings (s : HotfixState) (published : Published) :
    (s.publish published).pendingRollbacks = s.pendingRollbacks ∧
      (s.publish published).display = s.display := by
  cases published with
  | ready plan => exact ⟨rfl, rfl⟩
  | consent pc => exact ⟨rfl, rfl⟩

theorem publish_restored (h : s.Restored display) (published : Published) :
    (s.publish published).Restored display := by
  obtain ⟨hpending, hdisplay⟩ := s.publish_settings published
  rw [Restored, hpending, hdisplay]
  exact h

/-- A step keeps the settings restorable just if it meets the condition. -/
theorem step_restored (i : HotfixInput) (htimed : s.Timed display) (hs : s.Restored display) :
    s.RestoresOriginal display i ↔ (s.step lib signingPublicKey i).Restored display := by
  cases i with
  | report answers =>
      apply iff_of_true trivial
      rw [step]
      cases runReport lib signingPublicKey answers with
      | none => exact hs
      | some published => exact publish_restored hs published
  | expire now => exact expire_restored_iff htimed hs now
  | drain clock =>
      have hrestored : HotfixState.Restored display { s with readyPlans := [] } := hs
      exact iff_of_true trivial (applyPlans_restored htimed.waiting.ready hrestored clock)
  | request => exact iff_of_true trivial hs
  | confirm now =>
      apply iff_of_true trivial
      rw [step, confirmConsent]
      cases hpending : s.pendingConsent with
      | none => exact hs
      | some pc => exact applyPlan_restored (htimed.waiting.consent pc hpending) now
  | deny => exact iff_of_true trivial hs

/-- The adaptive quality is changed by its own action alone. -/
theorem adaptiveQuality_applyAction {action : PlanAction}
    (haction : action.op = "set_adaptive_quality" → action.value.asBool = none)
    (display : DisplayConfig) :
    (applyAction display action).adaptiveQuality = display.adaptiveQuality := by
  unfold applyAction
  repeat' split
  any_goals rfl
  next hop _ b hb =>
    rw [haction hop] at hb
    cases hb

/-- A plan that does not change the adaptive quality. -/
def KeepsAdaptive (plan : ReadyPlan) : Prop :=
  ∀ action ∈ plan.actions, action.op = "set_adaptive_quality" → action.value.asBool = none

theorem adaptiveQuality_applyActions {actions : List PlanAction}
    (hactions : ∀ action ∈ actions, action.op = "set_adaptive_quality" → action.value.asBool = none)
    (display : DisplayConfig) :
    (applyActions actions display).adaptiveQuality = display.adaptiveQuality := by
  induction actions generalizing display with
  | nil => rfl
  | cons action actions ih =>
      have hfirst := adaptiveQuality_applyAction (hactions action List.mem_cons_self) display
      have hrest := ih (fun later hlater => hactions later (List.mem_cons_of_mem _ hlater))
        (applyAction display action)
      exact hrest.trans hfirst

/-- Plans are applied one at a time, each when no other is to be rolled back. -/
def AppliedAlone (s : HotfixState) : HotfixInput → Prop
  | .drain _ => s.readyPlans = [] ∨
      ∃ plan, s.readyPlans = [plan] ∧ s.pendingRollbacks = [] ∧ KeepsAdaptive plan
  | .confirm _ => ∀ pc, s.pendingConsent = some pc →
      s.pendingRollbacks = [] ∧ KeepsAdaptive pc.ready
  | _ => True

/-- Every pending rollback puts back the settings of the beginning. -/
structure OnlyOriginals (display : DisplayConfig) (s : HotfixState) : Prop where
  restored : s.Restored display
  originals : ∀ rb ∈ s.pendingRollbacks, rb.original = snapshotDisplay display
  adaptive : s.display.adaptiveQuality = display.adaptiveQuality

theorem applyPlan_originals (h : s.OnlyOriginals display) (hnone : s.pendingRollbacks = [])
    {plan : ReadyPlan} (hplan : 0 < plan.ttlSeconds) (hkeeps : KeepsAdaptive plan)
    (now : UInt64) : (s.applyPlan plan now).OnlyOriginals display := by
  refine ⟨applyPlan_restored hplan now, fun rb hrb => ?_, ?_⟩
  · rw [applyPlan_pending s hplan, hnone, h.restored hnone] at hrb
    obtain rfl := List.mem_singleton.mp hrb
    rfl
  · rw [applyPlan_display, adaptiveQuality_applyActions hkeeps]
    exact h.adaptive

theorem publish_originals (h : s.OnlyOriginals display) (published : Published) :
    (s.publish published).OnlyOriginals display := by
  obtain ⟨hpending, hdisplay⟩ := s.publish_settings published
  constructor
  · exact publish_restored h.restored published
  · rw [hpending]
    exact h.originals
  · rw [hdisplay]
    exact h.adaptive

theorem OnlyOriginals.restoresOriginal (h : s.OnlyOriginals display) (i : HotfixInput) :
    s.RestoresOriginal display i := by
  cases i with
  | expire now =>
      exact fun last hlast _ => ⟨h.originals last (List.mem_of_getLast? hlast), h.adaptive⟩
  | report answers => trivial
  | drain clock => trivial
  | request => trivial
  | confirm now => trivial
  | deny => trivial

theorem expire_originals (h : s.OnlyOriginals display) (htimed : s.Timed display)
    (now : UInt64) : (s.expire now).OnlyOriginals display := by
  refine ⟨?_, fun rb hrb => ?_, ?_⟩
  · exact (expire_restored_iff htimed h.restored now).mp (h.restoresOriginal _)
  · exact h.originals rb (List.mem_of_mem_filter hrb)
  · rw [expire, foldl_applySnapshot]
    split
    · exact h.adaptive
    · exact h.adaptive

theorem step_originals (i : HotfixInput) (h : s.OnlyOriginals display)
    (htimed : s.Timed display) (halone : s.AppliedAlone i) :
    (s.step lib signingPublicKey i).OnlyOriginals display := by
  cases i with
  | report answers =>
      rw [step]
      cases runReport lib signingPublicKey answers with
      | none => exact h
      | some published => exact publish_originals h published
  | expire now => exact expire_originals h htimed now
  | drain clock =>
      have htaken : HotfixState.OnlyOriginals display { s with readyPlans := [] } :=
        ⟨h.restored, h.originals, h.adaptive⟩
      rcases halone with hnone | ⟨plan, hready, hpending, hkeeps⟩
      · rw [step, drain, hnone]
        exact htaken
      · have hplan : 0 < plan.ttlSeconds := by
          apply htimed.waiting.ready
          rw [hready]
          exact List.mem_singleton_self plan
        rw [step, drain, hready]
        exact applyPlan_originals htaken hpending hplan hkeeps (clock 0)
  | request => exact h
  | confirm now =>
      rw [step, confirmConsent]
      cases hslot : s.pendingConsent with
      | none => exact h
      | some pc =>
          have htaken : HotfixState.OnlyOriginals display { s with pendingConsent := none } :=
            ⟨h.restored, h.originals, h.adaptive⟩
          obtain ⟨hpending, hkeeps⟩ := halone pc hslot
          have hplan : 0 < pc.ready.ttlSeconds := htimed.waiting.consent pc hslot
          exact applyPlan_originals htaken hpending hplan hkeeps now
  | deny => exact ⟨h.restored, h.originals, h.adaptive⟩

theorem new_timed (display : DisplayConfig) : (new display).Timed display :=
  ⟨new_allWaiting _ display, rfl⟩

end HotfixState

section Runs

variable {lib : Libraries} {signingPublicKey : String} {display : DisplayConfig}
variable {inputs : List HotfixInput}

/-- Plans that are applied one at a time, and leave the adaptive quality alone, meet the
condition. -/
theorem restoresOriginal_of_alone (hpositive : ∀ i ∈ inputs, PositiveTtl lib signingPublicKey i)
    (halone : (hotfixPipeline lib signingPublicKey).Along (fun s i => s.AppliedAlone i)
      (.new display) inputs) :
    (hotfixPipeline lib signingPublicKey).Along (fun s i => s.RestoresOriginal display i)
      (.new display) inputs := by
  have hboth := Machine.along_and _ halone (Machine.along_of_inputs _ hpositive _)
  apply Machine.along_of_invariant
    (I := fun s => s.OnlyOriginals display ∧ s.Timed display) _ _ _ hboth
  · rintro s i ⟨h, htimed⟩ ⟨halone, hpositive⟩
    exact ⟨⟨HotfixState.step_originals i h htimed halone,
      HotfixState.step_timed i hpositive htimed⟩, h.restoresOriginal i⟩
  · exact ⟨⟨fun _ => rfl, fun _ hrb => absurd hrb List.not_mem_nil, rfl⟩,
      HotfixState.new_timed display⟩

/-- With plans that all have a time, the settings are back whenever no rollback is pending,
in the whole run, just if every step that rolls all plans back restores the settings of the
beginning. -/
theorem rollback_restores_iff (hpositive : ∀ i ∈ inputs, PositiveTtl lib signingPublicKey i) :
    (∀ before after, inputs = before ++ after →
      ((hotfixPipeline lib signingPublicKey).run (.new display) before).Restored display) ↔
    (hotfixPipeline lib signingPublicKey).Along (fun s i => s.RestoresOriginal display i)
      (.new display) inputs := by
  have hrestored : (HotfixState.new display).Restored display := fun _ => rfl
  exact (Machine.along_iff_every_state (J := HotfixState.Timed display)
    (hotfixPipeline lib signingPublicKey)
    (fun s i hi htimed hs =>
      ⟨HotfixState.step_timed i hi htimed, HotfixState.step_restored i htimed hs⟩) hpositive
    (HotfixState.new_timed display) hrestored).symm

/-- One plan from its report to its rollback. -/
def onePlan (action : PlanAction) : List HotfixInput :=
  [.report (.ofPlan "plan" (unsignedPlan false 10 [action])), .drain fun _ => 100, .expire 200]

theorem onePlan_positive (action : PlanAction) :
    ∀ i ∈ onePlan action, PositiveTtl withoutKey "" i := by
  intro i hi
  simp only [onePlan, List.mem_cons, List.not_mem_nil, or_false] at hi
  obtain rfl | rfl | rfl := hi
  · intro published hpublished
    obtain rfl := Option.some.inj hpublished
    exact (by decide : (0 : UInt64) < 10)
  · trivial
  · trivial

def lowerFps : PlanAction where
  op := "set_target_fps"
  param := "target_fps"
  value := .number (.posInt 24)

def adaptiveOff : PlanAction where
  op := "set_adaptive_quality"
  param := "adaptive_quality"
  value := .bool false

/-- A plan that is alone is undone: the frame rate is that of the beginning again. -/
theorem rollback_restores_lowerFps :
    ((hotfixPipeline withoutKey "").run (.new .default) (onePlan lowerFps)).Restored .default := by
  have hpositive := onePlan_positive lowerFps
  have halong : (hotfixPipeline withoutKey "").Along
      (fun s i => s.RestoresOriginal .default i) (.new .default) (onePlan lowerFps) := by
    refine restoresOriginal_of_alone hpositive ⟨trivial, ?_, trivial, trivial⟩
    refine Or.inr ⟨_, rfl, rfl, fun action haction hop => ?_⟩
    obtain rfl := List.mem_singleton.mp haction
    exact absurd hop (by decide)
  exact (rollback_restores_iff hpositive).mpr halong (onePlan lowerFps) [] (List.append_nil _).symm

/-- The adaptive quality that a plan turned off stays off after its rollback. -/
theorem adaptiveOff_stays : (∀ i ∈ onePlan adaptiveOff, PositiveTtl withoutKey "" i) ∧
    ¬ ((hotfixPipeline withoutKey "").run (.new .default) (onePlan adaptiveOff)).Restored
      .default := by
  refine ⟨onePlan_positive adaptiveOff, fun h => ?_⟩
  have hadaptive := congrArg DisplayConfig.adaptiveQuality (h rfl)
  exact absurd hadaptive (by decide)

end Runs

end EvertyDesk.Hotfix
