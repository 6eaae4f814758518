import EvertyDesk.Host.VmBridge

/-!
Where the input for a virtual machine goes. The channel to the Hyper-V session is one
for all pumps: each puts its own there when its session has started, and takes out what
is there when it ends, without a look at generations.
-/

namespace EvertyDesk.Host

/-- The channel of the pump's session has been put into the state, and the pump has not
ended. -/
def VmPump.Published (pump : VmPump) : Prop :=
  pump.provider = .hyperv ∧ pump.stage ≠ .starting ∧ pump.stage ≠ .exited

namespace VmBridge

section Conditions

variable (s : VmBridge)

/-- The channel is that of the machine that is attached. -/
def IsAttached (session : Nat) : Prop := ∃ pump, s.Attached session pump

/-- Every command goes to the machine that is attached, or that is named, and an event
is dropped only while the machine that is attached has no channel. -/
def Delivered (i : VmBridgeInput) : Prop :=
  match (s.step i).2 with
  | .nothing => True
  | .sent session _ =>
      match i with
      | .ctrlAltDel vmId =>
          ∃ pump, s.pumps[session]? = some pump ∧ pump.vmId = (splitProvider vmId).2
      | _ => s.IsAttached session
  | .notReady => ∀ number pump, s.Attached number pump → ¬ pump.Published

/-- No step of a pump and no attach comes in between: a machine is attached or detached
while no event has commands left to send, a pump takes the channel out while the machine
that is attached has put none there, and the channel that an event finds is that of the
attached machine, the one that `CtrlAltDel` finds that of the machine named. -/
def Settled : VmBridgeInput → Prop
  | .attach vmId vms _ =>
      (∃ error, vms.resolve vmId = .refused error) ∨
        (vms.resolve vmId = .detach ∧ s.shared.attachedId = none) ∨
        ∀ router session commands, s.routers router = .sending session commands → commands = []
  | .pump number _ => ∀ pump, s.pumps[number]? = some pump → pump.stage = .clearing →
      ∀ other p, s.Attached other p → ¬ p.Published
  | .dispatch router => ∀ commands, s.routers router = .routed commands → commands ≠ [] →
      ∀ session, s.shared.hypervCmdTx = some session → s.IsAttached session
  | .ctrlAltDel vmId => ∀ session, s.shared.hypervCmdTx = some session →
      ∃ pump, s.pumps[session]? = some pump ∧ pump.vmId = (splitProvider vmId).2
  | _ => True

/-- The machine that is attached has its channel in the state if its pump has put it
there, and what is left to send is for that machine. -/
structure Connected : Prop where
  published : ∀ number pump, s.Attached number pump → pump.Published → s.shared.hypervCmdTx.isSome
  sending : ∀ router session commands, s.routers router = .sending session commands →
    commands ≠ [] → s.IsAttached session

end Conditions

variable {s : VmBridge} {number : Nat} {pump : VmPump}

theorem start_connected : start.Connected where
  published := by simp [Attached, start]
  sending := by simp [start]

/-- No machine is attached or its pump has no channel yet, and nothing is left to
send. -/
theorem connected_of_fresh (hfresh : ∀ number pump, s.Attached number pump → ¬ pump.Published)
    (hidle : ∀ router session commands,
      s.routers router = .sending session commands → commands = []) : s.Connected where
  published number pump hattached hpublished := absurd hpublished (hfresh number pump hattached)
  sending router session commands hsending hleft :=
    absurd (hidle router session commands hsending) hleft

theorem Connected.attach (h : s.Connected) {vmId : String} {vms : VmInventory} {spawned : Bool}
    (hsettled : s.Settled (.attach vmId vms spawned)) :
    (s.attach vmId vms spawned).Connected := by
  unfold VmBridge.attach
  cases hrequest : vms.resolve vmId with
  | refused error => exact h
  | detach =>
      rcases hsettled with ⟨error, hrefused⟩ | ⟨-, hnone⟩ | hidle
      · rw [hrequest] at hrefused
        cases hrefused
      · have hsame : s.shared.detach = s.shared := by simp [VmShared.detach, hnone]
        simpa [hsame, hnone] using h
      · refine connected_of_fresh ?_ hidle
        rintro number pump ⟨-, -, hattached⟩
        simp only [VmShared.detach] at hattached
        split at hattached
        · cases hattached
        next hnone => exact absurd (by rw [hattached]; rfl) hnone
  | attach provider vm =>
      rcases hsettled with ⟨error, hrefused⟩ | ⟨hdetach, -⟩ | hidle
      · rw [hrequest] at hrefused
        cases hrefused
      · rw [hrequest] at hdetach
        cases hdetach
      · refine connected_of_fresh ?_ hidle
        rintro number pump ⟨hpump, hlast, -⟩ ⟨hhyperv, hstarting, hexited⟩
        rcases getElem?_after_attach hpump with hold | ⟨-, rfl⟩
        · have hlt := (List.getElem?_eq_some_iff.mp hold).1
          rw [List.length_append, List.length_singleton] at hlast
          omega
        · cases spawned
          · exact hexited rfl
          · cases provider
            · exact hstarting rfl
            · cases hhyperv

/-- What a pump's step does to the channel. -/
theorem PumpEffect.channel {shared after : VmShared} {next : VmPump}
    (h : PumpEffect shared number pump next after) (hnext : pump.Continues next) :
    after.hypervCmdTx.isSome ∨ (pump.stage = .clearing ∧ next.stage = .exited) ∨
      after.hypervCmdTx = shared.hypervCmdTx ∧ (next.Published → pump.Published) := by
  have hpolls : pump.stage = .polling → next.Published → pump.Published := by
    rintro hstage ⟨hprovider, -, -⟩
    exact ⟨hnext.provider ▸ hprovider, by simp [hstage], by simp [hstage]⟩
  cases h with
  | quiet hsame =>
      refine .inr (.inr ⟨rfl, ?_⟩)
      rcases hsame with hsame | ⟨hstage, -, -⟩
      · rintro ⟨hprovider, hstarting, hexited⟩
        exact ⟨hnext.provider ▸ hprovider, hsame ▸ hstarting, hsame ▸ hexited⟩
      · exact hpolls hstage
  | capture picture hstage hpushing hgot => exact .inr (.inr ⟨rfl, hpolls hstage⟩)
  | publish hstage hpolling => exact .inl rfl
  | push picture hstage hpolling =>
      refine .inr (.inr ⟨?_, ?_⟩)
      · rw [VmShared.pushFrame]
        split <;> rfl
      · rintro ⟨hprovider, -, -⟩
        exact ⟨hnext.provider ▸ hprovider, by simp [hstage], by simp [hstage]⟩
  | clear hstage hexited => exact .inr (.inl ⟨hstage, hexited⟩)

/-- What is attached after a step of a pump has been attached before. -/
theorem Attached.before {next : VmPump} {t : VmBridge} {other : Nat} {p : VmPump}
    (hpump : s.pumps[number]? = some pump) (hnext : pump.Continues next)
    (hpumps : t.pumps = s.pumps.set number next)
    (hid : t.shared.attachedId = s.shared.attachedId) (h : t.Attached other p) :
    (other = number ∧ p = next ∧ s.Attached number pump) ∨
      (other ≠ number ∧ s.Attached other p) := by
  obtain ⟨hget, hlast, hattached⟩ := h
  rw [hpumps, List.length_set] at hlast
  rw [hid] at hattached
  rcases getElem?_after_step hpumps hget with ⟨rfl, rfl⟩ | ⟨hother, hold⟩
  · exact .inl ⟨rfl, rfl, hpump, hlast, hnext.vmId ▸ hattached⟩
  · exact .inr ⟨hother, hold, hlast, hattached⟩

theorem Connected.pumpStep (h : s.Connected) (hpump : s.pumps[number]? = some pump)
    (got : Option VmPicture) (hsettled : s.Settled (.pump number got)) :
    (s.pumpStep number pump got).Connected := by
  obtain ⟨next, hpumps, hnext, heffect, hrouters, -⟩ := pumpStep_cases hpump got
  generalize s.pumpStep number pump got = t at *
  obtain ⟨-, hid⟩ := heffect.fixed
  constructor
  · intro other p hattached hpublished
    have hbefore := hattached.before hpump hnext hpumps hid
    rcases heffect.channel hnext with hsome | ⟨hclearing, hexited⟩ | ⟨hsame, hstill⟩
    · exact hsome
    · rcases hbefore with ⟨-, rfl, -⟩ | ⟨-, hold⟩
      · exact absurd hexited hpublished.2.2
      · exact absurd hpublished (hsettled pump hpump hclearing other p hold)
    · rw [hsame]
      rcases hbefore with ⟨-, rfl, hold⟩ | ⟨-, hold⟩
      · exact h.published number pump hold (hstill hpublished)
      · exact h.published other p hold hpublished
  · intro router session commands hsending hleft
    rw [hrouters] at hsending
    obtain ⟨p, hold⟩ := h.sending router session commands hsending hleft
    rcases hold.continues hpump hnext hpumps hid with ⟨-, -, hq⟩ | ⟨-, hq⟩
    · exact ⟨next, hq⟩
    · exact ⟨p, hq⟩

/-- A router goes on to a stage at which what it has left is for the attached machine. -/
theorem Connected.setRouter (h : s.Connected) (router : Nat) {stage : RouterStage}
    (hstage : ∀ session commands, stage = .sending session commands → commands ≠ [] →
      s.IsAttached session) : (s.setRouter router stage).Connected where
  published := h.published
  sending other session commands hsending hleft := by
    have hupdated : Function.update s.routers router stage other = _ := hsending
    rw [Function.update_apply] at hupdated
    split at hupdated
    · exact hstage session commands hupdated hleft
    · exact h.sending other session commands hupdated hleft

theorem Connected.route (h : s.Connected) (router : Nat) (commands : List HyperVCmd) :
    (s.route router commands).Connected := by
  unfold VmBridge.route
  split
  · exact h.setRouter router (by simp)
  · exact h

theorem Connected.dispatch (h : s.Connected) {router : Nat}
    (hsettled : s.Settled (.dispatch router)) :
    (s.dispatch router).1.Connected ∧ s.Delivered (.dispatch router) := by
  cases hstage : s.routers router with
  | idle => simp [VmBridge.dispatch, Delivered, step, hstage, h]
  | routed commands =>
      cases hchannel : s.shared.hypervCmdTx with
      | none =>
          simp only [VmBridge.dispatch, Delivered, step, hstage, hchannel]
          refine ⟨h.setRouter router (by simp), ?_⟩
          intro number pump hattached hpublished
          have hsome := h.published number pump hattached hpublished
          rw [hchannel] at hsome
          cases hsome
      | some session =>
          simp only [VmBridge.dispatch, Delivered, step, hstage, hchannel]
          refine ⟨h.setRouter router ?_, trivial⟩
          rintro session' commands' ⟨⟩ hleft
          exact hsettled commands hstage hleft session hchannel
  | sending session commands =>
      cases commands with
      | nil =>
          simp only [VmBridge.dispatch, Delivered, step, hstage]
          exact ⟨h.setRouter router (by simp), trivial⟩
      | cons command commands =>
          have hattached := h.sending router session _ hstage (by simp)
          simp only [VmBridge.dispatch, Delivered, step, hstage]
          refine ⟨h.setRouter router ?_, hattached⟩
          rintro session' commands' ⟨⟩ -
          exact hattached

theorem Connected.step (h : s.Connected) (i : VmBridgeInput) (hsettled : s.Settled i) :
    (s.step i).1.Connected ∧ s.Delivered i := by
  cases i with
  | attach vmId vms spawned => exact ⟨h.attach hsettled, trivial⟩
  | pump number got =>
      cases hpump : s.pumps[number]? with
      | none => simp [VmBridge.step, Delivered, hpump, h]
      | some pump =>
          simp only [VmBridge.step, Delivered, hpump]
          exact ⟨h.pumpStep hpump got hsettled, trivial⟩
  | routeMouse router ev =>
      simp only [VmBridge.step, Delivered]
      split
      · exact ⟨h.route router _, trivial⟩
      · exact ⟨h, trivial⟩
  | routeKey router commands =>
      simp only [VmBridge.step, Delivered]
      split
      · exact ⟨h.route router commands, trivial⟩
      · exact ⟨h, trivial⟩
  | dispatch router => exact h.dispatch hsettled
  | ctrlAltDel vmId =>
      simp only [VmBridge.step, Delivered, sendCtrlAltDelHyperv]
      split
      · cases hchannel : s.shared.hypervCmdTx with
        | none => exact ⟨h, trivial⟩
        | some session => exact ⟨h, hsettled session hchannel⟩
      · exact ⟨h, trivial⟩

end VmBridge

/-- In every run in which no step of a pump and no attach comes in between, all input
goes to the machine that it is for, and none is dropped that has a channel. -/
theorem vm_input_delivered (is : List VmBridgeInput)
    (hsettled : vmBridge.Along VmBridge.Settled .start is) :
    vmBridge.Along VmBridge.Delivered .start is :=
  vmBridge.along_of_invariant (fun _ i h hi => h.step i hi) VmBridge.start_connected hsettled

def twoVms : VmInventory := ⟨[⟨"a", "A", "Running", true⟩, ⟨"b", "B", "Running", true⟩], []⟩

/-- The first machine is attached, its pump has put the channel into the state, and a key
is pressed. -/
def keyToFirst : List VmBridgeInput :=
  [.attach "hyperv:a" twoVms true, .pump 0 none, .routeKey 0 [.pressKey 65], .dispatch 0,
    .dispatch 0]

theorem vm_input_delivered_first :
    (vmBridge.outputs .start keyToFirst).getLast? = some (.sent 0 (.pressKey 65)) ∧
      vmBridge.Along VmBridge.Delivered .start keyToFirst := by
  refine ⟨by decide, vm_input_delivered keyToFirst ⟨.inr (.inr ?_), ?_, trivial, ?_, ?_, trivial⟩⟩
  · intro router session commands habsurd
    cases habsurd
  · intro pump hpump hclearing
    obtain rfl := Option.some.inj hpump
    cases hclearing
  · rintro commands - - session hchannel
    obtain rfl := Option.some.inj hchannel
    exact ⟨⟨.hyperv, "a", 1, .polling, []⟩, rfl, rfl, rfl⟩
  · intro commands habsurd
    cases habsurd

/-- The second machine is attached, and a key is pressed before its session has
started. -/
def keyToSecond : List VmBridgeInput :=
  [.attach "hyperv:a" twoVms true, .pump 0 none, .attach "hyperv:b" twoVms true,
    .routeKey 0 [.pressKey 65], .dispatch 0, .dispatch 0]

/-- The key goes to the first machine. -/
theorem key_goes_to_detached_machine :
    (vmBridge.run .start keyToSecond).shared.attachedId = some "b" ∧
      (vmBridge.outputs .start keyToSecond).getLast? = some (.sent 0 (.pressKey 65)) ∧
      ¬ vmBridge.Along VmBridge.Delivered .start keyToSecond := by
  refine ⟨by decide, by decide, ?_⟩
  rintro ⟨-, -, -, -, -, ⟨pump, hpump, hlast, -⟩, -⟩
  exact absurd hlast (by decide)

end EvertyDesk.Host
