import EvertyDesk.Host.LoginLoop
import Mathlib.Data.List.Basic
import Mathlib.Logic.Function.Basic

/-!
The bridge to virtual machines. One machine at most is attached, and a thread pumps
its pictures into the state that all threads share. A change of the attached machine
changes the generation, by which the threads of earlier ones find out that they are to
end, some time later.

The state is behind a lock, so what a thread does while it holds the lock is one step.
-/

namespace EvertyDesk.Host

inductive VmProvider where
  | hyperv
  | vbox
deriving DecidableEq, Repr

structure VmInfo where
  id : String
  name : String
  state : String
  /-- Hyper-V can connect to it, VirtualBox runs it. -/
  connectable : Bool
deriving DecidableEq, Repr

/-- What the hypervisors list when they are asked. -/
structure VmInventory where
  hyperv : List VmInfo
  vbox : List VmInfo

/-- What is asked for by an identifier. -/
inductive AttachRequest where
  | detach
  | attach (provider : VmProvider) (vm : VmInfo)
  | refused (error : String)
deriving DecidableEq, Repr

def splitProvider (vmId : String) : String × String :=
  if ':' ∈ vmId.toList then
    (String.ofList (vmId.toList.takeWhile (· ≠ ':')),
      String.ofList ((vmId.toList.dropWhile (· ≠ ':')).drop 1))
  else ("hyperv", vmId)

namespace VmInventory

variable (vms : VmInventory)

def find (listed : List VmInfo) (provider : VmProvider) (missing : String)
    (off : VmInfo → String) (id : String) : AttachRequest :=
  match listed.find? (·.id = id) with
  | some vm => if vm.connectable then .attach provider vm else .refused (off vm)
  | none => .refused missing

def resolve (vmId : String) : AttachRequest :=
  if trim vmId.toList = [] then .detach
  else
    let (provider, id) := splitProvider vmId
    if provider = "vbox" then
      find vms.vbox .vbox ("VirtualBox VM " ++ id ++ " не найдена")
        (fun vm => "VM «" ++ vm.name ++ "» выключена — запустите её в VirtualBox") id
    else if provider = "hyperv" then
      find vms.hyperv .hyperv ("VM " ++ id ++ " не найдена на гипервизоре")
        (fun vm => "VM «" ++ vm.name ++ "» в состоянии " ++ vm.state ++ " — нельзя подключиться") id
    else .refused ("неизвестный провайдер VM: " ++ provider)

end VmInventory

/-- A picture as a machine's console gives it. -/
structure VmPicture where
  width : UInt32
  height : UInt32
  rgba : List UInt8
deriving DecidableEq, Repr

/-- Bytes that make no whole pixel are left out. -/
def rgbaToBgra : List UInt8 → List UInt8
  | r :: g :: b :: a :: rest => b :: g :: r :: a :: rgbaToBgra rest
  | _ => []

/-- What is behind the lock. A command channel is told by the number of the pump that
it belongs to. -/
structure VmShared where
  generation : UInt64
  attachedId : Option String
  provider : Option VmProvider
  width : UInt32
  height : UInt32
  bgra : List UInt8
  haveFrame : Bool
  frameSeq : UInt64
  hypervCmdTx : Option Nat
deriving DecidableEq, Repr

namespace VmShared

def default : VmShared where
  generation := 0
  attachedId := none
  provider := none
  width := 0
  height := 0
  bgra := []
  haveFrame := false
  frameSeq := 0
  hypervCmdTx := none

variable (s : VmShared)

def detach : VmShared :=
  if s.attachedId.isSome then
    { s with
      generation := s.generation + 1
      attachedId := none
      provider := none
      haveFrame := false
      bgra := []
      width := 0
      height := 0 }
  else s

/-- The picture of the machine before stays in place until there is a new one. -/
def beginAttach (provider : VmProvider) (id : String) : VmShared :=
  { s with
    generation := s.generation + 1
    attachedId := some id
    provider := some provider
    haveFrame := false }

def pushFrame (gen : UInt64) (picture : VmPicture) : VmShared :=
  if s.generation = gen then
    { s with
      width := picture.width
      height := picture.height
      bgra := rgbaToBgra picture.rgba
      haveFrame := true
      frameSeq := s.frameSeq + 1 }
  else s

def activeFrame : Option (UInt32 × UInt32 × List UInt8) :=
  if s.attachedId.isNone || !s.haveFrame || s.bgra.isEmpty then none
  else some (s.width, s.height, s.bgra)

def vmFrameSeq : Option UInt64 :=
  if s.attachedId.isNone || !s.haveFrame then none else some s.frameSeq

end VmShared

/-! Pumps. -/

inductive PumpStage where
  /-- The Hyper-V session starts, its command channel is not yet in the state. -/
  | starting
  | polling
  | pushing (picture : VmPicture)
  /-- The generation has been found to be another, the channel is still in the state. -/
  | clearing
  | exited
deriving DecidableEq, Repr

/-- The thread of one attach. -/
structure VmPump where
  provider : VmProvider
  vmId : String
  gen : UInt64
  stage : PumpStage
  /-- The pictures it has got from its machine. The code does not keep them. -/
  captured : List VmPicture
deriving DecidableEq, Repr

/-! Input. -/

inductive HyperVCmd where
  | moveMouse (x y : UInt32)
  | clickMouse (button : UInt32) (down : Bool)
  | pressKey (vk : UInt32)
  | releaseKey (vk : UInt32)
  | typeText (text : String)
  | ctrlAltDel
deriving DecidableEq, Repr

structure MouseEvent where
  mask : Int32
  x : Int32
  y : Int32
deriving DecidableEq, Repr

def evtMove : Int32 := 0
def evtDown : Int32 := 1
def evtUp : Int32 := 2

def vmButton (bits : Int32) : Option UInt32 :=
  if bits = 1 then some 1 else if bits = 2 then some 2
  else if bits = 0 then none else some 3

/-- The commands of a mouse event. A wheel has none. -/
def dispatchMouse (ev : MouseEvent) (w h : UInt32) : List HyperVCmd :=
  let evtType := ev.mask &&& 7
  if evtType = evtMove ∨ evtType = evtDown ∨ evtType = evtUp then
    let nx := min (max ev.x 0).toUInt32 (w - 1)
    let ny := min (max ev.y 0).toUInt32 (h - 1)
    let click :=
      if evtType = evtDown ∨ evtType = evtUp then
        ((vmButton (ev.mask >>> 3)).map fun button =>
          HyperVCmd.clickMouse button (decide (evtType = evtDown))).toList
      else []
    .moveMouse nx ny :: click
  else []

/-- Where the routing of an event is. -/
inductive RouterStage where
  | idle
  /-- A Hyper-V machine has been found to be attached. -/
  | routed (commands : List HyperVCmd)
  /-- The channel has been taken. -/
  | sending (session : Nat) (commands : List HyperVCmd)
deriving DecidableEq, Repr

/-- The shared state, the pump of every attach so far, and the threads that route
input. -/
structure VmBridge where
  shared : VmShared
  pumps : List VmPump
  routers : Nat → RouterStage
  /-- How often the generation has changed. The code does not keep it. -/
  changes : Nat

inductive VmBridgeInput where
  /-- The identifier of no machine is blank. -/
  | attach (vmId : String) (vms : VmInventory) (spawned : Bool)
  /-- The next step of a pump, with the picture that its machine has for it. -/
  | pump (number : Nat) (got : Option VmPicture)
  | routeMouse (router : Nat) (ev : MouseEvent)
  /-- The commands are those that a key is turned into. -/
  | routeKey (router : Nat) (commands : List HyperVCmd)
  /-- The next step of the routing: the channel is taken, or one command is sent. -/
  | dispatch (router : Nat)
  | ctrlAltDel (vmId : String)

inductive VmBridgeOutput where
  | nothing
  | sent (session : Nat) (command : HyperVCmd)
  /-- An event is dropped, as there is no channel. -/
  | notReady
deriving DecidableEq, Repr

namespace VmBridge

def start : VmBridge where
  shared := .default
  pumps := []
  routers _ := .idle
  changes := 0

variable (s : VmBridge)

/-- The first stage of a pump whose thread has been started. -/
def firstStage : VmProvider → PumpStage
  | .hyperv => .starting
  | .vbox => .polling

def attach (vmId : String) (vms : VmInventory) (spawned : Bool) : VmBridge :=
  match vms.resolve vmId with
  | .refused _ => s
  | .detach =>
      { s with
        shared := s.shared.detach
        changes := if s.shared.attachedId.isSome then s.changes + 1 else s.changes }
  | .attach provider vm =>
      let shared := s.shared.beginAttach provider vm.id
      let stage := if spawned then firstStage provider else .exited
      { s with
        shared
        pumps := s.pumps ++ [⟨provider, vm.id, shared.generation, stage, []⟩]
        changes := s.changes + 1 }

def setPump (number : Nat) (pump : VmPump) : VmBridge := { s with pumps := s.pumps.set number pump }

def setRouter (router : Nat) (stage : RouterStage) : VmBridge :=
  { s with routers := Function.update s.routers router stage }

def pumpStep (number : Nat) (pump : VmPump) (got : Option VmPicture) : VmBridge :=
  match pump.stage with
  | .starting =>
      { s.setPump number { pump with stage := .polling } with
        shared := { s.shared with hypervCmdTx := some number } }
  | .polling =>
      if s.shared.generation = pump.gen then
        match got with
        | some picture =>
            s.setPump number
              { pump with stage := .pushing picture, captured := pump.captured ++ [picture] }
        | none => s
      else
        s.setPump number
          { pump with stage := if pump.provider = .hyperv then .clearing else .exited }
  | .pushing picture =>
      { s.setPump number { pump with stage := .polling } with
        shared := s.shared.pushFrame pump.gen picture }
  | .clearing =>
      { s.setPump number { pump with stage := .exited } with
        shared := { s.shared with hypervCmdTx := none } }
  | .exited => s

/-- Only a Hyper-V machine gets its input by the channel. -/
def route (router : Nat) (commands : List HyperVCmd) : VmBridge :=
  if s.shared.attachedId.isSome ∧ s.shared.provider ≠ some .vbox then
    s.setRouter router (.routed commands)
  else s

def dispatch (router : Nat) : VmBridge × VmBridgeOutput :=
  match s.routers router with
  | .idle => (s, .nothing)
  | .routed commands =>
      match s.shared.hypervCmdTx with
      | some session => (s.setRouter router (.sending session commands), .nothing)
      | none => (s.setRouter router .idle, .notReady)
  | .sending _ [] => (s.setRouter router .idle, .nothing)
  | .sending session (command :: commands) =>
      (s.setRouter router (.sending session commands), .sent session command)

/-- Without a channel the keys go to the machine that is named, in another way. -/
def sendCtrlAltDelHyperv : VmBridgeOutput :=
  match s.shared.hypervCmdTx with
  | some session => .sent session .ctrlAltDel
  | none => .nothing

def step : VmBridgeInput → VmBridge × VmBridgeOutput
  | .attach vmId vms spawned => (s.attach vmId vms spawned, .nothing)
  | .pump number got =>
      match s.pumps[number]? with
      | some pump => (s.pumpStep number pump got, .nothing)
      | none => (s, .nothing)
  | .routeMouse router ev =>
      if s.routers router = .idle then
        (s.route router (dispatchMouse ev (max s.shared.width 1) (max s.shared.height 1)), .nothing)
      else (s, .nothing)
  | .routeKey router commands =>
      if s.routers router = .idle then (s.route router commands, .nothing) else (s, .nothing)
  | .dispatch router => s.dispatch router
  | .ctrlAltDel vmId =>
      if (splitProvider vmId).1 = "hyperv" then (s, s.sendCtrlAltDelHyperv) else (s, .nothing)

end VmBridge

def vmBridge : Machine VmBridge VmBridgeInput VmBridgeOutput := ⟨VmBridge.step⟩

/-- The pump goes on from one stage to another, with what it has got so far. -/
structure VmPump.Continues (pump next : VmPump) : Prop where
  provider : next.provider = pump.provider
  vmId : next.vmId = pump.vmId
  gen : next.gen = pump.gen
  captured : ∀ picture ∈ pump.captured, picture ∈ next.captured

namespace VmBridge

variable {s : VmBridge} {number : Nat} {pump : VmPump}

/-- The machine is attached by the attach that has started this pump. -/
def Attached (s : VmBridge) (number : Nat) (pump : VmPump) : Prop :=
  s.pumps[number]? = some pump ∧ number + 1 = s.pumps.length ∧ s.shared.attachedId = some pump.vmId

/-- What a step of a pump does to the shared state. -/
inductive PumpEffect (shared : VmShared) (number : Nat) (pump next : VmPump) : VmShared → Prop
  | quiet (hsame : next.stage = pump.stage ∨
      pump.stage = .polling ∧ next.captured = pump.captured ∧
        next.stage = if pump.provider = .hyperv then .clearing else .exited) :
      PumpEffect shared number pump next shared
  | capture (picture : VmPicture) (hstage : pump.stage = .polling)
      (hnext : next.stage = .pushing picture) (hgot : picture ∈ next.captured) :
      PumpEffect shared number pump next shared
  | publish (hstage : pump.stage = .starting) (hnext : next.stage = .polling) :
      PumpEffect shared number pump next { shared with hypervCmdTx := some number }
  | push (picture : VmPicture) (hstage : pump.stage = .pushing picture)
      (hnext : next.stage = .polling) :
      PumpEffect shared number pump next (shared.pushFrame pump.gen picture)
  | clear (hstage : pump.stage = .clearing) (hnext : next.stage = .exited) :
      PumpEffect shared number pump next { shared with hypervCmdTx := none }

theorem PumpEffect.fixed {shared after : VmShared} {next : VmPump}
    (h : PumpEffect shared number pump next after) :
    after.generation = shared.generation ∧ after.attachedId = shared.attachedId := by
  cases h with
  | push picture hstage hnext =>
      rw [VmShared.pushFrame]
      split <;> exact ⟨rfl, rfl⟩
  | _ => exact ⟨rfl, rfl⟩

theorem PumpEffect.pushing {shared after : VmShared} {next : VmPump} {picture : VmPicture}
    (h : PumpEffect shared number pump next after) (hnext : next.stage = .pushing picture) :
    pump.stage = .pushing picture ∨ picture ∈ next.captured := by
  cases h with
  | quiet hsame =>
      rcases hsame with hsame | ⟨-, -, hleft⟩
      · exact .inl (hsame ▸ hnext)
      · rw [hleft] at hnext
        split at hnext <;> cases hnext
  | capture picture' hstage hpushing hgot =>
      rw [hpushing, PumpStage.pushing.injEq] at hnext
      exact .inr (hnext ▸ hgot)
  | publish hstage hpolling => simp [hpolling] at hnext
  | push picture' hstage hpolling => simp [hpolling] at hnext
  | clear hstage hexited => simp [hexited] at hnext

/-- Only a pump of the current generation changes what is shown. -/
theorem PumpEffect.shown {shared after : VmShared} {next : VmPump}
    (h : PumpEffect shared number pump next after) :
    (after.haveFrame = shared.haveFrame ∧ after.width = shared.width ∧
        after.height = shared.height ∧ after.bgra = shared.bgra) ∨
      ∃ picture, pump.stage = .pushing picture ∧ shared.generation = pump.gen ∧
        after.width = picture.width ∧ after.height = picture.height ∧
          after.bgra = rgbaToBgra picture.rgba := by
  cases h with
  | push picture hstage hnext =>
      rw [VmShared.pushFrame]
      split
      next hgen => exact .inr ⟨picture, hstage, hgen, rfl, rfl, rfl⟩
      next => exact .inl ⟨rfl, rfl, rfl, rfl⟩
  | _ => exact .inl ⟨rfl, rfl, rfl, rfl⟩

theorem pumpStep_cases (hpump : s.pumps[number]? = some pump) (got : Option VmPicture) :
    ∃ next, (s.pumpStep number pump got).pumps = s.pumps.set number next ∧
      pump.Continues next ∧
      PumpEffect s.shared number pump next (s.pumpStep number pump got).shared ∧
      (s.pumpStep number pump got).routers = s.routers ∧
      (s.pumpStep number pump got).changes = s.changes := by
  have hself : s.pumps.set number pump = s.pumps := by
    obtain ⟨hlt, rfl⟩ := List.getElem?_eq_some_iff.mp hpump
    exact List.set_getElem_self hlt
  have hcontinues : pump.Continues pump := ⟨rfl, rfl, rfl, fun _ h => h⟩
  cases hstage : pump.stage with
  | starting =>
      refine ⟨{ pump with stage := .polling }, ?_⟩
      simp only [pumpStep, hstage]
      exact ⟨rfl, ⟨rfl, rfl, rfl, fun _ h => h⟩, .publish hstage rfl, rfl, rfl⟩
  | polling =>
      simp only [pumpStep, hstage]
      by_cases hgen : s.shared.generation = pump.gen
      · cases got with
        | none =>
            refine ⟨pump, ?_⟩
            simp only [hgen, if_true]
            exact ⟨hself.symm, hcontinues, .quiet (.inl rfl), trivial, trivial⟩
        | some picture =>
            refine ⟨{ pump with
              stage := .pushing picture, captured := pump.captured ++ [picture] }, ?_⟩
            simp only [hgen, if_true]
            exact ⟨rfl, ⟨rfl, rfl, rfl, fun _ h => List.mem_append_left _ h⟩,
              .capture picture hstage rfl (by simp), rfl, rfl⟩
      · refine ⟨{ pump with
          stage := if pump.provider = .hyperv then .clearing else .exited }, ?_⟩
        simp only [hgen, if_false]
        exact ⟨rfl, ⟨rfl, rfl, rfl, fun _ h => h⟩, .quiet (.inr ⟨hstage, rfl, rfl⟩), rfl, rfl⟩
  | pushing picture =>
      refine ⟨{ pump with stage := .polling }, ?_⟩
      simp only [pumpStep, hstage]
      exact ⟨rfl, ⟨rfl, rfl, rfl, fun _ h => h⟩, .push picture hstage rfl, rfl, rfl⟩
  | clearing =>
      refine ⟨{ pump with stage := .exited }, ?_⟩
      simp only [pumpStep, hstage]
      exact ⟨rfl, ⟨rfl, rfl, rfl, fun _ h => h⟩, .clear hstage rfl, rfl, rfl⟩
  | exited =>
      refine ⟨pump, ?_⟩
      simp only [pumpStep, hstage]
      exact ⟨hself.symm, hcontinues, .quiet (.inl rfl), trivial, trivial⟩

/-- An attached machine stays so while its pump goes on. -/
theorem Attached.continues {next : VmPump} {t : VmBridge} {other : Nat} {p : VmPump}
    (hpump : s.pumps[number]? = some pump) (hnext : pump.Continues next)
    (hpumps : t.pumps = s.pumps.set number next)
    (hid : t.shared.attachedId = s.shared.attachedId) (h : s.Attached other p) :
    (other = number ∧ p = pump ∧ t.Attached other next) ∨
      (other ≠ number ∧ t.Attached other p) := by
  obtain ⟨hget, hlast, hattached⟩ := h
  have hlt := (List.getElem?_eq_some_iff.mp hpump).1
  by_cases hother : other = number
  · subst hother
    have hp : p = pump := Option.some.inj (hget.symm.trans hpump)
    subst hp
    refine .inl ⟨rfl, rfl, ?_, ?_, ?_⟩
    · rw [hpumps, List.getElem?_set_self hlt]
    · rw [hpumps, List.length_set, hlast]
    · rw [hid, hattached, hnext.vmId]
  · refine .inr ⟨hother, ?_, ?_, ?_⟩
    · rw [hpumps, List.getElem?_set_ne (Ne.symm hother), hget]
    · rw [hpumps, List.length_set, hlast]
    · rw [hid, hattached]

/-- A pump after the step of one of them. -/
theorem getElem?_after_step {next : VmPump} {t : VmBridge} {other : Nat} {p : VmPump}
    (hpumps : t.pumps = s.pumps.set number next) (h : t.pumps[other]? = some p) :
    (other = number ∧ p = next) ∨ (other ≠ number ∧ s.pumps[other]? = some p) := by
  rw [hpumps, List.getElem?_set] at h
  split at h
  next hsame =>
    split at h
    · exact .inl ⟨hsame.symm, (Option.some.inj h).symm⟩
    · cases h
  next hother => exact .inr ⟨Ne.symm hother, h⟩

/-- The pump of a new attach is the last one. -/
theorem getElem?_after_attach {last p : VmPump} {other : Nat}
    (h : (s.pumps ++ [last])[other]? = some p) :
    s.pumps[other]? = some p ∨ other = s.pumps.length ∧ p = last := by
  rw [List.getElem?_append] at h
  split at h
  next => exact .inl h
  next hge =>
    obtain ⟨hlt, hlast⟩ := List.getElem?_eq_some_iff.mp h
    rw [List.length_singleton] at hlt
    have hzero : other - s.pumps.length = 0 := by omega
    simp only [hzero, List.getElem_cons_zero] at hlast
    exact .inr ⟨by omega, hlast.symm⟩

/-! Pictures. -/

/-- A pump's generation tells whether its machine is still attached, and what is shown
has been got by the pump of the machine that is. -/
structure Tagged (s : VmBridge) : Prop where
  generation : s.shared.generation = UInt64.ofNat s.changes
  gens : ∀ (number : Nat) (pump : VmPump), s.pumps[number]? = some pump →
    pump.gen.toNat < s.changes ∨ pump.gen.toNat = s.changes ∧ s.Attached number pump
  pushing : ∀ (number : Nat) (pump : VmPump) (picture : VmPicture),
    s.pumps[number]? = some pump → pump.stage = .pushing picture → picture ∈ pump.captured
  shows : s.shared.attachedId.isSome → s.shared.haveFrame = true →
    ∃ number pump, s.Attached number pump ∧ ∃ picture ∈ pump.captured,
      s.shared.width = picture.width ∧ s.shared.height = picture.height ∧
        s.shared.bgra = rgbaToBgra picture.rgba

theorem start_tagged : start.Tagged where
  generation := rfl
  gens := by simp [start]
  pushing := by simp [start]
  shows := by simp [start, VmShared.default]

/-- A change leaves no pump with the generation before. -/
theorem Tagged.gens_lt (h : s.Tagged) :
    ∀ (number : Nat) (pump : VmPump), s.pumps[number]? = some pump →
      pump.gen.toNat < s.changes + 1 := by
  intro number pump hpump
  rcases h.gens number pump hpump with hlt | ⟨heq, -⟩ <;> omega

theorem Tagged.detach (h : s.Tagged) (hattached : s.shared.attachedId.isSome) :
    Tagged { s with shared := s.shared.detach, changes := s.changes + 1 } := by
  rw [VmShared.detach, if_pos hattached]
  constructor
  · rw [h.generation, UInt64.ofNat_add]
    rfl
  · intro number pump hpump
    exact .inl (h.gens_lt number pump hpump)
  · exact h.pushing
  · intro habsurd
    cases habsurd

theorem Tagged.beginAttach (h : s.Tagged) (hbound : s.changes + 1 < 2 ^ 64)
    (provider : VmProvider) (id : String) {stage : PumpStage}
    (hstage : ∀ picture, stage ≠ .pushing picture) :
    Tagged
      { s with
        shared := s.shared.beginAttach provider id
        pumps := s.pumps ++ [⟨provider, id, (s.shared.beginAttach provider id).generation,
          stage, []⟩]
        changes := s.changes + 1 } := by
  have hgen : (s.shared.beginAttach provider id).generation = UInt64.ofNat (s.changes + 1) := by
    rw [VmShared.beginAttach, h.generation, UInt64.ofNat_add]
    rfl
  constructor
  · exact hgen
  · intro number pump hpump
    rcases getElem?_after_attach hpump with hold | ⟨hlast, rfl⟩
    · exact .inl (h.gens_lt number pump hold)
    · refine .inr ⟨?_, hpump, ?_, rfl⟩
      · rw [hgen, UInt64.toNat_ofNat_of_lt' hbound]
      · simp [hlast]
  · intro number pump picture hpump hpushing
    rcases getElem?_after_attach hpump with hold | ⟨-, rfl⟩
    · exact h.pushing number pump picture hold hpushing
    · exact absurd hpushing (hstage picture)
  · intro _ habsurd
    cases habsurd

/-- A picture that is stored is one of the attached machine. -/
theorem Tagged.attached_of_gen (h : s.Tagged) (hbound : s.changes < 2 ^ 64)
    (hpump : s.pumps[number]? = some pump) (hgen : s.shared.generation = pump.gen) :
    s.Attached number pump := by
  have hvalue : pump.gen.toNat = s.changes := by
    rw [← hgen, h.generation, UInt64.toNat_ofNat_of_lt' hbound]
  rcases h.gens number pump hpump with hlt | ⟨-, hattached⟩
  · omega
  · exact hattached

theorem Tagged.pumpStep (h : s.Tagged) (hbound : s.changes < 2 ^ 64)
    (hpump : s.pumps[number]? = some pump) (got : Option VmPicture) :
    (s.pumpStep number pump got).Tagged := by
  obtain ⟨next, hpumps, hnext, heffect, -, hchanges⟩ := pumpStep_cases hpump got
  generalize s.pumpStep number pump got = t at *
  obtain ⟨hgeneration, hid⟩ := heffect.fixed
  have hkept : ∀ other p, s.Attached other p → ∃ q, t.Attached other q ∧
      ∀ picture ∈ p.captured, picture ∈ q.captured := by
    intro other p hattached
    rcases hattached.continues hpump hnext hpumps hid with ⟨-, rfl, hq⟩ | ⟨-, hq⟩
    · exact ⟨next, hq, hnext.captured⟩
    · exact ⟨p, hq, fun _ hpicture => hpicture⟩
  constructor
  · rw [hgeneration, hchanges, h.generation]
  · intro other p hp
    rcases getElem?_after_step hpumps hp with ⟨rfl, rfl⟩ | ⟨hother, hold⟩
    · rw [hnext.gen, hchanges]
      refine (h.gens other pump hpump).imp_right fun ⟨hvalue, hattached⟩ => ⟨hvalue, ?_⟩
      rcases hattached.continues hpump hnext hpumps hid with ⟨-, -, hq⟩ | ⟨hne, -⟩
      · exact hq
      · exact absurd rfl hne
    · rw [hchanges]
      refine (h.gens other p hold).imp_right fun ⟨hvalue, hattached⟩ => ⟨hvalue, ?_⟩
      rcases hattached.continues hpump hnext hpumps hid with ⟨hsame, -⟩ | ⟨-, hq⟩
      · exact absurd hsame hother
      · exact hq
  · intro other p picture hp hstage
    rcases getElem?_after_step hpumps hp with ⟨rfl, rfl⟩ | ⟨-, hold⟩
    · rcases heffect.pushing hstage with hbefore | hgot
      · exact hnext.captured _ (h.pushing other pump picture hpump hbefore)
      · exact hgot
    · exact h.pushing other p picture hold hstage
  · intro hattached hframe
    rcases heffect.shown with ⟨hhave, hwidth, hheight, hbgra⟩ | ⟨picture, hstage, hgen, hshown⟩
    · obtain ⟨other, p, hp, picture, hpicture, hshown⟩ := h.shows (hid ▸ hattached) (hhave ▸ hframe)
      obtain ⟨q, hq, hcaptured⟩ := hkept other p hp
      rw [hwidth, hheight, hbgra]
      exact ⟨other, q, hq, picture, hcaptured picture hpicture, hshown⟩
    · obtain ⟨q, hq, hcaptured⟩ := hkept number pump (h.attached_of_gen hbound hpump hgen)
      exact ⟨number, q, hq, picture, hcaptured _ (h.pushing number pump picture hpump hstage),
        hshown⟩

theorem Tagged.attach (h : s.Tagged) (vmId : String) (vms : VmInventory) (spawned : Bool)
    (hbound : (s.attach vmId vms spawned).changes < 2 ^ 64) :
    (s.attach vmId vms spawned).Tagged := by
  unfold VmBridge.attach at hbound ⊢
  cases hrequest : vms.resolve vmId with
  | refused error => exact h
  | detach =>
      cases hattached : s.shared.attachedId with
      | none =>
          have hsame : s.shared.detach = s.shared := by simp [VmShared.detach, hattached]
          simpa [hsame] using h
      | some id => simpa using h.detach (by rw [hattached]; rfl)
  | attach provider vm =>
      rw [hrequest] at hbound
      refine h.beginAttach hbound provider vm.id ?_
      intro picture
      cases spawned
      · simp
      · cases provider <;> simp [firstStage]

/-- Routing leaves pumps and pictures alone. -/
theorem step_routing (i : VmBridgeInput) :
    (∃ vmId vms spawned, i = .attach vmId vms spawned) ∨
      (∃ number pump got, i = .pump number got ∧ s.pumps[number]? = some pump) ∨
      ∃ routers, (s.step i).1 = { s with routers } := by
  have hroute : ∀ router commands, ∃ routers, s.route router commands = { s with routers } := by
    intro router commands
    unfold route
    split
    · exact ⟨_, rfl⟩
    · exact ⟨s.routers, rfl⟩
  cases i with
  | attach vmId vms spawned => exact .inl ⟨vmId, vms, spawned, rfl⟩
  | pump number got =>
      cases hpump : s.pumps[number]? with
      | some pump => exact .inr (.inl ⟨number, pump, got, rfl, hpump⟩)
      | none => exact .inr (.inr ⟨s.routers, by simp [step, hpump]⟩)
  | routeMouse router ev =>
      refine .inr (.inr ?_)
      simp only [step]
      split
      · exact hroute router _
      · exact ⟨s.routers, rfl⟩
  | routeKey router commands =>
      refine .inr (.inr ?_)
      simp only [step]
      split
      · exact hroute router _
      · exact ⟨s.routers, rfl⟩
  | dispatch router =>
      refine .inr (.inr ?_)
      simp only [step, dispatch]
      split
      · exact ⟨s.routers, rfl⟩
      · split <;> exact ⟨_, rfl⟩
      · exact ⟨_, rfl⟩
      · exact ⟨_, rfl⟩
  | ctrlAltDel vmId =>
      refine .inr (.inr ⟨s.routers, ?_⟩)
      simp only [step]
      split <;> rfl

theorem changes_le_step (i : VmBridgeInput) : s.changes ≤ (s.step i).1.changes := by
  rcases step_routing (s := s) i with
    ⟨vmId, vms, spawned, rfl⟩ | ⟨number, pump, got, rfl, hpump⟩ | ⟨routers, hstep⟩
  · simp only [step, attach]
    split
    · exact Nat.le_refl _
    · simp only
      split <;> omega
    · exact Nat.le_succ _
  · obtain ⟨next, -, -, -, -, hchanges⟩ := pumpStep_cases hpump got
    simp only [step, hpump]
    exact hchanges.ge
  · exact (congrArg VmBridge.changes hstep).ge

theorem Tagged.step (h : s.Tagged) (i : VmBridgeInput)
    (hbound : (s.step i).1.changes < 2 ^ 64) : (s.step i).1.Tagged := by
  have hbefore := (changes_le_step (s := s) i).trans_lt hbound
  rcases step_routing (s := s) i with
    ⟨vmId, vms, spawned, rfl⟩ | ⟨number, pump, got, rfl, hpump⟩ | ⟨routers, hstep⟩
  · exact h.attach vmId vms spawned hbound
  · simp only [VmBridge.step, hpump]
    exact h.pumpStep hbefore hpump got
  · rw [hstep]
    exact ⟨h.generation, h.gens, h.pushing, h.shows⟩

theorem run_tagged (is : List VmBridgeInput)
    (hbound : (vmBridge.run start is).changes < 2 ^ 64) : (vmBridge.run start is).Tagged := by
  refine vmBridge.invariant (C := fun _ _ => True)
    (I := fun s => s.changes < 2 ^ 64 → s.Tagged) ?_ (fun _ => start_tagged)
    (vmBridge.along_of_forall (fun _ _ => trivial) _ _) hbound
  intro s i h _ hstep
  exact (h ((changes_le_step i).trans_lt hstep)).step i hstep

/-- A picture is one that the pump of the attached machine has got, with its size. -/
def ShowsAttached (s : VmBridge) : Prop :=
  (∀ width height bgra, s.shared.activeFrame = some (width, height, bgra) →
    ∃ number pump, s.Attached number pump ∧ ∃ picture ∈ pump.captured,
      width = picture.width ∧ height = picture.height ∧ bgra = rgbaToBgra picture.rgba) ∧
    (s.shared.attachedId = none → s.shared.activeFrame = none)

theorem Tagged.showsAttached (h : s.Tagged) : s.ShowsAttached := by
  constructor
  · intro width height bgra hframe
    unfold VmShared.activeFrame at hframe
    split at hframe
    next => cases hframe
    next hready =>
      cases hframe
      rw [Bool.or_assoc, Bool.or_eq_true, not_or, Bool.or_eq_true, not_or] at hready
      exact h.shows (by simpa [Option.isSome_iff_ne_none] using hready.1)
        (by simpa using hready.2.1)
  · intro hnone
    simp [VmShared.activeFrame, hnone]

end VmBridge

/-- In every run in which the generation has changed fewer than 2^64 times. -/
theorem pictures_of_attached (is : List VmBridgeInput)
    (hbound : (vmBridge.run .start is).changes < 2 ^ 64) :
    (vmBridge.run .start is).ShowsAttached :=
  (VmBridge.run_tagged is hbound).showsAttached

/-- Two machines of VirtualBox. -/
def twoMachines : VmInventory := ⟨[], [⟨"a", "A", "Running", true⟩, ⟨"b", "B", "Running", true⟩]⟩

def onePixel : VmPicture := ⟨1, 1, [1, 2, 3, 4]⟩

/-- The first machine is attached and gives its picture to its pump. -/
def firstPicture : List VmBridgeInput :=
  [.attach "vbox:a" twoMachines true, .pump 0 (some onePixel)]

theorem pictures_of_attached_first :
    (vmBridge.run .start (firstPicture ++ [.pump 0 none])).shared.activeFrame =
        some (1, 1, [3, 2, 1, 4]) ∧
      (vmBridge.run .start (firstPicture ++ [.pump 0 none])).ShowsAttached :=
  ⟨by decide, pictures_of_attached _ (by decide)⟩

/-- The second machine is attached again and again. -/
def reattached (n : Nat) : List VmBridgeInput :=
  (List.replicate n [.attach "" twoMachines true, .attach "vbox:b" twoMachines true]).flatten

theorem resolve_second : twoMachines.resolve "vbox:b" =
    .attach .vbox ⟨"b", "B", "Running", true⟩ := by decide

theorem resolve_blank : twoMachines.resolve "" = .detach := by decide

/-- Every detach and every attach takes the generation one further. -/
theorem run_reattached (n : Nat) {s : VmBridge} (hattached : s.shared.attachedId.isSome) :
    let t := vmBridge.run s (reattached n)
    t.shared.attachedId.isSome ∧
      t.shared.generation = s.shared.generation + UInt64.ofNat (2 * n) ∧
      ∃ later, t.pumps = s.pumps ++ later ∧ later.length = n ∧
        ∀ pump ∈ later, pump.captured = [] := by
  induction n generalizing s with
  | zero => exact ⟨hattached, by simp [reattached], [], by simp [reattached], rfl, by simp⟩
  | succ n ih =>
      let again := (vmBridge.step (vmBridge.step s (.attach "" twoMachines true)).1
        (.attach "vbox:b" twoMachines true)).1
      let pump : VmPump := ⟨.vbox, "b", s.shared.generation + 1 + 1, .polling, []⟩
      have hpumps : again.pumps = s.pumps ++ [pump] := by
        simp [again, pump, vmBridge, VmBridge.step, VmBridge.attach, resolve_second,
          resolve_blank, VmShared.detach, VmShared.beginAttach, VmBridge.firstStage, hattached]
      have hagain : again.shared.attachedId.isSome ∧
          again.shared.generation = s.shared.generation + 1 + 1 := by
        simp [again, vmBridge, VmBridge.step, VmBridge.attach, resolve_second, resolve_blank,
          VmShared.detach, VmShared.beginAttach, hattached]
      obtain ⟨hid, hgeneration, later, hlater, hlength, hcaptured⟩ := ih hagain.1
      refine ⟨hid, ?_, pump :: later, ?_, ?_, ?_⟩
      · have htwo : UInt64.ofNat (2 * (n + 1)) = 1 + 1 + UInt64.ofNat (2 * n) := by
          rw [Nat.mul_succ, Nat.add_comm, UInt64.ofNat_add]
          rfl
        rw [htwo, ← UInt64.add_assoc, ← UInt64.add_assoc, ← hagain.2]
        exact hgeneration
      · rw [List.append_cons, ← hpumps]
        exact hlater
      · rw [List.length_cons, hlength]
      · intro p hp
        rcases List.mem_cons.mp hp with rfl | hrest
        · rfl
        · exact hcaptured p hrest

/-- The first pump stores the picture that it has got before all the changes. -/
def oldPicture (n : Nat) : List VmBridgeInput := firstPicture ++ (reattached n ++ [.pump 0 none])

theorem oldPicture_shown {n : Nat} (hpos : 0 < n) (hwrap : UInt64.ofNat (2 * n) = 0) :
    (vmBridge.run .start (oldPicture n)).pumps.length = n + 1 ∧
      ¬ (vmBridge.run .start (oldPicture n)).ShowsAttached := by
  let first := vmBridge.run .start firstPicture
  let pump : VmPump := ⟨.vbox, "a", 1, .pushing onePixel, [onePixel]⟩
  have hfirst : first.shared.attachedId = some "a" ∧ first.shared.generation = 1 ∧
      first.pumps = [pump] := by decide
  obtain ⟨hid, hgeneration, later, hlater, hlength, hcaptured⟩ :=
    run_reattached n (s := first) (by rw [hfirst.1]; rfl)
  generalize hlast : vmBridge.run first (reattached n) = last at hid hgeneration hlater
  rw [hfirst.2.1, hwrap] at hgeneration
  rw [hfirst.2.2] at hlater
  have hpump : last.pumps[0]? = some pump := by rw [hlater]; rfl
  have hrun : vmBridge.run .start (oldPicture n) = last.pumpStep 0 pump none := by
    rw [oldPicture, vmBridge.run_append, vmBridge.run_append]
    change (vmBridge.step (vmBridge.run first (reattached n)) (.pump 0 none)).1 = _
    rw [hlast]
    simp [vmBridge, VmBridge.step, hpump]
  obtain ⟨next, hpumps, -, -, -, -⟩ := VmBridge.pumpStep_cases hpump none
  rw [hrun]
  constructor
  · rw [hpumps, List.length_set, hlater, List.length_append, hlength, List.length_singleton,
      Nat.add_comm]
  · rintro ⟨hshows, -⟩
    have hframe : (last.pumpStep 0 pump none).shared.activeFrame = some (1, 1, [3, 2, 1, 4]) := by
      simp [VmBridge.pumpStep, pump, VmShared.pushFrame, hgeneration, VmShared.activeFrame,
        onePixel, rgbaToBgra, Option.isSome_iff_ne_none.mp hid]
    obtain ⟨number, q, ⟨hget, hnumber, -⟩, picture, hpicture, -⟩ := hshows _ _ _ hframe
    rw [hpumps, List.length_set, hlater, List.length_append, hlength,
      List.length_singleton] at hnumber
    rcases VmBridge.getElem?_after_step hpumps hget with ⟨hzero, -⟩ | ⟨-, hold⟩
    · omega
    · rw [hlater, List.getElem?_append_right (by simp; omega)] at hold
      rw [hcaptured q (List.mem_of_getElem? hold)] at hpicture
      cases hpicture

/-- After 2^63 changes to the second machine and as many detaches the generation is that
of the first pump again. -/
theorem old_pump_is_current_again :
    ¬ ∀ is : List VmBridgeInput, (vmBridge.run .start is).pumps.length < 2 ^ 64 →
      (vmBridge.run .start is).ShowsAttached := by
  intro hclaim
  obtain ⟨hlength, hshown⟩ := oldPicture_shown (n := 2 ^ 63) (by decide) (by decide)
  exact hshown (hclaim _ (by omega))

end EvertyDesk.Host
