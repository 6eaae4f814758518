import Mathlib.Data.List.Basic
import Mathlib.Algebra.Order.Group.Nat

/-!
Systems whose parties take turns in any order. An action can be taken in some states and
not in others; a run is a list of actions that can be taken one after the other.
-/

namespace EvertyDesk

/-- What an action makes of a state in which it can be taken. -/
structure Interleaving (State Action : Type*) where
  act : State → Action → Option State

namespace Interleaving

variable {State Action : Type*}

def run (m : Interleaving State Action) : State → List Action → Option State
  | s, [] => some s
  | s, action :: actions => (m.act s action).bind fun s' => m.run s' actions

/-- No action of this kind can be taken. -/
def Stuck (m : Interleaving State Action) (kind : Action → Prop) (s : State) : Prop :=
  ∀ action, kind action → m.act s action = none

variable {m : Interleaving State Action} {s s' : State} {actions : List Action}

theorem run_cons_eq_some {action : Action} :
    m.run s (action :: actions) = some s' ↔
      ∃ next, m.act s action = some next ∧ m.run next actions = some s' :=
  Option.bind_eq_some_iff

/-- What every action of a kind preserves holds after a run of such actions. -/
theorem run_induction {kind : Action → Prop} {I : State → Prop}
    (hact : ∀ {s action s'}, kind action → I s → m.act s action = some s' → I s')
    (hkind : ∀ action ∈ actions, kind action) (hrun : m.run s actions = some s') (h : I s) :
    I s' := by
  induction actions generalizing s with
  | nil =>
      obtain rfl := Option.some.inj hrun
      exact h
  | cons action actions ih =>
      obtain ⟨hfirst, hrest⟩ := List.forall_mem_cons.mp hkind
      obtain ⟨next, hnext, hrun⟩ := run_cons_eq_some.mp hrun
      exact ih hrest hrun (hact hfirst h hnext)

/-- Where every action of a kind takes off some of the work, there are not many. -/
theorem length_le_of_work {kind : Action → Prop} {work : State → Nat}
    (hact : ∀ {s action s'}, kind action → m.act s action = some s' → work s' < work s)
    (hkind : ∀ action ∈ actions, kind action) (hrun : m.run s actions = some s') :
    actions.length + work s' ≤ work s := by
  induction actions generalizing s with
  | nil =>
      obtain rfl := Option.some.inj hrun
      simp
  | cons action actions ih =>
      obtain ⟨hfirst, hrest⟩ := List.forall_mem_cons.mp hkind
      obtain ⟨next, hnext, hrun⟩ := run_cons_eq_some.mp hrun
      have hless := hact hfirst hnext
      have hlater := ih hrest hrun
      rw [List.length_cons]
      omega

end Interleaving

end EvertyDesk
