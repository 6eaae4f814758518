import EvertyDesk.Lib.Machine

/-!
What an observer sees of the steps of a run: at some steps something, read off the state
before the step and its input, at the others nothing.
-/

namespace EvertyDesk.Machine

variable {State Input Output Seen : Type*}

/-- What is seen along a run, oldest first. -/
def observe (m : Machine State Input Output) (see : State → Input → Option Seen) :
    State → List Input → List Seen
  | _, [] => []
  | s, i :: is => (see s i).toList ++ m.observe see (m.step s i).1 is

variable (m : Machine State Input Output)

@[simp] theorem observe_nil (see : State → Input → Option Seen) (s : State) :
    m.observe see s [] = [] := rfl

theorem observe_cons (see : State → Input → Option Seen) (s : State) (i : Input) (is : List Input) :
    m.observe see s (i :: is) = (see s i).toList ++ m.observe see (m.step s i).1 is := rfl

theorem observe_append (see : State → Input → Option Seen) (s : State) (is js : List Input) :
    m.observe see s (is ++ js) = m.observe see s is ++ m.observe see (m.run s is) js := by
  induction is generalizing s with
  | nil => rfl
  | cons i is ih =>
      rw [List.cons_append, observe_cons, ih, observe_cons, List.append_assoc, run_cons]

variable {m} {see see' : State → Input → Option Seen}

/-- A sharper observer sees a sublist, along runs that keep an invariant. -/
theorem observe_sublist {C : State → Input → Prop} {I : State → Prop}
    (hstep : ∀ s i, I s → C s i → I (m.step s i).1 ∧ ∀ x, see s i = some x → see' s i = some x)
    {s : State} {is : List Input} (hs : I s) (h : m.Along C s is) :
    (m.observe see s is).Sublist (m.observe see' s is) := by
  induction is generalizing s with
  | nil => exact List.Sublist.refl _
  | cons i is ih =>
      obtain ⟨hinv, hsee⟩ := hstep s i hs h.1
      rw [observe_cons, observe_cons]
      apply List.Sublist.append _ (ih hinv h.2)
      cases hx : see s i with
      | none => exact List.nil_sublist _
      | some x => rw [hsee x hx]

theorem observe_sublist_of_forall (h : ∀ s i x, see s i = some x → see' s i = some x)
    (s : State) (is : List Input) :
    (m.observe see s is).Sublist (m.observe see' s is) := by
  induction is generalizing s with
  | nil => exact List.Sublist.refl _
  | cons i is ih =>
      rw [observe_cons, observe_cons]
      apply List.Sublist.append _ (ih _)
      cases hx : see s i with
      | none => exact List.nil_sublist _
      | some x => rw [h s i x hx]

/-- What every step preserves a whole run preserves. -/
theorem run_preserves {I : State → Prop} (hstep : ∀ s i, I s → I (m.step s i).1) (s : State)
    (hs : I s) (is : List Input) : I (m.run s is) := by
  induction is generalizing s with
  | nil => exact hs
  | cons i is ih => exact ih (m.step s i).1 (hstep s i hs)

end EvertyDesk.Machine
