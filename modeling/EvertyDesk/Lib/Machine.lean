import Mathlib.Data.List.Basic
import Mathlib.Data.List.Induction

/-!
Deterministic machines with an input and an output at every step, their runs,
and the induction rules for properties of whole runs. Nothing here depends on
a particular program: a component is described by its step function alone, and
interleavings are the lists of inputs.
-/

namespace EvertyDesk

/-- A step function over explicit states. -/
structure Machine (State Input Output : Type*) where
  step : State → Input → State × Output

namespace Machine

variable {State Input Output : Type*}

/-- The state reached after a list of inputs. -/
def run (m : Machine State Input Output) : State → List Input → State
  | s, [] => s
  | s, i :: is => m.run (m.step s i).1 is

/-- The outputs of a run, oldest first. -/
def outputs (m : Machine State Input Output) : State → List Input → List Output
  | _, [] => []
  | s, i :: is => (m.step s i).2 :: m.outputs (m.step s i).1 is

/-- Every step of the run meets a condition on the state before it and its
input. -/
def Along (m : Machine State Input Output) (ok : State → Input → Prop) : State → List Input → Prop
  | _, [] => True
  | s, i :: is => ok s i ∧ m.Along ok (m.step s i).1 is

/-- The sum of what the steps of a run count for. -/
def tally (m : Machine State Input Output) (count : State → Input → Nat) : State → List Input → Nat
  | _, [] => 0
  | s, i :: is => count s i + m.tally count (m.step s i).1 is

variable (m : Machine State Input Output)

@[simp] theorem run_nil (s : State) : m.run s [] = s := rfl

@[simp] theorem run_cons (s : State) (i : Input) (is : List Input) :
    m.run s (i :: is) = m.run (m.step s i).1 is := rfl

@[simp] theorem outputs_nil (s : State) : m.outputs s [] = [] := rfl

@[simp] theorem outputs_cons (s : State) (i : Input) (is : List Input) :
    m.outputs s (i :: is) = (m.step s i).2 :: m.outputs (m.step s i).1 is := rfl

@[simp] theorem along_nil (ok : State → Input → Prop) (s : State) :
    m.Along ok s [] := trivial

@[simp] theorem along_cons (ok : State → Input → Prop) (s : State)
    (i : Input) (is : List Input) :
    m.Along ok s (i :: is) ↔ ok s i ∧ m.Along ok (m.step s i).1 is := Iff.rfl

instance instDecidableAlong {ok : State → Input → Prop} [∀ s i, Decidable (ok s i)] :
    ∀ (s : State) (is : List Input), Decidable (m.Along ok s is)
  | _, [] => inferInstanceAs (Decidable True)
  | s, i :: is =>
      haveI : Decidable (m.Along ok (m.step s i).1 is) := instDecidableAlong (m.step s i).1 is
      inferInstanceAs (Decidable (ok s i ∧ m.Along ok (m.step s i).1 is))

theorem run_append (s : State) (is js : List Input) :
    m.run s (is ++ js) = m.run (m.run s is) js := by
  induction is generalizing s with
  | nil => rfl
  | cons i is ih => exact ih (m.step s i).1

theorem outputs_append (s : State) (is js : List Input) :
    m.outputs s (is ++ js) = m.outputs s is ++ m.outputs (m.run s is) js := by
  induction is generalizing s with
  | nil => rfl
  | cons i is ih => simp [ih]

theorem along_append (ok : State → Input → Prop) (s : State) (is js : List Input) :
    m.Along ok s (is ++ js) ↔ m.Along ok s is ∧ m.Along ok (m.run s is) js := by
  induction is generalizing s with
  | nil => simp
  | cons i is ih => simp [ih, and_assoc]

theorem along_and {P Q : State → Input → Prop} {s : State} {is : List Input}
    (hP : m.Along P s is) (hQ : m.Along Q s is) :
    m.Along (fun t i => P t i ∧ Q t i) s is := by
  induction is generalizing s with
  | nil => trivial
  | cons i is ih => exact ⟨⟨hP.1, hQ.1⟩, ih hP.2 hQ.2⟩

/-- The condition holds at every place of the run. -/
theorem along_iff {ok : State → Input → Prop} {s : State} {is : List Input} :
    m.Along ok s is ↔ ∀ before i after, is = before ++ i :: after → ok (m.run s before) i := by
  constructor
  · rintro h before i after rfl
    exact ((m.along_append ok s before (i :: after)).mp h).2.1
  · intro h
    induction is generalizing s with
    | nil => trivial
    | cons i is ih =>
        refine ⟨h [] i is rfl, ih ?_⟩
        rintro before j after rfl
        exact h (i :: before) j after rfl

theorem along_of_forall {ok : State → Input → Prop} (h : ∀ s i, ok s i)
    (s : State) (is : List Input) : m.Along ok s is := by
  induction is generalizing s with
  | nil => trivial
  | cons i is ih => exact ⟨h s i, ih _⟩

theorem along_of_inputs {ok : Input → Prop} {is : List Input}
    (h : ∀ i ∈ is, ok i) (s : State) : m.Along (fun _ i => ok i) s is := by
  induction is generalizing s with
  | nil => trivial
  | cons i is ih =>
      exact ⟨h i List.mem_cons_self, ih (fun j hj => h j (List.mem_cons_of_mem _ hj)) _⟩

/-- The invariant rule: what every conditional step preserves holds after
every run whose steps all meet the condition. -/
theorem invariant {C : State → Input → Prop} {I : State → Prop}
    (hstep : ∀ s i, I s → C s i → I (m.step s i).1)
    {s : State} {is : List Input} (hs : I s) (h : m.Along C s is) :
    I (m.run s is) := by
  induction is generalizing s with
  | nil => exact hs
  | cons i is ih => exact ih (hstep s i hs h.1) h.2

/-- The exact rule: when a step keeps the property if and only if it meets the condition,
the runs of which every state has the property are those whose steps all meet the
condition. What always holds may be used, and what is known of the inputs. -/
theorem along_iff_every_state {ok : Input → Prop} {C : State → Input → Prop} {J I : State → Prop}
    (hstep : ∀ s i, ok i → J s → I s → J (m.step s i).1 ∧ (C s i ↔ I (m.step s i).1))
    {is : List Input} (his : ∀ i ∈ is, ok i) {s : State} (hJ : J s) (hI : I s) :
    m.Along C s is ↔ ∀ before after, is = before ++ after → I (m.run s before) := by
  induction is generalizing s with
  | nil =>
      refine ⟨fun _ before after h => ?_, fun _ => trivial⟩
      obtain ⟨rfl, -⟩ := List.append_eq_nil_iff.mp h.symm
      exact hI
  | cons i is ih =>
      obtain ⟨hnext, hiff⟩ := hstep s i (his i List.mem_cons_self) hJ hI
      have hrest : ∀ j ∈ is, ok j := fun j hj => his j (List.mem_cons_of_mem _ hj)
      constructor
      · rintro ⟨hC, halong⟩ before after heq
        cases before with
        | nil => exact hI
        | cons j before =>
            obtain ⟨rfl, htail⟩ := List.cons.inj heq
            exact (ih hrest hnext (hiff.mp hC)).mp halong before after htail
      · intro h
        have hI' : I (m.step s i).1 := h [i] is rfl
        refine ⟨hiff.mpr hI', (ih hrest hnext hI').mpr ?_⟩
        rintro before after rfl
        exact h (i :: before) after rfl

/-- The invariant rule for what depends on the inputs so far as well. -/
theorem invariant_history {C : State → Input → Prop} {I : List Input → State → Prop}
    {s : State} (hstep : ∀ before t i, I before t → C t i → I (before ++ [i]) (m.step t i).1)
    {is : List Input} (hs : I [] s) (h : m.Along C s is) : I is (m.run s is) := by
  induction is using List.reverseRecOn with
  | nil => exact hs
  | append_singleton is i ih =>
      obtain ⟨hbefore, hlast, _⟩ := (m.along_append _ _ _ _).mp h
      rw [run_append]
      exact hstep is (m.run s is) i (ih hbefore) hlast

/-- What every conditional step from an invariant state guarantees about the
step itself holds of every step of the run. -/
theorem along_of_invariant {C G : State → Input → Prop} {I : State → Prop}
    (hstep : ∀ s i, I s → C s i → I (m.step s i).1 ∧ G s i)
    {s : State} {is : List Input} (hs : I s) (h : m.Along C s is) :
    m.Along G s is := by
  induction is generalizing s with
  | nil => trivial
  | cons i is ih =>
      obtain ⟨hnext, hgood⟩ := hstep s i hs h.1
      exact ⟨hgood, ih hnext h.2⟩

/-- Conditions that say the same in the states of an invariant, which they keep, say the
same of whole runs. -/
theorem along_congr {P Q : State → Input → Prop} {I : State → Prop}
    (hstep : ∀ s i, I s → (P s i ↔ Q s i) ∧ (Q s i → I (m.step s i).1))
    {s : State} {is : List Input} (hs : I s) : m.Along P s is ↔ m.Along Q s is := by
  induction is generalizing s with
  | nil => exact Iff.rfl
  | cons i is ih =>
      obtain ⟨hsame, hkeeps⟩ := hstep s i hs
      rw [along_cons, along_cons, hsame]
      exact and_congr_right fun hQ => ih (hkeeps hQ)

/-- A step's output may rely on the invariant, so it holds of every output of
the run. -/
theorem outputs_forall {C : State → Input → Prop} {I : State → Prop} {G : Output → Prop}
    (hstep : ∀ s i, I s → C s i → I (m.step s i).1 ∧ G (m.step s i).2)
    {s : State} {is : List Input} (hs : I s) (h : m.Along C s is) :
    ∀ o ∈ m.outputs s is, G o := by
  induction is generalizing s with
  | nil => simp
  | cons i is ih =>
      intro o member
      have hnext := hstep s i hs h.1
      rcases List.mem_cons.mp member with rfl | later
      · exact hnext.2
      · exact ih hnext.1 h.2 o later

/-- The conservation rule: when what is held before a step and enters with it is held after
it or comes out of it, then all that entered in a run came out of it or is held. -/
theorem conserved {Seen : Type*} (out : Output → Option Seen) {held : State → Nat}
    {entered : State → Input → Nat}
    (hstep : ∀ s i, held s + entered s i = (out (m.step s i).2).toList.length + held (m.step s i).1)
    (s : State) (is : List Input) :
    held s + m.tally entered s is =
      ((m.outputs s is).filterMap out).length + held (m.run s is) := by
  induction is generalizing s with
  | nil => simp [tally]
  | cons i is ih =>
      have hfirst := hstep s i
      have hrest := ih (m.step s i).1
      rw [tally, outputs_cons, run_cons, List.filterMap_cons]
      cases hout : out (m.step s i).2 with
      | none =>
          rw [hout, Option.toList_none, List.length_nil] at hfirst
          dsimp only
          omega
      | some seen =>
          rw [hout, Option.toList_some, List.length_singleton] at hfirst
          rw [List.length_cons]
          omega

/-- The simulation rule: two machines that take related steps put out the same,
once the outputs of the first are read as those of the second. -/
theorem outputs_simulated {State' Output' : Type*}
    (abstr : Machine State' Input Output') {R : State → State' → Prop}
    {C : Input → Prop} {f : Output → Output'}
    (hstep : ∀ s t i, R s t → C i →
      R (m.step s i).1 (abstr.step t i).1 ∧ f (m.step s i).2 = (abstr.step t i).2)
    {s : State} {t : State'} {is : List Input} (hR : R s t) (hok : ∀ i ∈ is, C i) :
    (m.outputs s is).map f = abstr.outputs t is := by
  induction is generalizing s t with
  | nil => rfl
  | cons i is ih =>
      obtain ⟨hnext, hread⟩ := hstep s t i hR (hok i List.mem_cons_self)
      rw [outputs_cons, outputs_cons, List.map_cons, hread,
        ih hnext fun j hj => hok j (List.mem_cons_of_mem _ hj)]

/-- A part of a machine that is a machine of its own: the inputs that concern
it are steps of it, the others leave it alone, and what it puts out is what is
seen of it in the whole. -/
theorem outputs_part {Part PartInput Seen : Type*}
    (part : Machine Part PartInput (Option Seen)) {v : State → Part}
    {concerns : Input → Option PartInput} {seen : Output → Option Seen}
    (hother : ∀ s i, concerns i = none → v (m.step s i).1 = v s ∧ seen (m.step s i).2 = none)
    (hown : ∀ s i j, concerns i = some j →
      part.step (v s) j = (v (m.step s i).1, seen (m.step s i).2))
    (s : State) (is : List Input) :
    (m.outputs s is).filterMap seen =
      (part.outputs (v s) (is.filterMap concerns)).filterMap id := by
  induction is generalizing s with
  | nil => rfl
  | cons i is ih =>
      have hrest := ih (m.step s i).1
      cases hinput : concerns i with
      | none =>
          obtain ⟨hview, hseen⟩ := hother s i hinput
          rw [outputs_cons, List.filterMap_cons_none hseen,
            List.filterMap_cons_none hinput, hrest, hview]
      | some j =>
          have hstep := hown s i j hinput
          rw [outputs_cons, List.filterMap_cons, List.filterMap_cons_some hinput,
            outputs_cons, List.filterMap_cons, hstep, hrest]
          rfl

end Machine

end EvertyDesk
