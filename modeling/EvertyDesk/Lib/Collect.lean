import EvertyDesk.Lib.Machine
import Mathlib.Data.List.Count

/-!
Collecting items until there are enough of them. Whenever there are, they are
handed over and the collection starts again from nothing; now and then what was
collected is thrown away. How often something is handed over can be read off
the inputs: twice or more exactly when two separate stretches of them, each
without a throw, would be enough alone.
-/

namespace EvertyDesk.Collect

open Classical

variable {Item : Type*} (enough : List Item → Prop)

/-- An item is added; `none` throws away what was collected. -/
noncomputable def step (held : List Item) (input : Option Item) : List Item × Bool :=
  match input with
  | none => ([], false)
  | some item =>
      if enough (held ++ [item]) then ([], true) else (held ++ [item], false)

noncomputable def machine : Machine (List Item) (Option Item) Bool where
  step := step enough

noncomputable def handovers (held : List Item) (inputs : List (Option Item)) : Nat :=
  ((machine enough).outputs held inputs).count true

/-- Two separate stretches that are enough alone. -/
def Twice (inputs : List (Option Item)) : Prop :=
  ∃ before first between second after,
    inputs = before ++ (first.map some ++ (between ++ (second.map some ++ after))) ∧
      enough first ∧ enough second

theorem handovers_append (held : List Item) (left right : List (Option Item)) :
    handovers enough held (left ++ right) =
      handovers enough held left + handovers enough ((machine enough).run held left) right := by
  simp [handovers, Machine.outputs_append]

theorem handovers_cons (held : List Item) (input : Option Item) (inputs : List (Option Item)) :
    handovers enough held (input :: inputs) =
      (if (step enough held input).2 then 1 else 0) +
        handovers enough (step enough held input).1 inputs := by
  rw [handovers, Machine.outputs_cons, List.count_cons, Nat.add_comm]
  cases h : (step enough held input).2 <;> simp [machine, h, handovers]

theorem handovers_none (held : List Item) (inputs : List (Option Item)) :
    handovers enough held (none :: inputs) = handovers enough [] inputs := by
  simp [handovers, machine, step]

theorem handovers_enough {held : List Item} {item : Item}
    (h : enough (held ++ [item])) (inputs : List (Option Item)) :
    handovers enough held (some item :: inputs) = handovers enough [] inputs + 1 := by
  simp [handovers, machine, step, h]

theorem handovers_more {held : List Item} {item : Item}
    (h : ¬ enough (held ++ [item])) (inputs : List (Option Item)) :
    handovers enough held (some item :: inputs) = handovers enough (held ++ [item]) inputs := by
  simp [handovers, machine, step, h]

variable {enough}

/-- The inputs up to the first handover end with a stretch that is enough,
alone or, when it is all there was so far, with what was held before. -/
theorem first_handover {held : List Item} {inputs : List (Option Item)}
    (h : 0 < handovers enough held inputs) :
    ∃ before stretch after, inputs = before ++ (stretch.map some ++ after) ∧
      (enough stretch ∨ before = [] ∧ enough (held ++ stretch)) ∧
      handovers enough held inputs = handovers enough [] after + 1 := by
  induction inputs generalizing held with
  | nil => simp [handovers] at h
  | cons input inputs ih =>
      cases input with
      | none =>
          rw [handovers_none] at h ⊢
          obtain ⟨before, stretch, after, rfl, hstretch, hcount⟩ := ih h
          have hthis : enough stretch := by
            rcases hstretch with hthis | ⟨_, hthis⟩
            · exact hthis
            · simpa using hthis
          exact ⟨none :: before, stretch, after, rfl, Or.inl hthis, hcount⟩
      | some item =>
          by_cases hitem : enough (held ++ [item])
          · rw [handovers_enough enough hitem]
            exact ⟨[], [item], inputs, rfl, Or.inr ⟨rfl, hitem⟩, rfl⟩
          · rw [handovers_more enough hitem] at h ⊢
            obtain ⟨before, stretch, after, rfl, hstretch, hcount⟩ := ih h
            rcases hstretch with hthis | ⟨rfl, hthis⟩
            · exact ⟨some item :: before, stretch, after, rfl, Or.inl hthis, hcount⟩
            · refine ⟨[], item :: stretch, after, rfl, Or.inr ⟨rfl, ?_⟩, hcount⟩
              simpa using hthis

/-- A stretch that is enough is handed over at its end, if not before. -/
theorem handovers_pos (held : List Item) {stretch : List Item}
    (hmono : ∀ held items, enough items → enough (held ++ items))
    (hnil : ¬ enough []) (h : enough stretch) :
    0 < handovers enough held (stretch.map some) := by
  have hheld : enough (held ++ stretch) := hmono held stretch h
  have hsome : stretch ≠ [] := by
    rintro rfl
    exact hnil h
  clear h
  induction stretch generalizing held with
  | nil => exact absurd rfl hsome
  | cons item stretch ih =>
      rw [List.map_cons]
      by_cases hitem : enough (held ++ [item])
      · rw [handovers_enough enough hitem]
        omega
      · rw [handovers_more enough hitem]
        apply ih
        · simpa using hheld
        · rintro rfl
          exact hitem hheld

theorem two_le_handovers_iff (hmono : ∀ held items, enough items → enough (held ++ items))
    (hnil : ¬ enough []) (inputs : List (Option Item)) :
    2 ≤ handovers enough [] inputs ↔ Twice enough inputs := by
  constructor
  · intro hcount
    obtain ⟨before, first, rest, rfl, hfirst, hrest⟩ :=
      first_handover (by omega : 0 < handovers enough [] inputs)
    obtain ⟨between, second, after, rfl, hsecond, _⟩ :=
      first_handover (by omega : 0 < handovers enough [] rest)
    refine ⟨before, first, between, second, after, rfl, ?_, ?_⟩
    · simpa using hfirst.imp_right And.right
    · simpa using hsecond.imp_right And.right
  · rintro ⟨before, first, between, second, after, rfl, hfirst, hsecond⟩
    simp only [handovers_append]
    have hone := handovers_pos ((machine enough).run [] before) hmono hnil hfirst
    have htwo := handovers_pos ((machine enough).run
      ((machine enough).run ((machine enough).run [] before) (first.map some))
        between) hmono hnil hsecond
    omega

end EvertyDesk.Collect
