import Mathlib.Data.List.Basic

/-!
Settings that travel on another channel than the items that they are for. Items are
numbered in the order in which they came, and a switch says how many came before it.
-/

namespace EvertyDesk

/-- A switch to another setting, after so many items. -/
structure Switch (Setting : Type*) where
  setting : Setting
  after : Nat
deriving DecidableEq

namespace Switch

variable {Setting : Type*}

/-- The setting meant for an item, where these switches are still to be made. -/
def inForce (switches : List (Switch Setting)) (current : Setting) (item : Nat) : Setting :=
  switches.foldl (fun setting switch =>
    if switch.after ≤ item then switch.setting else setting) current

/-- The setting once all of them are made. -/
def latest (switches : List (Switch Setting)) (current : Setting) : Setting :=
  switches.foldl (fun _ switch => switch.setting) current

variable {switches : List (Switch Setting)} {switch : Switch Setting}
  {current : Setting} {item : Nat}

@[simp] theorem inForce_nil : inForce [] current item = current := rfl

theorem inForce_cons : inForce (switch :: switches) current item =
    inForce switches (if switch.after ≤ item then switch.setting else current) item := rfl

@[simp] theorem latest_nil : latest [] current = current := rfl

@[simp] theorem latest_append :
    latest (switches ++ [switch]) current = switch.setting := by
  rw [latest, List.foldl_append]
  rfl

theorem latest_cons : latest (switch :: switches) current = latest switches switch.setting := rfl

/-- A later switch is not for the item. -/
theorem inForce_append (h : item < switch.after) :
    inForce (switches ++ [switch]) current item = inForce switches current item := by
  rw [inForce, List.foldl_append]
  exact if_neg (Nat.not_le.mpr h)

/-- All of them are for an item that comes after them. -/
theorem inForce_eq_latest (h : ∀ switch ∈ switches, switch.after ≤ item) :
    inForce switches current item = latest switches current := by
  induction switches generalizing current with
  | nil => rfl
  | cons switch switches ih =>
      rw [inForce_cons, latest_cons, if_pos (h switch List.mem_cons_self)]
      exact ih fun other hother => h other (List.mem_cons_of_mem _ hother)

/-- What is in force does not depend on where it starts, or is where it starts. -/
theorem inForce_start (switches : List (Switch Setting)) (current other : Setting) (item : Nat) :
    inForce switches current item = inForce switches other item ∨
      inForce switches current item = current ∧ inForce switches other item = other := by
  induction switches generalizing current other with
  | nil => exact .inr ⟨rfl, rfl⟩
  | cons switch switches ih =>
      rw [inForce_cons, inForce_cons]
      split
      · exact .inl rfl
      · exact ih current other

/-- Making the first switch changes nothing for the items after it; for one before
it, the setting may be the new one. -/
theorem inForce_make (switches : List (Switch Setting)) (switch : Switch Setting)
    (current : Setting) (item : Nat) :
    inForce switches switch.setting item = inForce (switch :: switches) current item ∨
      item < switch.after ∧ inForce switches switch.setting item = switch.setting := by
  rw [inForce_cons]
  split
  · exact .inl rfl
  next hlater =>
    rcases inForce_start switches switch.setting current item with hsame | ⟨hnew, _⟩
    · exact .inl hsame
    · exact .inr ⟨Nat.lt_of_not_le hlater, hnew⟩

end Switch

end EvertyDesk
