import EvertyDesk.Lib.Checked

/-!
Loops over a position in a string. Every turn moves the position forward and
there are no turns from the stop on, so that a loop comes to an end whatever the
string holds. Over records laid one after the other it folds the records.
-/

namespace EvertyDesk

/-- A turn leaves the loop or goes on at a later position. -/
structure Walk (State : Type) where
  stop : Nat
  turn : Nat → State → Checked (Option (Nat × State))
  advances : ∀ position state position' state',
    turn position state = .ok (some (position', state')) → position < position' ∧ position < stop

namespace Walk

variable {State Record : Type} (walk : Walk State)

def run (position : Nat) (state : State) : Checked State :=
  match _h : walk.turn position state with
  | .error panic => .error panic
  | .ok none => .ok state
  | .ok (some (position', state')) => run position' state'
termination_by walk.stop - position
decreasing_by
  obtain ⟨hlater, hstop⟩ := walk.advances _ _ _ _ _h
  omega

variable {walk} {position : Nat} {state : State}

theorem run_leaves (h : walk.turn position state = .ok none) :
    walk.run position state = .ok state := by
  rw [run]
  split
  next hturn => exact absurd (h.symm.trans hturn) (by simp)
  next => rfl
  next hturn => exact absurd (h.symm.trans hturn) (by simp)

theorem run_turn {position' : Nat} {state' : State}
    (h : walk.turn position state = .ok (some (position', state'))) :
    walk.run position state = walk.run position' state' := by
  rw [run]
  split
  next hturn => exact absurd (h.symm.trans hturn) (by simp)
  next hturn => exact absurd (h.symm.trans hturn) (by simp)
  next hturn =>
    have hsame := h.symm.trans hturn
    simp only [Except.ok.injEq, Option.some.injEq, Prod.mk.injEq] at hsame
    rw [hsame.1, hsame.2]

/-- A loop none of whose turns panics returns, `Reached` being what is known of
the positions it comes to. -/
theorem run_returns {Reached : Nat → Prop}
    (hturns : ∀ position state, Reached position →
      ∃ outcome, walk.turn position state = .ok outcome ∧
        ∀ position' state', outcome = some (position', state') → Reached position')
    (h : Reached position) : ∃ result, walk.run position state = .ok result := by
  induction hleft : walk.stop - position using Nat.strong_induction_on
    generalizing position state with
  | h left ih =>
      obtain ⟨outcome, houtcome, hreached⟩ := hturns position state h
      match outcome with
      | none => exact ⟨state, run_leaves houtcome⟩
      | some (position', state') =>
          obtain ⟨hlater, hstop⟩ := walk.advances _ _ _ _ houtcome
          rw [run_turn houtcome]
          exact ih (walk.stop - position') (by omega) (hreached position' state' rfl) rfl

/-- `Laid` says which records lie at a position; a turn reads the first. -/
theorem run_records {Laid : Nat → List Record → Prop} {size : Record → Nat}
    {read : State → Record → State}
    (hturn : ∀ position record records state, Laid position (record :: records) →
      walk.turn position state = .ok (some (position + size record, read state record)))
    (hrest : ∀ position record records, Laid position (record :: records) →
      Laid (position + size record) records)
    (hend : ∀ position state, Laid position [] → walk.turn position state = .ok none)
    {records : List Record} (h : Laid position records) :
    walk.run position state = .ok (records.foldl read state) := by
  induction records generalizing position state with
  | nil => exact run_leaves (hend position state h)
  | cons record records ih =>
      rw [run_turn (hturn position record records state h), List.foldl_cons]
      exact ih (hrest position record records h)

end Walk

/-- The last of a kind, one record at a time. -/
theorem getLast?_filterMap_cons {Record Value : Type} (read : Record → Option Value)
    (record : Record) (records : List Record) (found : Option Value) :
    ((record :: records).filterMap read).getLast?.or found =
      (records.filterMap read).getLast?.or ((read record).or found) := by
  cases hread : read record with
  | none => rw [List.filterMap_cons_none hread, Option.none_or]
  | some value =>
      rw [List.filterMap_cons_some hread, List.getLast?_cons]
      cases (records.filterMap read).getLast? <;> rfl

end EvertyDesk
