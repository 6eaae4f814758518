import Mathlib.Data.List.Chain
import Mathlib.Data.List.Nodup

/-!
Signals that are switched on and off, each by its key, and the log of the switchings. A
signal is off at first, and a log is well formed where every switching of a signal changes
its level.
-/

namespace EvertyDesk.Signals

variable {Key : Type*} [DecidableEq Key]

/-- The switchings of one signal. -/
def edgesOf (key : Key) (log : List (Key × Bool)) : List Bool :=
  log.filterMap fun edge => if edge.1 = key then some edge.2 else none

def level (key : Key) (log : List (Key × Bool)) : Bool := (edgesOf key log).getLastD false

def Alternating (key : Key) (log : List (Key × Bool)) : Prop :=
  (false :: edgesOf key log).IsChain (· ≠ ·)

instance instDecidableAlternating (key : Key) (log : List (Key × Bool)) :
    Decidable (Alternating key log) :=
  inferInstanceAs (Decidable ((false :: edgesOf key log).IsChain (· ≠ ·)))

/-- The log is well formed and leads to these levels. -/
def Follows (log : List (Key × Bool)) (levels : Key → Bool) : Prop :=
  ∀ key, Alternating key log ∧ level key log = levels key

variable {key : Key} {log more : List (Key × Bool)} {levels next : Key → Bool}

@[simp] theorem edgesOf_nil : edgesOf key [] = [] := rfl

@[simp] theorem edgesOf_append : edgesOf key (log ++ more) = edgesOf key log ++ edgesOf key more :=
  List.filterMap_append

@[simp] theorem edgesOf_singleton (edge : Key × Bool) :
    edgesOf key [edge] = if edge.1 = key then [edge.2] else [] := by
  by_cases h : edge.1 = key <;> simp [edgesOf, h]

theorem follows_nil : Follows ([] : List (Key × Bool)) fun _ => false :=
  fun _ => ⟨List.isChain_singleton _, rfl⟩

theorem getLast_edges : level key log ∈ (false :: edgesOf key log).getLast? := by
  rw [level, List.getLast?_cons, List.getLastD_eq_getLast?]
  rfl

/-- A switching is right if it changes the level. -/
theorem alternating_append (edge : Bool) (hmore : edgesOf key more = [edge]) :
    Alternating key (log ++ more) ↔ Alternating key log ∧ level key log ≠ edge := by
  rw [Alternating, edgesOf_append, hmore, ← List.cons_append, List.isChain_append]
  constructor
  · rintro ⟨hlog, -, hlast⟩
    exact ⟨hlog, hlast _ getLast_edges _ rfl⟩
  · rintro ⟨hlog, hedge⟩
    refine ⟨hlog, List.isChain_singleton _, ?_⟩
    intro last hlast first hfirst
    obtain rfl := Option.mem_unique hlast getLast_edges
    obtain rfl := Option.some.inj hfirst
    exact hedge

/-- Every signal is switched at most once, and only if its level changes. -/
theorem Follows.append (h : Follows log levels)
    (hmore : ∀ key, edgesOf key more = if levels key = next key then [] else [next key]) :
    Follows (log ++ more) next := by
  intro key
  obtain ⟨halternating, hlevel⟩ := h key
  have hedges := hmore key
  split at hedges
  next hsame =>
    refine ⟨?_, ?_⟩
    · simpa [Alternating, hedges] using halternating
    · simpa [level, hedges, ← hsame] using hlevel
  next hother =>
    refine ⟨(alternating_append _ hedges).mpr ⟨halternating, ?_⟩, ?_⟩
    · rwa [hlevel]
    · simp [level, hedges]

/-- All of the given signals are switched the same way. -/
theorem edgesOf_map {keys : List Key} (hnodup : keys.Nodup) (edge : Bool) :
    edgesOf key (keys.map (·, edge)) = if key ∈ keys then [edge] else [] := by
  induction keys with
  | nil => rfl
  | cons first rest ih =>
      obtain ⟨hfirst, hrest⟩ := List.nodup_cons.mp hnodup
      rw [List.map_cons, ← List.singleton_append, edgesOf_append, edgesOf_singleton, ih hrest]
      by_cases hsame : first = key
      · subst hsame
        simp [hfirst]
      · simp [hsame, Ne.symm hsame]

end EvertyDesk.Signals
