import Mathlib.Data.List.Basic

/-!
Lists of entries with keys, edited at a position. A position goes for the entry with a key
only if the key is there, and for all entries with it only if there is no other.
-/

namespace EvertyDesk

variable {Entry Key : Type*} [DecidableEq Key] {key : Entry → Key}

/-- The entries with another key. -/
def withoutKey (key : Entry → Key) (k : Key) (entries : List Entry) : List Entry :=
  entries.filter fun entry => key entry ≠ k

variable {entries : List Entry} {entry : Entry} {k : Key} {position : Nat}

theorem withoutKey_cons_self (h : key entry = k) :
    withoutKey key k (entry :: entries) = withoutKey key k entries :=
  List.filter_cons_of_neg (by simpa using h)

theorem withoutKey_cons_ne (h : key entry ≠ k) :
    withoutKey key k (entry :: entries) = entry :: withoutKey key k entries :=
  List.filter_cons_of_pos (by simpa using h)

theorem key_ne_of_mem_withoutKey (h : entry ∈ withoutKey key k entries) : key entry ≠ k := by
  simpa using (List.mem_filter.mp h).2

theorem eq_withoutKey_iff : entries = withoutKey key k entries ↔ k ∉ entries.map key := by
  rw [eq_comm, withoutKey, List.filter_eq_self]
  simp

/-- Taking the entry at the position out takes out all entries with the key exactly when
the key is there, and there alone. -/
theorem eraseIdx_eq_withoutKey_iff :
    (position < entries.length ∧ entries.eraseIdx position = withoutKey key k entries) ↔
      (entries.map key)[position]? = some k ∧ (entries.map key).count k = 1 := by
  induction entries generalizing position with
  | nil => simp
  | cons entry entries ih =>
      by_cases hkey : key entry = k
      · rw [withoutKey_cons_self hkey]
        cases position with
        | zero => simp [hkey, eq_withoutKey_iff, List.count_eq_zero]
        | succ position =>
            constructor
            · rintro ⟨-, herase⟩
              have hfirst : entry ∈ withoutKey key k entries := by
                rw [← herase]
                exact List.mem_cons_self
              exact absurd hkey (key_ne_of_mem_withoutKey hfirst)
            · rintro ⟨hthere, honce⟩
              have hmem : k ∈ entries.map key := List.mem_of_getElem? hthere
              have hmore := List.count_pos_iff.mpr hmem
              rw [List.map_cons, hkey, List.count_cons_self] at honce
              omega
      · rw [withoutKey_cons_ne hkey]
        cases position with
        | zero =>
            constructor
            · rintro ⟨-, herase⟩
              rw [List.eraseIdx_cons_zero] at herase
              have hother : k ∉ entries.map key := by
                rw [List.mem_map]
                rintro ⟨other, hother, hsame⟩
                rw [herase] at hother
                rcases List.mem_cons.mp hother with rfl | hlater
                · exact hkey hsame
                · exact key_ne_of_mem_withoutKey hlater hsame
              have hlength := congrArg List.length herase
              rw [← eq_withoutKey_iff.mpr hother, List.length_cons] at hlength
              omega
            · rintro ⟨hthere, -⟩
              exact absurd (Option.some.inj hthere) hkey
        | succ position =>
            simp only [List.length_cons, List.eraseIdx_cons_succ, List.map_cons,
              List.getElem?_cons_succ, List.count_cons_of_ne hkey, Nat.add_lt_add_iff_right,
              List.cons.injEq, true_and]
            exact ih

/-- One entry with the key of the new one is replaced by it, or there is none and nothing
changes. -/
def Replaces (key : Entry → Key) (entry : Entry) (entries result : List Entry) : Prop :=
  (∃ position, (entries.map key)[position]? = some (key entry) ∧
    result = entries.set position entry) ∨
  (key entry ∉ entries.map key ∧ result = entries)

omit [DecidableEq Key] in
/-- Setting the entry at the position replaces one with its key exactly when the key is
there, or when there is no such position and nothing was to be changed. -/
theorem replaces_set_iff :
    Replaces key entry entries (entries.set position entry) ↔
      (entries.map key)[position]? = some (key entry) ∨
        entries.length ≤ position ∧ (key entry ∉ entries.map key ∨ entry ∈ entries) := by
  have hself : ∀ hlt : position < entries.length, (entries.set position entry)[position]? =
      some entry := fun hlt => List.getElem?_set_self hlt
  have hthere : entries[position]? = some entry →
      (entries.map key)[position]? = some (key entry) := by
    intro hget
    rw [List.getElem?_map, hget, Option.map_some]
  constructor
  · rintro (⟨other, hother, hset⟩ | ⟨habsent, hset⟩)
    · rcases Nat.lt_or_ge position entries.length with hlt | hge
      · rcases eq_or_ne other position with rfl | hne
        · exact .inl hother
        · have hget := hself hlt
          rw [hset, List.getElem?_set_ne hne] at hget
          exact .inl (hthere hget)
      · have hlt : other < entries.length := by
          have hsome := (List.getElem?_eq_some_iff.mp hother).1
          rwa [List.length_map] at hsome
        rw [List.set_eq_of_length_le hge] at hset
        have hmem : entry ∈ entries := by
          rw [hset]
          exact List.mem_set hlt entry
        exact .inr ⟨hge, .inr hmem⟩
    · rcases Nat.lt_or_ge position entries.length with hlt | hge
      · have hget := hself hlt
        rw [hset] at hget
        exact absurd (List.mem_map_of_mem (List.mem_of_getElem? hget)) habsent
      · exact .inr ⟨hge, .inl habsent⟩
  · rintro (hkey | ⟨hge, habsent | hmem⟩)
    · exact .inl ⟨position, hkey, rfl⟩
    · exact .inr ⟨habsent, List.set_eq_of_length_le hge⟩
    · obtain ⟨other, hlt, hget⟩ := List.mem_iff_getElem.mp hmem
      refine .inl ⟨other, ?_, ?_⟩
      · rw [List.getElem?_map, List.getElem?_eq_getElem hlt, hget, Option.map_some]
      · rw [List.set_eq_of_length_le hge, ← hget, List.set_getElem_self]

end EvertyDesk
