import Mathlib.Data.List.Basic
import Mathlib.Data.List.Nodup
import Mathlib.Data.List.Perm.Basic

/-!
Books: lists of entries that are found by a key. Where no key occurs twice, a book is known
up to order by what is found in it. Where each change is about one key and makes of the
entry with it something that depends on that entry alone, a sequence of changes can be
followed key by key.
-/

namespace EvertyDesk

variable {Entry Key : Type*} [DecidableEq Key] (key : Entry → Key)

/-- The first entry with a key. -/
def lookup (k : Key) (entries : List Entry) : Option Entry := entries.find? fun e => key e = k

/-- The first entry with the key is changed. -/
def updateFirst (k : Key) (change : Entry → Entry) : List Entry → List Entry
  | [] => []
  | entry :: entries =>
      if key entry = k then change entry :: entries
      else entry :: updateFirst k change entries

/-- The first entry with the key is changed, or there is none and a new one comes to the
end. -/
def putEntry (k : Key) (change : Entry → Entry) (new : Entry) (entries : List Entry) : List Entry :=
  if (lookup key k entries).isSome then updateFirst key k change entries else entries ++ [new]

variable {key} {k other : Key} {entry : Entry} {entries books : List Entry}
variable {change : Entry → Entry}

@[simp] theorem lookup_nil : lookup key k [] = none := rfl

theorem lookup_cons_self (h : key entry = k) : lookup key k (entry :: entries) = some entry :=
  List.find?_cons_of_pos (by simpa using h)

theorem lookup_cons_ne (h : key entry ≠ k) :
    lookup key k (entry :: entries) = lookup key k entries :=
  List.find?_cons_of_neg (by simpa using h)

theorem lookup_eq_none : lookup key k entries = none ↔ k ∉ entries.map key := by
  simp [lookup]

theorem key_of_lookup (h : lookup key k entries = some entry) : key entry = k := by
  simpa using List.find?_some h

theorem mem_of_lookup (h : lookup key k entries = some entry) : entry ∈ entries :=
  List.mem_of_find?_eq_some h

theorem lookup_concat (habsent : key entry ∉ entries.map key) :
    lookup key k (entries ++ [entry]) =
      if k = key entry then some entry else lookup key k entries := by
  rw [lookup, List.find?_append, ← lookup]
  split
  next hsame =>
    rw [hsame, lookup_eq_none.mpr habsent]
    exact lookup_cons_self rfl
  next hother =>
    have hnone : [entry].find? (fun e => key e = k) = none := lookup_cons_ne (Ne.symm hother)
    rw [hnone, Option.or_none]

/-! Changing an entry. -/

theorem map_updateFirst {View : Type*} {view : Entry → View}
    (hview : ∀ entry, key entry = k → view (change entry) = view entry) :
    (updateFirst key k change entries).map view = entries.map view := by
  induction entries with
  | nil => rfl
  | cons entry entries ih =>
      rw [updateFirst]
      split
      next hsame => rw [List.map_cons, List.map_cons, hview entry hsame]
      next hother => rw [List.map_cons, List.map_cons, ih]

theorem keys_updateFirst (hkey : ∀ entry, key entry = k → key (change entry) = k) :
    (updateFirst key k change entries).map key = entries.map key :=
  map_updateFirst fun entry hsame => (hkey entry hsame).trans hsame.symm

theorem lookup_updateFirst (hkey : ∀ entry, key entry = k → key (change entry) = k) :
    lookup key other (updateFirst key k change entries) =
      if other = k then (lookup key k entries).map change else lookup key other entries := by
  induction entries with
  | nil => simp [updateFirst]
  | cons entry entries ih =>
      rw [updateFirst]
      by_cases hsame : key entry = k
      · rw [if_pos hsame]
        split
        next hown =>
          rw [hown, lookup_cons_self (hkey entry hsame), lookup_cons_self hsame, Option.map_some]
        next hother =>
          have hfirst : key entry ≠ other := fun h => hother (h.symm.trans hsame)
          have hchanged : key (change entry) ≠ other :=
            fun h => hother (h.symm.trans (hkey entry hsame))
          rw [lookup_cons_ne hchanged, lookup_cons_ne hfirst]
      · rw [if_neg hsame]
        by_cases hfirst : key entry = other
        · have hother : other ≠ k := fun h => hsame (hfirst.trans h)
          rw [lookup_cons_self hfirst, if_neg hother, lookup_cons_self hfirst]
        · rw [lookup_cons_ne hfirst, ih, lookup_cons_ne hsame, lookup_cons_ne hfirst]

theorem mem_updateFirst (h : entry ∈ updateFirst key k change entries) :
    entry ∈ entries ∨ ∃ old ∈ entries, key old = k ∧ entry = change old := by
  induction entries with
  | nil => cases h
  | cons first entries ih =>
      rw [updateFirst] at h
      split at h
      next hsame =>
        rcases List.mem_cons.mp h with rfl | hlater
        · exact Or.inr ⟨first, List.mem_cons_self, hsame, rfl⟩
        · exact Or.inl (List.mem_cons_of_mem _ hlater)
      next hother =>
        rcases List.mem_cons.mp h with rfl | hlater
        · exact Or.inl List.mem_cons_self
        · obtain hold | ⟨old, hold, hkey, hchange⟩ := ih hlater
          · exact Or.inl (List.mem_cons_of_mem _ hold)
          · exact Or.inr ⟨old, List.mem_cons_of_mem _ hold, hkey, hchange⟩

theorem length_updateFirst : (updateFirst key k change entries).length = entries.length := by
  induction entries with
  | nil => rfl
  | cons entry entries ih =>
      rw [updateFirst]
      split
      · rfl
      · rw [List.length_cons, List.length_cons, ih]

section Put

variable {new : Entry}

theorem mem_putEntry (h : entry ∈ putEntry key k change new entries) :
    entry ∈ entries ∨ (∃ old ∈ entries, key old = k ∧ entry = change old) ∨ entry = new := by
  rw [putEntry] at h
  split at h
  · exact (mem_updateFirst h).imp_right Or.inl
  · exact (List.mem_append.mp h).imp_right fun hlast => Or.inr (List.mem_singleton.mp hlast)

omit [DecidableEq Key] in
theorem nodup_concat (habsent : key new ∉ entries.map key) (hnodup : (entries.map key).Nodup) :
    ((entries ++ [new]).map key).Nodup := by
  rw [List.map_append, List.map_singleton, List.nodup_append]
  refine ⟨hnodup, List.nodup_singleton _, ?_⟩
  intro old hold last hlast hsame
  rw [List.mem_singleton] at hlast
  exact habsent (hlast ▸ hsame ▸ hold)

theorem nodup_putEntry (hkey : ∀ entry, key entry = k → key (change entry) = k)
    (hnew : key new = k) (hnodup : (entries.map key).Nodup) :
    ((putEntry key k change new entries).map key).Nodup := by
  rw [putEntry]
  split
  next => rwa [keys_updateFirst hkey]
  next hnone =>
    rw [Option.not_isSome_iff_eq_none, lookup_eq_none, ← hnew] at hnone
    exact nodup_concat hnone hnodup

end Put

/-! Books without a key twice. -/

theorem mem_iff_lookup (hnodup : (entries.map key).Nodup) :
    entry ∈ entries ↔ lookup key (key entry) entries = some entry := by
  constructor
  · intro hmem
    cases hfound : lookup key (key entry) entries with
    | none => exact absurd (List.mem_map_of_mem hmem) (lookup_eq_none.mp hfound)
    | some found =>
        have hsame := List.inj_on_of_nodup_map hnodup (mem_of_lookup hfound) hmem
          (key_of_lookup hfound)
        rw [hsame]
  · exact mem_of_lookup

theorem lookup_perm (hnodup : (entries.map key).Nodup) (hperm : entries.Perm books) :
    lookup key k entries = lookup key k books := by
  have hbooks : (books.map key).Nodup := (hperm.map key).nodup_iff.mp hnodup
  cases hfound : lookup key k entries with
  | none =>
      have habsent := lookup_eq_none.mp hfound
      rw [(hperm.map key).mem_iff] at habsent
      exact (lookup_eq_none.mpr habsent).symm
  | some found =>
      have hkey := key_of_lookup hfound
      subst hkey
      exact ((mem_iff_lookup hbooks).mp (hperm.mem_iff.mp (mem_of_lookup hfound))).symm

theorem perm_of_lookup (hentries : (entries.map key).Nodup) (hbooks : (books.map key).Nodup)
    (h : ∀ k, lookup key k entries = lookup key k books) : entries.Perm books := by
  refine (List.perm_ext_iff_of_nodup hentries.of_map hbooks.of_map).mpr fun entry => ?_
  rw [mem_iff_lookup hentries, mem_iff_lookup hbooks, h]

/-! Sequences of changes. -/

section Changes

variable {Change : Type*} {about : Change → Key} {step : List Entry → Change → List Entry}
variable {own : Option Entry → Change → Option Entry} {I : List Entry → Prop}

/-- The entry with a key comes out as the changes about that key leave it. -/
theorem lookup_foldl (hkeeps : ∀ entries change, I entries → I (step entries change))
    (hstep : ∀ entries change k, I entries → lookup key k (step entries change) =
      if about change = k then own (lookup key k entries) change else lookup key k entries)
    (changes : List Change) (hentries : I entries) :
    lookup key k (changes.foldl step entries) =
      (changes.filter fun change => about change = k).foldl own (lookup key k entries) := by
  induction changes generalizing entries with
  | nil => rfl
  | cons change changes ih =>
      rw [List.foldl_cons, ih (hkeeps entries change hentries), hstep entries change k hentries]
      split
      next hown => rw [List.filter_cons_of_pos (by simpa using hown), List.foldl_cons]
      next hother => rw [List.filter_cons_of_neg (by simpa using hother)]

end Changes

end EvertyDesk
