import Mathlib.Algebra.GroupWithZero.Nat
import Mathlib.Algebra.Order.BigOperators.Group.List
import Mathlib.Algebra.Order.Group.Nat
import Mathlib.Data.List.AList
import Mathlib.Data.List.Induction

/-!
Removal of several keys from a finite map, totals over its entries, and the
order in which a hash map lists its keys. That order is not specified, so it is
a parameter: any rearrangement of the keys.
-/

namespace EvertyDesk

/-- An order in which a hash map may list its keys. -/
structure IterOrder (Key : Type*) where
  order : List Key → List Key
  perm : ∀ keys, (order keys).Perm keys

/-- The keys as the model's map stores them. -/
def IterOrder.stored (Key : Type*) : IterOrder Key where
  order := id
  perm := fun _ => List.Perm.refl _

@[simp] theorem IterOrder.mem_order {Key : Type*} (iter : IterOrder Key)
    (keys : List Key) (key : Key) : key ∈ iter.order keys ↔ key ∈ keys :=
  (iter.perm keys).mem_iff

@[simp] theorem IterOrder.length_order {Key : Type*} (iter : IterOrder Key)
    (keys : List Key) : (iter.order keys).length = keys.length :=
  (iter.perm keys).length_eq

section

variable {Key : Type*} {Value : Type*} [DecidableEq Key]

/-- Keep the entries whose keys pass a test. -/
def retainKeys (keep : Key → Bool) (entries : AList fun _ : Key => Value) :
    AList fun _ : Key => Value :=
  (entries.keys.filter fun key => !keep key).foldl (fun rest key => rest.erase key) entries

private theorem lookup_foldl_erase (keys : List Key)
    (entries : AList fun _ : Key => Value) (key : Key) :
    (keys.foldl (fun rest key => rest.erase key) entries).lookup key =
      if key ∈ keys then none else entries.lookup key := by
  induction keys generalizing entries with
  | nil => simp
  | cons first keys ih =>
      rw [List.foldl_cons, ih]
      by_cases hlater : key ∈ keys
      · simp [hlater]
      · by_cases hfirst : key = first
        · subst hfirst
          simp
        · simp [hlater, hfirst, AList.lookup_erase_ne hfirst]

theorem lookup_retainKeys (keep : Key → Bool) (entries : AList fun _ : Key => Value) (key : Key) :
    (retainKeys keep entries).lookup key =
      if keep key then entries.lookup key else none := by
  rw [retainKeys, lookup_foldl_erase]
  by_cases hkeep : keep key = true
  · simp [hkeep]
  · by_cases hmem : key ∈ entries.keys
    · simp [hkeep, hmem]
    · have hnone : entries.lookup key = none := AList.lookup_eq_none.mpr hmem
      simp [hkeep, hnone]

/-- Insert entries one after the other, so that a later one replaces an earlier
one with its key. -/
def insertAll (added : List (Key × Value)) (entries : AList fun _ : Key => Value) :
    AList fun _ : Key => Value :=
  added.foldl (fun map entry => map.insert entry.1 entry.2) entries

/-- What is found after the insertions is the last entry with the key. -/
theorem lookup_insertAll (added : List (Key × Value)) (key : Key) (value : Value) :
    (insertAll added ∅).lookup key = some value ↔
      ∃ before after, added = before ++ (key, value) :: after ∧ key ∉ after.map Prod.fst := by
  induction added using List.reverseRecOn with
  | nil => simp [insertAll]
  | append_singleton added last ih =>
      have hfold : insertAll (added ++ [last]) ∅ = (insertAll added ∅).insert last.1 last.2 := by
        simp [insertAll]
      rw [hfold]
      by_cases hkey : key = last.1
      · rw [hkey, AList.lookup_insert]
        constructor
        · intro hvalue
          obtain rfl := Option.some.inj hvalue
          exact ⟨added, [], by simp, by simp⟩
        · rintro ⟨before, after, heq, hfresh⟩
          rcases List.eq_nil_or_concat after with rfl | ⟨after, final, rfl⟩
          · obtain ⟨_, hlast⟩ := List.append_inj' heq rfl
            rw [List.singleton_inj.mp hlast]
          · rw [List.concat_eq_append, ← List.cons_append, ← List.append_assoc] at heq
            obtain ⟨_, hlast⟩ := List.append_inj' heq rfl
            rw [List.singleton_inj.mp hlast] at hfresh
            simp at hfresh
      · rw [AList.lookup_insert_ne hkey, ih]
        constructor
        · rintro ⟨before, after, rfl, hfresh⟩
          exact ⟨before, after ++ [last], by simp, by simp_all⟩
        · rintro ⟨before, after, heq, hfresh⟩
          rcases List.eq_nil_or_concat after with rfl | ⟨after, final, rfl⟩
          · obtain ⟨_, hlast⟩ := List.append_inj' heq rfl
            rw [List.singleton_inj.mp hlast] at hkey
            exact absurd rfl hkey
          · rw [List.concat_eq_append, ← List.cons_append, ← List.append_assoc] at heq
            obtain ⟨hinit, _⟩ := List.append_inj' heq rfl
            exact ⟨before, after, hinit, by simp_all⟩

/-- The sum of the weights of all entries. -/
def totalOf (weight : Value → Nat) (entries : AList fun _ : Key => Value) : Nat :=
  (entries.entries.map fun entry => weight entry.2).sum

variable {weight : Value → Nat} {entries : AList fun _ : Key => Value}
variable {key : Key} {value : Value}

omit [DecidableEq Key] in
@[simp] theorem totalOf_empty : totalOf weight (∅ : AList fun _ : Key => Value) = 0 := rfl

theorem totalOf_erase (weight : Value → Nat) (h : entries.lookup key = some value) :
    totalOf weight (entries.erase key) + weight value = totalOf weight entries := by
  have hentry : (⟨key, value⟩ : Sigma fun _ : Key => Value) ∈ entries.entries :=
    AList.mem_lookup_iff.mp h
  obtain ⟨found, before, after, -, hentries, herased⟩ :=
    List.exists_of_kerase (List.mem_keys_of_mem hentry)
  have hfound : found = value := by
    have hmem : found ∈ entries.lookup key := AList.mem_lookup_iff.mpr (hentries ▸ by simp)
    exact Option.some.inj (hmem.symm.trans h)
  have herase : (entries.erase key).entries = before ++ after := herased
  rw [totalOf, totalOf, herase, hentries, hfound]
  simp only [List.map_append, List.map_cons, List.sum_append, List.sum_cons]
  omega

theorem totalOf_insert_new (h : entries.lookup key = none) :
    totalOf weight (entries.insert key value) = weight value + totalOf weight entries := by
  rw [totalOf, AList.entries_insert_of_notMem (AList.lookup_eq_none.mp h), List.map_cons,
    List.sum_cons, totalOf]

theorem totalOf_insert (weight : Value → Nat) (value' : Value)
    (h : entries.lookup key = some value) :
    totalOf weight (entries.insert key value') + weight value =
      weight value' + totalOf weight entries := by
  have hinsert : totalOf weight (entries.insert key value') =
      weight value' + totalOf weight (entries.erase key) := by
    rw [totalOf, AList.entries_insert, List.map_cons, List.sum_cons]
    rfl
  have herase := totalOf_erase weight h
  omega

/-- A bound for every entry bounds the total. -/
theorem totalOf_le {bound : Nat}
    (h : ∀ key value, entries.lookup key = some value → weight value ≤ bound) :
    totalOf weight entries ≤ entries.keys.length * bound := by
  have hall : ∀ n ∈ entries.entries.map fun entry => weight entry.2, n ≤ bound := by
    intro n hn
    obtain ⟨⟨key, value⟩, hentry, rfl⟩ := List.mem_map.mp hn
    exact h key value (AList.mem_lookup_iff.mpr hentry)
  have hsum := List.sum_le_card_nsmul _ bound hall
  simpa [totalOf, AList.keys, List.keys] using hsum

end

end EvertyDesk
