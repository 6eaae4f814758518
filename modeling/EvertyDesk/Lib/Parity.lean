import Mathlib.Algebra.Order.Group.Nat
import Mathlib.Data.List.Induction
import Mathlib.Data.List.Perm.Basic

/-!
Parity of byte strings of unequal length. Shorter strings count as padded with
zeros, longer ones as cut, since the accumulator's length never changes.
Adding a string twice changes nothing and the order of additions does not
matter, so what is left of a parity after all members but one is that member.
-/

namespace EvertyDesk

/-- Add a byte string into an accumulator of fixed length. -/
def xorInto : List UInt8 → List UInt8 → List UInt8
  | [], _ => []
  | acc, [] => acc
  | a :: acc, byte :: bytes => (a ^^^ byte) :: xorInto acc bytes

/-- The parity of some byte strings, as long as the accumulator. -/
def parity (acc : List UInt8) (members : List (List UInt8)) : List UInt8 :=
  members.foldl xorInto acc

/-- The length of the longest member. -/
def maxLength (members : List (List UInt8)) : Nat :=
  members.foldl (fun longest member => max longest member.length) 0

@[simp] theorem xorInto_nil_left (bytes : List UInt8) : xorInto [] bytes = [] := by
  cases bytes <;> rfl

@[simp] theorem xorInto_nil_right (acc : List UInt8) : xorInto acc [] = acc := by
  cases acc <;> rfl

@[simp] theorem xorInto_length (acc bytes : List UInt8) :
    (xorInto acc bytes).length = acc.length := by
  induction acc generalizing bytes with
  | nil => simp
  | cons a acc ih => cases bytes <;> simp [xorInto, ih]

theorem xorInto_comm (acc left right : List UInt8) :
    xorInto (xorInto acc left) right = xorInto (xorInto acc right) left := by
  induction acc generalizing left right with
  | nil => simp
  | cons a acc ih =>
      cases left with
      | nil => simp
      | cons l left =>
          cases right with
          | nil => simp
          | cons r right =>
              have hhead : a ^^^ l ^^^ r = a ^^^ r ^^^ l := by
                rw [UInt8.xor_assoc, UInt8.xor_comm l, ← UInt8.xor_assoc]
              simp only [xorInto, hhead, ih]

/-- Adding a string again takes it out. -/
@[simp] theorem xorInto_cancel (acc bytes : List UInt8) :
    xorInto (xorInto acc bytes) bytes = acc := by
  induction acc generalizing bytes with
  | nil => simp
  | cons a acc ih =>
      cases bytes with
      | nil => simp
      | cons byte bytes =>
          have hhead : a ^^^ byte ^^^ byte = a := by
            rw [UInt8.xor_assoc, UInt8.xor_self, UInt8.xor_zero]
          simp only [xorInto, hhead, ih]

instance : RightCommutative xorInto where
  right_comm := xorInto_comm

@[simp] theorem xorInto_zeros_right (acc : List UInt8) (count : Nat) :
    xorInto acc (List.replicate count 0) = acc := by
  induction acc generalizing count with
  | nil => simp
  | cons a acc ih => cases count <;> simp [List.replicate_succ, xorInto, ih]

/-- Padding with zeros adds nothing. -/
@[simp] theorem xorInto_append_zeros (acc bytes : List UInt8) (count : Nat) :
    xorInto acc (bytes ++ List.replicate count 0) = xorInto acc bytes := by
  induction bytes generalizing acc with
  | nil => simp
  | cons byte bytes ih => cases acc <;> simp [xorInto, ih]

/-- Into zeros, a string is written as it is. -/
theorem xorInto_zeros {size : Nat} {bytes : List UInt8} (h : bytes.length ≤ size) :
    xorInto (List.replicate size 0) bytes = bytes ++ List.replicate (size - bytes.length) 0 := by
  induction bytes generalizing size with
  | nil => simp
  | cons byte bytes ih =>
      cases size with
      | zero => simp at h
      | succ size =>
          simp [List.replicate_succ, xorInto, ih (Nat.le_of_succ_le_succ h)]

theorem xorInto_zeros_take {size : Nat} {bytes : List UInt8} (h : bytes.length ≤ size) :
    (xorInto (List.replicate size 0) bytes).take bytes.length = bytes := by
  rw [xorInto_zeros h, List.take_left]

private theorem foldl_max_le (members : List (List UInt8)) (longest : Nat) :
    longest ≤ members.foldl (fun longest member => max longest member.length) longest ∧
    ∀ member ∈ members, member.length ≤ members.foldl
      (fun longest member => max longest member.length) longest := by
  induction members generalizing longest with
  | nil => simp
  | cons first rest ih =>
      obtain ⟨hstart, hrest⟩ := ih (max longest first.length)
      refine ⟨le_trans (le_max_left _ _) hstart, ?_⟩
      intro member hmember
      rcases List.mem_cons.mp hmember with rfl | later
      · exact le_trans (le_max_right _ _) hstart
      · exact hrest member later

theorem length_le_maxLength {members : List (List UInt8)} {member : List UInt8}
    (h : member ∈ members) : member.length ≤ maxLength members :=
  (foldl_max_le members 0).2 member h

theorem maxLength_le {members : List (List UInt8)} {bound : Nat}
    (h : ∀ member ∈ members, member.length ≤ bound) :
    maxLength members ≤ bound := by
  have hfold : ∀ (rest : List (List UInt8)) (longest : Nat), longest ≤ bound →
      (∀ member ∈ rest, member.length ≤ bound) →
      rest.foldl (fun longest member => max longest member.length) longest ≤
        bound := by
    intro rest
    induction rest with
    | nil =>
        intro longest hlongest _
        exact hlongest
    | cons first rest ih =>
        intro longest hlongest hmembers
        exact ih _ (max_le hlongest (hmembers first List.mem_cons_self))
          fun member hmember => hmembers member (List.mem_cons_of_mem _ hmember)
  exact hfold members 0 (Nat.zero_le _) h

@[simp] theorem parity_length (acc : List UInt8) (members : List (List UInt8)) :
    (parity acc members).length = acc.length := by
  induction members generalizing acc with
  | nil => rfl
  | cons member members ih => simpa [parity] using ih (xorInto acc member)

theorem parity_cons (acc member : List UInt8) (members : List (List UInt8)) :
    parity acc (member :: members) = parity (xorInto acc member) members := rfl

theorem parity_perm {left right : List (List UInt8)} (h : left.Perm right)
    (acc : List UInt8) : parity acc left = parity acc right :=
  h.foldl_eq acc

theorem parity_xorInto (acc member : List UInt8) (members : List (List UInt8)) :
    parity (xorInto acc member) members = xorInto (parity acc members) member := by
  induction members generalizing acc with
  | nil => rfl
  | cons first rest ih =>
      rw [parity_cons, xorInto_comm, ih, parity_cons]

/-- Adding the same strings again takes them all out. -/
theorem parity_cancel (acc : List UInt8) (members : List (List UInt8)) :
    parity (parity acc members) members = acc := by
  induction members generalizing acc with
  | nil => rfl
  | cons member members ih =>
      rw [parity_cons, parity_cons, parity_xorInto, parity_xorInto,
        parity_xorInto, xorInto_cancel, ih]

/-- Recovery: the parity of a group, less the members that are at hand, is the
one that is missing, whatever the order of the members. -/
theorem parity_recovers {group others : List (List UInt8)} {missing : List UInt8}
    (hgroup : group.Perm (missing :: others)) (acc : List UInt8) :
    parity (parity acc group) others = xorInto acc missing := by
  rw [parity_perm hgroup, parity_cons, parity_cancel]

/-- The same for numbers combined by exclusive or, such as lengths. -/
theorem foldl_xor_recovers {Item : Type*} (value : Item → Nat)
    {group others : List Item} {missing : Item}
    (hgroup : group.Perm (missing :: others)) :
    others.foldl (fun acc item => acc ^^^ value item)
      (group.foldl (fun acc item => acc ^^^ value item) 0) = value missing := by
  have hcomm : RightCommutative (fun acc item => acc ^^^ value item) :=
    ⟨fun acc left right => by
      simp only [Nat.xor_assoc, Nat.xor_comm (value left)]⟩
  have hshift : ∀ (items : List Item) (acc extra : Nat),
      items.foldl (fun acc item => acc ^^^ value item) (acc ^^^ extra) =
        items.foldl (fun acc item => acc ^^^ value item) acc ^^^ extra := by
    intro items
    induction items with
    | nil => intros; rfl
    | cons item items ih =>
        intro acc extra
        simp only [List.foldl_cons]
        rw [Nat.xor_assoc, Nat.xor_comm extra, ← Nat.xor_assoc, ih]
  have hcancel : ∀ (items : List Item) (acc : Nat),
      items.foldl (fun acc item => acc ^^^ value item)
        (items.foldl (fun acc item => acc ^^^ value item) acc) = acc := by
    intro items
    induction items with
    | nil => intros; rfl
    | cons item items ih =>
        intro acc
        simp only [List.foldl_cons]
        rw [hshift, hshift, hshift, Nat.xor_assoc, Nat.xor_self, Nat.xor_zero, ih]
  rw [hgroup.foldl_eq, List.foldl_cons, hcancel, Nat.zero_xor]

/-- A list is what its indices hold. -/
private theorem filterMap_indices {Item : Type*} (items : List Item) :
    (List.range items.length).filterMap (items[·]?) = items := by
  induction items using List.reverseRecOn with
  | nil => rfl
  | append_singleton items item ih =>
      rw [List.length_append, List.length_singleton, List.range_succ, List.filterMap_append]
      have hinit : (List.range items.length).filterMap ((items ++ [item])[·]?) =
          (List.range items.length).filterMap (items[·]?) := by
        apply List.filterMap_congr
        intro index member
        exact List.getElem?_append_left (List.mem_range.mp member)
      rw [hinit, ih]
      simp

/-- When exactly one item of a list is not held, the list is that item and
what is held, up to order. -/
theorem perm_of_one_missing {Item : Type*} {items : List Item}
    {held : Nat → Option Item} {missing : Nat} {item : Item}
    (hagree : ∀ index < items.length, ∀ found, held index = some found → items[index]? = some found)
    (hitem : items[missing]? = some item) (hmissing : held missing = none)
    (hcount : ((List.range items.length).filterMap held).length + 1 = items.length) :
    items.Perm (item :: (List.range items.length).filterMap held) := by
  let indices := List.range items.length
  let isHeld : Nat → Bool := fun index => (held index).isSome
  have hheld : (indices.filter isHeld).filterMap (items[·]?) = indices.filterMap held := by
    rw [List.filterMap_filter]
    apply List.filterMap_congr
    intro index member
    cases hindex : held index with
    | none => simp [isHeld, hindex]
    | some found =>
        simp [isHeld, hindex, hagree index (List.mem_range.mp member) found hindex]
  have hlost : indices.filter (fun index => !isHeld index) = [missing] := by
    have hlength : (indices.filter (fun index => !isHeld index)).length = 1 := by
      have htotal := List.length_eq_length_filter_add (l := indices) isHeld
      have hkept : (indices.filter isHeld).length = (indices.filterMap held).length := by
        rw [List.length_filterMap_eq_countP, List.countP_eq_length_filter]
      have hindices : indices.length = items.length := List.length_range
      have hheldCount : (indices.filterMap held).length + 1 = items.length := hcount
      omega
    obtain ⟨only, honly⟩ := List.length_eq_one_iff.mp hlength
    have hmember : missing ∈ indices.filter (fun index => !isHeld index) := by
      have hlt := (List.getElem?_eq_some_iff.mp hitem).1
      simp [indices, isHeld, hmissing, hlt]
    rw [honly] at hmember ⊢
    rw [List.mem_singleton.mp hmember]
  have hsplit : items.Perm ((indices.filter isHeld ++
      indices.filter (fun index => !isHeld index)).filterMap (items[·]?)) := by
    have hperm := (List.filter_append_perm isHeld indices).symm.filterMap (items[·]?)
    rwa [filterMap_indices] at hperm
  rw [List.filterMap_append, hheld, hlost, List.filterMap_cons_some hitem] at hsplit
  exact hsplit.trans (List.perm_append_singleton _ _)

end EvertyDesk
