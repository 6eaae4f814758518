import EvertyDesk.Lib.Checked
import EvertyDesk.Lib.Utf8

/-!
Parts of a text between byte offsets. An offset is good only at the boundary of
two characters; a slice at another one panics.
-/

namespace EvertyDesk

def byteLength (text : List Char) : Nat := (utf8 text).length

def splitAtByte : List Char → Nat → Option (List Char × List Char)
  | text, 0 => some ([], text)
  | [], _ + 1 => none
  | c :: text, offset + 1 =>
      if c.utf8Size ≤ offset + 1 then
        (splitAtByte text (offset + 1 - c.utf8Size)).map fun parts => (c :: parts.1, parts.2)
      else none

def strSlice (text : List Char) (start stop : Nat) : Checked (List Char) :=
  match splitAtByte text stop with
  | none => .error .outOfBounds
  | some (front, _) =>
      match splitAtByte front start with
      | none => .error .outOfBounds
      | some (_, part) => .ok part

variable {text front part rest : List Char} {start stop offset : Nat}

@[simp] theorem byteLength_nil : byteLength [] = 0 := rfl

@[simp] theorem byteLength_cons (c : Char) (text : List Char) :
    byteLength (c :: text) = c.utf8Size + byteLength text := by
  rw [byteLength, utf8_cons, List.length_append, String.length_utf8EncodeChar, byteLength]

@[simp] theorem byteLength_append (front rest : List Char) :
    byteLength (front ++ rest) = byteLength front + byteLength rest := by
  rw [byteLength, utf8_append, List.length_append, byteLength, byteLength]

theorem byteLength_ascii (h : ∀ c ∈ text, c.toNat < 0x80) : byteLength text = text.length := by
  rw [byteLength, utf8_ascii h, List.length_map]

theorem utf8Size_eq_one_iff {c : Char} : c.utf8Size = 1 ↔ c.toNat < 0x80 := by
  rw [Char.utf8Size_eq_one_iff, UInt32.le_iff_toNat_le]
  exact Nat.lt_succ_iff.symm

theorem splitAtByte_append (front rest : List Char) :
    splitAtByte (front ++ rest) (byteLength front) = some (front, rest) := by
  induction front with
  | nil => cases rest <;> rfl
  | cons c front ih =>
      have hpos := c.utf8Size_pos
      obtain ⟨more, hmore⟩ : ∃ more, c.utf8Size + byteLength front = more + 1 :=
        ⟨c.utf8Size + byteLength front - 1, by omega⟩
      have hleft : more + 1 - c.utf8Size = byteLength front := by omega
      rw [byteLength_cons, hmore, List.cons_append, splitAtByte, if_pos (by omega), hleft, ih]
      rfl

theorem eq_append_of_splitAtByte (h : splitAtByte text offset = some (front, rest)) :
    text = front ++ rest ∧ byteLength front = offset := by
  induction text, offset using splitAtByte.induct generalizing front rest with
  | case1 text =>
      rw [splitAtByte] at h
      cases h
      exact ⟨rfl, rfl⟩
  | case2 => simp [splitAtByte] at h
  | case3 c text offset hle ih =>
      rw [splitAtByte, if_pos hle, Option.map_eq_some_iff] at h
      obtain ⟨⟨front', rest'⟩, hsplit, hparts⟩ := h
      obtain ⟨rfl, rfl⟩ := Prod.mk.inj hparts
      obtain ⟨rfl, hlength⟩ := ih hsplit
      dsimp only at hlength ⊢
      refine ⟨rfl, ?_⟩
      rw [byteLength_cons]
      omega
  | case4 c text offset hle => simp [splitAtByte, hle] at h

theorem strSlice_append (front part rest : List Char) :
    strSlice (front ++ part ++ rest) (byteLength front) (byteLength (front ++ part)) =
      .ok part := by
  rw [strSlice, splitAtByte_append]
  dsimp only
  rw [splitAtByte_append]

/-- A slice that starts at a boundary panics unless it stops at one. -/
theorem strSlice_panics
    (h : ∀ part more, rest = part ++ more → byteLength front + byteLength part ≠ stop) :
    strSlice (front ++ rest) (byteLength front) stop = .error .outOfBounds := by
  rw [strSlice]
  split
  next => rfl
  next front' more hstop =>
    obtain ⟨hwhole, hlength⟩ := eq_append_of_splitAtByte hstop
    split
    next => rfl
    next first part hstart =>
      obtain ⟨rfl, hfirst⟩ := eq_append_of_splitAtByte hstart
      rw [List.append_assoc] at hwhole
      have hsame := (splitAtByte_append front rest).symm.trans
        ((congrArg₂ splitAtByte hwhole hfirst.symm).trans (splitAtByte_append first _))
      simp only [Option.some.injEq, Prod.mk.injEq] at hsame
      obtain ⟨rfl, rfl⟩ := hsame
      rw [byteLength_append] at hlength
      exact (h part more rfl hlength).elim

end EvertyDesk
