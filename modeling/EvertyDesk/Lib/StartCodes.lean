import Mathlib.Data.List.Basic
import Mathlib.Data.List.DropRight
import Mathlib.Data.List.Infix

/-!
Byte streams that are cut at start codes. A start code is `0 0 1`, or `0 0 0 1` where the
stream has one more zero in front. A unit has no start code in it and cannot be taken for
a part of one together with what follows it.
-/

namespace EvertyDesk

/-- A start code is at the front. -/
def AtCode (bytes : List UInt8) : Prop := [0, 0, 1] <+: bytes ∨ [0, 0, 0, 1] <+: bytes

instance (bytes : List UInt8) : Decidable (AtCode bytes) := inferInstanceAs (Decidable (_ ∨ _))

/-- How many more bytes the start code at the front has. -/
def codeRest (bytes : List UInt8) : Option Nat :=
  if [0, 0, 1] <+: bytes then some 2
  else if [0, 0, 0, 1] <+: bytes then some 3
  else none

/-- The pieces between the start codes, the bytes before the first one included; this many
bytes of a start code are still to be left out. -/
def cutFrom : Nat → List UInt8 → List (List UInt8)
  | _, [] => [[]]
  | skip + 1, _ :: bytes => cutFrom skip bytes
  | 0, byte :: bytes =>
      match codeRest (byte :: bytes) with
      | some rest => [] :: cutFrom rest bytes
      | none => (cutFrom 0 bytes).modifyHead (byte :: ·)

def cutAtCodes (bytes : List UInt8) : List (List UInt8) := cutFrom 0 bytes

theorem cutFrom_eq (skip : Nat) (bytes : List UInt8) :
    cutFrom skip bytes = cutAtCodes (bytes.drop skip) := by
  induction skip generalizing bytes with
  | zero => rfl
  | succ skip ih =>
      cases bytes with
      | nil => rfl
      | cons byte bytes => exact ih bytes

@[simp] theorem cutAtCodes_nil : cutAtCodes [] = [[]] := rfl

theorem cutAtCodes_short (bytes : List UInt8) :
    cutAtCodes (0 :: 0 :: 1 :: bytes) = [] :: cutAtCodes bytes := by
  have hrest : codeRest (0 :: 0 :: 1 :: bytes) = some 2 := if_pos ⟨bytes, rfl⟩
  rw [cutAtCodes, cutFrom, hrest]
  change [] :: cutFrom 2 _ = _
  rw [cutFrom_eq]
  rfl

theorem cutAtCodes_long (bytes : List UInt8) :
    cutAtCodes (0 :: 0 :: 0 :: 1 :: bytes) = [] :: cutAtCodes bytes := by
  have hrest : codeRest (0 :: 0 :: 0 :: 1 :: bytes) = some 3 := by
    rw [codeRest, if_neg (by simp), if_pos ⟨bytes, rfl⟩]
  rw [cutAtCodes, cutFrom, hrest]
  change [] :: cutFrom 3 _ = _
  rw [cutFrom_eq]
  rfl

theorem cutAtCodes_byte {byte : UInt8} {bytes : List UInt8} (h : ¬ AtCode (byte :: bytes)) :
    cutAtCodes (byte :: bytes) = (cutAtCodes bytes).modifyHead (byte :: ·) := by
  rw [AtCode, not_or] at h
  have hrest : codeRest (byte :: bytes) = none := by
    rw [codeRest, if_neg h.1, if_neg h.2]
  rw [cutAtCodes, cutFrom, hrest]
  rfl

/-- Bytes are read start code by start code and byte by byte. -/
@[elab_as_elim] theorem code_induction {motive : List UInt8 → Prop} (nil : motive [])
    (short : ∀ bytes, motive bytes → motive (0 :: 0 :: 1 :: bytes))
    (long : ∀ bytes, motive bytes → motive (0 :: 0 :: 0 :: 1 :: bytes))
    (byte : ∀ byte bytes, ¬ AtCode (byte :: bytes) → motive bytes → motive (byte :: bytes))
    (bytes : List UInt8) : motive bytes := by
  induction hlength : bytes.length using Nat.strong_induction_on generalizing bytes with
  | _ length ih =>
      subst hlength
      cases bytes with
      | nil => exact nil
      | cons first rest =>
          by_cases hcode : AtCode (first :: rest)
          · rcases hcode with ⟨after, hafter⟩ | ⟨after, hafter⟩
            · rw [← hafter]
              refine short after (ih _ ?_ after rfl)
              rw [← hafter]
              simp
              omega
            · rw [← hafter]
              refine long after (ih _ ?_ after rfl)
              rw [← hafter]
              simp
              omega
          · exact byte first rest hcode (ih _ (Nat.lt_succ_self _) rest rfl)

theorem cutAtCodes_ne_nil (bytes : List UInt8) : cutAtCodes bytes ≠ [] := by
  induction bytes using code_induction with
  | nil => simp
  | short bytes => simp [cutAtCodes_short]
  | long bytes => simp [cutAtCodes_long]
  | byte byte bytes hcode ih => simpa [cutAtCodes_byte hcode] using ih

/-- There is one piece only if there is no start code. -/
theorem tail_cutAtCodes_eq_nil {bytes : List UInt8} :
    (cutAtCodes bytes).tail = [] ↔ ¬ [0, 0, 1] <:+: bytes := by
  induction bytes using code_induction with
  | nil => simp
  | short bytes ih =>
      have hwithin : [0, 0, 1] <:+: 0 :: 0 :: 1 :: bytes := ⟨[], bytes, rfl⟩
      simp [cutAtCodes_short, hwithin, cutAtCodes_ne_nil]
  | long bytes ih =>
      have hwithin : [0, 0, 1] <:+: 0 :: 0 :: 0 :: 1 :: bytes := ⟨[0], bytes, rfl⟩
      simp [cutAtCodes_long, hwithin, cutAtCodes_ne_nil]
  | byte byte bytes hcode ih =>
      rw [AtCode, not_or] at hcode
      rw [cutAtCodes_byte (not_or.mpr hcode), List.tail_modifyHead, ih, List.infix_cons_iff,
        not_or, and_iff_right hcode.1]

/-! Bytes without a start code. -/

/-- No start code begins in bytes that hold none and do not end with a zero, whatever
follows. -/
theorem not_atCode {byte : UInt8} {bytes : List UInt8} (hcode : ¬ [0, 0, 1] <:+: byte :: bytes)
    (hlast : (byte :: bytes).getLast? ≠ some 0) (rest : List UInt8) :
    ¬ AtCode (byte :: (bytes ++ rest)) := by
  intro hat
  have hzero : byte = 0 := by
    rcases hat with ⟨after, hafter⟩ | ⟨after, hafter⟩
    · exact (List.cons.inj hafter).1.symm
    · exact (List.cons.inj hafter).1.symm
  subst hzero
  match bytes with
  | [] => exact hlast rfl
  | [second] =>
      have hsecond : second = 0 := by
        rcases hat with ⟨after, hafter⟩ | ⟨after, hafter⟩
        · exact (List.cons.inj (List.cons.inj hafter).2).1.symm
        · exact (List.cons.inj (List.cons.inj hafter).2).1.symm
      subst hsecond
      exact hlast rfl
  | [second, third] =>
      rcases hat with ⟨after, hafter⟩ | ⟨after, hafter⟩
      · simp only [List.cons_append, List.nil_append, List.cons.injEq, true_and] at hafter
        obtain ⟨rfl, rfl, -⟩ := hafter
        exact hcode ⟨[], [], rfl⟩
      · simp only [List.cons_append, List.nil_append, List.cons.injEq, true_and] at hafter
        obtain ⟨rfl, rfl, -⟩ := hafter
        exact hlast rfl
  | second :: third :: fourth :: bytes =>
      rcases hat with ⟨after, hafter⟩ | ⟨after, hafter⟩
      · simp only [List.cons_append, List.nil_append, List.cons.injEq, true_and] at hafter
        obtain ⟨rfl, rfl, -⟩ := hafter
        exact hcode ⟨[], fourth :: bytes, rfl⟩
      · simp only [List.cons_append, List.nil_append, List.cons.injEq, true_and] at hafter
        obtain ⟨rfl, rfl, rfl, -⟩ := hafter
        exact hcode ⟨[0], bytes, rfl⟩

theorem getLast?_of_cons {byte : UInt8} {bytes : List UInt8}
    (h : (byte :: bytes).getLast? ≠ some 0) : bytes.getLast? ≠ some 0 := by
  intro hlast
  apply h
  cases bytes with
  | nil => cases hlast
  | cons next bytes => simpa using hlast

/-- Bytes without a start code belong to one piece. -/
theorem cut_append {bytes : List UInt8} (hcode : ¬ [0, 0, 1] <:+: bytes)
    (hlast : bytes.getLast? ≠ some 0) (rest : List UInt8) :
    cutAtCodes (bytes ++ rest) = (cutAtCodes rest).modifyHead (bytes ++ ·) := by
  induction bytes with
  | nil =>
      obtain ⟨first, more, hpieces⟩ := List.exists_cons_of_ne_nil (cutAtCodes_ne_nil rest)
      simp [hpieces]
  | cons byte bytes ih =>
      have hless : ¬ [0, 0, 1] <:+: bytes :=
        fun hwithin => hcode (hwithin.trans (List.suffix_cons byte bytes).isInfix)
      rw [List.cons_append, cutAtCodes_byte (not_atCode hcode hlast rest),
        ih hless (getLast?_of_cons hlast), List.modifyHead_modifyHead]
      rfl

/-- Where the first start code is known, the piece in front of it is, up to the zero that
may belong to the code. -/
theorem cut_front {front : List UInt8} (h : ¬ [0, 0, 1] <:+: front ++ [0, 0]) (rest : List UInt8) :
    ∃ head, (front = head ∨ front = head ++ [0]) ∧
      cutAtCodes (front ++ 0 :: 0 :: 1 :: rest) = head :: cutAtCodes rest := by
  induction front with
  | nil => exact ⟨[], Or.inl rfl, cutAtCodes_short rest⟩
  | cons byte front ih =>
      by_cases hlong : byte :: front = [0]
      · obtain ⟨rfl, rfl⟩ := List.cons.inj hlong
        exact ⟨[], Or.inr rfl, cutAtCodes_long rest⟩
      · have hless : ¬ [0, 0, 1] <:+: front ++ [0, 0] :=
          fun hwithin => h (hwithin.trans (List.suffix_cons byte (front ++ [0, 0])).isInfix)
        have hnot : ¬ AtCode (byte :: (front ++ 0 :: 0 :: 1 :: rest)) := by
          have hsplit : front ++ 0 :: 0 :: 1 :: rest = (front ++ [0, 0]) ++ 1 :: rest := by simp
          rw [hsplit]
          match front with
          | [] =>
              rintro (⟨after, hafter⟩ | ⟨after, hafter⟩)
              · simp at hafter
              · simp only [List.cons_append, List.nil_append, List.cons.injEq] at hafter
                obtain ⟨rfl, -⟩ := hafter
                exact hlong rfl
          | [second] =>
              rintro (⟨after, hafter⟩ | ⟨after, hafter⟩)
              · simp at hafter
              · simp at hafter
          | second :: third :: front =>
              rintro (⟨after, hafter⟩ | ⟨after, hafter⟩)
              · simp only [List.cons_append, List.nil_append, List.cons.injEq] at hafter
                obtain ⟨rfl, rfl, rfl, -⟩ := hafter
                exact h ⟨[], front ++ [0, 0], rfl⟩
              · simp only [List.cons_append, List.nil_append, List.cons.injEq] at hafter
                obtain ⟨rfl, rfl, rfl, hafter⟩ := hafter
                cases front with
                | nil => simp at hafter
                | cons fourth front =>
                    obtain ⟨rfl, -⟩ := List.cons.inj hafter
                    exact h ⟨[0], front ++ [0, 0], rfl⟩
        obtain ⟨head, hhead, hcut⟩ := ih hless
        refine ⟨byte :: head, ?_, ?_⟩
        · rcases hhead with rfl | rfl
          · exact Or.inl rfl
          · exact Or.inr rfl
        · rw [List.cons_append, cutAtCodes_byte hnot, hcut]
          rfl

/-- Nothing in the unit looks like a start code, or like what must not be in a unit, and
the unit does not end with a zero. -/
structure CleanBytes (bytes : List UInt8) : Prop where
  zeros : ¬ [0, 0, 0] <:+: bytes
  code : ¬ [0, 0, 1] <:+: bytes
  reserved : ¬ [0, 0, 2] <:+: bytes
  last : bytes.getLast? ≠ some 0

end EvertyDesk
