import EvertyDesk.Lib.Utf8

/-!
Bytes as hexadecimal digits, small ones written and either kind read. Two such texts that
are the same but for the kind of their letters are those of the same bytes.
-/

namespace EvertyDesk

def hexEncode (bytes : List UInt8) : List Char :=
  bytes.flatMap fun byte => [Nat.digitChar (byte.toNat / 16), Nat.digitChar (byte.toNat % 16)]

def hexValue (c : Char) : Option Nat :=
  if 48 ≤ c.toNat ∧ c.toNat ≤ 57 then some (c.toNat - 48)
  else if 97 ≤ c.toNat ∧ c.toNat ≤ 102 then some (c.toNat - 87)
  else if 65 ≤ c.toNat ∧ c.toNat ≤ 70 then some (c.toNat - 55)
  else none

def hexDecode : List Char → Option (List UInt8)
  | [] => some []
  | [_] => none
  | high :: low :: rest =>
      match hexValue high, hexValue low with
      | some x, some y => (hexDecode rest).map (UInt8.ofNat (x * 16 + y) :: ·)
      | _, _ => none

theorem toNat_digitChar {d : Nat} (h : d < 16) :
    (Nat.digitChar d).toNat = if d < 10 then 48 + d else 87 + d := by
  have hall : ∀ d < 16, (Nat.digitChar d).toNat = if d < 10 then 48 + d else 87 + d := by
    decide
  exact hall d h

theorem hexValue_lt {c : Char} {d : Nat} (h : hexValue c = some d) : d < 16 := by
  unfold hexValue at h
  split_ifs at h <;> grind

theorem hexValue_eq_iff {c : Char} {d : Nat} (h : d < 16) :
    hexValue c = some d ↔ (Nat.digitChar d).toLower = c.toLower := by
  rw [← Char.toNat_inj, toNat_toLower, toNat_toLower, toNat_digitChar h]
  unfold hexValue
  split_ifs <;> simp <;> omega

theorem hexEncode_cons (byte : UInt8) (bytes : List UInt8) :
    hexEncode (byte :: bytes) =
      Nat.digitChar (byte.toNat / 16) :: Nat.digitChar (byte.toNat % 16) :: hexEncode bytes := rfl

theorem ofNat_eq_iff {x y : Nat} (hx : x < 16) (hy : y < 16) (byte : UInt8) :
    UInt8.ofNat (x * 16 + y) = byte ↔ x = byte.toNat / 16 ∧ y = byte.toNat % 16 := by
  rw [← UInt8.toNat_inj, UInt8.toNat_ofNat']
  have hbyte := byte.toNat_lt
  omega

/-- Read back are just the texts that are the same but for the kind of their letters. -/
theorem hexDecode_eq_some_iff {bytes : List UInt8} {text : List Char} :
    hexDecode text = some bytes ↔ (hexEncode bytes).map Char.toLower = text.map Char.toLower := by
  induction text using hexDecode.induct generalizing bytes with
  | case1 => cases bytes <;> simp [hexDecode, hexEncode]
  | case2 c => cases bytes <;> simp [hexDecode, hexEncode]
  | case3 high low rest y x hlow hhigh ih =>
      simp only [hexDecode, hhigh, hlow]
      cases bytes with
      | nil => simp [hexEncode]
      | cons byte bytes =>
          have hbyte := byte.toNat_lt
          have hfirst := ofNat_eq_iff (hexValue_lt hhigh) (hexValue_lt hlow) byte
          rw [hexEncode_cons, List.map_cons, List.map_cons, List.map_cons, List.map_cons,
            List.cons.injEq, List.cons.injEq, ← hexValue_eq_iff (by omega),
            ← hexValue_eq_iff (by omega), hhigh, hlow, ← ih, Option.map_eq_some_iff]
          constructor
          · rintro ⟨decoded, hdecoded, hsame⟩
            rw [List.cons.injEq, hfirst] at hsame
            obtain ⟨⟨hx, hy⟩, rfl⟩ := hsame
            exact ⟨congrArg some hx, congrArg some hy, hdecoded⟩
          · rintro ⟨hx, hy, hdecoded⟩
            refine ⟨bytes, hdecoded, ?_⟩
            rw [List.cons.injEq, hfirst]
            exact ⟨⟨Option.some.inj hx, Option.some.inj hy⟩, rfl⟩
  | case4 high low rest hvalue =>
      have hnone : hexDecode (high :: low :: rest) = none := by
        rw [hexDecode]
        split
        next x y hhigh hlow => exact (hvalue x y hhigh hlow).elim
        · rfl
      rw [hnone]
      cases bytes with
      | nil => simp [hexEncode]
      | cons byte bytes =>
          have hbyte := byte.toNat_lt
          rw [hexEncode_cons, List.map_cons, List.map_cons, List.map_cons, List.map_cons,
            List.cons.injEq, List.cons.injEq, ← hexValue_eq_iff (by omega),
            ← hexValue_eq_iff (by omega)]
          simp only [reduceCtorEq, false_iff, not_and]
          intro hhigh hlow
          exact (hvalue _ _ hhigh hlow).elim

end EvertyDesk
