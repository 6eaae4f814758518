import Mathlib.Data.List.Basic

/-!
Texts as lists of characters, and the bytes that encode them. Which bytes encode a text,
and which text, is by the strings of the language.
-/

namespace EvertyDesk

def utf8 (text : List Char) : List UInt8 := text.flatMap String.utf8EncodeChar

def decodeUtf8 (bytes : List UInt8) : Option (List Char) :=
  (String.fromUTF8? ⟨bytes.toArray⟩).map String.toList

@[simp] theorem utf8_nil : utf8 [] = [] := rfl

@[simp] theorem utf8_cons (c : Char) (text : List Char) :
    utf8 (c :: text) = String.utf8EncodeChar c ++ utf8 text := rfl

theorem utf8_append (first second : List Char) :
    utf8 (first ++ second) = utf8 first ++ utf8 second := List.flatMap_append

theorem byteArray_utf8 (text : List Char) :
    (⟨(utf8 text).toArray⟩ : ByteArray) = text.utf8Encode := by
  rw [← List.data_toByteArray]
  rfl

/-- Bytes encode at most one text. -/
theorem utf8_injective {first second : List Char} (h : utf8 first = utf8 second) :
    first = second := by
  have hencode : first.utf8Encode = second.utf8Encode := by
    rw [← byteArray_utf8, ← byteArray_utf8, h]
  have hdecode : some first.toArray = some second.toArray := by
    rw [← List.utf8Decode?_utf8Encode, ← List.utf8Decode?_utf8Encode, hencode]
  simpa using hdecode

theorem decodeUtf8_eq_some {bytes : List UInt8} {text : List Char} :
    decodeUtf8 bytes = some text ↔ bytes = utf8 text := by
  constructor
  · intro h
    obtain ⟨decoded, hdecoded, rfl⟩ := Option.map_eq_some_iff.mp h
    unfold String.fromUTF8? at hdecoded
    split at hdecoded
    · cases hdecoded
      have hbytes : (⟨(utf8 (String.fromUTF8 ⟨bytes.toArray⟩ ‹_›).toList).toArray⟩ : ByteArray) =
          ⟨bytes.toArray⟩ := by
        rw [byteArray_utf8, String.utf8Encode_toList]
        rfl
      simpa using (congrArg ByteArray.data hbytes).symm
    · cases hdecoded
  · rintro rfl
    have hvalid : (⟨(utf8 text).toArray⟩ : ByteArray).IsValidUTF8 := ⟨text, byteArray_utf8 text⟩
    rw [decodeUtf8, String.fromUTF8?, dif_pos hvalid, Option.map_some, Option.some_inj]
    apply utf8_injective
    have hbytes : (⟨(utf8 (String.fromUTF8 ⟨(utf8 text).toArray⟩ hvalid).toList).toArray⟩ :
        ByteArray) = ⟨(utf8 text).toArray⟩ := by
      rw [byteArray_utf8, String.utf8Encode_toList]
      rfl
    simpa using congrArg ByteArray.data hbytes

@[simp] theorem decodeUtf8_utf8 (text : List Char) : decodeUtf8 (utf8 text) = some text :=
  decodeUtf8_eq_some.mpr rfl

theorem decodeUtf8_eq_none {bytes : List UInt8} :
    decodeUtf8 bytes = none ↔ ∀ text, bytes ≠ utf8 text := by
  rw [Option.eq_none_iff_forall_ne_some]
  exact forall_congr' fun text => not_congr decodeUtf8_eq_some

/-! Characters below 80 are bytes of their own, and no other character has such bytes. -/

theorem utf8EncodeChar_ascii {c : Char} (h : c.toNat < 0x80) :
    String.utf8EncodeChar c = [UInt8.ofNat c.toNat] := by
  have hle : c.val.toNat ≤ 0x7f := Nat.le_of_lt_succ h
  simp only [String.utf8EncodeChar]
  rw [if_pos hle]
  rfl

theorem utf8_ascii {text : List Char} (h : ∀ c ∈ text, c.toNat < 0x80) :
    utf8 text = text.map fun c => UInt8.ofNat c.toNat := by
  induction text with
  | nil => rfl
  | cons c text ih =>
      rw [utf8_cons, utf8EncodeChar_ascii (h c List.mem_cons_self),
        ih fun d hd => h d (List.mem_cons_of_mem _ hd)]
      rfl

theorem utf8EncodeChar_high {c : Char} (h : 0x80 ≤ c.toNat) :
    ∀ b ∈ String.utf8EncodeChar c, 0x80 ≤ b.toNat := by
  have hnot : ¬ c.val.toNat ≤ 0x7f := Nat.not_le.mpr h
  simp only [String.utf8EncodeChar]
  rw [if_neg hnot]
  intro b hb
  split at hb
  · simp only [List.mem_cons, List.not_mem_nil, or_false] at hb
    rcases hb with rfl | rfl <;> simp <;> omega
  split at hb
  · simp only [List.mem_cons, List.not_mem_nil, or_false] at hb
    rcases hb with rfl | rfl | rfl <;> simp <;> omega
  · simp only [List.mem_cons, List.not_mem_nil, or_false] at hb
    rcases hb with rfl | rfl | rfl | rfl <;> simp <;> omega

theorem decodeUtf8_append_ascii {c : Char} (h : c.toNat < 0x80) (bytes : List UInt8) :
    decodeUtf8 (bytes ++ [UInt8.ofNat c.toNat]) = (decodeUtf8 bytes).map (· ++ [c]) := by
  cases hbytes : decodeUtf8 bytes with
  | some text =>
      rw [decodeUtf8_eq_some] at hbytes
      rw [Option.map_some, decodeUtf8_eq_some, utf8_append, hbytes, utf8_cons, utf8_nil,
        List.append_nil, utf8EncodeChar_ascii h]
  | none =>
      rw [decodeUtf8_eq_none] at hbytes
      rw [Option.map_none, decodeUtf8_eq_none]
      intro text hsame
      -- the last byte belongs to the last character alone
      rcases List.eq_nil_or_concat text with rfl | ⟨before, last, rfl⟩
      · simp at hsame
      rw [List.concat_eq_append, utf8_append, utf8_cons, utf8_nil, List.append_nil] at hsame
      have hlast : UInt8.ofNat c.toNat ∈ String.utf8EncodeChar last := by
        have hend := congrArg List.getLast? hsame
        rw [List.getLast?_append_of_ne_nil _ (by simp),
          List.getLast?_append_of_ne_nil _ String.utf8EncodeChar_ne_nil] at hend
        exact List.mem_of_getLast? hend.symm
      have hascii : last.toNat < 0x80 := by
        by_contra hhigh
        have := utf8EncodeChar_high (Nat.not_lt.mp hhigh) _ hlast
        rw [UInt8.toNat_ofNat'] at this
        omega
      rw [utf8EncodeChar_ascii hascii] at hsame
      exact hbytes before (List.append_inj' hsame rfl).1

/-! The grammar of the bytes of one character. -/

def IsTail (b : UInt8) : Prop := 0x80 ≤ b.toNat ∧ b.toNat < 0xC0

def CharBytes : List UInt8 → Prop
  | [a] => a.toNat < 0x80
  | [a, b] => 0xC2 ≤ a.toNat ∧ a.toNat < 0xE0 ∧ IsTail b
  | [a, b, c] =>
      0xE0 ≤ a.toNat ∧ a.toNat < 0xF0 ∧ IsTail b ∧ IsTail c ∧
        (a.toNat = 0xE0 → 0xA0 ≤ b.toNat) ∧ (a.toNat = 0xED → b.toNat < 0xA0)
  | [a, b, c, d] =>
      0xF0 ≤ a.toNat ∧ a.toNat < 0xF5 ∧ IsTail b ∧ IsTail c ∧ IsTail d ∧
        (a.toNat = 0xF0 → 0x90 ≤ b.toNat) ∧ (a.toNat = 0xF4 → b.toNat < 0x90)
  | _ => False

theorem charBytes_utf8EncodeChar (c : Char) : CharBytes (String.utf8EncodeChar c) := by
  have hvalid : c.toNat < 0xD800 ∨ 0xDFFF < c.toNat ∧ c.toNat < 0x110000 := c.valid
  simp only [String.utf8EncodeChar, Char.toNat_val]
  split
  · simp [CharBytes]; omega
  split
  · simp [CharBytes, IsTail]; omega
  split
  · simp [CharBytes, IsTail]; omega
  · simp [CharBytes, IsTail]; omega

theorem exists_char {v : Nat} (h : v < 0xD800 ∨ 0xDFFF < v ∧ v < 0x110000) :
    ∃ c : Char, c.toNat = v := by
  have hvalid : v.isValidChar := h
  refine ⟨Char.ofNat v, ?_⟩
  rw [Char.ofNat, dif_pos hvalid]
  rfl

theorem ofNat_eq {n : Nat} {b : UInt8} (h : n = b.toNat) : UInt8.ofNat n = b := by
  rw [h, UInt8.ofNat_toNat]

theorem exists_utf8EncodeChar {bytes : List UInt8} (h : CharBytes bytes) :
    ∃ c, String.utf8EncodeChar c = bytes := by
  unfold CharBytes at h
  split at h
  case h_1 a =>
    obtain ⟨c, hc⟩ := @exists_char a.toNat (by omega)
    refine ⟨c, ?_⟩
    simp only [String.utf8EncodeChar, Char.toNat_val, hc]
    rw [if_pos (by omega), UInt8.ofNat_toNat]
  case h_2 a b =>
    obtain ⟨ha, ha', hb⟩ := h
    unfold IsTail at hb
    obtain ⟨c, hc⟩ := @exists_char ((a.toNat - 0xC0) * 64 + (b.toNat - 0x80)) (by omega)
    refine ⟨c, ?_⟩
    simp only [String.utf8EncodeChar, Char.toNat_val, hc]
    rw [if_neg (by omega), if_pos (by omega), @ofNat_eq _ a (by omega), @ofNat_eq _ b (by omega)]
  case h_3 a b c =>
    obtain ⟨ha, ha', hb, hc, hlow, hhigh⟩ := h
    unfold IsTail at hb hc
    obtain ⟨d, hd⟩ := @exists_char
      ((a.toNat - 0xE0) * 4096 + (b.toNat - 0x80) * 64 + (c.toNat - 0x80)) (by omega)
    refine ⟨d, ?_⟩
    simp only [String.utf8EncodeChar, Char.toNat_val, hd]
    rw [if_neg (by omega), if_neg (by omega), if_pos (by omega), @ofNat_eq _ a (by omega),
      @ofNat_eq _ b (by omega), @ofNat_eq _ c (by omega)]
  case h_4 a b c d =>
    obtain ⟨ha, ha', hb, hc, hd, hlow, hhigh⟩ := h
    unfold IsTail at hb hc hd
    obtain ⟨e, he⟩ := @exists_char ((a.toNat - 0xF0) * 262144 + (b.toNat - 0x80) * 4096 +
      (c.toNat - 0x80) * 64 + (d.toNat - 0x80)) (by omega)
    refine ⟨e, ?_⟩
    simp only [String.utf8EncodeChar, Char.toNat_val, he]
    rw [if_neg (by omega), if_neg (by omega), if_neg (by omega), @ofNat_eq _ a (by omega),
      @ofNat_eq _ b (by omega), @ofNat_eq _ c (by omega), @ofNat_eq _ d (by omega)]
  case h_5 => exact h.elim

/-! Capital letters of ASCII and small ones. -/

theorem toNat_toLower (c : Char) :
    c.toLower.toNat = if 65 ≤ c.toNat ∧ c.toNat ≤ 90 then c.toNat + 32 else c.toNat := by
  unfold Char.toLower
  split
  next h =>
    have hbounds : 65 ≤ c.toNat ∧ c.toNat ≤ 90 := h
    rw [if_pos hbounds]
    change (c.toNat + 32) % 2 ^ 32 = c.toNat + 32
    omega
  next h =>
    have hbounds : ¬ (65 ≤ c.toNat ∧ c.toNat ≤ 90) := h
    rw [if_neg hbounds]

theorem toLower_toLower (c : Char) : c.toLower.toLower = c.toLower := by
  apply Char.toNat_inj.mp
  rw [toNat_toLower, toNat_toLower]
  split_ifs <;> omega

end EvertyDesk
