import EvertyDesk.Launcher.LauncherStore
import EvertyDesk.Lib.Utf8
import Mathlib.Data.List.Infix

/-!
The repair of texts on Russian ones: what it makes of a text that was stored in the wrong
encoding, and of one that was not.
-/

namespace EvertyDesk.Launcher

def IsRussianLetter (c : Char) : Prop :=
  (0x0410 ≤ c.toNat ∧ c.toNat ≤ 0x044F) ∨ c.toNat = 0x0401 ∨ c.toNat = 0x0451

instance (c : Char) : Decidable (IsRussianLetter c) := by
  unfold IsRussianLetter; infer_instance

/-- A text of ASCII characters and at least one Russian letter. -/
structure RussianText where
  text : List Char
  plain : ∀ c ∈ text, c.toNat < 0x80 ∨ IsRussianLetter c
  hasLetter : ∃ c ∈ text, IsRussianLetter c

def decodeWindows1251 (byte : UInt8) : Char :=
  if byte.toNat < 128 then Char.ofNat byte.toNat
  else Char.ofNat ((windows1251Decode[byte.toNat - 128]?).getD 0)

/-- How a text looks whose UTF-8 bytes were read as Windows-1251. -/
def garbled (text : List Char) : List Char := (utf8 text).map decodeWindows1251

/-! What was read as Windows-1251 is written back as it was. -/

theorem encode_decodeWindows1251 (byte : UInt8) :
    encodeWindows1251 (decodeWindows1251 byte) = some byte := by
  have hall : ∀ n < 256, encodeWindows1251 (decodeWindows1251 (UInt8.ofNat n)) =
      some (UInt8.ofNat n) := by decide +kernel
  have hbyte := hall byte.toNat byte.toNat_lt
  rwa [UInt8.ofNat_toNat] at hbyte

theorem mapM_encode_decode (bytes : List UInt8) :
    (bytes.map decodeWindows1251).mapM encodeWindows1251 = some bytes := by
  induction bytes with
  | nil => rfl
  | cons byte bytes ih =>
      rw [List.map_cons, List.mapM_cons, encode_decodeWindows1251, ih]
      rfl

theorem garbled_bytes (text : List Char) :
    ((garbled text).mapM encodeWindows1251).bind decodeUtf8 = some text := by
  rw [garbled, mapM_encode_decode]
  exact decodeUtf8_utf8 text

theorem repair_decoded {text repaired : List Char} (hlooks : looksLikeLegacyMojibake text = true)
    (h : (text.mapM encodeWindows1251).bind decodeUtf8 = some repaired) :
    repairLegacyMojibakeText text =
      if mojibakeScore repaired < mojibakeScore text then repaired else text := by
  unfold repairLegacyMojibakeText
  rw [hlooks, h]
  rfl

/-! The score of a Russian text, and of its garbled form. -/

theorem countMatches_eq_zero {pattern text : List Char} {c : Char} (hpattern : c ∈ pattern)
    (htext : c ∉ text) : countMatches pattern text = 0 := by
  unfold countMatches
  rw [List.length_eq_zero_iff, List.filter_eq_nil_iff]
  intro rest hrest hprefix
  have hc : c ∈ rest := (List.isPrefixOf_iff_prefix.mp hprefix).subset hpattern
  exact htext (((List.mem_tails _ _).mp hrest).subset hc)

variable {text : List Char}

theorem score_plain (h : ∀ c ∈ text, c.toNat < 0x80 ∨ IsRussianLetter c) :
    mojibakeScore text = text.count capitalEr + text.count capitalEs + text.count capitalVe := by
  have hmark : Char.ofNat 0x0402 ∉ text := by
    intro hmem
    have := h _ hmem
    revert this
    decide
  have hmember : Char.ofNat 0x0402 ∈ markPrefix := by decide
  rw [mojibakeScore, countMatches_eq_zero hmember hmark]
  rfl

/-- A letter of which the score does not tell. -/
def IsTelling (c : Char) : Prop := IsRussianLetter c ∧ c ≠ capitalEr ∧ c ≠ capitalEs ∧ c ≠ capitalVe

instance (c : Char) : Decidable (IsTelling c) := by unfold IsTelling; infer_instance

theorem count_letters (text : List Char) :
    text.countP (fun c => decide (IsRussianLetter c)) =
      text.count capitalEr + text.count capitalEs + text.count capitalVe +
        text.countP (fun c => decide (IsTelling c)) := by
  induction text with
  | nil => rfl
  | cons c text ih =>
      rw [List.countP_cons, List.countP_cons, List.count_cons, List.count_cons, List.count_cons, ih]
      by_cases her : c = capitalEr
      · subst her; simp [show IsRussianLetter capitalEr by decide, IsTelling,
          show capitalEr ≠ capitalEs by decide, show capitalEr ≠ capitalVe by decide]
        omega
      by_cases hes : c = capitalEs
      · subst hes; simp [show IsRussianLetter capitalEs by decide, IsTelling,
          show capitalEs ≠ capitalEr by decide, show capitalEs ≠ capitalVe by decide]
        omega
      by_cases hve : c = capitalVe
      · subst hve; simp [show IsRussianLetter capitalVe by decide, IsTelling,
          show capitalVe ≠ capitalEr by decide, show capitalVe ≠ capitalEs by decide]
        omega
      · simp [IsTelling, her, hes, hve]
        omega

theorem garbled_cons (c : Char) (text : List Char) :
    garbled (c :: text) = (String.utf8EncodeChar c).map decodeWindows1251 ++ garbled text :=
  List.map_append

theorem garbled_ascii {c : Char} (h : c.toNat < 0x80) :
    (String.utf8EncodeChar c).map decodeWindows1251 = [c] := by
  have hbyte : (UInt8.ofNat c.toNat).toNat = c.toNat := by
    rw [UInt8.toNat_ofNat']
    omega
  rw [utf8EncodeChar_ascii h, List.map_singleton, decodeWindows1251, hbyte, if_pos h,
    Char.ofNat_toNat]

theorem letter_bytes {c : Char} (h : IsRussianLetter c) :
    ∃ tail, (String.utf8EncodeChar c = [0xD0, tail] ∨ String.utf8EncodeChar c = [0xD1, tail]) ∧
      IsTail tail := by
  unfold IsRussianLetter at h
  refine ⟨UInt8.ofNat (c.toNat % 64 + 0x80), ?_, ?_⟩
  · simp only [String.utf8EncodeChar, Char.toNat_val]
    rw [if_neg (by omega), if_pos (by omega)]
    by_cases hlow : c.toNat < 0x0440
    · left
      rw [@ofNat_eq _ 0xD0 (by change _ = 0xD0; omega)]
    · right
      rw [@ofNat_eq _ 0xD1 (by change _ = 0xD1; omega)]
  · simp [IsTail]
    omega

/-- No tail byte looks like one of the letters that count. -/
theorem decoded_tail {tail : UInt8} (h : IsTail tail) :
    decodeWindows1251 tail ∉ [capitalEr, capitalEs, capitalVe, Char.ofNat 0x0432] := by
  have hall : ∀ n < 64, decodeWindows1251 (UInt8.ofNat (0x80 + n)) ∉
      [capitalEr, capitalEs, capitalVe, Char.ofNat 0x0432] := by decide +kernel
  obtain ⟨hlow, hhigh⟩ := h
  have htail := hall (tail.toNat - 0x80) (by omega)
  rwa [show 0x80 + (tail.toNat - 0x80) = tail.toNat by omega, UInt8.ofNat_toNat] at htail

theorem garbled_letter {c : Char} (h : IsRussianLetter c) :
    ∃ lead mark, (String.utf8EncodeChar c).map decodeWindows1251 = [lead, mark] ∧
      (lead = capitalEr ∨ lead = capitalEs) ∧
      mark ∉ [capitalEr, capitalEs, capitalVe, Char.ofNat 0x0432] := by
  obtain ⟨tail, hbytes, htail⟩ := letter_bytes h
  rcases hbytes with hbytes | hbytes
  · refine ⟨decodeWindows1251 0xD0, decodeWindows1251 tail, ?_, ?_, decoded_tail htail⟩
    · rw [hbytes]
      rfl
    · exact Or.inl (by decide)
  · refine ⟨decodeWindows1251 0xD1, decodeWindows1251 tail, ?_, ?_, decoded_tail htail⟩
    · rw [hbytes]
      rfl
    · exact Or.inr (by decide)

/-- In the garbled form every letter is one capital that counts, and nothing else is. -/
theorem garbled_counts (h : ∀ c ∈ text, c.toNat < 0x80 ∨ IsRussianLetter c) :
    (garbled text).count capitalEr + (garbled text).count capitalEs =
        text.countP (fun c => decide (IsRussianLetter c)) ∧
      capitalVe ∉ garbled text ∧ Char.ofNat 0x0432 ∉ garbled text ∧
      (garbled text).length = text.length + text.countP (fun c => decide (IsRussianLetter c)) := by
  induction text with
  | nil => decide
  | cons c text ih =>
      obtain ⟨hcount, hve, hmark, hlength⟩ := ih fun d hd => h d (List.mem_cons_of_mem _ hd)
      rw [garbled_cons]
      rcases h c List.mem_cons_self with hascii | hletter
      · have hnot : ∀ {d : Char}, 0x80 ≤ d.toNat → c ≠ d := by
          rintro d hd rfl
          omega
        have hplain : ¬ IsRussianLetter c := by
          unfold IsRussianLetter
          omega
        rw [garbled_ascii hascii]
        refine ⟨?_, ?_, ?_, ?_⟩
        · rw [List.singleton_append, List.count_cons_of_ne (hnot (by decide)),
            List.count_cons_of_ne (hnot (by decide)), hcount, List.countP_cons_of_neg]
          simpa using hplain
        · simpa [hve] using (hnot (by decide)).symm
        · simpa [hmark] using (hnot (by decide)).symm
        · simp [hlength, hplain]
          omega
      · obtain ⟨lead, mark, hpair, hlead, hother⟩ := garbled_letter hletter
        simp only [List.mem_cons, List.not_mem_nil, or_false, not_or] at hother
        have hlead' : lead ≠ capitalVe ∧ lead ≠ Char.ofNat 0x0432 := by
          rcases hlead with rfl | rfl <;> decide
        rw [hpair]
        refine ⟨?_, ?_, ?_, ?_⟩
        · rw [List.countP_cons_of_pos (by simpa using hletter), ← hcount]
          simp only [List.cons_append, List.nil_append, List.count_cons, beq_iff_eq]
          rw [if_neg hother.1, if_neg hother.2.1]
          rcases hlead with rfl | rfl
          · rw [if_pos rfl, if_neg (by decide)]
            omega
          · rw [if_neg (by decide), if_pos rfl]
            omega
        · simpa [hve] using ⟨hlead'.1.symm, Ne.symm hother.2.2.1⟩
        · simpa [hmark] using ⟨hlead'.2.symm, Ne.symm hother.2.2.2⟩
        · simp [hlength, hletter]
          omega

theorem score_garbled (h : ∀ c ∈ text, c.toNat < 0x80 ∨ IsRussianLetter c) :
    mojibakeScore (garbled text) = text.countP fun c => decide (IsRussianLetter c) := by
  obtain ⟨hcount, hve, hmark, -⟩ := garbled_counts h
  have hmember : Char.ofNat 0x0432 ∈ markPrefix := by decide
  rw [mojibakeScore, countMatches_eq_zero hmember hmark, List.count_eq_zero_of_not_mem hve, hcount]
  rfl

theorem repair_garbled_iff (s : RussianText) :
    repairLegacyMojibakeText (garbled s.text) = s.text ↔ ∃ c ∈ s.text, IsTelling c := by
  obtain ⟨hcount, -, -, hlength⟩ := garbled_counts s.plain
  have hletters : 0 < s.text.countP fun c => decide (IsRussianLetter c) := by
    simpa [List.countP_pos_iff] using s.hasLetter
  have hlooks : looksLikeLegacyMojibake (garbled s.text) = true := by
    have hmember : capitalEr ∈ garbled s.text ∨ capitalEs ∈ garbled s.text := by
      rw [← List.count_pos_iff, ← List.count_pos_iff]
      omega
    unfold looksLikeLegacyMojibake
    rcases hmember with hmember | hmember <;> simp [hmember]
  rw [repair_decoded hlooks (garbled_bytes s.text), score_garbled s.plain,
    score_plain s.plain, count_letters]
  have htelling : (0 < s.text.countP fun c => decide (IsTelling c)) ↔
      ∃ c ∈ s.text, IsTelling c := by
    simp [List.countP_pos_iff]
  rw [← htelling]
  split
  next hscore =>
    simp only [true_iff]
    omega
  next hscore =>
    constructor
    · intro hsame
      have := congrArg List.length hsame
      omega
    · intro hpos
      omega

/-! When the bytes of a text that is right are by chance those of another. -/

/-- How many letters Io make the bytes of one character together with this one. -/
def followers (c : Char) : Option Nat :=
  if c.toNat < 0x80 then some 0
  else if 0x0412 ≤ c.toNat ∧ c.toNat ≤ 0x042F then some 1
  else if 0x0430 ≤ c.toNat ∧ c.toNat ≤ 0x043F ∧ c.toNat ≠ 0x043D then some 2
  else if 0x0440 ≤ c.toNat ∧ c.toNat ≤ 0x0443 then some 3
  else none

def IsIo (c : Char) : Prop := c.toNat = 0x0401 ∨ c.toNat = 0x0451

instance (c : Char) : Decidable (IsIo c) := by unfold IsIo; infer_instance

/-- A text of groups: a character and the letters Io that belong to it. -/
inductive Grouped : List Char → Prop where
  | nil : Grouped []
  | group {c : Char} {ios rest : List Char} (hcount : followers c = some ios.length)
      (hios : ∀ io ∈ ios, IsIo io) (hrest : Grouped rest) : Grouped (c :: (ios ++ rest))

def windows1251Byte (c : Char) : UInt8 :=
  UInt8.ofNat (
    if c.toNat < 128 then c.toNat
    else if c.toNat = 0x0401 then 0xA8
    else if c.toNat = 0x0451 then 0xB8
    else c.toNat - 0x0350)

theorem encodeWindows1251_plain {c : Char} (h : c.toNat < 0x80 ∨ IsRussianLetter c) :
    encodeWindows1251 c = some (windows1251Byte c) := by
  unfold encodeWindows1251 windows1251Byte
  by_cases hascii : c.toNat < 128
  · rw [if_pos hascii, if_pos hascii]
  have hall : ∀ n < 64, windows1251Decode.idxOf? (0x0410 + n) = some (64 + n) := by
    decide +kernel
  rw [if_neg hascii, if_neg hascii]
  rcases h.resolve_left hascii with hletter | hio | hio
  · obtain ⟨n, hn⟩ := Nat.exists_eq_add_of_le hletter.1
    rw [if_neg (by omega), if_neg (by omega), hn, hall n (by omega), Option.map_some,
      show 0x80 + (64 + n) = 0x0410 + n - 0x0350 by omega]
  · rw [if_pos hio, hio]
    decide +kernel
  · rw [if_neg (by omega), if_pos hio, hio]
    decide +kernel

theorem mapM_plain (h : ∀ c ∈ text, c.toNat < 0x80 ∨ IsRussianLetter c) :
    text.mapM encodeWindows1251 = some (text.map windows1251Byte) := by
  induction text with
  | nil => rfl
  | cons c text ih =>
      rw [List.mapM_cons, encodeWindows1251_plain (h c List.mem_cons_self),
        ih fun d hd => h d (List.mem_cons_of_mem _ hd)]
      rfl

/-- The number of the byte of a character of a Russian text. -/
theorem toNat_windows1251Byte {c : Char} (h : c.toNat < 0x80 ∨ IsRussianLetter c) :
    (windows1251Byte c).toNat =
      if c.toNat < 128 then c.toNat
      else if c.toNat = 0x0401 then 0xA8
      else if c.toNat = 0x0451 then 0xB8
      else c.toNat - 0x0350 := by
  unfold IsRussianLetter at h
  rw [windows1251Byte, UInt8.toNat_ofNat']
  apply Nat.mod_eq_of_lt
  split
  · omega
  split
  · decide
  split
  · decide
  · omega

theorem isTail_byte_iff {c : Char} (h : c.toNat < 0x80 ∨ IsRussianLetter c) :
    IsTail (windows1251Byte c) ↔ IsIo c := by
  unfold IsTail IsIo
  rw [toNat_windows1251Byte h]
  unfold IsRussianLetter at h
  split_ifs <;> omega

/-- The number of letters by the byte, as UTF-8 has the number of tails. -/
theorem followers_eq {c : Char} (h : c.toNat < 0x80 ∨ IsRussianLetter c) :
    followers c =
      let b := (windows1251Byte c).toNat
      if b < 0x80 then some 0
      else if 0xC2 ≤ b ∧ b < 0xE0 then some 1
      else if 0xE0 ≤ b ∧ b < 0xF0 ∧ b ≠ 0xED then some 2
      else if 0xF0 ≤ b ∧ b < 0xF4 then some 3
      else none := by
  have hbyte := toNat_windows1251Byte h
  unfold IsRussianLetter at h
  dsimp only
  unfold followers
  split_ifs at hbyte ⊢ <;> first | rfl | omega

/-- A character and the letters after it have the bytes of one character. -/
theorem charBytes_group_iff {c : Char} {others : List Char}
    (hc : c.toNat < 0x80 ∨ IsRussianLetter c)
    (hothers : ∀ d ∈ others, d.toNat < 0x80 ∨ IsRussianLetter d) :
    CharBytes ((c :: others).map windows1251Byte) ↔
      followers c = some others.length ∧ ∀ d ∈ others, IsIo d := by
  have htail : ∀ d ∈ others, IsTail (windows1251Byte d) ↔ IsIo d :=
    fun d hd => isTail_byte_iff (hothers d hd)
  -- a tail of the bytes of a Russian text is neither below A0 nor above BF
  have hhigh : ∀ d ∈ others, IsTail (windows1251Byte d) → 0xA0 ≤ (windows1251Byte d).toNat := by
    intro d hd hio
    have hbyte := toNat_windows1251Byte (hothers d hd)
    rw [htail d hd] at hio
    unfold IsIo at hio
    split_ifs at hbyte <;> omega
  rw [followers_eq hc]
  match others with
  | [] =>
      simp [CharBytes]
      split_ifs <;> simp
  | [x] =>
      have hx := htail x List.mem_cons_self
      simp only [List.map_cons, List.map_nil, CharBytes, List.length_singleton,
        List.forall_mem_singleton, hx]
      grind
  | [x, y] =>
      have hx := htail x (by simp)
      have hy := htail y (by simp)
      have hxhigh := hhigh x (by simp)
      simp only [List.map_cons, List.map_nil, CharBytes, List.length_cons, List.length_nil,
        List.forall_mem_cons, hx, hy] at hxhigh ⊢
      grind
  | [x, y, z] =>
      have hx := htail x (by simp)
      have hy := htail y (by simp)
      have hz := htail z (by simp)
      have hxhigh := hhigh x (by simp)
      simp only [List.map_cons, List.map_nil, CharBytes, List.length_cons, List.length_nil,
        List.forall_mem_cons, hx, hy, hz] at hxhigh ⊢
      grind
  | x :: y :: z :: w :: rest =>
      simp [CharBytes]
      split_ifs <;> simp

section Bytes

variable {decoded : List Char} (h : ∀ c ∈ text, c.toNat < 0x80 ∨ IsRussianLetter c)

include h

theorem grouped_of_bytes (hbytes : text.map windows1251Byte = utf8 decoded) : Grouped text := by
  induction decoded generalizing text with
  | nil =>
      rw [utf8_nil, List.map_eq_nil_iff] at hbytes
      rw [hbytes]
      exact .nil
  | cons c decoded ih =>
      rw [utf8_cons, List.map_eq_append_iff] at hbytes
      obtain ⟨first, rest, rfl, hfirst, hrest⟩ := hbytes
      have hgrouped := ih (fun d hd => h d (List.mem_append_right _ hd)) hrest
      cases first with
      | nil => exact absurd hfirst.symm String.utf8EncodeChar_ne_nil
      | cons lead others =>
          have hchar := charBytes_utf8EncodeChar c
          rw [← hfirst, charBytes_group_iff (h lead (by simp))
            fun d hd => h d (by simp [hd])] at hchar
          exact .group hchar.1 hchar.2 hgrouped

theorem bytes_of_grouped (hgrouped : Grouped text) :
    ∃ decoded, text.map windows1251Byte = utf8 decoded := by
  induction hgrouped with
  | nil => exact ⟨[], rfl⟩
  | @group c ios rest hcount hios hrest ih =>
      obtain ⟨decoded, hdecoded⟩ := ih fun d hd => h d (by simp [hd])
      have hchar := (charBytes_group_iff (h c (by simp)) fun d hd => h d (by simp [hd])).mpr
        ⟨hcount, hios⟩
      obtain ⟨first, hfirst⟩ := exists_utf8EncodeChar hchar
      refine ⟨first :: decoded, ?_⟩
      rw [utf8_cons, hfirst, ← hdecoded, ← List.map_append]
      rfl

/-- A letter whose second byte no Russian letter has is in no text of such bytes. -/
theorem letter_not_mem {c : Char} (hbytes : text.map windows1251Byte = utf8 decoded)
    (hc : ∃ b ∈ String.utf8EncodeChar c, 0x80 ≤ b.toNat ∧ b.toNat < 0xC0 ∧
      b.toNat ≠ 0xA8 ∧ b.toNat ≠ 0xB8) : c ∉ decoded := by
  intro hmem
  obtain ⟨b, hb, hlow, hhigh, hcapital, hsmall⟩ := hc
  have hencoded : b ∈ text.map windows1251Byte := by
    rw [hbytes]
    exact List.mem_flatMap.mpr ⟨c, hmem, hb⟩
  obtain ⟨d, hd, rfl⟩ := List.mem_map.mp hencoded
  have hbyte := toNat_windows1251Byte (h d hd)
  have hplain := h d hd
  unfold IsRussianLetter at hplain
  split_ifs at hbyte <;> omega

theorem score_of_bytes (hbytes : text.map windows1251Byte = utf8 decoded) : mojibakeScore decoded = 0 := by
  have her : capitalEr ∉ decoded := letter_not_mem h hbytes ⟨0xA0, by decide, by decide⟩
  have hes : capitalEs ∉ decoded := letter_not_mem h hbytes ⟨0xA1, by decide, by decide⟩
  have hve : capitalVe ∉ decoded := letter_not_mem h hbytes ⟨0x92, by decide, by decide⟩
  have hmark : Char.ofNat 0x0432 ∉ decoded := letter_not_mem h hbytes ⟨0xB2, by decide, by decide⟩
  have hmember : Char.ofNat 0x0432 ∈ markPrefix := by decide
  rw [mojibakeScore, countMatches_eq_zero hmember hmark, List.count_eq_zero_of_not_mem her,
    List.count_eq_zero_of_not_mem hes, List.count_eq_zero_of_not_mem hve]

theorem looksLike_plain :
    looksLikeLegacyMojibake text = true ↔ capitalEr ∈ text ∨ capitalEs ∈ text := by
  have hnot : ∀ (pattern : List Char) (c : Char), c ∈ pattern →
      ¬ (c.toNat < 0x80 ∨ IsRussianLetter c) → ¬ pattern <:+: text :=
    fun _ _ hc hother hwithin => hother (h _ (hwithin.subset hc))
  have hleft := hnot [capitalVe, Char.ofNat 0x00AB] (Char.ofNat 0x00AB) (by simp) (by decide)
  have hright := hnot [capitalVe, Char.ofNat 0x00BB] (Char.ofNat 0x00BB) (by simp) (by decide)
  have hdot := hnot [capitalVe, Char.ofNat 0x00B7] (Char.ofNat 0x00B7) (by simp) (by decide)
  have hmark := hnot markPrefix (Char.ofNat 0x0402) (by decide) (by decide)
  unfold looksLikeLegacyMojibake
  simp [hleft, hright, hdot, hmark]

end Bytes

theorem repair_text_iff (s : RussianText) :
    repairLegacyMojibakeText s.text = s.text ↔
      ¬ ((capitalEr ∈ s.text ∨ capitalEs ∈ s.text) ∧ Grouped s.text) := by
  rw [← looksLike_plain s.plain]
  by_cases hlooks : looksLikeLegacyMojibake s.text = true
  · have hmember := (looksLike_plain s.plain).mp hlooks
    by_cases hgrouped : Grouped s.text
    · obtain ⟨decoded, hbytes⟩ := bytes_of_grouped s.plain hgrouped
      have hscore : 0 < mojibakeScore s.text := by
        rw [← List.count_pos_iff, ← List.count_pos_iff] at hmember
        rw [score_plain s.plain]
        omega
      have hread : (s.text.mapM encodeWindows1251).bind decodeUtf8 = some decoded := by
        rw [mapM_plain s.plain, hbytes]
        exact decodeUtf8_utf8 decoded
      have hzero := score_of_bytes s.plain hbytes
      rw [repair_decoded hlooks hread, if_pos (by omega)]
      simp only [hlooks, hgrouped, and_self, not_true, iff_false]
      rintro rfl
      omega
    · have hread : (s.text.mapM encodeWindows1251).bind decodeUtf8 = none := by
        rw [mapM_plain s.plain]
        exact decodeUtf8_eq_none.mpr fun decoded hbytes =>
          hgrouped (grouped_of_bytes s.plain hbytes)
      unfold repairLegacyMojibakeText
      rw [hlooks, hread]
      simp [hgrouped]
  · unfold repairLegacyMojibakeText
    simp [hlooks]

/-- Just these Russian texts come out of the repair right, garbled or not. -/
theorem repair_exact_iff (s : RussianText) :
    (repairLegacyMojibakeText (garbled s.text) = s.text ∧
      repairLegacyMojibakeText s.text = s.text) ↔
      (∃ c ∈ s.text, IsRussianLetter c ∧ c ≠ capitalEr ∧ c ≠ capitalEs ∧ c ≠ capitalVe) ∧
        ¬ ((capitalEr ∈ s.text ∨ capitalEs ∈ s.text) ∧ Grouped s.text) :=
  and_congr (repair_garbled_iff s) (repair_text_iff s)

/-- Two letters. -/
def pairText (first second : Char) (hfirst : IsRussianLetter first)
    (hsecond : IsRussianLetter second) : RussianText where
  text := [first, second]
  plain := List.forall_mem_cons.mpr ⟨Or.inr hfirst, List.forall_mem_singleton.mpr (Or.inr hsecond)⟩
  hasLetter := ⟨first, List.mem_cons_self, hfirst⟩

def initialsText : RussianText := pairText capitalEr capitalEs (by decide) (by decide)

def shortName : RussianText := pairText capitalEr (Char.ofNat 0x0401) (by decide) (by decide)

/-- The letters Er and Es stay garbled, and Er with the letter Io is made one other letter. -/
theorem initials_stay_garbled :
    repairLegacyMojibakeText (garbled initialsText.text) = garbled initialsText.text ∧
      garbled initialsText.text ≠ initialsText.text ∧
      repairLegacyMojibakeText shortName.text = "\u0428".toList ∧
      "\u0428".toList ≠ shortName.text := by
  decide +kernel

end EvertyDesk.Launcher
