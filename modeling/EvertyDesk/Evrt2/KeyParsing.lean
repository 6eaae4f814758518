import EvertyDesk.Evrt2.Datagrams
import EvertyDesk.Lib.Hex
import EvertyDesk.Lib.TextSlices
import EvertyDesk.Lib.Whitespace

/-!
The session key as text: two hexadecimal digits for each of its 32 bytes. The
text is read in slices of two bytes, each by the integer parser of the language.
-/

namespace EvertyDesk.Evrt2

/-- `u8::from_str_radix(src, 16)`: an optional plus sign and digits. -/
def u8FromStrRadix16 (src : List Char) : Option UInt8 :=
  let digits := if src.head? = some '+' then src.tail else src
  if digits = [] then none
  else do
    let value ← digits.foldlM (fun value c => do
      let digit ← hexValue c
      if value * 16 + digit < 256 then some (value * 16 + digit) else none) 0
    return UInt8.ofNat value

/-- `for i in 0..32`, from the byte `i` on. -/
def keyBytes (s : List Char) : Nat → Nat → Checked (Option (List UInt8))
  | 0, _ => return some []
  | left + 1, i => do
      let pair ← strSlice s (i * 2) (i * 2 + 2)
      match u8FromStrRadix16 pair with
      | none => return none
      | some byte =>
          let rest ← keyBytes s left (i + 1)
          return rest.map (byte :: ·)

def keyFromHex (s : List Char) : Checked (Option SessionKey) :=
  let s := trim s
  if byteLength s ≠ 64 then return none else keyBytes s 32 0

/-! What a text of pairs says. -/

/-- Two digits, or a plus sign and a digit. -/
def KeyPair (c d : Char) : Prop := ((hexValue c).isSome ∨ c = '+') ∧ (hexValue d).isSome

instance (c d : Char) : Decidable (KeyPair c d) := inferInstanceAs (Decidable (_ ∧ _))

def KeyPairs : List Char → Prop
  | [] => True
  | [_] => False
  | c :: d :: rest => KeyPair c d ∧ KeyPairs rest

/-- A plus sign stands for a digit. -/
def SignedPairs (text : List Char) : Prop := KeyPairs text ∧ '+' ∈ text

instance : DecidablePred KeyPairs := go
where
  go : (text : List Char) → Decidable (KeyPairs text)
  | [] => isTrue trivial
  | [_] => isFalse id
  | _ :: _ :: rest => @instDecidableAnd _ _ inferInstance (go rest)

instance (text : List Char) : Decidable (SignedPairs text) := inferInstanceAs (Decidable (_ ∧ _))

/-- After some pairs a slice of two bytes ends inside a character. -/
def CutsCharacter : List Char → Prop
  | [] => False
  | [c] => 3 ≤ c.utf8Size
  | c :: d :: rest =>
      3 ≤ c.utf8Size ∨ c.utf8Size = 1 ∧ 2 ≤ d.utf8Size ∨ KeyPair c d ∧ CutsCharacter rest

instance : DecidablePred CutsCharacter := go
where
  go : (text : List Char) → Decidable (CutsCharacter text)
  | [] => isFalse id
  | [c] => inferInstanceAs (Decidable (3 ≤ c.utf8Size))
  | _ :: _ :: rest =>
      @instDecidableOr _ _ inferInstance
        (@instDecidableOr _ _ inferInstance (@instDecidableAnd _ _ inferInstance (go rest)))

def pairBytes : List Char → Option (List UInt8)
  | [] => some []
  | [_] => none
  | c :: d :: rest =>
      match u8FromStrRadix16 [c, d] with
      | none => none
      | some byte => (pairBytes rest).map (byte :: ·)

theorem hexValue_ascii {c : Char} {digit : Nat} (h : hexValue c = some digit) : c.toNat < 0x80 := by
  unfold hexValue at h
  split_ifs at h <;> omega

/-- A pair of digits is the byte they denote. -/
theorem u8FromStrRadix16_digits {c d : Char} {x y : Nat} (hx : hexValue c = some x)
    (hy : hexValue d = some y) : u8FromStrRadix16 [c, d] = some (UInt8.ofNat (x * 16 + y)) := by
  have hplus : c ≠ '+' := by
    rintro rfl
    cases hx
  have hxlt := hexValue_lt hx
  have hylt := hexValue_lt hy
  have hfirst : x < 256 := by omega
  have hboth : x * 16 + y < 256 := by omega
  simp [u8FromStrRadix16, hplus, hx, hy, hfirst, hboth]

theorem u8FromStrRadix16_isSome {c d : Char} : (u8FromStrRadix16 [c, d]).isSome ↔ KeyPair c d := by
  by_cases hplus : c = '+'
  · subst hplus
    cases hd : hexValue d with
    | none => simp [u8FromStrRadix16, KeyPair, hd]
    | some y =>
        have hylt := hexValue_lt hd
        have hsmall : y < 256 := by omega
        simp [u8FromStrRadix16, KeyPair, hd, hsmall]
  · cases hc : hexValue c with
    | none => simp [u8FromStrRadix16, KeyPair, hplus, hc]
    | some x =>
        cases hd : hexValue d with
        | none =>
            have hxlt := hexValue_lt hc
            have hsmall : x < 256 := by omega
            simp [u8FromStrRadix16, KeyPair, hplus, hc, hd, hsmall]
        | some y => simp [u8FromStrRadix16_digits hc hd, KeyPair, hc, hd]

/-- A character of several bytes is neither a digit nor a plus sign. -/
theorem u8FromStrRadix16_wide {c : Char} (h : 2 ≤ c.utf8Size) (rest : List Char) :
    u8FromStrRadix16 (c :: rest) = none := by
  have hplus : c ≠ '+' := by
    rintro rfl
    exact absurd h (by decide)
  have hvalue : hexValue c = none := by
    by_contra hsome
    obtain ⟨x, hx⟩ := Option.ne_none_iff_exists'.mp hsome
    have hone := utf8Size_eq_one_iff.mpr (hexValue_ascii hx)
    omega
  simp [u8FromStrRadix16, hplus, hvalue]

theorem keyPair_ascii {c d : Char} (h : KeyPair c d) : c.toNat < 0x80 ∧ d.toNat < 0x80 := by
  obtain ⟨hc, hd⟩ := h
  obtain ⟨y, hy⟩ := Option.isSome_iff_exists.mp hd
  refine ⟨?_, hexValue_ascii hy⟩
  rcases hc with hc | rfl
  · obtain ⟨x, hx⟩ := Option.isSome_iff_exists.mp hc
    exact hexValue_ascii hx
  · decide

theorem pairBytes_isSome {text : List Char} : (pairBytes text).isSome ↔ KeyPairs text := by
  induction text using KeyPairs.induct with
  | case1 => simp [pairBytes, KeyPairs]
  | case2 c => simp [pairBytes, KeyPairs]
  | case3 c d rest ih =>
      rw [pairBytes, KeyPairs, ← u8FromStrRadix16_isSome, ← ih]
      cases u8FromStrRadix16 [c, d] with
      | none => simp
      | some byte => simp

/-- Digits are read as their bytes. -/
theorem pairBytes_of_hexDecode {text : List Char} {bytes : List UInt8}
    (h : hexDecode text = some bytes) : pairBytes text = some bytes := by
  induction text using hexDecode.induct generalizing bytes with
  | case1 => exact h
  | case2 c => cases h
  | case3 high low rest y x hlow hhigh ih =>
      simp only [hexDecode, hhigh, hlow, Option.map_eq_some_iff] at h
      obtain ⟨decoded, hdecoded, rfl⟩ := h
      rw [pairBytes, u8FromStrRadix16_digits hhigh hlow]
      dsimp only
      rw [ih hdecoded, Option.map_some]
  | case4 high low rest hvalue =>
      rw [hexDecode] at h
      split at h
      next x y hhigh hlow => exact (hvalue x y hhigh hlow).elim
      · cases h

/-- Pairs without a plus sign are digits. -/
theorem hexDecode_isSome {text : List Char} (h : KeyPairs text) (hplus : '+' ∉ text) :
    (hexDecode text).isSome := by
  induction text using KeyPairs.induct with
  | case1 => rfl
  | case2 c => cases h
  | case3 c d rest ih =>
      obtain ⟨⟨hc, hd⟩, hrest⟩ := h
      simp only [List.mem_cons, not_or] at hplus
      have hdigit : (hexValue c).isSome := hc.resolve_right fun hsame => hplus.1 hsame.symm
      obtain ⟨x, hx⟩ := Option.isSome_iff_exists.mp hdigit
      obtain ⟨y, hy⟩ := Option.isSome_iff_exists.mp hd
      have hmore := ih hrest hplus.2.2
      rw [hexDecode, hx, hy]
      simpa using hmore

/-- Where no plus sign stands for a digit, just the digits are read. -/
theorem pairBytes_eq_hexDecode {text : List Char} (h : ¬ SignedPairs text) :
    pairBytes text = hexDecode text := by
  cases hdecode : hexDecode text with
  | some bytes => exact pairBytes_of_hexDecode hdecode
  | none =>
      by_contra hsome
      have hpairs : KeyPairs text := pairBytes_isSome.mp (Option.isSome_iff_ne_none.mpr hsome)
      have hplus : '+' ∉ text := fun hmem => h ⟨hpairs, hmem⟩
      have hdigits := hexDecode_isSome hpairs hplus
      rw [hdecode] at hdigits
      cases hdigits

theorem keyPairs_ascii {text : List Char} (h : KeyPairs text) : ∀ c ∈ text, c.toNat < 0x80 := by
  induction text using KeyPairs.induct with
  | case1 => simp
  | case2 c => cases h
  | case3 c d rest ih =>
      obtain ⟨hpair, hrest⟩ := h
      obtain ⟨hc, hd⟩ := keyPair_ascii hpair
      intro e he
      rcases List.mem_cons.mp he with rfl | he
      · exact hc
      rcases List.mem_cons.mp he with rfl | he
      · exact hd
      · exact ih hrest e he

/-! The loop over the pairs. -/

theorem strSlice_pair {front rest : List Char} {i : Nat} (hfront : byteLength front = i * 2)
    (part : List Char) (hpart : byteLength part = 2) :
    strSlice (front ++ (part ++ rest)) (i * 2) (i * 2 + 2) = .ok part := by
  have hslice := strSlice_append front part rest
  rwa [byteLength_append, hfront, hpart, List.append_assoc] at hslice

theorem keyBytes_panics {left i : Nat} {front rest : List Char} (hfront : byteLength front = i * 2)
    (hpart : ∀ part more, rest = part ++ more → byteLength part ≠ 2) :
    keyBytes (front ++ rest) (left + 1) i = .error .outOfBounds := by
  have hslice : strSlice (front ++ rest) (i * 2) (i * 2 + 2) = .error .outOfBounds := by
    rw [← hfront]
    refine strSlice_panics fun part more hsplit => ?_
    have hlength := hpart part more hsplit
    omega
  rw [keyBytes, Checked.bind_panics hslice]

theorem keyBytes_stops {left i : Nat} {front part rest : List Char}
    (hfront : byteLength front = i * 2) (hpart : byteLength part = 2)
    (hvalue : u8FromStrRadix16 part = none) :
    keyBytes (front ++ (part ++ rest)) (left + 1) i = .ok none := by
  rw [keyBytes, Checked.bind_ok (strSlice_pair hfront part hpart), hvalue]
  rfl

theorem keyBytes_goes_on {left i : Nat} {front part rest : List Char} {byte : UInt8}
    (hfront : byteLength front = i * 2) (hpart : byteLength part = 2)
    (hvalue : u8FromStrRadix16 part = some byte) :
    keyBytes (front ++ (part ++ rest)) (left + 1) i =
      keyBytes (front ++ part ++ rest) left (i + 1) >>= fun bytes =>
        return bytes.map (byte :: ·) := by
  rw [keyBytes, Checked.bind_ok (strSlice_pair hfront part hpart), hvalue, List.append_assoc]

/-- What a first character means for the slice that starts with it. -/
theorem first_slice {c : Char} {rest : List Char} {left : Nat}
    (hrest : byteLength (c :: rest) = (left + 1) * 2) :
    (CutsCharacter (c :: rest) ∧ ∀ part more, c :: rest = part ++ more → byteLength part ≠ 2) ∨
      c.utf8Size = 2 ∨ ∃ d more, rest = d :: more ∧ c.utf8Size = 1 ∧ d.utf8Size = 1 := by
  have hfour := c.utf8Size_pos
  rw [byteLength_cons] at hrest
  by_cases hwide : 3 ≤ c.utf8Size
  · refine Or.inl ⟨?_, fun part more hsplit => ?_⟩
    · cases rest with
      | nil => exact hwide
      | cons d rest => exact Or.inl hwide
    · cases part with
      | nil => simp
      | cons first part =>
          obtain ⟨rfl, -⟩ := List.cons.inj hsplit
          rw [byteLength_cons]
          omega
  by_cases htwo : c.utf8Size = 2
  · exact Or.inr (Or.inl htwo)
  have hone : c.utf8Size = 1 := by omega
  cases rest with
  | nil =>
      rw [byteLength_nil] at hrest
      omega
  | cons d more =>
      have hdpos := d.utf8Size_pos
      by_cases hd : d.utf8Size = 1
      · exact Or.inr (Or.inr ⟨d, more, rfl, hone, hd⟩)
      refine Or.inl ⟨Or.inr (Or.inl ⟨hone, by omega⟩), fun part later hsplit => ?_⟩
      match part with
      | [] => simp
      | [first] =>
          obtain ⟨rfl, -⟩ := List.cons.inj hsplit
          rw [byteLength_cons, byteLength_nil]
          omega
      | first :: second :: part =>
          simp only [List.cons_append, List.cons.injEq] at hsplit
          obtain ⟨rfl, rfl, -⟩ := hsplit
          rw [byteLength_cons, byteLength_cons]
          omega

/-- A slice that is one character ends the loop. -/
theorem first_of_two_bytes {c : Char} {rest : List Char} (h : c.utf8Size = 2) :
    ¬ CutsCharacter (c :: rest) ∧ pairBytes (c :: rest) = none := by
  cases rest with
  | nil =>
      refine ⟨?_, rfl⟩
      rw [CutsCharacter]
      omega
  | cons d rest =>
      refine ⟨?_, by rw [pairBytes, u8FromStrRadix16_wide (by omega)]⟩
      rw [CutsCharacter]
      rintro (hwide | ⟨hone, -⟩ | ⟨hpair, -⟩)
      · omega
      · omega
      · have hascii := utf8Size_eq_one_iff.mpr (keyPair_ascii hpair).1
        omega

theorem cutsCharacter_pair {c d : Char} {rest : List Char} (hc : c.utf8Size = 1)
    (hd : d.utf8Size = 1) :
    CutsCharacter (c :: d :: rest) ↔ KeyPair c d ∧ CutsCharacter rest := by
  rw [CutsCharacter]
  constructor
  · rintro (hwide | ⟨-, hwide⟩ | hlater)
    · omega
    · omega
    · exact hlater
  · exact fun hlater => Or.inr (Or.inr hlater)

/-- From a boundary on the loop panics just where it would cut a character. -/
theorem keyBytes_eq {left i : Nat} {front rest : List Char}
    (hfront : byteLength front = i * 2) (hrest : byteLength rest = left * 2) :
    CutsCharacter rest ∧ keyBytes (front ++ rest) left i = .error .outOfBounds ∨
      ¬ CutsCharacter rest ∧ keyBytes (front ++ rest) left i = .ok (pairBytes rest) := by
  induction left generalizing i front rest with
  | zero =>
      cases rest with
      | nil => exact Or.inr ⟨id, rfl⟩
      | cons c rest =>
          have hpos := c.utf8Size_pos
          rw [byteLength_cons] at hrest
          omega
  | succ left ih =>
      cases rest with
      | nil => simp at hrest
      | cons c rest =>
          rcases first_slice hrest with ⟨hcuts, hpart⟩ | htwo | ⟨d, more, rfl, hc, hd⟩
          · exact Or.inl ⟨hcuts, keyBytes_panics hfront hpart⟩
          · obtain ⟨hnot, hnone⟩ := first_of_two_bytes htwo
            have hpart : byteLength [c] = 2 := by simp [htwo]
            rw [hnone]
            exact Or.inr ⟨hnot, keyBytes_stops hfront hpart (u8FromStrRadix16_wide (by omega) [])⟩
          · have hpart : byteLength [c, d] = 2 := by simp [hc, hd]
            rw [cutsCharacter_pair hc hd, ← u8FromStrRadix16_isSome, pairBytes]
            cases hvalue : u8FromStrRadix16 [c, d] with
            | none => exact Or.inr ⟨by simp, keyBytes_stops hfront hpart hvalue⟩
            | some byte =>
                have hnext : byteLength (front ++ [c, d]) = (i + 1) * 2 := by
                  rw [byteLength_append, hfront, hpart]
                  omega
                have hmore : byteLength more = left * 2 := by
                  simp only [byteLength_cons, hc, hd] at hrest
                  omega
                have hrun : keyBytes (front ++ ([c, d] ++ more)) (left + 1) i = _ :=
                  keyBytes_goes_on hfront hpart hvalue
                rcases ih hnext hmore with ⟨hcuts, hpanics⟩ | ⟨hnot, hreads⟩
                · exact Or.inl ⟨⟨rfl, hcuts⟩, hrun.trans (Checked.bind_panics hpanics)⟩
                · exact Or.inr ⟨fun hcuts => hnot hcuts.2, hrun.trans (Checked.bind_ok hreads)⟩

theorem keyFromHex_eq (s : List Char) :
    byteLength (trim s) ≠ 64 ∧ keyFromHex s = .ok none ∨
      byteLength (trim s) = 64 ∧
        (CutsCharacter (trim s) ∧ keyFromHex s = .error .outOfBounds ∨
          ¬ CutsCharacter (trim s) ∧ keyFromHex s = .ok (pairBytes (trim s))) := by
  by_cases hlength : byteLength (trim s) = 64
  · have hkey : keyFromHex s = keyBytes ([] ++ trim s) 32 0 := if_neg (not_not.mpr hlength)
    rw [hkey]
    exact Or.inr ⟨hlength, keyBytes_eq rfl hlength⟩
  · exact Or.inl ⟨hlength, if_pos hlength⟩

theorem length_of_hexDecode {text : List Char} {bytes : List UInt8}
    (h : hexDecode text = some bytes) : byteLength text = text.length := by
  have hpairs : KeyPairs text :=
    pairBytes_isSome.mp (by rw [pairBytes_of_hexDecode h, Option.isSome_some])
  exact byteLength_ascii (keyPairs_ascii hpairs)

/-- Apart from texts in which a plus sign stands for a digit or a slice cuts a
character, the call returns, and with a key just for 64 digits that may have
blanks around them. -/
theorem keyFromHex_correct (s : List Char)
    (h : byteLength (trim s) = 64 → ¬ SignedPairs (trim s) ∧ ¬ CutsCharacter (trim s)) :
    ∃ result, keyFromHex s = .ok result ∧
      ∀ key, result = some key ↔ (trim s).length = 64 ∧ hexDecode (trim s) = some key := by
  rcases keyFromHex_eq s with ⟨hlength, hresult⟩ | ⟨hlength, ⟨hcuts, -⟩ | ⟨-, hresult⟩⟩
  · refine ⟨none, hresult, fun key => ⟨nofun, ?_⟩⟩
    rintro ⟨hdigits, hdecode⟩
    exact (hlength ((length_of_hexDecode hdecode).trans hdigits)).elim
  · exact ((h hlength).2 hcuts).elim
  · refine ⟨_, hresult, fun key => ?_⟩
    rw [pairBytes_eq_hexDecode (h hlength).1]
    constructor
    · intro hdecode
      exact ⟨(length_of_hexDecode hdecode).symm.trans hlength, hdecode⟩
    · exact fun hdecode => hdecode.2

theorem keyFromHex_correct_of_digits :
    (∃ result, keyFromHex (' ' :: List.replicate 64 'a') = .ok result ∧
      ∀ key, result = some key ↔ (trim (' ' :: List.replicate 64 'a')).length = 64 ∧
        hexDecode (trim (' ' :: List.replicate 64 'a')) = some key) ∧
    ∃ result, keyFromHex (List.replicate 32 'é') = .ok result ∧
      ∀ key, result = some key ↔ (trim (List.replicate 32 'é')).length = 64 ∧
        hexDecode (trim (List.replicate 32 'é')) = some key :=
  ⟨keyFromHex_correct _ fun _ => by decide +kernel, keyFromHex_correct _ fun _ => by decide +kernel⟩

/-- Sixty-four digits after a blank are a key, and are not just 64 digits. -/
theorem keyFromHex_takes_blanks :
    ¬ ∀ s : List Char, ∃ result, keyFromHex s = .ok result ∧
      ∀ key, result = some key ↔ s.length = 64 ∧ hexDecode s = some key := by
  intro hclaim
  obtain ⟨result, hresult, hkey⟩ := hclaim (' ' :: List.replicate 64 '0')
  have hzeros : keyFromHex (' ' :: List.replicate 64 '0') = .ok (some (List.replicate 32 0)) := by
    decide +kernel
  obtain rfl := Except.ok.inj (hzeros.symm.trans hresult)
  exact absurd ((hkey _).mp rfl).1 (by decide)

end EvertyDesk.Evrt2
