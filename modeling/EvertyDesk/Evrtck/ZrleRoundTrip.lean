import EvertyDesk.Evrtck.Decoder

/-!
The encoder as its loops go: zeros are counted eight at a time as long as all
eight are zero, long runs are cut from the front, and every round takes at least
a byte. A decoded run is painted only if it has the length of its tile.
-/

namespace EvertyDesk.Evrtck

/-- The words of eight zeros in front. -/
def zeroWords : List UInt8 → Nat
  | a :: b :: c :: d :: e :: f :: g :: h :: rest =>
      if [a, b, c, d, e, f, g, h] = List.replicate 8 0 then zeroWords rest + 8 else 0
  | _ => 0

/-- Words first, and then the zeros left over. -/
def zeroScan (src : List UInt8) : Nat := zeroWords src + zeroRun (src.drop (zeroWords src))

def literalScan : List UInt8 → Nat
  | [] => 0
  | byte :: rest =>
      if byte = 0 ∧ zrleMinRun ≤ zeroScan (byte :: rest) then 0 else literalScan rest + 1

/-- `while rem > 0`. -/
def pushZeros (rem : Nat) : List UInt8 :=
  if rem = 0 then []
  else
    let n := min rem 65535
    0x00 :: (leBytes 2 n ++ pushZeros (rem - n))
termination_by rem

/-- `while j < lit_len`, on the literals that are left. -/
def pushLiterals (literals : List UInt8) : List UInt8 :=
  if literals = [] then []
  else
    let n := min literals.length 65535
    0x01 :: (leBytes 2 n ++ (literals.take n ++ pushLiterals (literals.drop n)))
termination_by literals.length
decreasing_by
  have hpos := List.length_pos_iff.mpr ‹literals ≠ []›
  rw [List.length_drop]
  omega

theorem zeroScan_eq (src : List UInt8) : zeroScan src = zeroRun src := by
  induction src using zeroWords.induct with
  | case1 a b c d e f g h rest hzeros ih =>
      simp only [List.replicate, List.cons.injEq] at hzeros
      obtain ⟨rfl, rfl, rfl, rfl, rfl, rfl, rfl, rfl, -⟩ := hzeros
      have hwords : zeroWords (0 :: 0 :: 0 :: 0 :: 0 :: 0 :: 0 :: 0 :: rest) =
          zeroWords rest + 8 := if_pos rfl
      have hrun : zeroRun (0 :: 0 :: 0 :: 0 :: 0 :: 0 :: 0 :: 0 :: rest) =
          zeroRun rest + 8 := by simp [zeroRun]
      rw [zeroScan] at ih
      rw [zeroScan, hwords, hrun, ← ih]
      simp only [List.drop_succ_cons]
      omega
  | case2 a b c d e f g h rest hzeros =>
      have hwords : zeroWords (a :: b :: c :: d :: e :: f :: g :: h :: rest) = 0 := if_neg hzeros
      rw [zeroScan, hwords, List.drop_zero, Nat.zero_add]
  | case3 src hshort => simp [zeroScan, zeroWords]

theorem literalScan_eq (src : List UInt8) : literalScan src = literalRun src := by
  induction src with
  | nil => rfl
  | cons byte rest ih => rw [literalScan, literalRun, zeroScan_eq, ih]

/-- A round on zeros takes some. -/
theorem zeroScan_pos {src : List UInt8} {length : Nat}
    (h : zrleMinRun ≤ zeroScan src ∨ 0 < zeroScan src ∧ zeroScan src = length) :
    0 < zeroScan src := by
  have hmin : 0 < zrleMinRun := by decide
  omega

/-- A round on literals takes some. -/
theorem literalScan_pos {byte : UInt8} {rest : List UInt8} {length : Nat}
    (h : ¬ (zrleMinRun ≤ zeroScan (byte :: rest) ∨
      0 < zeroScan (byte :: rest) ∧ zeroScan (byte :: rest) = length)) :
    0 < literalScan (byte :: rest) := by
  rw [zeroScan_eq, not_or] at h
  rw [literalScan_eq]
  exact literalRun_pos (by omega)

theorem drop_shorter {byte : UInt8} {rest : List UInt8} {count : Nat} (h : 0 < count) :
    ((byte :: rest).drop count).length < (byte :: rest).length := by
  rw [List.length_drop, List.length_cons]
  omega

/-- `while i < src.len()`, on the bytes that are left. -/
def zrleRounds (src : List UInt8) : List UInt8 :=
  match src with
  | [] => []
  | byte :: rest =>
      let src := byte :: rest
      let zeros := zeroScan src
      if _hzeros : zrleMinRun ≤ zeros ∨ 0 < zeros ∧ zeros = src.length then
        pushZeros zeros ++ zrleRounds (src.drop zeros)
      else
        let literals := literalScan src
        pushLiterals (src.take literals) ++ zrleRounds (src.drop literals)
termination_by src.length
decreasing_by
  · exact drop_shorter (zeroScan_pos _hzeros)
  · exact drop_shorter (literalScan_pos _hzeros)

theorem pushLiterals_eq (literals : List UInt8) :
    pushLiterals literals = literalTokens literals := by
  induction literals using pushLiterals.induct with
  | case1 => simp [pushLiterals, literalTokens]
  | case2 literals hsome n ih =>
      have htake : literals.take n = literals.take 65535 := by
        rw [List.take_eq_take_iff]
        omega
      have hdrop : literals.drop n = literals.drop 65535 := by
        rw [List.drop_eq_drop_iff]
        omega
      have hlength : (literals.take 65535).length = n := by
        rw [List.length_take, Nat.min_comm]
      rw [pushLiterals, if_neg hsome]
      change 0x01 :: (leBytes 2 n ++ (literals.take n ++ pushLiterals (literals.drop n))) = _
      rw [ih, literalTokens, literalTokens, chunks_of_ne_nil (by decide) hsome,
        List.flatMap_cons, hlength, htake, hdrop]
      simp

theorem pushZeros_eq (zeros : Nat) : pushZeros zeros = zeroTokens zeros := by
  induction zeros using pushZeros.induct with
  | case1 => simp [pushZeros, zeroTokens]
  | case2 rem hsome n ih =>
      have hitems : List.replicate rem (0 : UInt8) ≠ [] := by simp [hsome]
      have hlength : ((List.replicate rem (0 : UInt8)).take 65535).length = n := by
        rw [List.length_take, List.length_replicate, Nat.min_comm]
      have hdrop : (List.replicate rem (0 : UInt8)).drop 65535 = List.replicate (rem - n) 0 := by
        have hleft : rem - 65535 = rem - n := by omega
        rw [List.drop_replicate, hleft]
      rw [pushZeros, if_neg hsome]
      change 0x00 :: (leBytes 2 n ++ pushZeros (rem - n)) = _
      rw [ih, zeroTokens, zeroTokens, chunks_of_ne_nil (by decide) hitems,
        List.flatMap_cons, hlength, hdrop]
      simp

theorem zrleEncodeLoop_eq {fuel : Nat} {src : List UInt8} (h : src.length ≤ fuel) :
    zrleEncodeLoop fuel src = zrleRounds src := by
  induction fuel generalizing src with
  | zero =>
      rw [List.eq_nil_of_length_eq_zero (Nat.le_zero.mp h), zrleRounds]
      rfl
  | succ fuel ih =>
      cases src with
      | nil =>
          rw [zrleRounds]
          rfl
      | cons byte rest =>
          have hshorter {count : Nat} (hcount : 0 < count) :
              ((byte :: rest).drop count).length ≤ fuel := by
            have hdrop : ((byte :: rest).drop count).length < (byte :: rest).length :=
              drop_shorter hcount
            omega
          rw [zrleRounds, zrleEncodeLoop]
          dsimp only
          rw [← zeroScan_eq, ← literalScan_eq]
          split
          next hzeros =>
            rw [pushZeros_eq, ih (hshorter (zeroScan_pos hzeros))]
          next hzeros =>
            rw [pushLiterals_eq, ih (hshorter (literalScan_pos hzeros))]

theorem zrleTokens_zrleRounds (src : List UInt8) : zrleTokens (zrleRounds src) = .ok src := by
  rw [← zrleEncodeLoop_eq le_rfl]
  exact zrleTokens_encodeLoop le_rfl

/-- A decoded run is painted only if it is as long as its tile. -/
theorem paintTiles_lengths {width : Nat}
    {tiles : List (TileEntry × Except EvrtckError TilePixels)} {s t : Decoding}
    (h : paintTiles width tiles s = .ok (.ok (), t)) :
    ∀ entry delta, (entry, .ok (.delta delta)) ∈ tiles →
      delta.length = (entry.rect.x1 - entry.rect.x0) * 4 * (entry.rect.y1 - entry.rect.y0) := by
  induction tiles generalizing s with
  | nil => simp
  | cons tile tiles ih =>
      obtain ⟨entry, pixels⟩ := tile
      unfold paintTiles at h
      obtain ⟨tw, htw, h⟩ := Proc.returned_of_lift h
      obtain ⟨tw4, htw4, h⟩ := Proc.returned_of_lift h
      obtain rfl := Checked.mul_returns htw4
      obtain rfl := Checked.sub_returns htw
      intro entry' delta' hmem
      cases pixels with
      | error error => cases h
      | ok pixels =>
          cases pixels with
          | solid color =>
              dsimp only at h
              rw [Proc.get_bind] at h
              obtain ⟨frame, -, h⟩ := Proc.returned_of_lift h
              rw [Proc.set_bind] at h
              exact ih h entry' delta' ((List.mem_cons.mp hmem).resolve_left nofun)
          | delta delta =>
              dsimp only at h
              obtain ⟨th, hth, h⟩ := Proc.returned_of_lift h
              obtain ⟨expected, hexpected, h⟩ := Proc.returned_of_lift h
              obtain rfl := Checked.mul_returns hexpected
              obtain rfl := Checked.sub_returns hth
              split at h
              · cases h
              next hlength =>
                rcases List.mem_cons.mp hmem with hsame | hmem
                · cases hsame
                  exact not_not.mp hlength
                · rw [Proc.get_bind] at h
                  obtain ⟨frame, -, h⟩ := Proc.returned_of_lift h
                  rw [Proc.set_bind] at h
                  exact ih h entry' delta' hmem

/-- Encoding comes to an end and is undone by decoding. Decoding takes no length:
it gives what the tokens stand for, and the length is asked for where a tile is
painted. -/
theorem zrle_correct :
    (∀ src : List UInt8, zrleEncode src = zrleRounds src ∧
      zrleTokens (zrleRounds src) = .ok src ∧
      (src.length < Checked.sizeLimit → (zrleRounds src).length < Checked.sizeLimit →
        zrleDecode (zrleRounds src) = .ok (.ok src))) ∧
    (∀ bytes : List UInt8, bytes.length < Checked.sizeLimit →
      zrleSize bytes < Checked.sizeLimit → zrleDecode bytes = .ok (zrleTokens bytes)) ∧
    ∀ (width : Nat) (tiles : List (TileEntry × Except EvrtckError TilePixels)) (s t : Decoding),
      paintTiles width tiles s = .ok (.ok (), t) →
        ∀ entry delta, (entry, .ok (.delta delta)) ∈ tiles →
          delta.length = (entry.rect.x1 - entry.rect.x0) * 4 * (entry.rect.y1 - entry.rect.y0) := by
  refine ⟨fun src => ⟨zrleEncodeLoop_eq le_rfl, zrleTokens_zrleRounds src, ?_⟩,
    fun bytes => zrleDecode_eq, fun width tiles s t h => paintTiles_lengths h⟩
  intro hsrc hencoded
  have hround := zrleTokens_zrleRounds src
  have hsize := zrleSize_of_zrleTokens hround
  rw [zrleDecode_eq hencoded (by omega), hround]

/-- A byte and four zeros, two tokens, and a tile of one pixel. -/
theorem zrle_correct_of_five :
    zrleDecode (zrleRounds [5, 0, 0, 0, 0]) = .ok (.ok [5, 0, 0, 0, 0]) ∧
      zrleDecode [0x00, 1, 0, 0x01, 1, 0, 7] = .ok (zrleTokens [0x00, 1, 0, 0x01, 1, 0, 7]) ∧
      ([1, 2, 3, 4] : List UInt8).length = (1 - 0) * 4 * (1 - 0) := by
  refine ⟨?_, ?_, ?_⟩
  · apply (zrle_correct.1 [5, 0, 0, 0, 0]).2.2 (by decide)
    rw [← (zrle_correct.1 [5, 0, 0, 0, 0]).1]
    decide
  · have hsize := zrleSize_le [0x00, 1, 0, 0x01, 1, 0, 7]
    exact zrle_correct.2.1 _ (by decide) (Nat.lt_of_le_of_lt hsize (by decide))
  · let entry : TileEntry := ⟨0, ⟨0, 0, 1, 1⟩, modeDelta, 0, 0⟩
    exact zrle_correct.2.2 1 [(entry, .ok (.delta [1, 2, 3, 4]))] ⟨0, [9, 9, 9, 9]⟩
      ⟨0, [8, 11, 10, 13]⟩ rfl entry [1, 2, 3, 4] List.mem_cons_self

/-- The decoder gives one zero where two bytes are wanted. -/
theorem zrleDecode_takes_no_length :
    ¬ ∀ (bytes : List UInt8) (length : Nat), ∃ outcome, zrleDecode bytes = .ok outcome ∧
      ∀ out, outcome = .ok out → out.length = length := by
  intro hclaim
  obtain ⟨outcome, hdecode, hlength⟩ := hclaim [0x00, 1, 0] 2
  have hone : zrleDecode [0x00, 1, 0] = .ok (.ok [0]) := by rfl
  obtain rfl := Except.ok.inj (hone.symm.trans hdecode)
  exact absurd (hlength [0] rfl) (by decide)

end EvertyDesk.Evrtck
