import EvertyDesk.Lib.Checked
import EvertyDesk.Lib.Chunks
import EvertyDesk.Evrtck.Format
import Mathlib.Data.List.TakeWhile

/-!
Zero-run length encoding: runs of zero bytes are counted, everything else is
copied. The decoder takes the tokens of the encoder back, and it does not panic
on any bytes that an entry can hold.
-/

namespace EvertyDesk.Evrtck

/-- The shortest run of zeros that is worth a token. -/
def zrleMinRun : Nat := 4

/-- How many zeros the bytes start with. The source counts eight at a time as
long as it can. -/
def zeroRun (src : List UInt8) : Nat := (src.takeWhile (· == 0)).length

/-- How many bytes there are before the next long run of zeros. -/
def literalRun : List UInt8 → Nat
  | [] => 0
  | byte :: rest =>
      if byte = 0 ∧ zrleMinRun ≤ zeroRun (byte :: rest) then 0
      else literalRun rest + 1

def zeroTokens (zeros : Nat) : List UInt8 :=
  (chunks 65535 (List.replicate zeros (0 : UInt8))).flatMap fun run =>
    0x00 :: leBytes 2 run.length

def literalTokens (bytes : List UInt8) : List UInt8 :=
  (chunks 65535 bytes).flatMap fun run => 0x01 :: (leBytes 2 run.length ++ run)

/-- Every round takes at least a byte, so that `fuel` for all bytes is enough. -/
def zrleEncodeLoop : Nat → List UInt8 → List UInt8
  | 0, _ => []
  | _ + 1, [] => []
  | fuel + 1, byte :: rest =>
      let src := byte :: rest
      let zeros := zeroRun src
      if zrleMinRun ≤ zeros ∨ 0 < zeros ∧ zeros = src.length then
        zeroTokens zeros ++ zrleEncodeLoop fuel (src.drop zeros)
      else
        let literals := literalRun src
        literalTokens (src.take literals) ++ zrleEncodeLoop fuel (src.drop literals)

def zrleEncode (src : List UInt8) : List UInt8 := zrleEncodeLoop src.length src

/-- The position in the encoded bytes and the bytes decoded so far. -/
structure ZrleReading where
  pos : Nat
  out : List UInt8

/-- Read one token at the position. -/
def zrleToken (src : List UInt8) : Proc ZrleReading EvrtckError Unit := do
  let s ← Proc.get
  let tag ← Checked.index src s.pos
  let pos ← Checked.add s.pos 1
  let argumentEnd ← Checked.add pos 2
  if tag = 0x00 then
    if argumentEnd > src.length then Proc.fail .invalidDelta
    else do
      let argument ← Checked.slice src pos argumentEnd
      let size ← Checked.add s.out.length (leNat argument)
      Checked.allocate size
      Proc.set ⟨argumentEnd, s.out ++ List.replicate (leNat argument) 0⟩
  else if tag = 0x01 then
    if argumentEnd > src.length then Proc.fail .invalidDelta
    else do
      let argument ← Checked.slice src pos argumentEnd
      let stop ← Checked.add argumentEnd (leNat argument)
      if stop > src.length then Proc.fail .invalidDelta
      else do
        let literals ← Checked.slice src argumentEnd stop
        let size ← Checked.add s.out.length literals.length
        Checked.allocate size
        Proc.set ⟨stop, s.out ++ literals⟩
  else Proc.fail .invalidDelta

/-- Every token takes at least a byte, so that `fuel` for all bytes is enough. -/
def zrleDecodeLoop (src : List UInt8) : Nat → Proc ZrleReading EvrtckError (List UInt8)
  | 0 => do return (← Proc.get).out
  | fuel + 1 => do
      let s ← Proc.get
      if s.pos < src.length then do
        zrleToken src
        zrleDecodeLoop src fuel
      else return s.out

def zrleDecode (src : List UInt8) : Checked (Except EvrtckError (List UInt8)) := do
  let (outcome, _) ← zrleDecodeLoop src src.length ⟨0, []⟩
  return outcome

/-! The encoder. -/

theorem zeroRun_le (src : List UInt8) : zeroRun src ≤ src.length :=
  (List.takeWhile_prefix _).length_le

theorem take_zeroRun (src : List UInt8) :
    src.take (zeroRun src) = List.replicate (zeroRun src) 0 := by
  have htake : src.take (zeroRun src) = src.takeWhile (· == 0) :=
    (List.prefix_iff_eq_take.mp (List.takeWhile_prefix _)).symm
  rw [htake, zeroRun, List.eq_replicate_iff]
  refine ⟨rfl, fun byte hbyte => ?_⟩
  simpa using List.mem_takeWhile_imp hbyte

theorem literalRun_le (src : List UInt8) : literalRun src ≤ src.length := by
  induction src with
  | nil => exact Nat.le_refl _
  | cons byte rest ih =>
      rw [literalRun, List.length_cons]
      split <;> omega

/-- Without a long run of zeros ahead there is something to copy. -/
theorem literalRun_pos {byte : UInt8} {rest : List UInt8}
    (h : zeroRun (byte :: rest) < zrleMinRun) : 0 < literalRun (byte :: rest) := by
  rw [literalRun, if_neg (by omega)]
  omega

/-- Token streams never get much longer than what they stand for. -/
private theorem tokens_length_le {bytes : List UInt8} {token : List UInt8 → List UInt8}
    (htoken : ∀ run, (token run).length ≤ 3 + run.length) :
    ((chunks 65535 bytes).flatMap token).length ≤ 4 * bytes.length := by
  have hsum : ∀ runs : List (List UInt8), (∀ run ∈ runs, run ≠ []) →
      (runs.flatMap token).length ≤ 4 * runs.flatten.length := by
    intro runs
    induction runs with
    | nil => simp
    | cons run runs ih =>
        intro hsome
        have hrest := ih fun other hother => hsome other (List.mem_cons_of_mem _ hother)
        have hpos := List.length_pos_iff.mpr (hsome run List.mem_cons_self)
        have hthis := htoken run
        rw [List.flatMap_cons, List.flatten_cons, List.length_append, List.length_append]
        omega
  have hchunks := hsum (chunks 65535 bytes) (by
    intro run hrun
    obtain ⟨index, hindex, rfl⟩ := List.mem_map.mp hrun
    exact List.length_pos_iff.mp (chunk_length_pos (by decide) (List.mem_range.mp hindex)))
  rwa [chunks_flatten (by decide)] at hchunks

theorem zeroTokens_length_le (zeros : Nat) : (zeroTokens zeros).length ≤ 4 * zeros := by
  have hle : (zeroTokens zeros).length ≤ 4 * (List.replicate zeros (0 : UInt8)).length :=
    tokens_length_le (by simp)
  rwa [List.length_replicate] at hle

theorem literalTokens_length_le (bytes : List UInt8) :
    (literalTokens bytes).length ≤ 4 * bytes.length := by
  apply tokens_length_le
  intro run
  simp only [List.length_cons, List.length_append, leBytes_length]
  omega

theorem zrleEncode_length_le (src : List UInt8) : (zrleEncode src).length ≤ 4 * src.length := by
  have hloop : ∀ (fuel : Nat) (src : List UInt8),
      (zrleEncodeLoop fuel src).length ≤ 4 * src.length := by
    intro fuel
    induction fuel with
    | zero => exact fun _ => Nat.zero_le _
    | succ fuel ih =>
        intro src
        cases src with
        | nil => exact Nat.zero_le _
        | cons byte rest =>
            have hzeros := zeroRun_le (byte :: rest)
            have hliterals := literalRun_le (byte :: rest)
            simp only [zrleEncodeLoop]
            split
            · have hhead := zeroTokens_length_le (zeroRun (byte :: rest))
              have htail := ih ((byte :: rest).drop (zeroRun (byte :: rest)))
              rw [List.length_drop] at htail
              rw [List.length_append]
              omega
            · have hhead := literalTokens_length_le
                ((byte :: rest).take (literalRun (byte :: rest)))
              have htail := ih ((byte :: rest).drop (literalRun (byte :: rest)))
              rw [List.length_drop] at htail
              rw [List.length_take, Nat.min_eq_left hliterals] at hhead
              rw [List.length_append]
              omega
  exact hloop _ _

/-! Tokens one after the other, whatever they come to. -/

/-- What the first token stands for, and the bytes behind it. -/
def firstToken : List UInt8 → Option (List UInt8 × List UInt8)
  | tag :: low :: high :: rest =>
      let count := leNat [low, high]
      if tag = 0x00 then some (List.replicate count 0, rest)
      else if tag = 0x01 ∧ count ≤ rest.length then some (rest.take count, rest.drop count)
      else none
  | _ => none

theorem firstToken_cons {tag : UInt8} {argument : List UInt8} (h : argument.length = 2)
    (rest : List UInt8) :
    firstToken (tag :: (argument ++ rest)) =
      if tag = 0x00 then some (List.replicate (leNat argument) 0, rest)
      else if tag = 0x01 ∧ leNat argument ≤ rest.length then
        some (rest.take (leNat argument), rest.drop (leNat argument))
      else none := by
  match argument with
  | [low, high] => rfl

theorem firstToken_shorter {bytes run rest : List UInt8} (h : firstToken bytes = some (run, rest)) :
    rest.length + 3 ≤ bytes.length ∧ run.length ≤ 65535 := by
  match bytes with
  | tag :: low :: high :: more =>
      have hcount : leNat [low, high] < 256 ^ 2 := leNat_lt [low, high]
      simp only [firstToken] at h
      split_ifs at h with hzeros hliterals
      · simp only [Option.some.injEq, Prod.mk.injEq] at h
        obtain ⟨rfl, rfl⟩ := h
        simp only [List.length_cons, List.length_replicate]
        omega
      · simp only [Option.some.injEq, Prod.mk.injEq] at h
        obtain ⟨rfl, rfl⟩ := h
        simp only [List.length_cons, List.length_take, List.length_drop]
        omega

/-- The list that the tokens stand for. -/
def zrleTokens (bytes : List UInt8) : Except EvrtckError (List UInt8) :=
  if bytes = [] then .ok []
  else
    match _h : firstToken bytes with
    | none => .error .invalidDelta
    | some (run, rest) => (zrleTokens rest).map (run ++ ·)
termination_by bytes.length
decreasing_by
  have hshorter := firstToken_shorter _h
  omega

/-- How many bytes are put out before the tokens end or are no tokens. -/
def zrleSize (bytes : List UInt8) : Nat :=
  match _h : firstToken bytes with
  | none => 0
  | some (run, rest) => run.length + zrleSize rest
termination_by bytes.length
decreasing_by
  have hshorter := firstToken_shorter _h
  omega

theorem zrleTokens_nil : zrleTokens [] = .ok [] := by
  rw [zrleTokens, if_pos rfl]

theorem zrleTokens_cons {bytes run rest : List UInt8} (h : firstToken bytes = some (run, rest)) :
    zrleTokens bytes = (zrleTokens rest).map (run ++ ·) := by
  have hsome : bytes ≠ [] := by
    rintro rfl
    cases h
  rw [zrleTokens, if_neg hsome]
  split
  next hnone => exact absurd (hnone.symm.trans h) nofun
  next run' rest' hfirst =>
    obtain ⟨rfl, rfl⟩ := Prod.mk.inj (Option.some.inj (hfirst.symm.trans h))
    rfl

theorem zrleTokens_fails {bytes : List UInt8} (hsome : bytes ≠ [])
    (h : firstToken bytes = none) : zrleTokens bytes = .error .invalidDelta := by
  rw [zrleTokens, if_neg hsome]
  split
  next => rfl
  next run' rest' hfirst => exact absurd (hfirst.symm.trans h) nofun

theorem zrleSize_cons {bytes run rest : List UInt8}
    (h : firstToken bytes = some (run, rest)) : zrleSize bytes = run.length + zrleSize rest := by
  rw [zrleSize]
  split
  next hnone => exact absurd (hnone.symm.trans h) nofun
  next run' rest' hfirst =>
    obtain ⟨rfl, rfl⟩ := Prod.mk.inj (Option.some.inj (hfirst.symm.trans h))
    rfl

theorem zrleSize_fails {bytes : List UInt8} (h : firstToken bytes = none) : zrleSize bytes = 0 := by
  rw [zrleSize]
  split
  next => rfl
  next run' rest' hfirst => exact absurd (hfirst.symm.trans h) nofun

theorem zrleSize_le (bytes : List UInt8) : zrleSize bytes ≤ 65535 * bytes.length := by
  induction hlength : bytes.length using Nat.strong_induction_on generalizing bytes with
  | h length ih =>
      cases hfirst : firstToken bytes with
      | none => rw [zrleSize_fails hfirst]; omega
      | some parts =>
          obtain ⟨run, rest⟩ := parts
          obtain ⟨hshorter, hrun⟩ := firstToken_shorter hfirst
          have hrest := ih rest.length (by omega) rest rfl
          rw [zrleSize_cons hfirst]
          omega

/-- The size of a list that tokens stand for is its length. -/
theorem zrleSize_of_zrleTokens {bytes out : List UInt8} (h : zrleTokens bytes = .ok out) :
    zrleSize bytes = out.length := by
  induction hlength : bytes.length using Nat.strong_induction_on generalizing bytes out with
  | h length ih =>
      cases hfirst : firstToken bytes with
      | none =>
          by_cases hempty : bytes = []
          · subst hempty
            rw [zrleTokens_nil] at h
            cases h
            exact zrleSize_fails rfl
          · rw [zrleTokens_fails hempty hfirst] at h
            cases h
      | some parts =>
          obtain ⟨run, rest⟩ := parts
          have hshorter := (firstToken_shorter hfirst).1
          rw [zrleTokens_cons hfirst] at h
          cases hrest : zrleTokens rest with
          | error error =>
              rw [hrest] at h
              cases h
          | ok tail =>
              rw [hrest] at h
              cases h
              rw [zrleSize_cons hfirst, ih rest.length (by omega) hrest rfl, List.length_append]

/-! What the encoder writes stands for what it has read. -/

theorem firstToken_zeros {count : Nat} (h : count ≤ 65535) (rest : List UInt8) :
    firstToken (0x00 :: (leBytes 2 count ++ rest)) = some (List.replicate count 0, rest) := by
  rw [firstToken_cons (leBytes_length 2 count), if_pos rfl, leNat_leBytes_of_lt (by omega)]

theorem firstToken_literals {run : List UInt8} (h : run.length ≤ 65535) (rest : List UInt8) :
    firstToken (0x01 :: (leBytes 2 run.length ++ (run ++ rest))) = some (run, rest) := by
  have hroom : run.length ≤ (run ++ rest).length := by
    rw [List.length_append]
    omega
  rw [firstToken_cons (leBytes_length 2 run.length), leNat_leBytes_of_lt (by omega),
    if_neg (by decide), if_pos ⟨rfl, hroom⟩, List.take_left, List.drop_left]

/-- One run after the other, when every run's token stands for it. -/
private theorem zrleTokens_runs {token : List UInt8 → List UInt8} {runs : List (List UInt8)}
    (htoken : ∀ run ∈ runs, ∀ rest, firstToken (token run ++ rest) = some (run, rest))
    (rest : List UInt8) :
    zrleTokens (runs.flatMap token ++ rest) = (zrleTokens rest).map (runs.flatten ++ ·) := by
  induction runs with
  | nil =>
      rw [List.flatMap_nil, List.nil_append]
      cases zrleTokens rest <;> rfl
  | cons run runs ih =>
      have hthis := htoken run List.mem_cons_self (runs.flatMap token ++ rest)
      have hrest := ih fun other hother => htoken other (List.mem_cons_of_mem _ hother)
      rw [List.flatMap_cons, List.append_assoc, zrleTokens_cons hthis, hrest]
      cases zrleTokens rest with
      | error error => rfl
      | ok tail =>
          rw [List.flatten_cons, Except.map, Except.map, Except.map, List.append_assoc]

/-- The runs of a list of one item are runs of that item. -/
private theorem mem_chunks_zeros {zeros : Nat} {run : List UInt8}
    (h : run ∈ chunks 65535 (List.replicate zeros (0 : UInt8))) :
    run = List.replicate run.length 0 := by
  obtain ⟨index, _, rfl⟩ := List.mem_map.mp h
  simp [chunk]

theorem zrleTokens_zeroTokens (zeros : Nat) (rest : List UInt8) :
    zrleTokens (zeroTokens zeros ++ rest) =
      (zrleTokens rest).map (List.replicate zeros 0 ++ ·) := by
  have hflatten : (chunks 65535 (List.replicate zeros (0 : UInt8))).flatten =
      List.replicate zeros 0 := chunks_flatten (by decide) _
  rw [← hflatten]
  apply zrleTokens_runs
  intro run hrun rest
  have hfirst := firstToken_zeros (mem_chunks_length_le hrun) rest
  rwa [← mem_chunks_zeros hrun] at hfirst

theorem zrleTokens_literalTokens (literals rest : List UInt8) :
    zrleTokens (literalTokens literals ++ rest) = (zrleTokens rest).map (literals ++ ·) := by
  have hflatten : (chunks 65535 literals).flatten = literals := chunks_flatten (by decide) _
  have hruns : zrleTokens (literalTokens literals ++ rest) =
      (zrleTokens rest).map ((chunks 65535 literals).flatten ++ ·) := by
    apply zrleTokens_runs
    intro run hrun rest
    rw [List.cons_append, List.append_assoc]
    exact firstToken_literals (mem_chunks_length_le hrun) rest
  rwa [hflatten] at hruns

/-- A round of the encoder takes its run off the front. -/
theorem zrleTokens_encodeLoop {fuel : Nat} {src : List UInt8} (h : src.length ≤ fuel) :
    zrleTokens (zrleEncodeLoop fuel src) = .ok src := by
  induction fuel generalizing src with
  | zero =>
      rw [List.eq_nil_of_length_eq_zero (Nat.le_zero.mp h)]
      exact zrleTokens_nil
  | succ fuel ih =>
      cases src with
      | nil => exact zrleTokens_nil
      | cons byte rest =>
          have hround (count : Nat) (hcount : 0 < count) :
              (zrleTokens (zrleEncodeLoop fuel ((byte :: rest).drop count))).map
                ((byte :: rest).take count ++ ·) = .ok (byte :: rest) := by
            have hshorter : ((byte :: rest).drop count).length ≤ fuel := by
              rw [List.length_drop]
              omega
            rw [ih hshorter, Except.map, List.take_append_drop]
          simp only [zrleEncodeLoop]
          split
          next hlong =>
            have hmin : 0 < zrleMinRun := by decide
            rw [zrleTokens_zeroTokens, ← take_zeroRun]
            exact hround _ (by omega)
          next hliterals =>
            rw [not_or] at hliterals
            rw [zrleTokens_literalTokens]
            exact hround _ (literalRun_pos (by omega))

/-! The decoder. -/

section Token

variable {src argument rest : List UInt8} {tag : UInt8} {pos : Nat} {out : List UInt8}

/-- The bytes at a position are too few for a token, or a tag and an argument. -/
private theorem drop_cases (hpos : pos < src.length) :
    (∃ tag more, src.drop pos = tag :: more ∧ more.length < 2) ∨
      ∃ tag argument rest, src.drop pos = tag :: (argument ++ rest) ∧ argument.length = 2 := by
  rcases hdrop : src.drop pos with _ | ⟨tag, _ | ⟨low, _ | ⟨high, rest⟩⟩⟩
  · rw [List.drop_eq_nil_iff] at hdrop
    omega
  · exact Or.inl ⟨tag, [], rfl, by simp⟩
  · exact Or.inl ⟨tag, [low], rfl, by simp⟩
  · exact Or.inr ⟨tag, [low, high], rest, rfl, rfl⟩

/-- The tag is read. -/
private theorem zrleToken_tag {more : List UInt8} (hsrc : src.drop pos = tag :: more)
    (hshort : src.length < Checked.sizeLimit) :
    pos + 1 + more.length = src.length ∧ Checked.index src pos = .ok tag ∧
      Checked.add pos 1 = .ok (pos + 1) ∧ Checked.add (pos + 1) 2 = .ok (pos + 3) := by
  have hlimit : Checked.sizeLimit + 3 < Checked.wordLimit := by decide
  have hle : pos ≤ src.length := by
    by_contra hlt
    rw [List.drop_eq_nil_of_le (by omega)] at hsrc
    cases hsrc
  have hlength := Checked.length_of_drop hsrc hle
  rw [List.length_cons] at hlength
  exact ⟨by omega, Checked.index_of_drop hsrc, Checked.add_ok (by omega), Checked.add_ok (by omega)⟩

/-- The argument is read. -/
private theorem zrleToken_argument (hsrc : src.drop pos = tag :: (argument ++ rest))
    (hargument : argument.length = 2) (hle : pos + 1 ≤ src.length) :
    Checked.slice src (pos + 1) (pos + 3) = .ok argument ∧ src.drop (pos + 3) = rest := by
  have hnext : src.drop (pos + 1) = argument ++ rest := by
    rw [← List.singleton_append] at hsrc
    exact Checked.drop_further hsrc
  have hrest := Checked.drop_further hnext
  rw [hargument] at hrest
  exact ⟨Checked.slice_of_drop hnext hle (by omega), hrest⟩

/-- What is no token is refused. -/
theorem zrleToken_fails (hshort : src.length < Checked.sizeLimit) (hpos : pos < src.length)
    (h : firstToken (src.drop pos) = none) :
    zrleToken src ⟨pos, out⟩ = .ok (.error .invalidDelta, ⟨pos, out⟩) := by
  have hlimit : Checked.sizeLimit + 65538 < Checked.wordLimit := by decide
  rcases drop_cases hpos with ⟨tag, more, hsrc, hmore⟩ | ⟨tag, argument, rest, hsrc, hargument⟩
  · obtain ⟨hlength, htag, hnext, hend⟩ := zrleToken_tag hsrc hshort
    have hover : pos + 3 > src.length := by omega
    unfold zrleToken
    rw [Proc.get_bind, Proc.lift_bind htag, Proc.lift_bind hnext, Proc.lift_bind hend, if_pos hover]
    split_ifs <;> rfl
  · obtain ⟨hlength, htag, hnext, hend⟩ := zrleToken_tag hsrc hshort
    obtain ⟨hslice, hdrop⟩ := zrleToken_argument hsrc hargument (by omega)
    have hcount := leNat_lt argument
    rw [hargument] at hcount
    rw [List.length_append, hargument] at hlength
    rw [hsrc, firstToken_cons hargument] at h
    split_ifs at h with hzeros hliterals
    unfold zrleToken
    rw [Proc.get_bind, Proc.lift_bind htag, Proc.lift_bind hnext, Proc.lift_bind hend,
      if_neg hzeros]
    split
    next hone =>
      have hover : pos + 3 + leNat argument > src.length := by
        by_contra hroom
        exact hliterals ⟨hone, by omega⟩
      rw [if_neg (by omega), Proc.lift_bind hslice, Proc.lift_bind (Checked.add_ok (by omega)),
        if_pos hover, Proc.fail_run]
    · rw [Proc.fail_run]

/-- A token is read as what it stands for. -/
theorem zrleToken_reads {run : List UInt8} (hshort : src.length < Checked.sizeLimit)
    (hpos : pos < src.length) (h : firstToken (src.drop pos) = some (run, rest))
    (hout : out.length + run.length < Checked.sizeLimit) :
    ∃ pos', src.drop pos' = rest ∧ pos < pos' ∧ pos' ≤ src.length ∧
      zrleToken src ⟨pos, out⟩ = .ok (.ok (), ⟨pos', out ++ run⟩) := by
  have hlimit : Checked.sizeLimit + 65538 < Checked.wordLimit := by decide
  rcases drop_cases hpos with ⟨tag, more, hsrc, hmore⟩ | ⟨tag, argument, more, hsrc, hargument⟩
  · have hshorter := (firstToken_shorter h).1
    rw [hsrc, List.length_cons] at hshorter
    omega
  obtain ⟨hlength, htag, hnext, hend⟩ := zrleToken_tag hsrc hshort
  obtain ⟨hslice, hdrop⟩ := zrleToken_argument hsrc hargument (by omega)
  have hcount := leNat_lt argument
  rw [hargument] at hcount
  rw [List.length_append, hargument] at hlength
  rw [hsrc, firstToken_cons hargument] at h
  split_ifs at h with hzeros hliterals
  · obtain ⟨rfl, rfl⟩ := Prod.mk.inj (Option.some.inj h)
    rw [List.length_replicate] at hout
    refine ⟨pos + 3, hdrop, by omega, by omega, ?_⟩
    unfold zrleToken
    rw [Proc.get_bind, Proc.lift_bind htag, Proc.lift_bind hnext, Proc.lift_bind hend,
      if_pos hzeros, if_neg (by omega), Proc.lift_bind hslice,
      Proc.lift_bind (Checked.add_ok (by dsimp only; omega)),
      Proc.lift_bind (Checked.allocate_ok hout)]
    rfl
  · obtain ⟨hone, hroom⟩ := hliterals
    obtain ⟨rfl, rfl⟩ := Prod.mk.inj (Option.some.inj h)
    have hcopy : Checked.slice src (pos + 3) (pos + 3 + leNat argument) =
        .ok (more.take (leNat argument)) := by
      rw [Checked.slice_ok (by omega) (by omega), hdrop, Nat.add_sub_cancel_left]
    refine ⟨pos + 3 + leNat argument, ?_, by omega, by omega, ?_⟩
    · rw [← hdrop, List.drop_drop]
    unfold zrleToken
    rw [Proc.get_bind, Proc.lift_bind htag, Proc.lift_bind hnext, Proc.lift_bind hend,
      if_neg hzeros, if_pos hone, if_neg (by omega), Proc.lift_bind hslice,
      Proc.lift_bind (Checked.add_ok (by omega)), if_neg (by omega), Proc.lift_bind hcopy,
      Proc.lift_bind (Checked.add_ok (by dsimp only; omega)),
      Proc.lift_bind (Checked.allocate_ok hout)]
    rfl

end Token

private theorem zrleDecodeLoop_end {src : List UInt8} {pos : Nat} (hdone : src.length ≤ pos)
    (fuel : Nat) (out : List UInt8) :
    ∃ s, zrleDecodeLoop src fuel ⟨pos, out⟩ =
      .ok ((zrleTokens (src.drop pos)).map (out ++ ·), s) := by
  rw [List.drop_eq_nil_of_le hdone, zrleTokens_nil, Except.map, List.append_nil]
  cases fuel with
  | zero => exact ⟨_, rfl⟩
  | succ fuel =>
      rw [zrleDecodeLoop, Proc.get_bind, if_neg (Nat.not_lt.mpr hdone)]
      exact ⟨_, rfl⟩

/-- The loop goes over the tokens, as long as what they come to fits into
memory. -/
theorem zrleDecodeLoop_eq {src : List UInt8} (hshort : src.length < Checked.sizeLimit)
    {fuel pos : Nat} {out : List UInt8} (hfuel : src.length - pos ≤ fuel)
    (hout : out.length + zrleSize (src.drop pos) < Checked.sizeLimit) :
    ∃ s, zrleDecodeLoop src fuel ⟨pos, out⟩ =
      .ok ((zrleTokens (src.drop pos)).map (out ++ ·), s) := by
  induction fuel generalizing pos out with
  | zero => exact zrleDecodeLoop_end (by omega) 0 out
  | succ fuel ih =>
      by_cases hmore : pos < src.length
      · rw [zrleDecodeLoop, Proc.get_bind, if_pos hmore]
        cases hfirst : firstToken (src.drop pos) with
        | none =>
            have hsome : src.drop pos ≠ [] := by
              rw [ne_eq, List.drop_eq_nil_iff]
              omega
            rw [Proc.bind_fails (zrleToken_fails hshort hmore hfirst),
              zrleTokens_fails hsome hfirst]
            exact ⟨_, rfl⟩
        | some parts =>
            obtain ⟨run, rest⟩ := parts
            rw [zrleSize_cons hfirst] at hout
            obtain ⟨pos', hdrop, hlater, hpos', hread⟩ :=
              zrleToken_reads hshort hmore hfirst (by omega : out.length + run.length < _)
            have hroom : (out ++ run).length + zrleSize (src.drop pos') <
                Checked.sizeLimit := by
              rw [List.length_append, hdrop]
              omega
            obtain ⟨s, hrun⟩ := ih (by omega) hroom
            refine ⟨s, ?_⟩
            rw [Proc.bind_returns hread, hrun, hdrop, zrleTokens_cons hfirst]
            cases zrleTokens rest with
            | error error => rfl
            | ok tail => rw [Except.map, Except.map, Except.map, List.append_assoc]
      · exact zrleDecodeLoop_end (by omega) _ out

/-- The decoder puts out what the tokens stand for. -/
theorem zrleDecode_eq {src : List UInt8} (hshort : src.length < Checked.sizeLimit)
    (hsize : zrleSize src < Checked.sizeLimit) :
    zrleDecode src = .ok (zrleTokens src) := by
  have hroom : ([] : List UInt8).length + zrleSize (src.drop 0) < Checked.sizeLimit := by
    rw [List.length_nil, List.drop_zero]
    omega
  obtain ⟨s, hrun⟩ := zrleDecodeLoop_eq hshort (Nat.sub_le src.length 0) hroom
  rw [zrleDecode, hrun, List.drop_zero]
  cases zrleTokens src <;> rfl

/-- The round trip. -/
theorem zrleDecode_zrleEncode {src : List UInt8} (hshort : src.length < 2 ^ 60) :
    zrleDecode (zrleEncode src) = .ok (.ok src) := by
  have hlimit : 2 ^ 62 < Checked.sizeLimit := by decide
  have hlength := zrleEncode_length_le src
  have hround : zrleTokens (zrleEncode src) = .ok src := zrleTokens_encodeLoop le_rfl
  have hsize := zrleSize_of_zrleTokens hround
  rw [zrleDecode_eq (by omega) (by omega), hround]

/-- No bytes of a 32-bit length make the decoder panic. -/
theorem zrleDecode_total {src : List UInt8} (hshort : src.length < 2 ^ 32) :
    ∃ outcome, zrleDecode src = .ok outcome := by
  have hlimit : 65535 * 2 ^ 32 < Checked.sizeLimit := by decide
  have hsize := zrleSize_le src
  exact ⟨_, zrleDecode_eq (by omega) (by omega)⟩

end EvertyDesk.Evrtck
