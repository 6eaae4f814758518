import EvertyDesk.Launcher.LauncherStore
import EvertyDesk.Lib.PaddedOrder
import EvertyDesk.Lib.Splitting
import EvertyDesk.Lib.Trimming
import EvertyDesk.Lib.Utf8
import Mathlib.Algebra.Group.Nat.Defs

/-!
Which versions a manifest may announce, and which of two versions is newer. A version is
read as numbers between dots, dashes and plus signs; what is no number of 64 bits counts
as zero.
-/

namespace EvertyDesk.Launcher

def maxVersionBytes : Nat := 32

def maxNotesBytes : Nat := 8 * 1024

structure PlatformArtifact where
  url : List Char
  sha256 : List Char
deriving DecidableEq, Repr

structure UpdateManifest where
  version : List Char
  notes : List Char
  windows : Option PlatformArtifact
  macos : Option PlatformArtifact
deriving DecidableEq, Repr

def unsafeVersionByte (byte : UInt8) : Bool :=
  byte < 0x20 || byte == UInt8.ofNat '/'.toNat || byte == UInt8.ofNat '\\'.toNat

def validateManifestMetadata (manifest : UpdateManifest) : Except String Unit :=
  let version := utf8 (trim manifest.version)
  if version.isEmpty || maxVersionBytes < version.length then
    .error "manifest version must be 1..=32 bytes"
  else if version.any unsafeVersionByte then .error "manifest version contains unsafe characters"
  else if maxNotesBytes < (utf8 manifest.notes).length then
    .error "manifest notes exceed 8192 bytes"
  else .ok ()

/-! Comparing. -/

def decimalValue (digits : List Char) : Nat :=
  digits.foldl (fun value digit => value * 10 + (digit.toNat - '0'.toNat)) 0

def withoutPlus : List Char → List Char
  | '+' :: digits => digits
  | part => part

def parseU64 (part : List Char) : Option Nat :=
  let digits := withoutPlus part
  if digits.isEmpty || !digits.all Char.isDigit then none
  else if decimalValue digits < 2 ^ 64 then some (decimalValue digits)
  else none

def versionSeparator (character : Char) : Bool :=
  character == '.' || character == '-' || character == '+'

def partValue (part : List Char) : Nat := (parseU64 part).getD 0

def parseVersion (raw : List Char) : List Nat :=
  ((raw.dropWhile (· == 'v')).splitOnP versionSeparator).map partValue

def isNewerVersion (candidate current : List Char) : Bool :=
  firstExceeds (pairedWith 0 (parseVersion candidate) (parseVersion current))

/-! Versions. -/

def VersionAccepted (raw : List Char) : Prop :=
  validateManifestMetadata ⟨raw, [], none, none⟩ = .ok ()

instance (raw : List Char) : Decidable (VersionAccepted raw) := inferInstanceAs (Decidable (_ = _))

structure Version where
  raw : List Char
  accepted : VersionAccepted raw

/-- Numbers with dots between them. -/
def Dotted (raw : List Char) : Prop :=
  ∀ part ∈ raw.splitOn '.', part ≠ [] ∧ part.all Char.isDigit = true

def dottedNumbers (raw : List Char) : List Nat := (raw.splitOn '.').map decimalValue

def newerByNumbers (candidate current : List Char) : Bool :=
  firstExceeds (pairedWith 0 (dottedNumbers candidate) (dottedNumbers current))

/-- If it is of dotted numbers, each of them fits into 64 bits. -/
def Fits (raw : List Char) : Prop := Dotted raw → ∀ number ∈ dottedNumbers raw, number < 2 ^ 64

/-- White space makes the part beside it worthless, which may be worthless anyway. -/
def SpacesHarmless (raw : List Char) : Prop :=
  (raw.head?.any isWhitespace → (parseVersion (trim raw)).head? = some 0) ∧
    (raw.getLast?.any isWhitespace → (parseVersion (trim raw)).getLast? = some 0)

instance (raw : List Char) : Decidable (Dotted raw) := inferInstanceAs (Decidable (∀ _ ∈ _, _))

instance (raw : List Char) : Decidable (Fits raw) := inferInstanceAs (Decidable (_ → _))

instance (raw : List Char) : Decidable (SpacesHarmless raw) := inferInstanceAs (Decidable (_ ∧ _))

/-- How a version is to be compared. -/
structure ComparesRightly (a : Version) : Prop where
  withoutSpaces : ∀ b : Version, isNewerVersion a.raw b.raw = isNewerVersion (trim a.raw) b.raw ∧
    isNewerVersion b.raw a.raw = isNewerVersion b.raw (trim a.raw)
  withoutV : ∀ b : Version,
    isNewerVersion ('v' :: a.raw) b.raw = isNewerVersion a.raw b.raw ∧
      isNewerVersion b.raw ('v' :: a.raw) = isNewerVersion b.raw a.raw
  byNumbers : Dotted a.raw → ∀ b : Version, Dotted b.raw → Fits b.raw →
    isNewerVersion a.raw b.raw = newerByNumbers a.raw b.raw ∧
      isNewerVersion b.raw a.raw = newerByNumbers b.raw a.raw

/-! White space around a version. -/

theorem digit_bounds {c : Char} (h : c.isDigit = true) : 48 ≤ c.toNat ∧ c.toNat ≤ 57 := by
  simp only [Char.isDigit, Bool.and_eq_true, decide_eq_true_eq] at h
  exact ⟨h.1, h.2⟩

theorem isDigit_of_isWhitespace {c : Char} (h : isWhitespace c = true) : c.isDigit = false := by
  rw [Bool.eq_false_iff]
  intro hdigit
  have hbounds := digit_bounds hdigit
  simp [isWhitespace] at h
  omega

theorem ne_of_isWhitespace {c : Char} (h : isWhitespace c = true) (other : Char)
    (hother : isWhitespace other = false) : c ≠ other := by
  rintro rfl
  rw [h] at hother
  cases hother

theorem separator_of_isWhitespace {c : Char} (h : isWhitespace c = true) :
    versionSeparator c = false := by
  have hdot := ne_of_isWhitespace h '.' (by decide)
  have hdash := ne_of_isWhitespace h '-' (by decide)
  have hplus := ne_of_isWhitespace h '+' (by decide)
  simp [versionSeparator, hdot, hdash, hplus]

/-- A part with white space in it is no number. -/
theorem partValue_of_space {part : List Char} {c : Char} (h : c ∈ part)
    (hspace : isWhitespace c = true) : partValue part = 0 := by
  have hmem : c ∈ withoutPlus part := by
    unfold withoutPlus
    split
    · exact (List.mem_cons.mp h).resolve_left (ne_of_isWhitespace hspace '+' (by decide))
    · exact h
  have hnone : (withoutPlus part).all Char.isDigit = false :=
    List.all_eq_false.mpr ⟨c, hmem, by simp [isDigit_of_isWhitespace hspace]⟩
  rw [partValue, parseU64, hnone]
  simp

theorem parseVersion_ne_nil (raw : List Char) : parseVersion raw ≠ [] := by
  simp [parseVersion, List.splitOnP_ne_nil]

theorem parseVersion_append {back : List Char} (hne : back ≠ [])
    (hback : ∀ c ∈ back, isWhitespace c = true) (raw : List Char) :
    parseVersion (raw ++ back) = (parseVersion raw).dropLast ++ [0] := by
  obtain ⟨c, more, rfl⟩ := List.exists_cons_of_ne_nil hne
  have hc := hback c List.mem_cons_self
  have hdrop : (raw ++ c :: more).dropWhile (· == 'v') = raw.dropWhile (· == 'v') ++ c :: more := by
    rw [List.dropWhile_append]
    split
    next hempty =>
      rw [List.isEmpty_iff.mp hempty, List.nil_append, List.dropWhile_cons_of_neg]
      simpa using ne_of_isWhitespace hc 'v' (by decide)
    next => rfl
  have hclean : ∀ d ∈ c :: more, versionSeparator d = false :=
    fun d hmem => separator_of_isWhitespace (hback d hmem)
  rw [parseVersion, hdrop, splitOnP_append_clean hclean, List.map_append, List.map_singleton,
    partValue_of_space (List.mem_append_right _ List.mem_cons_self) hc, List.map_dropLast,
    parseVersion]

theorem append_parseVersion {front : List Char} (hne : front ≠ [])
    (hfront : ∀ c ∈ front, isWhitespace c = true) (raw : List Char) :
    parseVersion (front ++ raw) = 0 :: (parseVersion raw).tail := by
  obtain ⟨c, more, rfl⟩ := List.exists_cons_of_ne_nil hne
  have hc := hfront c List.mem_cons_self
  obtain ⟨first, rest, hpieces⟩ := List.exists_cons_of_ne_nil
    (List.splitOnP_ne_nil versionSeparator (raw.dropWhile (· == 'v')))
  have hclean : ∀ d ∈ (c :: more) ++ raw.takeWhile (· == 'v'), versionSeparator d = false := by
    intro d hmem
    rcases List.mem_append.mp hmem with hspace | hv
    · exact separator_of_isWhitespace (hfront d hspace)
    · have hd : d = 'v' := by simpa using List.mem_takeWhile_imp hv
      rw [hd]
      decide
  have hdrop : ((c :: more) ++ raw).dropWhile (· == 'v') =
      ((c :: more) ++ raw.takeWhile (· == 'v')) ++ raw.dropWhile (· == 'v') := by
    rw [List.append_assoc, List.takeWhile_append_dropWhile, List.cons_append,
      List.dropWhile_cons_of_neg]
    simpa using ne_of_isWhitespace hc 'v' (by decide)
  rw [parseVersion, hdrop, splitOnP_clean_append hclean hpieces, List.map_cons,
    partValue_of_space (List.mem_append_left _ (List.mem_append_left _ List.mem_cons_self)) hc,
    parseVersion, hpieces, List.map_cons, List.tail_cons]

/-- A zero in the last place changes nothing if there is one. -/
theorem dropLast_concat_zero {values : List Nat} (hne : values ≠ []) :
    values.dropLast ++ [0] = values ↔ values.getLast? = some 0 := by
  obtain ⟨before, last, rfl⟩ := List.eq_nil_or_concat values |>.resolve_left hne
  simp [eq_comm]

theorem zero_cons_tail {values : List Nat} (hne : values ≠ []) :
    0 :: values.tail = values ↔ values.head? = some 0 := by
  obtain ⟨first, rest, rfl⟩ := List.exists_cons_of_ne_nil hne
  simp [eq_comm]

theorem spaces_both {values : List Nat} (hne : values ≠ []) :
    0 :: (values.dropLast ++ [0]).tail = values ↔
      values.head? = some 0 ∧ values.getLast? = some 0 := by
  constructor
  · intro h
    have hlast : values.getLast? = some 0 := by
      rw [← h]
      cases hdrop : values.dropLast with
      | nil => rfl
      | cons first rest =>
          change ((0 :: rest) ++ [0]).getLast? = some 0
          exact List.getLast?_concat
    rw [(dropLast_concat_zero hne).mpr hlast] at h
    exact ⟨(zero_cons_tail hne).mp h, hlast⟩
  · rintro ⟨hhead, hlast⟩
    rw [(dropLast_concat_zero hne).mpr hlast]
    exact (zero_cons_tail hne).mpr hhead

theorem padded_parse_iff {raw : List Char} (hne : trim raw ≠ []) :
    padded 0 (parseVersion raw) = padded 0 (parseVersion (trim raw)) ↔ SpacesHarmless raw := by
  obtain ⟨front, back, hraw, hfront, hback⟩ := trimBy_split isWhitespace raw
  have htight := trimBy_tight isWhitespace raw
  have hvalues := parseVersion_ne_nil (trim raw)
  rw [← trim_eq_trimBy] at hraw htight
  have hstarts : raw.head?.any isWhitespace = !front.isEmpty := by
    rw [hraw]
    cases front with
    | nil =>
        obtain ⟨c, rest, hcore⟩ := List.exists_cons_of_ne_nil hne
        rw [hcore]
        exact htight.head c (by rw [hcore]; rfl)
    | cons c front => exact hfront c List.mem_cons_self
  have hends : raw.getLast?.any isWhitespace = !back.isEmpty := by
    rw [hraw]
    rcases List.eq_nil_or_concat back with rfl | ⟨before, c, rfl⟩
    · rw [List.append_nil, List.getLast?_append_of_ne_nil _ hne]
      obtain ⟨before, c, hcore⟩ := List.eq_nil_or_concat (trim raw) |>.resolve_left hne
      have hlast : (trim raw).getLast? = some c := by rw [hcore]; simp
      rw [hlast]
      exact htight.last c hlast
    · have hc := hback c (by simp)
      simp [hc]
  rw [SpacesHarmless, hstarts, hends]
  generalize trim raw = core at *
  subst hraw
  have hpos := List.length_pos_iff.mpr hvalues
  rcases eq_or_ne front [] with rfl | hsomeFront
  · rcases eq_or_ne back [] with rfl | hsomeBack
    · simp
    · rw [List.nil_append, parseVersion_append hsomeBack hback,
        padded_eq_of_length (by simp; omega), dropLast_concat_zero hvalues]
      simp [hsomeBack]
  · rw [List.append_assoc, append_parseVersion hsomeFront hfront]
    rcases eq_or_ne back [] with rfl | hsomeBack
    · rw [List.append_nil, padded_eq_of_length (by simp; omega), zero_cons_tail hvalues]
      simp [hsomeFront]
    · rw [parseVersion_append hsomeBack hback, padded_eq_of_length (by simp; omega),
        spaces_both hvalues]
      simp [hsomeFront, hsomeBack]

theorem accepted_iff {raw : List Char} :
    VersionAccepted raw ↔ utf8 (trim raw) ≠ [] ∧ (utf8 (trim raw)).length ≤ maxVersionBytes ∧
      ∀ byte ∈ utf8 (trim raw), unsafeVersionByte byte = false := by
  rw [VersionAccepted, validateManifestMetadata]
  simp only [utf8_nil, List.length_nil]
  split
  next hlength =>
    simp only [Bool.or_eq_true, List.isEmpty_iff, decide_eq_true_eq] at hlength
    simp only [reduceCtorEq, false_iff, not_and]
    intro hne hle
    rcases hlength with hnil | hlong
    · exact absurd hnil hne
    · omega
  next hlength =>
    simp only [Bool.or_eq_true, List.isEmpty_iff, decide_eq_true_eq, not_or] at hlength
    split
    next hany =>
      obtain ⟨byte, hmem, hbyte⟩ := List.any_eq_true.mp hany
      simp only [reduceCtorEq, false_iff, not_and, not_forall]
      exact fun _ _ => ⟨byte, hmem, by simp [hbyte]⟩
    next hnone =>
      rw [Bool.not_eq_true, List.any_eq_false] at hnone
      simp only [maxNotesBytes, Nat.not_lt_zero, if_false, true_iff]
      exact ⟨hlength.1, Nat.not_lt.mp hlength.2, fun byte hmem => by simpa using hnone byte hmem⟩

theorem Version.trim_ne_nil (version : Version) : trim version.raw ≠ [] := by
  intro hnil
  have hne := (accepted_iff.mp version.accepted).1
  rw [hnil] at hne
  exact hne rfl

def Version.trimmed (version : Version) : Version where
  raw := trim version.raw
  accepted := by
    have h := accepted_iff.mp version.accepted
    rwa [accepted_iff, trim_trim]

theorem isNewerVersion_self (raw : List Char) : isNewerVersion raw raw = false := by
  rw [← Bool.not_eq_true, isNewerVersion, firstExceeds_paired]
  exact lt_irrefl _

theorem withoutSpaces_iff {version : Version} :
    (∀ b : Version,
      isNewerVersion version.raw b.raw = isNewerVersion (trim version.raw) b.raw ∧
        isNewerVersion b.raw version.raw = isNewerVersion b.raw (trim version.raw)) ↔
      SpacesHarmless version.raw := by
  rw [← padded_parse_iff version.trim_ne_nil]
  constructor
  · intro h
    obtain ⟨hnewer, holder⟩ := h version.trimmed
    have hself := isNewerVersion_self (trim version.raw)
    exact padded_eq_of_level (hnewer.trans hself) (holder.trans hself)
  · intro h b
    exact ⟨firstExceeds_congr h rfl, firstExceeds_congr rfl h⟩

theorem parseVersion_v (raw : List Char) : parseVersion ('v' :: raw) = parseVersion raw := by
  rw [parseVersion, List.dropWhile_cons_of_pos (by decide), parseVersion]

/-! Dotted numbers. -/

def clampNumber (number : Nat) : Nat := if number < 2 ^ 64 then number else 0

theorem Dotted.char {raw : List Char} (h : Dotted raw) {c : Char} (hmem : c ∈ raw) :
    c = '.' ∨ c.isDigit = true := by
  rcases mem_splitOn_of_mem '.' hmem with hdot | ⟨part, hpart, hc⟩
  · exact .inl hdot
  · exact .inr (List.all_eq_true.mp (h part hpart).2 c hc)

theorem partValue_of_digits {part : List Char} (hne : part ≠ [])
    (hdigits : part.all Char.isDigit = true) :
    partValue part = clampNumber (decimalValue part) := by
  have hplus : withoutPlus part = part := by
    unfold withoutPlus
    split
    next digits =>
      have hdigit := List.all_eq_true.mp hdigits '+' List.mem_cons_self
      cases hdigit
    next => rfl
  rw [partValue, parseU64, hplus, hdigits, clampNumber]
  simp only [List.isEmpty_eq_false_iff.mpr hne, Bool.not_true, Bool.or_self, Bool.false_eq_true,
    if_false]
  split <;> rfl

/-- What is read of dotted numbers is the numbers, with zero for those that are too big. -/
theorem parseVersion_of_dotted {raw : List Char} (h : Dotted raw) :
    parseVersion raw = (dottedNumbers raw).map clampNumber := by
  have hdrop : raw.dropWhile (· == 'v') = raw := by
    apply dropWhile_tight
    intro c hc
    rcases h.char (List.mem_of_mem_head? hc) with rfl | hdigit
    · rfl
    · rw [beq_eq_false_iff_ne]
      rintro rfl
      cases hdigit
  have hsplit : raw.splitOnP versionSeparator = raw.splitOn '.' := by
    rw [List.splitOn_eq_splitOnP]
    apply splitOnP_congr
    intro c hc
    rcases h.char hc with rfl | hdigit
    · rfl
    · have hbounds := digit_bounds hdigit
      have hother (d : Char) (hd : d.toNat < 48) : (c == d) = false := by
        rw [beq_eq_false_iff_ne]
        rintro rfl
        omega
      simp [versionSeparator, hother '.' (by decide), hother '-' (by decide),
        hother '+' (by decide)]
  rw [parseVersion, hdrop, hsplit, dottedNumbers, List.map_map]
  exact List.map_congr_left fun part hpart => partValue_of_digits (h part hpart).1 (h part hpart).2

theorem parseVersion_of_fits {raw : List Char} (h : Dotted raw) (hfits : Fits raw) :
    parseVersion raw = dottedNumbers raw := by
  rw [parseVersion_of_dotted h]
  conv_rhs => rw [← List.map_id (dottedNumbers raw)]
  exact List.map_congr_left fun number hmem => if_pos (hfits h number hmem)

/-! The version with zero for the numbers that are too big. -/

def clampPart (part : List Char) : List Char :=
  if decimalValue part < 2 ^ 64 then part else ['0']

def clampVersion (raw : List Char) : List Char :=
  ['.'].intercalate ((raw.splitOn '.').map clampPart)

theorem decimalValue_clampPart (part : List Char) :
    decimalValue (clampPart part) = clampNumber (decimalValue part) := by
  rw [clampPart, clampNumber]
  split <;> rfl

theorem clampPart_digits {part : List Char} (h : part ≠ [] ∧ part.all Char.isDigit = true) :
    clampPart part ≠ [] ∧ (clampPart part).all Char.isDigit = true := by
  rw [clampPart]
  split
  · exact h
  · decide

theorem splitOn_clampVersion {raw : List Char} (h : Dotted raw) :
    (clampVersion raw).splitOn '.' = (raw.splitOn '.').map clampPart := by
  apply List.splitOn_intercalate
  · intro piece hpiece hdot
    obtain ⟨part, hpart, rfl⟩ := List.mem_map.mp hpiece
    have hdigit := List.all_eq_true.mp (clampPart_digits (h part hpart)).2 '.' hdot
    cases hdigit
  · simp

theorem clampVersion_dotted {raw : List Char} (h : Dotted raw) : Dotted (clampVersion raw) := by
  intro piece hpiece
  rw [splitOn_clampVersion h] at hpiece
  obtain ⟨part, hpart, rfl⟩ := List.mem_map.mp hpiece
  exact clampPart_digits (h part hpart)

theorem dottedNumbers_clampVersion {raw : List Char} (h : Dotted raw) :
    dottedNumbers (clampVersion raw) = (dottedNumbers raw).map clampNumber := by
  rw [dottedNumbers, splitOn_clampVersion h, dottedNumbers, List.map_map, List.map_map]
  exact List.map_congr_left fun part _ => decimalValue_clampPart part

theorem clampVersion_fits {raw : List Char} (h : Dotted raw) : Fits (clampVersion raw) := by
  intro _ number hmem
  rw [dottedNumbers_clampVersion h] at hmem
  obtain ⟨other, -, rfl⟩ := List.mem_map.mp hmem
  rw [clampNumber]
  split
  · assumption
  · decide

theorem clampVersion_length_le {raw : List Char} (h : Dotted raw) :
    (clampVersion raw).length ≤ raw.length := by
  have hparts : ∀ part ∈ raw.splitOn '.', (clampPart part).length ≤ part.length := by
    intro part hpart
    rw [clampPart]
    split
    · exact le_rfl
    · exact List.length_pos_iff.mpr (h part hpart).1
  have hle := length_intercalate_map_le hparts ['.']
  rwa [List.intercalate_splitOn] at hle

theorem Dotted.not_isWhitespace {raw : List Char} (h : Dotted raw) :
    ∀ c ∈ raw, isWhitespace c = false := by
  intro c hc
  rw [Bool.eq_false_iff]
  intro hspace
  rcases h.char hc with rfl | hdigit
  · cases hspace
  · rw [isDigit_of_isWhitespace hspace] at hdigit
    cases hdigit

theorem Dotted.code {raw : List Char} (h : Dotted raw) :
    ∀ c ∈ raw, 46 ≤ c.toNat ∧ c.toNat ≤ 57 ∧ c.toNat ≠ 47 := by
  intro c hc
  rcases h.char hc with rfl | hdigit
  · decide
  · have := digit_bounds hdigit
    omega

theorem safe_version_byte {n : Nat} (hlow : 46 ≤ n) (hhigh : n ≤ 57) (hslash : n ≠ 47) :
    unsafeVersionByte (UInt8.ofNat n) = false := by
  have hnat : (UInt8.ofNat n).toNat = n := by
    rw [UInt8.toNat_ofNat']
    omega
  have hother (k : Nat) (hk : k < 256) (hdiffer : n ≠ k) :
      (UInt8.ofNat n == UInt8.ofNat k) = false := by
    rw [beq_eq_false_iff_ne]
    intro hsame
    have hsame := congrArg UInt8.toNat hsame
    rw [hnat, UInt8.toNat_ofNat'] at hsame
    omega
  have hcontrol : ¬ UInt8.ofNat n < 0x20 := by
    rw [UInt8.lt_iff_toNat_lt, hnat]
    change ¬ n < 32
    omega
  rw [unsafeVersionByte, hother '/'.toNat (by decide) hslash,
    hother '\\'.toNat (by decide) (by change n ≠ 92; omega)]
  simpa using hcontrol

/-- Whether dotted numbers are accepted is a matter of length. -/
theorem Dotted.accepted_iff {raw : List Char} (h : Dotted raw) :
    VersionAccepted raw ↔ raw.length ≤ maxVersionBytes := by
  have htrim : trim raw = raw := trimBy_of_tight
    ⟨fun c hc => h.not_isWhitespace c (List.mem_of_mem_head? hc),
      fun c hc => h.not_isWhitespace c (List.mem_of_mem_getLast? hc)⟩
  have hutf8 := utf8_ascii fun c hc => (h.code c hc).2.1.trans_lt (by decide : 57 < 0x80)
  have hne : raw ≠ [] := by
    rintro rfl
    exact (h [] (by decide)).1 rfl
  rw [Launcher.accepted_iff, htrim, hutf8]
  constructor
  · rintro ⟨-, hlength, -⟩
    rwa [List.length_map] at hlength
  · intro hlength
    refine ⟨by simpa using hne, by rwa [List.length_map], fun byte hbyte => ?_⟩
    obtain ⟨c, hc, rfl⟩ := List.mem_map.mp hbyte
    obtain ⟨hlow, hhigh, hslash⟩ := h.code c hc
    exact safe_version_byte hlow hhigh hslash

theorem byNumbers_iff {version : Version} (h : Dotted version.raw) :
    (∀ b : Version, Dotted b.raw → Fits b.raw →
      isNewerVersion version.raw b.raw = newerByNumbers version.raw b.raw ∧
        isNewerVersion b.raw version.raw = newerByNumbers b.raw version.raw) ↔
      Fits version.raw := by
  constructor
  · intro hall
    have hclamped := clampVersion_dotted h
    have haccepted : VersionAccepted (clampVersion version.raw) :=
      hclamped.accepted_iff.mpr ((clampVersion_length_le h).trans
        (h.accepted_iff.mp version.accepted))
    obtain ⟨hnewer, holder⟩ := hall ⟨clampVersion version.raw, haccepted⟩ hclamped
      (clampVersion_fits h)
    -- the code takes the two for level
    have hparse : parseVersion version.raw = parseVersion (clampVersion version.raw) := by
      rw [parseVersion_of_fits hclamped (clampVersion_fits h), dottedNumbers_clampVersion h,
        parseVersion_of_dotted h]
    have hself := isNewerVersion_self (clampVersion version.raw)
    rw [isNewerVersion] at hself hnewer holder
    rw [hparse, hself] at hnewer
    rw [hparse, hself] at holder
    have hlevel := padded_eq_of_level hnewer.symm holder.symm
    rw [dottedNumbers_clampVersion h, padded_eq_of_length (by simp)] at hlevel
    intro _ number hmem
    rw [hlevel] at hmem
    obtain ⟨other, -, rfl⟩ := List.mem_map.mp hmem
    rw [clampNumber]
    split
    · assumption
    · decide
  · intro hfits b hb hbfits
    rw [isNewerVersion, isNewerVersion, newerByNumbers, newerByNumbers,
      parseVersion_of_fits h hfits, parseVersion_of_fits hb hbfits]
    exact ⟨rfl, rfl⟩

/-- Versions are ordered up to being level. One is compared as it should be if it has no
white space beside a part that counts, and no number that does not fit. -/
theorem version_compares_iff (version : Version) :
    IsStrictWeakOrder Version (fun a b => isNewerVersion a.raw b.raw = true) ∧
      (ComparesRightly version ↔ SpacesHarmless version.raw ∧ Fits version.raw) := by
  constructor
  · exact strictWeakOrder_of_padded 0 (fun a => parseVersion a.raw) fun _ _ => Iff.rfl
  · constructor
    · intro h
      exact ⟨withoutSpaces_iff.mp h.withoutSpaces,
        fun hdotted => byNumbers_iff hdotted |>.mp (h.byNumbers hdotted) hdotted⟩
    · rintro ⟨hspaces, hfits⟩
      constructor
      · exact withoutSpaces_iff.mpr hspaces
      · intro b
        simp only [isNewerVersion, parseVersion_v, and_self]
      · exact fun hdotted => (byNumbers_iff hdotted).mpr hfits

/-- White space hides an update, and so does a number of more than 64 bits. -/
theorem updates_hidden :
    (VersionAccepted " 2.0.0".toList ∧ VersionAccepted "1.9.0".toList ∧
        isNewerVersion " 2.0.0".toList "1.9.0".toList = false ∧
        isNewerVersion (trim " 2.0.0".toList) "1.9.0".toList = true) ∧
      VersionAccepted "18446744073709551616".toList ∧ Dotted "18446744073709551616".toList ∧
        isNewerVersion "18446744073709551616".toList "1.9.0".toList = false ∧
        newerByNumbers "18446744073709551616".toList "1.9.0".toList = true := by
  decide +kernel

end EvertyDesk.Launcher
