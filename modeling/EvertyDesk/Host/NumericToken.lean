import EvertyDesk.Lib.Masks

/-!
The identifier and the password of a first run. Both are digits of the clock, xored with
the process id: the one of a first reading, the other of a second one a little later.
-/

namespace EvertyDesk.Host

/-- The last digit comes first, and seventeen is added to what is left. -/
def tokenDigits : Nat → Nat → List Char
  | 0, _ => []
  | len + 1, value => Char.ofNat ('0'.toNat + value % 10) :: tokenDigits len (value / 10 + 17)

/-- A token of this many digits, when the clock shows these nanoseconds. -/
def generateNumericToken (nanos : Nat) (pid : UInt32) (len : Nat) : String :=
  String.ofList (tokenDigits len (nanos ^^^ pid.toNat))

structure AppConfig where
  localId : String
  localPassword : String
deriving DecidableEq, Repr

/-- The configuration of a first run, whose second look at the clock comes this many
nanoseconds after the first. -/
def loadOrCreate (nanos delay : Nat) (pid : UInt32) : AppConfig where
  localId := generateNumericToken nanos pid 9
  localPassword := generateNumericToken (nanos + delay) pid 6

/-- Who knows the identifier, the process id and the delay does not know the password. -/
def Underivable (pid : UInt32) (delay : Nat) : Prop :=
  ∃ nanos nanos', (loadOrCreate nanos delay pid).localId = (loadOrCreate nanos' delay pid).localId ∧
    (loadOrCreate nanos delay pid).localPassword ≠ (loadOrCreate nanos' delay pid).localPassword

theorem digit_injective {value other : Nat}
    (h : Char.ofNat ('0'.toNat + value % 10) = Char.ofNat ('0'.toNat + other % 10)) :
    value % 10 = other % 10 := by
  have hcode : ∀ digit, digit < 10 →
      (Char.ofNat ('0'.toNat + digit)).toNat = '0'.toNat + digit := by decide
  have hsame := congrArg Char.toNat h
  rw [hcode _ (Nat.mod_lt _ (by norm_num)), hcode _ (Nat.mod_lt _ (by norm_num))] at hsame
  exact Nat.add_left_cancel hsame

/-- The digits of a token are what the value leaves on the power of ten. -/
theorem tokenDigits_eq_iff {len value other : Nat} :
    tokenDigits len value = tokenDigits len other ↔ value ≡ other [MOD 10 ^ len] := by
  induction len generalizing value other with
  | zero => simp [tokenDigits, Nat.modEq_one]
  | succ len ih =>
      have hdigits : value ≡ other [MOD 10 ^ (len + 1)] ↔
          value % 10 = other % 10 ∧ value / 10 ≡ other / 10 [MOD 10 ^ len] := by
        rw [pow_succ', Nat.ModEq, Nat.ModEq, Nat.mod_mul, Nat.mod_mul]
        have hlow := Nat.mod_lt value (by norm_num : 0 < 10)
        have hlow' := Nat.mod_lt other (by norm_num : 0 < 10)
        omega
      rw [tokenDigits, tokenDigits, List.cons.injEq, ih, hdigits]
      constructor
      · rintro ⟨hdigit, hrest⟩
        exact ⟨digit_injective hdigit, Nat.ModEq.add_right_cancel' 17 hrest⟩
      · rintro ⟨hdigit, hrest⟩
        exact ⟨by rw [hdigit], hrest.add_right 17⟩

theorem generateNumericToken_eq_iff {nanos nanos' len : Nat} {pid : UInt32} :
    generateNumericToken nanos pid len = generateNumericToken nanos' pid len ↔
      (nanos ^^^ pid.toNat) ≡ (nanos' ^^^ pid.toNat) [MOD 10 ^ len] := by
  rw [generateNumericToken, generateNumericToken, String.ofList_inj, tokenDigits_eq_iff]

theorem underivable_iff_not_determines {pid : UInt32} {delay : Nat} :
    Underivable pid delay ↔ ¬ Determines pid.toNat delay (2 ^ 9 * 5 ^ 9) (2 ^ 6 * 5 ^ 6) := by
  have hten : ∀ len, 2 ^ len * 5 ^ len = 10 ^ len := fun len => (Nat.mul_pow 2 5 len).symm
  simp only [Underivable, loadOrCreate, Determines, hten, ne_eq, generateNumericToken_eq_iff]
  push Not
  rfl

/-- The identifier leaves the password open exactly when the process id reaches above the
nine bits that the last nine digits show, and the delay below the top bit of it. -/
theorem underivable_iff (pid : UInt32) (delay : Nat) :
    Underivable pid delay ↔ 512 ≤ pid.toNat ∧ ¬ 2 ^ pid.toNat.size ∣ delay := by
  have hodd : Odd (5 ^ 9) := by decide
  have hdvd : 5 ^ 6 ∣ 5 ^ 9 := pow_dvd_pow 5 (by norm_num)
  rw [underivable_iff_not_determines, determines_iff hodd (by norm_num) hdvd (by norm_num)]
  push Not
  norm_num

/-- Two looks at the clock within one of its ticks: the password is the beginning of the
identifier. -/
theorem password_derived_within_tick : ¬ Underivable 4242 0 := by
  rw [underivable_iff_not_determines, not_not]
  exact determines_of_dvd (dvd_zero _) (by norm_num)

end EvertyDesk.Host
