import Mathlib.Data.List.Basic
import Mathlib.Data.List.Induction
import Mathlib.Algebra.Order.Group.Nat
import Mathlib.Tactic.Ring

/-!
Fixed-width integers in byte strings, in both byte orders, and fields of a byte
string at a known offset. A value that does not fit its width is reduced
modulo the width, as a narrowing cast does.
-/

namespace EvertyDesk

/-- The `width` low bytes of a number, least significant byte first. -/
def leBytes : Nat → Nat → List UInt8
  | 0, _ => []
  | width + 1, n => UInt8.ofNat n :: leBytes width (n / 256)

/-- The number written least significant byte first. -/
def leNat : List UInt8 → Nat
  | [] => 0
  | byte :: bytes => byte.toNat + 256 * leNat bytes

/-- The `width` low bytes of a number, most significant byte first. -/
def beBytes (width n : Nat) : List UInt8 := (leBytes width n).reverse

/-- The number written most significant byte first. -/
def beNat (bytes : List UInt8) : Nat := leNat bytes.reverse

/-- The bytes from `offset` on, at most `width` of them. -/
def field (bytes : List UInt8) (offset width : Nat) : List UInt8 := (bytes.drop offset).take width

@[simp] theorem leBytes_length (width n : Nat) :
    (leBytes width n).length = width := by
  induction width generalizing n with
  | zero => rfl
  | succ width ih => simp [leBytes, ih]

@[simp] theorem beBytes_length (width n : Nat) :
    (beBytes width n).length = width := by
  simp [beBytes]

theorem leNat_leBytes (width n : Nat) : leNat (leBytes width n) = n % 256 ^ width := by
  induction width generalizing n with
  | zero => simp [leBytes, leNat, Nat.mod_one]
  | succ width ih =>
      have hlow : (UInt8.ofNat n).toNat = n % 256 := by simp
      calc
        leNat (leBytes (width + 1) n) =
            n % 256 + 256 * (n / 256 % 256 ^ width) := by
              rw [leBytes, leNat, ih, hlow]
        _ = n % (256 * 256 ^ width) := (Nat.mod_mul).symm
        _ = n % 256 ^ (width + 1) := by rw [pow_succ, Nat.mul_comm]

theorem leNat_leBytes_of_lt {width n : Nat} (h : n < 256 ^ width) :
    leNat (leBytes width n) = n := by
  rw [leNat_leBytes, Nat.mod_eq_of_lt h]

theorem leBytes_leNat (bytes : List UInt8) : leBytes bytes.length (leNat bytes) = bytes := by
  induction bytes with
  | nil => rfl
  | cons byte bytes ih =>
      have hlow : UInt8.ofNat (byte.toNat + 256 * leNat bytes) = byte := by
        apply UInt8.toNat_inj.mp
        have hbyte := byte.toNat_lt
        rw [UInt8.toNat_ofNat']
        omega
      have hhigh : (byte.toNat + 256 * leNat bytes) / 256 = leNat bytes := by
        have hbyte := byte.toNat_lt
        omega
      rw [List.length_cons, leNat, leBytes, hlow, hhigh, ih]

theorem leNat_lt (bytes : List UInt8) : leNat bytes < 256 ^ bytes.length := by
  induction bytes with
  | nil => simp [leNat]
  | cons byte bytes ih =>
      have hbyte := byte.toNat_lt
      rw [leNat, List.length_cons, pow_succ]
      omega

theorem leNat_concat (bytes : List UInt8) (byte : UInt8) :
    leNat (bytes ++ [byte]) = leNat bytes + 256 ^ bytes.length * byte.toNat := by
  induction bytes with
  | nil => simp [leNat]
  | cons first bytes ih =>
      rw [List.cons_append, leNat, ih, leNat, List.length_cons, pow_succ]
      ring

/-- A number is put together byte by byte, each shifted to its place. -/
theorem leNat_or_shiftLeft (bytes : List UInt8) (byte : UInt8) :
    leNat bytes ||| byte.toNat <<< (8 * bytes.length) = leNat (bytes ++ [byte]) := by
  have hpow : 256 ^ bytes.length = 2 ^ (8 * bytes.length) := by
    rw [Nat.pow_mul]
  have hlow : leNat bytes < 2 ^ (8 * bytes.length) := hpow ▸ leNat_lt bytes
  rw [leNat_concat, Nat.or_comm, ← Nat.shiftLeft_add_eq_or_of_lt hlow, Nat.shiftLeft_eq, hpow,
    Nat.mul_comm, Nat.add_comm]

theorem beNat_beBytes (width n : Nat) : beNat (beBytes width n) = n % 256 ^ width := by
  rw [beNat, beBytes, List.reverse_reverse, leNat_leBytes]

theorem beNat_beBytes_of_lt {width n : Nat} (h : n < 256 ^ width) :
    beNat (beBytes width n) = n := by
  rw [beNat_beBytes, Nat.mod_eq_of_lt h]

theorem beBytes_beNat {bytes : List UInt8} {width : Nat} (h : bytes.length = width) :
    beBytes width (beNat bytes) = bytes := by
  rw [beBytes, beNat, ← h, ← List.length_reverse, leBytes_leNat, List.reverse_reverse]

/-- A number is put together from the front by making room for one byte after the other. -/
theorem foldl_shiftLeft_or (bytes : List UInt8) :
    bytes.foldl (fun n byte => n <<< 8 ||| byte.toNat) 0 = beNat bytes := by
  induction bytes using List.reverseRecOn with
  | nil => rfl
  | append_singleton bytes byte ih =>
      have hbyte : byte.toNat < 2 ^ 8 := byte.toNat_lt
      rw [List.foldl_append, ih, List.foldl_cons, List.foldl_nil,
        ← Nat.shiftLeft_add_eq_or_of_lt hbyte, Nat.shiftLeft_eq, beNat, beNat,
        List.reverse_append, List.reverse_singleton, List.singleton_append, leNat]
      ring

/-! Machine integers are read back as they were written. -/

@[simp] theorem readBack8 (n : UInt8) :
    UInt8.ofNat (beNat (beBytes 1 n.toNat)) = n := by
  rw [beNat_beBytes_of_lt (by simpa using n.toNat_lt), UInt8.ofNat_toNat]

@[simp] theorem readBack16 (n : UInt16) :
    UInt16.ofNat (beNat (beBytes 2 n.toNat)) = n := by
  rw [beNat_beBytes_of_lt (by simpa using n.toNat_lt), UInt16.ofNat_toNat]

@[simp] theorem readBack32 (n : UInt32) :
    UInt32.ofNat (beNat (beBytes 4 n.toNat)) = n := by
  rw [beNat_beBytes_of_lt (by simpa using n.toNat_lt), UInt32.ofNat_toNat]

@[simp] theorem readBack64 (n : UInt64) :
    UInt64.ofNat (beNat (beBytes 8 n.toNat)) = n := by
  rw [beNat_beBytes_of_lt (by simpa using n.toNat_lt), UInt64.ofNat_toNat]

theorem beNat_lt (bytes : List UInt8) : beNat bytes < 256 ^ bytes.length := by
  simpa [beNat] using leNat_lt bytes.reverse

theorem field_length_le (bytes : List UInt8) (offset width : Nat) :
    (field bytes offset width).length ≤ width := by
  simp [field]

/-- Numbers read from a field are bounded by its width. -/
theorem leNat_field_lt (bytes : List UInt8) (offset width : Nat) :
    leNat (field bytes offset width) < 256 ^ width :=
  (leNat_lt _).trans_le (Nat.pow_le_pow_right (by decide) (field_length_le bytes offset width))

theorem beNat_field_lt (bytes : List UInt8) (offset width : Nat) :
    beNat (field bytes offset width) < 256 ^ width :=
  (beNat_lt _).trans_le (Nat.pow_le_pow_right (by decide) (field_length_le bytes offset width))

/-- A part of a concatenation is the field at its offset. -/
theorem field_append {before part after : List UInt8} {offset width : Nat}
    (hoffset : before.length = offset) (hwidth : part.length = width) :
    field (before ++ (part ++ after)) offset width = part := by
  subst hoffset hwidth
  simp [field]

/-- Skip a part that ends before the field. -/
theorem field_skip {part rest : List UInt8} {offset width : Nat} (h : part.length ≤ offset) :
    field (part ++ rest) offset width = field rest (offset - part.length) width := by
  rw [field, List.drop_append, List.drop_eq_nil_of_le h, List.nil_append, field]

/-- The field at the front of a concatenation. -/
theorem field_here {part rest : List UInt8} {width : Nat}
    (h : part.length = width) : field (part ++ rest) 0 width = part := by
  subst h
  simp [field]

end EvertyDesk
