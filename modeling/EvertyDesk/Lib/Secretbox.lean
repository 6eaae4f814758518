import Mathlib.Data.List.Basic

/-!
Authenticated encryption under a secret key, as the libraries of NaCl have it: a ciphertext
is a code of sixteen bytes and the encrypted message. Uses of a real one that were recorded
make one that can be computed with.
-/

namespace EvertyDesk

def secretboxMacLen : Nat := 16

structure Secretbox where
  secretboxEasy : List UInt8 → List UInt8 → List UInt8 → List UInt8
  secretboxEasy_length : ∀ key nonce message,
    (secretboxEasy key nonce message).length = message.length + secretboxMacLen

/-- Both directions: what one key and nonce encrypted they decrypt, and a message is shorter
than its ciphertext by the code. -/
structure SecretboxPair extends Secretbox where
  secretboxOpenEasy : List UInt8 → List UInt8 → List UInt8 → Except String (List UInt8)
  openEasy_easy : ∀ key nonce message,
    secretboxOpenEasy key nonce (secretboxEasy key nonce message) = .ok message
  openEasy_length : ∀ key nonce ciphertext message,
    secretboxOpenEasy key nonce ciphertext = .ok message →
      message.length + secretboxMacLen = ciphertext.length

/-- One use of a real box. -/
structure SecretboxRecord where
  key : List UInt8
  nonce : List UInt8
  message : List UInt8
  ciphertext : List UInt8

namespace SecretboxRecord

def zeroMac : List UInt8 := List.replicate secretboxMacLen 0

/-- The lengths are right, and the code is not the one of what was not recorded. -/
structure Sound (r : SecretboxRecord) : Prop where
  length : r.ciphertext.length = r.message.length + secretboxMacLen
  mac_ne : r.ciphertext.take secretboxMacLen ≠ zeroMac

def Encrypts (key nonce message : List UInt8) (r : SecretboxRecord) : Prop :=
  r.key = key ∧ r.nonce = nonce ∧ r.message = message

def Decrypts (key nonce ciphertext : List UInt8) (r : SecretboxRecord) : Prop :=
  r.key = key ∧ r.nonce = nonce ∧ r.ciphertext = ciphertext

instance (key nonce message : List UInt8) : DecidablePred (Encrypts key nonce message) :=
  fun _ => inferInstanceAs (Decidable (_ ∧ _))

instance (key nonce ciphertext : List UInt8) : DecidablePred (Decrypts key nonce ciphertext) :=
  fun _ => inferInstanceAs (Decidable (_ ∧ _))

end SecretboxRecord

open SecretboxRecord

/-- Sound records that decrypt no ciphertext in two ways. -/
structure SecretboxRecords where
  records : List SecretboxRecord
  sound : ∀ r ∈ records, r.Sound
  agree : ∀ r ∈ records, ∀ other ∈ records, other.Decrypts r.key r.nonce r.ciphertext →
    other.message = r.message

namespace SecretboxRecords

variable (rs : SecretboxRecords) (key nonce : List UInt8)

def easy (message : List UInt8) : List UInt8 :=
  match rs.records.find? (Encrypts key nonce message) with
  | some r => r.ciphertext
  | none => zeroMac ++ message

def openEasy (ciphertext : List UInt8) : Except String (List UInt8) :=
  match rs.records.find? (Decrypts key nonce ciphertext) with
  | some r => .ok r.message
  | none =>
      if ciphertext.take secretboxMacLen = zeroMac then .ok (ciphertext.drop secretboxMacLen)
      else .error "authentication error"

theorem found {p : SecretboxRecord → Prop} [DecidablePred p] {r : SecretboxRecord}
    (h : rs.records.find? (fun r => decide (p r)) = some r) : r ∈ rs.records ∧ p r :=
  ⟨List.mem_of_find?_eq_some h, by simpa using List.find?_some h⟩

theorem easy_length (message : List UInt8) :
    (rs.easy key nonce message).length = message.length + secretboxMacLen := by
  unfold easy
  split
  · next r hfind =>
      obtain ⟨hr, -, -, rfl⟩ := rs.found hfind
      exact (rs.sound r hr).length
  · rw [List.length_append, zeroMac, List.length_replicate, Nat.add_comm]

theorem openEasy_easy (message : List UInt8) :
    rs.openEasy key nonce (rs.easy key nonce message) = .ok message := by
  unfold easy
  split
  · next r hfind =>
      obtain ⟨hr, rfl, rfl, rfl⟩ := rs.found hfind
      unfold openEasy
      split
      · next other hother =>
          obtain ⟨hmem, hdecrypts⟩ := rs.found hother
          rw [rs.agree r hr other hmem hdecrypts]
      · next hnone =>
          have hlost := List.find?_eq_none.mp hnone r hr
          exact absurd (decide_eq_true ⟨rfl, rfl, rfl⟩) hlost
  · have hmac : (zeroMac ++ message).take secretboxMacLen = zeroMac := List.take_left' rfl
    have hnone : rs.records.find? (Decrypts key nonce (zeroMac ++ message)) = none := by
      apply List.find?_eq_none.mpr
      intro r hr hdecrypts
      have hciphertext := (of_decide_eq_true hdecrypts).2.2
      exact (rs.sound r hr).mac_ne (hciphertext.symm ▸ hmac)
    rw [openEasy, hnone]
    exact (if_pos hmac).trans (congrArg Except.ok (List.drop_left' rfl))

theorem openEasy_length {ciphertext message : List UInt8}
    (h : rs.openEasy key nonce ciphertext = .ok message) :
    message.length + secretboxMacLen = ciphertext.length := by
  unfold openEasy at h
  split at h
  · next r hfind =>
      obtain ⟨hr, -, -, rfl⟩ := rs.found hfind
      rw [← Except.ok.inj h, (rs.sound r hr).length]
  · split at h
    · next hmac =>
        have hlength := congrArg List.length hmac
        rw [List.length_take, zeroMac, List.length_replicate] at hlength
        rw [← Except.ok.inj h, List.length_drop]
        omega
    · cases h

/-- The box that does what was recorded, and only puts a code before every other message. -/
def box : SecretboxPair where
  secretboxEasy := rs.easy
  secretboxEasy_length := rs.easy_length
  secretboxOpenEasy := rs.openEasy
  openEasy_easy := rs.openEasy_easy
  openEasy_length key nonce _ _ := rs.openEasy_length key nonce

end SecretboxRecords

end EvertyDesk
