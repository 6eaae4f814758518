import EvertyDesk.Evrt2.Nonces

/-!
Datagrams as they are sealed by one end and opened by the other. The sender sets a flag,
encrypts the payload under a nonce of the header and signs the whole; the receiver checks
the signature and works out the nonce from the header that it got. The signature takes the
place of whatever stood in its field.
-/

namespace EvertyDesk.Evrt2

open Evrt (Sha256)

section Opening

variable (sha : Sha256) (box : SecretboxPair)

def verifyPacket (key : SessionKey) (wire : List UInt8) : Bool :=
  if wire.length < authTagOffset + authTagLen then false
  else
    let receivedTag := field wire authTagOffset authTagLen
    let zeroed := wire.take authTagOffset ++ List.replicate authTagLen 0 ++
      wire.drop (authTagOffset + authTagLen)
    let expected := sha.hmacSha256 key zeroed
    decide (receivedTag = expected.take authTagLen)

def decryptPayload (encKey : SessionKey) (wire : List UInt8) : Option (List UInt8) :=
  if wire.length < authTagOffset + authTagLen then none
  else
    let flags := UInt16.ofNat (beNat (field wire 6 2))
    let ciphertext := wire.drop (authTagOffset + authTagLen)
    if flags &&& flagEncrypted = 0 then some ciphertext
    else if ciphertext.length < secretboxMacLen then none
    else
      let nonce := deriveNonce sha (wire.take authTagOffset)
      (box.secretboxOpenEasy encKey nonce ciphertext).toOption

end Opening

inductive Transport where
  | udp
  | relay
deriving DecidableEq, Repr

def udpBufferLen : Nat := 1500

/-- Of a datagram that is longer than the buffer the rest is lost. -/
def Transport.receiveRaw : Transport → List UInt8 → List UInt8
  | udp, datagram => datagram.take udpBufferLen
  | relay, datagram => datagram

/-- The end of a session that receives. -/
structure Receiver where
  transport : Transport
  authKey : Option SessionKey
  authFailures : UInt32

namespace Receiver

variable (sha : Sha256) (box : SecretboxPair)

def failed (r : Receiver) : Receiver := { r with authFailures := r.authFailures + 1 }

/-- What `recv_one` makes of the bytes of a datagram. -/
def openRaw (r : Receiver) (raw : List UInt8) : Receiver × Option (PacketHeader × List UInt8) :=
  if r.authKey.any fun key => !verifyPacket sha key raw then (r.failed, none)
  else
    match PacketHeader.decode raw with
    | .error _ => (r, none)
    | .ok (header, payload) =>
        match r.authKey with
        | none => (r, some (header, payload))
        | some key =>
            match decryptPayload sha box (deriveEncryptionKey sha key) raw with
            | none => (r.failed, none)
            | some payload => (r, some (header, payload))

/-- One datagram, if any arrived. -/
def recvOne (r : Receiver) (datagram : Option (List UInt8)) :
    Receiver × Option (PacketHeader × List UInt8) :=
  match datagram with
  | none => (r, none)
  | some datagram => r.openRaw sha box (r.transport.receiveRaw datagram)

end Receiver

/-! What is encrypted and signed is a packet with another payload, flag and tag. -/

section Sealing

variable {sha : Sha256} (box : SecretboxPair) (key : SessionKey) (header : PacketHeader)
  (payload : List UInt8)

theorem flags_encoded : UInt16.ofNat (beNat (field (header.encode payload) 6 2)) =
    header.flags := by
  simp [PacketHeader.encode, field_skip, field_here]

theorem payload_encoded : (header.encode payload).drop (authTagOffset + authTagLen) = payload := by
  simp [PacketHeader.encode, authTagOffset, authTagLen, List.drop_append, List.drop_eq_nil_of_le]

theorem tag_encoded : field (header.encode payload) authTagOffset authTagLen =
    beBytes 4 header.authTag.toNat := by
  simp [PacketHeader.encode, authTagOffset, authTagLen, field_skip, field_here]

/-- What stands before the tag depends neither on it nor on the payload. -/
theorem front_encoded (tag : UInt32) (other : List UInt8) :
    ({ header with authTag := tag }.encode payload).take authTagOffset =
      (header.encode other).take authTagOffset := by
  simp [PacketHeader.encode, PacketHeader.verType, authTagOffset, List.take_append,
    List.take_of_length_le]

/-- Another tag in a packet. -/
theorem withTag_encoded (tag : UInt32) :
    (header.encode payload).take authTagOffset ++ beBytes 4 tag.toNat ++
        (header.encode payload).drop (authTagOffset + authTagLen) =
      { header with authTag := tag }.encode payload := by
  have htake := encode_take { header with authTag := tag } payload
  rw [front_encoded header payload tag payload] at htake
  rw [payload_encoded, List.append_assoc]
  exact htake

theorem encode_append : header.encode payload = header.encode [] ++ payload := by
  simp [PacketHeader.encode]

/-- Encryption changes the payload and the flag. -/
theorem encryptPayload_encode (encKey : SessionKey) :
    encryptPayload sha box.toSecretbox encKey (header.encode payload) =
      header.encrypted.encode
        (box.secretboxEasy encKey (deriveNonce sha header.nonceInput) payload) := by
  have hlength := header.encode_length payload
  have hpayload : (header.encrypted.encode payload).drop headerLen = payload :=
    payload_encoded header.encrypted payload
  have hfront : (header.encrypted.encode payload).take headerLen = header.encrypted.encode [] := by
    have hempty : (header.encrypted.encode []).length = headerLen :=
      header.encrypted.encode_length []
    rw [encode_append, List.take_left' hempty]
  rw [encryptPayload_eq sha box.toSecretbox encKey (by omega), packetNonce_encode,
    flagged_encode, hpayload, hfront]
  exact (encode_append header.encrypted _).symm

/-- The tag that a signature leaves in a packet. -/
def signature (sha : Sha256) (key : SessionKey) (header : PacketHeader)
    (payload : List UInt8) : UInt32 :=
  UInt32.ofNat (beNat ((sha.hmacSha256 key
    ({ header with authTag := 0 }.encode payload)).take authTagLen))

theorem signature_bytes : beBytes 4 (signature sha key header payload).toNat =
    (sha.hmacSha256 key ({ header with authTag := 0 }.encode payload)).take authTagLen := by
  have hlength : ((sha.hmacSha256 key
      ({ header with authTag := 0 }.encode payload)).take authTagLen).length = 4 := by
    rw [List.length_take, Sha256.hmacSha256, sha.digest_length]
    rfl
  have hlt := beNat_lt ((sha.hmacSha256 key
    ({ header with authTag := 0 }.encode payload)).take authTagLen)
  rw [hlength] at hlt
  rw [signature, UInt32.toNat_ofNat', Nat.mod_eq_of_lt (by simpa using hlt)]
  exact beBytes_beNat hlength

/-- The packet with the tag cleared, which is what is signed. -/
theorem cleared_encoded : (header.encode payload).take authTagOffset ++
    List.replicate authTagLen 0 ++ (header.encode payload).drop (authTagOffset + authTagLen) =
      { header with authTag := 0 }.encode payload :=
  withTag_encoded header payload 0

/-- Signing sets the tag. -/
theorem signPacket_encode : signPacket sha key (header.encode payload) =
    { header with authTag := signature sha key header payload }.encode payload := by
  have hlength := header.encode_length payload
  have hlong : ¬ (header.encode payload).length < authTagOffset + authTagLen := by
    rw [hlength, headerLen, authTagOffset, authTagLen]
    omega
  rw [signPacket, if_neg hlong]
  dsimp only
  rw [cleared_encoded, ← signature_bytes, withTag_encoded]

/-- What was signed is verified. -/
theorem verifyPacket_signed :
    verifyPacket sha key
      ({ header with authTag := signature sha key header payload }.encode payload) = true := by
  have hlength := { header with authTag := signature sha key header payload }.encode_length payload
  rw [verifyPacket, if_neg (by rw [hlength, headerLen, authTagOffset, authTagLen]; omega)]
  dsimp only
  rw [tag_encoded, cleared_encoded, signature_bytes]
  exact decide_eq_true rfl

theorem encrypted_flag : header.encrypted.flags &&& flagEncrypted ≠ 0 := by
  intro hclear
  have hbit := congrArg (fun f : UInt16 => f.toBitVec[3]) hclear
  simp [PacketHeader.encrypted, flagEncrypted] at hbit

/-- What was encrypted is decrypted, whatever the tag. -/
theorem decryptPayload_encrypted (encKey : SessionKey) (tag : UInt32) :
    decryptPayload sha box encKey ({ header.encrypted with authTag := tag }.encode
      (box.secretboxEasy encKey (deriveNonce sha header.nonceInput) payload)) = some payload := by
  have hcipher := box.secretboxEasy_length encKey (deriveNonce sha header.nonceInput) payload
  have hlength := { header.encrypted with authTag := tag }.encode_length
    (box.secretboxEasy encKey (deriveNonce sha header.nonceInput) payload)
  have hflag := encrypted_flag header
  rw [decryptPayload, if_neg (by rw [hlength, headerLen, authTagOffset, authTagLen]; omega)]
  dsimp only
  rw [flags_encoded, payload_encoded, if_neg hflag, if_neg (by omega),
    front_encoded header.encrypted _ tag []]
  exact congrArg Except.toOption (box.openEasy_easy encKey _ payload)

end Sealing

/-- The header that arrives of an encrypted and signed packet. -/
def PacketHeader.sealed (header : PacketHeader) (tag : UInt32) : PacketHeader :=
  { header with flags := header.flags ||| flagEncrypted, authTag := tag }

section Main

variable (sha : Sha256) (box : SecretboxPair) (key : SessionKey) (header : PacketHeader)
  (payload : List UInt8)

/-- The payload of a packet under the nonce of its header. -/
def cipher : List UInt8 :=
  box.secretboxEasy (deriveEncryptionKey sha key) (deriveNonce sha header.nonceInput) payload

theorem cipher_length :
    (cipher sha box key header payload).length = payload.length + secretboxMacLen :=
  box.secretboxEasy_length ..

/-- What the sender makes of a packet. -/
theorem sendSigned_encode :
    sendSigned sha box.toSecretbox (some key) (header.encode payload) =
      (header.sealed (signature sha key header.encrypted
        (cipher sha box key header payload))).encode (cipher sha box key header payload) := by
  rw [sendSigned, encryptPayload_encode, signPacket_encode]
  rfl

/-- The tag that a packet had before it is signed makes no difference. -/
theorem sendSigned_authTag (tag : UInt32) :
    sendSigned sha box.toSecretbox (some key) ({ header with authTag := tag }.encode payload) =
      sendSigned sha box.toSecretbox (some key) (header.encode payload) := by
  have hnonce : ({ header with authTag := tag } : PacketHeader).nonceInput =
      header.nonceInput :=
    front_encoded header.encrypted [] tag []
  rw [sendSigned_encode, sendSigned_encode, cipher, cipher, hnonce]
  rfl

theorem openRaw_sealed {r : Receiver} (hkey : r.authKey = some key) :
    r.openRaw sha box (sendSigned sha box.toSecretbox (some key) (header.encode payload)) =
      (r, some (header.sealed (signature sha key header.encrypted
        (cipher sha box key header payload)), payload)) := by
  have hverified : verifyPacket sha key ((header.sealed (signature sha key header.encrypted
      (cipher sha box key header payload))).encode (cipher sha box key header payload)) =
        true :=
    verifyPacket_signed key header.encrypted _
  have hdecrypted : decryptPayload sha box (deriveEncryptionKey sha key)
      ((header.sealed (signature sha key header.encrypted
        (cipher sha box key header payload))).encode (cipher sha box key header payload)) =
        some payload :=
    decryptPayload_encrypted box header payload _ _
  rw [sendSigned_encode]
  simp [Receiver.openRaw, hkey, hverified, hdecrypted]

/-- A datagram arrives as a whole, if it is not too long for the buffer. -/
theorem receiveRaw_sealed {transport : Transport}
    (hfits : transport = .udp → payload.length ≤ 1452) :
    transport.receiveRaw (sendSigned sha box.toSecretbox (some key) (header.encode payload)) =
      sendSigned sha box.toSecretbox (some key) (header.encode payload) := by
  cases transport with
  | relay => rfl
  | udp =>
      apply List.take_of_length_le
      have hshort := hfits rfl
      rw [sendSigned_encode, PacketHeader.encode_length, cipher_length, headerLen,
        secretboxMacLen, udpBufferLen]
      omega

/-- What is sent is received: the payload, and the header but for the flag of encryption
and the tag. What is not verified is counted and gives no packet. -/
theorem sealed_is_opened {r : Receiver} (hkey : r.authKey = some key)
    (hfits : r.transport = .udp → payload.length ≤ 1452) :
    (∃ tag, r.recvOne sha box
        (some (sendSigned sha box.toSecretbox (some key) (header.encode payload))) =
      (r, some (header.sealed tag, payload))) ∧
    ∀ datagram, verifyPacket sha key (r.transport.receiveRaw datagram) = false →
      r.recvOne sha box (some datagram) = (r.failed, none) := by
  constructor
  · refine ⟨signature sha key header.encrypted (cipher sha box key header payload), ?_⟩
    rw [Receiver.recvOne, receiveRaw_sealed sha box key header payload hfits]
    exact openRaw_sealed sha box key header payload hkey
  · intro datagram hforged
    simp [Receiver.recvOne, Receiver.openRaw, hkey, hforged]

/-- What is received under a key was decrypted under it. -/
theorem decrypted_of_recvOne {r r' : Receiver} {datagram : List UInt8} (hkey : r.authKey = some key)
    (h : r.recvOne sha box (some datagram) = (r', some (header, payload))) :
    decryptPayload sha box (deriveEncryptionKey sha key) (r.transport.receiveRaw datagram) =
      some payload := by
  rw [Receiver.recvOne, Receiver.openRaw] at h
  split at h
  · simp at h
  · split at h
    · simp at h
    · rw [hkey] at h
      dsimp only at h
      split at h
      · simp at h
      · next opened hopened =>
        have hpayload : opened = payload := by simpa using congrArg (·.2.map (·.2)) h
        rw [hopened, hpayload]

theorem ok_of_toOption {opened : Except String (List UInt8)} {message : List UInt8}
    (h : opened.toOption = some message) : opened = .ok message := by
  cases opened with
  | error e => cases h
  | ok other => exact congrArg Except.ok (Option.some.inj h)

/-- Of a payload that is too long for the buffer another one is decrypted, if any. -/
theorem long_payload_is_lost {transport : Transport} (hudp : transport = .udp)
    (hlong : 1452 < payload.length) :
    decryptPayload sha box (deriveEncryptionKey sha key) (transport.receiveRaw
      (sendSigned sha box.toSecretbox (some key) (header.encode payload))) ≠ some payload := by
  intro h
  have hcut : transport.receiveRaw
      (sendSigned sha box.toSecretbox (some key) (header.encode payload)) =
      (header.sealed (signature sha key header.encrypted
        (cipher sha box key header payload))).encode
          ((cipher sha box key header payload).take 1468) := by
    have hheader := (header.sealed (signature sha key header.encrypted
      (cipher sha box key header payload))).encode_length []
    rw [hudp, sendSigned_encode, Transport.receiveRaw, encode_append, List.take_append,
      List.take_of_length_le (by rw [hheader]; decide), hheader, ← encode_append]
    rfl
  have hflag : (header.sealed (signature sha key header.encrypted
      (cipher sha box key header payload))).flags &&& flagEncrypted ≠ 0 :=
    encrypted_flag header
  rw [hcut, decryptPayload] at h
  dsimp only at h
  rw [flags_encoded, payload_encoded, if_neg hflag] at h
  split at h
  · simp at h
  · split at h
    · simp at h
    · have hlength := box.openEasy_length _ _ _ _ (ok_of_toOption h)
      rw [List.length_take, secretboxMacLen] at hlength
      omega

end Main

/-- A request is sent sealed under a session key. -/
def sessionKey : SessionKey := List.replicate 32 1

/-- The code and the ciphertext of two bytes, under the key and nonce of the request. -/
def recordedCipher : List UInt8 :=
  [124, 84, 172, 206, 79, 16, 123, 61, 224, 121, 3, 172, 26, 115, 182, 58, 93, 65]

/-- The digests that the session takes of the key, the header and the packet. -/
def requestSha : Sha256 where
  digest message :=
    if message = sessionKey ++
        [101, 118, 114, 116, 50, 45, 101, 110, 99, 114, 121, 112, 116, 45, 118, 49] then
      [95, 113, 156, 93, 34, 15, 152, 214, 83, 57, 255, 99, 11, 63, 164, 62, 151, 183, 60, 69,
        206, 129, 1, 131, 233, 136, 3, 17, 245, 14, 35, 150]
    else if message = (controlHeader .idrRequest .ar 9).nonceInput then
      [82, 165, 3, 207, 102, 109, 189, 238, 8, 149, 49, 2, 184, 90, 219, 188, 136, 93, 56, 16,
        18, 31, 67, 43, 111, 52, 233, 143, 76, 37, 29, 42]
    else if message = List.replicate 32 0x37 ++ List.replicate 32 0x36 ++
        (controlHeader .idrRequest .ar 9).encrypted.encode recordedCipher then
      [165, 110, 72, 96, 214, 211, 132, 3, 229, 2, 47, 26, 201, 128, 107, 177, 139, 51, 183,
        158, 134, 25, 95, 47, 237, 80, 5, 60, 53, 77, 233, 247]
    else if message = List.replicate 32 0x5d ++ List.replicate 32 0x5c ++
        [165, 110, 72, 96, 214, 211, 132, 3, 229, 2, 47, 26, 201, 128, 107, 177, 139, 51, 183,
          158, 134, 25, 95, 47, 237, 80, 5, 60, 53, 77, 233, 247] then
      [148, 20, 206, 142, 38, 45, 236, 238, 184, 36, 9, 27, 199, 219, 184, 146, 245, 253, 30,
        68, 50, 24, 204, 89, 50, 90, 153, 192, 115, 80, 128, 40]
    else List.replicate 32 0
  digest_length message := by
    repeat' split
    all_goals rfl

/-- The key and nonce under which the request is encrypted. -/
def requestSecret : SessionKey × List UInt8 :=
  (deriveEncryptionKey requestSha sessionKey,
    deriveNonce requestSha (controlHeader .idrRequest .ar 9).nonceInput)

/-- Authenticated encryption of the request. -/
def requestRecord : SecretboxRecord := ⟨requestSecret.1, requestSecret.2, [7, 8], recordedCipher⟩

theorem requestRecord_sound : requestRecord.Sound := ⟨rfl, by decide⟩

def requestBox : SecretboxPair :=
  SecretboxRecords.box {
    records := [requestRecord]
    sound := List.forall_mem_singleton.mpr requestRecord_sound
    agree r hr other hother _ := by
      rw [List.mem_singleton.mp hr, List.mem_singleton.mp hother] }

def requestReceiver : Receiver := ⟨.udp, some sessionKey, 0⟩

theorem sealed_is_opened_request :
    (∃ tag, requestReceiver.recvOne requestSha requestBox (some (sendSigned requestSha
        requestBox.toSecretbox (some sessionKey)
          ((controlHeader .idrRequest .ar 9).encode [7, 8]))) =
      (requestReceiver, some ((controlHeader .idrRequest .ar 9).sealed tag, [7, 8]))) ∧
    requestReceiver.recvOne requestSha requestBox (some []) = (requestReceiver.failed, none) := by
  have hopened := sealed_is_opened requestSha requestBox sessionKey
    (controlHeader .idrRequest .ar 9) [7, 8] (rfl : requestReceiver.authKey = some sessionKey)
    (fun _ => by decide)
  exact ⟨hopened.1, hopened.2 [] rfl⟩

/-- The tag of the header does not come back, and neither does a payload that is too long
for the buffer. -/
theorem tag_and_long_payload_are_lost :
    (¬ ∃ (sha : Sha256) (box : SecretboxPair) (key : SessionKey),
      ∀ (r : Receiver) (header : PacketHeader) (payload : List UInt8), r.authKey = some key →
        r.recvOne sha box
            (some (sendSigned sha box.toSecretbox (some key) (header.encode payload))) =
          (r, some ({ header with flags := header.flags ||| flagEncrypted }, payload))) ∧
    ¬ ∃ (sha : Sha256) (box : SecretboxPair) (key : SessionKey),
      ∀ (r : Receiver) (header : PacketHeader) (payload : List UInt8), r.authKey = some key →
        ∃ tag, r.recvOne sha box
            (some (sendSigned sha box.toSecretbox (some key) (header.encode payload))) =
          (r, some (header.sealed tag, payload)) := by
  constructor
  · rintro ⟨sha, box, key, hall⟩
    have hzero := hall ⟨.relay, some key, 0⟩ (controlHeader .idrRequest .ar 9) [] rfl
    have hone := hall ⟨.relay, some key, 0⟩
      { controlHeader .idrRequest .ar 9 with authTag := 1 } [] rfl
    rw [sendSigned_authTag, hzero] at hone
    have htags := congrArg (fun got => got.2.map (·.1.authTag)) hone
    simp [controlHeader] at htags
  · rintro ⟨sha, box, key, hall⟩
    obtain ⟨tag, hopened⟩ := hall ⟨.udp, some key, 0⟩ (controlHeader .idrRequest .ar 9)
      (List.replicate 1453 0) rfl
    have hdecrypted := decrypted_of_recvOne sha box key _ _ rfl hopened
    have hlong : 1452 < (List.replicate 1453 (0 : UInt8)).length := by
      rw [List.length_replicate]
      decide
    exact long_payload_is_lost sha box key (controlHeader .idrRequest .ar 9) _ rfl hlong hdecrypted

end EvertyDesk.Evrt2
