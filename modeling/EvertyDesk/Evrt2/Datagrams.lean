import EvertyDesk.Evrt.Packet
import EvertyDesk.Evrt2.Apf
import EvertyDesk.Evrt2.Sender
import EvertyDesk.Lib.Secretbox

/-!
The datagrams of a session and how long they are. Frames, attention maps and degrade
signals are cut or fitted to the room of a datagram without the code that encryption
adds, and a difference of attention maps is not fitted at all.
-/

namespace EvertyDesk.Evrt2

open Evrt (Sha256)

abbrev SessionKey := List UInt8

def authTagOffset : Nat := 28
def authTagLen : Nat := 4
def nonceLen : Nat := 24
def flagEncrypted : UInt16 := (1 : UInt16) <<< 3

section Crypto

variable (sha : Sha256) (box : Secretbox)

/-- The label "evrt2-encrypt-v1" after the session key. -/
def deriveEncryptionKey (sessionKey : SessionKey) : SessionKey :=
  sha.digest (sessionKey ++
    [101, 118, 114, 116, 50, 45, 101, 110, 99, 114, 121, 112, 116, 45, 118, 49])

def deriveNonce (headerMinusAuthTag : List UInt8) : List UInt8 :=
  (sha.digest headerMinusAuthTag).take nonceLen

def encryptPayload (encKey : SessionKey) (wire : List UInt8) : List UInt8 :=
  if wire.length < authTagOffset then wire
  else
    let flags := UInt16.ofNat (beNat (field wire 6 2)) ||| flagEncrypted
    let flagged := wire.take 6 ++ beBytes 2 flags.toNat ++ wire.drop 8
    let nonce := deriveNonce sha (flagged.take authTagOffset)
    let plaintext := flagged.drop (authTagOffset + authTagLen)
    flagged.take (authTagOffset + authTagLen) ++ box.secretboxEasy encKey nonce plaintext

def signPacket (key : SessionKey) (wire : List UInt8) : List UInt8 :=
  if wire.length < authTagOffset + authTagLen then wire
  else
    let withTag (tag : List UInt8) : List UInt8 :=
      wire.take authTagOffset ++ tag ++ wire.drop (authTagOffset + authTagLen)
    let tag := sha.hmacSha256 key (withTag (List.replicate authTagLen 0))
    withTag (tag.take authTagLen)

/-- What goes to the socket. -/
def sendSigned (authKey : Option SessionKey) (wire : List UInt8) : List UInt8 :=
  match authKey with
  | none => wire
  | some key => signPacket sha key (encryptPayload sha box (deriveEncryptionKey sha key) wire)

end Crypto

def controlPacket (packetType : PacketType) (mode : Mode) (nowUs : UInt64)
    (payload : List UInt8) : List UInt8 :=
  PacketHeader.encode {
    packetType := packetType
    mode := mode
    flags := 0
    frameId := 0
    packetIndex := 0
    packetCount := 1
    presentationTimeUs := nowUs
    fecGroup := 0
    fecIdx := 0
    fecTotal := 0
    authTag := 0 } payload

def degradePayload (regionTiles : List UInt16) (measuredAgeUs ceilingUs : UInt32) : List UInt8 :=
  beBytes 4 measuredAgeUs.toNat ++ (beBytes 4 ceilingUs.toNat ++
    (beBytes 2 regionTiles.length ++ regionTiles.flatMap fun tile => beBytes 2 tile.toNat))

/-- What a session sends for one frame of the encode loop. -/
inductive SessionSend (P : Type) where
  | frame (outgoing : OutgoingFrame) (fec : FecConfig) (iter : IterOrder UInt8)
  | apf (mode : Mode) (nowUs : UInt64) (isKeyframe : Bool) (lastSentApf : Option (ApfMap P))
      (attn : AttentionMap P)
  | degradeSignal (mode : Mode) (nowUs : UInt64) (regionTiles : List UInt16)
      (measuredAgeUs ceilingUs : UInt32)

namespace SessionSend

variable {P : Type} (arith : PriorityArith P) (sha : Sha256) (box : Secretbox)
  (authKey : Option SessionKey)

def packets : SessionSend P → List (List UInt8)
  | .frame outgoing fec iter => outgoing.buildFramePackets fec iter
  | .apf mode nowUs isKeyframe lastSentApf attn =>
      ((apfPayload arith isKeyframe lastSentApf attn).map
        (controlPacket .apfUpdate mode nowUs)).toList
  | .degradeSignal mode nowUs regionTiles measuredAgeUs ceilingUs =>
      [controlPacket .degradeSignal mode nowUs (degradePayload regionTiles measuredAgeUs ceilingUs)]

def datagrams (send : SessionSend P) : List (List UInt8) :=
  (send.packets arith).map (sendSigned sha box authKey)

/-- There is room for what is sent: for the first piece of the frame, for the map in
full or for its difference, for the tiles. -/
def Fits : SessionSend P → Prop
  | .frame outgoing _ _ => authKey = none ∨ outgoing.frameBytes.length ≤ 1350
  | .apf _ _ isKeyframe lastSentApf attn => ∀ apf, fitApf arith attn = some apf →
      if isKeyframe then authKey = none ∨ apf.values.length ≤ 2688
      else ∀ previous, lastSentApf = some previous → previous.SameGrid apf →
        deltaSize (changedCells arith previous.values apf.values) ≤
          if authKey = none then 1360 else 1344
  | .degradeSignal _ _ regionTiles _ _ =>
      regionTiles.length ≤ if authKey = none then 679 else 671

end SessionSend

section Lengths

variable (sha : Sha256) (box : Secretbox)

theorem encryptPayload_length (encKey : SessionKey) {wire : List UInt8}
    (h : headerLen ≤ wire.length) :
    (encryptPayload sha box encKey wire).length = wire.length + secretboxMacLen := by
  simp only [headerLen] at h
  have hlong : ¬ wire.length < authTagOffset := by simp only [authTagOffset]; omega
  rw [encryptPayload, if_neg hlong]
  simp only [List.length_append, List.length_take, List.length_drop, box.secretboxEasy_length,
    beBytes_length, authTagOffset, authTagLen]
  omega

theorem signPacket_length (key : SessionKey) (wire : List UInt8) :
    (signPacket sha key wire).length = wire.length := by
  rw [signPacket]
  split
  · rfl
  · next hlong =>
    have htag : authTagLen ≤ (sha.hmacSha256 key (wire.take authTagOffset ++
        List.replicate authTagLen 0 ++ wire.drop (authTagOffset + authTagLen))).length := by
      rw [Sha256.hmacSha256, sha.digest_length]
      decide
    simp only [authTagOffset, authTagLen] at hlong htag ⊢
    simp only [List.length_append, List.length_take, List.length_drop, Nat.min_eq_left htag]
    omega

/-- Encryption is the only thing that makes a packet longer. -/
theorem sendSigned_length (authKey : Option SessionKey) {wire : List UInt8}
    (h : headerLen ≤ wire.length) :
    (sendSigned sha box authKey wire).length =
      wire.length + if authKey = none then 0 else secretboxMacLen := by
  cases authKey with
  | none => simp [sendSigned]
  | some key => simp [sendSigned, signPacket_length, encryptPayload_length sha box _ h]

theorem controlPacket_length (packetType : PacketType) (mode : Mode) (nowUs : UInt64)
    (payload : List UInt8) :
    (controlPacket packetType mode nowUs payload).length = headerLen + payload.length :=
  PacketHeader.encode_length ..

theorem degradePayload_length (regionTiles : List UInt16) (measuredAgeUs ceilingUs : UInt32) :
    (degradePayload regionTiles measuredAgeUs ceilingUs).length = 10 + 2 * regionTiles.length := by
  have htiles : (regionTiles.flatMap fun tile => beBytes 2 tile.toNat).length =
      regionTiles.length * 2 := by
    simp [List.length_flatMap, beBytes_length]
  simp only [degradePayload, List.length_append, beBytes_length, htiles]
  omega

/-- A datagram is short enough if and only if there is room for its payload. -/
theorem sendSigned_fits (authKey : Option SessionKey) {wire payload : List UInt8}
    (h : wire.length = headerLen + payload.length) :
    (sendSigned sha box authKey wire).length ≤ maxDatagram ↔
      payload.length ≤ if authKey = none then 1368 else 1352 := by
  rw [sendSigned_length sha box authKey (by omega), h]
  simp only [headerLen, maxDatagram, secretboxMacLen]
  split <;> omega

end Lengths

namespace OutgoingFrame

variable (outgoing : OutgoingFrame) (fec : FecConfig)

theorem unit_length (index : Nat) :
    (outgoing.unit index).length =
      2 + min chunkMax (outgoing.frameBytes.length - index * chunkMax) := by
  simp [unit, protectedUnit, beBytes_length, chunk]

/-- The datagrams of a frame are short enough if and only if its units are: a repair
packet is as long as the longest unit of its group. -/
theorem frame_fits_iff (sha : Sha256) (box : Secretbox) (authKey : Option SessionKey)
    (iter : IterOrder UInt8) :
    (∀ wire ∈ outgoing.buildFramePackets fec iter,
        (sendSigned sha box authKey wire).length ≤ maxDatagram) ↔
      ∀ index < outgoing.unitCount,
        (outgoing.unit index).length ≤ if authKey = none then 1368 else 1352 := by
  constructor
  · intro h index hindex
    have hmember := (outgoing.mem_buildFramePackets fec iter _).mpr (.inl ⟨index, hindex, rfl⟩)
    exact (sendSigned_fits sha box authKey (PacketHeader.encode_length ..)).mp (h _ hmember)
  · intro h wire hwire
    rcases (outgoing.mem_buildFramePackets fec iter wire).mp hwire with
      ⟨index, hindex, rfl⟩ | ⟨-, group, -, -, r, -, rfl⟩
    · exact (sendSigned_fits sha box authKey (PacketHeader.encode_length ..)).mpr (h index hindex)
    · refine (sendSigned_fits sha box authKey (PacketHeader.encode_length ..)).mpr ?_
      rw [classParity, parity_length, List.length_replicate]
      apply maxLength_le
      intro unit hunit
      obtain ⟨index, hindex, rfl⟩ := List.mem_map.mp hunit
      rw [groupIndices, List.mem_range'_1] at hindex
      exact h index (by omega)

/-- Only the first unit counts: no other is longer. -/
theorem units_fit_iff (authKey : Option SessionKey) :
    (∀ index < outgoing.unitCount,
        (outgoing.unit index).length ≤ if authKey = none then 1368 else 1352) ↔
      authKey = none ∨ outgoing.frameBytes.length ≤ 1350 := by
  have hmax : chunkMax = 1366 := rfl
  cases authKey with
  | none =>
      refine ⟨fun _ => .inl rfl, fun _ index _ => ?_⟩
      rw [if_pos rfl, unit_length]
      omega
  | some key =>
      simp only [unit_length, reduceCtorEq, if_false, false_or, hmax]
      constructor
      · intro h
        by_contra hlong
        have hfirst := h 0 ((lt_divCeil (by decide)).mpr (by omega))
        omega
      · intro hshort index _
        omega

end OutgoingFrame

section Main

variable {P : Type} (arith : PriorityArith P) (sha : Sha256) (box : Secretbox)
  (authKey : Option SessionKey)

theorem control_fits_iff (packetType : PacketType) (mode : Mode) (nowUs : UInt64)
    (payload : List UInt8) :
    (sendSigned sha box authKey (controlPacket packetType mode nowUs payload)).length ≤
        maxDatagram ↔
      payload.length ≤ if authKey = none then 1368 else 1352 :=
  sendSigned_fits sha box authKey (controlPacket_length ..)

/-- In full, a map on its grid has room unless it is encrypted and its grid is fine. -/
theorem encodeU4_fits_iff {attn : AttentionMap P} {apf : ApfMap P}
    (h : fitApf arith attn = some apf) :
    (encodeU4 arith apf.values apf.cols apf.rows apf.tileSize).length ≤
        (if authKey = none then 1368 else 1352) ↔
      authKey = none ∨ apf.values.length ≤ 2688 := by
  obtain ⟨-, hfits⟩ := fitApf_spec h
  have hroom : maxPayload = 1368 := rfl
  rw [encodeU4_length]
  simp only [apfHeaderLen, divCeil, hroom] at hfits ⊢
  cases authKey with
  | none => simpa using hfits
  | some key =>
      simp only [reduceCtorEq, if_false, false_or]
      omega

theorem encodeDelta_fits_iff {attn : AttentionMap P} {apf previous : ApfMap P}
    (h : fitApf arith attn = some apf) (hsame : previous.SameGrid apf) :
    (encodeDelta arith previous.values apf.values apf.cols apf.rows apf.tileSize).length ≤
        (if authKey = none then 1368 else 1352) ↔
      deltaSize (changedCells arith previous.values apf.values) ≤
        if authKey = none then 1360 else 1344 := by
  rw [encodeDelta_length hsame.2.2.2 (fitApf_spec h).1, apfHeaderLen]
  split <;> omega

/-- What is sent of an attention map that fits. -/
theorem mem_apfPayload {attn : AttentionMap P} {apf : ApfMap P} (h : fitApf arith attn = some apf)
    (isKeyframe : Bool) (lastSentApf : Option (ApfMap P)) (payload : List UInt8) :
    payload ∈ apfPayload arith isKeyframe lastSentApf attn ↔
      if isKeyframe then
        payload = encodeU4 arith apf.values apf.cols apf.rows apf.tileSize
      else ∃ previous, lastSentApf = some previous ∧ previous.SameGrid apf ∧
        payload = encodeDelta arith previous.values apf.values apf.cols apf.rows apf.tileSize := by
  rw [apfPayload, h]
  cases isKeyframe with
  | true => simp [eq_comm]
  | false =>
      cases lastSentApf with
      | none => simp
      | some previous =>
          by_cases hsame : previous.SameGrid apf
          · simp [Option.filter, hsame, eq_comm]
          · simp [Option.filter, hsame]

theorem apf_fits_iff (mode : Mode) (nowUs : UInt64) (isKeyframe : Bool)
    (lastSentApf : Option (ApfMap P)) (attn : AttentionMap P) :
    (∀ wire ∈ (SessionSend.apf mode nowUs isKeyframe lastSentApf attn).packets arith,
        (sendSigned sha box authKey wire).length ≤ maxDatagram) ↔
      ∀ payload ∈ apfPayload arith isKeyframe lastSentApf attn,
        payload.length ≤ if authKey = none then 1368 else 1352 := by
  rw [SessionSend.packets]
  cases apfPayload arith isKeyframe lastSentApf attn with
  | none => simp
  | some payload => simp [control_fits_iff]

/-- Every datagram of a send is short enough if and only if there was room for it. -/
theorem datagrams_fit_iff (send : SessionSend P) :
    (∀ wire ∈ send.datagrams arith sha box authKey, wire.length ≤ maxDatagram) ↔
      send.Fits arith authKey := by
  simp only [SessionSend.datagrams, List.forall_mem_map]
  cases send with
  | frame outgoing fec iter =>
      exact (outgoing.frame_fits_iff fec sha box authKey iter).trans
        (outgoing.units_fit_iff authKey)
  | apf mode nowUs isKeyframe lastSentApf attn =>
      rw [apf_fits_iff, SessionSend.Fits]
      cases hfit : fitApf arith attn with
      | none => simp [apfPayload, hfit]
      | some apf =>
          simp only [mem_apfPayload arith hfit, Option.some.injEq, forall_eq']
          cases isKeyframe with
          | true => simpa using encodeU4_fits_iff arith authKey hfit
          | false =>
              simp only [Bool.false_eq_true, if_false]
              constructor
              · intro h previous hlast hsame
                exact (encodeDelta_fits_iff arith authKey hfit hsame).mp
                  (h _ ⟨previous, hlast, hsame, rfl⟩)
              · rintro h payload ⟨previous, hlast, hsame, rfl⟩
                exact (encodeDelta_fits_iff arith authKey hfit hsame).mpr (h previous hlast hsame)
  | degradeSignal mode nowUs regionTiles measuredAgeUs ceilingUs =>
      simp only [SessionSend.packets, List.mem_singleton, forall_eq, control_fits_iff,
        degradePayload_length, SessionSend.Fits]
      split <;> omega

end Main

/-- One fragment that is full. -/
def fullFrame : OutgoingFrame where
  frameBytes := List.replicate 1366 0
  frameId := 1
  mode := .mode47
  isKeyframe := true
  isSilicon := false
  isH265 := false
  presentationTimeUs := 0
  visibleRegionByteRanges := []

/-- Encrypted, a full fragment is too long, whatever the functions and the key. -/
theorem encrypted_fragment_too_long :
    ¬ ∃ (arith : PriorityArith Unit) (sha : Sha256) (box : Secretbox) (iter : IterOrder UInt8)
      (key : SessionKey), ∀ wire ∈ (SessionSend.frame fullFrame .mode47 iter).datagrams arith
        sha box (some key), wire.length ≤ maxDatagram := by
  rintro ⟨arith, sha, box, iter, key, h⟩
  have hlength : fullFrame.frameBytes.length = 1366 := List.length_replicate
  rcases (datagrams_fit_iff arith sha box (some key) _).mp h with habsurd | hshort
  · cases habsurd
  · omega

end EvertyDesk.Evrt2
