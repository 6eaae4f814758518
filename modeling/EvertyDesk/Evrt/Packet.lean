import EvertyDesk.Lib.Bytes

/-!
EVRT datagrams: a header of 24 bytes in network byte order, a payload, and,
where the session has a token, an authentication tag at the end.

Header fields are natural numbers, written with the width of the header and
read back below it. Session tokens are the bytes of the source's strings. The
hash function is a parameter; only the length of its digests is assumed.
-/

namespace EvertyDesk.Evrt

/-- "EVRT". -/
def magic : Nat := 0x45565254
def version : Nat := 3
def headerSize : Nat := 24
def maxPacketSize : Nat := 1200
def maxPayloadSize : Nat := maxPacketSize - headerSize
def authTagSize : Nat := 16
def maxAuthPayloadSize : Nat := maxPacketSize - headerSize - authTagSize
def maxFramePacketCount : Nat := 16 * 1024

def typeVideoFrame : Nat := 3
def typeFec : Nat := 10

def flagKeyFrame : Nat := 1

/-- A parsed packet. The frame number is a 32-bit one, which its arithmetic
relies on; the other fields are only compared and copied. -/
structure EvrtPacket where
  packetType : Nat
  flags : Nat
  frameId : Nat
  packetIndex : Nat
  packetCount : Nat
  presentationTimeUs : Nat
  payload : List UInt8
  frameId_lt : frameId < 2 ^ 32
deriving DecidableEq

def EvrtPacket.isKeyFrame (packet : EvrtPacket) : Bool := packet.flags &&& flagKeyFrame != 0

/-- The flags of a frame's packets. -/
def frameFlags (isKeyFrame : Bool) : Nat :=
  if isKeyFrame then flagKeyFrame else 0

theorem parsed_id_lt (b : List UInt8) : beNat (field b 8 4) < 2 ^ 32 := beNat_field_lt b 8 4

def parse (buf : List UInt8) (len : Nat) : Option EvrtPacket :=
  if len < headerSize ∨ len > maxPacketSize ∨ len > buf.length then none
  else
    let b := buf.take len
    if beNat (field b 0 4) ≠ magic then none
    else if beNat (field b 4 1) ≠ version then none
    else
      let packetType := beNat (field b 5 1)
      let flags := beNat (field b 6 2)
      let packetIndex := beNat (field b 12 2)
      let packetCount := beNat (field b 14 2)
      if packetCount = 0 ∨ packetIndex ≥ packetCount ∨ packetCount > maxFramePacketCount then none
      else
        some {
          packetType := packetType
          flags := flags
          frameId := beNat (field b 8 4)
          packetIndex := packetIndex
          packetCount := packetCount
          presentationTimeUs := beNat (field b 16 8)
          payload := b.drop headerSize
          frameId_lt := parsed_id_lt b }

def buildPacket (packetType flags frameId packetIndex packetCount
    presentationTimeUs : Nat) (payload : List UInt8) : List UInt8 :=
  beBytes 4 magic ++ (beBytes 1 version ++ (beBytes 1 packetType ++
    (beBytes 2 flags ++ (beBytes 4 frameId ++ (beBytes 2 packetIndex ++
      (beBytes 2 packetCount ++ (beBytes 8 presentationTimeUs ++ payload)))))))

@[simp] theorem buildPacket_length (packetType flags frameId packetIndex
    packetCount pts : Nat) (payload : List UInt8) :
    (buildPacket packetType flags frameId packetIndex packetCount pts
      payload).length = headerSize + payload.length := by
  simp only [buildPacket, List.length_append, beBytes_length, headerSize]
  omega

/-- The header fields of a packet fit their widths. -/
structure EvrtPacket.Fits (packet : EvrtPacket) : Prop where
  packetType : packet.packetType < 256
  flags : packet.flags < 2 ^ 16
  index : packet.packetIndex < packet.packetCount
  count : packet.packetCount ≤ maxFramePacketCount
  time : packet.presentationTimeUs < 2 ^ 64
  payload : packet.payload.length ≤ maxPayloadSize

def EvrtPacket.build (packet : EvrtPacket) : List UInt8 :=
  buildPacket packet.packetType packet.flags packet.frameId packet.packetIndex
    packet.packetCount packet.presentationTimeUs packet.payload

/-- A packet whose fields fit is read back as it was written. -/
theorem parse_build (packet : EvrtPacket) (h : packet.Fits) :
    parse packet.build packet.build.length = some packet := by
  have hlength : packet.build.length = headerSize + packet.payload.length := buildPacket_length ..
  have hbounds : ¬ (packet.build.length < headerSize ∨
      packet.build.length > maxPacketSize ∨
      packet.build.length > packet.build.length) := by
    have hpayload := h.payload
    simp only [hlength, headerSize, maxPacketSize, maxPayloadSize] at *
    omega
  have hmagic : beNat (field packet.build 0 4) = magic := by
    rw [EvrtPacket.build, buildPacket, field_here (beBytes_length ..)]
    exact beNat_beBytes_of_lt (by decide)
  have hversion : beNat (field packet.build 4 1) = version := by
    simp [EvrtPacket.build, buildPacket, field_skip, field_here, beNat_beBytes, version]
  have htype : beNat (field packet.build 5 1) = packet.packetType := by
    simp [EvrtPacket.build, buildPacket, field_skip, field_here, beNat_beBytes,
      Nat.mod_eq_of_lt h.packetType]
  have hflags : beNat (field packet.build 6 2) = packet.flags := by
    simpa [EvrtPacket.build, buildPacket, field_skip, field_here, beNat_beBytes,
      Nat.mod_eq_iff_lt] using h.flags
  have hid : beNat (field packet.build 8 4) = packet.frameId := by
    simpa [EvrtPacket.build, buildPacket, field_skip, field_here, beNat_beBytes,
      Nat.mod_eq_iff_lt] using packet.frameId_lt
  have hcount16 : packet.packetCount < 65536 := h.count.trans_lt (by decide)
  have hindex : beNat (field packet.build 12 2) = packet.packetIndex := by
    simp [EvrtPacket.build, buildPacket, field_skip, field_here, beNat_beBytes,
      Nat.mod_eq_of_lt (h.index.trans hcount16)]
  have hcount : beNat (field packet.build 14 2) = packet.packetCount := by
    simp [EvrtPacket.build, buildPacket, field_skip, field_here, beNat_beBytes,
      Nat.mod_eq_of_lt hcount16]
  have htime : beNat (field packet.build 16 8) = packet.presentationTimeUs := by
    simpa [EvrtPacket.build, buildPacket, field_skip, field_here, beNat_beBytes,
      Nat.mod_eq_iff_lt] using h.time
  have hpayload : packet.build.drop headerSize = packet.payload := by
    simp [EvrtPacket.build, buildPacket, headerSize, List.drop_append, List.drop_eq_nil_of_le]
  have hvalid : ¬ (packet.packetCount = 0 ∨
      packet.packetIndex ≥ packet.packetCount ∨
      packet.packetCount > maxFramePacketCount) := by
    have := h.index
    have := h.count
    omega
  unfold parse
  rw [if_neg hbounds]
  simp only [List.take_length, hmagic, hversion, htype, hflags, hid, hindex,
    hcount, htime, hpayload, ne_eq, not_true_eq_false, if_false, if_neg hvalid]

/-- The hash function of the source's `sha2`. -/
structure Sha256 where
  digest : List UInt8 → List UInt8
  digest_length : ∀ message, (digest message).length = 32

namespace Sha256

variable (sha : Sha256)

def hmacBlock : Nat := 64

/-- The key of the construction, padded to a whole block. -/
def keyBlock (key : List UInt8) : List UInt8 :=
  let short := if key.length > hmacBlock then sha.digest key else key
  short ++ List.replicate (hmacBlock - short.length) 0

def hmacSha256 (key msg : List UInt8) : List UInt8 :=
  let ipad := (sha.keyBlock key).map (0x36 ^^^ ·)
  let opad := (sha.keyBlock key).map (0x5c ^^^ ·)
  sha.digest (opad ++ sha.digest (ipad ++ msg))

def authTag (sessionToken packetBody : List UInt8) : List UInt8 :=
  (sha.hmacSha256 sessionToken packetBody).take authTagSize

@[simp] theorem authTag_length (sessionToken packetBody : List UInt8) :
    (sha.authTag sessionToken packetBody).length = authTagSize := by
  simp [authTag, hmacSha256, sha.digest_length, authTagSize]

/-- The comparison collects the differences of all bytes before it decides. -/
def authTagMatches (sessionToken packetBody tag : List UInt8) : Bool :=
  if tag.length ≠ authTagSize then false
  else
    let expected := sha.authTag sessionToken packetBody
    ((expected.zip tag).foldl (fun diff pair => diff ||| (pair.1 ^^^ pair.2)) 0) = 0

theorem authTagMatches_self (sessionToken packetBody : List UInt8) :
    sha.authTagMatches sessionToken packetBody (sha.authTag sessionToken packetBody) = true := by
  have hzero : ∀ bytes : List UInt8, (bytes.zip bytes).foldl
      (fun diff pair => diff ||| (pair.1 ^^^ pair.2)) (0 : UInt8) = 0 := by
    intro bytes
    induction bytes with
    | nil => rfl
    | cons byte bytes ih => simpa using ih
  simp [authTagMatches, hzero]

end Sha256

def sessionTokenHexLen : Nat := 32

def isAsciiHexdigit (byte : UInt8) : Bool :=
  decide (48 ≤ byte ∧ byte ≤ 57) || decide (65 ≤ byte ∧ byte ≤ 70) ||
    decide (97 ≤ byte ∧ byte ≤ 102)

def validSessionToken (token : List UInt8) : Bool :=
  decide (token.length = sessionTokenHexLen) && token.all isAsciiHexdigit

variable (sha : Sha256)

def parseAuthenticated (buf : List UInt8) (len : Nat)
    (sessionToken : Option (List UInt8)) : Option EvrtPacket :=
  match sessionToken.filter validSessionToken with
  | none => parse buf len
  | some token =>
      if len < headerSize + authTagSize ∨ len > maxPacketSize ∨ len > buf.length then none
      else
        let bodyLen := len - authTagSize
        let body := buf.take bodyLen
        let tag := (buf.take len).drop bodyLen
        if !sha.authTagMatches token body tag then none
        else parse body bodyLen

def buildPacketAuthenticated (packetType flags frameId packetIndex packetCount
    presentationTimeUs : Nat) (payload : List UInt8)
    (sessionToken : Option (List UInt8)) : List UInt8 :=
  match sessionToken.filter validSessionToken with
  | none =>
      buildPacket packetType flags frameId packetIndex packetCount presentationTimeUs payload
  | some token =>
      if payload.length > maxAuthPayloadSize then []
      else
        let pkt := buildPacket packetType flags frameId packetIndex packetCount
          presentationTimeUs payload
        pkt ++ sha.authTag token pkt

/-- The payload that one datagram of a session can carry. -/
def baseMax (sessionToken : Option (List UInt8)) : Nat :=
  if sessionToken.any validSessionToken then maxAuthPayloadSize
  else maxPayloadSize

/-- A datagram built for a session is read back by the same session. -/
theorem parseAuthenticated_build (packet : EvrtPacket) (h : packet.Fits)
    (sessionToken : Option (List UInt8))
    (hpayload : packet.payload.length ≤ baseMax sessionToken) :
    let datagram := buildPacketAuthenticated sha packet.packetType packet.flags
      packet.frameId packet.packetIndex packet.packetCount
      packet.presentationTimeUs packet.payload sessionToken
    parseAuthenticated sha datagram datagram.length sessionToken = some packet := by
  intro datagram
  unfold parseAuthenticated
  cases htoken : sessionToken.filter validSessionToken with
  | none =>
      have hdatagram : datagram = packet.build := by
        simp only [datagram, buildPacketAuthenticated, htoken, EvrtPacket.build]
      rw [hdatagram]
      exact parse_build packet h
  | some token =>
      have hmax : baseMax sessionToken = maxAuthPayloadSize := by
        obtain ⟨held, hvalid⟩ := Option.filter_eq_some_iff.mp htoken
        simp [baseMax, held, hvalid]
      rw [hmax] at hpayload
      have hdatagram : datagram = packet.build ++ sha.authTag token packet.build := by
        simp only [datagram, buildPacketAuthenticated, htoken, EvrtPacket.build,
          if_neg (Nat.not_lt.mpr hpayload)]
      have hbody : packet.build.length = headerSize + packet.payload.length := buildPacket_length ..
      have hlength : datagram.length = headerSize + packet.payload.length + authTagSize := by
        rw [hdatagram, List.length_append, hbody, sha.authTag_length]
      have hbounds : ¬ (datagram.length < headerSize + authTagSize ∨
          datagram.length > maxPacketSize ∨
          datagram.length > datagram.length) := by
        simp only [maxAuthPayloadSize, maxPacketSize, headerSize, authTagSize] at *
        omega
      have hbodyLen : datagram.length - authTagSize = packet.build.length := by
        rw [hlength, hbody]
        omega
      have htake : datagram.take packet.build.length = packet.build := by
        rw [hdatagram, List.take_left]
      have htag : datagram.drop packet.build.length = sha.authTag token packet.build := by
        rw [hdatagram, List.drop_left]
      simp only [if_neg hbounds, List.take_length, hbodyLen, htake, htag,
        sha.authTagMatches_self, Bool.not_true, Bool.false_eq_true, if_false]
      exact parse_build packet h

end EvertyDesk.Evrt
