import EvertyDesk.Lib.Bytes

/-!
EVRT2 datagrams: a header of 32 bytes in network byte order and a payload.

Header fields have the machine types of the source, so that a header is always
one that can be written, and what is written is read back.
-/

namespace EvertyDesk.Evrt2

/-- "EVR2". -/
def magic : Nat := 0x45565232
def version : Nat := 2
def headerLen : Nat := 32
def maxDatagram : Nat := 1400
def maxPayload : Nat := maxDatagram - headerLen

inductive PacketType where
  | sessionHello
  | sessionAck
  | codecConfig
  | modeSwitch
  | videoFrame
  | audioFrame
  | feedback
  | keepalive
  | fecRepair
  | idrRequest
  | goodbye
  | relayWrap
  | degradeSignal
  | apfUpdate
deriving DecidableEq, Repr

def PacketType.toNat : PacketType → Nat
  | sessionHello => 0x01
  | sessionAck => 0x02
  | codecConfig => 0x03
  | modeSwitch => 0x04
  | videoFrame => 0x05
  | audioFrame => 0x06
  | feedback => 0x07
  | keepalive => 0x08
  | fecRepair => 0x09
  | idrRequest => 0x0A
  | goodbye => 0x0B
  | relayWrap => 0x0C
  | degradeSignal => 0x0D
  | apfUpdate => 0x0E

def PacketType.fromU8 : Nat → Option PacketType
  | 0x01 => some sessionHello
  | 0x02 => some sessionAck
  | 0x03 => some codecConfig
  | 0x04 => some modeSwitch
  | 0x05 => some videoFrame
  | 0x06 => some audioFrame
  | 0x07 => some feedback
  | 0x08 => some keepalive
  | 0x09 => some fecRepair
  | 0x0A => some idrRequest
  | 0x0B => some goodbye
  | 0x0C => some relayWrap
  | 0x0D => some degradeSignal
  | 0x0E => some apfUpdate
  | _ => none

/-- Static picture, video, gaming. -/
inductive Mode where
  | ar
  | r2
  | mode47
deriving DecidableEq, Repr

def Mode.toNat : Mode → Nat
  | ar => 0x01
  | r2 => 0x02
  | mode47 => 0x47

def Mode.fromU8 : Nat → Option Mode
  | 0x01 => some ar
  | 0x02 => some r2
  | 0x47 => some mode47
  | _ => none

@[simp] theorem PacketType.fromU8_toNat (t : PacketType) :
    PacketType.fromU8 t.toNat = some t := by
  cases t <;> rfl

@[simp] theorem Mode.fromU8_toNat (mode : Mode) :
    Mode.fromU8 mode.toNat = some mode := by
  cases mode <;> rfl

/-- The type of a packet fits its four bits. -/
theorem PacketType.toNat_lt (t : PacketType) : t.toNat < 16 := by
  cases t <;> decide

theorem Mode.toNat_lt (mode : Mode) : mode.toNat < 256 := by
  cases mode <;> decide

def flagIsKeyframe : UInt16 := (1 : UInt16) <<< 0
def flagIsSilicon : UInt16 := (1 : UInt16) <<< 1
def flagFecEnabled : UInt16 := (1 : UInt16) <<< 6
def flagVisibleRegion : UInt16 := (1 : UInt16) <<< 8
def flagIsH265 : UInt16 := (1 : UInt16) <<< 9

structure PacketHeader where
  packetType : PacketType
  mode : Mode
  flags : UInt16
  frameId : UInt32
  packetIndex : UInt16
  packetCount : UInt16
  presentationTimeUs : UInt64
  fecGroup : UInt8
  fecIdx : UInt8
  fecTotal : UInt8
  authTag : UInt32
deriving DecidableEq

inductive HeaderDecodeError where
  | tooShort (got need : Nat)
  | badMagic (got : Nat)
  | unsupportedVersion (got : Nat)
  | unknownPacketType (got : Nat)
  | unknownMode (got : Nat)
deriving DecidableEq, Repr

/-- The version in the high four bits, the type in the low ones. -/
def PacketHeader.verType (header : PacketHeader) : Nat :=
  version * 16 + header.packetType.toNat % 16

def PacketHeader.encode (header : PacketHeader) (payload : List UInt8) : List UInt8 :=
  beBytes 4 magic ++ (beBytes 1 header.verType ++
    (beBytes 1 header.mode.toNat ++ (beBytes 2 header.flags.toNat ++
      (beBytes 4 header.frameId.toNat ++ (beBytes 2 header.packetIndex.toNat ++
        (beBytes 2 header.packetCount.toNat ++
          (beBytes 8 header.presentationTimeUs.toNat ++
            (beBytes 1 header.fecGroup.toNat ++ (beBytes 1 header.fecIdx.toNat ++
              (beBytes 1 header.fecTotal.toNat ++ (beBytes 1 0 ++
                (beBytes 4 header.authTag.toNat ++ payload))))))))))))

/-- Read a header and the payload after it. The reserved byte is ignored. -/
def PacketHeader.decode (data : List UInt8) :
    Except HeaderDecodeError (PacketHeader × List UInt8) :=
  if data.length < headerLen then .error (.tooShort data.length headerLen)
  else if beNat (field data 0 4) ≠ magic then
    .error (.badMagic (beNat (field data 0 4)))
  else
    let verType := beNat (field data 4 1)
    let ver := verType / 16
    if ver ≠ version then .error (.unsupportedVersion ver)
    else
      let typeNibble := verType % 16
      match PacketType.fromU8 typeNibble with
      | none => .error (.unknownPacketType typeNibble)
      | some packetType =>
          let modeByte := beNat (field data 5 1)
          match Mode.fromU8 modeByte with
          | none => .error (.unknownMode modeByte)
          | some mode =>
              .ok ({
                packetType := packetType
                mode := mode
                flags := UInt16.ofNat (beNat (field data 6 2))
                frameId := UInt32.ofNat (beNat (field data 8 4))
                packetIndex := UInt16.ofNat (beNat (field data 12 2))
                packetCount := UInt16.ofNat (beNat (field data 14 2))
                presentationTimeUs := UInt64.ofNat (beNat (field data 16 8))
                fecGroup := UInt8.ofNat (beNat (field data 24 1))
                fecIdx := UInt8.ofNat (beNat (field data 25 1))
                fecTotal := UInt8.ofNat (beNat (field data 26 1))
                authTag := UInt32.ofNat (beNat (field data 28 4)) },
                data.drop headerLen)

theorem PacketHeader.encode_length (header : PacketHeader) (payload : List UInt8) :
    (header.encode payload).length = headerLen + payload.length := by
  simp only [PacketHeader.encode, List.length_append, beBytes_length, headerLen]
  omega

theorem PacketHeader.verType_lt (header : PacketHeader) : header.verType < 256 := by
  simp only [PacketHeader.verType, version]
  omega

/-- Every header is read back as it was written, with its payload. -/
@[simp] theorem PacketHeader.decode_encode (header : PacketHeader)
    (payload : List UInt8) :
    PacketHeader.decode (header.encode payload) = .ok (header, payload) := by
  have hlength := header.encode_length payload
  have hshort : ¬ (header.encode payload).length < headerLen := by
    rw [hlength]
    omega
  have hmagic : beNat (field (header.encode payload) 0 4) = magic := by
    rw [PacketHeader.encode, field_here (beBytes_length ..)]
    exact beNat_beBytes_of_lt (by decide)
  have hver : beNat (field (header.encode payload) 4 1) = header.verType := by
    simp [PacketHeader.encode, field_skip, field_here, beNat_beBytes,
      Nat.mod_eq_of_lt header.verType_lt]
  have hmode : beNat (field (header.encode payload) 5 1) = header.mode.toNat := by
    simp [PacketHeader.encode, field_skip, field_here, beNat_beBytes,
      Nat.mod_eq_of_lt header.mode.toNat_lt]
  have hflags : UInt16.ofNat (beNat (field (header.encode payload) 6 2)) =
      header.flags := by
    simp [PacketHeader.encode, field_skip, field_here]
  have hid : UInt32.ofNat (beNat (field (header.encode payload) 8 4)) =
      header.frameId := by
    simp [PacketHeader.encode, field_skip, field_here]
  have hindex : UInt16.ofNat (beNat (field (header.encode payload) 12 2)) =
      header.packetIndex := by
    simp [PacketHeader.encode, field_skip, field_here]
  have hcount : UInt16.ofNat (beNat (field (header.encode payload) 14 2)) =
      header.packetCount := by
    simp [PacketHeader.encode, field_skip, field_here]
  have htime : UInt64.ofNat (beNat (field (header.encode payload) 16 8)) =
      header.presentationTimeUs := by
    simp [PacketHeader.encode, field_skip, field_here]
  have hgroup : UInt8.ofNat (beNat (field (header.encode payload) 24 1)) =
      header.fecGroup := by
    simp [PacketHeader.encode, field_skip, field_here]
  have hidx : UInt8.ofNat (beNat (field (header.encode payload) 25 1)) =
      header.fecIdx := by
    simp [PacketHeader.encode, field_skip, field_here]
  have htotal : UInt8.ofNat (beNat (field (header.encode payload) 26 1)) =
      header.fecTotal := by
    simp [PacketHeader.encode, field_skip, field_here]
  have htag : UInt32.ofNat (beNat (field (header.encode payload) 28 4)) =
      header.authTag := by
    simp [PacketHeader.encode, field_skip, field_here]
  have hpayload : (header.encode payload).drop headerLen = payload := by
    simp [PacketHeader.encode, headerLen, List.drop_append, List.drop_eq_nil_of_le]
  have htype := header.packetType.toNat_lt
  have hhigh : header.verType / 16 = version := by
    simp only [PacketHeader.verType, version]
    omega
  have hlow : header.verType % 16 = header.packetType.toNat := by
    simp only [PacketHeader.verType, version]
    omega
  simp only [PacketHeader.decode, hmagic, hver, hmode, hflags, hid,
    hindex, hcount, htime, hgroup, hidx, htotal, htag, hpayload, hhigh, hlow,
    PacketType.fromU8_toNat, Mode.fromU8_toNat]
  rw [if_neg hshort]
  simp

/-- Datagrams that are equal carry the same header and payload. -/
theorem PacketHeader.encode_inj {left right : PacketHeader} {leftPayload rightPayload : List UInt8}
    (h : left.encode leftPayload = right.encode rightPayload) :
    left = right ∧ leftPayload = rightPayload := by
  have hdecoded := congrArg PacketHeader.decode h
  rw [decode_encode, decode_encode] at hdecoded
  simpa using hdecoded

end EvertyDesk.Evrt2
