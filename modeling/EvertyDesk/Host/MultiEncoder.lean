import EvertyDesk.Lib.Machine
import EvertyDesk.Host.Pipeline
import Mathlib.Data.List.MinMax

/-!
The encoders of a host. Every backend of the machine has a codec negotiated for
the client, and a frame goes through the backends in a fixed order until one of
them takes it; what is left over goes to the software encoder. A backend that
fails is not tried again.
-/

namespace EvertyDesk.Host

inductive NvencCodec where
  | h264
  | h265
  | av1
deriving DecidableEq, Repr

inductive EncoderPreference where
  | auto
  | nvenc
  | software
deriving DecidableEq, Repr

inductive CodecPreference where
  | evrtck
  | auto
  | h264
  | h265
  | av1
  | vp9
deriving DecidableEq, Repr

/-- What encoded frames are labelled with; in the code, strings. -/
inductive CodecLabel where
  | h264
  | h265
  | av1
  | png
  | evrtck
deriving DecidableEq, Repr

/-- The codecs that the machine's backends report. Those of Media Foundation may
be in software. -/
structure Backends where
  nvencEncoderCodecs : List NvencCodec
  onevplEncoderCodecs : List NvencCodec
  mfEncoderCodecs : List NvencCodec
  mfHardware : NvencCodec → Bool
  videotoolboxCodecs : List NvencCodec

/-! Negotiation. -/

def codecQualityRank : NvencCodec → Nat
  | .av1 => 4
  | .h265 => 3
  | .h264 => 1

def clientPrefersCodec : PreferCodec → NvencCodec → Bool
  | .av1, .av1 | .h265, .h265 | .h264, .h264 => true
  | _, _ => false

def explicitCodecTarget : CodecPreference → Option NvencCodec
  | .h264 => some .h264
  | .h265 => some .h265
  | .av1 => some .av1
  | .vp9 | .auto | .evrtck => none

def clientCanDecodeHardware (client : ClientVideoSupport) : NvencCodec → Bool
  | .h264 => client.h264
  | .h265 => client.h265
  | .av1 => client.av1

/-- The last of the entries with the largest key. -/
def maxByKey {α : Type} (key : α → Nat) (entries : List α) : Option α := entries.reverse.argmax key

section Negotiation

variable (encoderPreference : EncoderPreference) (codecPreference : CodecPreference)
  (client : ClientVideoSupport)

def codecScore (explicit : Option NvencCodec) (entry : NvencCodec × Bool) : Nat :=
  codecQualityRank entry.1 * 1000 +
    (if some entry.1 = explicit then 1000000 else 0) +
    (if clientPrefersCodec client.prefer entry.1 then 10000 else 0) +
    (if entry.2 then 200 else 0)

/-- What the client can decode, in software H264 only. -/
def usable (available : List (NvencCodec × Bool)) : List (NvencCodec × Bool) :=
  (available.filter fun entry => clientCanDecodeHardware client entry.1).filter
    fun entry => entry.2 || entry.1 == .h264

def negotiateBackendCodec (available : List (NvencCodec × Bool)) : Option NvencCodec :=
  if encoderPreference = .software ∨ available.isEmpty then none
  else
    let explicit := explicitCodecTarget codecPreference
    let narrowed := (usable client available).filter fun entry =>
      match explicit with
      | some want => entry.1 == want || entry.1 == .h264
      | none => true
    (maxByKey (codecScore client explicit) narrowed).map Prod.fst

variable (b : Backends)

/-- The codecs of a backend, each with its hardware flag. -/
def Backends.nvenc : List (NvencCodec × Bool) := b.nvencEncoderCodecs.map (·, true)

def Backends.onevpl : List (NvencCodec × Bool) := b.onevplEncoderCodecs.map (·, true)

def Backends.mf : List (NvencCodec × Bool) :=
  b.mfEncoderCodecs.map fun codec => (codec, b.mfHardware codec)

def Backends.videotoolbox : List (NvencCodec × Bool) := b.videotoolboxCodecs.map (·, true)

def chooseNvencCodec : Option NvencCodec :=
  negotiateBackendCodec encoderPreference codecPreference client b.nvenc

def chooseOnevplCodec : Option NvencCodec :=
  negotiateBackendCodec encoderPreference codecPreference client b.onevpl

def chooseMfEncoderCodec : Option NvencCodec :=
  negotiateBackendCodec encoderPreference codecPreference client b.mf

def chooseVideotoolboxCodec : Option NvencCodec :=
  negotiateBackendCodec encoderPreference codecPreference client b.videotoolbox

def negotiatedSessionCodec : Option NvencCodec :=
  (chooseNvencCodec encoderPreference codecPreference client b).or <|
    (chooseOnevplCodec encoderPreference codecPreference client b).or <|
      (chooseMfEncoderCodec encoderPreference codecPreference client b).or
        (chooseVideotoolboxCodec encoderPreference codecPreference client b)

end Negotiation

/-! Encoding. -/

structure EncodedPacket where
  bytes : List UInt8
  key : Bool
deriving DecidableEq, Repr

structure EncodedOutput where
  bytes : List UInt8
  key : Bool
  spsPps : Option (List UInt8)
  codec : CodecLabel
deriving DecidableEq, Repr

/-- What a backend makes of a frame: a packet, nothing yet, or an error. -/
inductive BackendResult where
  | packet (packet : EncodedPacket)
  | pending
  | failed
deriving DecidableEq, Repr

/-- What the encoders do with one frame. -/
structure EncodeCall where
  nvenc : BackendResult
  onevpl : BackendResult
  mf : BackendResult
  mfCodecConfig : Option (List UInt8)
  videotoolbox : BackendResult
  openh264 : Option EncodedPacket
  png : List UInt8
  forceKey : Bool
deriving DecidableEq, Repr

structure MultiEncoder where
  desiredNv : Option NvencCodec
  desiredVpl : Option NvencCodec
  desiredMf : Option NvencCodec
  desiredVt : Option NvencCodec
  nvDisabled : Bool
  vplDisabled : Bool
  mfDisabled : Bool
  vtDisabled : Bool
deriving DecidableEq, Repr

def codecLabel : NvencCodec → CodecLabel
  | .h265 => .h265
  | .av1 => .av1
  | .h264 => .h264

/-- A backend's turn: it takes the frame, even if it has nothing to put out yet, or
leaves it to the next one. -/
inductive Turn where
  | taken (output : Option EncodedOutput)
  | left (disabled : Bool)
deriving DecidableEq, Repr

def turn (desired : Option NvencCodec) (disabled : Bool) (result : BackendResult)
    (spsPps : Option (List UInt8)) : Turn :=
  match desired.filter fun _ => !disabled with
  | some codec =>
      match result with
      | .packet packet =>
          .taken (some {
            bytes := packet.bytes
            key := packet.key
            spsPps := if packet.key then spsPps else none
            codec := codecLabel codec })
      | .pending => .taken none
      | .failed => .left true
  | none => .left disabled

namespace MultiEncoder

def new (encoderPreference : EncoderPreference) (codecPreference : CodecPreference)
    (client : ClientVideoSupport) (b : Backends) : MultiEncoder where
  desiredNv := chooseNvencCodec encoderPreference codecPreference client b
  desiredVpl := chooseOnevplCodec encoderPreference codecPreference client b
  desiredMf := chooseMfEncoderCodec encoderPreference codecPreference client b
  desiredVt := chooseVideotoolboxCodec encoderPreference codecPreference client b
  nvDisabled := false
  vplDisabled := false
  mfDisabled := false
  vtDisabled := false

/-- After all backends: the software encoder, and for key frames a picture. -/
def encodeSoftware (call : EncodeCall) : Option EncodedOutput :=
  match call.openh264 with
  | some packet => some { bytes := packet.bytes, key := packet.key, spsPps := none, codec := .h264 }
  | none =>
      if call.forceKey then
        some { bytes := call.png, key := true, spsPps := none, codec := .png }
      else none

def encode (m : MultiEncoder) (call : EncodeCall) : MultiEncoder × Option EncodedOutput :=
  match turn m.desiredNv m.nvDisabled call.nvenc none with
  | .taken output => (m, output)
  | .left disabled =>
      let m := { m with nvDisabled := disabled }
      match turn m.desiredVpl m.vplDisabled call.onevpl none with
      | .taken output => (m, output)
      | .left disabled =>
          let m := { m with vplDisabled := disabled }
          match turn m.desiredMf m.mfDisabled call.mf call.mfCodecConfig with
          | .taken output => (m, output)
          | .left disabled =>
              let m := { m with mfDisabled := disabled }
              match turn m.desiredVt m.vtDisabled call.videotoolbox none with
              | .taken output => (m, output)
              | .left disabled =>
                  ({ m with vtDisabled := disabled }, encodeSoftware call)

variable (m : MultiEncoder) (call : EncodeCall)

/-- Encoding may disable backends; it does not change their codecs. -/
theorem encode_keeps :
    (m.encode call).1.desiredNv = m.desiredNv ∧ (m.encode call).1.desiredVpl = m.desiredVpl ∧
      (m.encode call).1.desiredMf = m.desiredMf ∧
      (m.encode call).1.desiredVt = m.desiredVt := by
  unfold encode
  dsimp only
  split
  · exact ⟨rfl, rfl, rfl, rfl⟩
  · split
    · exact ⟨rfl, rfl, rfl, rfl⟩
    · split
      · exact ⟨rfl, rfl, rfl, rfl⟩
      · split
        · exact ⟨rfl, rfl, rfl, rfl⟩
        · exact ⟨rfl, rfl, rfl, rfl⟩

/-- A backend takes the frame, or the software encoder does. -/
theorem encode_taken :
    (∃ desired ∈ [m.desiredNv, m.desiredVpl, m.desiredMf, m.desiredVt],
      ∃ disabled result spsPps, turn desired disabled result spsPps = .taken (m.encode call).2) ∨
    (m.encode call).2 = encodeSoftware call := by
  unfold encode
  dsimp only
  split
  next hturn => exact .inl ⟨m.desiredNv, by simp, _, _, _, hturn⟩
  · split
    next hturn => exact .inl ⟨m.desiredVpl, by simp, _, _, _, hturn⟩
    · split
      next hturn => exact .inl ⟨m.desiredMf, by simp, _, _, _, hturn⟩
      · split
        next hturn => exact .inl ⟨m.desiredVt, by simp, _, _, _, hturn⟩
        · exact .inr rfl

end MultiEncoder

def multiEncoder : Machine MultiEncoder EncodeCall (Option EncodedOutput) where
  step := MultiEncoder.encode

end EvertyDesk.Host
