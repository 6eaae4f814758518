import EvertyDesk.Client.ReassemblerExactness
import EvertyDesk.Evrt.Packetize
import EvertyDesk.Host.MultiEncoder

/-!
The client's receive thread, as far as video goes. Codec names and parameter sets
come in packets of one type, told apart by their first byte: a name is passed on to
the decoder's thread, anything else is kept by the reassembler.
-/

namespace EvertyDesk.EvrtClient

open Evrt Reassembler

/-- A datagram from the host, and the codec of the frame that it was sent for. -/
structure InFlight where
  bytes : List UInt8
  codec : Host.CodecLabel
deriving DecidableEq, Repr

/-- ASCII names begin with a letter, parameter sets with the zeros of a start code. -/
def isCodecName (payload : List UInt8) : Bool := decide (payload.headD 0 ≥ 0x41)

def codecName (payload : List UInt8) : Option String :=
  (String.fromUTF8? ⟨payload.toArray⟩).map String.toUpper

/-- What a packet leads to outside the receive thread. -/
inductive Reaction where
  | nothing
  | codecChange (name : String)
  | enqueue (delivery : Delivery)
deriving DecidableEq

section Receiving

variable (iter : IterOrder Nat) (sha : Sha256) (sessionToken : Option (List UInt8))
  (r : ChannelReassembler)

def onPacket (pkt : EvrtPacket) (now : Nat) : ChannelReassembler × Reaction :=
  if pkt.packetType = typeCodecConfig then
    if isCodecName pkt.payload then
      match codecName pkt.payload with
      | some name => (r, .codecChange name)
      | none => (r, .nothing)
    else (r.setCodecConfig pkt.payload, .nothing)
  else if pkt.packetType = typeFec then
    match r.onFecPacket pkt now with
    | (r, some delivery) => (r, .enqueue delivery)
    | (r, none) => (r, .nothing)
  else if pkt.packetType = typeVideoFrame then
    match r.onPacket iter pkt now with
    | (r, some delivery) => (r, .enqueue delivery)
    | (r, none) => (r, .nothing)
  else (r, .nothing)

def onDatagram (datagram : List UInt8) (now : Nat) : ChannelReassembler × Reaction :=
  match parseAuthenticated sha datagram datagram.length sessionToken with
  | none => (r, .nothing)
  | some pkt => onPacket iter r pkt now

/-- The name that a datagram is read as. -/
def nameIn (datagram : List UInt8) : Option String :=
  match parseAuthenticated sha datagram datagram.length sessionToken with
  | none => none
  | some pkt =>
      if pkt.packetType = typeCodecConfig ∧ isCodecName pkt.payload then
        codecName pkt.payload
      else none

/-- The parameter sets that a datagram is read as. -/
def configIn (datagram : List UInt8) : Option (List UInt8) :=
  match parseAuthenticated sha datagram datagram.length sessionToken with
  | none => none
  | some pkt =>
      if pkt.packetType = typeCodecConfig ∧ !isCodecName pkt.payload then some pkt.payload
      else none

end Receiving

section Dispatch

variable {iter : IterOrder Nat} {sha : Sha256} {sessionToken : Option (List UInt8)}
  {r : ChannelReassembler} {datagram : List UInt8} {now : Nat}

/-- A datagram is a name, or parameter sets, or concerns the reassembler alone. -/
theorem onDatagram_cases (iter : IterOrder Nat) (sha : Sha256)
    (sessionToken : Option (List UInt8)) (r : ChannelReassembler) (datagram : List UInt8)
    (now : Nat) :
    (∃ name, nameIn sha sessionToken datagram = some name ∧
      configIn sha sessionToken datagram = none ∧
      onDatagram iter sha sessionToken r datagram now = (r, .codecChange name)) ∨
    (∃ config, nameIn sha sessionToken datagram = none ∧
      configIn sha sessionToken datagram = some config ∧
      onDatagram iter sha sessionToken r datagram now = (r.setCodecConfig config, .nothing)) ∨
    (nameIn sha sessionToken datagram = none ∧
      configIn sha sessionToken datagram = none ∧
      onDatagram iter sha sessionToken r datagram now =
        ((receive iter sha sessionToken r datagram now).1,
          match (receive iter sha sessionToken r datagram now).2 with
          | some delivery => .enqueue delivery
          | none => .nothing)) := by
  unfold nameIn configIn onDatagram receive
  cases parseAuthenticated sha datagram datagram.length sessionToken with
  | none => exact .inr (.inr ⟨rfl, rfl, rfl⟩)
  | some pkt =>
      dsimp only [onPacket]
      by_cases hconfig : pkt.packetType = typeCodecConfig
      · have hother : typeCodecConfig ≠ typeFec ∧ typeCodecConfig ≠ typeVideoFrame := by
          decide
        cases hname : isCodecName pkt.payload with
        | true =>
            cases htext : codecName pkt.payload with
            | some name => exact .inl ⟨name, by simp [hconfig], by simp, by simp [hconfig]⟩
            | none => exact .inr (.inr ⟨by simp, by simp, by simp [hconfig, hother]⟩)
        | false => exact .inr (.inl ⟨pkt.payload, by simp, by simp [hconfig], by simp [hconfig]⟩)
      · refine .inr (.inr ⟨by simp [hconfig], by simp [hconfig], ?_⟩)
        rw [if_neg hconfig]
        split
        · cases r.onFecPacket pkt now with
          | mk next out => cases out <;> rfl
        · split
          · cases r.onPacket iter pkt now with
            | mk next out => cases out <;> rfl
          · rfl

end Dispatch

end EvertyDesk.EvrtClient
