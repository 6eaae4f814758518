import EvertyDesk.Transport.BatchDecoding
import Mathlib.Data.Fintype.Basic

/-!
The guard in front of the system's video decoders, which do not survive a stream of
another codec. It looks at the byte after the first start code near the beginning of
the first packet and gives a stream up if that byte opens a frame of the other codec.
Three bytes open a frame of both.
-/

namespace EvertyDesk.Transport

/-- What the scan finds at one position: the byte after a start code, unless the
window ends there. -/
def nalByteAt (window : List UInt8) (i : Nat) : Option (Option UInt8) :=
  if window[i]? = some 0 ∧ window[i + 1]? = some 0 then
    if window[i + 2]? = some 1 then some window[i + 3]?
    else if window[i + 2]? = some 0 ∧ window[i + 3]? = some 1 then some window[i + 4]?
    else none
  else none

def firstNalByte (data : List UInt8) : Option UInt8 :=
  let horizon := min data.length 64
  let window := data.take horizon
  ((List.range (window.length - 3)).findSome? (nalByteAt window)).join

def opensH264 (b : UInt8) : Bool :=
  b &&& 0x80 == 0 && ([5, 7, 8] : List UInt8).contains (b &&& 0x1F)

def looksLikeH264 (data : List UInt8) : Bool :=
  match firstNalByte data with
  | some b => opensH264 b
  | none => false

def opensH265 (b : UInt8) : Bool :=
  b &&& 0x80 == 0 && ([19, 20, 32, 33, 34] : List UInt8).contains ((b >>> 1) &&& 0x3F)

def looksLikeH265 (data : List UInt8) : Bool :=
  match firstNalByte data with
  | some b => opensH265 b
  | none => false

inductive MfVideoCodec where
  | vp9
  | h264
  | h265
  | av1
deriving DecidableEq, Repr

structure EncodedVideoFrame where
  data : List UInt8
deriving DecidableEq, Repr

/-- The system's decoders. -/
structure MediaFoundation (Decoder : Type) where
  new : MfVideoCodec → UInt32 → UInt32 → Except String Decoder
  isFor : Decoder → MfVideoCodec → UInt32 → UInt32 → Bool
  decodePackets : Decoder → List (List UInt8) → Except String (Option Picture) × Decoder

/-- There are none but on Windows. -/
def noMediaFoundation : MediaFoundation Unit where
  new _ _ _ := .error "Media Foundation video decoder is available only on Windows"
  isFor _ _ _ _ := false
  decodePackets _ _ := (.error "Media Foundation video decoder is available only on Windows", ())

inductive MfDecodeError where
  | foreignStream (codec : MfVideoCodec) (first : UInt8)
  | decoder (text : String)
deriving DecidableEq, Repr

def mismatch (codec : MfVideoCodec) (frames : List EncodedVideoFrame) : Bool :=
  match frames with
  | [] => false
  | first :: _ =>
      match codec with
      | .h265 => looksLikeH264 first.data
      | _ => looksLikeH265 first.data

section

variable {Decoder : Type} (mf : MediaFoundation Decoder)

def decodeMfVideoRgba (decoder : Option Decoder) (codec : MfVideoCodec) (width height : UInt32)
    (frames : List EncodedVideoFrame) :
    Except MfDecodeError (Option Picture) × Option Decoder :=
  if mismatch codec frames then
    let first := ((frames.head?.map (·.data)).bind firstNalByte).getD 0
    (.error (.foreignStream codec first), decoder)
  else
    let recreated : Except String Decoder :=
      match decoder with
      | some decoder =>
          if mf.isFor decoder codec width height then .ok decoder else mf.new codec width height
      | none => mf.new codec width height
    match recreated with
    | .error text => (.error (.decoder text), decoder)
    | .ok decoder =>
        let (decoded, decoder) := mf.decodePackets decoder (frames.map EncodedVideoFrame.data)
        (decoded.mapError .decoder, some decoder)

/-- The stream is given up as one of another codec. -/
def CondemnedAs (codec : MfVideoCodec) (decoder : Option Decoder) (width height : UInt32)
    (frames : List EncodedVideoFrame) : Prop :=
  ∃ first, (decodeMfVideoRgba mf decoder codec width height frames).1 =
    .error (.foreignStream codec first)

/-- No stream looks like both codecs, and none that looks like the one is given up by
the decoder of the one. -/
def NeverCondemned (data : List UInt8) : Prop :=
  ¬ (looksLikeH264 data ∧ looksLikeH265 data) ∧
    ∀ (decoder : Option Decoder) (width height : UInt32) (rest : List EncodedVideoFrame),
      (looksLikeH265 data → ¬ CondemnedAs mf .h265 decoder width height (⟨data⟩ :: rest)) ∧
      (looksLikeH264 data → ¬ CondemnedAs mf .h264 decoder width height (⟨data⟩ :: rest))

/-! What the guard gives up. -/

theorem condemnedAs_iff {codec : MfVideoCodec} {decoder : Option Decoder}
    {width height : UInt32} {frames : List EncodedVideoFrame} :
    CondemnedAs mf codec decoder width height frames ↔ mismatch codec frames := by
  unfold CondemnedAs decodeMfVideoRgba
  cases hmismatch : mismatch codec frames with
  | true =>
      rw [if_pos rfl]
      simp
  | false =>
      rw [if_neg Bool.false_ne_true]
      simp only [Bool.false_eq_true, iff_false, not_exists]
      intro first hfirst
      split at hfirst
      · cases hfirst
      · rename_i usable _
        cases hdecoded : (mf.decodePackets usable (frames.map EncodedVideoFrame.data)).1 with
        | error text =>
            rw [hdecoded] at hfirst
            cases hfirst
        | ok picture =>
            rw [hdecoded] at hfirst
            cases hfirst

/-! The first bytes that open a frame of both codecs. -/

private theorem opensBoth_fin : ∀ n : Fin 256,
    opensH264 (UInt8.ofNat n.val) ∧ opensH265 (UInt8.ofNat n.val) ↔
      UInt8.ofNat n.val ∈ ([0x27, 0x28, 0x45] : List UInt8) := by
  decide +kernel

theorem looksLikeBoth_iff (data : List UInt8) :
    looksLikeH264 data ∧ looksLikeH265 data ↔
      ∃ b ∈ ([0x27, 0x28, 0x45] : List UInt8), firstNalByte data = some b := by
  unfold looksLikeH264 looksLikeH265
  cases hfirst : firstNalByte data with
  | none => simp
  | some b =>
      have hboth := opensBoth_fin ⟨b.toNat, b.toNat_lt⟩
      rw [UInt8.ofNat_toNat] at hboth
      rw [hboth]
      constructor
      · intro hmem
        exact ⟨b, hmem, rfl⟩
      · rintro ⟨other, hmem, hother⟩
        cases hother
        exact hmem

/-- The guard is right about every stream except those whose first start code is
followed by one of three bytes. -/
theorem neverCondemned_iff (data : List UInt8) :
    NeverCondemned mf data ↔
      ¬ ∃ b ∈ ([0x27, 0x28, 0x45] : List UInt8), firstNalByte data = some b := by
  rw [← looksLikeBoth_iff]
  constructor
  · intro hnever
    exact hnever.1
  · intro hboth
    refine ⟨hboth, ?_⟩
    intro decoder width height rest
    refine ⟨fun h265 hcondemned => ?_, fun h264 hcondemned => ?_⟩
    · have h264 : looksLikeH264 data := (condemnedAs_iff mf).mp hcondemned
      exact hboth ⟨h264, h265⟩
    · have h265 : looksLikeH265 data := (condemnedAs_iff mf).mp hcondemned
      exact hboth ⟨h264, h265⟩

/-- An IDR_N_LP slice of H.265 also reads as a picture parameter set of H.264, and a
stream that starts with one is kept from its decoder. -/
theorem idrNLp_condemned :
    looksLikeH265 [0, 0, 0, 1, 0x28, 0x01] ∧
      CondemnedAs noMediaFoundation .h265 none 1920 1080 [⟨[0, 0, 0, 1, 0x28, 0x01]⟩] ∧
      ¬ NeverCondemned noMediaFoundation [0, 0, 0, 1, 0x28, 0x01] := by
  refine ⟨by decide, ⟨0x28, by decide⟩, ?_⟩
  intro hnever
  apply hnever.1
  decide

end

end EvertyDesk.Transport
