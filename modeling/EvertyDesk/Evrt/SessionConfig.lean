import EvertyDesk.Evrt.JsonFields
import EvertyDesk.Evrt.Packetize
import EvertyDesk.Lib.Utf8

/-!
What the host tells its client of the stream and of the sound. A configuration is read as
it was written unless one of its texts has a quote, or is the name of a field that is
written behind it.
-/

namespace EvertyDesk.Evrt

open JsonObject

def typeSessionConfig : Nat := 1

structure SessionConfig where
  codec : List Char
  preset : List Char
  width : UInt32
  height : UInt32
  fps : UInt32
  bitrate : UInt32
  streamMode : List Char
  adaptationMode : List Char
deriving DecidableEq

namespace SessionConfig

variable (cfg : SessionConfig)

def text : List Char :=
  "\x7b\"codec\":\"".toList ++ cfg.codec ++ "\",\"preset\":\"".toList ++ cfg.preset ++
    "\",\"adaptationMode\":\"".toList ++ cfg.adaptationMode ++ "\",\"width\":".toList ++
    decimal cfg.width.toNat ++ ",\"height\":".toList ++ decimal cfg.height.toNat ++
    ",\"fps\":".toList ++ decimal cfg.fps.toNat ++ ",\"bitrate\":".toList ++
    decimal cfg.bitrate.toNat ++ ",\"streamMode\":\"".toList ++ cfg.streamMode ++
    "\",\"enhancementEnabled\":false,\"enhancementCodec\":null,".toList ++
    "\"enhancementMaxWidth\":0,\"enhancementMaxHeight\":0,\"roiMode\":\"none\"\x7d".toList

def toJson : List UInt8 := utf8 cfg.text

def fromJson (payload : List UInt8) : Option SessionConfig :=
  (decodeUtf8 payload).map fun s =>
    { codec := (jsonStrField s "codec".toList).getD []
      preset := (jsonStrField s "preset".toList).getD []
      width := (jsonU32Field s "width".toList).getD 1920
      height := (jsonU32Field s "height".toList).getD 1080
      fps := (jsonU32Field s "fps".toList).getD 60
      bitrate := (jsonU32Field s "bitrate".toList).getD 8000000
      streamMode := (jsonStrField s "streamMode".toList).getD "single".toList
      adaptationMode := (jsonStrField s "adaptationMode".toList).getD "GAME".toList }

def Unquoted : Prop :=
  ∀ value ∈ [cfg.codec, cfg.preset, cfg.adaptationMode, cfg.streamMode], '"' ∉ value

/-- The texts have no quotes, and no text is the name of a field that is written behind it,
unless that field has the value that stands for a missing one. -/
structure Readable : Prop where
  unquoted : cfg.Unquoted
  preset : cfg.codec = "preset".toList → cfg.preset = []
  adaptationMode : "adaptationMode".toList ∈ [cfg.codec, cfg.preset] →
    cfg.adaptationMode = "GAME".toList
  width : "width".toList ∈ [cfg.codec, cfg.preset, cfg.adaptationMode] → cfg.width = 1920
  height : "height".toList ∈ [cfg.codec, cfg.preset, cfg.adaptationMode] → cfg.height = 1080
  fps : "fps".toList ∈ [cfg.codec, cfg.preset, cfg.adaptationMode] → cfg.fps = 60
  bitrate : "bitrate".toList ∈ [cfg.codec, cfg.preset, cfg.adaptationMode] → cfg.bitrate = 8000000
  streamMode : "streamMode".toList ∈ [cfg.codec, cfg.preset, cfg.adaptationMode] →
    cfg.streamMode = "single".toList

/-- The configuration as it is read, if its texts have no quotes. -/
def asRead : SessionConfig where
  codec := cfg.codec
  preset := if "preset".toList ∈ [cfg.codec] then [] else cfg.preset
  width :=
    if "width".toList ∈ [cfg.codec, cfg.preset, cfg.adaptationMode] then 1920 else cfg.width
  height :=
    if "height".toList ∈ [cfg.codec, cfg.preset, cfg.adaptationMode] then 1080 else cfg.height
  fps := if "fps".toList ∈ [cfg.codec, cfg.preset, cfg.adaptationMode] then 60 else cfg.fps
  bitrate :=
    if "bitrate".toList ∈ [cfg.codec, cfg.preset, cfg.adaptationMode] then 8000000
    else cfg.bitrate
  streamMode :=
    if "streamMode".toList ∈ [cfg.codec, cfg.preset, cfg.adaptationMode] then "single".toList
    else cfg.streamMode
  adaptationMode :=
    if "adaptationMode".toList ∈ [cfg.codec, cfg.preset] then "GAME".toList
    else cfg.adaptationMode

def object : JsonObject :=
  [("codec".toList, .str cfg.codec), ("preset".toList, .str cfg.preset),
    ("adaptationMode".toList, .str cfg.adaptationMode),
    ("width".toList, .bare (decimal cfg.width.toNat)),
    ("height".toList, .bare (decimal cfg.height.toNat)),
    ("fps".toList, .bare (decimal cfg.fps.toNat)),
    ("bitrate".toList, .bare (decimal cfg.bitrate.toNat)),
    ("streamMode".toList, .str cfg.streamMode),
    ("enhancementEnabled".toList, .bare "false".toList),
    ("enhancementCodec".toList, .bare "null".toList),
    ("enhancementMaxWidth".toList, .bare "0".toList),
    ("enhancementMaxHeight".toList, .bare "0".toList), ("roiMode".toList, .str "none".toList)]

theorem text_eq : cfg.text = cfg.object.text := by
  unfold text object JsonObject.text
  simp only [JsonObject.pieces, closing, List.isEmpty_cons, List.isEmpty_nil,
    List.intercalate_cons_cons, List.intercalate_singleton]
  simp only [String.reduceToList, List.append_assoc, List.cons_append, List.nil_append]
  rfl

variable {cfg}

theorem unquoted_object (h : cfg.Unquoted) : cfg.object.Unquoted := by
  simp only [Unquoted, List.forall_mem_cons] at h
  obtain ⟨hcodec, hpreset, hadaptation, hstream, -⟩ := h
  simp only [JsonObject.Unquoted, object, List.forall_mem_cons, JsonValue.written,
    quote_notMem_decimal, hcodec, hpreset, hadaptation, hstream, not_false_eq_true, and_true]
  simp

theorem fromJson_toJson (h : cfg.Unquoted) : fromJson cfg.toJson = some cfg.asRead := by
  have hobject := unquoted_object h
  rw [fromJson, toJson, decodeUtf8_utf8, Option.map_some, text_eq]
  apply congrArg some
  simp only [asRead, mk.injEq]
  refine ⟨?_, ?_, ?_, ?_, ?_, ?_, ?_, ?_⟩
  · exact jsonStrField_at (n := 0) (by decide) hobject rfl (by simp) []
  · exact jsonStrField_at (n := 1) (by decide) hobject rfl (by simp [object]) []
  · exact jsonU32Field_at (n := 3) (by decide) hobject rfl (by simp [object]) 1920
  · exact jsonU32Field_at (n := 4) (by decide) hobject rfl (by simp [object]) 1080
  · exact jsonU32Field_at (n := 5) (by decide) hobject rfl (by simp [object]) 60
  · exact jsonU32Field_at (n := 6) (by decide) hobject rfl (by simp [object]) 8000000
  · exact jsonStrField_at (n := 7) (by decide) hobject rfl (by simp [object]) "single".toList
  · exact jsonStrField_at (n := 2) (by decide) hobject rfl (by simp [object]) "GAME".toList

/-- What is read has no quotes, whatever it is read from. -/
theorem unquoted_of_fromJson {payload : List UInt8} (h : fromJson payload = some cfg) :
    cfg.Unquoted := by
  obtain ⟨s, -, rfl⟩ := Option.map_eq_some_iff.mp h
  have hfield : ∀ key missing : List Char, '"' ∉ missing →
      '"' ∉ (jsonStrField s key).getD missing := by
    intro key missing hmissing
    cases hread : jsonStrField s key with
    | none => exact hmissing
    | some value => exact quote_notMem_of_jsonStrField hread
  simp only [Unquoted, List.forall_mem_cons]
  exact ⟨hfield _ _ (by decide), hfield _ _ (by decide), hfield _ _ (by decide),
    hfield _ _ (by decide), fun _ h => nomatch h⟩

theorem asRead_eq_iff : cfg.asRead = cfg ↔
    ("preset".toList ∈ [cfg.codec] → cfg.preset = []) ∧
    ("width".toList ∈ [cfg.codec, cfg.preset, cfg.adaptationMode] → cfg.width = 1920) ∧
    ("height".toList ∈ [cfg.codec, cfg.preset, cfg.adaptationMode] → cfg.height = 1080) ∧
    ("fps".toList ∈ [cfg.codec, cfg.preset, cfg.adaptationMode] → cfg.fps = 60) ∧
    ("bitrate".toList ∈ [cfg.codec, cfg.preset, cfg.adaptationMode] → cfg.bitrate = 8000000) ∧
    ("streamMode".toList ∈ [cfg.codec, cfg.preset, cfg.adaptationMode] →
      cfg.streamMode = "single".toList) ∧
    ("adaptationMode".toList ∈ [cfg.codec, cfg.preset] → cfg.adaptationMode = "GAME".toList) := by
  have hfield : ∀ {Value : Type} (taken : Prop) [Decidable taken] (missing value : Value),
      (if taken then missing else value) = value ↔ (taken → value = missing) := by
    intro Value taken _ missing value
    rw [ite_eq_right_iff]
    exact imp_congr_right fun _ => eq_comm
  obtain ⟨codec, preset, width, height, fps, bitrate, streamMode, adaptationMode⟩ := cfg
  simp only [asRead, mk.injEq, hfield, true_and]

theorem Readable.read_back (h : cfg.Readable) : fromJson cfg.toJson = some cfg := by
  rw [fromJson_toJson h.unquoted, Option.some_inj, asRead_eq_iff]
  exact ⟨fun hpreset => h.preset (List.mem_singleton.mp hpreset).symm, h.width, h.height,
    h.fps, h.bitrate, h.streamMode, h.adaptationMode⟩

/-- The client reads exactly the readable configurations as they were sent. -/
theorem read_back_iff (cfg : SessionConfig) : fromJson cfg.toJson = some cfg ↔ cfg.Readable := by
  refine ⟨fun h => ?_, Readable.read_back⟩
  have hunquoted := unquoted_of_fromJson h
  rw [fromJson_toJson hunquoted, Option.some_inj, asRead_eq_iff] at h
  obtain ⟨hpreset, hwidth, hheight, hfps, hbitrate, hstream, hadaptation⟩ := h
  exact ⟨hunquoted, fun h => hpreset (List.mem_singleton.mpr h.symm), hadaptation, hwidth,
    hheight, hfps, hbitrate, hstream⟩

end SessionConfig

structure AudioConfig where
  sampleRate : UInt32
  channels : UInt16
  bitsPerSample : UInt16
deriving DecidableEq

namespace AudioConfig

variable (cfg : AudioConfig)

def text : List Char :=
  "\x7b\"sampleRate\":".toList ++ decimal cfg.sampleRate.toNat ++ ",\"channels\":".toList ++
    decimal cfg.channels.toNat ++ ",\"bitsPerSample\":".toList ++
    decimal cfg.bitsPerSample.toNat ++ "\x7d".toList

def toJson : List UInt8 := utf8 cfg.text

def fromJson (payload : List UInt8) : Option AudioConfig :=
  (decodeUtf8 payload).map fun s =>
    { sampleRate := (jsonU32Field s "sampleRate".toList).getD 48000
      channels := ((jsonU32Field s "channels".toList).getD 2).toUInt16
      bitsPerSample := ((jsonU32Field s "bitsPerSample".toList).getD 16).toUInt16 }

end AudioConfig

end EvertyDesk.Evrt
