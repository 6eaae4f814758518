import EvertyDesk.Lib.Utf8
import EvertyDesk.Lib.Whitespace
import Mathlib.Data.List.Basic
import Mathlib.Data.List.Infix

/-!
What the launcher remembers, and the repair of texts that were once stored in the wrong
encoding: Russian UTF-8 read as Windows-1251. The repair also makes lists of tags regular
and reasons short. Texts are lists of characters.
-/

namespace EvertyDesk.Launcher

inductive ConnectionQuality where
  | smooth
  | balanced
  | sharp
deriving DecidableEq, Repr

inductive ViewerScaling where
  | smoothFit
  | pixelPerfect
deriving DecidableEq, Repr

inductive LanguagePreference where
  | system
  | russian
  | english
deriving DecidableEq, Repr

inductive UpdateChannelPreference where
  | disabled
  | manifestUrl
  | githubRelease
deriving DecidableEq, Repr

inductive ConnectionDirection where
  | outgoing
  | incoming
deriving DecidableEq, Repr

inductive VmProviderPreference where
  | auto
  | hyperV
  | virtualBox
deriving DecidableEq, Repr

inductive GameCodecPreference where
  | auto
  | h265
  | h264
  | av1
deriving DecidableEq, Repr

structure Contact where
  name : List Char
  remoteId : List Char
  favorite : Bool
  group : List Char
  tags : List (List Char)
  note : List Char
deriving DecidableEq, Repr

structure RecentConnection where
  remoteId : List Char
  lastUsedUnix : UInt64
  direction : ConnectionDirection
  durationSeconds : UInt64
  reconnectCount : UInt32
  lastEndReason : List Char
deriving DecidableEq, Repr

structure LauncherStore where
  contacts : List Contact
  recent : List RecentConnection
  quality : ConnectionQuality
  scaling : ViewerScaling
  audioEnabled : Bool
  startHostOnLaunch : Bool
  launchOnStartup : Bool
  showStartMenuShortcut : Bool
  keepTaskbarIconOnClose : Bool
  language : LanguagePreference
  updateChannel : UpdateChannelPreference
  updateManifestUrl : List Char
  updateGithubRepo : List Char
  addressBookAccount : List Char
  addressBookGuid : List Char
  addressBookLastSyncUnix : UInt64
  smartAgentEnabled : Bool
  smartAgentServiceKey : List Char
  compatibilitySettingsExpanded : Bool
  vmSettingsExpanded : Bool
  vmBridgeEnabled : Bool
  vmProvider : VmProviderPreference
  vmTargetId : List Char
  gameCodec : GameCodecPreference
  gameEvrt2Enabled : Bool
deriving DecidableEq, Repr

def defaultUpdateGithubRepo : List Char := "vaalimusic/EvertyDesk_Lite".toList

def LauncherStore.default : LauncherStore where
  contacts := []
  recent := []
  quality := .balanced
  scaling := .smoothFit
  audioEnabled := true
  startHostOnLaunch := true
  launchOnStartup := false
  showStartMenuShortcut := false
  keepTaskbarIconOnClose := false
  language := .system
  updateChannel := .githubRelease
  updateManifestUrl := []
  updateGithubRepo := defaultUpdateGithubRepo
  addressBookAccount := []
  addressBookGuid := []
  addressBookLastSyncUnix := 0
  smartAgentEnabled := true
  smartAgentServiceKey := []
  compatibilitySettingsExpanded := false
  vmSettingsExpanded := false
  vmBridgeEnabled := false
  vmProvider := .auto
  vmTargetId := []
  gameCodec := .auto
  gameEvrt2Enabled := false

/-! Texts in the wrong encoding. -/

/-- The code points of the bytes from 80 on. -/
def windows1251Decode : List Nat :=
  [0x0402, 0x0403, 0x201A, 0x0453, 0x201E, 0x2026, 0x2020, 0x2021,
    0x20AC, 0x2030, 0x0409, 0x2039, 0x040A, 0x040C, 0x040B, 0x040F,
    0x0452, 0x2018, 0x2019, 0x201C, 0x201D, 0x2022, 0x2013, 0x2014,
    0x0098, 0x2122, 0x0459, 0x203A, 0x045A, 0x045C, 0x045B, 0x045F,
    0x00A0, 0x040E, 0x045E, 0x0408, 0x00A4, 0x0490, 0x00A6, 0x00A7,
    0x0401, 0x00A9, 0x0404, 0x00AB, 0x00AC, 0x00AD, 0x00AE, 0x0407,
    0x00B0, 0x00B1, 0x0406, 0x0456, 0x0491, 0x00B5, 0x00B6, 0x00B7,
    0x0451, 0x2116, 0x0454, 0x00BB, 0x0458, 0x0405, 0x0455, 0x0457] ++
    (List.range 64).map (0x0410 + ·)

def encodeWindows1251 (character : Char) : Option UInt8 :=
  if character.toNat < 128 then some (UInt8.ofNat character.toNat)
  else (windows1251Decode.idxOf? character.toNat).map fun index => UInt8.ofNat (0x80 + index)

def capitalEr : Char := Char.ofNat 0x0420

def capitalEs : Char := Char.ofNat 0x0421

def capitalVe : Char := Char.ofNat 0x0412

/-- How the first bytes of typographic marks look in Windows-1251. -/
def markPrefix : List Char := [Char.ofNat 0x0432, Char.ofNat 0x0402]

def looksLikeLegacyMojibake (text : List Char) : Bool :=
  text.contains capitalEr || text.contains capitalEs ||
    decide ([capitalVe, Char.ofNat 0x00AB] <:+: text) ||
    decide ([capitalVe, Char.ofNat 0x00BB] <:+: text) ||
    decide ([capitalVe, Char.ofNat 0x00B7] <:+: text) ||
    decide (markPrefix <:+: text)

/-- How often the pattern is in the text, which for one of two characters that differ is
without overlaps. -/
def countMatches (pattern text : List Char) : Nat :=
  (text.tails.filter fun rest => pattern.isPrefixOf rest).length

def mojibakeScore (text : List Char) : Nat :=
  text.count capitalEr + text.count capitalEs + text.count capitalVe +
    countMatches markPrefix text * 3

def repairLegacyMojibakeText (text : List Char) : List Char :=
  if !looksLikeLegacyMojibake text then text
  else
    match (text.mapM encodeWindows1251).bind decodeUtf8 with
    | none => text
    | some repaired => if mojibakeScore repaired < mojibakeScore text then repaired else text

example : repairLegacyMojibakeText
    "\u0420\u2018\u0421\u0402\u0420\u00b0\u0421\u201a".toList =
      "\u0411\u0440\u0430\u0442".toList := by
  decide +kernel

/-! Tags and reasons. -/

def sanitizeEndReason (reason : List Char) : List Char :=
  ((trim reason).filter fun character => !isControl character).take 120

def splitWhitespace (text : List Char) : List (List Char) :=
  (text.splitOnP isWhitespace).filter fun word => !word.isEmpty

section Repair

-- Lower case is by the tables of the Unicode standard.
variable (toLowercase : List Char → List Char)

def normalizeContactTags (tags : List (List Char)) : List (List Char) :=
  let normalized := tags.foldl (fun normalized tag =>
    let tag := trim tag
    if tag.isEmpty then normalized
    else
      let tag := [' '].intercalate (splitWhitespace tag)
      if normalized.any (eqIgnoreAsciiCase · tag) then normalized else normalized ++ [tag]) []
  normalized.mergeSort fun left right => !decide (toLowercase right < toLowercase left)

/-- The second component tells whether anything has changed. -/
def Contact.repair (contact : Contact) : Contact × Bool :=
  let name := repairLegacyMojibakeText contact.name
  let group := repairLegacyMojibakeText contact.group
  let note := repairLegacyMojibakeText contact.note
  let tags := contact.tags.map repairLegacyMojibakeText
  let normalizedTags := normalizeContactTags toLowercase tags
  ({ contact with name := name, group := group, note := note, tags := normalizedTags },
    contact.name != name || contact.group != group || contact.note != note ||
      contact.tags != tags || tags != normalizedTags)

def RecentConnection.repair (connection : RecentConnection) : RecentConnection × Bool :=
  let reason := sanitizeEndReason (repairLegacyMojibakeText connection.lastEndReason)
  ({ connection with lastEndReason := reason }, connection.lastEndReason != reason)

namespace LauncherStore

def repairFields (store : LauncherStore) : LauncherStore × Bool :=
  let repaired :=
    { store with
      addressBookAccount := repairLegacyMojibakeText store.addressBookAccount
      addressBookGuid := repairLegacyMojibakeText store.addressBookGuid
      vmTargetId := repairLegacyMojibakeText store.vmTargetId
      updateManifestUrl := repairLegacyMojibakeText store.updateManifestUrl
      updateGithubRepo := repairLegacyMojibakeText store.updateGithubRepo }
  (repaired,
    store.addressBookAccount != repaired.addressBookAccount ||
      store.addressBookGuid != repaired.addressBookGuid ||
      store.vmTargetId != repaired.vmTargetId ||
      store.updateManifestUrl != repaired.updateManifestUrl ||
      store.updateGithubRepo != repaired.updateGithubRepo)

/-- Where nothing says from where updates come, they come from the default. -/
def repairUpdateChannel (store : LauncherStore) : LauncherStore × Bool :=
  if store.updateChannel = .disabled ∧ trim store.updateManifestUrl = [] ∧
      trim store.updateGithubRepo = [] then
    ({ store with
        updateChannel := .githubRelease
        updateGithubRepo := defaultUpdateGithubRepo }, true)
  else (store, false)

def repairLegacyMojibake (store : LauncherStore) : LauncherStore × Bool :=
  let (fields, fieldsChanged) := store.repairFields
  let (channel, channelChanged) := fields.repairUpdateChannel
  let contacts := channel.contacts.map (Contact.repair toLowercase)
  let recent := channel.recent.map RecentConnection.repair
  ({ channel with contacts := contacts.map (·.1), recent := recent.map (·.1) },
    fieldsChanged || channelChanged || contacts.any (·.2) || recent.any (·.2))

end LauncherStore

end Repair

end EvertyDesk.Launcher
