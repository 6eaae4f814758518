import EvertyDesk.Launcher.UpdateVersions
import EvertyDesk.Lib.FileProgram
import EvertyDesk.Lib.Hex

/-!
How the launcher downloads an update. The installer is written to a partial file first,
which takes its place once the checksum is right. What the network and the file system do
at each call are the outcomes of the download; removing the partial file succeeds.

Files are known by their names in the directory of the downloads.
-/

namespace EvertyDesk.Launcher

def maxDownloadBytes : Nat := 512 * 1024 * 1024

def bufferBytes : Nat := 64 * 1024

inductive TargetOs where
  | windows
  | macos
  | other
deriving DecidableEq, Repr

abbrev FileName := List Char

abbrev Downloads := Files FileName UInt8

/-- What a read of the response gives, and what becomes of writing that to the file. -/
inductive Reading where
  | failed
  | chunk (bytes : List UInt8) (fits : bytes.length ≤ bufferBytes) (written : Fate)

structure DownloadOutcomes where
  directoryCreated : Bool
  answered : Bool
  contentLength : Option (List Char)
  partialCreated : Bool
  /-- After these reads there is nothing more. -/
  body : List Reading
  /-- Whether the file system can say that the old installer exists. -/
  existsSeen : Bool
  oldRemoved : Fate
  renamed : Fate
  /-- What the system says of a call that failed. -/
  reason : String

def UpdateManifest.artifactForCurrentPlatform (manifest : UpdateManifest) :
    TargetOs → Option PlatformArtifact
  | .windows => manifest.windows
  | .macos => manifest.macos
  | .other => none

/-! Checks. -/

def requireHttps (url : List Char) : Except String Unit :=
  if "https://".toList.isPrefixOf url then .ok () else .error "update URL must use https://"

def isHexByte (byte : UInt8) : Bool :=
  (48 ≤ byte && byte ≤ 57) || (65 ≤ byte && byte ≤ 70) || (97 ≤ byte && byte ≤ 102)

def validateSha256 (raw : List Char) : Except String Unit :=
  let value := utf8 (trim raw)
  if value.length == 64 && value.all isHexByte then .ok ()
  else .error "manifest SHA-256 must be exactly 64 hex characters"

def artifactFileName (url : List Char) : Except String FileName :=
  let path := url.takeWhile fun c => !(c == '?' || c == '#')
  let name := (path.reverse.takeWhile (· != '/')).reverse
  if name.isEmpty then .error "update URL does not contain a file name"
  else if name == ['.'] || name == ['.', '.'] || name.contains '\\' ||
      (utf8 name).any (· < 0x20) then
    .error "update URL contains an unsafe file name"
  else .ok name

def endsWithIgnoringCase (ending name : List Char) : Bool :=
  ending.isSuffixOf (name.map Char.toLower)

def validateArtifact (os : TargetOs) (artifact : PlatformArtifact) : Except String Unit := do
  requireHttps artifact.url
  validateSha256 artifact.sha256
  let fileName ← artifactFileName artifact.url
  if os = .windows && !endsWithIgnoringCase ".msi".toList fileName then
    .error "windows update artifact must be an MSI file"
  else if os = .macos && !endsWithIgnoringCase ".dmg".toList fileName then
    .error "macOS update artifact must be a DMG file"
  else .ok ()

def rejectOversizedContentLength : Option (List Char) → Except String Unit
  | none => .ok ()
  | some raw =>
      match parseU64 (trim raw) with
      | none => .error "update server returned an invalid Content-Length"
      | some length =>
          if maxDownloadBytes < length then
            .error ("update server reports a " ++ toString length ++
              " byte file, above the 536870912 byte safety limit")
          else .ok ()

/-- The name up to the last dot, and what is behind it; a first dot does not count. -/
def splitExtension (name : FileName) : FileName × Option (List Char) :=
  let extension := (name.reverse.takeWhile (· != '.')).reverse
  let stem := name.take (name.length - extension.length - 1)
  if name.contains '.' && !stem.isEmpty then (stem, some extension) else (name, none)

def partialName (name : FileName) : FileName :=
  let (stem, extension) := splitExtension name
  stem ++ '.' :: (extension.getD "download".toList ++ ".part".toList)

/-! The download. -/

def removePartial (files : Downloads) (file : FileName) : Downloads :=
  ((FileAction.remove file).perform files .goesThrough).1

def writeAll (files : Downloads) (file : FileName) (bytes : List UInt8) : Fate → Downloads × Bool
  | .goesThrough => (Function.update files file ((files file).map (· ++ bytes)), true)
  | .fails (some kept) =>
      (Function.update files file ((files file).map (· ++ bytes.take kept)), false)
  | .fails none => (files, false)

/-- The loop over the reads, which gives the bytes that the hasher has seen. -/
def receive (partialFile : FileName) (reason : String) :
    List Reading → Nat → List UInt8 → Downloads → Except String (List UInt8) × Downloads
  | [], _, hashed, files => (.ok hashed, files)
  | .failed :: _, _, _, files => (.error ("update download failed: " ++ reason), files)
  | .chunk bytes _ written :: rest, totalBytes, hashed, files =>
      if bytes.length = 0 then (.ok hashed, files)
      else if 2 ^ 64 ≤ totalBytes + bytes.length then
        (.error "update download size overflow", files)
      else if maxDownloadBytes < totalBytes + bytes.length then
        (.error "update download exceeds the 536870912 byte safety limit",
          removePartial files partialFile)
      else
        let (files, ok) := writeAll files partialFile bytes written
        if ok then
          receive partialFile reason rest (totalBytes + bytes.length) (hashed ++ bytes) files
        else
          (.error ("failed to write update download file: " ++ reason),
            removePartial files partialFile)

def startDownload (os : TargetOs) (manifest : UpdateManifest) (outcomes : DownloadOutcomes) :
    Except String (PlatformArtifact × FileName) := do
  let some artifact := manifest.artifactForCurrentPlatform os
    | .error "manifest does not contain an artifact for this platform"
  validateArtifact os artifact
  if !outcomes.directoryCreated then
    .error ("failed to create update download directory: " ++ outcomes.reason)
  else
    let fileName ← artifactFileName artifact.url
    if !outcomes.answered then .error ("failed to download update: " ++ outcomes.reason)
    else
      rejectOversizedContentLength outcomes.contentLength
      return (artifact, fileName)

/-- The verified download takes its place. -/
def replaceInstaller (destination : FileName) (outcomes : DownloadOutcomes) (files : Downloads) :
    Except String FileName × Downloads :=
  let (files, ok) :=
    if outcomes.existsSeen && (files destination).isSome then
      (FileAction.remove destination).perform files outcomes.oldRemoved
    else (files, true)
  if !ok then
    (.error ("failed to replace existing verified update file: " ++ outcomes.reason), files)
  else
    let (files, ok) :=
      (FileAction.rename (partialName destination) destination).perform files outcomes.renamed
    if !ok then
      (.error ("failed to finalize verified update download: " ++ outcomes.reason), files)
    else (.ok destination, files)

/-- What follows the loop over the reads. -/
def verifyDownload (sha256 : List UInt8 → List UInt8) (artifact : PlatformArtifact)
    (destination : FileName) (outcomes : DownloadOutcomes) (hashed : List UInt8)
    (files : Downloads) : Except String FileName × Downloads :=
  let digest := hexEncode (sha256 hashed)
  if digest.map Char.toLower ≠ (trim artifact.sha256).map Char.toLower then
    (.error ("update checksum mismatch (expected " ++ String.ofList artifact.sha256 ++
      ", got " ++ String.ofList digest ++ "); deleted the downloaded file"),
      removePartial files (partialName destination))
  else replaceInstaller destination outcomes files

def downloadAndVerify (sha256 : List UInt8 → List UInt8) (os : TargetOs)
    (manifest : UpdateManifest) (outcomes : DownloadOutcomes) (files : Downloads) :
    Except String FileName × Downloads :=
  match startDownload os manifest outcomes with
  | .error error => (.error error, files)
  | .ok (artifact, destination) =>
      let partialFile := partialName destination
      let files := removePartial files partialFile
      if !outcomes.partialCreated then
        (.error ("failed to create update download file: " ++ outcomes.reason), files)
      else
        let files := Function.update files partialFile (some [])
        match receive partialFile outcomes.reason outcomes.body 0 [] files with
        | (.error error, files) => (.error error, files)
        | (.ok hashed, files) => verifyDownload sha256 artifact destination outcomes hashed files

/-! What a download is for. -/

def Reading.bytes : Reading → List UInt8
  | .failed => []
  | .chunk bytes _ _ => bytes

def Reading.isData (reading : Reading) : Bool := !reading.bytes.isEmpty

/-- Everything that was read. -/
def bytesRead (body : List Reading) : List UInt8 :=
  (body.takeWhile Reading.isData).flatMap Reading.bytes

/-- The checksum that the manifest has for the bytes. -/
def Verified (sha256 : List UInt8 → List UInt8) (artifact : PlatformArtifact)
    (content : List UInt8) : Prop :=
  hexDecode (trim artifact.sha256) = some (sha256 content)

instance (sha256 : List UInt8 → List UInt8) (artifact : PlatformArtifact)
    (content : List UInt8) : Decidable (Verified sha256 artifact content) :=
  inferInstanceAs (Decidable (_ = _))

/-- The name that the download is to have, if the manifest has one. -/
def targetName (os : TargetOs) (manifest : UpdateManifest) : Option FileName :=
  (manifest.artifactForCurrentPlatform os).bind fun artifact =>
    (artifactFileName artifact.url).toOption

/-- Either there is the verified installer, or there is what there was before and no
partial file. -/
def AllOrNothing (sha256 : List UInt8 → List UInt8) (os : TargetOs) (manifest : UpdateManifest)
    (outcomes : DownloadOutcomes) (files : Downloads) : Prop :=
  match downloadAndVerify sha256 os manifest outcomes files with
  | (.ok path, after) =>
      after path = some (bytesRead outcomes.body) ∧
        (bytesRead outcomes.body).length ≤ maxDownloadBytes ∧
        ∃ artifact, manifest.artifactForCurrentPlatform os = some artifact ∧
          Verified sha256 artifact (bytesRead outcomes.body)
  | (.error _, after) =>
      match targetName os manifest with
      | none => after = files
      | some name => after (partialName name) = none ∧ after name = files name

/-! When it is just that. -/

/-- A read whose bytes are in the partial file afterwards. -/
def Reading.isStored : Reading → Bool
  | .failed => false
  | .chunk bytes _ written => !bytes.isEmpty && decide (written = .goesThrough)

def storedBytes (body : List Reading) : List UInt8 :=
  (body.takeWhile Reading.isStored).flatMap Reading.bytes

/-- A read fails before anything else ends the download. -/
def ReadFails (body : List Reading) : Prop :=
  (storedBytes body).length ≤ maxDownloadBytes ∧
    (body.dropWhile Reading.isStored).head? = some .failed

/-- All of the response is in the partial file. -/
def Completes (body : List Reading) : Prop :=
  (storedBytes body).length ≤ maxDownloadBytes ∧
    ∀ reading ∈ (body.dropWhile Reading.isStored).head?, reading ≠ .failed ∧ reading.bytes = []

/-- What is to be right before there is a partial file. -/
structure Starts (os : TargetOs) (manifest : UpdateManifest) (outcomes : DownloadOutcomes)
    (artifact : PlatformArtifact) (name : FileName) : Prop where
  forPlatform : manifest.artifactForCurrentPlatform os = some artifact
  valid : validateArtifact os artifact = .ok ()
  named : artifactFileName artifact.url = .ok name
  created : outcomes.directoryCreated = true
  answered : outcomes.answered = true
  sized : rejectOversizedContentLength outcomes.contentLength = .ok ()

structure Undisturbed (sha256 : List UInt8 → List UInt8) (os : TargetOs)
    (manifest : UpdateManifest) (outcomes : DownloadOutcomes) (files : Downloads) : Prop where
  nothingStale : ∀ name, targetName os manifest = some name →
    files (partialName name) ≠ none → ∃ artifact, Starts os manifest outcomes artifact name
  readsGoOn : ∀ artifact name, Starts os manifest outcomes artifact name →
    outcomes.partialCreated = true → ¬ ReadFails outcomes.body
  replaced : ∀ artifact name, Starts os manifest outcomes artifact name →
    outcomes.partialCreated = true → Completes outcomes.body →
    Verified sha256 artifact (bytesRead outcomes.body) →
      (outcomes.existsSeen = true → files name ≠ none → outcomes.oldRemoved = .goesThrough) ∧
        outcomes.renamed = .goesThrough

/-! Names and files. -/

theorem partialName_ne (name : FileName) : partialName name ≠ name := by
  intro hsame
  have hlength := congrArg List.length hsame
  unfold partialName splitExtension at hlength
  dsimp only at hlength
  split at hlength
  · simp at hlength
    omega
  · simp at hlength

theorem removePartial_eq (files : Downloads) (file : FileName) :
    removePartial files file = Function.update files file none := by
  unfold removePartial
  cases hfile : files file with
  | none =>
      have hsame := Function.update_eq_self file files
      rw [hfile] at hsame
      simp only [FileAction.perform, hfile, hsame]
  | some content => simp only [FileAction.perform, hfile]

theorem bind_eq_ok_iff {Result Next : Type} {first : Except String Result}
    {next : Result → Except String Next} {after : Next} :
    (first >>= next) = .ok after ↔ ∃ result, first = .ok result ∧ next result = .ok after := by
  constructor
  · intro h
    cases first with
    | error error => cases h
    | ok result => exact ⟨result, rfl, h⟩
  · rintro ⟨result, rfl, h⟩
    exact h

theorem startDownload_eq_ok_iff {os : TargetOs} {manifest : UpdateManifest}
    {outcomes : DownloadOutcomes} {artifact : PlatformArtifact} {name : FileName} :
    startDownload os manifest outcomes = .ok (artifact, name) ↔
      Starts os manifest outcomes artifact name := by
  unfold startDownload
  constructor
  · intro h
    cases hartifact : manifest.artifactForCurrentPlatform os with
    | none =>
        rw [hartifact] at h
        cases h
    | some found =>
        rw [hartifact] at h
        obtain ⟨⟨⟩, hvalid, h⟩ := bind_eq_ok_iff.mp h
        split at h
        · cases h
        next hcreated =>
          obtain ⟨fileName, hname, h⟩ := bind_eq_ok_iff.mp h
          split at h
          · cases h
          next hanswered =>
            obtain ⟨⟨⟩, hsize, h⟩ := bind_eq_ok_iff.mp h
            cases h
            exact ⟨hartifact, hvalid, hname, by simpa using hcreated, by simpa using hanswered,
              hsize⟩
  · rintro ⟨hartifact, hvalid, hname, hcreated, hanswered, hsize⟩
    simp only [hartifact, hcreated, hanswered]
    rw [bind_eq_ok_iff]
    refine ⟨(), hvalid, ?_⟩
    simp only [Bool.not_true, Bool.false_eq_true, if_false]
    rw [bind_eq_ok_iff]
    refine ⟨name, hname, ?_⟩
    rw [bind_eq_ok_iff]
    exact ⟨(), hsize, rfl⟩

theorem targetName_of_starts {os : TargetOs} {manifest : UpdateManifest}
    {outcomes : DownloadOutcomes} {artifact : PlatformArtifact} {name : FileName}
    (h : Starts os manifest outcomes artifact name) : targetName os manifest = some name := by
  rw [targetName, h.forPlatform, Option.bind_some, h.named]
  rfl

/-! The reads. -/

variable {partialFile : FileName} {reason : String}

theorem storedBytes_cons {reading : Reading} {body : List Reading} (h : reading.isStored = true) :
    storedBytes (reading :: body) = reading.bytes ++ storedBytes body := by
  rw [storedBytes, List.takeWhile_cons_of_pos h]
  rfl

/-- A read that is stored. -/
theorem receive_step {reading : Reading} {body : List Reading} {hashed : List UInt8}
    {files : Downloads} (hstored : reading.isStored = true)
    (hfile : files partialFile = some hashed)
    (hsize : (hashed ++ reading.bytes).length ≤ maxDownloadBytes) :
    receive partialFile reason (reading :: body) hashed.length hashed files =
      receive partialFile reason body (hashed ++ reading.bytes).length (hashed ++ reading.bytes)
        (Function.update files partialFile (some (hashed ++ reading.bytes))) := by
  cases reading with
  | failed => cases hstored
  | chunk bytes fits written =>
      obtain ⟨hbytes, hwritten⟩ : bytes ≠ [] ∧ written = .goesThrough := by
        simpa [Reading.isStored] using hstored
      subst hwritten
      simp only [Reading.bytes, List.length_append] at hsize ⊢
      have hlimit : maxDownloadBytes < 2 ^ 64 := by decide
      have hpositive := List.length_pos_of_ne_nil hbytes
      rw [receive, if_neg (by omega), if_neg (by omega), if_neg (by omega)]
      simp only [writeAll, hfile, Option.map_some, if_true]

theorem receive_stored {body : List Reading} {hashed : List UInt8} {files : Downloads}
    (hfile : files partialFile = some hashed)
    (hsize : (hashed ++ storedBytes body).length ≤ maxDownloadBytes) :
    receive partialFile reason body hashed.length hashed files =
      receive partialFile reason (body.dropWhile Reading.isStored)
        (hashed ++ storedBytes body).length (hashed ++ storedBytes body)
        (Function.update files partialFile (some (hashed ++ storedBytes body))) := by
  induction body generalizing hashed files with
  | nil =>
      have hsame := Function.update_eq_self partialFile files
      rw [hfile] at hsame
      simp only [storedBytes, List.takeWhile_nil, List.flatMap_nil, List.append_nil,
        List.dropWhile_nil, hsame]
  | cons reading body ih =>
      by_cases hstored : reading.isStored = true
      · rw [storedBytes_cons hstored, ← List.append_assoc] at hsize ⊢
        have hfirst : (hashed ++ reading.bytes).length ≤ maxDownloadBytes := by
          rw [List.length_append] at hsize
          omega
        rw [receive_step hstored hfile hfirst, ih (Function.update_self ..) hsize,
          List.dropWhile_cons_of_pos hstored, Function.update_idem]
      · have hnothing : storedBytes (reading :: body) = [] := by
          rw [storedBytes, List.takeWhile_cons_of_neg hstored]
          rfl
        have hsame := Function.update_eq_self partialFile files
        rw [hfile] at hsame
        rw [hnothing, List.append_nil, List.dropWhile_cons_of_neg hstored, hsame]

theorem receive_oversized {body : List Reading} {hashed : List UInt8} {files : Downloads}
    (hfile : files partialFile = some hashed) (hfits : hashed.length ≤ maxDownloadBytes)
    (hsize : maxDownloadBytes < (hashed ++ storedBytes body).length) :
    ∃ error, receive partialFile reason body hashed.length hashed files =
      (.error error, Function.update files partialFile none) := by
  induction body generalizing hashed files with
  | nil =>
      simp [storedBytes] at hsize
      omega
  | cons reading body ih =>
      by_cases hstored : reading.isStored = true
      · rw [storedBytes_cons hstored, ← List.append_assoc] at hsize
        by_cases hfirst : (hashed ++ reading.bytes).length ≤ maxDownloadBytes
        · obtain ⟨error, hrest⟩ := ih (Function.update_self partialFile
            (some (hashed ++ reading.bytes)) files) hfirst hsize
          rw [Function.update_idem] at hrest
          exact ⟨error, (receive_step hstored hfile hfirst).trans hrest⟩
        · cases reading with
          | failed => cases hstored
          | chunk bytes fits written =>
              simp only [Reading.bytes, List.length_append] at hfirst
              have hlimit : maxDownloadBytes + bufferBytes < 2 ^ 64 := by decide
              rw [receive, if_neg (by omega), if_neg (by omega), if_pos (by omega),
                removePartial_eq]
              exact ⟨_, rfl⟩
      · rw [storedBytes, List.takeWhile_cons_of_neg hstored, List.flatMap_nil,
          List.append_nil] at hsize
        omega

/-- A read that is neither stored nor the end nor a failure. -/
theorem receive_stops {bytes : List UInt8} {fits : bytes.length ≤ bufferBytes} {written : Fate}
    {body : List Reading} {hashed : List UInt8} {files : Downloads}
    (hfits : hashed.length ≤ maxDownloadBytes) (hbytes : bytes ≠ [])
    (hwritten : written ≠ .goesThrough) :
    ∃ error, receive partialFile reason (.chunk bytes fits written :: body) hashed.length hashed
        files = (.error error, Function.update files partialFile none) := by
  have hpositive := List.length_pos_of_ne_nil hbytes
  have hlimit : maxDownloadBytes + bufferBytes < 2 ^ 64 := by decide
  rw [receive, if_neg (by omega), if_neg (by omega)]
  split
  · exact ⟨_, by rw [removePartial_eq]⟩
  · cases written with
    | goesThrough => exact absurd rfl hwritten
    | fails kept =>
        cases kept with
        | none =>
            simp only [writeAll, removePartial_eq]
            exact ⟨_, rfl⟩
        | some kept =>
            simp only [writeAll, removePartial_eq, Function.update_idem]
            exact ⟨_, rfl⟩

/-- How the loop over the reads ends. -/
theorem receive_cases (body : List Reading) (files : Downloads)
    (hfile : files partialFile = some []) :
    (ReadFails body ∧ ∃ error, receive partialFile reason body 0 [] files =
      (.error error, Function.update files partialFile (some (storedBytes body)))) ∨
    (Completes body ∧ ¬ ReadFails body ∧ receive partialFile reason body 0 [] files =
      (.ok (storedBytes body), Function.update files partialFile (some (storedBytes body)))) ∨
    (¬ Completes body ∧ ¬ ReadFails body ∧ ∃ error, receive partialFile reason body 0 [] files =
      (.error error, Function.update files partialFile none)) := by
  by_cases hsize : (storedBytes body).length ≤ maxDownloadBytes
  · have hstored := @receive_stored partialFile reason body [] files hfile hsize
    rw [List.nil_append] at hstored
    unfold ReadFails Completes
    cases hnext : body.dropWhile Reading.isStored with
    | nil =>
        rw [hnext] at hstored
        exact Or.inr (Or.inl ⟨⟨hsize, by simp⟩, by simp, hstored⟩)
    | cons reading rest =>
        rw [hnext] at hstored
        have hnot : reading.isStored = false := by
          have := List.head_dropWhile_not Reading.isStored (l := body) (by simp [hnext])
          simpa [hnext] using this
        cases reading with
        | failed => exact Or.inl ⟨⟨hsize, rfl⟩, _, hstored⟩
        | chunk bytes fits written =>
            by_cases hbytes : bytes = []
            · subst hbytes
              refine Or.inr (Or.inl ⟨⟨hsize, ?_⟩, by simp, hstored⟩)
              simp [Reading.bytes]
            · have hwritten : written ≠ .goesThrough := by
                simpa [Reading.isStored, hbytes] using hnot
              obtain ⟨error, hstops⟩ := @receive_stops partialFile reason bytes fits written rest
                (storedBytes body) (Function.update files partialFile (some (storedBytes body)))
                hsize hbytes hwritten
              rw [hstops, Function.update_idem] at hstored
              refine Or.inr (Or.inr ⟨?_, by simp, error, hstored⟩)
              simp [Reading.bytes, hbytes]
  · obtain ⟨error, hoversized⟩ := @receive_oversized partialFile reason body [] files hfile
      (Nat.zero_le _) (Nat.lt_of_not_le hsize)
    exact Or.inr (Or.inr ⟨fun h => hsize h.1, fun h => hsize h.1, error, hoversized⟩)

/-- What is stored when the download completes is what was read. -/
theorem bytesRead_of_completes {body : List Reading} (h : Completes body) :
    bytesRead body = storedBytes body := by
  obtain ⟨-, hnext⟩ := h
  unfold bytesRead storedBytes
  congr 1
  induction body with
  | nil => rfl
  | cons reading body ih =>
      by_cases hstored : reading.isStored = true
      · have hdata : reading.isData = true := by
          cases reading with
          | failed => cases hstored
          | chunk bytes fits written =>
              simp only [Reading.isStored, Bool.and_eq_true] at hstored
              exact hstored.1
        rw [List.dropWhile_cons_of_pos hstored] at hnext
        rw [List.takeWhile_cons_of_pos hstored, List.takeWhile_cons_of_pos hdata, ih hnext]
      · rw [List.dropWhile_cons_of_neg hstored] at hnext
        have hempty := (hnext reading rfl).2
        have hdata : ¬ reading.isData = true := by simp [Reading.isData, hempty]
        rw [List.takeWhile_cons_of_neg hstored, List.takeWhile_cons_of_neg hdata]

/-! The whole download. -/

variable {sha256 : List UInt8 → List UInt8} {os : TargetOs} {manifest : UpdateManifest}
  {outcomes : DownloadOutcomes} {files : Downloads} {artifact : PlatformArtifact}
  {name : FileName}

/-- Nothing comes between the verified download and its place. -/
def PlaceFree (outcomes : DownloadOutcomes) (files : Downloads) (name : FileName) : Prop :=
  (outcomes.existsSeen = true → files name ≠ none → outcomes.oldRemoved = .goesThrough) ∧
    outcomes.renamed = .goesThrough

/-- The old installer, if there is one, is out of the way: the rest is the renaming. -/
theorem replaceInstaller_renames {between : Downloads} {content : List UInt8}
    (hremoved : (if outcomes.existsSeen && (files name).isSome then
      (FileAction.remove name).perform files outcomes.oldRemoved else (files, true)) =
        (between, true))
    (hpart : between (partialName name) = some content) :
    (outcomes.renamed = .goesThrough ∧
      ∃ after, replaceInstaller name outcomes files = (.ok name, after) ∧
        after name = some content) ∨
    (outcomes.renamed ≠ .goesThrough ∧
      ∃ error after, replaceInstaller name outcomes files = (.error error, after) ∧
        after (partialName name) = some content) := by
  unfold replaceInstaller
  rw [hremoved]
  cases hrenamed : outcomes.renamed with
  | goesThrough =>
      left
      simp only [FileAction.perform, hpart, Bool.not_true, Bool.false_eq_true, if_false]
      exact ⟨trivial, _, rfl, Function.update_self ..⟩
  | fails kept =>
      right
      simp only [FileAction.perform, Bool.not_true, Bool.not_false, Bool.false_eq_true, if_false,
        if_true]
      exact ⟨by simp, _, between, rfl, hpart⟩

theorem replaceInstaller_cases {content : List UInt8}
    (hpart : files (partialName name) = some content) :
    (PlaceFree outcomes files name ∧
      ∃ after, replaceInstaller name outcomes files = (.ok name, after) ∧
        after name = some content) ∨
    (¬ PlaceFree outcomes files name ∧
      ∃ error after, replaceInstaller name outcomes files = (.error error, after) ∧
        after (partialName name) = some content) := by
  unfold PlaceFree
  by_cases hpresent : outcomes.existsSeen = true ∧ files name ≠ none
  · obtain ⟨hseen, hold⟩ := hpresent
    obtain ⟨old, hfile⟩ := Option.ne_none_iff_exists'.mp hold
    cases hremoved : outcomes.oldRemoved with
    | goesThrough =>
        have hstep : (if outcomes.existsSeen && (files name).isSome then
            (FileAction.remove name).perform files outcomes.oldRemoved else (files, true)) =
              (Function.update files name none, true) := by
          simp [hseen, hfile, hremoved, FileAction.perform]
        have hkept : Function.update files name none (partialName name) = some content := by
          rw [Function.update_of_ne (partialName_ne name), hpart]
        rw [and_iff_right fun _ _ => rfl]
        exact replaceInstaller_renames hstep hkept
    | fails kept =>
        right
        refine ⟨by simp [hseen, hold], ?_⟩
        unfold replaceInstaller
        simp only [hseen, hfile, hremoved, FileAction.perform, Option.isSome_some, Bool.and_self,
          Bool.not_false, if_true]
        exact ⟨_, files, rfl, hpart⟩
  · have hstep : (if outcomes.existsSeen && (files name).isSome then
        (FileAction.remove name).perform files outcomes.oldRemoved else (files, true)) =
          (files, true) := by
      rw [if_neg]
      simpa [Option.isSome_iff_ne_none] using hpresent
    rw [and_iff_right fun hseen hold => absurd ⟨hseen, hold⟩ hpresent]
    exact replaceInstaller_renames hstep hpart

theorem starts_unique {other : PlatformArtifact} {otherName : FileName}
    (h : Starts os manifest outcomes artifact name)
    (hother : Starts os manifest outcomes other otherName) :
    other = artifact ∧ otherName = name := by
  have hstart := startDownload_eq_ok_iff.mpr h
  rw [startDownload_eq_ok_iff.mpr hother] at hstart
  cases hstart
  exact ⟨rfl, rfl⟩

/-- Once the download has started, it is only about this artifact and this name. -/
theorem undisturbed_iff (h : Starts os manifest outcomes artifact name) :
    Undisturbed sha256 os manifest outcomes files ↔
      (outcomes.partialCreated = true → ¬ ReadFails outcomes.body) ∧
        (outcomes.partialCreated = true → Completes outcomes.body →
          Verified sha256 artifact (bytesRead outcomes.body) → PlaceFree outcomes files name) := by
  constructor
  · intro hundisturbed
    exact ⟨hundisturbed.readsGoOn artifact name h, hundisturbed.replaced artifact name h⟩
  · rintro ⟨hreads, hplace⟩
    constructor
    · intro other hname hstale
      rw [targetName_of_starts h] at hname
      cases hname
      exact ⟨artifact, h⟩
    · intro other otherName hstarts
      exact hreads
    · intro other otherName hstarts
      obtain ⟨rfl, rfl⟩ := starts_unique h hstarts
      exact hplace

theorem allOrNothing_error {error : String} {after : Downloads}
    (h : Starts os manifest outcomes artifact name)
    (hresult : downloadAndVerify sha256 os manifest outcomes files = (.error error, after)) :
    AllOrNothing sha256 os manifest outcomes files ↔
      after (partialName name) = none ∧ after name = files name := by
  unfold AllOrNothing
  rw [hresult]
  simp only [targetName_of_starts h]

theorem downloadAndVerify_uncreated
    (hstart : startDownload os manifest outcomes = .ok (artifact, name))
    (hcreated : outcomes.partialCreated = false) :
    downloadAndVerify sha256 os manifest outcomes files =
      (.error ("failed to create update download file: " ++ outcomes.reason),
        Function.update files (partialName name) none) := by
  unfold downloadAndVerify
  simp only [hstart, hcreated, removePartial_eq, Bool.not_false, if_true]

/-- What the loop over the reads makes of the whole download. -/
theorem downloadAndVerify_created (sha256 : List UInt8 → List UInt8) (files : Downloads)
    (hstart : startDownload os manifest outcomes = .ok (artifact, name))
    (hcreated : outcomes.partialCreated = true) :
    (ReadFails outcomes.body ∧
      ∃ error, downloadAndVerify sha256 os manifest outcomes files =
        (.error error,
          Function.update files (partialName name) (some (storedBytes outcomes.body)))) ∨
    (Completes outcomes.body ∧ ¬ ReadFails outcomes.body ∧
      downloadAndVerify sha256 os manifest outcomes files =
        verifyDownload sha256 artifact name outcomes (storedBytes outcomes.body)
          (Function.update files (partialName name) (some (storedBytes outcomes.body)))) ∨
    (¬ Completes outcomes.body ∧ ¬ ReadFails outcomes.body ∧
      ∃ error, downloadAndVerify sha256 os manifest outcomes files =
        (.error error, Function.update files (partialName name) none)) := by
  unfold downloadAndVerify
  simp only [hstart, hcreated, removePartial_eq, Bool.not_true, Bool.false_eq_true, if_false,
    Function.update_idem]
  obtain ⟨hfails, error, hreceive⟩ | ⟨hcompletes, hreads, hreceive⟩ |
      ⟨hincomplete, hreads, error, hreceive⟩ :=
    @receive_cases (partialName name) outcomes.reason outcomes.body
      (Function.update files (partialName name) (some [])) (Function.update_self ..)
  · rw [hreceive, Function.update_idem]
    exact Or.inl ⟨hfails, error, rfl⟩
  · rw [hreceive, Function.update_idem]
    exact Or.inr (Or.inl ⟨hcompletes, hreads, rfl⟩)
  · rw [hreceive, Function.update_idem]
    exact Or.inr (Or.inr ⟨hincomplete, hreads, error, rfl⟩)

theorem verifyDownload_eq (hashed : List UInt8) (files : Downloads) :
    (Verified sha256 artifact hashed ∧
      verifyDownload sha256 artifact name outcomes hashed files =
        replaceInstaller name outcomes files) ∨
    (¬ Verified sha256 artifact hashed ∧
      ∃ error, verifyDownload sha256 artifact name outcomes hashed files =
        (.error error, Function.update files (partialName name) none)) := by
  unfold Verified verifyDownload
  rw [hexDecode_eq_some_iff]
  by_cases hdigest : (hexEncode (sha256 hashed)).map Char.toLower =
      (trim artifact.sha256).map Char.toLower
  · left
    simp [hdigest]
  · right
    simp only [hdigest, ne_eq, not_false_eq_true, if_true, removePartial_eq, true_and]
    exact ⟨_, rfl⟩

/-- What comes back is verified, whatever happened. -/
theorem verified_of_ok {path : FileName} {after : Downloads}
    (hrun : downloadAndVerify sha256 os manifest outcomes files = (.ok path, after)) :
    after path = some (bytesRead outcomes.body) ∧
      (bytesRead outcomes.body).length ≤ maxDownloadBytes ∧
      ∃ artifact, Starts os manifest outcomes artifact path ∧
        Verified sha256 artifact (bytesRead outcomes.body) := by
  cases hstart : startDownload os manifest outcomes with
  | error error =>
      unfold downloadAndVerify at hrun
      rw [hstart] at hrun
      cases hrun
  | ok started =>
      obtain ⟨artifact, name⟩ := started
      cases hcreated : outcomes.partialCreated with
      | false =>
          rw [downloadAndVerify_uncreated hstart hcreated] at hrun
          cases hrun
      | true =>
          obtain ⟨-, error, hresult⟩ | ⟨hcompletes, -, hresult⟩ | ⟨-, -, error, hresult⟩ :=
            downloadAndVerify_created sha256 files hstart hcreated
          · rw [hresult] at hrun
            cases hrun
          · rw [hresult] at hrun
            rw [bytesRead_of_completes hcompletes]
            rcases @verifyDownload_eq sha256 outcomes artifact name (storedBytes outcomes.body)
              (Function.update files (partialName name) (some (storedBytes outcomes.body))) with
              ⟨hverified, hverify⟩ | ⟨-, error, hverify⟩
            · obtain ⟨-, last, hreplace, hlast⟩ | ⟨-, error, last, hreplace, -⟩ :=
                @replaceInstaller_cases outcomes _ name (storedBytes outcomes.body)
                  (Function.update_self ..)
              · rw [hverify, hreplace] at hrun
                cases hrun
                exact ⟨hlast, hcompletes.1, artifact, startDownload_eq_ok_iff.mp hstart, hverified⟩
              · rw [hverify, hreplace] at hrun
                cases hrun
            · rw [hverify] at hrun
              cases hrun
          · rw [hresult] at hrun
            cases hrun

/-- When everything was read, the checksum and the old installer decide. -/
theorem allOrNothing_received {content : List UInt8} (h : Starts os manifest outcomes artifact name)
    (hread : bytesRead outcomes.body = content)
    (hrun : downloadAndVerify sha256 os manifest outcomes files =
      verifyDownload sha256 artifact name outcomes content
        (Function.update files (partialName name) (some content))) :
    AllOrNothing sha256 os manifest outcomes files ↔
      (Verified sha256 artifact (bytesRead outcomes.body) → PlaceFree outcomes files name) := by
  have hold : Function.update files (partialName name) (some content) name = files name :=
    Function.update_of_ne (partialName_ne name).symm ..
  have hplace : PlaceFree outcomes (Function.update files (partialName name) (some content)) name ↔
      PlaceFree outcomes files name := by
    unfold PlaceFree
    rw [hold]
  rw [hread]
  rcases verifyDownload_eq content (Function.update files (partialName name) (some content)) with
    ⟨hverified, hverify⟩ | ⟨hverified, error, hverify⟩
  · rcases @replaceInstaller_cases outcomes _ name content (Function.update_self ..) with
      ⟨hfree, after, hreplace, -⟩ | ⟨hfree, error, after, hreplace, hafter⟩
    · rw [hplace] at hfree
      rw [hverify, hreplace] at hrun
      obtain ⟨hcontent, hsize, verified, hstarts, hchecked⟩ := verified_of_ok hrun
      unfold AllOrNothing
      rw [hrun]
      simp only [hfree, implies_true, iff_true]
      exact ⟨hcontent, hsize, verified, hstarts.forPlatform, hchecked⟩
    · rw [hplace] at hfree
      rw [hverify, hreplace] at hrun
      rw [allOrNothing_error h hrun]
      simp [hverified, hfree, hafter]
  · rw [hverify] at hrun
    rw [allOrNothing_error h hrun]
    simp [hverified, Function.update_of_ne (partialName_ne name).symm]

/-- Before there is a partial file, only one from an earlier download can be left. -/
theorem allOrNothing_unstarted {error : String}
    (hstart : startDownload os manifest outcomes = .error error) :
    AllOrNothing sha256 os manifest outcomes files ↔
      Undisturbed sha256 os manifest outcomes files := by
  have hresult : downloadAndVerify sha256 os manifest outcomes files = (.error error, files) := by
    unfold downloadAndVerify
    rw [hstart]
  have hnone : ∀ artifact name, ¬ Starts os manifest outcomes artifact name := by
    intro artifact name hstarts
    rw [startDownload_eq_ok_iff.mpr hstarts] at hstart
    cases hstart
  unfold AllOrNothing
  rw [hresult]
  constructor
  · intro hall
    refine ⟨?_, fun artifact name hstarts => absurd hstarts (hnone artifact name),
      fun artifact name hstarts => absurd hstarts (hnone artifact name)⟩
    intro name hname hstale
    simp only [hname] at hall
    exact absurd hall.1 hstale
  · intro hundisturbed
    cases hname : targetName os manifest with
    | none => rfl
    | some name =>
        refine ⟨?_, rfl⟩
        by_contra hstale
        obtain ⟨artifact, hstarts⟩ := hundisturbed.nothingStale name hname hstale
        exact hnone artifact name hstarts

/-- A download is all or nothing just where nothing disturbs it. -/
theorem allOrNothing_iff (sha256 : List UInt8 → List UInt8) (os : TargetOs)
    (manifest : UpdateManifest) (outcomes : DownloadOutcomes) (files : Downloads) :
    AllOrNothing sha256 os manifest outcomes files ↔
      Undisturbed sha256 os manifest outcomes files := by
  cases hstart : startDownload os manifest outcomes with
  | error error => exact allOrNothing_unstarted hstart
  | ok started =>
      obtain ⟨artifact, name⟩ := started
      have hstarts := startDownload_eq_ok_iff.mp hstart
      rw [undisturbed_iff hstarts]
      cases hcreated : outcomes.partialCreated with
      | false =>
          rw [allOrNothing_error hstarts (downloadAndVerify_uncreated hstart hcreated)]
          simp [Function.update_of_ne (partialName_ne name).symm]
      | true =>
          obtain ⟨hfails, error, hresult⟩ | ⟨hcompletes, hreads, hresult⟩ |
              ⟨hincomplete, hreads, error, hresult⟩ :=
            downloadAndVerify_created sha256 files hstart hcreated
          · rw [allOrNothing_error hstarts hresult]
            simp [hfails]
          · rw [allOrNothing_received hstarts (bytesRead_of_completes hcompletes) hresult]
            simp [hreads, hcompletes]
          · rw [allOrNothing_error hstarts hresult]
            simp [hreads, hincomplete, Function.update_of_ne (partialName_ne name).symm]

def sampleDigest : List Char :=
  "ba7816bf8f01cfea414140de5dae2223b00361a396177a9cb410ff61f20015ad".toList

def sampleManifest : UpdateManifest where
  version := "2.0.0".toList
  notes := []
  windows := some ⟨"https://updates/a.msi".toList, sampleDigest⟩
  macos := none

/-- The checksum of the three letters that the sample downloads have. -/
def sampleSha256 (content : List UInt8) : List UInt8 :=
  if content = [97, 98, 99] then (hexDecode sampleDigest).getD [] else []

def sampleOutcomes (body : List Reading) (renamed : Fate) : DownloadOutcomes where
  directoryCreated := true
  answered := true
  contentLength := none
  partialCreated := true
  body := body
  existsSeen := true
  oldRemoved := .goesThrough
  renamed := renamed
  reason := "refused"

/-- A read that fails leaves the partial file. -/
theorem partial_file_left :
    ¬ AllOrNothing sampleSha256 .windows sampleManifest
      (sampleOutcomes [.chunk [97] (by decide) .goesThrough, .failed] .goesThrough)
      (fun _ => none) := by
  intro hall
  have hpart : (downloadAndVerify sampleSha256 .windows sampleManifest
      (sampleOutcomes [.chunk [97] (by decide) .goesThrough, .failed] .goesThrough)
      (fun _ => none)).2 "a.msi.part".toList = some [97] := by decide +kernel
  have hfailed : (downloadAndVerify sampleSha256 .windows sampleManifest
      (sampleOutcomes [.chunk [97] (by decide) .goesThrough, .failed] .goesThrough)
      (fun _ => none)).1 = .error "update download failed: refused" := by decide +kernel
  have htarget : targetName .windows sampleManifest = some "a.msi".toList := by decide +kernel
  have hname : partialName "a.msi".toList = "a.msi.part".toList := by decide +kernel
  unfold AllOrNothing at hall
  generalize downloadAndVerify .. = result at *
  obtain ⟨outcome, after⟩ := result
  subst hfailed
  simp only [htarget, hname] at hall hpart
  rw [hpart] at hall
  exact nomatch hall.1

end EvertyDesk.Launcher
