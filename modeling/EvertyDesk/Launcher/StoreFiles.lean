import EvertyDesk.Lib.FileProgram
import EvertyDesk.Lib.Machine
import EvertyDesk.Launcher.LauncherStore
import Mathlib.Logic.Function.Iterate

/-!
How the launcher saves what it remembers, and loads it again. A new version is written
beside the old one, the old one becomes the backup, and the new one takes its place.
Where the store is missing or cannot be read, loading restores it from the backup, and
does not look whether the copy went through.

A launcher may be stopped before each step on the files, and a step may fail; a file that
is being written or copied may then have any part of its content. Reading does not fail.
-/

namespace EvertyDesk.Launcher

inductive StoreFile where
  | primary
  | backup
  | temporary
  /-- Where a store goes that cannot be read. Nothing reads these files. -/
  | corrupt
deriving DecidableEq, Repr

def maxStoreBytes : Nat := 1024 * 1024

/-- Serialization by the library. -/
structure SerdeJson where
  toVecPretty : LauncherStore → List UInt8
  fromSlice : List UInt8 → Option LauncherStore

inductive ErrorKind where
  | notFound
  | invalidData
deriving DecidableEq, Repr

abbrev StoreProgram := FileProgram StoreFile UInt8

abbrev StoreContents := Files StoreFile UInt8

open FileProgram

section Source

variable (json : SerdeJson) (toLowercase : List Char → List Char)

def parseStore : Option (List UInt8) → Except ErrorKind LauncherStore
  | none => .error .notFound
  | some encoded =>
      if maxStoreBytes < encoded.length then .error .invalidData
      else
        match json.fromSlice encoded with
        | some store => .ok store
        | none => .error .invalidData

def readStore (file : StoreFile) : StoreProgram (Except ErrorKind LauncherStore) := do
  return parseStore json (← readFile file)

/-- The store becomes the backup of what is about to take its place. -/
def rotate : StoreProgram Bool := do
  if ← fileExists .primary then
    (removeIfExists .backup).orFail (perform (.rename .primary .backup))
  else return true

/-- The backup becomes the store again, where there is none. -/
def putBack : StoreProgram Bool := do
  let backup ← fileExists .backup
  let primary ← fileExists .primary
  if backup && !primary then
    let _ ← perform (.rename .backup .primary)
    let _ ← perform (.remove .temporary)
    return false
  else
    let _ ← perform (.remove .temporary)
    return false

def publish : StoreProgram Bool := do
  if ← perform (.rename .temporary .primary) then return true else putBack

def saveTo (store : LauncherStore) : StoreProgram Bool :=
  (perform .makeDirectory).orFail <|
    let encoded := json.toVecPretty store
    if maxStoreBytes < encoded.length then return false
    else
      (removeIfExists .temporary).orFail <|
        (perform (.write .temporary encoded)).orFail <| rotate.orFail publish

/-- A store that had to be repaired is saved, if that is possible. -/
def keepRepaired (store : LauncherStore) : StoreProgram (Except ErrorKind LauncherStore) :=
  let (repaired, changed) := store.repairLegacyMojibake toLowercase
  if changed then do
    let _ ← saveTo json repaired
    return .ok repaired
  else return .ok repaired

def copyBack (store : LauncherStore) : StoreProgram (Except ErrorKind LauncherStore) := do
  let _ ← perform (.copy .backup .primary)
  keepRepaired json toLowercase store

def restore (primaryError : ErrorKind) (store : LauncherStore) :
    StoreProgram (Except ErrorKind LauncherStore) := do
  if primaryError = .invalidData then
    let _ ← perform (.rename .primary .corrupt)
    copyBack json toLowercase store
  else copyBack json toLowercase store

def loadFrom : StoreProgram (Except ErrorKind LauncherStore) := do
  match ← readStore json .primary with
  | .ok store => keepRepaired json toLowercase store
  | .error primaryError =>
      match ← readStore json .backup with
      | .ok store => restore json toLowercase primaryError store
      | .error .notFound =>
          if primaryError = .notFound then return .ok .default
          else return .error primaryError
      | .error .invalidData => return .error primaryError

end Source

/-! Launchers. -/

inductive Returned where
  | loaded (result : Except ErrorKind LauncherStore)
  | saved (store : LauncherStore) (ok : Bool)
deriving DecidableEq

inductive LauncherStage where
  | stopped
  | idle
  | running (program : StoreProgram Returned)

structure LauncherFiles where
  files : StoreContents
  stage : LauncherStage
  /-- Once a store has been saved, that one and those that a launcher has begun to save
  after it. The code does not keep them. -/
  kept : Option (List LauncherStore)

inductive StoreInput where
  /-- A new launcher, whatever the last one was doing. -/
  | load
  | save (store : LauncherStore)
  | step (fate : Fate)
  | stop

namespace LauncherFiles

def start (files : StoreContents) : LauncherFiles where
  files := files
  stage := .stopped
  kept := none

def returned (s : LauncherFiles) : Returned → LauncherFiles
  | .saved store true => { s with stage := .idle, kept := some [store] }
  | _ => { s with stage := .idle }

def step (json : SerdeJson) (toLowercase : List Char → List Char) (s : LauncherFiles) :
    StoreInput → LauncherFiles × Option Returned
  | .load =>
      ({ s with stage := .running (.loaded <$> loadFrom json toLowercase) }, none)
  | .save store =>
      match s.stage with
      | .idle =>
          ({ s with
              stage := .running (.saved store <$> saveTo json store)
              kept := s.kept.map (· ++ [store]) }, none)
      | _ => (s, none)
  | .step fate =>
      match s.stage with
      | .running (.done result) => (s.returned result, some result)
      | .running program =>
          ({ s with
              files := (program.step s.files fate).2
              stage := .running (program.step s.files fate).1 }, none)
      | _ => (s, none)
  | .stop => ({ s with stage := .stopped }, none)

end LauncherFiles

def launcherFiles (json : SerdeJson) (toLowercase : List Char → List Char) :
    Machine LauncherFiles StoreInput (Option Returned) :=
  ⟨LauncherFiles.step json toLowercase⟩

namespace LauncherFiles

variable (json : SerdeJson) (toLowercase : List Char → List Char)

def repaired (store : LauncherStore) : LauncherStore := (store.repairLegacyMojibake toLowercase).1

/-- A load gives the store saved last, or one that a launcher has begun to save after it,
after some repairs. -/
def Durable (s : LauncherFiles) (i : StoreInput) : Prop :=
  ∀ result kept, (s.step json toLowercase i).2 = some (.loaded result) → s.kept = some kept →
    ∃ store ∈ kept, ∃ n, result = .ok ((repaired toLowercase)^[n + 1] store)

/-- The action gives up the backup. -/
def GivesUpBackup : FileAction StoreFile UInt8 → Prop
  | .remove .backup => True
  | .rename .primary .backup => True
  | _ => False

/-- When the backup is given up, the store can be read. -/
def GivesUpOnlyIfReadable (action : FileAction StoreFile UInt8) (files : StoreContents) : Prop :=
  GivesUpBackup action → ∃ store, parseStore json (files .primary) = .ok store

instance (contents : Option (List UInt8)) :
    Decidable (∃ store, parseStore json contents = .ok store) :=
  decidable_of_iff ((parseStore json contents).isOk = true) (by
    cases parseStore json contents <;> simp [Except.isOk, Except.toBool])

instance (action : FileAction StoreFile UInt8) : Decidable (GivesUpBackup action) :=
  match action with
  | .remove .backup => .isTrue trivial
  | .rename .primary .backup => .isTrue trivial
  | .remove .primary | .remove .temporary | .remove .corrupt => .isFalse id
  | .rename .primary .primary | .rename .primary .temporary | .rename .primary .corrupt =>
      .isFalse id
  | .rename .backup _ | .rename .temporary _ | .rename .corrupt _ => .isFalse id
  | .makeDirectory | .write _ _ | .copy _ _ => .isFalse id

instance (action : FileAction StoreFile UInt8) (files : StoreContents) :
    Decidable (GivesUpOnlyIfReadable json action files) :=
  inferInstanceAs (Decidable (_ → _))

/-- Once a store has been saved, no backup is given up for a store that cannot be read. -/
def KeepsBackup (s : LauncherFiles) : StoreInput → Prop
  | .step _ =>
      match s.stage with
      | .running program =>
          s.kept.isSome → program.Allowed (GivesUpOnlyIfReadable json) s.files
      | _ => True
  | _ => True

instance (s : LauncherFiles) : ∀ i, Decidable (s.KeepsBackup json i)
  | .step fate =>
      match h : s.stage with
      | .running (.act action next) =>
          decidable_of_iff (s.kept.isSome → GivesUpOnlyIfReadable json action s.files)
            (by rw [KeepsBackup, h]; rfl)
      | .running (.done _) => .isTrue (by rw [KeepsBackup, h]; exact fun _ => trivial)
      | .running (.read _ _) => .isTrue (by rw [KeepsBackup, h]; exact fun _ => trivial)
      | .stopped => .isTrue (by rw [KeepsBackup, h]; trivial)
      | .idle => .isTrue (by rw [KeepsBackup, h]; trivial)
  | .load => .isTrue trivial
  | .save _ => .isTrue trivial
  | .stop => .isTrue trivial

end LauncherFiles

/-- The library reads what it has written, and takes no part of it for the whole. -/
def SerdeJson.Reads (json : SerdeJson) (store : LauncherStore) : Prop :=
  json.fromSlice (json.toVecPretty store) = some store ∧
    ∀ n < (json.toVecPretty store).length, json.fromSlice ((json.toVecPretty store).take n) = none

namespace LauncherFiles

section Recovery

variable (json : SerdeJson) (toLowercase : List Char → List Char)

def Candidate (kept : List LauncherStore) (store : LauncherStore) : Prop :=
  ∃ first ∈ kept, ∃ n, store = (repaired toLowercase)^[n] first

def Holds (file : StoreFile) (store : LauncherStore) (files : StoreContents) : Prop :=
  files file = some (json.toVecPretty store) ∧ (json.toVecPretty store).length ≤ maxStoreBytes

/-- A candidate is in its place, or it is in the backup and what is in its place cannot be
read. -/
def Recoverable (kept : List LauncherStore) (files : StoreContents) : Prop :=
  (∃ store, Candidate toLowercase kept store ∧ Holds json .primary store files) ∨
    (∀ store, parseStore json (files .primary) ≠ .ok store) ∧
      ∃ store, Candidate toLowercase kept store ∧ Holds json .backup store files

/-- What holds of the files at every step. -/
def Safely (kept : Option (List LauncherStore)) (files : StoreContents) : Prop :=
  ∀ stores, kept = some stores → Recoverable json toLowercase stores files

def Allowing (kept : Option (List LauncherStore)) (action : FileAction StoreFile UInt8)
    (files : StoreContents) : Prop :=
  kept.isSome → GivesUpOnlyIfReadable json action files

end Recovery

section Files

variable {json : SerdeJson} {toLowercase : List Char → List Char}
  {kept : Option (List LauncherStore)} {files next : StoreContents} {store : LauncherStore}

theorem parseStore_holds {file : StoreFile} (hreads : json.Reads store)
    (h : Holds json file store files) : parseStore json (files file) = .ok store := by
  rw [h.1, parseStore, if_neg (Nat.not_lt.mpr h.2), hreads.1]

/-- Files that the store and its backup are not in may change. -/
theorem Safely.congr (h : Safely json toLowercase kept files)
    (hprimary : next .primary = files .primary) (hbackup : next .backup = files .backup) :
    Safely json toLowercase kept next := by
  intro stores hkept
  simpa only [Recoverable, Holds, hprimary, hbackup] using h stores hkept

/-- A candidate may come into its place. -/
theorem safely_of_primary
    (hstore : ∀ stores, kept = some stores → Candidate toLowercase stores store)
    (h : Holds json .primary store files) : Safely json toLowercase kept files :=
  fun stores hkept => .inl ⟨store, hstore stores hkept, h⟩

/-- As long as the store can be read, the backup may go. -/
theorem Safely.readable (h : Safely json toLowercase kept files)
    (hallowed : kept.isSome → ∃ store, parseStore json (files .primary) = .ok store)
    {stores : List LauncherStore} (hkept : kept = some stores) :
    ∃ store, Candidate toLowercase stores store ∧ Holds json .primary store files := by
  rcases h stores hkept with hprimary | ⟨hunreadable, -⟩
  · exact hprimary
  · obtain ⟨other, hother⟩ := hallowed (by rw [hkept]; rfl)
    exact absurd hother (hunreadable other)

/-- A store that cannot be read may change into another one that cannot. -/
theorem Safely.unreadable (h : Safely json toLowercase kept files)
    (hbefore : ∀ store, parseStore json (files .primary) ≠ .ok store)
    (hafter : ∀ stores, kept = some stores → ∀ store, parseStore json (next .primary) ≠ .ok store)
    (hbackup : next .backup = files .backup)
    (hreads : ∀ stores, kept = some stores → ∀ store, Candidate toLowercase stores store →
      json.Reads store) : Safely json toLowercase kept next := by
  intro stores hkept
  rcases h stores hkept with ⟨store, hcandidate, hholds⟩ | ⟨-, store, hcandidate, hholds⟩
  · exact absurd (parseStore_holds (hreads stores hkept store hcandidate) hholds) (hbefore store)
  · refine .inr ⟨hafter stores hkept, store, hcandidate, ?_⟩
    rw [Holds, hbackup]
    exact hholds

end Files

/-! The programs are safe. -/

section Programs

variable {json : SerdeJson} {toLowercase : List Char → List Char}
  {kept : Option (List LauncherStore)} {files : StoreContents} {store : LauncherStore}

theorem Candidate.repaired {stores : List LauncherStore} (h : Candidate toLowercase stores store) :
    Candidate toLowercase stores (repaired toLowercase store) := by
  obtain ⟨first, hmem, n, rfl⟩ := h
  exact ⟨first, hmem, n + 1, (Function.iterate_succ_apply' _ _ _).symm⟩

variable (h : Safely json toLowercase kept files)

include h

/-- A step that fails changes only what it writes. -/
theorem removeIfExists_temporary_safe :
    (removeIfExists .temporary).Safe (Allowing json kept) (Safely json toLowercase kept)
      (fun _ _ => True) files := by
  rw [removeIfExists, safe_bind, safe_fileExists]
  refine ⟨h, ?_⟩
  cases hexists : (files .temporary).isSome with
  | false => exact ⟨h, trivial⟩
  | true =>
      refine ⟨h, fun _ fate => ⟨?_, trivial⟩⟩
      cases fate with
      | fails => exact h
      | goesThrough =>
          obtain ⟨content, hcontent⟩ := Option.isSome_iff_exists.mp hexists
          simp only [FileAction.perform, hcontent]
          exact h.congr rfl rfl

theorem write_temporary_safe (content : List UInt8) :
    (perform (.write .temporary content)).Safe (Allowing json kept) (Safely json toLowercase kept)
      (fun ok files => ok = true → files .temporary = some content) files := by
  refine ⟨h, fun _ fate => ?_⟩
  match fate with
  | .goesThrough => exact ⟨h.congr rfl rfl, fun _ => rfl⟩
  | .fails none => exact ⟨h, fun hok => nomatch hok⟩
  | .fails (some _) => exact ⟨h.congr rfl rfl, fun hok => nomatch hok⟩

theorem rotate_safe {content : List UInt8} (htemporary : files .temporary = some content) :
    rotate.Safe (Allowing json kept) (Safely json toLowercase kept)
      (fun _ files => files .temporary = some content) files := by
  rw [rotate, safe_bind, safe_fileExists]
  refine ⟨h, ?_⟩
  cases hexists : (files .primary).isSome with
  | false => exact ⟨h, htemporary⟩
  | true =>
      apply Safe.orFail (fun _ files => files .temporary = some content)
      · rw [removeIfExists, safe_bind, safe_fileExists]
        refine ⟨h, ?_⟩
        cases hbackup : (files .backup).isSome with
        | false => exact ⟨h, htemporary⟩
        | true =>
            refine ⟨h, fun hallowed fate => ?_⟩
            cases fate with
            | fails => exact ⟨h, htemporary⟩
            | goesThrough =>
                obtain ⟨old, hold⟩ := Option.isSome_iff_exists.mp hbackup
                simp only [FileAction.perform, hold]
                refine ⟨fun stores hkept => ?_, htemporary⟩
                obtain ⟨store, hcandidate, hholds⟩ :=
                  h.readable (fun hsome => hallowed hsome trivial) hkept
                exact .inl ⟨store, hcandidate, hholds⟩
      · intro files h htemporary
        refine ⟨h, fun hallowed fate => ?_⟩
        cases fate with
        | fails => exact ⟨h, htemporary⟩
        | goesThrough =>
            cases hprimary : files .primary with
            | none =>
                simp only [FileAction.perform, hprimary]
                exact ⟨h, htemporary⟩
            | some bytes =>
                simp only [FileAction.perform, hprimary]
                refine ⟨fun stores hkept => ?_, htemporary⟩
                obtain ⟨store, hcandidate, hholds⟩ :=
                  h.readable (fun hsome => hallowed hsome trivial) hkept
                refine .inr ⟨?_, store, hcandidate, hprimary.symm.trans hholds.1, hholds.2⟩
                intro _ hnone
                cases hnone
      · exact fun _ => id

theorem putBack_safe :
    putBack.Safe (Allowing json kept) (Safely json toLowercase kept)
      (fun ok _ => ok = false) files := by
  have hremove : ∀ files, Safely json toLowercase kept files →
      (do let _ ← perform (.remove .temporary); return false : StoreProgram Bool).Safe
        (Allowing json kept) (Safely json toLowercase kept) (fun ok _ => ok = false) files := by
    intro files h
    refine ⟨h, fun _ fate => ⟨?_, rfl⟩⟩
    cases fate with
    | fails => exact h
    | goesThrough =>
        simp only [FileAction.perform]
        split
        · exact h.congr rfl rfl
        · exact h
  rw [putBack, safe_bind, safe_fileExists]
  refine ⟨h, ?_⟩
  rw [safe_bind, safe_fileExists]
  refine ⟨h, ?_⟩
  cases hmissing : (files .backup).isSome && !(files .primary).isSome with
  | false => exact hremove files h
  | true =>
      rw [Bool.and_eq_true, Bool.not_eq_true'] at hmissing
      obtain ⟨hbackup, hprimary⟩ := hmissing
      refine ⟨h, fun _ fate => ?_⟩
      cases fate with
      | fails => exact hremove files h
      | goesThrough =>
          obtain ⟨content, hcontent⟩ := Option.isSome_iff_exists.mp hbackup
          simp only [FileAction.perform, hcontent]
          apply hremove
          intro stores hkept
          rcases h stores hkept with ⟨old, -, hold⟩ | ⟨-, old, hcandidate, hold⟩
          · rw [hold.1] at hprimary
            cases hprimary
          · exact .inl ⟨old, hcandidate, hcontent.symm.trans hold.1, hold.2⟩

section Saving

variable (hstore : ∀ stores, kept = some stores → Candidate toLowercase stores store)

include hstore

theorem publish_safe (htemporary : files .temporary = some (json.toVecPretty store))
    (hlength : (json.toVecPretty store).length ≤ maxStoreBytes) :
    publish.Safe (Allowing json kept) (Safely json toLowercase kept)
      (fun ok files => ok = true → Holds json .primary store files) files := by
  rw [publish, safe_bind]
  refine ⟨h, fun _ fate => ?_⟩
  cases fate with
  | goesThrough =>
      simp only [FileAction.perform, htemporary]
      have hholds : Holds json .primary store
          (Function.update (Function.update files .temporary none) .primary
            (some (json.toVecPretty store))) := ⟨rfl, hlength⟩
      exact ⟨safely_of_primary hstore hholds, safely_of_primary hstore hholds, fun _ => hholds⟩
  | fails =>
      refine ⟨h, (putBack_safe h).weaken fun ok _ _ hfailed hok => ?_⟩
      rw [hfailed] at hok
      cases hok

theorem saveTo_safe :
    (saveTo json store).Safe (Allowing json kept) (Safely json toLowercase kept)
      (fun ok files => ok = true → Holds json .primary store files) files := by
  rw [saveTo]
  apply Safe.orFail fun _ _ => True
  · refine ⟨h, fun _ fate => ⟨?_, trivial⟩⟩
    cases fate <;> exact h
  · intro files h _
    dsimp only
    split
    · exact ⟨h, fun hok => absurd hok Bool.false_ne_true⟩
    next hlength =>
      apply Safe.orFail _ (removeIfExists_temporary_safe h)
      · intro files h _
        apply Safe.orFail _ (write_temporary_safe h _)
        · intro files h hwritten
          apply Safe.orFail _ (rotate_safe h (hwritten rfl))
          · intro files h htemporary
            exact publish_safe h hstore htemporary (Nat.le_of_not_lt hlength)
          · exact fun _ _ hok => absurd hok Bool.false_ne_true
        · exact fun _ _ hok => absurd hok Bool.false_ne_true
      · exact fun _ _ hok => absurd hok Bool.false_ne_true
  · exact fun _ _ hok => absurd hok Bool.false_ne_true

theorem keepRepaired_safe :
    (keepRepaired json toLowercase store).Safe (Allowing json kept) (Safely json toLowercase kept)
      (fun result _ => result = .ok (repaired toLowercase store)) files := by
  rw [keepRepaired]
  split
  next fixed changed hrepair =>
    have hfixed : fixed = repaired toLowercase store := by rw [repaired, hrepair]
    subst hfixed
    cases changed with
    | true =>
        simp only [if_true]
        rw [safe_bind]
        apply (saveTo_safe h fun stores hkept => (hstore stores hkept).repaired).weaken
        exact fun _ _ h _ => ⟨h, rfl⟩
    | false => exact ⟨h, rfl⟩

end Saving

theorem safe_readStore {returns : Except ErrorKind LauncherStore → StoreContents → Prop}
    {file : StoreFile} (hreturns : returns (parseStore json (files file)) files) :
    (readStore json file).Safe (Allowing json kept) (Safely json toLowercase kept) returns files :=
  ⟨h, h, hreturns⟩

variable (hreads : ∀ stores, kept = some stores → ∀ store, Candidate toLowercase stores store →
    json.Reads store)

include hreads

/-- However much of the backup is copied, it is there. -/
theorem copy_safe (hunreadable : ∀ store, parseStore json (files .primary) ≠ .ok store) :
    (perform (.copy .backup .primary)).Safe (Allowing json kept)
      (Safely json toLowercase kept) (fun _ _ => True) files := by
  refine ⟨h, fun _ fate => ⟨?_, trivial⟩⟩
  cases hbackup : files .backup with
  | none =>
      simp only [FileAction.perform, hbackup]
      exact h
  | some content =>
      simp only [FileAction.perform, hbackup]
      -- A candidate is what is in the backup.
      have hcontent : ∀ stores, kept = some stores → ∃ store,
          Candidate toLowercase stores store ∧ content = json.toVecPretty store ∧
            content.length ≤ maxStoreBytes := by
        intro stores hkept
        rcases h stores hkept with ⟨store, hcandidate, hholds⟩ | ⟨-, store, hcandidate, hholds⟩
        · exact absurd (parseStore_holds (hreads stores hkept store hcandidate) hholds)
            (hunreadable store)
        · have hsame : content = json.toVecPretty store := by
            rw [hholds.1, Option.some.injEq] at hbackup
            exact hbackup.symm
          exact ⟨store, hcandidate, hsame, hsame ▸ hholds.2⟩
      have hwhole : Safely json toLowercase kept
          (Function.update files .primary (some content)) := by
        intro stores hkept
        obtain ⟨store, hcandidate, hsame, hlength⟩ := hcontent stores hkept
        exact .inl ⟨store, hcandidate, by rw [← hsame]; rfl, hsame ▸ hlength⟩
      match fate with
      | .goesThrough => exact hwhole
      | .fails none => exact h
      | .fails (some n) =>
          simp only [FileAction.writeContent]
          by_cases hall : content.length ≤ n
          · rw [List.take_of_length_le hall]
            exact hwhole
          · have hafter : ∀ stores, kept = some stores → ∀ store,
                parseStore json (some (content.take n)) ≠ .ok store := by
              intro stores hkept other hother
              obtain ⟨store, hcandidate, rfl, -⟩ := hcontent stores hkept
              have hpart := (hreads stores hkept store hcandidate).2 n (Nat.lt_of_not_le hall)
              simp only [parseStore, hpart] at hother
              split at hother <;> cases hother
            exact Safely.unreadable h hunreadable hafter rfl hreads

theorem restore_safe (hunreadable : ∀ store, parseStore json (files .primary) ≠ .ok store)
    (hbackup : parseStore json (files .backup) = .ok store) (primaryError : ErrorKind) :
    (restore json toLowercase primaryError store).Safe (Allowing json kept)
      (Safely json toLowercase kept)
      (fun result _ => ∀ stores, kept = some stores →
        Candidate toLowercase stores store ∧ result = .ok (repaired toLowercase store))
      files := by
  have hstore : ∀ stores, kept = some stores → Candidate toLowercase stores store := by
    intro stores hkept
    rcases h stores hkept with ⟨other, hcandidate, hholds⟩ | ⟨-, other, hcandidate, hholds⟩
    · exact absurd (parseStore_holds (hreads stores hkept other hcandidate) hholds)
        (hunreadable other)
    · rw [parseStore_holds (hreads stores hkept other hcandidate) hholds,
        Except.ok.injEq] at hbackup
      exact hbackup ▸ hcandidate
  have hcopied : ∀ {files}, Safely json toLowercase kept files →
      (∀ store, parseStore json (files .primary) ≠ .ok store) →
      (copyBack json toLowercase store).Safe (Allowing json kept) (Safely json toLowercase kept)
        (fun result _ => ∀ stores, kept = some stores →
          Candidate toLowercase stores store ∧ result = .ok (repaired toLowercase store))
        files := by
    intro files h hunreadable
    rw [copyBack, safe_bind]
    apply (copy_safe h hreads hunreadable).weaken
    intro _ files h _
    apply (keepRepaired_safe h hstore).weaken
    exact fun _ _ _ hresult stores hkept => ⟨hstore stores hkept, hresult⟩
  rw [restore]
  split
  · refine ⟨h, fun _ fate => ?_⟩
    cases fate with
    | fails => exact hcopied h hunreadable
    | goesThrough =>
        simp only [FileAction.perform]
        split
        next content hprimary =>
          have hmissing : ∀ store, parseStore json none ≠ .ok store := by
            intro store hnone
            cases hnone
          exact hcopied (Safely.unreadable h hunreadable (fun _ _ => hmissing) rfl hreads) hmissing
        · exact hcopied h hunreadable
  · exact hcopied h hunreadable

theorem loadFrom_safe :
    (loadFrom json toLowercase).Safe (Allowing json kept) (Safely json toLowercase kept)
      (fun result _ => ∀ stores, kept = some stores → ∃ store,
        Candidate toLowercase stores store ∧ result = .ok (repaired toLowercase store))
      files := by
  rw [loadFrom, safe_bind]
  apply safe_readStore h
  cases hprimary : parseStore json (files .primary) with
  | ok store =>
      have hstore : ∀ stores, kept = some stores → Candidate toLowercase stores store := by
        intro stores hkept
        obtain ⟨other, hcandidate, hholds⟩ := h.readable (fun _ => ⟨store, hprimary⟩) hkept
        rw [parseStore_holds (hreads stores hkept other hcandidate) hholds,
          Except.ok.injEq] at hprimary
        exact hprimary ▸ hcandidate
      apply (keepRepaired_safe h hstore).weaken
      exact fun _ _ _ hresult stores hkept => ⟨store, hstore stores hkept, hresult⟩
  | error primaryError =>
      have hunreadable : ∀ store, parseStore json (files .primary) ≠ .ok store := by
        rw [hprimary]
        exact fun _ hok => nomatch hok
      dsimp only
      rw [safe_bind]
      apply safe_readStore h
      -- Once a store has been saved, the backup is a candidate here.
      have hcandidate : ∀ stores, kept = some stores →
          ∃ store, parseStore json (files .backup) = .ok store := by
        intro stores hkept
        rcases h stores hkept with ⟨store, hcandidate, hholds⟩ | ⟨-, store, hcandidate, hholds⟩
        · exact absurd (parseStore_holds (hreads stores hkept store hcandidate) hholds)
            (hunreadable store)
        · exact ⟨store, parseStore_holds (hreads stores hkept store hcandidate) hholds⟩
      cases hbackup : parseStore json (files .backup) with
      | ok store =>
          apply (restore_safe h hreads hunreadable hbackup primaryError).weaken
          exact fun _ _ _ hresult stores hkept => ⟨store, hresult stores hkept⟩
      | error backupError =>
          have hnever : ∀ stores, kept ≠ some stores := by
            intro stores hkept
            obtain ⟨store, hok⟩ := hcandidate stores hkept
            rw [hbackup] at hok
            cases hok
          cases backupError with
          | invalidData => exact ⟨h, fun stores hkept => absurd hkept (hnever stores)⟩
          | notFound =>
              dsimp only
              split
              · exact ⟨h, fun stores hkept => absurd hkept (hnever stores)⟩
              · exact ⟨h, fun stores hkept => absurd hkept (hnever stores)⟩

end Programs

/-! Runs. -/

section Runs

variable (json : SerdeJson) (toLowercase : List Char → List Char)

/-- The library reads the store, however often it is repaired. -/
def Readable (store : LauncherStore) : Prop := ∀ n, json.Reads ((repaired toLowercase)^[n] store)

/-- What holds when a call returns. -/
def Returns (kept : Option (List LauncherStore)) : Returned → StoreContents → Prop
  | .loaded result, _ => ∀ stores, kept = some stores → ∃ store,
      Candidate toLowercase stores store ∧ result = .ok (repaired toLowercase store)
  | .saved store ok, files =>
      Readable json toLowercase store ∧ (ok = true → Holds json .primary store files)

structure Sound (s : LauncherFiles) : Prop where
  readable : ∀ stores, s.kept = some stores → ∀ store ∈ stores, Readable json toLowercase store
  safely : Safely json toLowercase s.kept s.files
  running : ∀ program, s.stage = .running program →
    program.Safe (Allowing json s.kept) (Safely json toLowercase s.kept)
      (Returns json toLowercase s.kept) s.files

end Runs

section Steps

variable {json : SerdeJson} {toLowercase : List Char → List Char} {s : LauncherFiles}

theorem start_sound (files : StoreContents) : (start files).Sound json toLowercase where
  readable := fun _ hkept => nomatch hkept
  safely := fun _ hkept => nomatch hkept
  running := fun _ hstage => nomatch hstage

theorem Sound.reads (h : s.Sound json toLowercase) (stores : List LauncherStore)
    (hkept : s.kept = some stores) (store : LauncherStore)
    (hcandidate : Candidate toLowercase stores store) : json.Reads store := by
  obtain ⟨first, hmem, n, rfl⟩ := hcandidate
  exact h.readable stores hkept first hmem n

theorem Sound.load (h : s.Sound json toLowercase) :
    (s.step json toLowercase .load).1.Sound json toLowercase where
  readable := h.readable
  safely := h.safely
  running := by
    rintro _ ⟨⟩
    exact safe_map.mpr (loadFrom_safe h.safely h.reads)

theorem Sound.save (h : s.Sound json toLowercase) {store : LauncherStore}
    (hreadable : Readable json toLowercase store) :
    (s.step json toLowercase (.save store)).1.Sound json toLowercase := by
  cases hstage : s.stage with
  | idle =>
      simp only [LauncherFiles.step, hstage]
      have hsafely : Safely json toLowercase (s.kept.map (· ++ [store])) s.files := by
        intro stores hkept
        obtain ⟨before, hbefore, rfl⟩ := Option.map_eq_some_iff.mp hkept
        have hmore : ∀ other, Candidate toLowercase before other →
            Candidate toLowercase (before ++ [store]) other := by
          rintro _ ⟨first, hmem, n, rfl⟩
          exact ⟨first, List.mem_append_left _ hmem, n, rfl⟩
        rcases h.safely before hbefore with
          ⟨other, hother, hholds⟩ | ⟨hunreadable, other, hother, hholds⟩
        · exact .inl ⟨other, hmore other hother, hholds⟩
        · exact .inr ⟨hunreadable, other, hmore other hother, hholds⟩
      constructor
      · intro stores hkept other hmem
        obtain ⟨before, hbefore, rfl⟩ := Option.map_eq_some_iff.mp hkept
        rcases List.mem_append.mp hmem with hold | hnew
        · exact h.readable before hbefore other hold
        · exact List.mem_singleton.mp hnew ▸ hreadable
      · exact hsafely
      · rintro _ ⟨⟩
        have hstore : ∀ stores, s.kept.map (· ++ [store]) = some stores →
            Candidate toLowercase stores store := by
          intro stores hkept
          obtain ⟨before, -, rfl⟩ := Option.map_eq_some_iff.mp hkept
          exact ⟨store, List.mem_append_right _ List.mem_cons_self, 0, rfl⟩
        apply safe_map.mpr
        exact (saveTo_safe hsafely hstore).weaken fun _ _ _ hsaved => ⟨hreadable, hsaved⟩
  | stopped => simpa only [LauncherFiles.step, hstage] using h
  | running program => simpa only [LauncherFiles.step, hstage] using h

theorem Sound.returned (h : s.Sound json toLowercase) {result : Returned}
    (hresult : Returns json toLowercase s.kept result s.files) :
    (s.returned result).Sound json toLowercase := by
  have hidle : ({ s with stage := .idle } : LauncherFiles).Sound json toLowercase :=
    ⟨h.readable, h.safely, fun _ hstage => nomatch hstage⟩
  match result with
  | .loaded _ => exact hidle
  | .saved _ false => exact hidle
  | .saved store true =>
      obtain ⟨hreadable, hholds⟩ := hresult
      constructor
      · rintro _ ⟨⟩ other hmem
        exact List.mem_singleton.mp hmem ▸ hreadable
      · rintro _ ⟨⟩
        exact .inl ⟨store, ⟨store, List.mem_cons_self, 0, rfl⟩, hholds rfl⟩
      · exact fun _ hstage => nomatch hstage

theorem Sound.step (h : s.Sound json toLowercase) {i : StoreInput}
    (hreadable : ∀ store, i = .save store → Readable json toLowercase store)
    (hkeeps : s.KeepsBackup json i) :
    (s.step json toLowercase i).1.Sound json toLowercase ∧ s.Durable json toLowercase i := by
  cases i with
  | load => exact ⟨h.load, fun _ _ hnone => nomatch hnone⟩
  | save store =>
      refine ⟨h.save (hreadable store rfl), fun _ _ hnone => ?_⟩
      simp only [LauncherFiles.step] at hnone
      split at hnone <;> cases hnone
  | stop => exact ⟨⟨h.readable, h.safely, fun _ hstage => nomatch hstage⟩,
      fun _ _ hnone => nomatch hnone⟩
  | step fate =>
      cases hstage : s.stage with
      | stopped =>
          simp only [Durable, LauncherFiles.step, hstage]
          exact ⟨h, fun _ _ hnone => nomatch hnone⟩
      | idle =>
          simp only [Durable, LauncherFiles.step, hstage]
          exact ⟨h, fun _ _ hnone => nomatch hnone⟩
      | running program =>
          have hsafe := h.running program hstage
          have hallowed : program.Allowed (Allowing json s.kept) s.files := by
            simp only [KeepsBackup, hstage] at hkeeps
            cases program with
            | act action next => exact hkeeps
            | done result => trivial
            | read file next => trivial
          have hnext := hsafe.step hallowed fate
          have hrunning : ({ s with
              files := (program.step s.files fate).2
              stage := .running (program.step s.files fate).1 } : LauncherFiles).Sound
                json toLowercase := by
            refine ⟨h.readable, hnext.inv_now, ?_⟩
            rintro _ ⟨⟩
            exact hnext
          cases program with
          | done result =>
              simp only [Durable, LauncherFiles.step, hstage]
              refine ⟨h.returned hsafe.2, fun loaded stores hresult hkept => ?_⟩
              cases hresult
              obtain ⟨_, ⟨first, hmem, n, rfl⟩, hloaded⟩ := hsafe.2 stores hkept
              exact ⟨first, hmem, n, by rw [hloaded, Function.iterate_succ_apply']⟩
          | read file next =>
              simp only [Durable, LauncherFiles.step, hstage]
              exact ⟨hrunning, fun _ _ hnone => nomatch hnone⟩
          | act action next =>
              simp only [Durable, LauncherFiles.step, hstage]
              exact ⟨hrunning, fun _ _ hnone => nomatch hnone⟩

/-- Whatever is cut short, what has been saved is loaded again, unless a backup is given up
for a store that cannot be read. -/
theorem launcher_store_durable {files : StoreContents} {inputs : List StoreInput}
    (hreadable : ∀ store, .save store ∈ inputs → Readable json toLowercase store)
    (hkeeps : (launcherFiles json toLowercase).Along (KeepsBackup json) (start files) inputs) :
    (launcherFiles json toLowercase).Along (Durable json toLowercase) (start files) inputs := by
  have hinputs : ∀ i ∈ inputs, ∀ store, i = .save store → Readable json toLowercase store :=
    fun i hi store hsave => hreadable store (hsave ▸ hi)
  have hsteps := (launcherFiles json toLowercase).along_and
    ((launcherFiles json toLowercase).along_of_inputs hinputs (start files)) hkeeps
  exact (launcherFiles json toLowercase).along_of_invariant (I := Sound json toLowercase)
    (fun _ _ h hstep => h.step hstep.1 hstep.2) (start_sound files) hsteps

end Steps

/-! The default store. -/

/-- The members of the default store, each on a line of its own. -/
def defaultMembers : List String :=
  ["\"contacts\": []", "\"recent\": []", "\"quality\": \"balanced\"",
    "\"scaling\": \"smooth_fit\"", "\"audio_enabled\": true",
    "\"start_host_on_launch\": true", "\"launch_on_startup\": false",
    "\"show_start_menu_shortcut\": false", "\"keep_taskbar_icon_on_close\": false",
    "\"language\": \"system\"", "\"update_channel\": \"github_release\"",
    "\"update_manifest_url\": \"\"",
    "\"update_github_repo\": \"vaalimusic/EvertyDesk_Lite\"",
    "\"address_book_account\": \"\"", "\"address_book_guid\": \"\"",
    "\"address_book_last_sync_unix\": 0", "\"smart_agent_enabled\": true",
    "\"smart_agent_service_key\": \"\"", "\"compatibility_settings_expanded\": false",
    "\"vm_settings_expanded\": false", "\"vm_bridge_enabled\": false",
    "\"vm_provider\": \"auto\"", "\"vm_target_id\": \"\"", "\"game_codec\": \"auto\"",
    "\"game_evrt2_enabled\": false"]

def defaultJson : List UInt8 :=
  let members := defaultMembers.map fun member => "\n  ".toList ++ member.toList
  ("\x7b".toList ++ [','].intercalate members ++ "\n\x7d".toList).map fun c => UInt8.ofNat c.toNat

/-- The library, as far as the default store needs it. -/
def plainJson : SerdeJson where
  toVecPretty store := if store = .default then defaultJson else []
  fromSlice encoded := if encoded = defaultJson then some .default else none

def goesThrough (steps : Nat) : List StoreInput := List.replicate steps (.step .goesThrough)

/-- There are no files, and the default store is saved. -/
def firstSave : List StoreInput := .load :: goesThrough 3 ++ .save .default :: goesThrough 6

theorem plainJson_readable : Readable plainJson id .default := by
  intro n
  have hfixed : repaired id .default = .default := by decide +kernel
  rw [Function.iterate_fixed hfixed]
  constructor
  · simp [plainJson]
  · intro n hlength
    have hwhole : plainJson.toVecPretty .default = defaultJson := by simp [plainJson]
    rw [hwhole] at hlength ⊢
    have hother : defaultJson.take n ≠ defaultJson := by
      intro hsame
      have hshort := congrArg List.length hsame
      rw [List.length_take] at hshort
      omega
    simp [plainJson, hother]

theorem launcher_store_durable_default :
    (launcherFiles plainJson id).Along (Durable plainJson id) (start fun _ => none)
        (firstSave ++ .load :: goesThrough 2) ∧
      ((launcherFiles plainJson id).outputs (start fun _ => none)
        (firstSave ++ .load :: goesThrough 2)).getLast? = some (some (.loaded (.ok .default))) := by
  obtain ⟨hkeeps, hloaded⟩ :
      (launcherFiles plainJson id).Along (KeepsBackup plainJson) (start fun _ => none)
        (firstSave ++ .load :: goesThrough 2) ∧
      ((launcherFiles plainJson id).outputs (start fun _ => none)
        (firstSave ++ .load :: goesThrough 2)).getLast? = some (some (.loaded (.ok .default))) := by
    decide +kernel
  refine ⟨launcher_store_durable ?_ hkeeps, hloaded⟩
  intro store hsaved
  simp [firstSave, goesThrough] at hsaved
  exact hsaved ▸ plainJson_readable

/-- The second save is cut short, the store is restored but the copy fails, and the third
save is cut short when it has removed the backup. -/
def cutShort : List StoreInput :=
  firstSave ++ .save .default :: goesThrough 6 ++
    .load :: goesThrough 2 ++ .step (.fails (some 0)) :: goesThrough 1 ++
      .save .default :: goesThrough 7 ++ .load :: goesThrough 2

theorem backup_is_given_up :
    ¬ (launcherFiles plainJson id).Along (Durable plainJson id) (start fun _ => none)
      (cutShort ++ goesThrough 1) := by
  intro h
  have hlast : ((launcherFiles plainJson id).run (start fun _ => none) cutShort).Durable
      plainJson id (.step .goesThrough) :=
    (launcherFiles plainJson id).along_iff.mp h cutShort (.step .goesThrough) [] rfl
  obtain ⟨hreturned, hkept⟩ :
      (((launcherFiles plainJson id).run (start fun _ => none) cutShort).step plainJson id
        (.step .goesThrough)).2 = some (.loaded (.error .invalidData)) ∧
      ((launcherFiles plainJson id).run (start fun _ => none) cutShort).kept =
        some [.default, .default, .default] := by
    decide +kernel
  obtain ⟨_, _, _, hok⟩ := hlast _ _ hreturned hkept
  cases hok

end LauncherFiles

end EvertyDesk.Launcher
