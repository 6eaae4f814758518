import EvertyDesk.Launcher.LauncherStore
import EvertyDesk.Lib.KeyedBooks
import EvertyDesk.Lib.Machine
import EvertyDesk.Lib.Utf8
import Mathlib.Data.Char
import Mathlib.Data.List.Lex
import Mathlib.Data.Prod.Lex

/-!
The contacts of the launcher and its recent connections, and everything that changes them.
Contacts are checked where they are entered by hand and where the cloud brings a new one.
What the cloud says about a contact that is already there is written without a check.
-/

namespace EvertyDesk.Launcher

def maxRecentConnections : Nat := 12

inductive StoreError where
  | missingName
  | missingRemoteId
  | nameTooLong
  | remoteIdTooLong
  | invalidRemoteId
  | groupTooLong
  | noteTooLong
  | invalidMetadata
deriving DecidableEq, Repr

/-- A character that stays in the id of a computer. -/
def idCharacter (character : Char) : Bool := !isWhitespace character && character != '-'

/-- Lower case, by the tables of the Unicode standard. What is in lower case stays as it is,
and neither white space nor dashes come from other characters. -/
structure Lowercase where
  toLowercase : List Char → List Char
  idempotent : ∀ text, toLowercase (toLowercase text) = toLowercase text
  keeps : ∀ text, text.all idCharacter → (toLowercase text).all idCharacter

section Checks

def validateContact (name remoteId group note : List Char) : Except StoreError Unit :=
  if name = [] then .error .missingName
  else if remoteId = [] then .error .missingRemoteId
  else if 80 < name.length then .error .nameTooLong
  else if 128 < (utf8 remoteId).length then .error .remoteIdTooLong
  else if remoteId.any isControl then .error .invalidRemoteId
  else if 60 < group.length then .error .groupTooLong
  else if 300 < note.length then .error .noteTooLong
  else if (group ++ note).any isControl then .error .invalidMetadata
  else .ok ()

def validateContactTags (tags : List (List Char)) : Except StoreError Unit :=
  if 24 < tags.length then .error .invalidMetadata
  else if tags.any fun tag => 40 < tag.length || tag.any isControl then .error .invalidMetadata
  else .ok ()

end Checks

/-- What the cloud says about a computer. -/
structure CloudContact where
  name : List Char
  remoteId : List Char
  note : List Char
  tags : List (List Char)
deriving DecidableEq, Repr

/-- What the cloud says about a contact goes over what is there, except where it says
nothing. -/
def Contact.overwrite (contact : Contact) (name note : List Char)
    (tags : List (List Char)) (remoteId : List Char) : Contact :=
  { contact with
    name := if trim name = [] then contact.name else trim name
    note := if trim note = [] then contact.note else trim note
    tags := if tags = [] then contact.tags else tags
    remoteId := remoteId }

def Contact.toggle (contact : Contact) : Contact := { contact with favorite := !contact.favorite }

variable (lower : Lowercase)

def normalizeContactId (id : List Char) : List Char := lower.toLowercase (id.filter idCharacter)

def contactId (contact : Contact) : List Char := normalizeContactId lower contact.remoteId

def recentId (connection : RecentConnection) : List Char :=
  normalizeContactId lower connection.remoteId

def contactKey (contact : Contact) : List Char ×ₗ (List Char ×ₗ List Char) :=
  toLex (lower.toLowercase contact.group, toLex (lower.toLowercase contact.name, contact.remoteId))

def sortContacts (contacts : List Contact) : List Contact :=
  contacts.mergeSort fun left right => decide (contactKey lower left ≤ contactKey lower right)

namespace LauncherStore

variable (store : LauncherStore)

def upsertContactDetailsWithTags (name remoteId group note : List Char)
    (tags : List (List Char)) : Except StoreError LauncherStore := do
  let name := trim name
  let remoteId := normalizeContactId lower remoteId
  let group := trim group
  let note := trim note
  let tags := normalizeContactTags lower.toLowercase tags
  validateContact name remoteId group note
  validateContactTags tags
  let contacts := putEntry (contactId lower) remoteId
    (fun contact =>
      { contact with
        name := name
        remoteId := remoteId
        group := group
        tags := tags
        note := note })
    { name := name
      remoteId := remoteId
      favorite := false
      group := group
      tags := tags
      note := note }
    store.contacts
  return { store with contacts := sortContacts lower contacts }

def removeContact (remoteId : List Char) : LauncherStore × Bool :=
  let remoteId := normalizeContactId lower remoteId
  let contacts := store.contacts.filter fun contact => contactId lower contact ≠ remoteId
  ({ store with contacts := contacts }, decide (contacts.length ≠ store.contacts.length))

def toggleFavorite (remoteId : List Char) : LauncherStore × Option Bool :=
  let remoteId := normalizeContactId lower remoteId
  match lookup (contactId lower) remoteId store.contacts with
  | none => (store, none)
  | some contact =>
      ({ store with
        contacts := updateFirst (contactId lower) remoteId Contact.toggle store.contacts },
        some !contact.favorite)

/-- The turn of one entry, with the number of contacts added so far. -/
def mergeCloudContact : LauncherStore × Nat → CloudContact → LauncherStore × Nat
  | (store, added), cloud =>
      let remoteId := normalizeContactId lower cloud.remoteId
      if remoteId = [] then (store, added)
      else
        let tags := normalizeContactTags lower.toLowercase cloud.tags
        if (lookup (contactId lower) remoteId store.contacts).isSome then
          ({ store with
            contacts := updateFirst (contactId lower) remoteId
              (fun contact => contact.overwrite cloud.name cloud.note tags remoteId)
              store.contacts }, added)
        else
          let fallbackName := if trim cloud.name = [] then remoteId else trim cloud.name
          match store.upsertContactDetailsWithTags lower fallbackName remoteId [] (trim cloud.note)
            tags with
          | .ok store => (store, added + 1)
          | .error _ => (store, added)

def mergeCloudContacts (unixNow : UInt64) (contacts : List CloudContact) : LauncherStore × Nat :=
  let (store, added) := contacts.foldl (mergeCloudContact lower) (store, 0)
  ({ store with
    contacts := sortContacts lower store.contacts
    addressBookLastSyncUnix := unixNow }, added)

def recordRecentWithDirection (unixNow : UInt64) (remoteId : List Char)
    (direction : ConnectionDirection) : LauncherStore :=
  let remoteId := normalizeContactId lower remoteId
  if remoteId = [] then store
  else
    let others := store.recent.filter fun connection => recentId lower connection ≠ remoteId
    let connection : RecentConnection :=
      { remoteId := remoteId
        lastUsedUnix := unixNow
        direction := direction
        durationSeconds := 0
        reconnectCount := 0
        lastEndReason := [] }
    { store with recent := (connection :: others).take maxRecentConnections }

def recordRecent (unixNow : UInt64) (remoteId : List Char) : LauncherStore :=
  store.recordRecentWithDirection lower unixNow remoteId .outgoing

def recordIncoming (unixNow : UInt64) (remoteId : List Char) : LauncherStore :=
  store.recordRecentWithDirection lower unixNow remoteId .incoming

def updateRecentSummary (remoteId : List Char) (durationSeconds : UInt64)
    (reconnectCount : UInt32) (endReason : List Char) : LauncherStore :=
  { store with
    recent := updateFirst (recentId lower) (normalizeContactId lower remoteId) (fun connection =>
      { connection with
        durationSeconds := durationSeconds
        reconnectCount := reconnectCount
        lastEndReason := sanitizeEndReason endReason }) store.recent }

def finishIncoming (remoteId : List Char) (durationSeconds : UInt64) (reason : List Char) :
    LauncherStore :=
  { store with
    recent := updateFirst (recentId lower) (normalizeContactId lower remoteId) (fun connection =>
      { connection with
        direction := .incoming
        durationSeconds := durationSeconds
        reconnectCount := 0
        lastEndReason := sanitizeEndReason reason }) store.recent }

def removeRecent (remoteId : List Char) : LauncherStore × Bool :=
  let remoteId := normalizeContactId lower remoteId
  let recent := store.recent.filter fun connection => recentId lower connection ≠ remoteId
  ({ store with recent := recent }, decide (recent.length ≠ store.recent.length))

def clearRecent : LauncherStore × Bool :=
  if store.recent = [] then (store, false) else ({ store with recent := [] }, true)

end LauncherStore

/-! The store as a machine. -/

inductive StoreCall where
  | upsert (name remoteId group note : List Char) (tags : List (List Char))
  | remove (remoteId : List Char)
  | toggleFavorite (remoteId : List Char)
  | mergeCloud (unixNow : UInt64) (contacts : List CloudContact)
  | recordRecent (unixNow : UInt64) (remoteId : List Char)
  | recordIncoming (unixNow : UInt64) (remoteId : List Char)
  | updateRecentSummary (remoteId : List Char) (durationSeconds : UInt64)
      (reconnectCount : UInt32) (endReason : List Char)
  | finishIncoming (remoteId : List Char) (durationSeconds : UInt64) (reason : List Char)
  | removeRecent (remoteId : List Char)
  | clearRecent

inductive StoreReply where
  | done
  | failed (error : StoreError)
  | changed (changed : Bool)
  | favorite (favorite : Option Bool)
  | added (added : Nat)
deriving DecidableEq, Repr

def storeStep (store : LauncherStore) : StoreCall → LauncherStore × StoreReply
  | .upsert name remoteId group note tags =>
      match store.upsertContactDetailsWithTags lower name remoteId group note tags with
      | .ok store => (store, .done)
      | .error error => (store, .failed error)
  | .remove remoteId => (store.removeContact lower remoteId).map id .changed
  | .toggleFavorite remoteId => (store.toggleFavorite lower remoteId).map id .favorite
  | .mergeCloud unixNow contacts => (store.mergeCloudContacts lower unixNow contacts).map id .added
  | .recordRecent unixNow remoteId => (store.recordRecent lower unixNow remoteId, .done)
  | .recordIncoming unixNow remoteId => (store.recordIncoming lower unixNow remoteId, .done)
  | .updateRecentSummary remoteId durationSeconds reconnectCount endReason =>
      (store.updateRecentSummary lower remoteId durationSeconds reconnectCount endReason, .done)
  | .finishIncoming remoteId durationSeconds reason =>
      (store.finishIncoming lower remoteId durationSeconds reason, .done)
  | .removeRecent remoteId => (store.removeRecent lower remoteId).map id .changed
  | .clearRecent => store.clearRecent.map id .changed

def launcherStore : Machine LauncherStore StoreCall StoreReply where
  step := storeStep lower

end EvertyDesk.Launcher
