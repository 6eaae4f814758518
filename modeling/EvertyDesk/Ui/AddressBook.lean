import EvertyDesk.Lib.Checked
import EvertyDesk.Lib.KeyedLists
import EvertyDesk.Lib.Whitespace
import Mathlib.Data.List.Infix

/-!
The address book of the desktop application. The contacts are a list that a
synchronisation replaces by that of the server; an edit first sees to the identifier of
the book and to a token, which may synchronise on the way, then asks the server, and then
changes the list at the position that the contact had before.

The server is known by its answers only: each depends on how many there were before.
-/

namespace EvertyDesk.Ui

inductive UiLang where
  | ru
  | en
deriving DecidableEq, Repr

def tr (lang : UiLang) (ru en : String) : String :=
  match lang with
  | .ru => ru
  | .en => en

structure ContactEntry where
  name : String
  remoteId : String
  note : String
  machineId : String
  os : String
  lastSeen : String
  online : Bool
  tags : List String
deriving DecidableEq, Repr

def normalizeRemoteId (id : String) : List Char :=
  id.toList.filter fun ch => !isWhitespace ch && ch != '-' && ch != '_'

structure AddressBook where
  contacts : List ContactEntry
  guid : String
  signedIn : Bool
  accessToken : String
  /-- The password or token that the user has entered. -/
  credential : String
  status : Option String
  selectedContactIdx : Option Nat
  contactDetailsDraft : Option ContactEntry
  /-- How many answers there were. The code does not keep it. -/
  answers : Nat
  /-- The list that the last synchronisation was answered with. The code does not keep
  it. -/
  listed : Option (List ContactEntry)
deriving DecidableEq, Repr

/-- Before the first synchronisation. -/
def AddressBook.afresh (s : AddressBook) : AddressBook := { s with listed := none }

def AddressBook.drafted (contact : ContactEntry) (s : AddressBook) : AddressBook :=
  { s with contactDetailsDraft := some contact }

/-- The answers of the server. -/
structure AddressBookServer where
  login : Nat → Except String String
  personalAbGuid : String → Nat → Except String String
  peers : String → String → Nat → Except String (List ContactEntry)
  updatePeer : String → String → ContactEntry → Nat → Except String Unit
  deletePeer : String → String → String → Nat → Except String Unit

abbrev BookProc := Proc AddressBook String

def modify (change : AddressBook → AddressBook) : BookProc Unit := fun s =>
  .ok (.ok (), change s)

/-- One answer of the server. -/
def ask {Answer : Type} (answer : Nat → Except String Answer) : BookProc Answer := fun s =>
  .ok (answer s.answers, { s with answers := s.answers + 1 })

/-- What a program fails with is a result like any other. -/
def attempt {Result : Type} (program : BookProc Result) : BookProc (Except String Result) :=
  fun s =>
    match program s with
    | .error panic => .error panic
    | .ok (outcome, t) => .ok (.ok outcome, t)

def unauthorized (err : String) : Bool :=
  decide ("401".toList <:+: err.toList) || decide ("403".toList <:+: err.toList)

section

variable (server : AddressBookServer) (lang : UiLang)

def ensureAddressBookToken : BookProc String := do
  let s ← Proc.get
  if s.signedIn ∧ trim s.accessToken.toList ≠ [] then return s.accessToken
  else if trim s.credential.toList = [] then
    Proc.fail (tr lang "Укажите пароль или токен" "Enter password or token")
  else do
    let token ← ask server.login
    modify fun s => { s with accessToken := token, signedIn := true }
    return token

def signOut : BookProc Unit := modify fun s => { s with signedIn := false, accessToken := "" }

/-- The tags are kept for the contacts that are there already. -/
def mergeTags (existing contacts : List ContactEntry) : List ContactEntry :=
  contacts.map fun entry =>
    match existing.find? fun c => normalizeRemoteId c.remoteId = normalizeRemoteId entry.remoteId
      with
    | some c => { entry with tags := c.tags }
    | none => entry

/-- What is tried when the server does not accept the token any more. -/
def signInAgain : BookProc (String × String) := do
  signOut
  let token ← ensureAddressBookToken server lang
  let guid ← ask (server.personalAbGuid token)
  return (token, guid)

def fetchGuid (token : String) : BookProc (String × String) := do
  match ← attempt (ask (server.personalAbGuid token)) with
  | .ok guid => return (token, guid)
  | .error err => if unauthorized err then signInAgain server lang else Proc.fail err

def fetchContacts (token guid : String) : BookProc (String × List ContactEntry) := do
  match ← attempt (ask (server.peers token guid)) with
  | .ok contacts => return (guid, contacts)
  | .error err =>
      if unauthorized err then do
        let (token, guid) ← signInAgain server lang
        let contacts ← ask (server.peers token guid)
        return (guid, contacts)
      else Proc.fail err

def syncAddressBook : BookProc Unit := do
  let token ← ensureAddressBookToken server lang
  let (token, guid) ← fetchGuid server lang token
  let (guid, contacts) ← fetchContacts server lang token guid
  modify fun s => { s with
    guid := guid
    contacts := mergeTags s.contacts contacts
    signedIn := true
    listed := some contacts }

def ensureAddressBookGuid : BookProc String := do
  let s ← Proc.get
  if trim s.guid.toList = [] then do
    syncAddressBook server lang
    let s ← Proc.get
    return s.guid
  else return s.guid

def updateAddressBookContact (contact : ContactEntry) : BookProc Unit := do
  let guid ← ensureAddressBookGuid server lang
  let token ← ensureAddressBookToken server lang
  ask (server.updatePeer token guid contact)

def deleteAddressBookContact (remoteId : String) : BookProc Unit := do
  let guid ← ensureAddressBookGuid server lang
  let token ← ensureAddressBookToken server lang
  ask (server.deletePeer token guid remoteId)

/-- `Vec::remove`, which panics where there is no such entry. -/
def removeAt (contacts : List ContactEntry) (idx : Nat) : Checked (List ContactEntry) :=
  if idx < contacts.length then .ok (contacts.eraseIdx idx) else .error .outOfBounds

/-- What the removal button on a tile does with the answer. -/
def tileAnswered (removeIdx : Nat) : Except String Unit → BookProc Unit
  | .error err => modify fun s => { s with status := some err }
  | .ok () => do
      let s ← Proc.get
      let contacts ← (liftM (removeAt s.contacts removeIdx) : BookProc _)
      modify fun s => { s with
        contacts := contacts
        status := some (tr lang "Контакт удален" "Contact removed")
        selectedContactIdx :=
          if s.selectedContactIdx = some removeIdx then none else s.selectedContactIdx
        contactDetailsDraft :=
          if s.selectedContactIdx = some removeIdx then none else s.contactDetailsDraft }

/-- The removal button on a tile of the contact grid. -/
def contactsUiCompact (removeIdx : Nat) : BookProc Unit := do
  let s ← Proc.get
  match s.contacts[removeIdx]? with
  | none => return ()
  | some contact =>
      let answer ← attempt (deleteAddressBookContact server lang contact.remoteId)
      tileAnswered lang removeIdx answer

/-- The contact in the details window: the draft, if it is one of the selected contact. -/
def AddressBook.details (s : AddressBook) (idx : Nat) : Option ContactEntry :=
  match s.contacts[idx]? with
  | none => none
  | some source =>
      match s.contactDetailsDraft with
      | some draft => if draft.remoteId = source.remoteId then some draft else some source
      | none => some source

inductive DetailsButton where
  | save
  | remove
deriving DecidableEq, Repr

def closeDetails : BookProc Unit :=
  modify fun s => { s with selectedContactIdx := none, contactDetailsDraft := none }

def saveAnswered (idx : Nat) (contact : ContactEntry) : Except String Unit → BookProc Unit
  | .error err => modify fun s => { s with status := some err }
  | .ok () => modify fun s => { s with
      contacts := if idx < s.contacts.length then s.contacts.set idx contact else s.contacts
      status := some (tr lang "Контакт сохранен" "Contact saved") }

def removeAnswered (idx : Nat) (remoteId : String) : Except String Unit → BookProc Unit
  | .error err => modify fun s => { s with status := some err }
  | .ok () => modify fun s => { s with
      contacts :=
        if (s.contacts.map (·.remoteId))[idx]? = some remoteId then s.contacts.eraseIdx idx
        else withoutKey (·.remoteId) remoteId s.contacts
      status := some (tr lang "Контакт удален" "Contact removed") }

/-- A button of the details window of this contact. -/
def detailsButton (idx : Nat) (contact : ContactEntry) : DetailsButton → BookProc Unit
  | .save => do
      let answer ← attempt (updateAddressBookContact server lang contact)
      saveAnswered lang idx contact answer
  | .remove => do
      let answer ← attempt (deleteAddressBookContact server lang contact.remoteId)
      removeAnswered lang idx contact.remoteId answer
      closeDetails

def contactDetailsWindow (button : DetailsButton) : BookProc Unit := do
  let s ← Proc.get
  match s.selectedContactIdx with
  | none => return ()
  | some idx =>
      match s.details idx with
      | none => closeDetails
      | some contact => do
          modify (AddressBook.drafted contact)
          detailsButton server lang idx contact button

/-! What an edit is for, and what it asks of the server. -/

inductive BookEdit where
  | removeTile (idx : Nat)
  | removeSelected
  | saveSelected
deriving DecidableEq, Repr

/-- The contact that the user has chosen, and where it is. -/
def BookEdit.chosen (s : AddressBook) : BookEdit → Option (Nat × ContactEntry)
  | .removeTile idx => (s.contacts[idx]?).map (idx, ·)
  | .removeSelected | .saveSelected =>
      s.selectedContactIdx.bind fun idx => (s.details idx).map (idx, ·)

def BookEdit.run : BookEdit → BookProc Unit
  | .removeTile idx => contactsUiCompact server lang idx
  | .removeSelected => contactDetailsWindow server lang .remove
  | .saveSelected => contactDetailsWindow server lang .save

def BookEdit.request (contact : ContactEntry) : BookEdit → BookProc Unit
  | .removeTile _ | .removeSelected => deleteAddressBookContact server lang contact.remoteId
  | .saveSelected => updateAddressBookContact server lang contact

/-- The state in which the server is asked. -/
def BookEdit.opened (contact : ContactEntry) (s : AddressBook) : BookEdit → AddressBook
  | .removeTile _ => s.afresh
  | .removeSelected | .saveSelected => s.afresh.drafted contact

/-- The contacts after a synchronisation with this answer, if there was one. -/
def synchronised (existing : List ContactEntry) : Option (List ContactEntry) → List ContactEntry
  | none => existing
  | some contacts => mergeTags existing contacts

/-- The edit of the right contact, and of no other. -/
def BookEdit.Right (contact : ContactEntry) (contacts result : List ContactEntry) : BookEdit → Prop
  | .removeTile _ | .removeSelected =>
      result = withoutKey (·.remoteId) contact.remoteId contacts
  | .saveSelected => Replaces (·.remoteId) contact contacts result

/-- Nothing panics, and the edit does what the user has chosen to the contacts that the
last synchronisation left. -/
def EditsRight (s : AddressBook) (edit : BookEdit) : Prop :=
  ∀ idx contact, edit.chosen s = some (idx, contact) →
    ∃ outcome synced t,
      edit.request server lang contact (edit.opened contact s) = .ok (outcome, synced) ∧
      edit.run server lang s.afresh = .ok (.ok (), t) ∧
      match outcome with
      | .ok () => edit.Right contact (synchronised s.contacts synced.listed) t.contacts
      | .error _ => t.contacts = synchronised s.contacts synced.listed

/-- The position goes for the contact in these contacts too. -/
def BookEdit.IndexHolds (idx : Nat) (contact : ContactEntry) (contacts : List ContactEntry) :
    BookEdit → Prop
  | .removeTile _ =>
      (contacts.map (·.remoteId))[idx]? = some contact.remoteId ∧
        (contacts.map (·.remoteId)).count contact.remoteId = 1
  | .removeSelected =>
      (contacts.map (·.remoteId))[idx]? = some contact.remoteId →
        (contacts.map (·.remoteId)).count contact.remoteId = 1
  | .saveSelected =>
      (contacts.map (·.remoteId))[idx]? = some contact.remoteId ∨
        contacts.length ≤ idx ∧ (contact.remoteId ∉ contacts.map (·.remoteId) ∨ contact ∈ contacts)

end

/-! Programs that leave the contacts alone. -/

/-- The same contacts, and no answer to a synchronisation in between. -/
def Same (s t : AddressBook) : Prop := t.contacts = s.contacts ∧ t.listed = s.listed

theorem Same.refl (s : AddressBook) : Same s s := ⟨rfl, rfl⟩

theorem Same.trans {s t u : AddressBook} (h : Same s t) (hnext : Same t u) : Same s u :=
  ⟨hnext.1.trans h.1, hnext.2.trans h.2⟩

def Leaves {Result : Type} (program : BookProc Result) : Prop :=
  ∀ s, program.Yields s (fun _ => Same s) (Same s)

section

variable {Result Next Answer : Type} {program : BookProc Result} {next : Result → BookProc Next}

theorem leaves_pure (result : Result) : Leaves (pure result : BookProc Result) :=
  fun s => Proc.yields_pure (Same.refl s)

theorem leaves_fail (err : String) : Leaves (Proc.fail err : BookProc Result) :=
  fun s => Proc.yields_fail (Same.refl s)

theorem leaves_get : Leaves Proc.get := fun s => Proc.Yields.of_run rfl (Same.refl s)

theorem leaves_modify {change : AddressBook → AddressBook} (h : ∀ s, Same s (change s)) :
    Leaves (modify change) := fun s => Proc.Yields.of_run rfl (h s)

theorem leaves_ask (answer : Nat → Except String Answer) : Leaves (ask answer) := by
  intro s
  refine Proc.Yields.of_run rfl ?_
  cases answer s.answers <;> exact ⟨rfl, rfl⟩

theorem Leaves.attempt (h : Leaves program) : Leaves (attempt program) := by
  intro s
  obtain ⟨outcome, t, hrun, houtcome⟩ := h s
  refine ⟨.ok outcome, t, ?_, ?_⟩
  · rw [Ui.attempt, hrun]
  · cases outcome <;> exact houtcome

theorem Leaves.bind (h : Leaves program) (hnext : ∀ result, Leaves (next result)) :
    Leaves (program >>= next) := by
  intro s
  obtain ⟨outcome, t, hrun, houtcome⟩ := h s
  cases outcome with
  | error err => exact ⟨_, _, Proc.bind_fails hrun, houtcome⟩
  | ok result =>
      have hlater := (hnext result t).mono (fun _ _ => houtcome.trans) fun _ => houtcome.trans
      obtain ⟨outcome, u, hlast, hkept⟩ := hlater
      exact ⟨_, _, (Proc.bind_returns hrun).trans hlast, hkept⟩

end

/-! The requests: no step of theirs panics, and they change the contacts only by a
synchronisation. -/

section

variable (server : AddressBookServer) (lang : UiLang)

theorem leaves_signOut : Leaves signOut := leaves_modify fun _ => ⟨rfl, rfl⟩

theorem leaves_ensureAddressBookToken : Leaves (ensureAddressBookToken server lang) := by
  refine leaves_get.bind fun s => ?_
  split
  · exact leaves_pure _
  · split
    · exact leaves_fail _
    · refine (leaves_ask server.login).bind fun token => ?_
      refine Leaves.bind (leaves_modify fun _ => ?_) fun _ => leaves_pure _
      exact ⟨rfl, rfl⟩

theorem leaves_signInAgain : Leaves (signInAgain server lang) := by
  refine leaves_signOut.bind fun _ => ?_
  refine (leaves_ensureAddressBookToken server lang).bind fun token => ?_
  exact (leaves_ask _).bind fun guid => leaves_pure _

theorem leaves_fetchGuid (token : String) : Leaves (fetchGuid server lang token) := by
  refine (leaves_ask (server.personalAbGuid token)).attempt.bind fun outcome => ?_
  cases outcome with
  | ok guid => exact leaves_pure _
  | error err =>
      dsimp only
      split
      · exact leaves_signInAgain server lang
      · exact leaves_fail _

theorem leaves_fetchContacts (token guid : String) :
    Leaves (fetchContacts server lang token guid) := by
  refine (leaves_ask (server.peers token guid)).attempt.bind fun outcome => ?_
  cases outcome with
  | ok contacts => exact leaves_pure _
  | error err =>
      dsimp only
      split
      · refine (leaves_signInAgain server lang).bind fun (token, guid) => ?_
        exact (leaves_ask _).bind fun contacts => leaves_pure _
      · exact leaves_fail _

/-- The contacts are those that the last synchronisation left. -/
def Follows (s t : AddressBook) : Prop := t.contacts = synchronised s.contacts t.listed

theorem Same.follows {s t : AddressBook} (hfresh : s.listed = none) (h : Same s t) :
    Follows s t := by
  rw [Follows, h.2, hfresh]
  exact h.1

theorem Follows.trans {s t u : AddressBook} (h : Follows s t) (hnext : Same t u) : Follows s u := by
  rw [Follows, hnext.1, hnext.2]
  exact h

variable {s : AddressBook}

theorem syncAddressBook_follows (hfresh : s.listed = none) :
    (syncAddressBook server lang).Yields s (fun _ => Follows s) (Follows s) := by
  have hsame : ∀ {Result : Type} {program : BookProc Result} {t}, Leaves program → Same s t →
      program.Yields t (fun _ => Same s) (Follows s) := by
    intro Result program t hprogram ht
    exact (hprogram t).mono (fun _ _ => ht.trans) fun _ hu => (ht.trans hu).follows hfresh
  refine (hsame (leaves_ensureAddressBookToken server lang) (Same.refl s)).bind fun token t ht => ?_
  refine (hsame (leaves_fetchGuid server lang token) ht).bind fun (token, guid) t ht => ?_
  refine (hsame (leaves_fetchContacts server lang token guid) ht).bind
    fun (guid, contacts) t ht => ?_
  refine Proc.Yields.of_run rfl ?_
  change mergeTags t.contacts contacts = synchronised s.contacts (some contacts)
  rw [ht.1, synchronised]

theorem ensureAddressBookGuid_follows (hfresh : s.listed = none) :
    (ensureAddressBookGuid server lang).Yields s (fun _ => Follows s) (Follows s) := by
  rw [Proc.Yields, ensureAddressBookGuid, Proc.get_bind]
  split
  · refine (syncAddressBook_follows server lang hfresh).bind fun _ t ht => ?_
    exact Proc.Yields.of_run rfl ht
  · exact Proc.yields_pure ((Same.refl s).follows hfresh)

theorem request_follows (edit : BookEdit) (contact : ContactEntry) (hfresh : s.listed = none) :
    (edit.request server lang contact).Yields s (fun _ => Follows s) (Follows s) := by
  have hask : ∀ {answer : String → String → Nat → Except String Unit},
      (do
        let guid ← ensureAddressBookGuid server lang
        let token ← ensureAddressBookToken server lang
        ask (answer token guid) : BookProc Unit).Yields s (fun _ => Follows s) (Follows s) := by
    intro answer
    refine (ensureAddressBookGuid_follows server lang hfresh).bind fun guid t ht => ?_
    have hlast : Leaves (ensureAddressBookToken server lang >>= fun token =>
        ask (answer token guid)) :=
      (leaves_ensureAddressBookToken server lang).bind fun token => leaves_ask _
    exact (hlast t).mono (fun _ _ => ht.trans) fun _ => ht.trans
  cases edit <;> exact hask

theorem opened_listed (edit : BookEdit) (contact : ContactEntry) (s : AddressBook) :
    (edit.opened contact s).listed = none := by
  cases edit <;> rfl

theorem opened_contacts (edit : BookEdit) (contact : ContactEntry) (s : AddressBook) :
    (edit.opened contact s).contacts = s.contacts := by
  cases edit <;> rfl

/-- Every request is answered, and the contacts are then those of the last
synchronisation. -/
theorem request_answered (edit : BookEdit) (contact : ContactEntry) (s : AddressBook) :
    ∃ outcome synced,
      edit.request server lang contact (edit.opened contact s) = .ok (outcome, synced) ∧
      synced.contacts = synchronised s.contacts synced.listed := by
  obtain ⟨outcome, synced, hrun, houtcome⟩ :=
    request_follows server lang edit contact (opened_listed edit contact s)
  refine ⟨outcome, synced, hrun, ?_⟩
  rw [← opened_contacts edit contact s]
  cases outcome <;> exact houtcome

/-! The edits, whose request is answered like this. -/

section

variable {server : AddressBookServer} {lang : UiLang} {s synced : AddressBook} {idx : Nat}
  {contact : ContactEntry} {outcome : Except String Unit}

theorem attempt_bind {Result Next : Type} {program : BookProc Result}
    {outcome : Except String Result} {next : Except String Result → BookProc Next}
    (h : program s = .ok (outcome, synced)) :
    (attempt program >>= next) s = next outcome synced := by
  refine Proc.bind_returns ?_
  rw [attempt, h]

theorem contactsUiCompact_run (hthere : s.contacts[idx]? = some contact)
    (hrequest : deleteAddressBookContact server lang contact.remoteId s.afresh =
      .ok (outcome, synced)) :
    contactsUiCompact server lang idx s.afresh = tileAnswered lang idx outcome synced := by
  have hafresh : s.afresh.contacts[idx]? = some contact := hthere
  rw [contactsUiCompact, Proc.get_bind]
  simp only [hafresh]
  exact attempt_bind hrequest

theorem tileAnswered_error (err : String) :
    ∃ t, tileAnswered lang idx (.error err) synced = .ok (.ok (), t) ∧
      t.contacts = synced.contacts := ⟨_, rfl, rfl⟩

theorem contacts_returned_iff {t : AddressBook} {P : List ContactEntry → Prop} :
    (∃ u, (.ok (.ok (), t) : Checked (Except String Unit × AddressBook)) = .ok (.ok (), u) ∧
      P u.contacts) ↔ P t.contacts := by
  constructor
  · rintro ⟨u, hreturns, hP⟩
    obtain rfl := (Prod.mk.inj (Except.ok.inj hreturns)).2
    exact hP
  · exact fun hP => ⟨t, rfl, hP⟩

/-- The position is looked up in the contacts that the request left. -/
theorem tileAnswered_ok_iff {P : List ContactEntry → Prop} :
    (∃ t, tileAnswered lang idx (.ok ()) synced = .ok (.ok (), t) ∧ P t.contacts) ↔
      idx < synced.contacts.length ∧ P (synced.contacts.eraseIdx idx) := by
  rw [tileAnswered, Proc.get_bind]
  by_cases hlt : idx < synced.contacts.length
  · have hremove : removeAt synced.contacts idx = .ok (synced.contacts.eraseIdx idx) := if_pos hlt
    rw [Proc.lift_bind hremove, and_iff_right hlt]
    exact contacts_returned_iff
  · have hremove : removeAt synced.contacts idx = .error .outOfBounds := if_neg hlt
    rw [Proc.lift_panics hremove]
    constructor
    · rintro ⟨t, hpanic, -⟩
      cases hpanic
    · rintro ⟨hlt', -⟩
      exact absurd hlt' hlt

section Selected

variable (hselected : s.selectedContactIdx = some idx) (hdetails : s.details idx = some contact)

include hselected hdetails

theorem contactDetailsWindow_run (button : DetailsButton) :
    contactDetailsWindow server lang button s.afresh =
      detailsButton server lang idx contact button (s.afresh.drafted contact) := by
  have hselected' : s.afresh.selectedContactIdx = some idx := hselected
  have hdetails' : s.afresh.details idx = some contact := hdetails
  rw [contactDetailsWindow, Proc.get_bind]
  simp only [hselected', hdetails']
  exact Proc.bind_returns rfl

theorem saveSelected_run
    (hrequest : updateAddressBookContact server lang contact (s.afresh.drafted contact) =
      .ok (outcome, synced)) :
    contactDetailsWindow server lang .save s.afresh =
      saveAnswered lang idx contact outcome synced := by
  rw [contactDetailsWindow_run hselected hdetails, detailsButton]
  exact attempt_bind hrequest

theorem removeSelected_run
    (hrequest : deleteAddressBookContact server lang contact.remoteId
      (s.afresh.drafted contact) = .ok (outcome, synced)) :
    contactDetailsWindow server lang .remove s.afresh =
      (removeAnswered lang idx contact.remoteId outcome >>= fun _ => closeDetails) synced := by
  rw [contactDetailsWindow_run hselected hdetails, detailsButton]
  exact attempt_bind hrequest

end Selected

theorem chosen_removeTile {removeIdx : Nat} :
    (BookEdit.removeTile removeIdx).chosen s = some (idx, contact) ↔
      removeIdx = idx ∧ s.contacts[idx]? = some contact := by
  rw [BookEdit.chosen, Option.map_eq_some_iff]
  constructor
  · rintro ⟨found, hfound, heq⟩
    obtain ⟨rfl, rfl⟩ := Prod.mk.inj heq
    exact ⟨rfl, hfound⟩
  · rintro ⟨rfl, hfound⟩
    exact ⟨contact, hfound, rfl⟩

theorem chosen_selected :
    (s.selectedContactIdx.bind fun idx => (s.details idx).map (idx, ·)) = some (idx, contact) ↔
      s.selectedContactIdx = some idx ∧ s.details idx = some contact := by
  simp only [Option.bind_eq_some_iff, Option.map_eq_some_iff, Prod.mk.injEq]
  constructor
  · rintro ⟨_, hselected, _, hdetails, rfl, rfl⟩
    exact ⟨hselected, hdetails⟩
  · rintro ⟨hselected, hdetails⟩
    exact ⟨idx, hselected, contact, hdetails, rfl, rfl⟩

/-- What the edit of this state comes to, when its request was answered so. -/
def Comes (server : AddressBookServer) (lang : UiLang) (s synced : AddressBook)
    (contact : ContactEntry) (outcome : Except String Unit) (edit : BookEdit) : Prop :=
  ∃ t, edit.run server lang s.afresh = .ok (.ok (), t) ∧
    match outcome with
    | .ok () => edit.Right contact synced.contacts t.contacts
    | .error _ => t.contacts = synced.contacts

theorem removeTile_comes_iff (hthere : s.contacts[idx]? = some contact)
    (hrequest : deleteAddressBookContact server lang contact.remoteId s.afresh =
      .ok (outcome, synced)) :
    Comes server lang s synced contact outcome (.removeTile idx) ↔
      (outcome = .ok () → (BookEdit.removeTile idx).IndexHolds idx contact synced.contacts) := by
  rw [Comes, BookEdit.run, contactsUiCompact_run hthere hrequest]
  cases outcome with
  | error err => exact iff_of_true (tileAnswered_error err) fun hok => by cases hok
  | ok _ =>
      rw [forall_prop_of_true rfl, BookEdit.IndexHolds, ← eraseIdx_eq_withoutKey_iff]
      exact tileAnswered_ok_iff
        (P := (· = withoutKey (·.remoteId) contact.remoteId synced.contacts))

theorem removeSelected_comes_iff (hselected : s.selectedContactIdx = some idx)
    (hdetails : s.details idx = some contact)
    (hrequest : deleteAddressBookContact server lang contact.remoteId
      (s.afresh.drafted contact) = .ok (outcome, synced)) :
    Comes server lang s synced contact outcome .removeSelected ↔
      (outcome = .ok () → BookEdit.removeSelected.IndexHolds idx contact synced.contacts) := by
  rw [Comes, BookEdit.run, removeSelected_run hselected hdetails hrequest]
  cases outcome with
  | error err => exact iff_of_true ⟨_, rfl, rfl⟩ fun hok => by cases hok
  | ok _ =>
      rw [forall_prop_of_true rfl, BookEdit.IndexHolds]
      refine (contacts_returned_iff
        (P := (· = withoutKey (·.remoteId) contact.remoteId synced.contacts))).trans ?_
      dsimp only
      split
      · rename_i hthere
        have hlt := (List.getElem?_eq_some_iff.mp hthere).1
        rw [List.length_map] at hlt
        rw [forall_prop_of_true hthere]
        have herase := @eraseIdx_eq_withoutKey_iff _ _ _ (·.remoteId) synced.contacts
          contact.remoteId idx
        rw [and_iff_right hlt, and_iff_right hthere] at herase
        exact herase
      · rename_i hother
        exact iff_of_true rfl fun hthere => absurd hthere hother

theorem saveSelected_comes_iff (hselected : s.selectedContactIdx = some idx)
    (hdetails : s.details idx = some contact)
    (hrequest : updateAddressBookContact server lang contact (s.afresh.drafted contact) =
      .ok (outcome, synced)) :
    Comes server lang s synced contact outcome .saveSelected ↔
      (outcome = .ok () → BookEdit.saveSelected.IndexHolds idx contact synced.contacts) := by
  rw [Comes, BookEdit.run, saveSelected_run hselected hdetails hrequest]
  cases outcome with
  | error err => exact iff_of_true ⟨_, rfl, rfl⟩ fun hok => by cases hok
  | ok _ =>
      have hset : (if idx < synced.contacts.length then synced.contacts.set idx contact
          else synced.contacts) = synced.contacts.set idx contact := by
        split
        · rfl
        · rename_i hge
          exact (List.set_eq_of_length_le (Nat.not_lt.mp hge)).symm
      rw [forall_prop_of_true rfl, BookEdit.IndexHolds, ← replaces_set_iff, ← hset]
      exact contacts_returned_iff (P := Replaces (·.remoteId) contact synced.contacts)

theorem comes_iff {edit : BookEdit} (hchosen : edit.chosen s = some (idx, contact))
    (hrequest : edit.request server lang contact (edit.opened contact s) = .ok (outcome, synced)) :
    Comes server lang s synced contact outcome edit ↔
      (outcome = .ok () → edit.IndexHolds idx contact synced.contacts) := by
  cases edit with
  | removeTile removeIdx =>
      obtain ⟨rfl, hthere⟩ := chosen_removeTile.mp hchosen
      exact removeTile_comes_iff hthere hrequest
  | removeSelected =>
      obtain ⟨hselected, hdetails⟩ := chosen_selected.mp hchosen
      exact removeSelected_comes_iff hselected hdetails hrequest
  | saveSelected =>
      obtain ⟨hselected, hdetails⟩ := chosen_selected.mp hchosen
      exact saveSelected_comes_iff hselected hdetails hrequest

end

/-- An edit goes to the right contact exactly when its position goes for the contact in the
list that the synchronisation on the way was answered with, or in the list of before, where
there was none. -/
theorem editsRight_iff (server : AddressBookServer) (lang : UiLang) (s : AddressBook)
    (edit : BookEdit) :
    EditsRight server lang s edit ↔
      ∀ idx contact synced, edit.chosen s = some (idx, contact) →
        edit.request server lang contact (edit.opened contact s) = .ok (.ok (), synced) →
        edit.IndexHolds idx contact (synchronised s.contacts synced.listed) := by
  constructor
  · intro hright idx contact synced hchosen hrequest
    obtain ⟨outcome, synced', t, hrequest', hrun, hedited⟩ := hright idx contact hchosen
    obtain ⟨rfl, rfl⟩ := Prod.mk.inj (Except.ok.inj (hrequest.symm.trans hrequest'))
    obtain ⟨_, _, hrequest', hfollows⟩ := request_answered server lang edit contact s
    obtain ⟨-, rfl⟩ := Prod.mk.inj (Except.ok.inj (hrequest.symm.trans hrequest'))
    rw [← hfollows] at hedited ⊢
    exact (comes_iff hchosen hrequest).mp ⟨t, hrun, hedited⟩ rfl
  · intro hindex idx contact hchosen
    obtain ⟨outcome, synced, hrequest, hfollows⟩ := request_answered server lang edit contact s
    have hholds : outcome = .ok () → edit.IndexHolds idx contact synced.contacts := by
      rintro rfl
      rw [hfollows]
      exact hindex idx contact synced hchosen hrequest
    obtain ⟨t, hrun, hedited⟩ := (comes_iff hchosen hrequest).mpr hholds
    rw [hfollows] at hedited
    exact ⟨outcome, synced, t, hrequest, hrun, hedited⟩

end

def entryOf (remoteId : String) : ContactEntry where
  name := ""
  remoteId := remoteId
  note := ""
  machineId := ""
  os := ""
  lastSeen := ""
  online := false
  tags := []

/-- A book with two contacts after signing out. -/
def signedOutBook : AddressBook where
  contacts := [entryOf "1", entryOf "2"]
  guid := ""
  signedIn := false
  accessToken := ""
  credential := "secret"
  status := none
  selectedContactIdx := none
  contactDetailsDraft := none
  answers := 0
  listed := none

/-- A server that has the contacts in another order and does what it is asked. -/
def otherOrder : AddressBookServer where
  login _ := .ok "token"
  personalAbGuid _ _ := .ok "book"
  peers _ _ _ := .ok [entryOf "2", entryOf "1"]
  updatePeer _ _ _ _ := .ok ()
  deletePeer _ _ _ _ := .ok ()

/-- The book after the synchronisation on the way. -/
def signedInAgain : AddressBook where
  contacts := [entryOf "2", entryOf "1"]
  guid := "book"
  signedIn := true
  accessToken := "token"
  credential := "secret"
  status := none
  selectedContactIdx := none
  contactDetailsDraft := none
  answers := 4
  listed := some [entryOf "2", entryOf "1"]

/-- The removal of the first contact takes the other one out of the list, which is first
since the synchronisation. -/
theorem other_tile_removed : ¬ EditsRight otherOrder .en signedOutBook (.removeTile 0) := by
  intro hright
  obtain ⟨outcome, synced, t, hrequest, hrun, hedited⟩ := hright 0 (entryOf "1") rfl
  have hanswer : (BookEdit.removeTile 0).request otherOrder .en (entryOf "1")
      ((BookEdit.removeTile 0).opened (entryOf "1") signedOutBook) =
      .ok (.ok (), signedInAgain) := by decide +kernel
  have hremoved : (BookEdit.removeTile 0).run otherOrder .en signedOutBook.afresh =
      .ok (.ok (), { signedInAgain with
        contacts := [entryOf "1"]
        status := some "Contact removed" }) := by decide +kernel
  obtain ⟨rfl, rfl⟩ := Prod.mk.inj (Except.ok.inj (hanswer.symm.trans hrequest))
  obtain ⟨-, rfl⟩ := Prod.mk.inj (Except.ok.inj (hremoved.symm.trans hrun))
  revert hedited
  change ¬ _ = withoutKey (·.remoteId) "1" (mergeTags _ _)
  decide +kernel

end EvertyDesk.Ui
