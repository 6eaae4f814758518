import EvertyDesk.Launcher.ContactBook
import EvertyDesk.Launcher.ContactTags

/-!
What becomes of each contact when the list of the cloud is merged. The contact with an id
depends on the entries with that id alone: those before the first acceptable one are lost if
the contact is new, and of all others the last that says something about a field counts.
-/

namespace EvertyDesk.Launcher

/-- The contact passes the checks. -/
structure Contact.Valid (contact : Contact) : Prop where
  fields : validateContact contact.name contact.remoteId contact.group contact.note = .ok ()
  tags : validateContactTags contact.tags = .ok ()

instance (contact : Contact) : Decidable contact.Valid :=
  decidable_of_iff (validateContact contact.name contact.remoteId contact.group contact.note =
    .ok () ∧ validateContactTags contact.tags = .ok ()) ⟨fun h => ⟨h.1, h.2⟩, fun h => ⟨h.1, h.2⟩⟩

section Ids

variable (lower : Lowercase)

theorem normalizeContactId_clean (id : List Char) : (normalizeContactId lower id).all idCharacter :=
  lower.keeps _ (List.all_eq_true.mpr fun _ hc => (List.mem_filter.mp hc).2)

@[simp] theorem normalizeContactId_idempotent (id : List Char) :
    normalizeContactId lower (normalizeContactId lower id) = normalizeContactId lower id := by
  have hclean : (normalizeContactId lower id).filter idCharacter = normalizeContactId lower id :=
    List.filter_eq_self.mpr (List.all_eq_true.mp (normalizeContactId_clean lower id))
  rw [normalizeContactId, hclean]
  exact lower.idempotent _

/-- An id has no white space to trim. -/
@[simp] theorem trim_normalizeContactId (id : List Char) :
    trim (normalizeContactId lower id) = normalizeContactId lower id := by
  have hclean : ∀ c ∈ normalizeContactId lower id, isWhitespace c = false := by
    intro c hc
    have hcharacter := List.all_eq_true.mp (normalizeContactId_clean lower id) c hc
    rw [idCharacter, Bool.and_eq_true, Bool.not_eq_true'] at hcharacter
    exact hcharacter.1
  exact trimBy_of_tight ⟨fun c hc => hclean c (List.mem_of_head? hc),
    fun c hc => hclean c (List.mem_of_getLast? hc)⟩

end Ids

variable {lower : Lowercase} {contacts : List Contact}

/-! The order. -/

def ContactsSorted (lower : Lowercase) (contacts : List Contact) : Prop :=
  contacts.Pairwise fun left right => contactKey lower left ≤ contactKey lower right

theorem sortContacts_perm : (sortContacts lower contacts).Perm contacts := List.mergeSort_perm _ _

theorem sortContacts_sorted : ContactsSorted lower (sortContacts lower contacts) := by
  refine (List.pairwise_mergeSort ?_ ?_ contacts).imp fun h => of_decide_eq_true h
  · intro a b c hab hbc
    exact decide_eq_true ((of_decide_eq_true hab).trans (of_decide_eq_true hbc))
  · intro a b
    rw [Bool.or_eq_true, decide_eq_true_eq, decide_eq_true_eq]
    exact le_total _ _

/-! Contacts entered by hand. -/

/-- The contact that is put into the book. -/
def enteredContact (lower : Lowercase) (name remoteId group note : List Char)
    (tags : List (List Char)) : Contact where
  name := trim name
  remoteId := normalizeContactId lower remoteId
  favorite := false
  group := trim group
  tags := normalizeContactTags lower.toLowercase tags
  note := trim note

namespace LauncherStore

variable {store : LauncherStore}

variable (lower) in
/-- A contact that passes the checks is put into the book. -/
theorem upsert_eq (store : LauncherStore) (name remoteId group note : List Char)
    (tags : List (List Char)) :
    let entered := enteredContact lower name remoteId group note tags
    (entered.Valid → store.upsertContactDetailsWithTags lower name remoteId group note tags =
      .ok { store with contacts := sortContacts lower (putEntry (contactId lower) entered.remoteId
        (fun contact => { entered with favorite := contact.favorite }) entered store.contacts) }) ∧
    (¬ entered.Valid → ∃ error,
      store.upsertContactDetailsWithTags lower name remoteId group note tags = .error error) := by
  intro entered
  have hupsert : store.upsertContactDetailsWithTags lower name remoteId group note tags = (do
      validateContact entered.name entered.remoteId entered.group entered.note
      validateContactTags entered.tags
      return { store with contacts := sortContacts lower (putEntry (contactId lower)
        entered.remoteId (fun contact => { entered with favorite := contact.favorite }) entered
        store.contacts) }) := rfl
  rw [hupsert]
  constructor
  · intro hvalid
    rw [hvalid.fields, hvalid.tags]
    rfl
  · intro hinvalid
    cases hfields : validateContact entered.name entered.remoteId entered.group entered.note with
    | error error => exact ⟨error, rfl⟩
    | ok _ =>
        cases htags : validateContactTags entered.tags with
        | error error => exact ⟨error, rfl⟩
        | ok _ => exact absurd ⟨hfields, htags⟩ hinvalid

end LauncherStore

/-! One entry of the cloud. -/

def CloudContact.id (lower : Lowercase) (cloud : CloudContact) : List Char :=
  normalizeContactId lower cloud.remoteId

/-- The contact that an entry becomes where there is none with its id. -/
def CloudContact.newContact (lower : Lowercase) (cloud : CloudContact) : Contact where
  name := if trim cloud.name = [] then cloud.id lower else trim cloud.name
  remoteId := cloud.id lower
  favorite := false
  group := []
  tags := normalizeContactTags lower.toLowercase cloud.tags
  note := trim cloud.note

theorem CloudContact.entered_eq (cloud : CloudContact) :
    enteredContact lower (if trim cloud.name = [] then cloud.id lower else trim cloud.name)
      (cloud.id lower) [] (trim cloud.note)
      (normalizeContactTags lower.toLowercase cloud.tags) = cloud.newContact lower := by
  rw [enteredContact, newContact, trim_trim, normalizeContactTags_idempotent, id,
    normalizeContactId_idempotent]
  congr 1
  split
  · exact trim_normalizeContactId lower _
  · exact trim_trim _

/-- What an entry says is written over the contact with its id. -/
def CloudContact.over (lower : Lowercase) (cloud : CloudContact) (contact : Contact) : Contact :=
  contact.overwrite cloud.name cloud.note (normalizeContactTags lower.toLowercase cloud.tags)
    (cloud.id lower)

/-- The book after the turn of one entry. -/
def mergedBook (lower : Lowercase) (contacts : List Contact) (cloud : CloudContact) :
    List Contact :=
  if cloud.id lower = [] then contacts
  else if (lookup (contactId lower) (cloud.id lower) contacts).isSome then
    updateFirst (contactId lower) (cloud.id lower) (cloud.over lower) contacts
  else if (cloud.newContact lower).Valid then
    sortContacts lower (contacts ++ [cloud.newContact lower])
  else contacts

variable (lower) in
theorem mergeCloudContact_eq (store : LauncherStore) (added : Nat) (cloud : CloudContact) :
    ∃ more, LauncherStore.mergeCloudContact lower (store, added) cloud =
      ({ store with contacts := mergedBook lower store.contacts cloud }, added + more) ∧
      (mergedBook lower store.contacts cloud).length = store.contacts.length + more := by
  rw [LauncherStore.mergeCloudContact, mergedBook]
  dsimp only
  rw [← CloudContact.id]
  split
  next => exact ⟨0, rfl, rfl⟩
  next hid =>
    split
    next => exact ⟨0, rfl, length_updateFirst⟩
    next hnone =>
      obtain ⟨haccepted, hrejected⟩ := store.upsert_eq lower
        (if trim cloud.name = [] then cloud.id lower else trim cloud.name) (cloud.id lower) []
        (trim cloud.note) (normalizeContactTags lower.toLowercase cloud.tags)
      rw [cloud.entered_eq] at haccepted hrejected
      by_cases hvalid : (cloud.newContact lower).Valid
      · have hput : putEntry (contactId lower) (cloud.newContact lower).remoteId
            (fun contact => { cloud.newContact lower with favorite := contact.favorite })
            (cloud.newContact lower) store.contacts =
              store.contacts ++ [cloud.newContact lower] := if_neg hnone
        rw [haccepted hvalid, hput, if_pos hvalid]
        refine ⟨1, rfl, ?_⟩
        rw [sortContacts_perm.length_eq, List.length_append, List.length_singleton]
      · obtain ⟨error, herror⟩ := hrejected hvalid
        rw [herror, if_neg hvalid]
        exact ⟨0, rfl, rfl⟩

variable (lower) in
/-- All entries, and how many contacts they add. -/
theorem mergeCloudContact_foldl (clouds : List CloudContact) (store : LauncherStore) (added : Nat) :
    ∃ more, clouds.foldl (LauncherStore.mergeCloudContact lower) (store, added) =
      ({ store with contacts := clouds.foldl (mergedBook lower) store.contacts }, added + more) ∧
      (clouds.foldl (mergedBook lower) store.contacts).length = store.contacts.length + more := by
  induction clouds generalizing store added with
  | nil => exact ⟨0, rfl, rfl⟩
  | cons cloud clouds ih =>
      obtain ⟨one, hone, hlength⟩ := mergeCloudContact_eq lower store added cloud
      obtain ⟨more, hmore, hlengths⟩ :=
        ih { store with contacts := mergedBook lower store.contacts cloud } (added + one)
      refine ⟨one + more, ?_, ?_⟩
      · rw [List.foldl_cons, hone, hmore, Nat.add_assoc]
        rfl
      · rw [List.foldl_cons, hlengths, hlength, Nat.add_assoc]

/-! The contact with an id. -/

def DistinctIds (lower : Lowercase) (contacts : List Contact) : Prop :=
  (contacts.map (contactId lower)).Nodup

/-- What an entry makes of the contact with its id. -/
def mergedOwn (lower : Lowercase) (own : Option Contact) (cloud : CloudContact) : Option Contact :=
  if cloud.id lower = [] then own
  else
    match own with
    | some contact => some (cloud.over lower contact)
    | none => if (cloud.newContact lower).Valid then some (cloud.newContact lower) else none

theorem mergedOwn_skip {cloud : CloudContact} (h : cloud.id lower = []) (own : Option Contact) :
    mergedOwn lower own cloud = own := if_pos h

theorem mergedOwn_some {cloud : CloudContact} (h : cloud.id lower ≠ []) (contact : Contact) :
    mergedOwn lower (some contact) cloud = some (cloud.over lower contact) := if_neg h

theorem mergedOwn_none {cloud : CloudContact} (h : cloud.id lower ≠ []) :
    mergedOwn lower none cloud =
      if (cloud.newContact lower).Valid then some (cloud.newContact lower) else none := if_neg h

theorem over_id (cloud : CloudContact) (contact : Contact) :
    contactId lower (cloud.over lower contact) = cloud.id lower :=
  normalizeContactId_idempotent lower _

theorem newContact_id (cloud : CloudContact) :
    contactId lower (cloud.newContact lower) = cloud.id lower :=
  normalizeContactId_idempotent lower _

theorem absent_newContact {cloud : CloudContact}
    (h : ¬ (lookup (contactId lower) (cloud.id lower) contacts).isSome) :
    contactId lower (cloud.newContact lower) ∉ contacts.map (contactId lower) := by
  rw [newContact_id]
  exact lookup_eq_none.mp (Option.not_isSome_iff_eq_none.mp h)

theorem mergedBook_distinct (h : DistinctIds lower contacts) (cloud : CloudContact) :
    DistinctIds lower (mergedBook lower contacts cloud) := by
  rw [mergedBook]
  split
  next => exact h
  next =>
    split
    next =>
      rw [DistinctIds, keys_updateFirst fun contact _ => over_id cloud contact]
      exact h
    next hnone =>
      split
      next =>
        exact (sortContacts_perm.map _).nodup_iff.mpr (nodup_concat (absent_newContact hnone) h)
      next => exact h

theorem lookup_mergedBook (h : DistinctIds lower contacts) (cloud : CloudContact) (k : List Char) :
    lookup (contactId lower) k (mergedBook lower contacts cloud) =
      if cloud.id lower = k then mergedOwn lower (lookup (contactId lower) k contacts) cloud
      else lookup (contactId lower) k contacts := by
  rw [mergedBook]
  split
  next hid => rw [mergedOwn_skip hid, ite_self]
  next hid =>
    split
    next hfound =>
      rw [lookup_updateFirst fun contact _ => over_id cloud contact]
      by_cases hsame : cloud.id lower = k
      · subst hsame
        obtain ⟨contact, hcontact⟩ := Option.isSome_iff_exists.mp hfound
        rw [if_pos rfl, if_pos rfl, hcontact, mergedOwn_some hid, Option.map_some]
      · rw [if_neg (Ne.symm hsame), if_neg hsame]
    next hnone =>
      have habsent := Option.not_isSome_iff_eq_none.mp hnone
      split
      next hvalid =>
        have hnew := absent_newContact hnone
        rw [← lookup_perm (nodup_concat hnew h) sortContacts_perm.symm, lookup_concat hnew,
          newContact_id]
        by_cases hsame : cloud.id lower = k
        · subst hsame
          rw [if_pos rfl, if_pos rfl, habsent, mergedOwn_none hid, if_pos hvalid]
        · rw [if_neg (Ne.symm hsame), if_neg hsame]
      next hinvalid =>
        by_cases hsame : cloud.id lower = k
        · subst hsame
          rw [if_pos rfl, habsent, mergedOwn_none hid, if_neg hinvalid]
        · rw [if_neg hsame]

theorem lookup_merged (h : DistinctIds lower contacts) (clouds : List CloudContact)
    (k : List Char) :
    lookup (contactId lower) k (clouds.foldl (mergedBook lower) contacts) =
      (clouds.filter fun cloud => cloud.id lower = k).foldl (mergedOwn lower)
        (lookup (contactId lower) k contacts) :=
  lookup_foldl (fun _ cloud hdistinct => mergedBook_distinct hdistinct cloud)
    (fun _ cloud k hdistinct => lookup_mergedBook hdistinct cloud k) clouds h

theorem merged_distinct (h : DistinctIds lower contacts) (clouds : List CloudContact) :
    DistinctIds lower (clouds.foldl (mergedBook lower) contacts) := by
  induction clouds generalizing contacts with
  | nil => exact h
  | cons cloud clouds ih => exact ih (mergedBook_distinct h cloud)

/-! What is said last. -/

/-- The last of the values that is not empty. -/
def lastSaid {Item : Type} (values : List (List Item)) : Option (List Item) :=
  (values.filter fun value => !value.isEmpty).getLast?

theorem lastSaid_append {Item : Type} (first second : List (List Item)) :
    lastSaid (first ++ second) = (lastSaid second).or (lastSaid first) := by
  rw [lastSaid, List.filter_append, List.getLast?_append, lastSaid, lastSaid]

theorem lastSaid_singleton {Item : Type} (value : List Item) :
    lastSaid [value] = if value = [] then none else some value := by
  cases value with
  | nil => rfl
  | cons item items => rfl

theorem ne_nil_of_lastSaid {Item : Type} {values : List (List Item)} {value : List Item}
    (h : lastSaid values = some value) : value ≠ [] := by
  have hmem := List.mem_of_getLast? h
  simpa using (List.mem_filter.mp hmem).2

def saidName (own : List CloudContact) : Option (List Char) :=
  lastSaid (own.map fun cloud => trim cloud.name)

def saidNote (own : List CloudContact) : Option (List Char) :=
  lastSaid (own.map fun cloud => trim cloud.note)

def saidTags (lower : Lowercase) (own : List CloudContact) : Option (List (List Char)) :=
  lastSaid (own.map fun cloud => normalizeContactTags lower.toLowercase cloud.tags)

/-- A contact that several entries are written over. -/
def overwritten (lower : Lowercase) (own : List CloudContact) (contact : Contact) : Contact :=
  own.foldl (fun contact cloud => cloud.over lower contact) contact

theorem getD_said {Item : Type} (values : List (List Item)) (value old : List Item) :
    (lastSaid (values ++ [value])).getD old =
      if value = [] then (lastSaid values).getD old else value := by
  rw [lastSaid_append, lastSaid_singleton]
  split
  · rfl
  · rfl

/-- What is said last counts, and what was there where nothing is said. -/
theorem overwritten_eq (own : List CloudContact) (contact : Contact) :
    overwritten lower own contact =
      { contact with
        name := (saidName own).getD contact.name
        note := (saidNote own).getD contact.note
        tags := (saidTags lower own).getD contact.tags
        remoteId := ((own.map (CloudContact.id lower)).getLast?).getD contact.remoteId } := by
  induction own using List.reverseRecOn with
  | nil => rfl
  | append_singleton own cloud ih =>
      rw [overwritten, List.foldl_append, List.foldl_cons, List.foldl_nil, ← overwritten, ih,
        CloudContact.over, Contact.overwrite]
      simp only [saidName, saidNote, saidTags, List.map_append, List.map_cons, List.map_nil,
        getD_said, List.getLast?_concat, Option.getD_some]

theorem lastId {own : List CloudContact} {k : List Char}
    (hown : ∀ cloud ∈ own, cloud.id lower = k) :
    ((own.map (CloudContact.id lower)).getLast?).getD k = k := by
  cases hlast : (own.map (CloudContact.id lower)).getLast? with
  | none => rfl
  | some last =>
      obtain ⟨cloud, hcloud, rfl⟩ := List.mem_map.mp (List.mem_of_getLast? hlast)
      exact hown cloud hcloud

/-! A contact that is there, and one that is new. -/

/-- The entries up to the first acceptable one, which are of no use for a new contact. -/
def refused (lower : Lowercase) (own : List CloudContact) : List CloudContact :=
  own.takeWhile fun cloud => !decide (cloud.newContact lower).Valid

def fromAccepted (lower : Lowercase) (own : List CloudContact) : List CloudContact :=
  own.dropWhile fun cloud => !decide (cloud.newContact lower).Valid

theorem refused_append (own : List CloudContact) :
    refused lower own ++ fromAccepted lower own = own := List.takeWhile_append_dropWhile

theorem mergedOwn_known {own : List CloudContact} (hown : ∀ cloud ∈ own, cloud.id lower ≠ [])
    (contact : Contact) :
    own.foldl (mergedOwn lower) (some contact) = some (overwritten lower own contact) := by
  induction own generalizing contact with
  | nil => rfl
  | cons cloud own ih =>
      obtain ⟨hid, hrest⟩ := List.forall_mem_cons.mp hown
      rw [List.foldl_cons, mergedOwn_some hid, ih hrest]
      rfl

theorem mergedOwn_new {own : List CloudContact} (hown : ∀ cloud ∈ own, cloud.id lower ≠ []) :
    own.foldl (mergedOwn lower) none =
      (fromAccepted lower own).head?.map fun cloud =>
        overwritten lower (fromAccepted lower own).tail (cloud.newContact lower) := by
  induction own with
  | nil => rfl
  | cons cloud own ih =>
      obtain ⟨hid, hrest⟩ := List.forall_mem_cons.mp hown
      rw [List.foldl_cons, mergedOwn_none hid]
      split
      next hvalid =>
        rw [mergedOwn_known hrest, fromAccepted, List.dropWhile_cons_of_neg (by simp [hvalid])]
        rfl
      next hinvalid =>
        rw [ih hrest, fromAccepted, fromAccepted, List.dropWhile_cons_of_pos (by simp [hinvalid])]

end EvertyDesk.Launcher
