import EvertyDesk.Launcher.CloudMerge
import EvertyDesk.Lib.Utf8

/-!
What holds of the contacts and the recent connections after any sequence of calls: exactly
as long as the cloud says nothing last about a contact that a contact must not be.
-/

namespace EvertyDesk.Launcher

/-! The checks one by one. -/

structure NameFits (name : List Char) : Prop where
  nonempty : name ≠ []
  short : name.length ≤ 80

structure NoteFits (note : List Char) : Prop where
  short : note.length ≤ 300
  printable : note.any isControl = false

theorem validateContact_ok {name remoteId group note : List Char} :
    validateContact name remoteId group note = .ok () ↔
      NameFits name ∧ NoteFits note ∧ remoteId ≠ [] ∧ (utf8 remoteId).length ≤ 128 ∧
        remoteId.any isControl = false ∧ group.length ≤ 60 ∧ group.any isControl = false := by
  constructor
  · intro h
    rw [validateContact] at h
    split_ifs at h with hname hid hnameLength hidLength hidControl hgroup hnote hcontrol
    rw [List.any_append, Bool.or_eq_true, not_or, Bool.not_eq_true, Bool.not_eq_true] at hcontrol
    exact ⟨⟨hname, not_lt.mp hnameLength⟩, ⟨not_lt.mp hnote, hcontrol.2⟩, hid,
      not_lt.mp hidLength, Bool.not_eq_true _ ▸ hidControl, not_lt.mp hgroup, hcontrol.1⟩
  · rintro ⟨hname, hnote, hid, hidLength, hidControl, hgroup, hgroupControl⟩
    rw [validateContact, if_neg hname.nonempty, if_neg hid, if_neg hname.short.not_gt,
      if_neg hidLength.not_gt, if_neg (by simp [hidControl]), if_neg hgroup.not_gt,
      if_neg hnote.short.not_gt, if_neg (by simp [hgroupControl, hnote.printable])]

variable {lower : Lowercase}

/-! Entries that are written over a contact. -/

/-- What these entries say last may stand in a contact. -/
structure SaidFits (lower : Lowercase) (own : List CloudContact) : Prop where
  name : ∀ name ∈ saidName own, name.length ≤ 80
  note : ∀ note ∈ saidNote own, NoteFits note
  tags : ∀ tags ∈ saidTags lower own, validateContactTags tags = .ok ()

theorem saidFits_nil : SaidFits lower [] where
  name _ hnone := nomatch hnone
  note _ hnone := nomatch hnone
  tags _ hnone := nomatch hnone

theorem fits_getD {Item : Type} {Fit : List Item → Prop} {values : List (List Item)}
    {old : List Item} (h : Fit old) :
    Fit ((lastSaid values).getD old) ↔ ∀ value ∈ lastSaid values, Fit value := by
  cases lastSaid values with
  | none => simp [h]
  | some value => simp

theorem overwritten_valid {own : List CloudContact} {contact : Contact} (hvalid : contact.Valid)
    (hown : ∀ cloud ∈ own, cloud.id lower = contact.remoteId) :
    (overwritten lower own contact).Valid ↔ SaidFits lower own := by
  obtain ⟨hname, hnote, hrest⟩ := validateContact_ok.mp hvalid.fields
  have hnames : NameFits ((saidName own).getD contact.name) ↔
      ∀ name ∈ saidName own, name.length ≤ 80 := by
    refine (fits_getD hname).trans (forall₂_congr fun name hsaid => ?_)
    exact ⟨fun h => h.short, fun h => ⟨ne_nil_of_lastSaid hsaid, h⟩⟩
  have hnotes : NoteFits ((saidNote own).getD contact.note) ↔
      ∀ note ∈ saidNote own, NoteFits note := fits_getD hnote
  have htags : validateContactTags ((saidTags lower own).getD contact.tags) = .ok () ↔
      ∀ tags ∈ saidTags lower own, validateContactTags tags = .ok () :=
    @fits_getD _ (fun tags => validateContactTags tags = .ok ()) _ _ hvalid.tags
  rw [overwritten_eq, lastId hown]
  constructor
  · intro h
    obtain ⟨hname, hnote, -⟩ := validateContact_ok.mp h.fields
    exact ⟨hnames.mp hname, hnotes.mp hnote, htags.mp h.tags⟩
  · intro h
    exact ⟨validateContact_ok.mpr ⟨hnames.mpr h.name, hnotes.mpr h.note, hrest⟩, htags.mpr h.tags⟩

/-- Of the entries with an id, those that are written over a contact. -/
def overwriting (lower : Lowercase) (contacts : List Contact) (clouds : List CloudContact)
    (k : List Char) : List CloudContact :=
  let own := clouds.filter fun cloud => cloud.id lower = k
  if (lookup (contactId lower) k contacts).isSome then own else (fromAccepted lower own).tail

theorem mergedOwn_valid {contacts : List Contact} {clouds : List CloudContact} {k : List Char}
    (hk : k ≠ []) (hvalid : ∀ contact ∈ contacts, contact.Valid)
    (hids : ∀ contact ∈ contacts, contactId lower contact = contact.remoteId) :
    (∀ contact, (clouds.filter fun cloud => cloud.id lower = k).foldl (mergedOwn lower)
        (lookup (contactId lower) k contacts) = some contact → contact.Valid) ↔
      SaidFits lower (overwriting lower contacts clouds k) := by
  have hown : ∀ cloud ∈ clouds.filter fun cloud => cloud.id lower = k, cloud.id lower = k :=
    fun cloud hcloud => of_decide_eq_true (List.mem_filter.mp hcloud).2
  have hsome : ∀ cloud ∈ clouds.filter fun cloud => cloud.id lower = k, cloud.id lower ≠ [] :=
    fun cloud hcloud => hown cloud hcloud ▸ hk
  rw [overwriting]
  cases hfound : lookup (contactId lower) k contacts with
  | some contact =>
      have hmem := mem_of_lookup hfound
      have hid : contact.remoteId = k := (hids contact hmem).symm.trans (key_of_lookup hfound)
      rw [Option.isSome_some, if_pos rfl, mergedOwn_known hsome,
        ← overwritten_valid (hvalid contact hmem)
          fun cloud hcloud => (hown cloud hcloud).trans hid.symm]
      simp
  | none =>
      rw [Option.isSome_none, if_neg Bool.false_ne_true, mergedOwn_new hsome]
      cases hfrom : fromAccepted lower (clouds.filter fun cloud => cloud.id lower = k) with
      | nil => simp [saidFits_nil]
      | cons cloud later =>
          have hmem : ∀ each ∈ cloud :: later,
              each ∈ clouds.filter fun cloud => cloud.id lower = k := by
            rw [← hfrom]
            exact fun each heach => (List.dropWhile_suffix _).subset heach
          have haccepted : (cloud.newContact lower).Valid := by
            have hhead := congrArg List.head? hfrom
            simpa using dropWhile_head hhead
          have hid : ∀ each ∈ later, each.id lower = (cloud.newContact lower).remoteId := by
            intro each heach
            exact (hown each (hmem each (List.mem_cons_of_mem _ heach))).trans
              (hown cloud (hmem cloud List.mem_cons_self)).symm
          rw [List.tail_cons, ← overwritten_valid haccepted hid]
          simp

/-! What is kept whatever the cloud says. -/

theorem mem_mergedBook {contacts : List Contact} {cloud : CloudContact} {contact : Contact}
    (h : contact ∈ mergedBook lower contacts cloud) :
    contact ∈ contacts ∨ contact.remoteId = cloud.id lower := by
  rw [mergedBook] at h
  split at h
  next => exact Or.inl h
  next =>
    split at h
    next =>
      rcases mem_updateFirst h with hkept | ⟨_, _, _, hover⟩
      · exact Or.inl hkept
      · exact Or.inr (congrArg Contact.remoteId hover)
    next =>
      split at h
      next =>
        rw [sortContacts_perm.mem_iff, List.mem_append, List.mem_singleton] at h
        exact h.imp_right (congrArg Contact.remoteId)
      next => exact Or.inl h

def NormalIds (lower : Lowercase) (contacts : List Contact) : Prop :=
  ∀ contact ∈ contacts, contactId lower contact = contact.remoteId

theorem NormalIds.merged {contacts : List Contact} (h : NormalIds lower contacts)
    (clouds : List CloudContact) :
    NormalIds lower (clouds.foldl (mergedBook lower) contacts) := by
  induction clouds generalizing contacts with
  | nil => exact h
  | cons cloud clouds ih =>
      refine ih fun contact hcontact => ?_
      obtain hold | hid := mem_mergedBook hcontact
      · exact h contact hold
      · rw [contactId, hid]
        exact normalizeContactId_idempotent lower _

namespace LauncherStore

structure Sound (lower : Lowercase) (store : LauncherStore) : Prop where
  distinct : DistinctIds lower store.contacts
  sorted : ContactsSorted lower store.contacts
  valid : ∀ contact ∈ store.contacts, contact.Valid
  recentBounded : store.recent.length ≤ maxRecentConnections
  recentDistinct : (store.recent.map (recentId lower)).Nodup

/-- All of it that does not depend on what the cloud says. -/
structure Kept (lower : Lowercase) (store : LauncherStore) : Prop where
  distinct : DistinctIds lower store.contacts
  sorted : ContactsSorted lower store.contacts
  normal : NormalIds lower store.contacts
  recentBounded : store.recent.length ≤ maxRecentConnections
  recentDistinct : (store.recent.map (recentId lower)).Nodup

variable {store : LauncherStore}

theorem Kept.sound_iff (h : store.Kept lower) :
    store.Sound lower ↔ ∀ contact ∈ store.contacts, contact.Valid :=
  ⟨fun hsound => hsound.valid,
    fun hvalid => ⟨h.distinct, h.sorted, hvalid, h.recentBounded, h.recentDistinct⟩⟩

theorem kept_default : LauncherStore.default.Kept lower where
  distinct := List.nodup_nil
  sorted := List.Pairwise.nil
  normal := by simp [NormalIds, default]
  recentBounded := Nat.zero_le _
  recentDistinct := List.nodup_nil

/-- Only the contacts have changed. -/
theorem Kept.contacts (h : store.Kept lower) {contacts : List Contact}
    (hdistinct : DistinctIds lower contacts) (hsorted : ContactsSorted lower contacts)
    (hnormal : NormalIds lower contacts) :
    ({ store with contacts := contacts } : LauncherStore).Kept lower :=
  ⟨hdistinct, hsorted, hnormal, h.recentBounded, h.recentDistinct⟩

theorem Kept.upsert (h : store.Kept lower) (name remoteId group note : List Char)
    (tags : List (List Char)) :
    (storeStep lower store (.upsert name remoteId group note tags)).1.Kept lower ∧
      ((∀ contact ∈ store.contacts, contact.Valid) → ∀ contact ∈
        (storeStep lower store (.upsert name remoteId group note tags)).1.contacts,
        contact.Valid) := by
  obtain ⟨haccepted, hrejected⟩ := store.upsert_eq lower name remoteId group note tags
  by_cases hvalid : (enteredContact lower name remoteId group note tags).Valid
  · have hid : ∀ contact : Contact, contact.remoteId = normalizeContactId lower remoteId →
        contactId lower contact = normalizeContactId lower remoteId := by
      intro contact hcontact
      rw [contactId, hcontact, normalizeContactId_idempotent]
    rw [storeStep, haccepted hvalid]
    refine ⟨h.contacts ?_ sortContacts_sorted ?_, ?_⟩
    · exact (sortContacts_perm.map _).nodup_iff.mpr
        (nodup_putEntry (fun _ _ => hid _ rfl) (hid _ rfl) h.distinct)
    · intro contact hcontact
      obtain hold | ⟨old, -, -, rfl⟩ | rfl := mem_putEntry (sortContacts_perm.mem_iff.mp hcontact)
      · exact h.normal contact hold
      · exact hid _ rfl
      · exact hid _ rfl
    · intro hbefore contact hcontact
      obtain hold | ⟨old, -, -, rfl⟩ | rfl := mem_putEntry (sortContacts_perm.mem_iff.mp hcontact)
      · exact hbefore contact hold
      · exact ⟨hvalid.fields, hvalid.tags⟩
      · exact hvalid
  · obtain ⟨error, herror⟩ := hrejected hvalid
    rw [storeStep, herror]
    exact ⟨h, id⟩

theorem Kept.remove (h : store.Kept lower) (remoteId : List Char) :
    (store.removeContact lower remoteId).1.Kept lower :=
  h.contacts (h.distinct.sublist (List.filter_sublist.map _)) (h.sorted.sublist List.filter_sublist)
    fun contact hcontact => h.normal contact (List.mem_of_mem_filter hcontact)

theorem Kept.toggleFavorite (h : store.Kept lower) (remoteId : List Char) :
    (store.toggleFavorite lower remoteId).1.Kept lower ∧
      ((∀ contact ∈ store.contacts, contact.Valid) →
        ∀ contact ∈ (store.toggleFavorite lower remoteId).1.contacts, contact.Valid) := by
  rw [LauncherStore.toggleFavorite]
  cases lookup (contactId lower) (normalizeContactId lower remoteId) store.contacts with
  | none => exact ⟨h, id⟩
  | some found =>
      have hids : (updateFirst (contactId lower) (normalizeContactId lower remoteId)
          Contact.toggle store.contacts).map (contactId lower) =
            store.contacts.map (contactId lower) := map_updateFirst fun _ _ => rfl
      have hkeys : (updateFirst (contactId lower) (normalizeContactId lower remoteId)
          Contact.toggle store.contacts).map (contactKey lower) =
            store.contacts.map (contactKey lower) := map_updateFirst fun _ _ => rfl
      refine ⟨h.contacts ?_ ?_ ?_, ?_⟩
      · rw [DistinctIds, hids]
        exact h.distinct
      · have hsorted : (store.contacts.map (contactKey lower)).Pairwise (· ≤ ·) :=
          List.pairwise_map.mpr h.sorted
        rw [← hkeys] at hsorted
        exact List.pairwise_map.mp hsorted
      · intro contact hcontact
        obtain hold | ⟨old, hold, -, rfl⟩ := mem_updateFirst hcontact
        · exact h.normal contact hold
        · exact h.normal old hold
      · intro hbefore contact hcontact
        obtain hold | ⟨old, hold, -, rfl⟩ := mem_updateFirst hcontact
        · exact hbefore contact hold
        · exact ⟨(hbefore old hold).fields, (hbefore old hold).tags⟩

/-! The recent connections. -/

theorem Kept.recent (h : store.Kept lower) {recent : List RecentConnection}
    (hbounded : recent.length ≤ maxRecentConnections)
    (hdistinct : (recent.map (recentId lower)).Nodup) :
    ({ store with recent := recent } : LauncherStore).Kept lower :=
  ⟨h.distinct, h.sorted, h.normal, hbounded, hdistinct⟩

theorem Kept.record (h : store.Kept lower) (unixNow : UInt64) (remoteId : List Char)
    (direction : ConnectionDirection) :
    (store.recordRecentWithDirection lower unixNow remoteId direction).Kept lower := by
  rw [recordRecentWithDirection]
  dsimp only
  split
  · exact h
  · refine h.recent (List.length_take_le _ _) ?_
    refine List.Nodup.sublist ((List.take_sublist _ _).map _) ?_
    rw [List.map_cons, List.nodup_cons]
    constructor
    · intro hmem
      obtain ⟨other, hother, hsame⟩ := List.mem_map.mp hmem
      have hdiffers := of_decide_eq_true (List.mem_filter.mp hother).2
      exact hdiffers (hsame.trans (normalizeContactId_idempotent lower remoteId))
    · exact h.recentDistinct.sublist (List.filter_sublist.map _)

theorem Kept.updateRecent (h : store.Kept lower) (remoteId : List Char)
    {change : RecentConnection → RecentConnection}
    (hchange : ∀ connection, (change connection).remoteId = connection.remoteId) :
    ({ store with recent := updateFirst (recentId lower) remoteId change store.recent } :
      LauncherStore).Kept lower := by
  refine h.recent ?_ ?_
  · rw [length_updateFirst]
    exact h.recentBounded
  · rw [map_updateFirst fun connection _ => by rw [recentId, hchange, recentId]]
    exact h.recentDistinct

/-! The cloud. -/

variable (lower) in
theorem mergeCloudContacts_eq (store : LauncherStore) (unixNow : UInt64)
    (clouds : List CloudContact) :
    ∃ added, store.mergeCloudContacts lower unixNow clouds =
      ({ store with
        contacts := sortContacts lower (clouds.foldl (mergedBook lower) store.contacts)
        addressBookLastSyncUnix := unixNow }, added) ∧
      (clouds.foldl (mergedBook lower) store.contacts).length = store.contacts.length + added := by
  obtain ⟨more, hmore, hlength⟩ := mergeCloudContact_foldl lower clouds store 0
  refine ⟨more, ?_, hlength⟩
  rw [mergeCloudContacts, hmore, Nat.zero_add]

theorem Kept.merge (h : store.Kept lower) (unixNow : UInt64) (clouds : List CloudContact) :
    (store.mergeCloudContacts lower unixNow clouds).1.Kept lower := by
  obtain ⟨added, hmerge, -⟩ := mergeCloudContacts_eq lower store unixNow clouds
  rw [hmerge]
  refine ⟨?_, sortContacts_sorted, ?_, h.recentBounded, h.recentDistinct⟩
  · exact (sortContacts_perm.map _).nodup_iff.mpr (merged_distinct h.distinct clouds)
  · intro contact hcontact
    exact h.normal.merged clouds contact (sortContacts_perm.mem_iff.mp hcontact)

theorem mergedOwn_skipped {clouds : List CloudContact} (own : Option Contact)
    (h : ∀ cloud ∈ clouds, cloud.id lower = []) : clouds.foldl (mergedOwn lower) own = own := by
  induction clouds generalizing own with
  | nil => rfl
  | cons cloud clouds ih =>
      obtain ⟨hid, hrest⟩ := List.forall_mem_cons.mp h
      rw [List.foldl_cons, mergedOwn_skip hid, ih own hrest]

/-- The contacts are as they may be after the merge just if what is written over each of
them may stand in a contact. -/
theorem merge_valid_iff (h : store.Kept lower) (hvalid : ∀ contact ∈ store.contacts, contact.Valid)
    (unixNow : UInt64) (clouds : List CloudContact) :
    (∀ cloud ∈ clouds, cloud.id lower ≠ [] →
        SaidFits lower (overwriting lower store.contacts clouds (cloud.id lower))) ↔
      ∀ contact ∈ (store.mergeCloudContacts lower unixNow clouds).1.contacts, contact.Valid := by
  obtain ⟨added, hmerge, -⟩ := mergeCloudContacts_eq lower store unixNow clouds
  have hdistinct := merged_distinct h.distinct clouds
  have hentry : (∀ contact ∈ (store.mergeCloudContacts lower unixNow clouds).1.contacts,
      contact.Valid) ↔ ∀ k contact, lookup (contactId lower) k
        (clouds.foldl (mergedBook lower) store.contacts) = some contact → contact.Valid := by
    rw [hmerge]
    constructor
    · intro hall k contact hfound
      exact hall contact (sortContacts_perm.mem_iff.mpr (mem_of_lookup hfound))
    · intro hall contact hcontact
      exact hall _ contact ((mem_iff_lookup hdistinct).mp (sortContacts_perm.mem_iff.mp hcontact))
  rw [hentry]
  constructor
  · intro hfits k contact hfound
    rw [lookup_merged h.distinct] at hfound
    by_cases hk : k = []
    · rw [mergedOwn_skipped] at hfound
      · exact hvalid contact (mem_of_lookup hfound)
      · intro cloud hcloud
        exact (of_decide_eq_true (List.mem_filter.mp hcloud).2).trans hk
    · refine (mergedOwn_valid hk hvalid h.normal).mpr ?_ contact hfound
      cases hown : clouds.filter fun cloud => cloud.id lower = k with
      | nil =>
          rw [overwriting, hown]
          split
          · exact saidFits_nil
          · exact saidFits_nil
      | cons cloud own =>
          have hcloud : cloud ∈ clouds.filter fun cloud => cloud.id lower = k := by
            rw [hown]
            exact List.mem_cons_self
          obtain ⟨hmem, hid⟩ := List.mem_filter.mp hcloud
          obtain rfl := of_decide_eq_true hid
          exact hfits cloud hmem hk
  · intro hall cloud hcloud hid
    refine (mergedOwn_valid hid hvalid h.normal).mp fun contact hfound => ?_
    rw [← lookup_merged h.distinct] at hfound
    exact hall _ contact hfound

end LauncherStore

/-! Every run. -/

/-- What the cloud says last about each contact may stand in a contact. -/
def CallFits (lower : Lowercase) (store : LauncherStore) : StoreCall → Prop
  | .mergeCloud _ clouds => ∀ cloud ∈ clouds, cloud.id lower ≠ [] →
      SaidFits lower (overwriting lower store.contacts clouds (cloud.id lower))
  | _ => True

namespace LauncherStore

variable {store : LauncherStore}

theorem Kept.step (h : store.Kept lower) (call : StoreCall) :
    (storeStep lower store call).1.Kept lower := by
  cases call with
  | upsert name remoteId group note tags => exact (h.upsert name remoteId group note tags).1
  | remove remoteId => exact h.remove remoteId
  | toggleFavorite remoteId => exact (h.toggleFavorite remoteId).1
  | mergeCloud unixNow clouds => exact h.merge unixNow clouds
  | recordRecent unixNow remoteId => exact h.record unixNow remoteId .outgoing
  | recordIncoming unixNow remoteId => exact h.record unixNow remoteId .incoming
  | updateRecentSummary remoteId durationSeconds reconnectCount endReason =>
      exact h.updateRecent _ fun _ => rfl
  | finishIncoming remoteId durationSeconds reason => exact h.updateRecent _ fun _ => rfl
  | removeRecent remoteId =>
      exact h.recent ((List.length_filter_le _ _).trans h.recentBounded)
        (h.recentDistinct.sublist (List.filter_sublist.map _))
  | clearRecent =>
      rw [storeStep, clearRecent]
      split
      · exact h
      · exact h.recent (Nat.zero_le _) List.nodup_nil

theorem Kept.step_valid (h : store.Kept lower) (hvalid : ∀ contact ∈ store.contacts, contact.Valid)
    (call : StoreCall) :
    CallFits lower store call ↔
      ∀ contact ∈ (storeStep lower store call).1.contacts, contact.Valid := by
  cases call with
  | mergeCloud unixNow clouds => exact merge_valid_iff h hvalid unixNow clouds
  | upsert name remoteId group note tags =>
      exact iff_of_true trivial ((h.upsert name remoteId group note tags).2 hvalid)
  | toggleFavorite remoteId => exact iff_of_true trivial ((h.toggleFavorite remoteId).2 hvalid)
  | remove remoteId =>
      exact iff_of_true trivial fun contact hcontact =>
        hvalid contact (List.mem_of_mem_filter hcontact)
  | recordRecent unixNow remoteId | recordIncoming unixNow remoteId =>
      refine iff_of_true trivial ?_
      rw [storeStep]
      simp only [LauncherStore.recordRecent, LauncherStore.recordIncoming,
        recordRecentWithDirection]
      split
      · exact hvalid
      · exact hvalid
  | updateRecentSummary | finishIncoming | removeRecent => exact iff_of_true trivial hvalid
  | clearRecent =>
      refine iff_of_true trivial ?_
      rw [storeStep, clearRecent]
      split
      · exact hvalid
      · exact hvalid

/-- The store stays sound exactly as long as what the cloud says may stand in a contact. -/
theorem sound_along_iff (lower : Lowercase) (calls : List StoreCall) :
    (launcherStore lower).Along (CallFits lower) .default calls ↔
      ∀ before after, calls = before ++ after →
        ((launcherStore lower).run .default before).Sound lower := by
  have hdefault : LauncherStore.default.Kept lower := kept_default
  refine (launcherStore lower).along_iff_every_state ?_ (fun _ _ => trivial) hdefault ?_
  · intro store call _ hkept hsound
    have hstep := hkept.step call
    exact ⟨hstep, (hkept.step_valid hsound.valid call).trans hstep.sound_iff.symm⟩
  · exact hdefault.sound_iff.mpr (by simp [default])

end LauncherStore

/-! A name that is not checked. -/

theorem idCharacter_toLower {c : Char} (h : idCharacter c = true) :
    idCharacter c.toLower = true := by
  have hlower := toNat_toLower c
  by_cases hupper : 65 ≤ c.toNat ∧ c.toNat ≤ 90
  · rw [if_pos hupper] at hlower
    have hdash : c.toLower ≠ '-' := by
      intro hdash
      rw [hdash] at hlower
      change 45 = c.toNat + 32 at hlower
      omega
    simp [idCharacter, isWhitespace, hlower, hdash]
    omega
  · rw [if_neg hupper, Char.toNat_inj] at hlower
    rwa [hlower]

/-- The tables for texts of ASCII characters. -/
def asciiLowercase : Lowercase where
  toLowercase text := text.map Char.toLower
  idempotent text := by
    rw [List.map_map]
    exact List.map_congr_left fun c _ => toLower_toLower c
  keeps text h := by
    rw [List.all_map]
    exact List.all_eq_true.mpr fun c hc => idCharacter_toLower (List.all_eq_true.mp h c hc)

def longName : List Char := List.replicate 81 'x'

/-- The cloud gives a computer that is already there a name of 81 characters. -/
theorem cloud_name_unchecked :
    let calls := [.upsert "a".toList "1".toList [] [] [],
      .mergeCloud 0 [{ name := longName, remoteId := "1".toList, note := [], tags := [] }]]
    ¬ ((launcherStore asciiLowercase).run .default calls).Sound asciiLowercase := by
  intro calls hsound
  have hlong : ((launcherStore asciiLowercase).run .default calls).contacts.any
      (fun contact => decide (80 < contact.name.length)) = true := by
    decide +kernel
  obtain ⟨contact, hcontact, hlength⟩ := List.any_eq_true.mp hlong
  have hname := (validateContact_ok.mp (hsound.valid contact hcontact).fields).1
  exact hname.short.not_gt (of_decide_eq_true hlength)

end EvertyDesk.Launcher
