import EvertyDesk.Launcher.BookInvariants

/-!
The list of the cloud merged twice. A contact that was there comes out of the second merge
as of the first. A new one does unless the entries that were refused before it was added
say something that no later one does: the second time they find a contact and are written
over it.
-/

namespace EvertyDesk.Launcher

variable {lower : Lowercase}

/-- What the entries that are refused at first say, a later one says as well, or it is what
the contact has anyway. -/
def Settled (lower : Lowercase) (k : List Char) (own : List CloudContact) : Prop :=
  fromAccepted lower own = [] ∨
    ((saidName (fromAccepted lower own)).isSome ∨ (saidName (refused lower own)).getD k = k) ∧
      ((saidTags lower (fromAccepted lower own)).isSome ∨
        saidTags lower (refused lower own) = none) ∧
      ((saidNote (fromAccepted lower own)).isSome ∨ saidNote (refused lower own) = none)

instance (k : List Char) (own : List CloudContact) : Decidable (Settled lower k own) :=
  inferInstanceAs (Decidable (_ ∨ _ ∧ _ ∧ _))

/-! One contact. -/

theorem overwritten_twice (own : List CloudContact) (contact : Contact) :
    overwritten lower own (overwritten lower own contact) = overwritten lower own contact := by
  have hgetD : ∀ {Item : Type} (said : Option Item) (old : Item),
      said.getD (said.getD old) = said.getD old := by
    intro Item said old
    cases said with
    | none => rfl
    | some value => rfl
  rw [overwritten_eq own contact, overwritten_eq]
  simp only [hgetD]

/-- A contact of which nothing is known but its id. -/
def blankContact (k : List Char) : Contact where
  name := k
  remoteId := k
  favorite := false
  group := []
  tags := []
  note := []

theorem newContact_eq (cloud : CloudContact) :
    cloud.newContact lower = cloud.over lower (blankContact (cloud.id lower)) := by
  have hif : ∀ {Item : Type} (value : List Item), value = if value = [] then [] else value := by
    intro Item value
    split
    next hnil => exact hnil
    next => rfl
  rw [CloudContact.over, Contact.overwrite, CloudContact.newContact]
  congr 1
  · exact hif _
  · exact hif _

theorem saidAgain_iff {Item : Type} (rest before : Option Item) (old : Item) :
    (rest.or before).getD (rest.getD old) = rest.getD old ↔
      rest.isSome ∨ before.getD old = old := by
  cases rest with
  | none => simp
  | some value => simp

theorem getD_nil_iff {Item : Type} {values : List (List Item)} :
    (lastSaid values).getD [] = [] ↔ lastSaid values = none := by
  cases hsaid : lastSaid values with
  | none => simp
  | some value => simpa using ne_nil_of_lastSaid hsaid

theorem saidTags_getD {own : List CloudContact} :
    (saidTags lower own).getD [] = [] ↔ saidTags lower own = none := getD_nil_iff

theorem saidNote_getD {own : List CloudContact} :
    (saidNote own).getD [] = [] ↔ saidNote own = none := getD_nil_iff

/-- What all entries say, from what those before and after the first acceptable one say. -/
theorem lastSaid_split {Item : Type} (own : List CloudContact) (field : CloudContact → List Item) :
    lastSaid (own.map field) = (lastSaid ((fromAccepted lower own).map field)).or
      (lastSaid ((refused lower own).map field)) := by
  conv_lhs => rw [← @refused_append lower own]
  rw [List.map_append, lastSaid_append]

theorem twice_iff {own : List CloudContact} {k : List Char} (hk : k ≠ [])
    (hown : ∀ cloud ∈ own, cloud.id lower = k) :
    own.foldl (mergedOwn lower) (own.foldl (mergedOwn lower) none) =
        own.foldl (mergedOwn lower) none ↔ Settled lower k own := by
  have hids : ∀ cloud ∈ own, cloud.id lower ≠ [] := fun cloud hcloud => hown cloud hcloud ▸ hk
  have hname : saidName own = _ := @lastSaid_split lower _ own _
  have htags : saidTags lower own = _ := @lastSaid_split lower _ own _
  have hnote : saidNote own = _ := @lastSaid_split lower _ own _
  rw [← saidName, ← saidName] at hname
  rw [← saidTags, ← saidTags] at htags
  rw [← saidNote, ← saidNote] at hnote
  rw [mergedOwn_new hids, Settled]
  cases hrest : fromAccepted lower own with
  | nil =>
      change own.foldl (mergedOwn lower) none = none ↔ _
      rw [mergedOwn_new hids, hrest]
      exact iff_of_true rfl (Or.inl rfl)
  | cons cloud later =>
      have hsub : ∀ each ∈ cloud :: later, each.id lower = k := by
        rw [← hrest]
        exact fun each heach => hown each ((List.dropWhile_suffix _).subset heach)
      have hnew : overwritten lower later (cloud.newContact lower) =
          overwritten lower (cloud :: later) (blankContact k) := by
        rw [newContact_eq, hsub cloud List.mem_cons_self]
        rfl
      rw [hrest] at hname htags hnote
      rw [List.head?_cons, Option.map_some, List.tail_cons, mergedOwn_known hids, hnew,
        Option.some_inj, overwritten_eq (cloud :: later), overwritten_eq own,
        or_iff_right (List.cons_ne_nil _ _)]
      simp only [Contact.mk.injEq, true_and, blankContact, hname, hnote, htags,
        saidAgain_iff, saidTags_getD, saidNote_getD, lastId hsub, lastId hown]

/-! The whole book. -/

/-- Books in order without an id twice are the same where the same is found in them. -/
theorem eq_of_lookup {left right : List Contact} (hleft : DistinctIds lower left)
    (hright : DistinctIds lower right) (hleftSorted : ContactsSorted lower left)
    (hrightSorted : ContactsSorted lower right)
    (h : ∀ k, lookup (contactId lower) k left = lookup (contactId lower) k right) :
    left = right := by
  have hperm := perm_of_lookup hleft hright h
  refine hperm.eq_of_pairwise ?_ hleftSorted hrightSorted
  intro a b ha hb hab hba
  have hkeys : a.remoteId = b.remoteId :=
    congrArg (fun key => (ofLex (ofLex key).2).2) (le_antisymm hab hba)
  have hids : contactId lower a = contactId lower b := by rw [contactId, contactId, hkeys]
  exact List.inj_on_of_nodup_map hright (hperm.mem_iff.mp ha) hb hids

namespace LauncherStore

/-- What a merge is to do, and to do once. -/
structure MergesOnce (lower : Lowercase) (store : LauncherStore) (clouds : List CloudContact)
    (now later : UInt64) : Prop where
  twice : ((store.mergeCloudContacts lower now clouds).1.mergeCloudContacts lower later
    clouds).1.contacts = (store.mergeCloudContacts lower now clouds).1.contacts
  others : ∀ k, (∀ cloud ∈ clouds, cloud.id lower ≠ k) →
    lookup (contactId lower) k (store.mergeCloudContacts lower now clouds).1.contacts =
      lookup (contactId lower) k store.contacts
  choices : ∀ k contact, lookup (contactId lower) k store.contacts = some contact →
    ∃ merged, lookup (contactId lower) k
        (store.mergeCloudContacts lower now clouds).1.contacts = some merged ∧
      merged.group = contact.group ∧ merged.favorite = contact.favorite
  added : (store.mergeCloudContacts lower now clouds).1.contacts.length =
    store.contacts.length + (store.mergeCloudContacts lower now clouds).2

variable {store : LauncherStore} {clouds : List CloudContact}

theorem merged_contacts (now : UInt64) :
    (store.mergeCloudContacts lower now clouds).1.contacts =
      sortContacts lower (clouds.foldl (mergedBook lower) store.contacts) := by
  obtain ⟨added, hmerge, -⟩ := mergeCloudContacts_eq lower store now clouds
  rw [hmerge]

theorem lookup_mergeCloudContacts (h : DistinctIds lower store.contacts) (now : UInt64)
    (k : List Char) :
    lookup (contactId lower) k (store.mergeCloudContacts lower now clouds).1.contacts =
      (clouds.filter fun cloud => cloud.id lower = k).foldl (mergedOwn lower)
        (lookup (contactId lower) k store.contacts) := by
  rw [merged_contacts, ← lookup_perm (merged_distinct h clouds) sortContacts_perm.symm,
    lookup_merged h]

theorem distinct_mergeCloudContacts (h : DistinctIds lower store.contacts) (now : UInt64) :
    DistinctIds lower (store.mergeCloudContacts lower now clouds).1.contacts := by
  rw [merged_contacts]
  exact (sortContacts_perm.map _).nodup_iff.mpr (merged_distinct h clouds)

/-- The second merge changes nothing just if it changes no contact. -/
theorem merge_twice_iff (h : DistinctIds lower store.contacts) (now later : UInt64) :
    ((store.mergeCloudContacts lower now clouds).1.mergeCloudContacts lower later
        clouds).1.contacts = (store.mergeCloudContacts lower now clouds).1.contacts ↔
      ∀ cloud ∈ clouds, cloud.id lower ≠ [] →
        lookup (contactId lower) (cloud.id lower) store.contacts = none →
        Settled lower (cloud.id lower) (clouds.filter fun c => c.id lower = cloud.id lower) := by
  have honce : DistinctIds lower (store.mergeCloudContacts lower now clouds).1.contacts :=
    distinct_mergeCloudContacts h now
  have hown : ∀ k, ∀ cloud ∈ clouds.filter (fun c => c.id lower = k), cloud.id lower = k :=
    fun k cloud hcloud => of_decide_eq_true (List.mem_filter.mp hcloud).2
  constructor
  · intro htwice cloud hcloud hid hnew
    refine (twice_iff hid (hown _)).mp ?_
    have hlookup := @lookup_mergeCloudContacts lower _ clouds honce later (cloud.id lower)
    rw [htwice, lookup_mergeCloudContacts h, hnew] at hlookup
    exact hlookup.symm
  · intro hsettled
    refine eq_of_lookup (distinct_mergeCloudContacts honce later) honce ?_ ?_ fun k => ?_
    · rw [merged_contacts]
      exact sortContacts_sorted
    · rw [merged_contacts]
      exact sortContacts_sorted
    · rw [lookup_mergeCloudContacts honce, lookup_mergeCloudContacts h]
      by_cases hk : k = []
      · rw [mergedOwn_skipped _ fun cloud hcloud => (hown k cloud hcloud).trans hk]
      · have hids : ∀ cloud ∈ clouds.filter (fun c => c.id lower = k), cloud.id lower ≠ [] :=
          fun cloud hcloud => (hown k cloud hcloud).symm ▸ hk
        cases hfound : lookup (contactId lower) k store.contacts with
        | some contact =>
            rw [mergedOwn_known hids, mergedOwn_known hids, overwritten_twice]
        | none =>
            cases hempty : clouds.filter fun c => c.id lower = k with
            | nil => rfl
            | cons cloud rest =>
                rw [← hempty]
                have hcloud : cloud ∈ clouds.filter fun c => c.id lower = k := by
                  rw [hempty]
                  exact List.mem_cons_self
                obtain rfl := hown k cloud hcloud
                exact (twice_iff hk (hown _)).mpr
                  (hsettled cloud (List.mem_of_mem_filter hcloud) hk hfound)

/-- Merging twice is merging once exactly where, for each new contact, what the entries
refused at first say is said again later. The rest holds for every list. -/
theorem mergesOnce_iff (h : DistinctIds lower store.contacts) (now later : UInt64) :
    store.MergesOnce lower clouds now later ↔
      ∀ cloud ∈ clouds, cloud.id lower ≠ [] →
        lookup (contactId lower) (cloud.id lower) store.contacts = none →
        Settled lower (cloud.id lower) (clouds.filter fun c => c.id lower = cloud.id lower) := by
  rw [← merge_twice_iff h now later]
  constructor
  · exact MergesOnce.twice
  · intro htwice
    refine ⟨htwice, ?_, ?_, ?_⟩
    · intro k hother
      have hnone : clouds.filter (fun c => c.id lower = k) = [] :=
        List.filter_eq_nil_iff.mpr fun cloud hcloud => by simpa using hother cloud hcloud
      rw [lookup_mergeCloudContacts h, hnone]
      rfl
    · intro k contact hfound
      rw [lookup_mergeCloudContacts h, hfound]
      by_cases hk : k = []
      · rw [mergedOwn_skipped _ fun cloud hcloud =>
          (of_decide_eq_true (List.mem_filter.mp hcloud).2).trans hk]
        exact ⟨contact, rfl, rfl, rfl⟩
      · rw [mergedOwn_known fun cloud hcloud =>
          (of_decide_eq_true (List.mem_filter.mp hcloud).2).symm ▸ hk]
        refine ⟨_, rfl, ?_, ?_⟩
        · rw [overwritten_eq]
        · rw [overwritten_eq]
    · obtain ⟨added, hmerge, hlength⟩ := mergeCloudContacts_eq lower store now clouds
      rw [hmerge]
      exact sortContacts_perm.length_eq.trans hlength

/-- A list with a new computer, twice, and one that is refused. -/
theorem mergesOnce_small_list :
    LauncherStore.default.MergesOnce asciiLowercase
      [{ name := [], remoteId := "12-3".toList, note := "cash".toList, tags := [] },
        { name := longName, remoteId := "4".toList, note := [], tags := [] },
        { name := "Shop".toList, remoteId := "123".toList, note := [], tags := [] }] 0 1 :=
  (mergesOnce_iff kept_default.distinct 0 1).mpr (by decide +kernel)

/-- A name that is too long is refused at first, and written over the contact that the next
entry adds when the list comes again. -/
theorem refused_name_written :
    ¬ LauncherStore.default.MergesOnce asciiLowercase
      [{ name := longName, remoteId := "1".toList, note := [], tags := [] },
        { name := [], remoteId := "1".toList, note := [], tags := [] }] 0 1 := by
  intro h
  have hnames := congrArg (List.map Contact.name) h.twice
  revert hnames
  decide +kernel

end LauncherStore

end EvertyDesk.Launcher
