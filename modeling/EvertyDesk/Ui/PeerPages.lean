import EvertyDesk.Hotfix.HotfixState
import EvertyDesk.Lib.Chunks
import EvertyDesk.Ui.AddressBook

/-!
How the address book is fetched: page by page, up to a page that is not full or to the
number of entries that the server tells. Where it tells none, the number of those that
have come so far stands in for it.

The server has one list. It answers each request with the page or with the whole list, as
an array or as an object that may tell how many entries there are.
-/

namespace EvertyDesk.Ui

open Hotfix (Value Number)

/-! Reading answers. An object has one value for a key. -/

def get (json : Value) (field : String) : Option Value :=
  match json with
  | .object fields => fields.lookup field
  | _ => none

def asArray : Value → Option (List Value)
  | .array items => some items
  | _ => none

/-- A string, or a whole number as a string. -/
def asText : Value → Option String
  | .string s => some s
  | .number (.posInt n) => some (toString n.toNat)
  | .number (.negInt n) => some (toString n)
  | _ => none

mutual

def extractStringField (field : String) : Value → Option String
  | .object fields => ((fields.lookup field).bind asText).or (extractFromData field fields)
  | _ => none

def extractFromData (field : String) : List (String × Value) → Option String
  | [] => none
  | (key, value) :: fields =>
      if key = "data" then extractStringField field value else extractFromData field fields

end

def extractStringArrayField (json : Value) (field : String) : List String :=
  match (get json field).bind asArray with
  | some values =>
      ((values.filterMap Value.asStr).map fun value => trim value.toList).filterMap fun text =>
        if text = [] then none else some (String.ofList text)
  | none => []

def checkJsonError (json : Value) : Except String Unit :=
  match extractStringField "error" json with
  | some error =>
      if trim error.toList = [] then checkMessage else .error error
  | none => checkMessage
where
  checkMessage : Except String Unit :=
    match extractStringField "message" json with
    | some message => if trim message.toList ≠ [] ∧ message ≠ "ok" then .error message else .ok ()
    | none => .ok ()

def contactOf (peer : Value) (remoteId : String) : ContactEntry where
  name := (extractStringField "alias" peer).getD ""
  remoteId := String.ofList (normalizeRemoteId remoteId)
  note := (extractStringField "hostname" peer).getD ""
  machineId := ""
  os := (extractStringField "platform" peer).getD ""
  lastSeen := ""
  online := false
  tags := extractStringArrayField peer "tags"

def contactsOf (data : List Value) : List ContactEntry :=
  data.filterMap fun peer => (extractStringField "id" peer).map (contactOf peer)

def pageSize : Nat := 30

/-- The entries of an answer, which are at its `data` or all there is. -/
def peersData (json : Value) : Except String (List Value) :=
  match ((get json "data").bind asArray).or (asArray json) with
  | some data => .ok data
  | none => .error "API did not return peers list"

/-- The loop from this page on, with what the pages before have given. There is no result
where it takes more rounds. -/
def fetchPages (send : Nat → Except String Value) :
    Nat → Nat → List ContactEntry → Option (Except String (List ContactEntry))
  | 0, _, _ => none
  | rounds + 1, current, contacts =>
      match (do
        let json ← send current
        checkJsonError json
        let data ← peersData json
        return (json, data)) with
      | .error err => some (.error err)
      | .ok (json, data) =>
          let contacts := contacts ++ contactsOf data
          let total := (((get json "total").bind Value.asU64).map UInt64.toNat).getD contacts.length
          if data.length < pageSize ∨ current * pageSize ≥ total then some (.ok contacts)
          else fetchPages send rounds (current + 1) contacts

def peers (send : Nat → Except String Value) (rounds : Nat) :
    Option (Except String (List ContactEntry)) := fetchPages send rounds 1 []

/-! Servers. -/

inductive ReplyForm where
  | bareArray
  | object (withTotal : Bool)
deriving DecidableEq, Repr

structure Reply where
  /-- The paging parameters are ignored. -/
  whole : Bool
  form : ReplyForm
deriving DecidableEq, Repr

def Reply.tellsTotal (reply : Reply) : Prop := reply.form = .object true

instance (reply : Reply) : Decidable reply.tellsTotal := inferInstanceAs (Decidable (_ = _))

structure PeerServer where
  list : List Value
  replies : Nat → Reply
  identified : ∀ peer ∈ list, (extractStringField "id" peer).isSome
  distinct : (list.map (extractStringField "id")).Nodup
  fits : list.length < 2 ^ 64

namespace PeerServer

def data (server : PeerServer) (current : Nat) : List Value :=
  if (server.replies current).whole then server.list
  else chunk pageSize server.list (current - 1)

def send (server : PeerServer) (current : Nat) : Except String Value :=
  let data := ("data", Value.array (server.data current))
  .ok <|
    match (server.replies current).form with
    | .bareArray => .array (server.data current)
    | .object false => .object [data]
    | .object true =>
        .object [data, ("total", .number (.posInt (UInt64.ofNat server.list.length)))]

/-- The answers are pages, and those before the last one tell how many entries there are. -/
def InPages (server : PeerServer) : Prop :=
  ∀ current, 1 ≤ current → (current - 1) * pageSize < server.list.length →
    (server.replies current).whole = false ∧
      (current * pageSize < server.list.length → (server.replies current).tellsTotal)

end PeerServer

@[simp] theorem contactsOf_append (first second : List Value) :
    contactsOf (first ++ second) = contactsOf first ++ contactsOf second := List.filterMap_append

theorem contactsOf_length {data : List Value}
    (h : ∀ peer ∈ data, (extractStringField "id" peer).isSome) :
    (contactsOf data).length = data.length := by
  induction data with
  | nil => rfl
  | cons peer data ih =>
      obtain ⟨id, hid⟩ := Option.isSome_iff_exists.mp (h peer List.mem_cons_self)
      have hrest := ih fun other hother => h other (List.mem_cons_of_mem _ hother)
      rw [contactsOf, List.filterMap_cons, hid, Option.map_some, List.length_cons,
        List.length_cons, ← hrest, contactsOf]

namespace PeerServer

variable (server : PeerServer)

/-- The number that the loop compares with. -/
def total (current collected : Nat) : Nat :=
  if (server.replies current).tellsTotal then server.list.length else collected

/-- What a round does with an answer. -/
theorem fetchPages_succ (rounds current : Nat) (contacts : List ContactEntry) :
    fetchPages server.send (rounds + 1) current contacts =
      if (server.data current).length < pageSize ∨ current * pageSize ≥
          server.total current (contacts ++ contactsOf (server.data current)).length
      then some (.ok (contacts ++ contactsOf (server.data current)))
      else fetchPages server.send rounds (current + 1)
        (contacts ++ contactsOf (server.data current)) := by
  have hfits : (UInt64.ofNat server.list.length).toNat = server.list.length :=
    UInt64.toNat_ofNat_of_lt' server.fits
  have hform : ∀ form, (server.replies current).form = form →
      ((server.replies current).tellsTotal ↔ form = .object true) := by
    rintro _ rfl
    rfl
  rw [fetchPages, send, total]
  rcases hreply : (server.replies current).form with _ | _ | _
  · simp [checkJsonError, checkJsonError.checkMessage, extractStringField, peersData, get, asArray,
      bind, Except.bind, pure, Except.pure, hform _ hreply]
  · simp [checkJsonError, checkJsonError.checkMessage, extractStringField, extractFromData,
      peersData, get, asArray, bind, Except.bind, pure, Except.pure, hform _ hreply,
      List.lookup_cons]
  · simp [checkJsonError, checkJsonError.checkMessage, extractStringField, extractFromData,
      peersData, get, asArray, bind, Except.bind, pure, Except.pure, hform _ hreply,
      List.lookup_cons, Value.asU64, hfits]

theorem data_identified (current : Nat) :
    ∀ peer ∈ server.data current, (extractStringField "id" peer).isSome := by
  intro peer hmem
  apply server.identified
  rw [data] at hmem
  split at hmem
  · exact hmem
  · exact List.mem_of_mem_drop (List.mem_of_mem_take hmem)

variable {server}

theorem data_page {current : Nat} (h : (server.replies current).whole = false) :
    server.data current = chunk pageSize server.list (current - 1) := by
  rw [data, h]
  rfl

theorem data_whole {current : Nat} (h : (server.replies current).whole = true) :
    server.data current = server.list := if_pos h

theorem data_ne_nil {current : Nat} (h : (current - 1) * pageSize < server.list.length) :
    0 < (server.data current).length := by
  cases hwhole : (server.replies current).whole with
  | true =>
      rw [data_whole hwhole]
      omega
  | false =>
      rw [data_page hwhole]
      exact chunk_length_pos (by decide) ((lt_divCeil (by decide)).mpr h)

/-- The contacts of the first entries. -/
def collected (server : PeerServer) (count : Nat) : List ContactEntry :=
  contactsOf (server.list.take count)

theorem collected_length (count : Nat) :
    (server.collected count).length = min count server.list.length := by
  rw [collected, contactsOf_length, List.length_take]
  exact fun peer hmem => server.identified peer (List.mem_of_mem_take hmem)

theorem collected_all {count : Nat} (h : server.list.length ≤ count) :
    server.collected count = contactsOf server.list := by
  rw [collected, List.take_of_length_le h]

theorem collected_page {before : Nat} (h : (server.replies (before + 1)).whole = false) :
    server.collected (before * pageSize) ++ contactsOf (server.data (before + 1)) =
      server.collected ((before + 1) * pageSize) := by
  rw [data_page h, collected, collected, ← contactsOf_append, Nat.add_sub_cancel, chunk,
    Nat.add_mul, Nat.one_mul, ← List.take_add]

/-- Pages that tell the number of entries are fetched to the last one. -/
theorem fetchPages_of_inPages (h : server.InPages) {rounds before : Nat}
    (hmore : before * pageSize < server.list.length)
    (hrounds : server.list.length ≤ (before + rounds) * pageSize) :
    fetchPages server.send rounds (before + 1) (server.collected (before * pageSize)) =
      some (.ok (contactsOf server.list)) := by
  induction rounds generalizing before with
  | zero =>
      rw [Nat.add_zero] at hrounds
      omega
  | succ rounds ih =>
      obtain ⟨hpage, htotal⟩ := h (before + 1) (Nat.le_add_left 1 before) hmore
      rw [fetchPages_succ, collected_page hpage, collected_length]
      by_cases hlast : (before + 1) * pageSize < server.list.length
      · have hfull : (server.data (before + 1)).length = pageSize := by
          rw [data_page hpage, chunk, List.length_take, List.length_drop, Nat.add_sub_cancel]
          simp only [pageSize] at hlast ⊢
          omega
        rw [total, if_pos (htotal hlast), if_neg (by omega)]
        exact ih hlast (by rwa [Nat.add_assoc, Nat.add_comm 1])
      · rw [if_pos, collected_all (Nat.not_lt.mp hlast)]
        right
        rw [total]
        split <;> omega

/-- One page is all there is. -/
theorem fetchPages_of_one_page (h : server.list.length ≤ pageSize) :
    peers server.send 1 = some (.ok (contactsOf server.list)) := by
  have hdata : server.data 1 = server.list := by
    rw [data]
    split
    · rfl
    · rw [chunk, Nat.sub_self, Nat.zero_mul, List.drop_zero, List.take_of_length_le h]
  have hlength := contactsOf_length server.identified
  rw [peers, fetchPages_succ, List.nil_append, hdata, if_pos]
  right
  rw [total, hlength]
  split <;> omega

/-- What a round has collected is never lost. -/
theorem fetchPages_grows {rounds current : Nat} {contacts result : List ContactEntry}
    (h : fetchPages server.send rounds current contacts = some (.ok result)) :
    contacts.length + (server.data current).length ≤ result.length := by
  induction rounds generalizing current contacts with
  | zero => cases h
  | succ rounds ih =>
      have hlength := contactsOf_length (server.data_identified current)
      rw [fetchPages_succ] at h
      split at h
      · cases h
        rw [List.length_append, hlength]
      · have hnext := ih h
        rw [List.length_append, hlength] at hnext
        omega

/-- With the whole list in an answer, there is more than the list at the end. -/
theorem not_whole_of_complete {rounds before : Nat} {result : List ContactEntry}
    (hlong : pageSize < server.list.length)
    (h : fetchPages server.send rounds (before + 1) (server.collected (before * pageSize)) =
      some (.ok result)) (hresult : result.length = server.list.length) :
    (server.replies (before + 1)).whole = false := by
  by_contra hwhole
  rw [Bool.not_eq_false] at hwhole
  have hlength := contactsOf_length server.identified
  have hgrows := fetchPages_grows h
  rw [collected_length, data_whole hwhole] at hgrows
  obtain rfl : before = 0 := by
    simp only [pageSize] at *
    omega
  cases rounds with
  | zero => cases h
  | succ rounds =>
      rw [fetchPages_succ, data_whole hwhole, if_neg] at h
      · have hnext := fetchPages_grows h
        have hsecond : 0 < (server.data (0 + 1 + 1)).length := data_ne_nil (by simpa using hlong)
        rw [List.length_append, hlength, collected_length] at hnext
        omega
      · rw [List.length_append, hlength, collected_length, total]
        split <;> simp <;> omega

theorem tellsTotal_of_complete {rounds before : Nat} {result : List ContactEntry}
    (hpage : (server.replies (before + 1)).whole = false)
    (h : fetchPages server.send (rounds + 1) (before + 1) (server.collected (before * pageSize)) =
      some (.ok result)) (hresult : result.length = server.list.length)
    (hlast : (before + 1) * pageSize < server.list.length) :
    (server.replies (before + 1)).tellsTotal := by
  by_contra hnone
  have hlength := server.collected_length ((before + 1) * pageSize)
  rw [fetchPages_succ, collected_page hpage, total, if_neg hnone, if_pos (by omega)] at h
  cases h
  omega

theorem inPages_of_complete {rounds before : Nat} {result : List ContactEntry}
    (hlong : pageSize < server.list.length)
    (h : fetchPages server.send rounds (before + 1) (server.collected (before * pageSize)) =
      some (.ok result)) (hresult : result.length = server.list.length)
    {current : Nat} (hcurrent : before < current)
    (hmore : (current - 1) * pageSize < server.list.length) :
    (server.replies current).whole = false ∧
      (current * pageSize < server.list.length → (server.replies current).tellsTotal) := by
  induction rounds generalizing before with
  | zero => cases h
  | succ rounds ih =>
      have hpage := not_whole_of_complete hlong h hresult
      have htotal := tellsTotal_of_complete hpage h hresult
      rcases Nat.eq_or_lt_of_le hcurrent with rfl | hlater
      · exact ⟨hpage, htotal⟩
      have hlast : (before + 1) * pageSize < server.list.length :=
        (Nat.mul_le_mul_right pageSize (by omega)).trans_lt hmore
      have hfull : (server.data (before + 1)).length = pageSize := by
        rw [data_page hpage, chunk, List.length_take, List.length_drop, Nat.add_sub_cancel]
        simp only [pageSize] at hlast ⊢
        omega
      rw [fetchPages_succ, collected_page hpage, total, if_pos (htotal hlast),
        if_neg (by omega)] at h
      exact ih h hlater

/-- A list of more than one page that always comes whole, without the number of its entries,
is fetched forever. -/
theorem fetchPages_endless (hlong : pageSize < server.list.length)
    (hreplies : ∀ current, (server.replies current).whole = true ∧
      ¬ (server.replies current).tellsTotal) (rounds : Nat) {before : Nat}
    {contacts : List ContactEntry} (h : contacts.length = before * server.list.length) :
    fetchPages server.send rounds (before + 1) contacts = none := by
  induction rounds generalizing before contacts with
  | zero => rfl
  | succ rounds ih =>
      obtain ⟨hwhole, hnone⟩ := hreplies (before + 1)
      have hlength : (contacts ++ contactsOf server.list).length =
          (before + 1) * server.list.length := by
        rw [List.length_append, h, contactsOf_length server.identified, Nat.add_mul, Nat.one_mul]
      have hless : (before + 1) * pageSize < (before + 1) * server.list.length :=
        Nat.mul_lt_mul_of_pos_left hlong (Nat.succ_pos before)
      rw [fetchPages_succ, data_whole hwhole, total, if_neg hnone, hlength, if_neg (by omega)]
      exact ih hlength

/-- All entries come, each once and in order, if there is one page or the answers are pages
that tell the number of entries, and in no other case. -/
theorem peers_complete_iff (server : PeerServer) :
    (∃ rounds, peers server.send rounds = some (.ok (contactsOf server.list))) ↔
      server.list.length ≤ pageSize ∨ server.InPages := by
  constructor
  · rintro ⟨rounds, h⟩
    by_cases hshort : server.list.length ≤ pageSize
    · exact .inl hshort
    · right
      intro current hcurrent hmore
      have hstart : server.collected (0 * pageSize) = [] := by simp [collected, contactsOf]
      rw [peers, ← hstart] at h
      exact inPages_of_complete (Nat.not_le.mp hshort) h (contactsOf_length server.identified)
        hcurrent hmore
  · rintro (hshort | hpages)
    · exact ⟨1, fetchPages_of_one_page hshort⟩
    · by_cases hshort : server.list.length ≤ pageSize
      · exact ⟨1, fetchPages_of_one_page hshort⟩
      · refine ⟨server.list.length, ?_⟩
        have hstart : server.collected (0 * pageSize) = [] := by simp [collected, contactsOf]
        rw [peers, ← hstart]
        apply fetchPages_of_inPages hpages
        · omega
        · simp only [pageSize]
          omega

def thirtyOne (reply : Reply) : PeerServer where
  list := (List.range 31).map fun i => .object [("id", .number (.posInt (UInt64.ofNat i)))]
  replies _ := reply
  identified := by decide +kernel
  distinct := by decide +kernel
  fits := by decide

/-- The whole list as an array never ends, and pages without the number of entries end with
the first one. -/
theorem peers_incomplete :
    (∀ rounds, peers (thirtyOne ⟨true, .bareArray⟩).send rounds = none) ∧
      peers (thirtyOne ⟨false, .object false⟩).send 1 =
        some (.ok (contactsOf ((thirtyOne ⟨false, .object false⟩).list.take 30))) := by
  constructor
  · intro rounds
    have hnone : ¬ (Reply.mk true .bareArray).tellsTotal := by decide
    exact fetchPages_endless (by decide) (fun _ => ⟨rfl, hnone⟩) rounds (by rfl)
  · have hdata : (thirtyOne ⟨false, .object false⟩).data 1 =
        (thirtyOne ⟨false, .object false⟩).list.take 30 := rfl
    rw [peers, fetchPages_succ, List.nil_append, hdata]
    rfl

end PeerServer

end EvertyDesk.Ui
