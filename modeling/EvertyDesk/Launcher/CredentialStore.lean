import EvertyDesk.Launcher.LauncherStore
import EvertyDesk.Lib.Machine
import EvertyDesk.Lib.Utf8
import Mathlib.Logic.Function.Basic

/-!
Secrets in the credential store of the platform: the passwords of remote computers, the
tokens of accounts and the permanent password. The platform keeps one secret for each
target name; whose secret it is, is in the name alone. Of an account the name keeps 200
characters, and of these only some ASCII ones.
-/

namespace EvertyDesk.Launcher

abbrev Secret := List Char

/-- The store of the platform, by target name. It does not fail. -/
abbrev CredentialPlatform := List Char → Option Secret

def remoteServicePrefix : List Char := "EvertyDesk/remote/".toList

def accountServicePrefix : List Char := "EvertyDesk/account/".toList

def localPermanentPasswordTarget : List Char := "EvertyDesk/local/permanent-password".toList

def maxPasswordBytes : Nat := 512

def maxAccountTokenBytes : Nat := 8 * 1024

inductive Credential where
  | loaded (secret : Option Secret)
  | done
  | refused (message : String)
deriving DecidableEq, Repr

namespace CredentialPlatform

def load (platform : CredentialPlatform) (target : List Char) : CredentialPlatform × Credential :=
  (platform, .loaded (platform target))

def store (platform : CredentialPlatform) (target : List Char) (secret : Secret) :
    CredentialPlatform × Credential :=
  (Function.update platform target (some secret), .done)

def delete (platform : CredentialPlatform) (target : List Char) : CredentialPlatform × Credential :=
  (Function.update platform target none, .done)

end CredentialPlatform

section Source

-- Lower case is by the tables of the Unicode standard.
variable (toLowercase : List Char → List Char)

def remoteTargetName (remoteId : List Char) : List Char := remoteServicePrefix ++ trim remoteId

def accountCharacter (character : Char) : Char :=
  if character.isAlphanum || "@._-".toList.contains character then character else '_'

/-- What is left of an account in the name of its target. -/
def normalizedAccount (account : List Char) : List Char :=
  ((toLowercase (trim account)).take 200).map accountCharacter

def accountTargetName (account : List Char) : List Char :=
  accountServicePrefix ++ normalizedAccount toLowercase account

def validateAccount (account : List Char) : Option String :=
  if trim account = [] then some "не указан аккаунт адресной книги" else none

variable (platform : CredentialPlatform)

def loadPassword (remoteId : List Char) : CredentialPlatform × Credential :=
  platform.load (remoteTargetName remoteId)

def storePassword (remoteId password : List Char) : CredentialPlatform × Credential :=
  if maxPasswordBytes < (utf8 password).length then
    (platform, .refused "пароль слишком длинный для системного хранилища")
  else platform.store (remoteTargetName remoteId) password

def deletePassword (remoteId : List Char) : CredentialPlatform × Credential :=
  platform.delete (remoteTargetName remoteId)

def loadPermanentPassword : CredentialPlatform × Credential :=
  platform.load localPermanentPasswordTarget

def storePermanentPassword (password : List Char) : CredentialPlatform × Credential :=
  if maxPasswordBytes < (utf8 password).length then
    (platform, .refused "постоянный пароль слишком длинный для системного хранилища")
  else platform.store localPermanentPasswordTarget password

def deletePermanentPassword : CredentialPlatform × Credential :=
  platform.delete localPermanentPasswordTarget

def loadAccountToken (account : List Char) : CredentialPlatform × Credential :=
  match validateAccount account with
  | some message => (platform, .refused message)
  | none => platform.load (accountTargetName toLowercase account)

def storeAccountToken (account token : List Char) : CredentialPlatform × Credential :=
  match validateAccount account with
  | some message => (platform, .refused message)
  | none =>
      if maxAccountTokenBytes < (utf8 token).length then
        (platform, .refused "токен аккаунта слишком длинный для системного хранилища")
      else platform.store (accountTargetName toLowercase account) token

def deleteAccountToken (account : List Char) : CredentialPlatform × Credential :=
  match validateAccount account with
  | some message => (platform, .refused message)
  | none => platform.delete (accountTargetName toLowercase account)

end Source

inductive CredentialCall where
  | loadPassword (remoteId : List Char)
  | storePassword (remoteId password : List Char)
  | deletePassword (remoteId : List Char)
  | loadPermanentPassword
  | storePermanentPassword (password : List Char)
  | deletePermanentPassword
  | loadAccountToken (account : List Char)
  | storeAccountToken (account token : List Char)
  | deleteAccountToken (account : List Char)
deriving DecidableEq, Repr

def credentialStep (toLowercase : List Char → List Char) (platform : CredentialPlatform) :
    CredentialCall → CredentialPlatform × Credential
  | .loadPassword remoteId => loadPassword platform remoteId
  | .storePassword remoteId password => storePassword platform remoteId password
  | .deletePassword remoteId => deletePassword platform remoteId
  | .loadPermanentPassword => loadPermanentPassword platform
  | .storePermanentPassword password => storePermanentPassword platform password
  | .deletePermanentPassword => deletePermanentPassword platform
  | .loadAccountToken account => loadAccountToken toLowercase platform account
  | .storeAccountToken account token => storeAccountToken toLowercase platform account token
  | .deleteAccountToken account => deleteAccountToken toLowercase platform account

def credentialStore (toLowercase : List Char → List Char) :
    Machine CredentialPlatform CredentialCall Credential :=
  ⟨credentialStep toLowercase⟩

/-! A cell for each identity. -/

/-- Nothing is cut off of the account in the name of its target, and nothing replaced. -/
structure PlainAccount (toLowercase : List Char → List Char) (account : List Char) : Prop where
  short : (toLowercase (trim account)).length ≤ 200
  kept : (toLowercase (trim account)).all fun character =>
    character.isAlphanum || "@._-".toList.contains character

instance (toLowercase : List Char → List Char) (account : List Char) :
    Decidable (PlainAccount toLowercase account) :=
  decidable_of_iff (_ ∧ _) ⟨fun h => ⟨h.1, h.2⟩, fun h => ⟨h.1, h.2⟩⟩

theorem PlainAccount.target {toLowercase : List Char → List Char} {account : List Char}
    (h : PlainAccount toLowercase account) :
    accountTargetName toLowercase account = accountServicePrefix ++ toLowercase (trim account) := by
  have hkept : (toLowercase (trim account)).map accountCharacter =
      (toLowercase (trim account)).map id := by
    apply List.map_congr_left
    intro character hcharacter
    exact if_pos (by simpa using List.all_eq_true.mp h.kept character hcharacter)
  rw [accountTargetName, normalizedAccount, List.take_of_length_le h.short, hkept, List.map_id]

/-- Whose secret it is: a computer's by its id, an account's by its name in lower case. -/
inductive CredentialOwner where
  | remote (remoteId : List Char)
  | account (account : List Char)
  | permanent
deriving DecidableEq, Repr

inductive CellRequest where
  | load
  | store (secret : Secret)
  | delete
  | refuse (message : String)
deriving DecidableEq, Repr

/-- One secret, kept until the next one or until it is deleted. -/
def secretCell : Machine (Option Secret) CellRequest Credential where
  step held
    | .load => (held, .loaded held)
    | .store secret => (some secret, .done)
    | .delete => (none, .done)
    | .refuse message => (held, .refused message)

namespace CredentialCall

def owner (toLowercase : List Char → List Char) : CredentialCall → CredentialOwner
  | loadPassword remoteId | storePassword remoteId _ | deletePassword remoteId =>
      .remote (trim remoteId)
  | loadPermanentPassword | storePermanentPassword _ | deletePermanentPassword => .permanent
  | loadAccountToken account | storeAccountToken account _ | deleteAccountToken account =>
      .account (toLowercase (trim account))

/-- The accounts that are named keep their names. -/
def Plain (toLowercase : List Char → List Char) : CredentialCall → Prop
  | loadAccountToken account | storeAccountToken account _ | deleteAccountToken account =>
      PlainAccount toLowercase account
  | _ => True

instance (toLowercase : List Char → List Char) : DecidablePred (Plain toLowercase)
  | loadAccountToken _ | storeAccountToken _ _ | deleteAccountToken _ =>
      inferInstanceAs (Decidable (PlainAccount _ _))
  | loadPassword _ | storePassword _ _ | deletePassword _ | loadPermanentPassword
  | storePermanentPassword _ | deletePermanentPassword => inferInstanceAs (Decidable True)

def bounded (secret : Secret) (limit : Nat) (message : String) : CellRequest :=
  if limit < (utf8 secret).length then .refuse message else .store secret

def ofAccount (account : List Char) (request : CellRequest) : CellRequest :=
  match validateAccount account with
  | some message => .refuse message
  | none => request

def request : CredentialCall → CellRequest
  | loadPassword _ | loadPermanentPassword => .load
  | deletePassword _ | deletePermanentPassword => .delete
  | storePassword _ password =>
      bounded password maxPasswordBytes "пароль слишком длинный для системного хранилища"
  | storePermanentPassword password =>
      bounded password maxPasswordBytes "постоянный пароль слишком длинный для системного хранилища"
  | loadAccountToken account => ofAccount account .load
  | storeAccountToken account token =>
      ofAccount account
        (bounded token maxAccountTokenBytes
          "токен аккаунта слишком длинный для системного хранилища")
  | deleteAccountToken account => ofAccount account .delete

end CredentialCall

/-- What the calls ask of this owner's cell. -/
def requestsOf (toLowercase : List Char → List Char) (owner : CredentialOwner)
    (calls : List CredentialCall) : List CellRequest :=
  (calls.filter fun call => call.owner toLowercase = owner).map CredentialCall.request

/-! The platform as cells. -/

def CredentialOwner.target : CredentialOwner → List Char
  | remote remoteId => remoteServicePrefix ++ remoteId
  | account name => accountServicePrefix ++ name
  | permanent => localPermanentPasswordTarget

/-- The names of different owners differ: those of two kinds in their twelfth character. -/
theorem target_injective {first second : CredentialOwner} (h : first.target = second.target) :
    first = second := by
  have hkind : first.target[11]? = second.target[11]? := congrArg (·[11]?) h
  have hremote (id : List Char) : (CredentialOwner.remote id).target[11]? = some 'r' :=
    (List.getElem?_append_left (by decide +kernel)).trans (by decide +kernel)
  have haccount (name : List Char) : (CredentialOwner.account name).target[11]? = some 'a' :=
    (List.getElem?_append_left (by decide +kernel)).trans (by decide +kernel)
  have hpermanent : CredentialOwner.permanent.target[11]? = some 'l' := by decide +kernel
  cases first with
  | remote id =>
      cases second with
      | remote other => rw [List.append_cancel_left h]
      | account other => simp [hremote, haccount] at hkind
      | permanent => simp [hremote, hpermanent] at hkind
  | account name =>
      cases second with
      | remote other => simp [hremote, haccount] at hkind
      | account other => rw [List.append_cancel_left h]
      | permanent => simp [haccount, hpermanent] at hkind
  | permanent =>
      cases second with
      | remote other => simp [hremote, hpermanent] at hkind
      | account other => simp [haccount, hpermanent] at hkind
      | permanent => rfl

section Cells

variable {toLowercase : List Char → List Char}

theorem store_bounded (platform : CredentialPlatform) (target secret : List Char) (limit : Nat)
    (message : String) :
    (if limit < (utf8 secret).length then (platform, Credential.refused message)
      else platform.store target secret) =
      (Function.update platform target
          (secretCell.step (platform target) (CredentialCall.bounded secret limit message)).1,
        (secretCell.step (platform target) (CredentialCall.bounded secret limit message)).2) := by
  rw [CredentialCall.bounded]
  split
  · simp [secretCell]
  · rfl

/-- A call is one of the cell of its owner. -/
theorem credentialStep_eq (platform : CredentialPlatform) {call : CredentialCall}
    (h : call.Plain toLowercase) :
    credentialStep toLowercase platform call =
      (Function.update platform (call.owner toLowercase).target
          (secretCell.step (platform (call.owner toLowercase).target) call.request).1,
        (secretCell.step (platform (call.owner toLowercase).target) call.request).2) := by
  cases call with
  | loadPassword remoteId => simp [credentialStep, loadPassword, CredentialPlatform.load,
      CredentialCall.owner, CredentialCall.request, CredentialOwner.target, remoteTargetName,
      secretCell]
  | storePassword remoteId password => exact store_bounded _ _ _ _ _
  | deletePassword remoteId => rfl
  | loadPermanentPassword => simp [credentialStep, loadPermanentPassword,
      CredentialPlatform.load, CredentialCall.owner, CredentialCall.request,
      CredentialOwner.target, secretCell]
  | storePermanentPassword password => exact store_bounded _ _ _ _ _
  | deletePermanentPassword => rfl
  | loadAccountToken account =>
      have htarget := PlainAccount.target h
      cases hvalid : validateAccount account <;> simp [credentialStep, loadAccountToken,
        CredentialPlatform.load, CredentialCall.owner, CredentialCall.request,
        CredentialCall.ofAccount, CredentialOwner.target, htarget, hvalid, secretCell]
  | storeAccountToken account token =>
      have htarget := PlainAccount.target h
      cases hvalid : validateAccount account with
      | some message => simp [credentialStep, storeAccountToken, CredentialCall.request,
          CredentialCall.ofAccount, hvalid, secretCell]
      | none =>
          simp only [credentialStep, storeAccountToken, CredentialCall.request,
            CredentialCall.ofAccount, hvalid, htarget]
          exact store_bounded _ _ _ _ _
  | deleteAccountToken account =>
      have htarget := PlainAccount.target h
      cases hvalid : validateAccount account <;> simp [credentialStep, deleteAccountToken,
        CredentialPlatform.delete, CredentialCall.owner, CredentialCall.request,
        CredentialCall.ofAccount, CredentialOwner.target, htarget, hvalid, secretCell]

theorem run_target (platform : CredentialPlatform) {calls : List CredentialCall}
    (h : ∀ call ∈ calls, call.Plain toLowercase) (owner : CredentialOwner) :
    (credentialStore toLowercase).run platform calls owner.target =
      secretCell.run (platform owner.target) (requestsOf toLowercase owner calls) := by
  induction calls generalizing platform with
  | nil => rfl
  | cons call calls ih =>
      rw [Machine.run_cons, ih _ fun next hnext => h next (List.mem_cons_of_mem call hnext)]
      change secretCell.run ((credentialStep toLowercase platform call).1 owner.target) _ = _
      simp only [credentialStep_eq platform (h call List.mem_cons_self)]
      by_cases hown : call.owner toLowercase = owner
      · subst hown
        rw [Function.update_self, requestsOf, requestsOf, List.filter_cons_of_pos (by simp),
          List.map_cons, Machine.run_cons]
      · rw [Function.update_of_ne fun h => hown (target_injective h).symm, requestsOf,
          requestsOf, List.filter_cons_of_neg (by simpa using hown)]

/-- Where the accounts keep their names, what a call returns depends on the earlier calls for
the same owner only, and is what these have left. -/
theorem credentials_isolated (toLowercase : List Char → List Char) (calls : List CredentialCall)
    (call : CredentialCall) (hcalls : ∀ earlier ∈ calls, earlier.Plain toLowercase)
    (hcall : call.Plain toLowercase) :
    ((credentialStore toLowercase).step ((credentialStore toLowercase).run (fun _ => none) calls)
        call).2 =
      (secretCell.step
        (secretCell.run none (requestsOf toLowercase (call.owner toLowercase) calls))
        call.request).2 := by
  change (credentialStep toLowercase _ call).2 = _
  rw [credentialStep_eq _ hcall, run_target _ hcalls]

end Cells

/-- Two accounts, a computer with the id of one of them, and the permanent password. -/
def mixedCalls : List CredentialCall :=
  [.storeAccountToken "Anna@Example.com".toList "first".toList,
    .storePassword "anna@example.com".toList "second".toList,
    .storeAccountToken "ivan_1".toList "third".toList,
    .storePermanentPassword "fourth".toList, .deleteAccountToken "IVAN_1".toList]

theorem credentials_isolated_mixed :
    let lower := List.map Char.toLower
    let call := CredentialCall.loadAccountToken " anna@example.COM".toList
    let result := ((credentialStore lower).step ((credentialStore lower).run (fun _ => none)
      mixedCalls) call).2
    result = (secretCell.step (secretCell.run none
        (requestsOf lower (call.owner lower) mixedCalls)) call.request).2 ∧
      result = .loaded (some "first".toList) :=
  ⟨credentials_isolated (List.map Char.toLower) mixedCalls _ (by decide +kernel)
    (by decide +kernel), by decide +kernel⟩

/-- Other letters than ASCII become underscores, and a name is cut off after 200 characters. -/
theorem accounts_collide :
    let long := List.replicate 200 'a'
    let lower := List.map Char.toLower
    let after := (credentialStore lower).run (fun _ => none)
      [.storeAccountToken "анна".toList "first".toList,
        .storeAccountToken (long ++ ['b']) "second".toList]
    (lower (trim "анна".toList) ≠ lower (trim "иван".toList) ∧
      ((credentialStore lower).step after (.loadAccountToken "иван".toList)).2 =
        .loaded (some "first".toList)) ∧
      lower (trim (long ++ ['b'])) ≠ lower (trim (long ++ ['c'])) ∧
        ((credentialStore lower).step after (.loadAccountToken (long ++ ['c']))).2 =
          .loaded (some "second".toList) := by
  decide +kernel

end EvertyDesk.Launcher
