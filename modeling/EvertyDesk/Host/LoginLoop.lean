import EvertyDesk.Evrt.Packet
import EvertyDesk.Lib.Machine
import EvertyDesk.Lib.Whitespace

/-!
The login of a relayed session: the password checks, and the loop that reads messages
until a `LoginRequest` is good enough, the host user has answered, or the peer has had
its tries.
-/

namespace EvertyDesk.Host

open Evrt

def Blank (password : String) : Prop := trim password.toList = []

instance (password : String) : Decidable (Blank password) := inferInstanceAs (Decidable (_ = _))

def cleanIdentityField (value : String) (limit : Nat) : String :=
  String.ofList (((trim value.toList).filter fun c => !isControl c).take limit)

structure LoginRequest where
  password : List UInt8
  myId : String
  myName : String
  version : String
  myPlatform : String
deriving DecidableEq

structure RemoteIdentity where
  peerId : String
  peerName : String
  platform : String
  version : String
deriving DecidableEq

def RemoteIdentity.unknown : RemoteIdentity := ⟨"Неизвестное устройство", "", "", ""⟩

def remoteIdentityFromLogin (login : LoginRequest) : RemoteIdentity :=
  let rawId := cleanIdentityField login.myId 128
  let rawName := cleanIdentityField login.myName 128
  let peerId :=
    if !rawId.isEmpty && !eqIgnoreAsciiCase rawId.toList "evertydesk-lite".toList &&
        !eqIgnoreAsciiCase rawId.toList "rustdesk".toList then rawId
    else if !rawName.isEmpty && !eqIgnoreAsciiCase rawName.toList "evertydesk lite".toList &&
        !eqIgnoreAsciiCase rawName.toList "rustdesk".toList then rawName
    else "Неизвестное устройство"
  ⟨peerId, rawName, cleanIdentityField login.myPlatform 64, cleanIdentityField login.version 32⟩

structure AccessConfig where
  localPassword : String
  permanentPassword : String
  requireConfirmation : Bool

def asBytes (text : String) : List UInt8 := text.toUTF8.data.toList

section Passwords

variable (sha : Sha256)

/-- What a client sends that knows the password. -/
def passwordHash (password salt challenge : String) : List UInt8 :=
  let h1 := sha.digest (asBytes password ++ asBytes salt)
  sha.digest (h1 ++ asBytes challenge)

def verifyPassword (received : List UInt8) (ourPassword salt challenge : String) : Bool :=
  if received.isEmpty then ourPassword.isEmpty
  else decide (received = passwordHash sha ourPassword salt challenge)

def verifyAccessPassword (received : List UInt8) (config : AccessConfig)
    (salt challenge : String) : Bool :=
  verifyPassword sha received config.localPassword salt challenge ||
    (decide (¬ Blank config.permanentPassword) &&
      verifyPassword sha received config.permanentPassword salt challenge)

theorem passwordHash_ne_nil (password salt challenge : String) :
    passwordHash sha password salt challenge ≠ [] := by
  apply List.ne_nil_of_length_pos
  rw [passwordHash, sha.digest_length]
  decide

theorem verifyAccessPassword_iff {received : List UInt8} (hreceived : received ≠ [])
    (config : AccessConfig) (salt challenge : String) :
    verifyAccessPassword sha received config salt challenge = true ↔
      received = passwordHash sha config.localPassword salt challenge ∨
        ¬ Blank config.permanentPassword ∧
          received = passwordHash sha config.permanentPassword salt challenge := by
  simp [verifyAccessPassword, verifyPassword, hreceived]

end Passwords

/-- A decrypted message of the peer. -/
inductive LoginMessage where
  | loginRequest (login : LoginRequest)
  | testDelay (time : Int) (fromClient : Bool) (lastDelay targetBitrate : UInt32)
  | other
deriving DecidableEq

inductive LoginStage where
  | reading
  /-- `ApprovalRequested` is out. -/
  | waiting (login : LoginRequest)
  | admitted (login : LoginRequest)
  | ended (reason : String)
deriving DecidableEq

structure LoginLoop where
  others : Nat
  pwAttempts : Nat
  identity : RemoteIdentity
  stage : LoginStage

/-- What comes to the loop next. Every send may fail with an error. -/
inductive LoginInput where
  | deadline
  | received (message : Except String (Option LoginMessage)) (sent : Except String Unit)
  /-- What `wait_for_approval` returns. -/
  | decision (accept : Option Bool) (sent : Except String Unit)

inductive LoginOutput where
  | approvalRequested (identity : RemoteIdentity)
  | loginError (message : String)
  | testDelay (time : Int) (fromClient : Bool) (lastDelay targetBitrate : UInt32)
deriving DecidableEq

namespace LoginLoop

def start : LoginLoop where
  others := 0
  pwAttempts := 0
  identity := .unknown
  stage := .reading

variable (s : LoginLoop)

/-- The peer may try again, but not for ever. -/
def askAgain (message : String) (sent : Except String Unit) : LoginLoop × Option LoginOutput :=
  match sent with
  | .error e => ({ s with stage := .ended e }, none)
  | .ok () =>
      let pwAttempts := s.pwAttempts + 1
      let stage := if pwAttempts > 10 then .ended "Too many wrong-password attempts" else .reading
      ({ s with pwAttempts, stage }, some (.loginError message))

def refuse (message reason : String) (sent : Except String Unit) : LoginLoop × Option LoginOutput :=
  match sent with
  | .error e => ({ s with stage := .ended e }, none)
  | .ok () => ({ s with stage := .ended reason }, some (.loginError message))

variable (sha : Sha256) (config : AccessConfig) (salt challenge peerId : String)

def handleLogin (login : LoginRequest) (sent : Except String Unit) :
    LoginLoop × Option LoginOutput :=
  let identity := remoteIdentityFromLogin login
  let s := { s with identity }
  if login.password.isEmpty then
    if config.requireConfirmation || login.password.isEmpty then
      ({ s with stage := .waiting login }, some (.approvalRequested identity))
    else s.askAgain "Empty Password" sent
  else if verifyAccessPassword sha login.password config salt challenge then
    ({ s with stage := .admitted login }, none)
  else s.askAgain "Wrong Password" sent

def handle (message : LoginMessage) (sent : Except String Unit) : LoginLoop × Option LoginOutput :=
  match message with
  | .loginRequest login => s.handleLogin sha config salt challenge login sent
  | .testDelay time _ lastDelay targetBitrate =>
      (s, match sent with
        | .ok () => some (.testDelay time false lastDelay targetBitrate)
        | .error _ => none)
  | .other =>
      let others := s.others + 1
      let stage := if others > 40 then .ended "Too many non-login messages" else .reading
      ({ s with others, stage }, none)

def step : LoginInput → LoginLoop × Option LoginOutput
  | .deadline =>
      match s.stage with
      | .reading =>
          let reason := "Login timeout: no LoginRequest from " ++ peerId ++ " in 90s"
          ({ s with stage := .ended reason }, none)
      | _ => (s, none)
  | .received message sent =>
      match s.stage with
      | .reading =>
          match message with
          | .error e => ({ s with stage := .ended ("Relay read before login: " ++ e) }, none)
          | .ok none => (s, none)
          | .ok (some message) => s.handle sha config salt challenge message sent
      | _ => (s, none)
  | .decision accept sent =>
      match s.stage with
      | .waiting login =>
          match accept with
          | some true => ({ s with stage := .admitted login }, none)
          | some false => s.refuse "Rejected" "Incoming connection rejected" sent
          | none => s.refuse "Timeout" "Incoming approval timed out" sent
      | _ => (s, none)

/-- What one step makes of the stage. -/
inductive Moves (sha : Sha256) (config : AccessConfig) (salt challenge : String) :
    LoginStage → LoginInput → LoginStage → Prop where
  | stay (stage input) : Moves sha config salt challenge stage input stage
  | leave (stage input reason) : Moves sha config salt challenge stage input (.ended reason)
  | ask (input login) (hempty : login.password = []) :
      Moves sha config salt challenge .reading input (.waiting login)
  | verified (input login) (hpassword : login.password ≠ [])
      (hverified : verifyAccessPassword sha login.password config salt challenge = true) :
      Moves sha config salt challenge .reading input (.admitted login)
  | approved (login sent) :
      Moves sha config salt challenge (.waiting login) (.decision (some true) sent)
        (.admitted login)

section Stages

variable {s} {sha config salt challenge peerId} {input : LoginInput} {login : LoginRequest}

theorem askAgain_moves (message : String) (sent : Except String Unit) :
    Moves sha config salt challenge .reading input (s.askAgain message sent).1.stage := by
  cases sent with
  | error e => exact .leave _ _ e
  | ok _ =>
      simp only [askAgain]
      split
      · exact .leave _ _ _
      · exact .stay _ _

theorem refuse_moves (stage : LoginStage) (message reason : String) (sent : Except String Unit) :
    Moves sha config salt challenge stage input (s.refuse message reason sent).1.stage := by
  cases sent with
  | error e => exact .leave _ _ e
  | ok _ => exact .leave _ _ reason

theorem handleLogin_moves (login : LoginRequest) (sent : Except String Unit) :
    Moves sha config salt challenge .reading input
      (s.handleLogin sha config salt challenge login sent).1.stage := by
  simp only [handleLogin]
  split
  · next hempty =>
    rw [hempty, Bool.or_true, if_pos rfl]
    exact .ask _ _ (List.isEmpty_iff.mp hempty)
  · next hpassword =>
    split
    · next hverified => exact .verified _ _ (by simpa using hpassword) hverified
    · exact askAgain_moves _ _

theorem handle_moves (hreading : s.stage = .reading) (message : LoginMessage)
    (sent : Except String Unit) :
    Moves sha config salt challenge .reading input
      (s.handle sha config salt challenge message sent).1.stage := by
  cases message with
  | loginRequest login => exact handleLogin_moves login sent
  | testDelay => exact hreading ▸ .stay _ _
  | other =>
      simp only [handle]
      split
      · exact .leave _ _ _
      · exact .stay _ _

theorem step_moves (s : LoginLoop) (input : LoginInput) :
    Moves sha config salt challenge s.stage input
      (s.step sha config salt challenge peerId input).1.stage := by
  cases hstage : s.stage with
  | reading =>
      cases input with
      | deadline => simpa only [step, hstage] using .leave _ _ _
      | decision => simpa only [step, hstage] using .stay _ _
      | received message sent =>
          rcases message with e | _ | message
          · simpa only [step, hstage] using .leave _ _ _
          · simpa only [step, hstage] using .stay _ _
          · simpa only [step, hstage] using handle_moves hstage message sent
  | waiting login =>
      cases input with
      | deadline => simpa only [step, hstage] using .stay _ _
      | received => simpa only [step, hstage] using .stay _ _
      | decision accept sent =>
          rcases accept with _ | _ | _
          · simpa only [step, hstage] using refuse_moves ..
          · simpa only [step, hstage] using refuse_moves ..
          · simpa only [step, hstage] using .approved login sent
  | admitted login => cases input <;> simpa only [step, hstage] using .stay _ _
  | ended reason => cases input <;> simpa only [step, hstage] using .stay _ _

end Stages

end LoginLoop

section Admission

variable (sha : Sha256) (config : AccessConfig) (salt challenge peerId : String)

def loginLoop : Machine LoginLoop LoginInput (Option LoginOutput) :=
  ⟨fun s input => s.step sha config salt challenge peerId input⟩

/-- The `LoginRequest` carries the hash of a configured password that is not blank, or it
carries none and the host user approves it with this very input. -/
def Authorised (before : List LoginInput) (input : LoginInput) (login : LoginRequest) : Prop :=
  (∃ password ∈ [config.localPassword, config.permanentPassword], ¬ Blank password ∧
      login.password = passwordHash sha password salt challenge) ∨
    (login.password = [] ∧ (∃ sent, input = .decision (some true) sent) ∧
      ((loginLoop sha config salt challenge peerId).run .start before).stage = .waiting login)

/-- Whatever the peer and the host user do, only the authorised are admitted. -/
def AdmitsAuthorised : Prop :=
  ∀ (before : List LoginInput) (input : LoginInput) (login : LoginRequest),
    ((loginLoop sha config salt challenge peerId).run .start before).stage ≠ .admitted login →
    ((loginLoop sha config salt challenge peerId).run .start (before ++ [input])).stage =
      .admitted login →
    Authorised sha config salt challenge peerId before input login

variable {sha config salt challenge peerId}

theorem run_moves (before : List LoginInput) (input : LoginInput) :
    LoginLoop.Moves sha config salt challenge
      ((loginLoop sha config salt challenge peerId).run .start before).stage input
      ((loginLoop sha config salt challenge peerId).run .start (before ++ [input])).stage := by
  rw [Machine.run_append]
  exact LoginLoop.step_moves _ input

theorem run_waiting {before : List LoginInput} {login : LoginRequest}
    (h : ((loginLoop sha config salt challenge peerId).run .start before).stage =
      .waiting login) : login.password = [] := by
  induction before using List.reverseRecOn with
  | nil => cases h
  | append_singleton before input ih =>
      have hmoves := h ▸ run_moves before input
      generalize hstage : LoginLoop.stage _ = stage at hmoves ih
      cases hmoves with
      | stay => exact ih rfl
      | ask _ _ hempty => exact hempty

/-- The two ways in. -/
theorem run_admitted {before : List LoginInput} {input : LoginInput} {login : LoginRequest}
    (hnot : ((loginLoop sha config salt challenge peerId).run .start before).stage ≠
      .admitted login)
    (h : ((loginLoop sha config salt challenge peerId).run .start (before ++ [input])).stage =
      .admitted login) :
    (login.password ≠ [] ∧ verifyAccessPassword sha login.password config salt challenge = true) ∨
      (∃ sent, input = .decision (some true) sent) ∧
        ((loginLoop sha config salt challenge peerId).run .start before).stage =
          .waiting login := by
  have hmoves := h ▸ run_moves before input
  generalize hstage : LoginLoop.stage _ = stage at hmoves hnot
  cases hmoves with
  | stay => exact absurd rfl hnot
  | verified _ _ hpassword hverified => exact .inl ⟨hpassword, hverified⟩
  | approved _ sent => exact .inr ⟨⟨sent, rfl⟩, rfl⟩

/-- A peer that sends the hash of the local password is in at once. -/
theorem localHash_admitted (login : LoginRequest)
    (hlogin : login.password = passwordHash sha config.localPassword salt challenge) :
    ((loginLoop sha config salt challenge peerId).run .start
      [.received (.ok (some (.loginRequest login))) (.ok ())]).stage = .admitted login := by
  have hnonempty : login.password ≠ [] := by
    rw [hlogin]
    exact passwordHash_ne_nil sha _ _ _
  have hverified : verifyAccessPassword sha login.password config salt challenge = true :=
    (verifyAccessPassword_iff sha hnonempty config salt challenge).mpr (.inl hlogin)
  change (LoginLoop.handleLogin _ sha config salt challenge login (.ok ())).1.stage = _
  rw [LoginLoop.handleLogin, if_neg (by simpa using hnonempty), if_pos hverified]

end Admission

/-- Only those are admitted who know a password that is not blank or whom the host user
has approved, if and only if the local password is not blank (or is one that cannot be
told from the permanent one). -/
theorem admission_needs_password_or_approval (sha : Sha256) (config : AccessConfig)
    (salt challenge peerId : String) :
    AdmitsAuthorised sha config salt challenge peerId ↔
      ¬ Blank config.localPassword ∨
        (¬ Blank config.permanentPassword ∧
          passwordHash sha config.permanentPassword salt challenge =
            passwordHash sha config.localPassword salt challenge) := by
  constructor
  · intro hall
    let login : LoginRequest :=
      ⟨passwordHash sha config.localPassword salt challenge, "", "", "", ""⟩
    have hauthorised := hall [] (.received (.ok (some (.loginRequest login))) (.ok ())) login
      (by simp [LoginLoop.start]) (localHash_admitted login rfl)
    rcases hauthorised with ⟨password, hmember, hblank, hhash⟩ | ⟨hempty, -⟩
    · rcases List.mem_pair.mp hmember with rfl | rfl
      · exact .inl hblank
      · exact .inr ⟨hblank, hhash.symm⟩
    · exact absurd hempty (passwordHash_ne_nil sha _ _ _)
  · intro hcondition before input login hnot hadmitted
    rcases run_admitted hnot hadmitted with ⟨hpassword, hverified⟩ | ⟨hinput, hwaiting⟩
    · refine .inl ?_
      rcases (verifyAccessPassword_iff sha hpassword config salt challenge).mp hverified with
        hlocal | ⟨hblank, hpermanent⟩
      · rcases hcondition with hblank | ⟨hblank, hsame⟩
        · exact ⟨_, by simp, hblank, hlocal⟩
        · exact ⟨_, by simp, hblank, hlocal.trans hsame.symm⟩
      · exact ⟨_, by simp, hblank, hpermanent⟩
    · exact .inr ⟨run_waiting hwaiting, hinput, hwaiting⟩

/-- With no password at all, whoever sends the hash of the empty one is admitted, and
nobody is asked. -/
theorem no_password_admits_anyone :
    ¬ ∃ sha : Sha256, AdmitsAuthorised sha ⟨"", "", true⟩ "0123456789abcdef"
      "fedcba9876543210" "123456789" := by
  rintro ⟨sha, hall⟩
  let login : LoginRequest :=
    ⟨passwordHash sha "" "0123456789abcdef" "fedcba9876543210", "987654321", "", "", ""⟩
  rcases hall [] (.received (.ok (some (.loginRequest login))) (.ok ())) login
    (by simp [LoginLoop.start]) (localHash_admitted login rfl) with
    ⟨password, hmember, hblank, -⟩ | ⟨hempty, -⟩
  · simp only [List.mem_cons, List.not_mem_nil, or_false, or_self] at hmember
    subst hmember
    exact hblank (by decide)
  · exact passwordHash_ne_nil sha _ _ _ hempty

end EvertyDesk.Host
