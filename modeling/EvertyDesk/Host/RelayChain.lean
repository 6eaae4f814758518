import EvertyDesk.Host.EncodeLoop

/-!
The delta chain on the relay. A frame that is no key frame can be decoded only
after all the frames encoded before it, back to a key frame, so these must be in
the relay's channel as well. The loop remembers a break in the chain as the wish
for a key frame, but keeps a distance between key frames, and sends deltas
meanwhile.
-/

namespace EvertyDesk.Host

/-- The frames encoded last reach back to a key frame in the relay's channel, and
all of them are in it. The last frame comes first. -/
def Whole (frames : List Encoded) : Prop :=
  ∃ since key before, frames = since ++ key :: before ∧
    key.isIdr = true ∧ key.relayed = true ∧ ∀ frame ∈ since, frame.relayed = true

/-- What is in the relay's channel can be decoded. -/
def ChainKept (frames : List Encoded) : Prop :=
  ∀ later frame earlier, frames = later ++ frame :: earlier →
    frame.relayed = true → frame.isIdr = false → Whole earlier

namespace EncodeLoop

section Reasons

variable (cfg : EncodeLoopConfig) (s : EncodeLoop) (i : Iteration)

/-- The first frame, or enough time since the last key frame. -/
def ForceOpen : Prop := s.frameId = 0 ∨ idrMinForced ≤ i.forcedAt - s.lastIdr

/-- There is a reason for a key frame that does not depend on a break in the
chain. -/
def OtherReason (f : CapturedFrame) : Prop :=
  s.recoveryDue cfg i = true ∨ s.periodicDue cfg i = true ∨
    s.changeDetector.sizeChanged f.width f.height = true ∨
    s.changeDetector.idleRefresh i.decidedAt = true ∨ s.vmSeqChanged i = true ∨
    s.nextDownscale cfg i f ≠ s.downscaleTo

/-- When a frame goes to the relay after a break in the chain, nothing keeps it
from being a key frame. -/
def RelayReady : EncodeLoopInput → Prop
  | .iterate i => ∀ f, s.toEncode cfg i = some f → i.evrtOn = false →
      sendTcpVideoFrame false i.tcpAttempts = .sent → ¬ Whole s.frames →
      s.ForceOpen i ∨ s.OtherReason cfg i f
  | _ => True

end Reasons

/-- A break in the chain is remembered, or is about to be. -/
structure Relaying (s : EncodeLoop) : Prop where
  kept : ChainKept s.frames
  armed : s.stop = false → s.wasEvrtOn = false → ¬ Whole s.frames → s.forceRecoveryKey = true

end EncodeLoop

section Chains

variable {frame : Encoded} {frames : List Encoded}

theorem whole_of_key (hkey : frame.isIdr = true) (hrelayed : frame.relayed = true) :
    Whole (frame :: frames) :=
  ⟨[], frame, frames, rfl, hkey, hrelayed, by simp⟩

theorem Whole.cons (h : Whole frames) (hrelayed : frame.relayed = true) :
    Whole (frame :: frames) := by
  obtain ⟨since, key, before, rfl, hkey, hin, hall⟩ := h
  refine ⟨frame :: since, key, before, rfl, hkey, hin, ?_⟩
  intro other hother
  rcases List.mem_cons.mp hother with rfl | hother
  · exact hrelayed
  · exact hall other hother

theorem Whole.relayed (h : Whole (frame :: frames)) : frame.relayed = true := by
  obtain ⟨since, key, before, hsplit, hkey, hin, hall⟩ := h
  cases since with
  | nil =>
      obtain ⟨rfl, rfl⟩ := List.cons.inj hsplit
      exact hin
  | cons first since =>
      obtain ⟨rfl, rfl⟩ := List.cons.inj hsplit
      exact hall frame List.mem_cons_self

theorem ChainKept.cons (h : ChainKept frames)
    (hnew : frame.relayed = true → frame.isIdr = false → Whole frames) :
    ChainKept (frame :: frames) := by
  intro later other earlier hsplit hrelayed hdelta
  cases later with
  | nil =>
      obtain ⟨rfl, rfl⟩ := List.cons.inj hsplit
      exact hnew hrelayed hdelta
  | cons first later => exact h later other earlier (List.cons.inj hsplit).2 hrelayed hdelta

end Chains

namespace EncodeLoop

section Steps

variable {cfg : EncodeLoopConfig} {s : EncodeLoop} {i : Iteration}

/-- A wish for a key frame outlives a frame for the relay, unless that is the key
frame; a frame that is lost raises it. -/
theorem dispatch_armed {isIdr : Bool} (hoff : i.evrtOn = false)
    (hstop : (s.dispatch i isIdr).stop = false) :
    (s.dispatch i isIdr).forceRecoveryKey = true ∨
      relays i isIdr = true ∧
        (isIdr = true ∨ (s.dispatch i isIdr).forceRecoveryKey = s.forceRecoveryKey) := by
  unfold dispatch at hstop ⊢
  rw [if_neg (by simp [hoff])] at hstop ⊢
  cases hsend : sendTcpVideoFrame isIdr i.tcpAttempts with
  | sent => cases isIdr <;> simp [relays, hoff, hsend]
  | dropped => exact .inl rfl
  | disconnected =>
      rw [hsend] at hstop
      cases hstop

theorem withProfile_armed (encW encH : UInt32) (h : s.forceRecoveryKey = true) :
    (s.withProfile cfg i encW encH).forceRecoveryKey = true := by
  unfold withProfile
  dsimp only
  split
  · exact h
  · split
    · exact h
    · exact Bool.or_eq_true_iff.mpr (.inl h)

/-- A wish for a key frame ends only with a key frame on the relay, and a frame
that is lost raises one. -/
theorem encode_armed {f : CapturedFrame} (hoff : i.evrtOn = false)
    (hstop : (s.encode cfg i f).stop = false) :
    (s.encode cfg i f).forceRecoveryKey = true ∨
      (s.encoded cfg i f).relayed = true ∧
        ((s.encoded cfg i f).isIdr = true ∨ s.forceRecoveryKey = false) := by
  unfold encode at hstop ⊢
  rcases dispatch_armed hoff hstop with harmed | ⟨hrelayed, hkey | hsame⟩
  · exact .inl harmed
  · exact .inr ⟨hrelayed, .inl hkey⟩
  · cases hforce : s.forceRecoveryKey with
    | false => exact .inr ⟨hrelayed, .inr rfl⟩
    | true =>
        have hencoded : (s.withEncoded cfg i f).forceRecoveryKey = true := by
          simp [withEncoded, hforce]
        exact .inl (hsame.trans (withProfile_armed _ _ hencoded))

theorem relayed_of {f : CapturedFrame} (h : (s.encoded cfg i f).relayed = true) :
    i.evrtOn = false ∧ sendTcpVideoFrame (s.wantIdr cfg i f) i.tcpAttempts = .sent := by
  have hrelays : relays i (s.wantIdr cfg i f) = true := h
  simpa [relays] using hrelays

/-- What makes a frame for the relay a key frame. -/
theorem wantIdr_of_reason {f : CapturedFrame} (hoff : i.evrtOn = false)
    (hforce : s.forceRecoveryKey = true) (hreason : s.ForceOpen i ∨ s.OtherReason cfg i f) :
    s.wantIdr cfg i f = true := by
  have hkey : s.wantIdr cfg i f = ((s.decision cfg i f).2.forceKey || s.periodicKey cfg i ||
      s.nextDownscale cfg i f != s.downscaleTo) := by
    rw [wantIdr, hoff]
    rfl
  have hdecision : (s.decision cfg i f).2.forceKey =
      (s.changeDetector.sizeChanged f.width f.height ||
        (s.periodicKey cfg i || s.vmSeqChanged i) ||
        s.changeDetector.idleRefresh i.decidedAt) := rfl
  rw [hkey, hdecision]
  rcases hreason with hopen | hrecovery | hperiodic | hsize | hidle | hvm | hscale
  · have hforced : s.forcedAllowed i = true := by
      unfold forcedAllowed
      rcases hopen with hfirst | hlate
      · simp [hforce, hfirst]
      · simp [hforce, hlate]
    simp [periodicKey, hforced]
  · simp [periodicKey, hrecovery]
  · simp [periodicKey, hperiodic]
  · simp [hsize]
  · simp [hidle]
  · simp [hvm]
  · simp [hscale]

/-- Where the chain is broken, the loop wishes for a key frame by the time it has
looked for the EVRT session. -/
theorem Relaying.observed (h : s.Relaying) (hstop : s.stop = false)
    (hoff : i.evrtOn = false) (hbroken : ¬ Whole s.frames) :
    (s.observe i).forceRecoveryKey = true := by
  have hor : (s.observe i).forceRecoveryKey = (s.forceRecoveryKey || i.evrtOn != s.wasEvrtOn) := rfl
  rw [hor, hoff]
  cases hwas : s.wasEvrtOn with
  | true => simp
  | false => simp [h.armed hstop hwas hbroken]

theorem iterate_relaying (h : s.Relaying) (hready : s.RelayReady cfg (.iterate i)) :
    (s.iterate cfg i).Relaying := by
  cases hencode : s.toEncode cfg i with
  | none =>
      rcases iterate_quiet hencode with ⟨hsame, _⟩ | hquiet
      · rw [hsame]
        exact h
      · refine ⟨hquiet.frames ▸ h.kept, ?_⟩
        intro hstop hwas hbroken
        rw [hquiet.frames] at hbroken
        rw [hquiet.wasEvrtOn] at hwas
        exact hquiet.armed (h.observed (hquiet.stop ▸ hstop) hwas hbroken)
  | some f =>
      obtain ⟨hstop, hslot, hvalid, hiterate⟩ := iterate_encodes hencode
      rw [hiterate]
      let seen : EncodeLoop := { s.observe i with capture := s.capture.take.1 }
      obtain ⟨hframes, _, _, hwas⟩ : (seen.encode cfg i f).frames =
          seen.encoded cfg i f :: s.frames ∧ _ ∧ _ ∧
          (seen.encode cfg i f).wasEvrtOn = i.evrtOn := encode_rest cfg seen i f
      have hchain : (seen.encoded cfg i f).relayed = true →
          (seen.encoded cfg i f).isIdr = false → Whole s.frames := by
        intro hrelayed hdelta
        by_contra hbroken
        obtain ⟨hoff, hsent⟩ := relayed_of hrelayed
        rw [show seen.wantIdr cfg i f = false from hdelta] at hsent
        have hforce : seen.forceRecoveryKey = true := h.observed hstop hoff hbroken
        have hreason : seen.ForceOpen i ∨ seen.OtherReason cfg i f :=
          hready f hencode hoff hsent hbroken
        exact Bool.false_ne_true (hdelta.symm.trans (wantIdr_of_reason hoff hforce hreason))
      refine ⟨?_, ?_⟩
      · rw [hframes]
        exact h.kept.cons hchain
      · intro hopen hoff hbroken
        rw [hframes] at hbroken
        rw [hwas] at hoff
        rcases encode_armed hoff hopen with harmed | ⟨hrelayed, hidr | hcalm⟩
        · exact harmed
        · exact absurd (whole_of_key hidr hrelayed) hbroken
        · have hwhole : Whole s.frames := by
            by_contra hnone
            have hforce : seen.forceRecoveryKey = true := h.observed hstop hoff hnone
            exact Bool.false_ne_true (hcalm.symm.trans hforce)
          exact absurd (hwhole.cons hrelayed) hbroken

theorem step_relaying {input : EncodeLoopInput} (h : s.Relaying)
    (hready : s.RelayReady cfg input) : ((encodeLoop cfg).step s input).1.Relaying := by
  cases input with
  | capture result => exact ⟨h.kept, h.armed⟩
  | iterate i => exact iterate_relaying h hready
  | stop => exact ⟨h.kept, fun hstop => by cases hstop⟩

theorem relaying_start (now : Nat) : (start now).Relaying := by
  refine ⟨?_, fun _ _ _ => rfl⟩
  intro later frame earlier hsplit
  simp [start] at hsplit

end Steps

end EncodeLoop

/-- What is in the relay's channel can be decoded, in every run in which no frame
goes there between a break in the chain and the key frame that mends it. -/
theorem chain_kept {cfg : EncodeLoopConfig} {now : Nat} {inputs : List EncodeLoopInput}
    (h : (encodeLoop cfg).Along (EncodeLoop.RelayReady cfg) (EncodeLoop.start now) inputs) :
    ChainKept ((encodeLoop cfg).run (EncodeLoop.start now) inputs).frames :=
  ((encodeLoop cfg).invariant (fun _ _ => EncodeLoop.step_relaying)
    (EncodeLoop.relaying_start now) h).kept

def pixelFrame (blue : UInt8) : EncodeLoopInput := .capture (.frame 1 1 [blue, 0, 0, 255] .default)

theorem chain_kept_two_frames :
    ChainKept ((encodeLoop plainConfig).run (EncodeLoop.start 0)
      [pixelFrame 1, .iterate (relayIteration 1000000 .ok), pixelFrame 2,
        .iterate (relayIteration 20000000 .ok)]).frames :=
  chain_kept ⟨trivial, fun _ _ _ _ _ => .inl (.inl rfl), trivial,
    fun _ _ _ _ hbroken => absurd (whole_of_key (by decide) (by decide)) hbroken, trivial⟩

/-- The channel is full when the second frame comes, and the third follows soon. -/
theorem lost_delta_breaks_chain :
    ¬ ∀ (cfg : EncodeLoopConfig) (now : Nat) (inputs : List EncodeLoopInput),
      ChainKept ((encodeLoop cfg).run (EncodeLoop.start now) inputs).frames := by
  intro hall
  have hwhole := hall plainConfig 0
    [pixelFrame 1, .iterate (relayIteration 1000000 .ok), pixelFrame 2,
      .iterate (relayIteration 20000000 .full), pixelFrame 3,
      .iterate (relayIteration 40000000 .ok)] [] _ _ rfl (by decide) (by decide)
  exact absurd hwhole.relayed (by decide)

end EvertyDesk.Host
