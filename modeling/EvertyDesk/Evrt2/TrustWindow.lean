import EvertyDesk.Evrt2.CodecRace

/-!
How long NVENC is trusted. Whether EVRTCK is left out of an iteration is decided before
NVENC answers, and an answer that shows NVENC to be broken takes the trust back. The frame is
counted as a trusted one all the same.
-/

namespace EvertyDesk.Evrt2

open Evrtck

def EncodeReply.isFailed : EncodeReply → Bool
  | .failed => true
  | _ => false

namespace EncodeLoop

/-- The frame is left to NVENC because NVENC is trusted. -/
def trusts (wantH265 : Bool) (s : EncodeLoop) : Bool :=
  s.skipsEvrtckRace wantH265 && !s.forcedForH265 wantH265

/-- One is taken from a counter that is zero. -/
def Underflows (wantH265 : Bool) (s : EncodeLoop) (i : Iteration) : Prop :=
  (s.prepare i).2.trusts wantH265 = true ∧
    ((s.prepare i).2.receiveReply i.reply).1.trustNvencFramesLeft = 0

instance (wantH265 : Bool) (s : EncodeLoop) (i : Iteration) : Decidable (s.Underflows wantH265 i) :=
  inferInstanceAs (Decidable (_ ∧ _))

/-- NVENC does not break in an iteration that is left to it. -/
def HoldsOut (wantH265 : Bool) (s : EncodeLoop) (i : Iteration) : Prop :=
  (s.prepare i).2.trusts wantH265 = true → i.reply.isFailed = false

end EncodeLoop

/-- What EVRTCK makes of the next frame that it encodes. -/
def nextEncoded (zstd : Zstd) (wantH265 overflowChecks : Bool) :
    Option EncodeLoop → List Iteration → Option EvrtckPacket
  | some s, i :: iterations =>
      if (s.prepare i).2.skipsEvrtckRace wantH265 then
        nextEncoded zstd wantH265 overflowChecks
          ((runExperimentEncodeLoop zstd wantH265 overflowChecks).step (some s) i).1 iterations
      else some (s.encoded zstd i).2.1
  | _, _ => none

/-- The state after some iterations, as long as the thread runs. -/
def Reaches (zstd : Zstd) (wantH265 overflowChecks : Bool) (iterations : List Iteration)
    (s : EncodeLoop) : Prop :=
  (runExperimentEncodeLoop zstd wantH265 overflowChecks).run (some .start) iterations = some s

/-- What is to hold of the counter in a run. -/
structure TrustKept (zstd : Zstd) (wantH265 overflowChecks : Bool)
    (iterations : List Iteration) : Prop where
  bounded : ∀ before after s, iterations = before ++ after →
    Reaches zstd wantH265 overflowChecks before s → s.trustNvencFramesLeft ≤ nvencTrustWindow
  counted : ∀ before i after s, iterations = before ++ i :: after →
    Reaches zstd wantH265 overflowChecks before s → ¬ s.Underflows wantH265 i
  /-- The window ends with another resolution. -/
  resized : ∀ before i after s, iterations = before ++ i :: after →
    Reaches zstd wantH265 overflowChecks before s → 0 < s.trustNvencFramesLeft →
    (s.prepare i).2.trustNvencFramesLeft = 0 →
    ∀ packet, nextEncoded zstd wantH265 overflowChecks (some s) (i :: after) = some packet →
      packet.isKeyframe = true
  /-- The window ends in the iteration, which has used it up or found NVENC broken. -/
  ended : ∀ before i after s s', iterations = before ++ i :: after →
    Reaches zstd wantH265 overflowChecks before s →
    0 < (s.prepare i).2.trustNvencFramesLeft →
    Reaches zstd wantH265 overflowChecks (before ++ [i]) s' → s'.trustNvencFramesLeft = 0 →
    ∀ packet, nextEncoded zstd wantH265 overflowChecks (some s') after = some packet →
      packet.isKeyframe = true

namespace EncodeLoop

section Steps

variable {zstd : Zstd} {wantH265 overflowChecks : Bool} {s s' : EncodeLoop} {i : Iteration}

/-- Trust is only in an NVENC that is there, and none is needed for H.265. -/
structure TrustHeld (wantH265 : Bool) (s : EncodeLoop) : Prop where
  bounded : s.trustNvencFramesLeft ≤ nvencTrustWindow
  held : 0 < s.trustNvencFramesLeft → s.nvenc = true ∧ wantH265 = false

theorem trusts_iff : s.trusts wantH265 = true ↔
    0 < s.trustNvencFramesLeft ∧ s.nvenc = true ∧ wantH265 = false := by
  unfold trusts skipsEvrtckRace forcedForH265
  cases wantH265 <;> cases s.nvenc <;> simp

theorem receiveReply_failed (hnvenc : s.nvenc = true) :
    s.receiveReply .failed = ({ s.distrust with nvenc := false }, none) := by
  rw [receiveReply, hnvenc]
  rfl

theorem receiveReply_answered {reply : EncodeReply} (h : reply.isFailed = false) :
    (s.receiveReply reply).1 = s := by
  unfold receiveReply
  cases reply with
  | encoded packet => exact (apply_ite Prod.fst _ _ _).trans (ite_self _)
  | buffering => exact (apply_ite Prod.fst _ _ _).trans (ite_self _)
  | failed => cases h

/-- The counter underflows exactly if NVENC breaks in an iteration that was left to it. -/
theorem not_underflows_iff : ¬ s.Underflows wantH265 i ↔ s.HoldsOut wantH265 i := by
  unfold Underflows HoldsOut
  rw [not_and]
  apply forall_congr'
  intro htrusts
  obtain ⟨hpos, hnvenc, -⟩ := trusts_iff.mp htrusts
  cases hfailed : i.reply.isFailed with
  | false =>
      rw [receiveReply_answered hfailed]
      exact ⟨fun _ => rfl, fun _ => hpos.ne'⟩
  | true =>
      cases hreply : i.reply with
      | encoded packet =>
          rw [hreply] at hfailed
          cases hfailed
      | buffering =>
          rw [hreply] at hfailed
          cases hfailed
      | failed =>
          rw [receiveReply_failed hnvenc]
          exact ⟨fun hne => absurd rfl hne, fun hfalse => absurd hfalse.symm Bool.false_ne_true⟩

/-- The trust is kept, or the resolution is another one. -/
theorem prepare_cases :
    ((s.prepare i).2.trustNvencFramesLeft = s.trustNvencFramesLeft ∧
        (s.nvenc = true → (s.prepare i).2.nvenc = true)) ∨
      ((s.prepare i).2.trustNvencFramesLeft = 0 ∧ s.keyframePending i = true) := by
  have hopen : ∀ (t : EncodeLoop) opened,
      (t.openSilicon opened).trustNvencFramesLeft = t.trustNvencFramesLeft ∧
        (t.nvenc = true → (t.openSilicon opened).nvenc = true) := by
    intro t opened
    unfold openSilicon
    split
    · exact ⟨rfl, id⟩
    · split
      · exact ⟨rfl, fun _ => rfl⟩
      · exact ⟨rfl, id⟩
      · exact ⟨rfl, id⟩
  have hencoder : ((s.encoderFor i.captured.width.toNat i.captured.height.toNat).2 = s) ∨
      ((s.encoderFor i.captured.width.toNat i.captured.height.toNat).2.trustNvencFramesLeft = 0 ∧
        s.keyframePending i = true) := by
    unfold keyframePending encoderFor
    split
    · dsimp only
      split
      · exact .inl rfl
      · exact .inr ⟨rfl, rfl⟩
    · exact .inr ⟨rfl, rfl⟩
  unfold prepare
  dsimp only
  rcases hencoder with hsame | ⟨hzero, hpending⟩
  · rw [hsame]
    exact .inl (hopen _ _)
  · exact .inr ⟨(hopen _ _).1.trans hzero, hpending⟩

theorem prepare_held (h : s.TrustHeld wantH265) : (s.prepare i).2.TrustHeld wantH265 := by
  rcases @prepare_cases s i with ⟨htrust, hnvenc⟩ | ⟨hzero, -⟩
  · constructor
    · exact htrust ▸ h.bounded
    · intro hpos
      obtain ⟨hthere, hplain⟩ := h.held (htrust ▸ hpos)
      exact ⟨hnvenc hthere, hplain⟩
  · constructor
    · rw [hzero]
      exact Nat.zero_le _
    · intro hpos
      exact absurd hzero hpos.ne'

theorem trusting_spends {e : EvrtckEncoder} {sent : Option SentFrame}
    (h : s.trusting wantH265 zstd overflowChecks e i = .ok (s', sent)) :
    ∃ e' spent, spendTrust (s.forcedForH265 wantH265) overflowChecks
        { (s.receiveReply i.reply).1 with frameId := (s.receiveReply i.reply).1.frameId + 1 } e =
          .ok (e', spent) ∧
      s'.trustNvencFramesLeft = spent.trustNvencFramesLeft ∧ s'.nvenc = spent.nvenc ∧
      s'.encoder = some e' := by
  unfold trusting at h
  obtain ⟨⟨e', spent⟩, hspend, h⟩ := Checked.returns_of_bind h
  refine ⟨e', spent, hspend, ?_⟩
  dsimp only at h
  split at h
  · obtain ⟨frame, -, h⟩ := Checked.returns_of_bind h
    cases h
    exact ⟨rfl, rfl, rfl⟩
  · cases h
    exact ⟨rfl, rfl, rfl⟩

/-- A frame that NVENC is trusted with: when the last one has been spent, EVRTCK goes on with a
key frame. -/
theorem trusting_trusted {e : EvrtckEncoder} {sent : Option SentFrame}
    (htrusts : s.trusts wantH265 = true) (hanswered : i.reply.isFailed = false)
    (h : s.trusting wantH265 zstd overflowChecks e i = .ok (s', sent)) :
    s'.trustNvencFramesLeft + 1 = s.trustNvencFramesLeft ∧ s'.nvenc = true ∧
      (s'.trustNvencFramesLeft = 0 → s'.encoder = some e.requestKeyframe) := by
  obtain ⟨hpos, hnvenc, hplain⟩ := trusts_iff.mp htrusts
  have hforced : s.forcedForH265 wantH265 = false := by rw [forcedForH265, hplain, Bool.false_and]
  obtain ⟨e', spent, hspend, htrust, hthere, hencoder⟩ := trusting_spends h
  rw [receiveReply_answered hanswered, spendTrust, hforced, if_neg Bool.false_ne_true, countDown,
    if_neg hpos.ne'] at hspend
  cases hspend
  rw [htrust, hthere, hencoder]
  refine ⟨Nat.sub_add_cancel hpos, hnvenc, ?_⟩
  intro hzero
  rw [if_pos hzero]

theorem receiveReply_none (hnone : s.trustNvencFramesLeft = 0) (reply : EncodeReply) :
    (s.receiveReply reply).1.trustNvencFramesLeft = 0 := by
  unfold receiveReply
  split
  · split
    · exact hnone
    · exact hnone
    · dsimp only
      split <;> rfl
  · exact hnone

/-- Without trust there is none afterwards. -/
theorem trusting_forced {e : EvrtckEncoder} {sent : Option SentFrame}
    (hforced : s.forcedForH265 wantH265 = true) (hnone : s.trustNvencFramesLeft = 0)
    (h : s.trusting wantH265 zstd overflowChecks e i = .ok (s', sent)) :
    s'.trustNvencFramesLeft = 0 := by
  obtain ⟨e', spent, hspend, htrust, -, -⟩ := trusting_spends h
  rw [spendTrust, hforced, if_pos rfl] at hspend
  cases hspend
  rw [htrust]
  exact receiveReply_none hnone _

theorem distrusted_held (hnone : s.trustNvencFramesLeft = 0) : s.TrustHeld wantH265 where
  bounded := hnone ▸ Nat.zero_le _
  held hpos := absurd hnone hpos.ne'

/-- Trust is gained by wins of NVENC only. -/
theorem scoreRace_held {won : Bool} (hnvenc : won = true → s.nvenc = true)
    (hplain : wantH265 = false) (hnone : s.trustNvencFramesLeft = 0) :
    (s.scoreRace won).TrustHeld wantH265 := by
  cases won with
  | false =>
      have hfew : ¬ 0 ≥ if s.nvencTrustEstablished = true then nvencTrustRenewalThreshold
          else nvencTrustThreshold := by
        cases s.nvencTrustEstablished <;> decide
      rw [scoreRace, if_neg Bool.false_ne_true, if_neg hfew]
      exact distrusted_held hnone
  | true =>
      rw [scoreRace, if_pos rfl]
      by_cases hmany : s.consecutiveNvencWins + 1 ≥ if s.nvencTrustEstablished = true then
          nvencTrustRenewalThreshold else nvencTrustThreshold
      · rw [if_pos hmany]
        exact ⟨Nat.le_refl _, fun _ => ⟨hnvenc rfl, hplain⟩⟩
      · rw [if_neg hmany]
        exact distrusted_held hnone

theorem receiveReply_some {reply : EncodeReply} {packet : NvencPacket}
    (h : (s.receiveReply reply).2 = some packet) : (s.nvenc || s.mfEncoder) = true := by
  unfold receiveReply at h
  split at h
  · assumption
  · cases h

/-- A race is run while there is no trust. -/
theorem racing_held {e : EvrtckEncoder} {isKeyframe : Bool} {sent : Option SentFrame}
    (hraces : s.skipsEvrtckRace wantH265 = false) (hheld : s.TrustHeld wantH265)
    (h : s.racing wantH265 zstd isKeyframe e i = .ok (s', sent)) : s'.TrustHeld wantH265 := by
  have hnone : s.trustNvencFramesLeft = 0 := by
    by_contra hsome
    obtain ⟨hnvenc, -⟩ := hheld.held (Nat.pos_of_ne_zero hsome)
    rw [skipsEvrtckRace, decide_eq_true (Nat.pos_of_ne_zero hsome), hnvenc, Bool.and_true,
      Bool.or_true] at hraces
    cases hraces
  have hafter := receiveReply_none hnone i.reply
  have hsilicon := @receiveReply_some s i.reply
  unfold racing at h
  cases hreceived : s.receiveReply i.reply with
  | mk received silicon =>
      rw [hreceived] at h hafter hsilicon
      cases silicon with
      | none =>
          cases h
          exact distrusted_held hafter
      | some packet =>
          have hplain : wantH265 = false := by
            have hforced := (Bool.or_eq_false_iff.mp hraces).1
            rwa [forcedForH265, hsilicon rfl, Bool.and_true] at hforced
          have hscored := fun e => @scoreRace_held wantH265 { received with
              encoder := some e
              frameId := received.frameId + 1 } (received.nvenc && i.nvencFirst)
            (fun hwon => (Bool.and_eq_true_iff.mp hwon).1) hplain hafter
          dsimp only at h
          split at h
          · obtain ⟨frame, -, h⟩ := Checked.returns_of_bind h
            cases h
            exact ⟨(hscored _).bounded, (hscored _).held⟩
          · cases h
            exact ⟨(hscored _).bounded, (hscored _).held⟩

/-- What an iteration leaves of the trust. -/
theorem iterate_held {sent : Option SentFrame} (hheld : s.TrustHeld wantH265)
    (hanswers : s.HoldsOut wantH265 i)
    (h : s.iterate wantH265 zstd overflowChecks i = .ok (s', sent)) :
    s'.TrustHeld wantH265 ∧
      (0 < (s.prepare i).2.trustNvencFramesLeft → s'.trustNvencFramesLeft = 0 →
        s'.encoder = some (s.prepare i).1.requestKeyframe) := by
  have hprepared := @prepare_held wantH265 s i hheld
  unfold iterate at h
  dsimp only at h
  split at h
  · next hskips =>
    cases hforced : (s.prepare i).2.forcedForH265 wantH265 with
    | false =>
        have htrusts : (s.prepare i).2.trusts wantH265 = true := by
          rw [trusts, hskips, hforced]
          rfl
        obtain ⟨hspent, hnvenc, hended⟩ := trusting_trusted htrusts (hanswers htrusts) h
        have hbounded := hprepared.bounded
        exact ⟨⟨by omega, fun _ => ⟨hnvenc, (trusts_iff.mp htrusts).2.2⟩⟩, fun _ => hended⟩
    | true =>
        have hnone : (s.prepare i).2.trustNvencFramesLeft = 0 := by
          by_contra hsome
          obtain ⟨-, hplain⟩ := hprepared.held (Nat.pos_of_ne_zero hsome)
          rw [forcedForH265, hplain] at hforced
          cases hforced
        exact ⟨distrusted_held (trusting_forced hforced hnone h), fun hpos => absurd hnone hpos.ne'⟩
  · next hraces =>
    have hraces := Bool.eq_false_of_not_eq_true hraces
    refine ⟨racing_held hraces hprepared h, ?_⟩
    intro hpos
    obtain ⟨hnvenc, -⟩ := hprepared.held hpos
    rw [skipsEvrtckRace, decide_eq_true hpos, hnvenc, Bool.and_true, Bool.or_true] at hraces
    cases hraces

theorem encodeInnerImpl_isKeyframe {e : EvrtckEncoder} (hpending : e.pendingKeyframe = true)
    (bgra : List UInt8) (frameId : UInt32) (wantOffsets : Bool) :
    (e.encodeInnerImpl zstd bgra frameId wantOffsets).2.1.isKeyframe = true := by
  have hflags : flagsOf (e.encodeInnerImpl zstd bgra frameId wantOffsets).2.1.data =
      flagKeyframe := by
    unfold EvrtckEncoder.encodeInnerImpl encodeFrameWithOffsets
    dsimp only [EvrtckEncoder.packet]
    rw [hpending, if_neg (by simp), if_pos rfl, if_pos rfl]
    exact flagsOf_assembled ..
  rw [EvrtckPacket.isKeyframe, ← flagsOf, hflags]
  decide

/-- A frame that EVRTCK makes while a key frame is due. -/
theorem encoded_isKeyframe (hpending : s.keyframePending i = true) :
    (s.encoded zstd i).2.1.isKeyframe = true := by
  have hprepared : (s.prepare i).1.pendingKeyframe = true := by
    rw [prepare_pending, hpending, Bool.or_true]
  exact encodeInnerImpl_isKeyframe hprepared _ _ _

/-- The encoder is asked for a key frame, or there is another one. -/
theorem keyframePending_of_requested {e : EvrtckEncoder}
    (h : s.encoder = some e.requestKeyframe) : s.keyframePending i = true := by
  rw [keyframePending, encoderFor, h]
  dsimp only
  split <;> rfl

/-- Where there is no trust left in H.264, EVRTCK makes the next frame. -/
theorem nextEncoded_untrusted (hplain : wantH265 = false)
    (hnone : (s.prepare i).2.trustNvencFramesLeft = 0) (after : List Iteration) :
    nextEncoded zstd wantH265 overflowChecks (some s) (i :: after) =
      some (s.encoded zstd i).2.1 := by
  have hraces : (s.prepare i).2.skipsEvrtckRace wantH265 = false := by
    rw [skipsEvrtckRace, forcedForH265, hplain, hnone]
    rfl
  rw [nextEncoded, hraces, if_neg Bool.false_ne_true]

end Steps

end EncodeLoop

section Runs

variable {zstd : Zstd} {wantH265 overflowChecks : Bool} {before after iterations : List Iteration}
  {i : Iteration} {s s' : EncodeLoop}

/-- NVENC does not break in the iterations of the run that are left to it. -/
def HoldsOutAlong (zstd : Zstd) (wantH265 overflowChecks : Bool) (iterations : List Iteration) :
    Prop :=
  (runExperimentEncodeLoop zstd wantH265 overflowChecks).Along
    (fun s i => ∀ running, s = some running → running.HoldsOut wantH265 i) (some .start)
    iterations

theorem step_iterate
    (h : ((runExperimentEncodeLoop zstd wantH265 overflowChecks).step (some s) i).1 = some s') :
    ∃ sent, s.iterate wantH265 zstd overflowChecks i = .ok (s', sent) := by
  dsimp only [runExperimentEncodeLoop] at h
  split at h
  · next result sent hiterate =>
    cases h
    exact ⟨sent, hiterate⟩
  · cases h

theorem reaches_held (halong : HoldsOutAlong zstd wantH265 overflowChecks before)
    (hreaches : Reaches zstd wantH265 overflowChecks before s) : s.TrustHeld wantH265 := by
  have hinvariant := (runExperimentEncodeLoop zstd wantH265 overflowChecks).invariant
    (I := fun s => ∀ running, s = some running → running.TrustHeld wantH265)
    (fun s i hheld hanswers running hstep => by
      cases s with
      | none => cases hstep
      | some s =>
          obtain ⟨sent, hiterate⟩ := step_iterate hstep
          exact (EncodeLoop.iterate_held (hheld s rfl) (hanswers s rfl) hiterate).1)
    (fun running hstart => by
      cases hstart
      exact EncodeLoop.distrusted_held rfl) halong
  exact hinvariant s hreaches

/-- Another resolution ends the window: EVRTCK encodes the same frame, as a key frame. -/
theorem resized_isKeyframe (hheld : s.TrustHeld wantH265) (hpos : 0 < s.trustNvencFramesLeft)
    (hzero : (s.prepare i).2.trustNvencFramesLeft = 0) {packet : EvrtckPacket}
    (hnext : nextEncoded zstd wantH265 overflowChecks (some s) (i :: after) = some packet) :
    packet.isKeyframe = true := by
  have hpending : s.keyframePending i = true := by
    rcases @EncodeLoop.prepare_cases s i with ⟨htrust, -⟩ | ⟨-, hpending⟩
    · exact absurd (htrust.symm.trans hzero) hpos.ne'
    · exact hpending
  rw [EncodeLoop.nextEncoded_untrusted (hheld.held hpos).2 hzero] at hnext
  cases hnext
  exact EncodeLoop.encoded_isKeyframe hpending

/-- The window is used up: EVRTCK encodes the next frame, as a key frame. -/
theorem ended_isKeyframe {sent : Option SentFrame} (hheld : s.TrustHeld wantH265)
    (hanswers : s.HoldsOut wantH265 i)
    (hiterate : s.iterate wantH265 zstd overflowChecks i = .ok (s', sent))
    (hpos : 0 < (s.prepare i).2.trustNvencFramesLeft) (hzero : s'.trustNvencFramesLeft = 0)
    {packet : EvrtckPacket}
    (hnext : nextEncoded zstd wantH265 overflowChecks (some s') after = some packet) :
    packet.isKeyframe = true := by
  have hplain := ((EncodeLoop.prepare_held hheld).held hpos).2
  have hrequested := (EncodeLoop.iterate_held hheld hanswers hiterate).2 hpos hzero
  cases after with
  | nil => cases hnext
  | cons j after =>
      have hnone : (s'.prepare j).2.trustNvencFramesLeft = 0 := by
        rcases @EncodeLoop.prepare_cases s' j with ⟨htrust, -⟩ | ⟨hnone, -⟩
        · exact htrust.trans hzero
        · exact hnone
      rw [EncodeLoop.nextEncoded_untrusted hplain hnone] at hnext
      cases hnext
      exact EncodeLoop.encoded_isKeyframe (EncodeLoop.keyframePending_of_requested hrequested)

end Runs

/-- The counter of trusted frames is sound exactly in the runs in which NVENC does not break
while it is trusted. -/
theorem trustKept_iff (zstd : Zstd) (wantH265 overflowChecks : Bool) (iterations : List Iteration) :
    TrustKept zstd wantH265 overflowChecks iterations ↔
      HoldsOutAlong zstd wantH265 overflowChecks iterations := by
  constructor
  · intro hkept
    apply ((runExperimentEncodeLoop zstd wantH265 overflowChecks).along_iff).mpr
    rintro before i after hsplit s hreaches
    exact EncodeLoop.not_underflows_iff.mp (hkept.counted before i after s hsplit hreaches)
  · intro halong
    have hat : ∀ before i after s, iterations = before ++ i :: after →
        Reaches zstd wantH265 overflowChecks before s → s.HoldsOut wantH265 i := by
      intro before i after s hsplit hreaches
      exact ((runExperimentEncodeLoop zstd wantH265 overflowChecks).along_iff.mp halong)
        before i after hsplit s hreaches
    have hheld : ∀ before after s, iterations = before ++ after →
        Reaches zstd wantH265 overflowChecks before s → s.TrustHeld wantH265 := by
      rintro before after s rfl hreaches
      exact reaches_held ((Machine.along_append _ _ _ _ _).mp halong).1 hreaches
    constructor
    · intro before after s hsplit hreaches
      exact (hheld before after s hsplit hreaches).bounded
    · intro before i after s hsplit hreaches
      exact EncodeLoop.not_underflows_iff.mpr (hat before i after s hsplit hreaches)
    · intro before i after s hsplit hreaches hpos hzero packet hnext
      exact resized_isKeyframe (hheld before _ s hsplit hreaches) hpos hzero hnext
    · intro before i after s s' hsplit hreaches hpos hreaches' hzero packet hnext
      rw [Reaches, Machine.run_append, hreaches] at hreaches'
      obtain ⟨sent, hiterate⟩ := step_iterate hreaches'
      exact ended_isKeyframe (hheld before _ s hsplit hreaches)
        (hat before i after s hsplit hreaches) hiterate hpos hzero hnext

/-- One pixel, which NVENC encodes before EVRTCK does. -/
def nvencWins : Iteration where
  captured := ⟨1, 1, [1, 2, 3, 255], by decide⟩
  region := []
  keyframeOverdue := false
  clientRequestedKeyframe := false
  opened := some .nvenc
  reply := .encoded ⟨[0, 0, 0, 1], true, (by decide : 4 < Checked.sizeLimit)⟩
  nvencFirst := true
  scheduled := true

/-- Ten races are won, and then NVENC breaks. -/
theorem brokenWhileTrusted :
    ¬ ∀ (zstd : Zstd) (wantH265 overflowChecks : Bool) (iterations : List Iteration),
      TrustKept zstd wantH265 overflowChecks iterations := by
  intro hall
  have hwrong : ((runExperimentEncodeLoop EvrtckDecoder.prefixing false true).run (some .start)
      (List.replicate 10 nvencWins)).any
        (fun s => decide (s.Underflows false { nvencWins with reply := .failed })) = true := by
    decide +kernel
  obtain ⟨s, hreaches, hunderflows⟩ := (Option.any_eq_true _ _).mp hwrong
  have hkept := hall EvrtckDecoder.prefixing false true
    (List.replicate 10 nvencWins ++ [{ nvencWins with reply := .failed }])
  exact hkept.counted _ _ _ s rfl hreaches (of_decide_eq_true hunderflows)

end EvertyDesk.Evrt2
