import EvertyDesk.Host.MultiEncoder

/-!
The codec that a host announces before it has encoded anything, and the one that
its encoders use. Both are negotiated over the same backends and for the same
client, but the announcement starts from the codec that the client asks for, and
the encoders from the host's own setting.
-/

namespace EvertyDesk.Host

/-! The announcement. -/

def requestedCodec : PreferCodec → CodecPreference
  | .auto | .vp9 => .evrtck
  | .h264 => .h264
  | .h265 => .h265
  | .av1 => .av1
  | .vp8 => .h264

section Announcing

variable (encoderPreference : EncoderPreference) (client : ClientVideoSupport) (b : Backends)

/-- The codec setting that the EVRT session is started with. -/
def announcedCodec : CodecPreference :=
  let requested := requestedCodec client.prefer
  if requested = .evrtck then .evrtck
  else
    match negotiatedSessionCodec encoderPreference requested client b with
    | some .h265 => .h265
    | some .av1 => .av1
    | _ => .h264

/-- The codec in the session's first configuration. -/
def initialCodec : CodecLabel :=
  if client.prefer.wantsEvrtck then .evrtck
  else
    match announcedCodec encoderPreference client b with
    | .h265 => .h265
    | .av1 => .av1
    | _ => .h264

end Announcing

/-! The choice of one backend. -/

section Choice

variable {α : Type} {key : α → Nat} {entries : List α} {entry : α}

theorem maxByKey_none : maxByKey key entries = none ↔ entries = [] := by
  rw [maxByKey, List.argmax_eq_none, List.reverse_eq_nil_iff]

theorem maxByKey_mem (h : maxByKey key entries = some entry) : entry ∈ entries :=
  List.mem_reverse.mp (List.argmax_mem h)

theorem maxByKey_le (h : maxByKey key entries = some entry) {other : α}
    (hother : other ∈ entries) : key other ≤ key entry :=
  List.le_of_mem_argmax (List.mem_reverse.mpr hother) h

end Choice

section Scores

variable {client : ClientVideoSupport} {explicit : Option NvencCodec} {entry : NvencCodec × Bool}

theorem explicit_le_score (h : some entry.1 = explicit) :
    1000000 ≤ codecScore client explicit entry := by
  unfold codecScore
  rw [if_pos h]
  omega

theorem score_le_of_not_explicit (h : some entry.1 ≠ explicit) :
    codecScore client explicit entry ≤ 14200 := by
  have hrank : codecQualityRank entry.1 ≤ 4 := by cases entry.1 <;> decide
  unfold codecScore
  rw [if_neg h]
  split <;> split <;> omega

theorem preferred_le_score (h : clientPrefersCodec client.prefer entry.1 = true) :
    11000 ≤ codecScore client none entry := by
  have hrank : 1 ≤ codecQualityRank entry.1 := by cases entry.1 <;> decide
  unfold codecScore
  rw [if_pos h]
  omega

theorem score_le_of_not_preferred (h : clientPrefersCodec client.prefer entry.1 = false) :
    codecScore client none entry ≤ codecQualityRank entry.1 * 1000 + 200 := by
  unfold codecScore
  rw [if_neg (by simp), if_neg (by simp [h])]
  split <;> omega

theorem prefers_unique {prefer : PreferCodec} {codec other : NvencCodec}
    (h : clientPrefersCodec prefer codec = true)
    (hother : clientPrefersCodec prefer other = true) : other = codec := by
  cases prefer <;> cases codec <;> cases other <;> 
    first
    | rfl
    | exact absurd h (by decide)
    | exact absurd hother (by decide)

end Scores

section Backend

variable {encoderPreference : EncoderPreference} {codecPreference : CodecPreference}
  {client : ClientVideoSupport} {available : List (NvencCodec × Bool)} {want : NvencCodec}

/-- The codecs that a backend has for the client. -/
def offer (client : ClientVideoSupport) (available : List (NvencCodec × Bool)) :
    List NvencCodec := (usable client available).map Prod.fst

theorem mem_offer {codec : NvencCodec} :
    codec ∈ offer client available ↔ ∃ hardware, (codec, hardware) ∈ usable client available := by
  simp [offer]

/-- What is chosen is the best entry of those that the choice leaves. -/
theorem negotiate_eq (hsoftware : encoderPreference ≠ .software) :
    negotiateBackendCodec encoderPreference codecPreference client available =
      (maxByKey (codecScore client (explicitCodecTarget codecPreference))
        ((usable client available).filter fun entry =>
          match explicitCodecTarget codecPreference with
          | some want => entry.1 == want || entry.1 == .h264
          | none => true)).map Prod.fst := by
  unfold negotiateBackendCodec
  by_cases hempty : available.isEmpty = true
  · rw [if_pos (.inr hempty), List.isEmpty_iff.mp hempty]
    rfl
  · exact if_neg (by simp [hsoftware, hempty])

/-- An explicit choice is that codec or, failing it, H264. -/
theorem negotiate_explicit (hsoftware : encoderPreference ≠ .software)
    (hexplicit : explicitCodecTarget codecPreference = some want) :
    negotiateBackendCodec encoderPreference codecPreference client available =
      if want ∈ offer client available then some want
      else if .h264 ∈ offer client available then some .h264 else none := by
  rw [negotiate_eq hsoftware, hexplicit]
  dsimp only
  cases hbest : maxByKey (codecScore client (some want))
      ((usable client available).filter fun entry => entry.1 == want || entry.1 == .h264) with
  | none =>
      have hnone : ∀ entry ∈ usable client available, ¬ (entry.1 = want ∨ entry.1 = .h264) := by
        simpa [List.filter_eq_nil_iff] using maxByKey_none.mp hbest
      rw [if_neg, if_neg]
      · rfl
      · intro hmem
        obtain ⟨hardware, hentry⟩ := mem_offer.mp hmem
        exact hnone _ hentry (.inr rfl)
      · intro hmem
        obtain ⟨hardware, hentry⟩ := mem_offer.mp hmem
        exact hnone _ hentry (.inl rfl)
  | some best =>
      obtain ⟨husable, hnarrow⟩ := List.mem_filter.mp (maxByKey_mem hbest)
      have hcodec : best.1 = want ∨ best.1 = .h264 := by simpa using hnarrow
      have hoffered : best.1 ∈ offer client available := mem_offer.mpr ⟨best.2, husable⟩
      rw [Option.map_some]
      split
      next hwant =>
        obtain ⟨hardware, hentry⟩ := mem_offer.mp hwant
        have hnarrowed : (want, hardware) ∈ (usable client available).filter fun entry =>
            entry.1 == want || entry.1 == .h264 := List.mem_filter.mpr ⟨hentry, by simp⟩
        have hle := maxByKey_le hbest hnarrowed
        have hhigh : 1000000 ≤ codecScore client (some want) (want, hardware) :=
          explicit_le_score rfl
        by_contra hother
        have hlow : codecScore client (some want) best ≤ 14200 := by
          apply score_le_of_not_explicit
          intro hsame
          exact hother (congrArg some (Option.some.inj hsame))
        omega
      next hwant =>
        have hh264 : best.1 = .h264 := by
          rcases hcodec with hsame | hsame
          · exact absurd (hsame ▸ hoffered) hwant
          · exact hsame
        rw [if_pos (hh264 ▸ hoffered), hh264]

/-- Without an explicit choice the codec that the client prefers comes first, and
H264 only where there is nothing else. -/
theorem negotiate_auto (available : List (NvencCodec × Bool))
    (hsoftware : encoderPreference ≠ .software)
    (hexplicit : explicitCodecTarget codecPreference = none)
    (hprefers : clientPrefersCodec client.prefer want = true) :
    (offer client available = [] ∧
      negotiateBackendCodec encoderPreference codecPreference client available = none) ∨
    ∃ codec, negotiateBackendCodec encoderPreference codecPreference client available =
        some codec ∧ codec ∈ offer client available ∧
      (want ∈ offer client available → codec = want) ∧
      (codec = .h264 → want ∉ offer client available →
        ∀ other ∈ offer client available, other = .h264) := by
  rw [negotiate_eq hsoftware, hexplicit]
  dsimp only
  rw [List.filter_true]
  cases hbest : maxByKey (codecScore client none) (usable client available) with
  | none =>
      refine .inl ⟨?_, rfl⟩
      rw [offer, maxByKey_none.mp hbest, List.map_nil]
  | some best =>
      have hoffered : best.1 ∈ offer client available := mem_offer.mpr ⟨best.2, maxByKey_mem hbest⟩
      refine .inr ⟨best.1, rfl, hoffered, ?_, ?_⟩
      · intro hwant
        obtain ⟨hardware, hentry⟩ := mem_offer.mp hwant
        have hle := maxByKey_le hbest hentry
        have hhigh : 11000 ≤ codecScore client none (want, hardware) := preferred_le_score hprefers
        cases hbestPrefers : clientPrefersCodec client.prefer best.1 with
        | true => exact prefers_unique hprefers hbestPrefers
        | false =>
            have hlow := score_le_of_not_preferred hbestPrefers
            have hrank : codecQualityRank best.1 ≤ 4 := by cases best.1 <;> decide
            omega
      · intro hh264 hwant other hother
        obtain ⟨hardware, hentry⟩ := mem_offer.mp hother
        have hle := maxByKey_le hbest hentry
        have hcalm : clientPrefersCodec client.prefer best.1 = false := by
          by_contra hprefersBest
          rw [Bool.not_eq_false] at hprefersBest
          exact hwant (prefers_unique hprefers hprefersBest ▸ hoffered)
        have hlow := score_le_of_not_preferred hcalm
        rw [hh264] at hlow
        by_contra hbetter
        have hhigh : 3000 ≤ codecScore client none (other, hardware) := by
          have hrank : 3 ≤ codecQualityRank other := by
            cases other with
            | h264 => exact absurd rfl hbetter
            | h265 => decide
            | av1 => decide
          unfold codecScore
          dsimp only
          omega
        have hrank : codecQualityRank .h264 = 1 := rfl
        omega

end Backend

/-! The choice over all backends. -/

/-- The backends in the order in which they are tried. -/
def Backends.all (b : Backends) : List (List (NvencCodec × Bool)) :=
  [b.nvenc, b.onevpl, b.mf, b.videotoolbox]

/-- What each backend has for the client. -/
def offers (encoderPreference : EncoderPreference) (client : ClientVideoSupport)
    (b : Backends) : List (List NvencCodec) :=
  if encoderPreference = .software then [] else b.all.map (offer client)

/-- A backend offers the codec, and none before it offers the codec or H264. -/
def Reaches (codec : NvencCodec) : List (List NvencCodec) → Prop
  | [] => False
  | first :: rest => codec ∈ first ∨ .h264 ∉ first ∧ Reaches codec rest

/-- Asking for the codec ends with H264. -/
def Settles (codec : NvencCodec) (offers : List (List NvencCodec)) : Prop :=
  codec = .h264 ∨ ¬ Reaches codec offers

/-- The host's setting gives what the client asks for: both name the same codec, or
both end with H264; or there is no setting, and the first backend that offers
anything offers what the client asks for, or H264 alone. -/
def SettingsAgree (want : NvencCodec) (setting : CodecPreference)
    (offers : List (List NvencCodec)) : Prop :=
  match explicitCodecTarget setting with
  | some codec => codec = want ∨ Settles want offers ∧ Settles codec offers
  | none => ∀ first, offers.find? (fun offer => !offer.isEmpty) = some first →
      want ∈ first ∨ ∀ codec ∈ first, codec = .h264

section Reaching

variable {codec : NvencCodec} {offers : List (List NvencCodec)} {first : List NvencCodec}

theorem not_reaches_of_empty (h : offers.find? (fun offer => !offer.isEmpty) = none) :
    ¬ Reaches codec offers := by
  induction offers with
  | nil => exact id
  | cons offer offers ih =>
      cases offer with
      | nil =>
          rintro (hmem | ⟨_, hrest⟩)
          · cases hmem
          · exact ih h hrest
      | cons other rest => cases h

/-- The first backend that offers anything decides, if it has the codec or H264. -/
theorem reaches_iff_of_first (h : offers.find? (fun offer => !offer.isEmpty) = some first)
    (hfirst : codec ∈ first ∨ .h264 ∈ first) : Reaches codec offers ↔ codec ∈ first := by
  induction offers with
  | nil => cases h
  | cons offer offers ih =>
      cases offer with
      | nil =>
          rw [Reaches, ih h]
          simp
      | cons other rest =>
          cases h
          constructor
          · rintro (hmem | ⟨hnone, _⟩)
            · exact hmem
            · exact hfirst.resolve_right hnone
          · exact .inl

end Reaching

section Sessions

variable {encoderPreference : EncoderPreference} {codecPreference : CodecPreference}
  {client : ClientVideoSupport} {b : Backends} {want : NvencCodec}

/-- The codec of a session; without hardware it is H264. -/
def sessionCodec (encoderPreference : EncoderPreference) (codecPreference : CodecPreference)
    (client : ClientVideoSupport) (b : Backends) : NvencCodec :=
  (negotiatedSessionCodec encoderPreference codecPreference client b).getD .h264

theorem negotiatedSessionCodec_eq :
    negotiatedSessionCodec encoderPreference codecPreference client b =
      b.all.findSome? (negotiateBackendCodec encoderPreference codecPreference client) := by
  unfold negotiatedSessionCodec chooseNvencCodec chooseOnevplCodec chooseMfEncoderCodec
    chooseVideotoolboxCodec Backends.all
  simp only [List.findSome?_cons, List.findSome?_nil]
  cases negotiateBackendCodec encoderPreference codecPreference client b.nvenc with
  | some codec => rfl
  | none =>
      cases negotiateBackendCodec encoderPreference codecPreference client b.onevpl with
      | some codec => rfl
      | none =>
          cases negotiateBackendCodec encoderPreference codecPreference client b.mf with
          | some codec => rfl
          | none =>
              cases negotiateBackendCodec encoderPreference codecPreference client
                b.videotoolbox with
              | some codec => rfl
              | none => rfl

theorem negotiate_software (available : List (NvencCodec × Bool)) :
    negotiateBackendCodec .software codecPreference client available = none := by
  unfold negotiateBackendCodec
  exact if_pos (.inl rfl)

theorem sessionCodec_software : sessionCodec .software codecPreference client b = .h264 := by
  rw [sessionCodec, negotiatedSessionCodec_eq, List.findSome?_eq_none_iff.mpr]
  · rfl
  · exact fun available _ => negotiate_software available

theorem findSome_explicit (client : ClientVideoSupport) (hsoftware : encoderPreference ≠ .software)
    (hexplicit : explicitCodecTarget codecPreference = some want)
    (backends : List (List (NvencCodec × Bool))) :
    (Reaches want (backends.map (offer client)) →
      (backends.findSome? (negotiateBackendCodec encoderPreference codecPreference
        client)).getD .h264 = want) ∧
    (¬ Reaches want (backends.map (offer client)) →
      (backends.findSome? (negotiateBackendCodec encoderPreference codecPreference
        client)).getD .h264 = .h264) := by
  induction backends with
  | nil => exact ⟨False.elim, fun _ => rfl⟩
  | cons available backends ih =>
      rw [List.findSome?_cons, negotiate_explicit hsoftware hexplicit, List.map_cons, Reaches]
      by_cases hwant : want ∈ offer client available
      · simp [hwant]
      · by_cases hh264 : .h264 ∈ offer client available
        · simp [hwant, hh264]
        · simpa [hwant, hh264] using ih

/-- An explicit choice gives its codec unless it ends with H264. -/
theorem session_explicit (encoderPreference : EncoderPreference)
    (client : ClientVideoSupport) (b : Backends)
    (hexplicit : explicitCodecTarget codecPreference = some want) :
    (¬ Settles want (offers encoderPreference client b) →
      sessionCodec encoderPreference codecPreference client b = want) ∧
    (Settles want (offers encoderPreference client b) →
      sessionCodec encoderPreference codecPreference client b = .h264) := by
  by_cases hsoftware : encoderPreference = .software
  · subst hsoftware
    refine ⟨fun hsettles => absurd (.inr id) hsettles, fun _ => sessionCodec_software⟩
  · rw [offers, if_neg hsoftware, sessionCodec, negotiatedSessionCodec_eq]
    obtain ⟨hreached, hmissed⟩ := findSome_explicit client hsoftware hexplicit b.all
    refine ⟨?_, ?_⟩
    · intro hsettles
      apply hreached
      by_contra hnot
      exact hsettles (.inr hnot)
    · rintro (rfl | hnot)
      · by_cases h : Reaches .h264 (b.all.map (offer client))
        · exact hreached h
        · exact hmissed h
      · exact hmissed hnot

/-- Without an explicit choice, the first backend that offers anything decides. -/
theorem findSome_auto (hsoftware : encoderPreference ≠ .software)
    (hexplicit : explicitCodecTarget codecPreference = none)
    (hprefers : clientPrefersCodec client.prefer want = true)
    (backends : List (List (NvencCodec × Bool))) {codec : NvencCodec}
    (hcodec : (backends.findSome? (negotiateBackendCodec encoderPreference codecPreference
      client)).getD .h264 = codec) :
    ((backends.map (offer client)).find? (fun offer => !offer.isEmpty) = none ∧ codec = .h264) ∨
    ∃ first, (backends.map (offer client)).find? (fun offer => !offer.isEmpty) = some first ∧
      codec ∈ first ∧ (want ∈ first → codec = want) ∧
      (codec = .h264 → want ∉ first → ∀ other ∈ first, other = .h264) := by
  induction backends with
  | nil => exact .inl ⟨rfl, hcodec.symm⟩
  | cons available backends ih =>
      rw [List.map_cons]
      rw [List.findSome?_cons] at hcodec
      rcases negotiate_auto available hsoftware hexplicit hprefers with
        ⟨hempty, hnone⟩ | ⟨chosen, hchosen, hmem, hwant, hh264⟩
      · rw [hnone] at hcodec
        rw [hempty, List.find?_cons_of_neg (by simp)]
        exact ih hcodec
      · rw [hchosen] at hcodec
        cases hcodec
        refine .inr ⟨offer client available, ?_, hmem, hwant, hh264⟩
        rw [List.find?_cons_of_pos]
        cases hoffer : offer client available with
        | nil =>
            rw [hoffer] at hmem
            cases hmem
        | cons first rest => rfl

theorem sessions_agree_auto (hprefers : clientPrefersCodec client.prefer want = true)
    {requested setting : CodecPreference}
    (hrequested : explicitCodecTarget requested = some want)
    (hset : explicitCodecTarget setting = none) :
    sessionCodec encoderPreference requested client b =
        sessionCodec encoderPreference setting client b ↔
      ∀ first, (offers encoderPreference client b).find? (fun offer => !offer.isEmpty) =
        some first → want ∈ first ∨ ∀ codec ∈ first, codec = .h264 := by
  obtain ⟨hreached, hsettled⟩ := session_explicit encoderPreference client b hrequested
  by_cases hsoftware : encoderPreference = .software
  · subst hsoftware
    rw [sessionCodec_software, sessionCodec_software]
    simp [offers]
  · have hoffers : offers encoderPreference client b = b.all.map (offer client) := by
      rw [offers, if_neg hsoftware]
    rcases findSome_auto hsoftware hset hprefers b.all rfl with
      ⟨hempty, hh264⟩ | ⟨first, hfirst, hmem, hwant, hh264⟩
    · rw [← hoffers] at hempty
      have hrequest : sessionCodec encoderPreference requested client b = .h264 :=
        hsettled (.inr (not_reaches_of_empty hempty))
      rw [hrequest, sessionCodec, negotiatedSessionCodec_eq, hh264, hempty]
      simp
    · rw [← hoffers] at hfirst
      rw [← negotiatedSessionCodec_eq, ← sessionCodec] at hmem hwant hh264
      constructor
      · intro hsame other hother
        cases hfirst.symm.trans hother
        by_cases hin : want ∈ first
        · exact .inl hin
        · right
          apply hh264 _ hin
          by_cases hsettles : Settles want (offers encoderPreference client b)
          · exact hsame.symm.trans (hsettled hsettles)
          · exact absurd (hreached hsettles ▸ hsame ▸ hmem) hin
      · intro hagree
        rcases hagree first hfirst with hin | honly
        · rw [hwant hin]
          by_cases hsettles : Settles want (offers encoderPreference client b)
          · rcases hsettles with hsame | hnot
            · rw [hsettled (.inl hsame), hsame]
            · exact absurd ((reaches_iff_of_first hfirst (.inl hin)).mpr hin) hnot
          · exact hreached hsettles
        · rw [honly _ hmem]
          apply hsettled
          by_cases hin : want ∈ first
          · exact .inl (honly want hin)
          · refine .inr fun hreaches => hin ?_
            exact (reaches_iff_of_first hfirst (.inr (honly _ hmem ▸ hmem))).mp hreaches

/-- The negotiation for the client's codec and that for the setting agree exactly
when the settings do. -/
theorem sessions_agree (hprefers : clientPrefersCodec client.prefer want = true)
    {requested setting : CodecPreference}
    (hrequested : explicitCodecTarget requested = some want) :
    sessionCodec encoderPreference requested client b =
        sessionCodec encoderPreference setting client b ↔
      SettingsAgree want setting (offers encoderPreference client b) := by
  obtain ⟨hreached, hsettled⟩ := session_explicit encoderPreference client b hrequested
  cases hset : explicitCodecTarget setting with
  | some codec =>
      obtain ⟨hreached', hsettled'⟩ := session_explicit encoderPreference client b hset
      rw [SettingsAgree, hset]
      constructor
      · intro hsame
        by_cases hwant : Settles want (offers encoderPreference client b)
        · refine .inr ⟨hwant, ?_⟩
          by_contra hcodec
          rw [hsettled hwant, hreached' hcodec] at hsame
          exact hcodec (.inl hsame.symm)
        · by_cases hcodec : Settles codec (offers encoderPreference client b)
          · rw [hreached hwant, hsettled' hcodec] at hsame
            exact absurd (.inl hsame) hwant
          · rw [hreached hwant, hreached' hcodec] at hsame
            exact .inl hsame.symm
      · rintro (rfl | ⟨hwant, hcodec⟩)
        · by_cases hwant : Settles codec (offers encoderPreference client b)
          · rw [hsettled hwant, hsettled' hwant]
          · rw [hreached hwant, hreached' hwant]
        · rw [hsettled hwant, hsettled' hcodec]
  | none =>
      rw [SettingsAgree, hset]
      exact sessions_agree_auto hprefers hrequested hset

end Sessions

/-! The encoders. -/

/-- No backend reports an error, and the software encoder has a packet. -/
def NoFailure (call : EncodeCall) : Prop :=
  call.nvenc ≠ .failed ∧ call.onevpl ≠ .failed ∧ call.mf ≠ .failed ∧
    call.videotoolbox ≠ .failed ∧ call.openh264.isSome = true

namespace MultiEncoder

/-- The codec of the first backend that has one. -/
def desired (m : MultiEncoder) : NvencCodec :=
  (m.desiredNv.or (m.desiredVpl.or (m.desiredMf.or m.desiredVt))).getD .h264

def Enabled (m : MultiEncoder) : Prop :=
  m.nvDisabled = false ∧ m.vplDisabled = false ∧ m.mfDisabled = false ∧ m.vtDisabled = false

end MultiEncoder

section Encoders

variable {m : MultiEncoder} {call : EncodeCall}

theorem turn_none (result : BackendResult) (spsPps : Option (List UInt8)) :
    turn none false result spsPps = .left false := rfl

/-- A backend that has a codec and does not fail takes the frame. -/
theorem turn_some (codec : NvencCodec) {result : BackendResult} (hresult : result ≠ .failed)
    (spsPps : Option (List UInt8)) :
    ∃ output, turn (some codec) false result spsPps = .taken output ∧
      ∀ out, output = some out → out.codec = codecLabel codec := by
  cases result with
  | packet packet =>
      refine ⟨_, rfl, ?_⟩
      rintro out ⟨⟩
      rfl
  | pending => exact ⟨none, rfl, nofun⟩
  | failed => exact absurd rfl hresult

/-- Without a failure the encoders stay as they are, and what they put out is of
the first backend's codec. -/
theorem encode_desired (henabled : m.Enabled) (hcall : NoFailure call) :
    (m.encode call).1 = m ∧
      ∀ out, (m.encode call).2 = some out → out.codec = codecLabel m.desired := by
  obtain ⟨hnv, hvpl, hmf, hvt⟩ := henabled
  obtain ⟨hnvenc, honevpl, hmedia, htoolbox, hsoftware⟩ := hcall
  obtain ⟨desiredNv, desiredVpl, desiredMf, desiredVt, nvDisabled, vplDisabled, mfDisabled,
    vtDisabled⟩ := m
  dsimp only at hnv hvpl hmf hvt
  subst hnv hvpl hmf hvt
  unfold MultiEncoder.encode
  dsimp only
  cases desiredNv with
  | some codec =>
      obtain ⟨output, hturn, hcodec⟩ := turn_some codec hnvenc none
      rw [hturn]
      exact ⟨rfl, hcodec⟩
  | none =>
      rw [turn_none]
      cases desiredVpl with
      | some codec =>
          obtain ⟨output, hturn, hcodec⟩ := turn_some codec honevpl none
          dsimp only
          rw [hturn]
          exact ⟨rfl, hcodec⟩
      | none =>
          dsimp only
          rw [turn_none]
          cases desiredMf with
          | some codec =>
              obtain ⟨output, hturn, hcodec⟩ := turn_some codec hmedia call.mfCodecConfig
              dsimp only
              rw [hturn]
              exact ⟨rfl, hcodec⟩
          | none =>
              dsimp only
              rw [turn_none]
              cases desiredVt with
              | some codec =>
                  obtain ⟨output, hturn, hcodec⟩ := turn_some codec htoolbox none
                  dsimp only
                  rw [hturn]
                  exact ⟨rfl, hcodec⟩
              | none =>
                  dsimp only
                  rw [turn_none]
                  refine ⟨rfl, ?_⟩
                  intro out hout
                  obtain ⟨packet, hpacket⟩ := Option.isSome_iff_exists.mp hsoftware
                  dsimp only [MultiEncoder.encodeSoftware] at hout
                  rw [hpacket] at hout
                  cases hout
                  rfl

theorem outputs_desired {calls : List EncodeCall} (henabled : m.Enabled)
    (hcalls : ∀ call ∈ calls, NoFailure call) :
    ∀ output ∈ multiEncoder.outputs m calls, ∀ out, output = some out →
      out.codec = codecLabel m.desired := by
  induction calls with
  | nil => simp
  | cons call calls ih =>
      obtain ⟨hsame, hcodec⟩ := encode_desired henabled (hcalls call List.mem_cons_self)
      have hrest := ih fun other hother => hcalls other (List.mem_cons_of_mem _ hother)
      have hstep : (multiEncoder.step m call).1 = m := hsame
      rw [Machine.outputs_cons, hstep]
      intro output houtput
      rcases List.mem_cons.mp houtput with rfl | houtput
      · exact hcodec
      · exact hrest output houtput

end Encoders

section Announced

variable {encoderPreference : EncoderPreference} {setting : CodecPreference}
  {client : ClientVideoSupport} {b : Backends} {want : NvencCodec}

theorem codecLabel_injective {codec other : NvencCodec}
    (h : codecLabel codec = codecLabel other) : codec = other := by
  cases codec <;> cases other <;> first | rfl | cases h

theorem desired_new :
    (MultiEncoder.new encoderPreference setting client b).desired =
      sessionCodec encoderPreference setting client b := rfl

theorem initialCodec_eq (hprefers : clientPrefersCodec client.prefer want = true) :
    initialCodec encoderPreference client b =
      codecLabel (sessionCodec encoderPreference (requestedCodec client.prefer) client b) := by
  have hasked : requestedCodec client.prefer ≠ .evrtck ∧ client.prefer.wantsEvrtck = false := by
    cases hprefer : client.prefer with
    | h264 => exact ⟨nofun, rfl⟩
    | h265 => exact ⟨nofun, rfl⟩
    | av1 => exact ⟨nofun, rfl⟩
    | auto =>
        rw [hprefer] at hprefers
        cases hprefers
    | vp9 =>
        rw [hprefer] at hprefers
        cases hprefers
    | vp8 =>
        rw [hprefer] at hprefers
        cases hprefers
  unfold initialCodec announcedCodec sessionCodec
  rw [if_neg (by simp [hasked.2]), if_neg hasked.1]
  cases negotiatedSessionCodec encoderPreference (requestedCodec client.prefer) client b with
  | none => rfl
  | some codec => cases codec <;> rfl

theorem explicit_of_prefers (hprefers : clientPrefersCodec client.prefer want = true) :
    explicitCodecTarget (requestedCodec client.prefer) = some want := by
  cases hprefer : client.prefer <;> rw [hprefer] at hprefers <;> cases want <;>
    first | rfl | exact absurd hprefers (by decide)

/-- The codec announced is the codec of the first frame exactly when the host's
setting gives what the client asks for. -/
theorem announced_iff (hprefers : clientPrefersCodec client.prefer want = true)
    {calls : List EncodeCall} (hcalls : ∀ call ∈ calls, NoFailure call)
    {out : EncodedOutput}
    (hfirst : ((multiEncoder.outputs (MultiEncoder.new encoderPreference setting client b)
      calls).filterMap id).head? = some out) :
    initialCodec encoderPreference client b = out.codec ↔
      SettingsAgree want setting (offers encoderPreference client b) := by
  have hmem : some out ∈ multiEncoder.outputs
      (MultiEncoder.new encoderPreference setting client b) calls := by
    obtain ⟨output, houtput, hsame⟩ := List.mem_filterMap.mp (List.mem_of_head? hfirst)
    rw [id] at hsame
    exact hsame ▸ houtput
  have hcodec : out.codec = codecLabel (sessionCodec encoderPreference setting client b) := by
    rw [← desired_new]
    exact outputs_desired ⟨rfl, rfl, rfl, rfl⟩ hcalls (some out) hmem out rfl
  rw [initialCodec_eq hprefers, hcodec, ← sessions_agree hprefers (explicit_of_prefers hprefers)]
  exact ⟨codecLabel_injective, congrArg codecLabel⟩

end Announced

/-- A machine with an NVIDIA card for H264 and H265. -/
def nvidiaOnly : Backends where
  nvencEncoderCodecs := [.h264, .h265]
  onevplEncoderCodecs := []
  mfEncoderCodecs := []
  mfHardware := fun _ => false
  videotoolboxCodecs := []

/-- A client that asks for H265 and decodes H264 as well. -/
def h265Client : ClientVideoSupport where
  h264 := true
  h265 := true
  av1 := false
  prefer := .h265

/-- The first key frame, which the card encodes. -/
def cardCall : EncodeCall where
  nvenc := .packet { bytes := [], key := true }
  onevpl := .pending
  mf := .pending
  mfCodecConfig := none
  videotoolbox := .pending
  openh264 := some { bytes := [], key := true }
  png := []
  forceKey := true

theorem announced_iff_without_setting :
    initialCodec .auto h265Client nvidiaOnly = .h265 ↔
      SettingsAgree .h265 .evrtck (offers .auto h265Client nvidiaOnly) := by
  have hcalls : ∀ call ∈ [cardCall], NoFailure call := by
    intro call hcall
    cases List.mem_singleton.mp hcall
    exact ⟨nofun, nofun, nofun, nofun, rfl⟩
  have hfirst : ((multiEncoder.outputs (MultiEncoder.new .auto .evrtck h265Client nvidiaOnly)
      [cardCall]).filterMap id).head? =
        some { bytes := [], key := true, spsPps := none, codec := .h265 } := by decide
  exact announced_iff rfl hcalls hfirst

/-- The host's own setting is H264. -/
theorem setting_overrides_announcement :
    ¬ ∀ (encoderPreference : EncoderPreference) (setting : CodecPreference)
      (client : ClientVideoSupport) (b : Backends) (calls : List EncodeCall)
      (out : EncodedOutput),
      (∃ want, clientPrefersCodec client.prefer want = true) →
      (∀ call ∈ calls, NoFailure call) →
      ((multiEncoder.outputs (MultiEncoder.new encoderPreference setting client b)
        calls).filterMap id).head? = some out →
      initialCodec encoderPreference client b = out.codec := by
  intro hall
  have hcalls : ∀ call ∈ [cardCall], NoFailure call := by
    intro call hcall
    cases List.mem_singleton.mp hcall
    exact ⟨nofun, nofun, nofun, nofun, rfl⟩
  have hsame := hall .auto .h264 h265Client nvidiaOnly [cardCall]
    { bytes := [], key := true, spsPps := none, codec := .h264 } ⟨.h265, rfl⟩ hcalls
    (by decide)
  exact absurd hsame (by decide)

end EvertyDesk.Host
