import EvertyDesk.Evrt2.EncryptedSession

/-!
The nonces under which packets are encrypted. A nonce is the digest of the header, with
the flag of encryption and without the tag, so that two packets have one nonce just if they
have one header. Control packets of one type and mode differ in the reading of the clock
only, on both sides alike.
-/

namespace EvertyDesk.Evrt2

open Evrt (Sha256)

section Headers

/-- The header of an encrypted packet. -/
def PacketHeader.encrypted (header : PacketHeader) : PacketHeader :=
  { header with flags := header.flags ||| flagEncrypted }

/-- What of the header is hashed. -/
def PacketHeader.nonceInput (header : PacketHeader) : List UInt8 :=
  (header.encrypted.encode []).take authTagOffset

/-- A header before it is encrypted and signed. -/
structure PacketHeader.Plain (header : PacketHeader) : Prop where
  authTag : header.authTag = 0
  flags : header.flags &&& flagEncrypted = 0

/-- A packet with the flag set. -/
def flagged (wire : List UInt8) : List UInt8 :=
  let flags := UInt16.ofNat (beNat (field wire 6 2)) ||| flagEncrypted
  wire.take 6 ++ beBytes 2 flags.toNat ++ wire.drop 8

/-- The nonce under which a packet is encrypted. -/
def packetNonce (sha : Sha256) (wire : List UInt8) : List UInt8 :=
  deriveNonce sha ((flagged wire).take authTagOffset)

theorem encryptPayload_eq (sha : Sha256) (box : Secretbox) (encKey : SessionKey)
    {wire : List UInt8} (h : headerLen ≤ wire.length) :
    encryptPayload sha box encKey wire =
      (flagged wire).take headerLen ++
        box.secretboxEasy encKey (packetNonce sha wire) ((flagged wire).drop headerLen) := by
  have hlong : ¬ wire.length < authTagOffset := by
    rw [headerLen] at h
    rw [authTagOffset]
    omega
  rw [encryptPayload, if_neg hlong]
  rfl

theorem flagged_encode (header : PacketHeader) (payload : List UInt8) :
    flagged (header.encode payload) = header.encrypted.encode payload := by
  have hflags : UInt16.ofNat (beNat (field (header.encode payload) 6 2)) = header.flags := by
    simp [PacketHeader.encode, field_skip, field_here]
  rw [flagged, hflags]
  simp [PacketHeader.encode, PacketHeader.encrypted, PacketHeader.verType, List.take_append,
    List.drop_append, List.take_of_length_le, List.drop_eq_nil_of_le]

theorem encode_take (header : PacketHeader) (payload : List UInt8) :
    (header.encode payload).take authTagOffset ++ (beBytes 4 header.authTag.toNat ++ payload) =
      header.encode payload := by
  simp [PacketHeader.encode, authTagOffset, List.take_append, List.take_of_length_le]

theorem flagged_take (header : PacketHeader) (payload : List UInt8) :
    (flagged (header.encode payload)).take authTagOffset = header.nonceInput := by
  rw [flagged_encode, PacketHeader.nonceInput]
  simp [PacketHeader.encode, authTagOffset, List.take_append, List.take_of_length_le]

/-- The nonce does not depend on the payload. -/
theorem packetNonce_encode (sha : Sha256) (header : PacketHeader) (payload : List UInt8) :
    packetNonce sha (header.encode payload) = deriveNonce sha header.nonceInput := by
  rw [packetNonce, flagged_take]

theorem flags_eq_of_or {flags other bit : UInt16} (hflags : flags &&& bit = 0)
    (hother : other &&& bit = 0) (h : flags ||| bit = other ||| bit) : flags = other := by
  have hclear : ∀ f : UInt16, f &&& bit = 0 → (f ||| bit) ^^^ bit = f := by
    intro f hf
    apply UInt16.eq_of_toBitVec_eq
    have hf' := congrArg UInt16.toBitVec hf
    ext i hi
    have hbit := congrArg (fun v : BitVec 16 => v[i]) hf'
    simp at hbit ⊢
    grind
  rw [← hclear flags hflags, ← hclear other hother, h]

/-- Headers that are hashed alike are the same. -/
theorem nonceInput_inj {header other : PacketHeader} (hheader : header.Plain)
    (hother : other.Plain) (h : header.nonceInput = other.nonceInput) : header = other := by
  have hencode : header.encrypted.encode [] = other.encrypted.encode [] := by
    have htag : header.encrypted.authTag = other.encrypted.authTag :=
      hheader.authTag.trans hother.authTag.symm
    rw [← encode_take header.encrypted, ← encode_take other.encrypted, htag]
    exact congrArg (· ++ _) h
  have hsame := (PacketHeader.encode_inj hencode).1
  have hflags : header.flags = other.flags :=
    flags_eq_of_or hheader.flags hother.flags (congrArg PacketHeader.flags hsame)
  simp only [PacketHeader.encrypted, PacketHeader.mk.injEq] at hsame
  cases header
  cases other
  simp_all

end Headers

namespace OutgoingFrame

/-- What the headers of a frame say of the frame as a whole. -/
def label (outgoing : OutgoingFrame) : UInt32 × Mode × UInt64 × UInt16 × Bool × Bool × Bool :=
  (outgoing.frameId, outgoing.mode, outgoing.presentationTimeUs, outgoing.packetCount,
    outgoing.isKeyframe, outgoing.isSilicon, outgoing.isH265)

/-- A packet of the frame: a unit or the parity of a class. -/
def Carries (outgoing : OutgoingFrame) (fec : FecConfig) (header : PacketHeader)
    (payload : List UInt8) : Prop :=
  (∃ index < outgoing.unitCount,
    header = outgoing.dataHeader fec (outgoing.fragmentAt index) ∧ payload = outgoing.unit index) ∨
  ∃ group < divCeil outgoing.unitCount fec.n, outgoing.LastWithKey fec group ∧
    ∃ r < fec.k, header = outgoing.repairHeader fec (UInt8.ofNat group) (r % 2 ^ 8) ∧
      payload = outgoing.classParity fec group r

variable {outgoing other : OutgoingFrame} {fec : FecConfig}
variable {header : PacketHeader} {payload payload' : List UInt8}

theorem baseFlags_plain (outgoing : OutgoingFrame) (fec : FecConfig) :
    outgoing.baseFlags fec &&& flagEncrypted = 0 ∧
      (outgoing.baseFlags fec ||| flagVisibleRegion) &&& flagEncrypted = 0 ∧
      outgoing.baseFlags fec &&& ~~~flagVisibleRegion = outgoing.baseFlags fec := by
  unfold baseFlags
  cases outgoing.isKeyframe <;> cases outgoing.isSilicon <;> cases outgoing.isH265 <;>
    cases fec.isEnabled <;> decide

/-- The kind of the frame is read off the flags. -/
theorem baseFlags_kind (outgoing : OutgoingFrame) (fec : FecConfig) (flags : UInt16)
    (h : flags = outgoing.baseFlags fec ∨ flags = outgoing.baseFlags fec ||| flagVisibleRegion) :
    (flags &&& flagIsKeyframe != 0) = outgoing.isKeyframe ∧
      (flags &&& flagIsSilicon != 0) = outgoing.isSilicon ∧
      (flags &&& flagIsH265 != 0) = outgoing.isH265 := by
  unfold baseFlags at h
  rcases h with rfl | rfl <;>
    cases outgoing.isKeyframe <;> cases outgoing.isSilicon <;> cases outgoing.isH265 <;>
    cases fec.isEnabled <;> decide

theorem Carries.flags (h : outgoing.Carries fec header payload) :
    header.flags = outgoing.baseFlags fec ∨
      header.flags = outgoing.baseFlags fec ||| flagVisibleRegion := by
  rcases h with ⟨index, _, rfl, _⟩ | ⟨group, _, _, r, _, rfl, _⟩
  · simp only [dataHeader]
    split
    · exact Or.inr rfl
    · exact Or.inl rfl
  · exact Or.inl (outgoing.baseFlags_plain fec).2.2

theorem Carries.plain (h : outgoing.Carries fec header payload) : header.Plain := by
  have hflags : header.flags &&& flagEncrypted = 0 := by
    obtain ⟨hbase, hvisible, _⟩ := outgoing.baseFlags_plain fec
    rcases h.flags with hflags | hflags <;> rw [hflags] <;> assumption
  refine ⟨?_, hflags⟩
  rcases h with ⟨index, _, rfl, _⟩ | ⟨group, _, _, r, _, rfl, _⟩ <;> rfl

/-- Packets with one header are of frames with one label. -/
theorem Carries.label_eq (h : outgoing.Carries fec header payload) {fec' : FecConfig}
    (h' : other.Carries fec' header payload') : outgoing.label = other.label := by
  obtain ⟨hkey, hsilicon, hh265⟩ := outgoing.baseFlags_kind fec header.flags h.flags
  obtain ⟨hkey', hsilicon', hh265'⟩ := other.baseFlags_kind fec' header.flags h'.flags
  have hfields : ∀ {outgoing : OutgoingFrame} {fec : FecConfig} {payload : List UInt8},
      outgoing.Carries fec header payload →
      header.frameId = outgoing.frameId ∧ header.mode = outgoing.mode ∧
        header.presentationTimeUs = outgoing.presentationTimeUs ∧
        header.packetCount = outgoing.packetCount := by
    rintro outgoing fec payload (⟨index, _, rfl, _⟩ | ⟨group, _, _, r, _, rfl, _⟩) <;>
      exact ⟨rfl, rfl, rfl, rfl⟩
  obtain ⟨hid, hmode, htime, hcount⟩ := hfields h
  obtain ⟨hid', hmode', htime', hcount'⟩ := hfields h'
  simp only [label, Prod.mk.injEq]
  exact ⟨hid.symm.trans hid', hmode.symm.trans hmode', htime.symm.trans htime',
    hcount.symm.trans hcount', hkey.symm.trans hkey', hsilicon.symm.trans hsilicon',
    hh265.symm.trans hh265'⟩

/-- The last groups with their keys are told apart by the keys. -/
theorem LastWithKey.group_eq {group group' : Nat}
    (hlast : outgoing.LastWithKey fec group) (hlast' : outgoing.LastWithKey fec group')
    (hgroup : group < divCeil outgoing.unitCount fec.n)
    (hgroup' : group' < divCeil outgoing.unitCount fec.n)
    (hkey : UInt8.ofNat group = UInt8.ofNat group') : group = group' := by
  rcases Nat.lt_trichotomy group group' with hlt | heq | hlt
  · exact absurd hkey.symm (hlast group' hlt hgroup')
  · exact heq
  · exact absurd hkey (hlast' group hlt hgroup)

/-- The packets of a frame of up to 65536 units are told apart by their headers, also
beside those of a frame with the same bytes. -/
theorem Carries.payload_eq (hbytes : other.frameBytes = outgoing.frameBytes)
    (hcount : outgoing.unitCount ≤ 2 ^ 16) (hk : fec.k ≤ 2 ^ 8)
    (h : outgoing.Carries fec header payload) (h' : other.Carries fec header payload') :
    payload = payload' := by
  have hunit : other.unit = outgoing.unit := by
    funext index
    simp only [unit, hbytes]
  have hunits : other.unitCount = outgoing.unitCount := by simp only [unitCount, hbytes]
  have hlast : ∀ group, other.LastWithKey fec group ↔ outgoing.LastWithKey fec group := by
    intro group
    simp only [LastWithKey, hunits]
  have hparity : other.classParity fec = outgoing.classParity fec := by
    funext group r
    simp only [classParity, groupUnits, classUnits, classIndices, groupIndices, hunit, hunits]
  rcases h with ⟨index, hindex, rfl, rfl⟩ | ⟨group, hgroup, hlastGroup, r, hr, rfl, rfl⟩
  · rcases h' with ⟨index', hindex', hheader, rfl⟩ | ⟨_, _, _, _, _, hheader, _⟩
    · have hpacketIndex : UInt16.ofNat index = UInt16.ofNat index' :=
        congrArg PacketHeader.packetIndex hheader
      have heq : index = index' := by
        have hnat := congrArg UInt16.toNat hpacketIndex
        rw [UInt16.toNat_ofNat', UInt16.toNat_ofNat'] at hnat
        omega
      rw [hunit, heq]
    · have htype : PacketType.videoFrame = .fecRepair := congrArg PacketHeader.packetType hheader
      cases htype
  · rcases h' with ⟨_, _, hheader, _⟩ | ⟨group', hgroup', hlastGroup', r', hr', hheader, rfl⟩
    · have htype : PacketType.fecRepair = .videoFrame := congrArg PacketHeader.packetType hheader
      cases htype
    · have hkey : UInt8.ofNat group = UInt8.ofNat group' := congrArg PacketHeader.fecGroup hheader
      rw [hunits] at hgroup'
      have hsame := hlastGroup.group_eq ((hlast group').mp hlastGroup') hgroup hgroup' hkey
      have hindex : outgoing.packetCount + UInt16.ofNat (r % 2 ^ 8) =
          other.packetCount + UInt16.ofNat (r' % 2 ^ 8) :=
        congrArg PacketHeader.packetIndex hheader
      have hcounts : other.packetCount = outgoing.packetCount := by
        simp only [packetCount, fragments_length, hunits]
      rw [hcounts, UInt16.add_right_inj] at hindex
      have hr : r = r' := by
        have hnat := congrArg UInt16.toNat hindex
        rw [UInt16.toNat_ofNat', UInt16.toNat_ofNat'] at hnat
        omega
      rw [hparity, hsame, hr]

end OutgoingFrame

/-- The header of a control packet. -/
def controlHeader (packetType : PacketType) (mode : Mode) (nowUs : UInt64) : PacketHeader where
  packetType := packetType
  mode := mode
  flags := 0
  frameId := 0
  packetIndex := 0
  packetCount := 1
  presentationTimeUs := nowUs
  fecGroup := 0
  fecIdx := 0
  fecTotal := 0
  authTag := 0

/-- Control packets of one type, mode and time have one nonce, whatever they carry. -/
theorem controlPacket_nonce_eq (sha : Sha256) (packetType : PacketType) (mode : Mode)
    (nowUs : UInt64) (payload payload' : List UInt8) :
    packetNonce sha (controlPacket packetType mode nowUs payload) =
      packetNonce sha (controlPacket packetType mode nowUs payload') :=
  (packetNonce_encode sha (controlHeader packetType mode nowUs) payload).trans
    (packetNonce_encode sha (controlHeader packetType mode nowUs) payload').symm

namespace Transmission

variable {P : Type} (arith : PriorityArith P)

/-- A packet that is sent: its header and its payload. -/
def Carries (header : PacketHeader) (payload : List UInt8) : Transmission P → Prop
  | .control message mode nowUs =>
      header = controlHeader message.packetType mode nowUs ∧ payload = message.payload arith
  | .frame outgoing fec _ _ => outgoing.Carries fec header payload

/-- No control packet of this type, mode and time had another payload before, no frame of
this label had other bytes, and the frame has at most 65536 units. -/
def Fresh (earlier : List (Transmission P)) : Transmission P → Prop
  | .control message mode nowUs =>
      ∀ message', .control message' mode nowUs ∈ earlier →
        message'.packetType = message.packetType →
        message'.payload arith = message.payload arith
  | .frame outgoing _ _ _ =>
      outgoing.unitCount ≤ 2 ^ 16 ∧
        ∀ outgoing' fec' iter' hfec', .frame outgoing' fec' iter' hfec' ∈ earlier →
          outgoing'.label = outgoing.label → outgoing'.frameBytes = outgoing.frameBytes

/-- Packets of the two with one header have one payload. -/
def Agree (t t' : Transmission P) : Prop :=
  ∀ header payload payload', t.Carries arith header payload →
    t'.Carries arith header payload' → payload = payload'

variable {arith} {t t' : Transmission P} {header : PacketHeader} {payload : List UInt8}

theorem Agree.symm (h : t.Agree arith t') : t'.Agree arith t :=
  fun header payload payload' hcarries hcarries' =>
    (h header payload' payload hcarries' hcarries).symm

theorem mem_packets {wire : List UInt8} (h : wire ∈ t.packets arith) :
    ∃ header payload, t.Carries arith header payload ∧ wire = header.encode payload := by
  cases t with
  | control message mode nowUs => exact ⟨_, _, ⟨rfl, rfl⟩, List.mem_singleton.mp h⟩
  | frame outgoing fec iter hfec =>
      rcases (outgoing.mem_buildFramePackets fec iter wire).mp h with
        ⟨index, hindex, rfl⟩ | ⟨_, group, hgroup, hlast, r, hr, rfl⟩
      · exact ⟨_, _, Or.inl ⟨index, hindex, rfl, rfl⟩, rfl⟩
      · exact ⟨_, _, Or.inr ⟨group, hgroup, hlast, r, hr, rfl, rfl⟩, rfl⟩

theorem Carries.plain (h : t.Carries arith header payload) : header.Plain := by
  cases t with
  | control message mode nowUs =>
      obtain ⟨rfl, _⟩ := h
      exact ⟨rfl, show (0 : UInt16) &&& flagEncrypted = 0 by decide⟩
  | frame outgoing fec iter hfec => exact OutgoingFrame.Carries.plain h

/-- A control packet has another type than the packets of a frame. -/
theorem agree_control_frame (message : Control P) (mode : Mode) (nowUs : UInt64)
    (outgoing : OutgoingFrame) (fec : FecConfig) (iter : IterOrder UInt8)
    (hfec : fec = FecConfig.forMode outgoing.mode) :
    (control message mode nowUs).Agree arith (frame outgoing fec iter hfec) := by
  rintro header payload payload' ⟨rfl, _⟩ hframe
  have htype : message.packetType = .videoFrame ∨ message.packetType = .fecRepair := by
    rcases hframe with ⟨_, _, hheader, _⟩ | ⟨_, _, _, _, _, hheader, _⟩
    · exact Or.inl (congrArg PacketHeader.packetType hheader)
    · exact Or.inr (congrArg PacketHeader.packetType hheader)
  cases message <;> rcases htype with htype | htype <;> cases htype

theorem forMode_k_le (mode : Mode) : (FecConfig.forMode mode).k ≤ 2 ^ 8 := by
  cases mode <;> decide

/-- Frames with one label and the same bytes. -/
theorem agree_frames {outgoing outgoing' : OutgoingFrame} {fec fec' : FecConfig}
    {iter iter' : IterOrder UInt8} (hfec : fec = FecConfig.forMode outgoing.mode)
    (hfec' : fec' = FecConfig.forMode outgoing'.mode) (hcount : outgoing.unitCount ≤ 2 ^ 16)
    (hbytes : outgoing'.label = outgoing.label → outgoing'.frameBytes = outgoing.frameBytes) :
    (frame outgoing fec iter hfec).Agree arith (frame outgoing' fec' iter' hfec') := by
  intro header payload payload' hcarries hcarries'
  have hlabel := OutgoingFrame.Carries.label_eq hcarries hcarries'
  have hmode : outgoing.mode = outgoing'.mode := congrArg (fun label => label.2.1) hlabel
  have hsame : fec' = fec := by rw [hfec, hfec', hmode]
  subst hsame
  exact OutgoingFrame.Carries.payload_eq (hbytes hlabel.symm) hcount
    (hfec' ▸ forMode_k_le _) hcarries hcarries'

theorem Fresh.agree {earlier : List (Transmission P)} (h : t.Fresh arith earlier) :
    t.Agree arith t ∧ ∀ other ∈ earlier, t.Agree arith other := by
  cases t with
  | control message mode nowUs =>
      constructor
      · rintro header payload payload' ⟨_, rfl⟩ ⟨_, rfl⟩
        rfl
      · intro other hother
        cases other with
        | control message' mode' nowUs' =>
            rintro header payload payload' ⟨rfl, rfl⟩ ⟨hheader, rfl⟩
            have htype : message.packetType = message'.packetType :=
              congrArg PacketHeader.packetType hheader
            have hmode : mode = mode' := congrArg PacketHeader.mode hheader
            have htime : nowUs = nowUs' := congrArg PacketHeader.presentationTimeUs hheader
            subst hmode htime
            exact (h message' hother htype.symm).symm
        | frame outgoing fec iter hfec => exact agree_control_frame _ _ _ _ _ _ _
  | frame outgoing fec iter hfec =>
      obtain ⟨hcount, hbytes⟩ := h
      constructor
      · exact agree_frames hfec hfec hcount fun _ => rfl
      · intro other hother
        cases other with
        | control message mode nowUs => exact (agree_control_frame _ _ _ _ _ _ _).symm
        | frame outgoing' fec' iter' hfec' =>
            exact agree_frames hfec hfec' hcount (hbytes outgoing' fec' iter' hfec' hother)

end Transmission

section Runs

variable {P : Type} (arith : PriorityArith P) (sha : Sha256)

/-- All packets of the transmissions. -/
def wires (sent : List (Transmission P)) : List (List UInt8) :=
  sent.flatMap (Transmission.packets arith)

/-- Different packets are encrypted under different nonces. -/
def DistinctNonces (sent : List (Transmission P)) : Prop :=
  ∀ wire ∈ wires arith sent, ∀ other ∈ wires arith sent, wire ≠ other →
    packetNonce sha wire ≠ packetNonce sha other

/-- The digests of the headers that were hashed, cut to a nonce, do not collide. -/
def NoCollision (sent : List (Transmission P)) : Prop :=
  ∀ wire ∈ wires arith sent, ∀ other ∈ wires arith sent,
    packetNonce sha wire = packetNonce sha other →
    (flagged wire).take authTagOffset = (flagged other).take authTagOffset

variable {arith sha}

/-- What goes to the socket when there is a key: the payload is encrypted under the nonce of
its packet. -/
theorem datagrams_eq (box : Secretbox) {s : Evrt2Session} {key : SessionKey}
    (hkey : s.authKey = some key) (t : Transmission P) :
    s.datagrams arith sha box t = (t.packets arith).map fun wire =>
      signPacket sha key ((flagged wire).take headerLen ++
        box.secretboxEasy (deriveEncryptionKey sha key) (packetNonce sha wire)
          ((flagged wire).drop headerLen)) := by
  rw [Evrt2Session.datagrams, hkey]
  apply List.map_congr_left
  intro wire hwire
  obtain ⟨header, payload, _, rfl⟩ := Transmission.mem_packets hwire
  have hlong : headerLen ≤ (header.encode payload).length := by
    rw [PacketHeader.encode_length]
    exact Nat.le_add_right _ _
  rw [sendSigned, encryptPayload_eq sha box _ hlong]

/-- A control packet that is not fresh has the nonce of another. -/
theorem stale_control_shares_nonce {earlier : List (Transmission P)} {message : Control P}
    {mode : Mode} {nowUs : UInt64}
    (hstale : ¬ (Transmission.control message mode nowUs).Fresh arith earlier) :
    ¬ DistinctNonces arith sha (earlier ++ [.control message mode nowUs]) := by
  rw [Transmission.Fresh] at hstale
  push Not at hstale
  obtain ⟨message', hearlier, htype, hpayload⟩ := hstale
  intro hdistinct
  refine hdistinct (controlPacket message.packetType mode nowUs (message'.payload arith)) ?_
    (controlPacket message.packetType mode nowUs (message.payload arith)) ?_ ?_
    (controlPacket_nonce_eq ..)
  · refine List.mem_flatMap.mpr ⟨_, List.mem_append_left _ hearlier, ?_⟩
    rw [← htype]
    exact List.mem_cons_self
  · exact List.mem_flatMap.mpr ⟨_, List.mem_append_right _ List.mem_cons_self, List.mem_cons_self⟩
  · intro hsame
    have hencoded : (controlHeader message.packetType mode nowUs).encode (message'.payload arith) =
        (controlHeader message.packetType mode nowUs).encode (message.payload arith) := hsame
    exact hpayload (PacketHeader.encode_inj hencoded).2

theorem distinctNonces_of_agree {sent : List (Transmission P)} (hsha : NoCollision arith sha sent)
    (hagree : ∀ t ∈ sent, ∀ t' ∈ sent, t.Agree arith t') : DistinctNonces arith sha sent := by
  intro wire hwire other hother hne hnonce
  have hinput := hsha wire hwire other hother hnonce
  obtain ⟨t, ht, hpacket⟩ := List.mem_flatMap.mp hwire
  obtain ⟨t', ht', hpacket'⟩ := List.mem_flatMap.mp hother
  obtain ⟨header, payload, hcarries, rfl⟩ := Transmission.mem_packets hpacket
  obtain ⟨header', payload', hcarries', rfl⟩ := Transmission.mem_packets hpacket'
  rw [flagged_take, flagged_take] at hinput
  obtain rfl := nonceInput_inj hcarries.plain hcarries'.plain hinput
  rw [hagree t ht t' ht' header payload payload' hcarries hcarries'] at hne
  exact hne rfl

namespace KeyedSessions

variable {Party : Type} [DecidableEq Party] (arith : PriorityArith P) (sha : Sha256)
  (key : SessionKey)

/-- What is sent encrypted is fresh beside what was. -/
def SendsFresh (s : KeyedSessions Party P) (input : Party × SessionCall P) : Prop :=
  ∀ t, s.encrypts input.1 input.2 = some t → t.Fresh arith s.encrypted

theorem step_agree {s : KeyedSessions Party P} {input : Party × SessionCall P}
    (hagree : ∀ t ∈ s.encrypted, ∀ t' ∈ s.encrypted, t.Agree arith t')
    (hfresh : s.SendsFresh arith input) :
    ∀ t ∈ (s.step key input.1 input.2).encrypted,
      ∀ t' ∈ (s.step key input.1 input.2).encrypted, t.Agree arith t' := by
  intro t ht t' ht'
  rw [step, List.mem_append, Option.mem_toList] at ht ht'
  rcases ht with ht | ht <;> rcases ht' with ht' | ht'
  · exact hagree t ht t' ht'
  · exact ((hfresh t' ht').agree.2 t ht).symm
  · exact (hfresh t ht).agree.2 t' ht'
  · obtain rfl : t = t' := Option.some.inj (ht.symm.trans ht')
    exact (hfresh t ht).agree.1

/-- While the sessions send what is fresh, no two packets share a nonce. -/
theorem nonces_distinct (modes : Party → Mode) (calls : List (Party × SessionCall P))
    (hsha : NoCollision arith sha ((machine key).run (new modes) calls).encrypted)
    (hfresh : (machine key).Along (SendsFresh arith) (new modes) calls) :
    DistinctNonces arith sha ((machine key).run (new modes) calls).encrypted := by
  refine distinctNonces_of_agree hsha ?_
  refine (machine key).invariant
    (I := fun s => ∀ t ∈ s.encrypted, ∀ t' ∈ s.encrypted, t.Agree arith t') ?_ ?_ hfresh
  · exact fun s input hagree hsends => step_agree arith key hagree hsends
  · rintro t ⟨⟩

/-- The two sides of a session. -/
inductive Side where
  | host
  | client
deriving DecidableEq

/-- Nothing is sent here that has priorities. -/
def noPriorities : PriorityArith Unit where
  zero := ()
  gt _ _ := false
  quantizeU4 _ := ⟨0, by decide⟩

/-- A frame of one byte in a mode without error correction, and a request. -/
def frameAndRequest : List (Side × SessionCall Unit) :=
  [(.host, .setAuthKey true), (.client, .setAuthKey true), (.host, .setMode .mode47),
    (.host, .sendFrame [7] 0 true false false 5 [] (IterOrder.stored UInt8)),
    (.client, .send .idrRequest 9)]

/-- The digests of the two headers of this run. -/
def recordedSha : Sha256 where
  digest message :=
    if message = [69, 86, 82, 50, 37, 71, 0, 9, 0, 0, 0, 0, 0, 0, 0, 1, 0, 0, 0, 0, 0, 0, 0, 5,
        0, 0, 0, 0] then
      [244, 72, 49, 236, 162, 190, 23, 77, 104, 23, 143, 98, 125, 154, 225, 3, 117, 244, 11, 4,
        41, 0, 77, 152, 69, 193, 61, 132, 63, 253, 78, 27]
    else if message = [69, 86, 82, 50, 42, 1, 0, 8, 0, 0, 0, 0, 0, 0, 0, 1, 0, 0, 0, 0, 0, 0, 0,
        9, 0, 0, 0, 0] then
      [82, 165, 3, 207, 102, 109, 189, 238, 8, 149, 49, 2, 184, 90, 219, 188, 136, 93, 56, 16,
        18, 31, 67, 43, 111, 52, 233, 143, 76, 37, 29, 42]
    else List.replicate 32 0
  digest_length message := by
    split
    · rfl
    · split <;> rfl

theorem nonces_distinct_frameAndRequest :
    DistinctNonces noPriorities recordedSha
      ((machine (List.replicate 32 1)).run (new fun _ => .ar) frameAndRequest).encrypted := by
  apply nonces_distinct
  · unfold NoCollision
    decide
  · refine ⟨?_, ?_, ?_, ?_, ?_, trivial⟩
    · rintro t ⟨⟩
    · rintro t ⟨⟩
    · rintro t ⟨⟩
    · rintro t ⟨⟩
      refine ⟨by decide, ?_⟩
      rintro _ _ _ _ ⟨⟩
    · rintro t ⟨⟩ message hearlier _
      rcases List.mem_singleton.mp hearlier with ⟨⟩

/-- The host answers a ping while the client's clock shows the time that the host's shows,
and the client sends a ping of its own. -/
def crossingPings : List (Side × SessionCall Unit) :=
  [(.host, .setAuthKey true), (.client, .setAuthKey true),
    (.host, .send (.keepalivePing 990) 1000), (.client, .send (.keepalivePing 1000) 1000)]

theorem crossing_pings_share_nonce :
    ¬ ∃ (sha : Sha256) (key : SessionKey), DistinctNonces noPriorities sha
      ((machine key).run (new fun _ => .ar) crossingPings).encrypted := by
  rintro ⟨sha, key, hdistinct⟩
  have hstale : ¬ (Transmission.control (.keepalivePing 1000) .ar 1000).Fresh noPriorities
      [.control (.keepalivePing 990) .ar 1000] := by
    intro hfresh
    have hpayload := hfresh (.keepalivePing 990) List.mem_cons_self rfl
    revert hpayload
    decide
  exact stale_control_shares_nonce hstale hdistinct

end KeyedSessions

end Runs

end EvertyDesk.Evrt2
