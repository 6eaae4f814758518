import EvertyDesk.Client.ReassemblerBounds

/-!
The parity packets that wait for their frames. They are removed with their frame and when
the window moves past them; the window moves with data packets only, and not while the
reassembler waits for a key frame, so what comes ahead of the data stays.
-/

namespace EvertyDesk.Reassembler

open ChannelReassembler

/-- All frames that parity packets are kept for lie in the window. -/
def FecInWindow (r : ChannelReassembler) : Prop :=
  ∀ id fecs, r.pendingFec.lookup id = some fecs → InWindow r.latestFrameIdSeen id

/-- The number of parity packets kept for all frames. -/
def keptFec (r : ChannelReassembler) : Nat := totalOf List.length r.pendingFec

/-- A parity packet that is going to be kept is for a frame up to the highest one seen. -/
def FecNotAhead (r : ChannelReassembler) (op : Op) : Prop :=
  match op with
  | .fecPacket pkt _ =>
      r.alreadyCompleted pkt.frameId = false → r.tooOld pkt.frameId = false →
        (Evrt.parseFecPayload pkt.frameId pkt.payload).isSome = true →
        r.isNewest pkt.frameId = false
  | _ => True

/-- How many parity packets of a frame are among the calls. -/
def fecPacketsFor (id : Nat) (ops : List Op) : Nat :=
  ops.countP fun op =>
    match op with
    | .fecPacket pkt _ => pkt.frameId == id
    | _ => false

theorem FecInWindow.account {r r' : ChannelReassembler} (h : FecInWindow r)
    (haccounts : Accounts r r') : FecInWindow r' := by
  intro id fecs hlookup
  rw [haccounts.seen]
  exact h id fecs (haccounts.fec id fecs hlookup)

theorem noteFrameId_fecInWindow (iter : IterOrder Nat) {r : ChannelReassembler}
    (h : FecInWindow r) (id : Nat) (isKeyFrame : Bool) :
    FecInWindow (r.noteFrameId iter id isKeyFrame).1 := by
  cases hnew : r.isNewest id with
  | false =>
      rw [noteFrameId_not_newest iter hnew]
      exact h
  | true =>
      obtain ⟨haccounts, -, hfec⟩ := noteFrameId_moves iter hnew isKeyFrame
      intro id' fecs hlookup
      rw [haccounts.seen]
      exact inWindow_move (h id' fecs (haccounts.fec id' fecs hlookup)) hnew (hfec id' fecs hlookup)

/-- Data packets only move the window and remove what is behind it. -/
theorem onPacket_fecInWindow (iter : IterOrder Nat) {r : ChannelReassembler}
    (h : FecInWindow r) (pkt : Evrt.EvrtPacket) (now : Nat) :
    FecInWindow (r.onPacket iter pkt now).1 := by
  have hnoted := noteFrameId_fecInWindow iter h pkt.frameId pkt.isKeyFrame
  unfold onPacket
  split
  · exact h.account (r.markFrameDropped_accounts _)
  split
  · exact h
  split
  · exact h
  split
  · exact h.account (r.markFrameDropped_accounts _)
  split
  · next lost hresult =>
      rw [hresult] at hnoted
      exact hnoted
  · next noted hresult =>
      rw [hresult] at hnoted
      exact (hnoted.account (noteKeyFrame_shrinks iter _ _).1).account (assemble_accounts _ pkt now)

theorem onPacket_fec (iter : IterOrder Nat) (r : ChannelReassembler) (pkt : Evrt.EvrtPacket)
    (now : Nat) {id : Nat} {fecs : List Evrt.FecMeta}
    (h : (r.onPacket iter pkt now).1.pendingFec.lookup id = some fecs) :
    r.pendingFec.lookup id = some fecs := by
  rcases r.onPacket_cases iter pkt now with
    ⟨r', seen, hresult, hshrinks⟩ | ⟨opened, hresult, -, hopens⟩
  · rw [hresult] at h
    exact hshrinks.fec id fecs h
  · obtain ⟨seen, hshrinks⟩ := hopens.shrinks
    rw [hresult] at h
    exact hshrinks.fec id fecs ((opened.assemble_accounts pkt now).fec id fecs h)

/-- A parity packet leaves the window right exactly when it is not ahead. -/
theorem onFecPacket_fecInWindow {r : ChannelReassembler} (hbounded : r.Bounded)
    (h : FecInWindow r) (pkt : Evrt.EvrtPacket) (now : Nat) :
    FecNotAhead r (.fecPacket pkt now) ↔ FecInWindow (r.onFecPacket pkt now).1 := by
  rcases onFecPacket_cases (r := r) pkt now with
    ⟨hsame, hignored⟩ | ⟨fec, stored, hwanted, hold, hparse, hstored, haccounts, halone⟩
  · rw [hsame]
    refine ⟨fun _ => h, fun _ hwanted hold hparse => ?_⟩
    rcases hignored with hdone | hpast | hnone
    · simp [hdone] at hwanted
    · simp [hpast] at hold
    · simp [hnone] at hparse
  constructor
  · intro hnotAhead
    have hwindow : InWindow r.latestFrameIdSeen pkt.frameId :=
      inWindow_of_seen hold (hnotAhead hwanted hold (by simp [hparse]))
    refine FecInWindow.account ?_ haccounts
    subst hstored
    intro id fecs hlookup
    by_cases heq : id = pkt.frameId
    · rwa [heq]
    · exact h id fecs ((AList.lookup_insert_ne heq).symm.trans hlookup)
  · intro hafter _ _ _
    by_contra hnewest
    have hnewest : r.isNewest pkt.frameId = true := by simpa using hnewest
    have hahead : ¬ InWindow r.latestFrameIdSeen pkt.frameId := by
      rintro ⟨seen, hseen, hle, -⟩
      simp only [isNewest, hseen, decide_eq_true_eq] at hnewest
      omega
    have hnone : r.frames.lookup pkt.frameId = none := by
      cases hframe : r.frames.lookup pkt.frameId with
      | none => rfl
      | some a => exact absurd (hbounded.frames _ a hframe).1 hahead
    rw [halone hnone, hstored] at hafter
    exact hahead (hafter pkt.frameId _ (AList.lookup_insert _))

theorem step_fecInWindow (iter : IterOrder Nat) (r : ChannelReassembler) (op : Op)
    (hbounded : r.Bounded) (h : FecInWindow r) :
    ((machine iter).step r op).1.Bounded ∧
      (FecNotAhead r op ↔ FecInWindow ((machine iter).step r op).1) := by
  refine ⟨step_bounded iter hbounded op, ?_⟩
  cases op with
  | packet pkt now => exact iff_of_true trivial (onPacket_fecInWindow iter h pkt now)
  | fecPacket pkt now => exact onFecPacket_fecInWindow hbounded h pkt now
  | setCodecConfig payload => exact iff_of_true trivial h
  | reset =>
      refine iff_of_true trivial ?_
      intro id fecs hlookup
      simp [machine, reset] at hlookup

theorem new_fecInWindow : FecInWindow .new := by
  intro id fecs hlookup
  simp [ChannelReassembler.new] at hlookup

/-- The window holds the numbers of five frames. -/
theorem FecInWindow.keys_length {r : ChannelReassembler} (h : FecInWindow r) :
    r.pendingFec.keys.length ≤ reassemblyReorderWindowFrames + 1 := by
  cases hseen : r.latestFrameIdSeen with
  | none =>
      have hkeys : r.pendingFec.keys = [] := by
        apply List.eq_nil_iff_forall_not_mem.mpr
        intro id hid
        obtain ⟨fecs, hlookup⟩ :=
          Option.isSome_iff_exists.mp (AList.lookup_isSome.mpr (AList.mem_keys.mpr hid))
        obtain ⟨seen, hsome, -⟩ := h id fecs hlookup
        simp [hseen] at hsome
      simp [hkeys]
  | some seen =>
      have hsubset : r.pendingFec.keys ⊆ List.range'
          (seen - reassemblyReorderWindowFrames) (reassemblyReorderWindowFrames + 1) := by
        intro id hid
        obtain ⟨fecs, hlookup⟩ :=
          Option.isSome_iff_exists.mp (AList.lookup_isSome.mpr (AList.mem_keys.mpr hid))
        obtain ⟨highest, hhighest, hle, hreach⟩ := h id fecs hlookup
        rw [hseen] at hhighest
        obtain rfl := Option.some.inj hhighest
        simp only [List.mem_range'_1]
        omega
      have hlength := r.pendingFec.keys_nodup.length_le_of_subset hsubset
      simpa using hlength

theorem kept_for_frame (iter : IterOrder Nat) (ops : List Op) (id : Nat) (fecs : List Evrt.FecMeta)
    (h : ((machine iter).run .new ops).pendingFec.lookup id = some fecs) :
    fecs.length ≤ fecPacketsFor id ops := by
  refine (machine iter).invariant_history (C := fun _ _ => True)
    (I := fun ops r => ∀ id fecs, r.pendingFec.lookup id = some fecs →
      fecs.length ≤ fecPacketsFor id ops)
    ?_ ?_ ((machine iter).along_of_forall (fun _ _ => trivial) _ _) id fecs h
  · intro before r op ih _ id fecs hlookup
    have hmore : fecPacketsFor id before ≤ fecPacketsFor id (before ++ [op]) := by
      simp [fecPacketsFor]
    cases op with
    | packet pkt now => exact (ih id fecs (onPacket_fec iter r pkt now hlookup)).trans hmore
    | setCodecConfig payload => exact (ih id fecs hlookup).trans hmore
    | reset => simp [machine, reset] at hlookup
    | fecPacket pkt now =>
        rcases onFecPacket_cases (r := r) pkt now with
          ⟨hsame, -⟩ | ⟨fec, stored, -, -, -, rfl, haccounts, -⟩
        · have hresult : (machine iter).step r (.fecPacket pkt now) = (r, none) := hsame
          rw [hresult] at hlookup
          exact (ih id fecs hlookup).trans hmore
        have hstored := haccounts.fec id fecs hlookup
        by_cases heq : id = pkt.frameId
        · subst heq
          rw [AList.lookup_insert] at hstored
          obtain rfl := Option.some.inj hstored
          have hold : ((r.pendingFec.lookup pkt.frameId).getD []).length ≤
              fecPacketsFor pkt.frameId before := by
            cases hlast : r.pendingFec.lookup pkt.frameId with
            | none => exact Nat.zero_le _
            | some fecs => exact ih _ fecs hlast
          simpa [fecPacketsFor] using hold
        · rw [AList.lookup_insert_ne heq] at hstored
          exact (ih id fecs hstored).trans hmore
  · intro id fecs hlookup
    simp [ChannelReassembler.new] at hlookup

theorem fecPacketsFor_le_append (id : Nat) (before after : List Op) :
    fecPacketsFor id before ≤ fecPacketsFor id (before ++ after) := by
  simp [fecPacketsFor]

/-- The kept parity packets belong to frames in the window at every time exactly when none
that is kept comes ahead of the data. Then they are for at most five frames, so that no
more than five times as many are kept as come for one frame. -/
theorem pending_fec_in_window_iff (iter : IterOrder Nat) (ops : List Op) :
    ((∀ before after, ops = before ++ after → FecInWindow ((machine iter).run .new before)) ↔
      (machine iter).Along FecNotAhead .new ops) ∧
    ((machine iter).Along FecNotAhead .new ops →
      ∀ before after, ops = before ++ after →
        ((machine iter).run .new before).pendingFec.keys.length ≤
          reassemblyReorderWindowFrames + 1 ∧
        ∀ bound, (∀ id, fecPacketsFor id ops ≤ bound) →
          keptFec ((machine iter).run .new before) ≤
            (reassemblyReorderWindowFrames + 1) * bound) := by
  have hops : ∀ op ∈ ops, True := fun _ _ => trivial
  have hiff := (machine iter).along_iff_every_state
    (fun r op _ => step_fecInWindow iter r op) hops new_bounded new_fecInWindow
  refine ⟨hiff.symm, ?_⟩
  rintro halong before after rfl
  have hkeys := (hiff.mp halong before after rfl).keys_length
  refine ⟨hkeys, ?_⟩
  intro bound hbound
  have hframe : ∀ id fecs, ((machine iter).run .new before).pendingFec.lookup id = some fecs →
      fecs.length ≤ bound := by
    intro id fecs hlookup
    exact ((kept_for_frame iter before id fecs hlookup).trans
      (fecPacketsFor_le_append id before after)).trans (hbound id)
  exact (totalOf_le hframe).trans (Nat.mul_le_mul_right bound hkeys)

private def dataPacket (frameId packetCount : Nat) (isKeyFrame : Bool)
    (h : frameId < 2 ^ 32) : Evrt.EvrtPacket where
  packetType := Evrt.typeVideoFrame
  flags := Evrt.frameFlags isKeyFrame
  frameId := frameId
  packetIndex := 0
  packetCount := packetCount
  presentationTimeUs := 0
  payload := [0]
  frameId_lt := h

/-- The parity packet of a group of two packets. -/
private def pairFecPacket (frameId : Nat) (h : frameId < 2 ^ 32) : Evrt.EvrtPacket where
  packetType := Evrt.typeFec
  flags := 0
  frameId := frameId
  packetIndex := 0
  packetCount := 1
  presentationTimeUs := 0
  payload := [0, 0, 2, 0, 0]
  frameId_lt := h

/-- The parity packet comes behind the first packet of its frame. -/
theorem pending_fec_in_window_iff_repair :
    let ops : List Op := [.packet (dataPacket 1 3 true (by decide)) 0,
      .fecPacket (pairFecPacket 1 (by decide)) 0]
    (machine (.stored Nat)).Along FecNotAhead .new ops ∧
      (∀ id, fecPacketsFor id ops ≤ 1) ∧
      keptFec ((machine (.stored Nat)).run .new ops) ≤ (reassemblyReorderWindowFrames + 1) * 1 := by
  intro ops
  have hahead : (machine (.stored Nat)).Along FecNotAhead .new ops :=
    ⟨trivial, fun _ _ _ => rfl, trivial⟩
  have hone : ∀ id, fecPacketsFor id ops ≤ 1 := by
    intro id
    simp only [fecPacketsFor, ops, List.countP_cons, List.countP_nil]
    split <;> simp
  obtain ⟨-, hbound⟩ := pending_fec_in_window_iff (.stored Nat) ops
  exact ⟨hahead, hone, (hbound hahead ops [] (List.append_nil ops).symm).2 1 hone⟩

/-- What arrives of delta frames of two packets when the second packet of each is lost. -/
private def lossyFrames (first : Nat) : (count : Nat) → first + count < 2 ^ 32 → List Op
  | 0, _ => []
  | count + 1, h =>
      .packet (dataPacket first 2 false (by omega)) 0 ::
        .fecPacket (pairFecPacket first (by omega)) 0 ::
        lossyFrames (first + 1) count (by omega)

/-- The reassembler waits for a key frame, and the next frame is new to it. -/
private structure Stuck (r : ChannelReassembler) (next : Nat) : Prop where
  waiting : r.waitingAfterLoss = true
  frames : ∀ id, r.frames.lookup id = none
  seen : ∃ seen, r.latestFrameIdSeen = some seen ∧ seen < next
  completed : ∃ completed, r.latestCompletedId = some completed ∧ completed < next
  fec : ∀ id ∈ r.pendingFec.keys, id < next

private theorem Stuck.wanted {r : ChannelReassembler} {next : Nat} (h : Stuck r next)
    (hnext : next < 2 ^ 32) :
    r.alreadyCompleted next = false ∧ r.tooOld next = false := by
  obtain ⟨seen, hseen, hlt⟩ := h.seen
  obtain ⟨completed, hcompleted, hcompletedLt⟩ := h.completed
  constructor
  · simp [alreadyCompleted, hcompleted, hcompletedLt]
  · have hreach : ¬ satAdd32 next reassemblyReorderWindowFrames < seen := by
      rw [satAdd32]
      omega
    simpa [tooOld, hseen] using hreach

private theorem Stuck.refused (iter : IterOrder Nat) {r : ChannelReassembler} {next : Nat}
    (h : Stuck r next) (hnext : next < 2 ^ 32) :
    r.onPacket iter (dataPacket next 2 false hnext) 0 = (r.markFrameDropped next, none) := by
  obtain ⟨hwanted, hold⟩ := h.wanted hnext
  have hdelta : (dataPacket next 2 false hnext).isKeyFrame = false := by
    simp [dataPacket, Evrt.EvrtPacket.isKeyFrame, Evrt.frameFlags]
  unfold onPacket
  rw [if_neg (by simp [dataPacket, Evrt.maxFramePacketCount]),
    if_neg (by simp [dataPacket, hwanted]), if_neg (by simp [dataPacket, hold]),
    if_pos (by simp [h.waiting, hdelta])]
  rfl

private theorem Stuck.mark {r : ChannelReassembler} {next : Nat} (h : Stuck r next) :
    Stuck (r.markFrameDropped next) next ∧ (r.markFrameDropped next).pendingFec = r.pendingFec := by
  unfold markFrameDropped
  split
  · exact ⟨⟨h.waiting, h.frames, h.seen, h.completed, h.fec⟩, rfl⟩
  · exact ⟨h, rfl⟩

private theorem Stuck.kept {r : ChannelReassembler} {next : Nat} (h : Stuck r next)
    (hnext : next < 2 ^ 32) :
    Stuck (r.onFecPacket (pairFecPacket next hnext) 0).1 (next + 1) ∧
      (r.onFecPacket (pairFecPacket next hnext) 0).1.pendingFec.keys.length =
        r.pendingFec.keys.length + 1 := by
  obtain ⟨hwanted, hold⟩ := h.wanted hnext
  rcases onFecPacket_cases (r := r) (pairFecPacket next hnext) 0 with
    ⟨-, hdone | hpast | hparse⟩ | ⟨fec, stored, -, -, -, hstored, -, halone⟩
  · simp [pairFecPacket, hwanted] at hdone
  · simp [pairFecPacket, hold] at hpast
  · contradiction
  · rw [halone (h.frames _), hstored]
    have hfresh : next ∉ r.pendingFec.keys := fun hmem => Nat.lt_irrefl _ (h.fec next hmem)
    have hkeys : ∀ fecs : List Evrt.FecMeta, (r.pendingFec.insert next fecs).keys =
        next :: r.pendingFec.keys := by
      intro fecs
      rw [AList.keys_insert, List.erase_of_not_mem hfresh]
    obtain ⟨seen, hseen, hlt⟩ := h.seen
    obtain ⟨completed, hcompleted, hcompletedLt⟩ := h.completed
    refine ⟨⟨h.waiting, h.frames, ⟨seen, hseen, by omega⟩,
      ⟨completed, hcompleted, by omega⟩, ?_⟩, ?_⟩
    · intro id hid
      rcases List.mem_cons.mp (hkeys _ ▸ hid) with rfl | hid
      · exact Nat.lt_succ_self id
      · exact Nat.lt_succ_of_lt (h.fec id hid)
    · exact congrArg List.length (hkeys _)

private theorem stuck_run (iter : IterOrder Nat) {r : ChannelReassembler} {first : Nat}
    (h : Stuck r first) (count : Nat) (hlast : first + count < 2 ^ 32) :
    ((machine iter).run r (lossyFrames first count hlast)).pendingFec.keys.length =
        r.pendingFec.keys.length + count := by
  induction count generalizing r first with
  | zero => rfl
  | succ count ih =>
      have hfirst : first < 2 ^ 32 := by omega
      obtain ⟨hmarked, hsame⟩ := h.mark
      obtain ⟨hstuck, hlength⟩ := hmarked.kept hfirst
      have hstep : (machine iter).run r (lossyFrames first (count + 1) hlast) =
          (machine iter).run ((r.markFrameDropped first).onFecPacket
            (pairFecPacket first hfirst) 0).1 (lossyFrames (first + 1) count (by omega)) := by
        have hrefused : (machine iter).step r (.packet (dataPacket first 2 false hfirst) 0) =
            (r.markFrameDropped first, none) := h.refused iter hfirst
        rw [lossyFrames, Machine.run_cons, hrefused]
        rfl
      rw [hstep, ih hstuck, hlength, hsame]
      omega

/-- Frame 2 is lost, so frame 3 is withheld. -/
private def afterLoss : ChannelReassembler :=
  (machine (.stored Nat)).run .new
    [.packet (dataPacket 1 1 true (by decide)) 0, .packet (dataPacket 3 1 false (by decide)) 0]

private theorem afterLoss_stuck : Stuck afterLoss 4 := by
  have hframes : afterLoss.frames = ∅ := rfl
  have hfec : afterLoss.pendingFec.keys = [] := rfl
  refine ⟨rfl, ?_, ⟨3, rfl, by decide⟩, ⟨3, rfl, by decide⟩, ?_⟩
  · intro id
    rw [hframes]
    exact AList.lookup_empty id
  · simp [hfec]

/-- Until a key frame comes the parity packets of all later frames are kept, however many
they are. -/
theorem pending_fec_grows (count : Nat) (h : 4 + count < 2 ^ 32) :
    ((machine (.stored Nat)).run afterLoss (lossyFrames 4 count h)).pendingFec.keys.length =
      count := by
  have hfec : afterLoss.pendingFec.keys.length = 0 := rfl
  rw [stuck_run (.stored Nat) afterLoss_stuck count h, hfec, Nat.zero_add]

/-- Frame 2 is lost. Then six frames of two packets come of which the second packet is
lost: the parity packets of all six are kept, though 3 still is the highest number seen. -/
theorem pending_fec_leaves_window :
    ¬ ∀ (iter : IterOrder Nat) (ops : List Op),
      FecInWindow ((machine iter).run .new ops) ∧
        ((machine iter).run .new ops).pendingFec.keys.length ≤
          reassemblyReorderWindowFrames + 1 := by
  intro halways
  have hgrows := pending_fec_grows 6 (by decide)
  rw [afterLoss, ← Machine.run_append] at hgrows
  have hbound := (halways _ _).2.trans_eq' hgrows
  exact absurd hbound (by decide)

end EvertyDesk.Reassembler
