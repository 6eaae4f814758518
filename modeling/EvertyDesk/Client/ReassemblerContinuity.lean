import EvertyDesk.Client.FrameAssembly
import EvertyDesk.Client.ReassemblerSteps

/-!
Decodability of the delivered stream. A delta frame can be decoded only on top
of the frame before it, so the reassembler should deliver a delta frame only
directly after its base.

The check of the source compares with the last completed frame, which may have
been withheld. The first packet of a key frame ends the wait for one, although
that key frame is not complete yet; if the delta frame after the withheld one
arrives then, it is delivered without its base.
-/

namespace EvertyDesk.Reassembler

open ChannelReassembler

/-- A reassembler with what the decoder got last since the last reset. -/
structure Tracked where
  reassembler : ChannelReassembler
  lastDelivered : Option Nat

def Tracked.new : Tracked := ⟨ChannelReassembler.new, none⟩

/-- A reset makes the decoder start over. -/
def Tracked.next (lastDelivered : Option Nat) (op : Op) (out : Option Delivery) : Option Nat :=
  match op, out with
  | .reset, _ => none
  | _, some delivery => some delivery.frameId
  | _, none => lastDelivered

def tracked (iter : IterOrder Nat) : Machine Tracked Op (Option Delivery) where
  step s op :=
    let (reassembler, out) := (machine iter).step s.reassembler op
    (⟨reassembler, Tracked.next s.lastDelivered op out⟩, out)

/-- What this call delivers is a key frame, the first frame, or the frame after
the one delivered before it. -/
def Decodable (iter : IterOrder Nat) (s : Tracked) (op : Op) : Prop :=
  ∀ delivery, ((tracked iter).step s op).2 = some delivery →
    delivery.isKeyFrame = true ∨ ∀ base, s.lastDelivered = some base → delivery.frameId = base + 1

/-- Is the packet's frame, as it is known so far, a key frame? -/
def ChannelReassembler.frameIsKey (r : ChannelReassembler) (pkt : Evrt.EvrtPacket) : Bool :=
  ((r.frames.lookup pkt.frameId).map (·.isKeyFrame)).getD pkt.isKeyFrame

/-- A packet is let in for the delta frame directly after a completed frame
that was withheld: the wait is over, or ends with this very packet, before a
key frame is complete. -/
def Tracked.LosesBase (s : Tracked) (pkt : Evrt.EvrtPacket) : Prop :=
  ∃ base completed, s.lastDelivered = some base ∧
    s.reassembler.latestCompletedId = some completed ∧ completed ≠ base ∧
    pkt.frameId = completed + 1 ∧ pkt.packetIndex < pkt.packetCount ∧
    s.reassembler.frameIsKey pkt = false ∧
    (s.reassembler.waitingAfterLoss = false ∨ pkt.isKeyFrame = true)

def KeepsBase (s : Tracked) : Op → Prop
  | .packet pkt _ => ¬ s.LosesBase pkt
  | _ => True

/-- Unfinished frames are stored under their numbers, and some are known to be
key frames. -/
private def Named (mustBeKey : Nat → Prop) (id : Nat) (a : FrameAssembly) : Prop :=
  a.frameId = id ∧ (mustBeKey id → a.isKeyFrame = true)

private theorem Named.set {mustBeKey : Nat → Prop} {id index : Nat}
    {a a' : FrameAssembly} {payload : List UInt8} (h : Named mustBeKey id a)
    (hset : a.set index payload = some a') : Named mustBeKey id a' := by
  obtain ⟨hid, _, hkey, _⟩ := a.set_header hset
  exact ⟨hid.trans h.1, fun hmust => hkey.trans (h.2 hmust)⟩

/-- The last completed frame was delivered, or the reassembler waits, or no
delta frame after it is being put together. -/
structure Guarded (s : Tracked) : Prop where
  named : ∀ id a, s.reassembler.frames.lookup id = some a → a.frameId = id
  base : ∀ base, s.lastDelivered = some base →
    ∃ completed, s.reassembler.latestCompletedId = some completed ∧
      (completed = base ∨ s.reassembler.waitingAfterLoss = true ∨
        ∀ a, s.reassembler.frames.lookup (completed + 1) = some a → a.isKeyFrame = true)

theorem follows_of_unbroken {previous : Option Nat} {id completed : Nat}
    (hid : id < 2 ^ 32) (hprevious : previous = some completed)
    (hwanted : completed < id) (h : brokenBase previous id = false) :
    id = completed + 1 := by
  subst hprevious
  simp only [brokenBase, ne_eq, decide_not, Bool.not_eq_false',
    decide_eq_true_eq] at h
  omega

/-- Where a call that concerns one frame ends, when the frames that would lose
their base are key frames. -/
private theorem guarded_of_outcome {r r' : ChannelReassembler}
    {Q : Nat → Evrt.FecMeta → Prop} {mustBeKey : Nat → Prop} {id now : Nat}
    {last : Option Nat} {out : Option Delivery} (hid : id < 2 ^ 32)
    (hholds : Holds (Named mustBeKey) Q r')
    (houtcome : Outcome (Named mustBeKey) r id now r' out)
    (hwanted : r.alreadyCompleted id = false)
    (hbase : ∀ base, last = some base →
      ∃ completed, r.latestCompletedId = some completed ∧
        (completed = base ∨ r.waitingAfterLoss = true ∨ mustBeKey (completed + 1))) :
    Guarded ⟨r', (out.map (·.frameId)).or last⟩ ∧
      ∀ delivery, out = some delivery → delivery.isKeyFrame = true ∨
        ∀ base, last = some base → delivery.frameId = base + 1 := by
  have hnamed : ∀ id a, r'.frames.lookup id = some a → a.frameId = id :=
    fun id a hlookup => (hholds.frames id a hlookup).1
  rcases houtcome with ⟨rfl, hsame⟩ | ⟨a, before, hnamedA, _, hsame, _, hcompleted, hfinish⟩
  · refine ⟨⟨hnamed, ?_⟩, by simp⟩
    intro base hlast
    obtain ⟨completed, hprevious, hcase⟩ := hbase base (by simpa using hlast)
    refine ⟨completed, hsame.completed.trans hprevious, ?_⟩
    rcases hcase with delivered | waiting | key
    · exact Or.inl delivered
    · exact Or.inr (Or.inl (hsame.waiting waiting))
    · exact Or.inr (Or.inr fun a hlookup => (hholds.frames _ a hlookup).2 key)
  · rw [hnamedA.1] at hcompleted
    cases hfinish with
    | key hkey hrunning =>
        refine ⟨⟨hnamed, ?_⟩, ?_⟩
        · intro base hlast
          exact ⟨id, hcompleted, Or.inl (by simpa using hlast)⟩
        · intro delivery hdelivery
          obtain rfl := Option.some.inj hdelivery
          exact Or.inl rfl
    | withheld hdelta hwaiting =>
        refine ⟨⟨hnamed, ?_⟩, by simp⟩
        intro base hlast
        exact ⟨id, hcompleted, Or.inr (Or.inl hwaiting)⟩
    | delta hdelta hrunning hunbroken hstill =>
        refine ⟨⟨hnamed, ?_⟩, ?_⟩
        · intro base hlast
          exact ⟨id, hcompleted, Or.inl (by simpa using hlast)⟩
        · intro delivery hdelivery
          obtain rfl := Option.some.inj hdelivery
          refine Or.inr fun base hlast => ?_
          obtain ⟨completed, hprevious, hcase⟩ := hbase base hlast
          have hlt : completed < id := by
            simpa [alreadyCompleted, hprevious] using hwanted
          have hnext : id = completed + 1 := follows_of_unbroken hid
            (hsame.completed.trans hprevious) hlt hunbroken
          rcases hcase with delivered | waiting | key
          · rw [← delivered]
            exact hnext
          · rw [hsame.waiting waiting] at hrunning
            contradiction
          · rw [hnamedA.2 (hnext ▸ key)] at hdelta
            contradiction

/-- Dropping keeps the guard, and delivers nothing. -/
private theorem Guarded.shrink {s : Tracked} {r' : ChannelReassembler}
    {seen : Option Nat} (h : Guarded s)
    (hshrinks : Shrinks { s.reassembler with latestFrameIdSeen := seen } r') :
    Guarded ⟨r', s.lastDelivered⟩ := by
  refine ⟨fun id a hlookup => h.named id a (hshrinks.frames id a hlookup), ?_⟩
  intro base hlast
  obtain ⟨completed, hprevious, hcase⟩ := h.base base hlast
  refine ⟨completed, hshrinks.completed.trans hprevious, ?_⟩
  rcases hcase with delivered | waiting | key
  · exact Or.inl delivered
  · exact Or.inr (Or.inl (hshrinks.waiting waiting))
  · exact Or.inr (Or.inr fun a hlookup => key a (hshrinks.frames _ a hlookup))

/-- The frames that would lose their base if they were delta frames. -/
private def AfterWithheld (s : Tracked) (id : Nat) : Prop :=
  ∃ base completed, s.lastDelivered = some base ∧
    s.reassembler.latestCompletedId = some completed ∧ completed ≠ base ∧
    id = completed + 1

/-- The frame that would lose its base is a key frame, as the reassembler does not wait. -/
private theorem Guarded.isKeyFrame {s : Tracked} (h : Guarded s) {id : Nat}
    {a : FrameAssembly} (hafter : AfterWithheld s id)
    (hrunning : s.reassembler.waitingAfterLoss = false)
    (hlookup : s.reassembler.frames.lookup id = some a) : a.isKeyFrame = true := by
  obtain ⟨base, completed, hlast, hcompleted, hne, rfl⟩ := hafter
  obtain ⟨completed', hcompleted', hcase⟩ := h.base base hlast
  rw [hcompleted] at hcompleted'
  obtain rfl := Option.some.inj hcompleted'
  rcases hcase with delivered | waiting | allKeys
  · exact absurd delivered hne
  · rw [hrunning] at waiting
    contradiction
  · exact allKeys a hlookup

private theorem onPacket_guarded (iter : IterOrder Nat) {s : Tracked}
    (h : Guarded s) (pkt : Evrt.EvrtPacket) (now : Nat)
    (hkeeps : ¬ s.LosesBase pkt) :
    let result := s.reassembler.onPacket iter pkt now
    Guarded ⟨result.1, (result.2.map (·.frameId)).or s.lastDelivered⟩ ∧
      ∀ delivery, result.2 = some delivery → delivery.isKeyFrame = true ∨
        ∀ base, s.lastDelivered = some base → delivery.frameId = base + 1 := by
  intro result
  rcases s.reassembler.onPacket_cases iter pkt now with
    ⟨r', seen, hresult, hshrinks⟩ | ⟨opened, hresult, hindex, hopens⟩
  · simp only [result, hresult]
    exact ⟨h.shrink hshrinks, by simp⟩
  simp only [result, hresult]
  obtain ⟨seen, hshrinks⟩ := hopens.shrinks
  have hwanted : opened.alreadyCompleted pkt.frameId = false := by
    rw [alreadyCompleted, hshrinks.completed]
    exact hopens.wanted
  have hlets : AfterWithheld s pkt.frameId → s.reassembler.frameIsKey pkt = true := by
    rintro ⟨base, completed, hlast, hcompleted, hne, hid⟩
    by_contra hdelta
    refine hkeeps ⟨base, completed, hlast, hcompleted, hne, hid, hindex, by simpa using hdelta, ?_⟩
    cases hkey : pkt.isKeyFrame with
    | true => exact Or.inr rfl
    | false => exact Or.inl (hopens.running hkey)
  have hholds : Holds (Named (AfterWithheld s)) (fun _ _ => True) opened := by
    refine ⟨?_, fun _ _ _ _ _ => trivial⟩
    intro id a hlookup
    have hold : s.reassembler.frames.lookup id = some a := hshrinks.frames id a hlookup
    refine ⟨h.named id a hold, ?_⟩
    intro hafter
    have hafter' := hafter
    obtain ⟨base, completed, hlast, hcompleted, hne, rfl⟩ := hafter
    have hlt : completed < pkt.frameId := by
      simpa [alreadyCompleted, hcompleted] using hopens.wanted
    by_cases hown : pkt.frameId = completed + 1
    · have hkey := hlets (hown ▸ hafter')
      rw [frameIsKey, hown, hold] at hkey
      exact hkey
    cases hkey : pkt.isKeyFrame with
    | true =>
        have hgone := hopens.superseded hkey (completed + 1) (by omega)
        rw [hlookup] at hgone
        contradiction
    | false => exact h.isKeyFrame hafter' (hopens.running hkey) hold
  have haccepts : Accepts (Named (AfterWithheld s)) opened pkt now := by
    refine ⟨fun hnone => ⟨rfl, fun hafter => ?_⟩, fun a a' hnamed _ hset =>
      hnamed.set hset⟩
    have hkey := hlets hafter
    rw [hopens.kept _ le_rfl] at hnone
    simpa [frameIsKey, hnone, FrameAssembly.new] using hkey
  obtain ⟨hdone, houtcome⟩ := assemble_holds (r := opened)
    (fun id a fec index bytes a' hnamed _ _ hset => hnamed.set hset)
    hholds haccepts
  refine guarded_of_outcome pkt.frameId_lt hdone houtcome hwanted ?_
  intro base hlast
  obtain ⟨completed, hcompleted, _⟩ := h.base base hlast
  refine ⟨completed, hshrinks.completed.trans hcompleted, ?_⟩
  by_cases hsame : completed = base
  · exact Or.inl hsame
  · exact Or.inr (Or.inr ⟨base, completed, hlast, hcompleted, hsame, rfl⟩)

private theorem onFecPacket_guarded {s : Tracked} (h : Guarded s)
    (pkt : Evrt.EvrtPacket) (now : Nat) :
    let result := s.reassembler.onFecPacket pkt now
    Guarded ⟨result.1, (result.2.map (·.frameId)).or s.lastDelivered⟩ ∧
      ∀ delivery, result.2 = some delivery → delivery.isKeyFrame = true ∨
        ∀ base, s.lastDelivered = some base → delivery.frameId = base + 1 := by
  intro result
  let mustBeKey : Nat → Prop := fun id => AfterWithheld s id ∧
    s.reassembler.waitingAfterLoss = false
  have hholds : Holds (Named mustBeKey) (fun _ _ => True) s.reassembler := by
    refine ⟨?_, fun _ _ _ _ _ => trivial⟩
    intro id a hlookup
    refine ⟨h.named id a hlookup, ?_⟩
    rintro ⟨hafter, hrunning⟩
    exact h.isKeyFrame hafter hrunning hlookup
  rcases onFecPacket_holds
    (fun id a fec index bytes a' hnamed _ _ hset => hnamed.set hset)
    hholds pkt now (fun _ _ => trivial) with hsame | ⟨hwanted, hdone, houtcome⟩
  · simp only [result, hsame]
    exact ⟨⟨h.named, h.base⟩, by simp⟩
  · refine guarded_of_outcome pkt.frameId_lt hdone houtcome hwanted ?_
    intro base hlast
    obtain ⟨completed, hcompleted, _⟩ := h.base base hlast
    refine ⟨completed, hcompleted, ?_⟩
    by_cases hsame : completed = base
    · exact Or.inl hsame
    cases hwait : s.reassembler.waitingAfterLoss with
    | true => exact Or.inr (Or.inl rfl)
    | false =>
        exact Or.inr (Or.inr ⟨⟨base, completed, hlast, hcompleted, hsame, rfl⟩, hwait⟩)

private theorem next_eq {last : Option Nat} (op : Op) {out : Option Delivery}
    (h : ∀ payload, op = .setCodecConfig payload → out = none)
    (hreset : op ≠ .reset) :
    Tracked.next last op out = (out.map (·.frameId)).or last := by
  cases op <;> cases out <;> simp_all [Tracked.next]

theorem step_guarded {iter : IterOrder Nat} (s : Tracked) (op : Op)
    (h : Guarded s) (hkeeps : KeepsBase s op) :
    Guarded ((tracked iter).step s op).1 ∧ Decodable iter s op := by
  cases op with
  | packet pkt now =>
      obtain ⟨hguarded, hdecodable⟩ := onPacket_guarded iter h pkt now hkeeps
      refine ⟨?_, hdecodable⟩
      simp only [tracked, next_eq (.packet pkt now) (by simp) (by simp)]
      exact hguarded
  | fecPacket pkt now =>
      obtain ⟨hguarded, hdecodable⟩ := onFecPacket_guarded h pkt now
      refine ⟨?_, hdecodable⟩
      simp only [tracked, next_eq (.fecPacket pkt now) (by simp) (by simp)]
      exact hguarded
  | setCodecConfig payload =>
      exact ⟨⟨h.named, h.base⟩, by simp [Decodable, tracked, machine]⟩
  | reset =>
      refine ⟨⟨?_, ?_⟩, by simp [Decodable, tracked, machine]⟩
      · intro id a hlookup
        simp [tracked, machine, reset] at hlookup
      · intro base hlast
        simp [tracked, Tracked.next] at hlast

/-- In every run in which no packet is let in for the delta frame directly
after a withheld one, every delta frame is delivered directly after its
base. -/
theorem decodable_while_base_kept (iter : IterOrder Nat) (ops : List Op)
    (hkeeps : (tracked iter).Along KeepsBase Tracked.new ops) :
    (tracked iter).Along (Decodable iter) Tracked.new ops := by
  refine (tracked iter).along_of_invariant step_guarded ⟨?_, ?_⟩ hkeeps
  · intro id a hlookup
    simp [Tracked.new, ChannelReassembler.new] at hlookup
  · intro base hlast
    simp [Tracked.new] at hlast

private def videoPacket (frameId index count : Nat) (isKeyFrame : Bool)
    (h : frameId < 2 ^ 32) : Evrt.EvrtPacket where
  packetType := Evrt.typeVideoFrame
  flags := Evrt.frameFlags isKeyFrame
  frameId := frameId
  packetIndex := index
  packetCount := count
  presentationTimeUs := 0
  payload := [0]
  frameId_lt := h

/-- Frame 2 is lost, so frame 3 is withheld; then all of frame 5, a key frame
of two packets, arrives before frame 6. -/
theorem decodable_while_base_kept_recovery :
    let ops : List Op := [.packet (videoPacket 1 0 1 true (by decide)) 0,
      .packet (videoPacket 3 0 1 false (by decide)) 0,
      .packet (videoPacket 5 0 2 true (by decide)) 0,
      .packet (videoPacket 5 1 2 true (by decide)) 0,
      .packet (videoPacket 6 0 1 false (by decide)) 0]
    (tracked (IterOrder.stored Nat)).Along KeepsBase Tracked.new ops ∧
    (tracked (IterOrder.stored Nat)).Along (Decodable (IterOrder.stored Nat)) Tracked.new ops := by
  intro ops
  have hkeeps : (tracked (IterOrder.stored Nat)).Along KeepsBase Tracked.new ops := by
    refine ⟨?first, ?third, ?fifth, ?rest, ?sixth, trivial⟩ <;>
      rintro ⟨base, completed, hlast, hcompleted, hne, hid, -⟩
    case first => contradiction
    case third | sixth =>
      exact hne (Option.some.inj (hcompleted.symm.trans hlast))
    case fifth | rest =>
      have hthree : some 3 = some completed := hcompleted
      have hnext : 5 = completed + 1 := hid
      simp at hthree
      omega
  exact ⟨hkeeps, decodable_while_base_kept _ ops hkeeps⟩

/-- Frame 2 is lost, so frame 3 is withheld. The first of the two packets of
the key frame 5 ends the wait, and frame 4 is delivered upon frame 1. -/
theorem withheld_base_is_lost :
    ¬ ∀ (iter : IterOrder Nat) (ops : List Op),
      (tracked iter).Along (Decodable iter) Tracked.new ops := by
  intro halways
  obtain ⟨-, -, -, hlast, -⟩ := halways (IterOrder.stored Nat)
    [.packet (videoPacket 1 0 1 true (by decide)) 0,
      .packet (videoPacket 3 0 1 false (by decide)) 0,
      .packet (videoPacket 5 0 2 true (by decide)) 0,
      .packet (videoPacket 4 0 1 false (by decide)) 0]
  have hbad := hlast ⟨4, [0], false, 0, 0⟩ rfl
  rcases hbad with key | base
  · contradiction
  · exact absurd (base 1 rfl) (by decide)

end EvertyDesk.Reassembler
