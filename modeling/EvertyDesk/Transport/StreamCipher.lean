import EvertyDesk.Lib.Bytes
import EvertyDesk.Lib.Machine
import EvertyDesk.Lib.Secretbox
import Mathlib.Data.List.Nodup
import Mathlib.Logic.Function.Basic

/-!
The cipher of a relay stream. Every frame has a nonce of its own, made from a counter
of its direction that both ends keep. An end may take its cipher apart into a half
that sends and one that receives, and the counters go on from where they are.

Both directions have one key and count from the same start.
-/

namespace EvertyDesk.Transport

def secretboxKeyLen : Nat := 32
def nonceLen : Nat := 24
def macBytes : Nat := 16

abbrev CipherKey := { key : List UInt8 // key.length = secretboxKeyLen }

structure StreamCipher where
  key : CipherKey
  sendSeq : UInt64
  recvSeq : UInt64

structure SendCipher where
  key : CipherKey
  seq : UInt64

structure RecvCipher where
  key : CipherKey
  seq : UInt64

def nonce (seq : UInt64) : List UInt8 := leBytes 8 seq.toNat ++ List.replicate (nonceLen - 8) 0

namespace StreamCipher

def new (key : List UInt8) : Option StreamCipher :=
  if h : key.length = secretboxKeyLen then some ⟨⟨key, h⟩, 0, 0⟩ else none

def intoHalves (c : StreamCipher) : SendCipher × RecvCipher :=
  (⟨c.key, c.sendSeq⟩, ⟨c.key, c.recvSeq⟩)

end StreamCipher

section Ciphers

variable (box : SecretboxPair)

/-- The decryption of either cipher, after its counter has gone up. -/
def openFrame (key : CipherKey) (seq : UInt64) (ciphertext : List UInt8) :
    Except String (List UInt8) :=
  if ciphertext.length < macBytes then .error "ciphertext too short"
  else (box.secretboxOpenEasy key (nonce seq) ciphertext).mapError ("secretbox open: " ++ ·)

def StreamCipher.encrypt (c : StreamCipher) (plaintext : List UInt8) : List UInt8 × StreamCipher :=
  let sendSeq := c.sendSeq + 1
  (box.secretboxEasy c.key (nonce sendSeq) plaintext, { c with sendSeq })

def StreamCipher.decrypt (c : StreamCipher) (ciphertext : List UInt8) :
    Except String (List UInt8) × StreamCipher :=
  let recvSeq := c.recvSeq + 1
  (openFrame box c.key recvSeq ciphertext, { c with recvSeq })

def SendCipher.encrypt (c : SendCipher) (plaintext : List UInt8) : List UInt8 × SendCipher :=
  let seq := c.seq + 1
  (box.secretboxEasy c.key (nonce seq) plaintext, { c with seq })

def RecvCipher.decrypt (c : RecvCipher) (ciphertext : List UInt8) :
    Except String (List UInt8) × RecvCipher :=
  let seq := c.seq + 1
  (openFrame box c.key seq ciphertext, { c with seq })

/-- A frame is opened with the nonce and the key it was sealed with. -/
theorem openFrame_secretboxEasy (key : CipherKey) (seq : UInt64) (plaintext : List UInt8) :
    openFrame box key seq (box.secretboxEasy key (nonce seq) plaintext) = .ok plaintext := by
  have hlength := box.secretboxEasy_length key (nonce seq) plaintext
  have hlong : ¬ (box.secretboxEasy key (nonce seq) plaintext).length < macBytes :=
    Nat.not_lt.mpr (hlength ▸ Nat.le_add_left macBytes plaintext.length)
  rw [openFrame, if_neg hlong, box.openEasy_easy]
  rfl

end Ciphers

/-! Two ends. -/

inductive Peer where
  | host
  | client
deriving DecidableEq, Repr

def Peer.other : Peer → Peer
  | .host => .client
  | .client => .host

@[simp] theorem Peer.other_other (p : Peer) : p.other.other = p := by
  cases p <;> rfl

/-- The cipher of one end, before and after it is taken apart. -/
inductive Endpoint where
  | whole (cipher : StreamCipher)
  | halves (send : SendCipher) (recv : RecvCipher)

namespace Endpoint

def key : Endpoint → CipherKey
  | whole c => c.key
  | halves s _ => s.key

def sendSeq : Endpoint → UInt64
  | whole c => c.sendSeq
  | halves s _ => s.seq

def recvSeq : Endpoint → UInt64
  | whole c => c.recvSeq
  | halves _ r => r.seq

def recvKey : Endpoint → CipherKey
  | whole c => c.key
  | halves _ r => r.key

def split : Endpoint → Endpoint
  | whole c => halves c.intoHalves.1 c.intoHalves.2
  | halves s r => halves s r

def encrypt (box : SecretboxPair) (plaintext : List UInt8) : Endpoint → List UInt8 × Endpoint
  | whole c => ((c.encrypt box plaintext).1, whole (c.encrypt box plaintext).2)
  | halves s r => ((s.encrypt box plaintext).1, halves (s.encrypt box plaintext).2 r)

def decrypt (box : SecretboxPair) (ciphertext : List UInt8) :
    Endpoint → Except String (List UInt8) × Endpoint
  | whole c => ((c.decrypt box ciphertext).1, whole (c.decrypt box ciphertext).2)
  | halves s r => ((r.decrypt box ciphertext).1, halves s (r.decrypt box ciphertext).2)

end Endpoint

/-- Two ends with one key, and the frames from either on their way. The last three are
not kept by the code: what an end has sent, with which nonces, and what it has got. -/
structure Relay where
  endpoint : Peer → Endpoint
  wire : Peer → List (List UInt8)
  sent : Peer → List (List UInt8)
  nonces : Peer → List (List UInt8)
  received : Peer → List (Except String (List UInt8))

inductive RelayInput where
  | send (peer : Peer) (plaintext : List UInt8)
  /-- The next frame from the other end arrives. -/
  | deliver (peer : Peer)
  | split (peer : Peer)

namespace Relay

def start (cipher : StreamCipher) : Relay where
  endpoint _ := .whole cipher
  wire _ := []
  sent _ := []
  nonces _ := []
  received _ := []

variable (box : SecretboxPair) (s : Relay)

def send (peer : Peer) (plaintext : List UInt8) : Relay :=
  let frame := (s.endpoint peer).encrypt box plaintext
  { s with
    endpoint := Function.update s.endpoint peer frame.2
    wire := Function.update s.wire peer (s.wire peer ++ [frame.1])
    sent := Function.update s.sent peer (s.sent peer ++ [plaintext])
    nonces := Function.update s.nonces peer
      (s.nonces peer ++ [nonce ((s.endpoint peer).sendSeq + 1)]) }

def deliver (peer : Peer) : Relay :=
  match s.wire peer.other with
  | [] => s
  | frame :: frames =>
      let opened := (s.endpoint peer).decrypt box frame
      { s with
        endpoint := Function.update s.endpoint peer opened.2
        wire := Function.update s.wire peer.other frames
        received := Function.update s.received peer (s.received peer ++ [opened.1]) }

def step : RelayInput → Relay × Unit
  | .send peer plaintext => (s.send box peer plaintext, ())
  | .deliver peer => (s.deliver box peer, ())
  | .split peer =>
      ({ s with endpoint := Function.update s.endpoint peer (s.endpoint peer).split }, ())

end Relay

def relay (box : SecretboxPair) : Machine Relay RelayInput Unit := ⟨Relay.step box⟩

section Counters

variable {box : SecretboxPair} {key : CipherKey}

/-- The nonce of a frame, from its place among the frames of its direction. -/
def nonceAt (index : Nat) : List UInt8 := nonce (UInt64.ofNat (index + 1))

theorem nonce_injective {a b : UInt64} (h : nonce a = nonce b) : a = b := by
  have hbytes : leBytes 8 a.toNat = leBytes 8 b.toNat := (List.append_inj h (by simp)).1
  have hvalue := congrArg leNat hbytes
  rw [leNat_leBytes_of_lt a.toNat_lt, leNat_leBytes_of_lt b.toNat_lt] at hvalue
  exact UInt64.toNat_inj.mp hvalue

/-- The counter starts over after 2^64 frames. -/
theorem nonceAt_inj {i j : Nat} : nonceAt i = nonceAt j ↔ i % 2 ^ 64 = j % 2 ^ 64 := by
  constructor
  · intro h
    have hvalue := congrArg UInt64.toNat (nonce_injective h)
    rw [UInt64.toNat_ofNat', UInt64.toNat_ofNat'] at hvalue
    omega
  · intro h
    rw [nonceAt, nonceAt]
    congr 1
    apply UInt64.toNat_inj.mp
    rw [UInt64.toNat_ofNat', UInt64.toNat_ofNat']
    omega

/-- As many frames as the counter has values have different nonces, from any of them
on. -/
theorem nonces_nodup (count k : Nat) :
    ((((List.range count).map nonceAt).drop k).take (2 ^ 64)).Nodup := by
  rw [← List.map_drop, ← List.map_take]
  apply List.Nodup.map_on
  · intro i hi j hj hsame
    obtain ⟨a, ha, rfl⟩ := List.mem_iff_getElem.mp hi
    obtain ⟨b, hb, rfl⟩ := List.mem_iff_getElem.mp hj
    have hwindow := nonceAt_inj.mp hsame
    simp only [List.getElem_take, List.getElem_drop, List.getElem_range,
      List.length_take] at hwindow ha hb ⊢
    omega
  · exact ((List.nodup_range).sublist (List.drop_sublist k _)).sublist (List.take_sublist _ _)

/-- The frames made of some plaintexts, the first of them at a given place. -/
def sealedFrom (box : SecretboxPair) (key : CipherKey) : Nat → List (List UInt8) → List (List UInt8)
  | _, [] => []
  | index, plaintext :: rest =>
      box.secretboxEasy key (nonceAt index) plaintext :: sealedFrom box key (index + 1) rest

theorem sealedFrom_snoc (index : Nat) (plaintexts : List (List UInt8)) (plaintext : List UInt8) :
    sealedFrom box key index (plaintexts ++ [plaintext]) =
      sealedFrom box key index plaintexts ++
        [box.secretboxEasy key (nonceAt (index + plaintexts.length)) plaintext] := by
  induction plaintexts generalizing index with
  | nil => rfl
  | cons first rest ih =>
      rw [List.cons_append, sealedFrom, ih, sealedFrom, List.length_cons,
        Nat.add_right_comm index 1, Nat.add_assoc index, List.cons_append]

/-- The counters of an end that has sent and received so many frames. -/
structure Endpoint.Counts (key : CipherKey) (e : Endpoint) (sent received : Nat) : Prop where
  sendKey : e.key = key
  recvKey : e.recvKey = key
  sendSeq : e.sendSeq = UInt64.ofNat sent
  recvSeq : e.recvSeq = UInt64.ofNat received

namespace Endpoint.Counts

variable {e : Endpoint} {sent received : Nat}

theorem next_sendSeq (h : e.Counts key sent received) :
    e.sendSeq + 1 = UInt64.ofNat (sent + 1) := by
  rw [h.sendSeq, UInt64.ofNat_add]
  rfl

theorem encrypt (h : e.Counts key sent received) (box : SecretboxPair) (plaintext : List UInt8) :
    (e.encrypt box plaintext).1 = box.secretboxEasy key (nonceAt sent) plaintext ∧
      (e.encrypt box plaintext).2.Counts key (sent + 1) received := by
  have hnext := h.next_sendSeq
  obtain ⟨hkey, hrecvKey, -, hrecv⟩ := h
  cases e with
  | whole c =>
      refine ⟨?_, hkey, hrecvKey, hnext, hrecv⟩
      exact congrArg₂ (fun seq k => box.secretboxEasy k.val (nonce seq) plaintext) hnext hkey
  | halves s r =>
      refine ⟨?_, hkey, hrecvKey, hnext, hrecv⟩
      exact congrArg₂ (fun seq k => box.secretboxEasy k.val (nonce seq) plaintext) hnext hkey

/-- An end opens the frame that is next for it. -/
theorem decrypt (h : e.Counts key sent received) (box : SecretboxPair) (plaintext : List UInt8) :
    (e.decrypt box (box.secretboxEasy key (nonceAt received) plaintext)).1 = .ok plaintext ∧
      (e.decrypt box (box.secretboxEasy key (nonceAt received) plaintext)).2.Counts key sent
        (received + 1) := by
  have hnext : e.recvSeq + 1 = UInt64.ofNat (received + 1) := by
    rw [h.recvSeq, UInt64.ofNat_add]
    rfl
  have hopen := openFrame_secretboxEasy box key (UInt64.ofNat (received + 1)) plaintext
  obtain ⟨hkey, hrecvKey, hsend, -⟩ := h
  cases e with
  | whole c =>
      refine ⟨?_, hkey, hrecvKey, hsend, hnext⟩
      subst hrecvKey
      exact (congrArg (fun seq => openFrame box c.key seq _) hnext).trans hopen
  | halves s r =>
      refine ⟨?_, hkey, hrecvKey, hsend, hnext⟩
      subst hrecvKey
      exact (congrArg (fun seq => openFrame box r.key seq _) hnext).trans hopen

/-- Either half goes on with its counter. -/
theorem split (h : e.Counts key sent received) : e.split.Counts key sent received := by
  obtain ⟨hkey, hrecvKey, hsend, hrecv⟩ := h
  cases e with
  | whole c => exact ⟨hkey, hkey, hsend, hrecv⟩
  | halves s r => exact ⟨hkey, hrecvKey, hsend, hrecv⟩

end Endpoint.Counts

end Counters

namespace Relay

variable {box : SecretboxPair} {key : CipherKey} {s : Relay}

/-- One direction: what has arrived is what was sent first, and what is on its way is
the rest. -/
structure Direction (box : SecretboxPair) (key : CipherKey)
    (sent nonces wire : List (List UInt8)) (received : List (Except String (List UInt8))) :
    Prop where
  nonces : nonces = (List.range sent.length).map nonceAt
  split : ∃ got rest, sent = got ++ rest ∧ received = got.map .ok ∧
    wire = sealedFrom box key got.length rest

theorem Direction.send {sent nonces wire : List (List UInt8)}
    {received : List (Except String (List UInt8))}
    (h : Direction box key sent nonces wire received) (plaintext : List UInt8) :
    Direction box key (sent ++ [plaintext]) (nonces ++ [nonceAt sent.length])
      (wire ++ [box.secretboxEasy key (nonceAt sent.length) plaintext]) received := by
  obtain ⟨hnonces, got, rest, hsent, hreceived, hwire⟩ := h
  constructor
  · rw [List.length_append, List.length_singleton, List.range_succ, List.map_append, hnonces]
    rfl
  · refine ⟨got, rest ++ [plaintext], by rw [hsent, List.append_assoc], hreceived, ?_⟩
    rw [sealedFrom_snoc, hwire, hsent, List.length_append]

/-- The frame at the front of the wire is the one that its reader is at. -/
theorem Direction.front {sent nonces wire frames : List (List UInt8)} {frame : List UInt8}
    {received : List (Except String (List UInt8))}
    (h : Direction box key sent nonces wire received) (hwire : wire = frame :: frames) :
    ∃ plaintext, frame = box.secretboxEasy key (nonceAt received.length) plaintext ∧
      Direction box key sent nonces frames (received ++ [.ok plaintext]) := by
  obtain ⟨hnonces, got, rest, hsent, hreceived, hframes⟩ := h
  cases rest with
  | nil => simp [hwire, sealedFrom] at hframes
  | cons plaintext rest =>
      rw [hwire, sealedFrom, List.cons.injEq] at hframes
      refine ⟨plaintext, by rw [hframes.1, hreceived, List.length_map], hnonces,
        got ++ [plaintext], rest, by rw [hsent, List.append_assoc]; rfl, ?_, ?_⟩
      · rw [hreceived, List.map_append]
        rfl
      · rw [hframes.2, List.length_append, List.length_singleton]

structure InStep (box : SecretboxPair) (key : CipherKey) (s : Relay) : Prop where
  counts : ∀ peer, (s.endpoint peer).Counts key (s.sent peer).length (s.received peer).length
  direction : ∀ peer, Direction box key (s.sent peer) (s.nonces peer) (s.wire peer)
    (s.received peer.other)

theorem start_inStep (key : CipherKey) : (start ⟨key, 0, 0⟩).InStep box key where
  counts _ := ⟨rfl, rfl, rfl, rfl⟩
  direction _ := ⟨rfl, [], [], rfl, rfl, rfl⟩

theorem InStep.send (h : s.InStep box key) (peer : Peer) (plaintext : List UInt8) :
    (s.send box peer plaintext).InStep box key := by
  obtain ⟨hframe, hcounts⟩ := (h.counts peer).encrypt box plaintext
  have hnonce : nonce ((s.endpoint peer).sendSeq + 1) = nonceAt (s.sent peer).length :=
    congrArg nonce (h.counts peer).next_sendSeq
  constructor
  · intro q
    by_cases hq : q = peer
    · subst hq
      simpa [Relay.send] using hcounts
    · simpa [Relay.send, hq] using h.counts q
  · intro q
    by_cases hq : q = peer
    · subst hq
      simpa [Relay.send, hframe, hnonce] using (h.direction q).send plaintext
    · simpa [Relay.send, hq] using h.direction q

theorem InStep.deliver (h : s.InStep box key) (peer : Peer) :
    (s.deliver box peer).InStep box key := by
  unfold Relay.deliver
  cases hwire : s.wire peer.other with
  | nil => exact h
  | cons frame frames =>
      have hdirection := h.direction peer.other
      rw [Peer.other_other] at hdirection
      obtain ⟨plaintext, hframe, hnext⟩ := hdirection.front hwire
      obtain ⟨hopened, hcounts⟩ := (h.counts peer).decrypt box plaintext
      rw [← hframe] at hopened hcounts
      constructor
      · intro q
        by_cases hq : q = peer
        · subst hq
          simpa using hcounts
        · simpa [hq] using h.counts q
      · intro q
        by_cases hq : q = peer.other
        · subst hq
          simpa [hopened] using hnext
        · have hother : q.other ≠ peer := by
            intro hpeer
            exact hq (by rw [← hpeer, Peer.other_other])
          simpa [hq, hother] using h.direction q

theorem InStep.step (h : s.InStep box key) (i : RelayInput) :
    ((relay box).step s i).1.InStep box key := by
  cases i with
  | send peer plaintext => exact h.send peer plaintext
  | deliver peer => exact h.deliver peer
  | split peer =>
      constructor
      · intro q
        by_cases hq : q = peer
        · subst hq
          simpa [relay, Relay.step] using (h.counts q).split
        · simpa [relay, Relay.step, hq] using h.counts q
      · exact h.direction

theorem run_inStep (box : SecretboxPair) (key : CipherKey) (is : List RelayInput) :
    ((relay box).run (start ⟨key, 0, 0⟩) is).InStep box key :=
  (relay box).invariant (C := fun _ _ => True) (fun _ i h _ => h.step i) (start_inStep key)
    ((relay box).along_of_forall (fun _ _ => trivial) _ _)

end Relay

/-- What an end receives is what the other one has sent, in order, wherever either takes
its cipher apart, and the frames of one direction have different nonces as long as their
counter has not started over. -/
theorem stream_in_step (box : SecretboxPair) (key : CipherKey) (is : List RelayInput)
    (peer : Peer) :
    let s := (relay box).run (.start ⟨key, 0, 0⟩) is
    s.received peer.other <+: (s.sent peer).map .ok ∧
      ∀ k, (((s.nonces peer).drop k).take (2 ^ 64)).Nodup := by
  intro s
  obtain ⟨hnonces, got, rest, hsent, hreceived, -⟩ := (Relay.run_inStep box key is).direction peer
  constructor
  · rw [hreceived, hsent, List.map_append]
    exact List.prefix_append _ _
  · intro k
    rw [hnonces]
    exact nonces_nodup _ k

/-! Three frames under one key as they are sealed, two of the host and one of the client. -/

def relayKey : CipherKey := ⟨List.replicate 32 1, rfl⟩

def relayRecords : List SecretboxRecord :=
  [⟨relayKey, nonce 1, [1, 2, 3],
      [229, 120, 135, 187, 161, 212, 231, 1, 244, 40, 178, 208, 83, 221, 215, 181, 88, 60, 51]⟩,
    ⟨relayKey, nonce 1, [4, 5],
      [120, 151, 226, 119, 163, 50, 8, 223, 45, 91, 16, 45, 9, 151, 253, 150, 93, 59]⟩,
    ⟨relayKey, nonce 2, [6],
      [40, 216, 212, 43, 147, 2, 208, 76, 240, 173, 157, 222, 182, 219, 241, 226, 16]⟩]

theorem relayRecords_sound : ∀ r ∈ relayRecords, r.Sound := by
  intro r hr
  simp only [relayRecords, List.mem_cons, List.not_mem_nil, or_false] at hr
  rcases hr with rfl | rfl | rfl
  · exact ⟨rfl, by decide⟩
  · exact ⟨rfl, by decide⟩
  · exact ⟨rfl, by decide⟩

theorem relayRecords_agree : ∀ r ∈ relayRecords, ∀ other ∈ relayRecords,
    other.Decrypts r.key r.nonce r.ciphertext → other.message = r.message := by
  decide +kernel

def relayBox : SecretboxPair :=
  SecretboxRecords.box ⟨relayRecords, relayRecords_sound, relayRecords_agree⟩

/-- Either end takes its cipher apart after its first frame. -/
def splitRun : List RelayInput :=
  [.send .host [1, 2, 3], .split .host, .deliver .client, .send .client [4, 5], .split .client,
    .send .host [6], .deliver .host, .deliver .client]

theorem stream_in_step_split :
    let s := (relay relayBox).run (.start ⟨relayKey, 0, 0⟩) splitRun
    (s.received .client <+: (s.sent .host).map .ok ∧
        ∀ k, (((s.nonces .host).drop k).take (2 ^ 64)).Nodup) ∧
      s.received .client = [.ok [1, 2, 3], .ok [6]] ∧ s.received .host = [.ok [4, 5]] :=
  ⟨stream_in_step relayBox relayKey splitRun .host, by decide +kernel, by decide +kernel⟩

/-- The first frames of the two directions have one nonce and one key. -/
theorem both_directions_share_nonces :
    let s := (relay relayBox).run (.start ⟨relayKey, 0, 0⟩) splitRun
    ¬ (s.nonces .host ++ s.nonces .client).Nodup := by
  decide +kernel

end EvertyDesk.Transport
