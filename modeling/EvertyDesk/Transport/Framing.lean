import EvertyDesk.Lib.Bytes
import EvertyDesk.Lib.Machine
import Mathlib.Data.List.GetD
import Mathlib.Data.List.Infix

/-!
Messages on the TCP stream. A message is its length, in a header of one to four
bytes, and its bytes. A read that times out in the middle of a message has taken
the bytes before that place out of the stream.
-/

namespace EvertyDesk.Transport

def encodeFrameLen (len : Nat) : Except String (List UInt8) :=
  if len ≤ 0x3f then .ok [UInt8.ofNat (len <<< 2)]
  else if len ≤ 0x3fff then .ok (leBytes 2 (UInt16.ofNat (len <<< 2) ||| 0x1).toNat)
  else if len ≤ 0x3fffff then
    let header := UInt32.ofNat (len <<< 2) ||| 0x2
    .ok [(header &&& 0xff).toUInt8, ((header >>> 8) &&& 0xff).toUInt8,
      ((header >>> 16) &&& 0xff).toUInt8]
  else if len ≤ 0x3fffffff then .ok (leBytes 4 (UInt32.ofNat (len <<< 2) ||| 0x3).toNat)
  else .error "Frame too large"

/-- The size of the header, from its first byte. -/
def headLen (first : UInt8) : Nat := ((first &&& 0x3) + 1).toNat

/-- The length that a header stands for. -/
def frameLen (header : List UInt8) : Nat :=
  let len := (header.getD 0 0).toNat
  let len := if 1 < header.length then len ||| (header.getD 1 0).toNat <<< 8 else len
  let len := if 2 < header.length then len ||| (header.getD 2 0).toNat <<< 16 else len
  let len := if 3 < header.length then len ||| (header.getD 3 0).toNat <<< 24 else len
  len >>> 2

/-- The bytes written and not yet read, and how many of them have arrived. -/
structure TcpStream where
  bytes : List UInt8
  arrived : Nat
  arrived_le : arrived ≤ bytes.length

namespace TcpStream

variable (s : TcpStream)

def empty : TcpStream := ⟨[], 0, by simp⟩

def write (bytes : List UInt8) : TcpStream where
  bytes := s.bytes ++ bytes
  arrived := s.arrived
  arrived_le := by
    rw [List.length_append]
    exact s.arrived_le.trans (Nat.le_add_right _ _)

/-- What has arrived when `more` bytes come in. -/
def arrivedAfter (more : Nat) : Nat := min (s.arrived + more) s.bytes.length

/-- Read `n` bytes, of which `more` arrive before the time is up. What has arrived
by then is taken out of the stream in any case. -/
def readExact (n more : Nat) : Option (List UInt8) × TcpStream :=
  if h : n ≤ s.arrivedAfter more then
    (some (s.bytes.take n),
      { bytes := s.bytes.drop n
        arrived := s.arrivedAfter more - n
        arrived_le := by
          rw [List.length_drop]
          exact Nat.sub_le_sub_right (Nat.min_le_right _ _) n })
  else
    (none,
      { bytes := s.bytes.drop (s.arrivedAfter more)
        arrived := 0
        arrived_le := Nat.zero_le _ })

/-- What arrives during the three reads of a message, and the error of a read that
is not served in time. -/
structure Waits where
  first : Nat
  header : Nat
  payload : Nat
  error : String

def sendFramed (payload : List UInt8) : Except String TcpStream := do
  let header ← encodeFrameLen payload.length
  return s.write (header ++ payload)

def readFramed (w : Waits) : Except String (List UInt8) × TcpStream :=
  match s.readExact 1 w.first with
  | (none, s) => (.error ("TCP read header failed: " ++ w.error), s)
  | (some first, s) =>
      let size := headLen (first.getD 0 0)
      match if 1 < size then s.readExact (size - 1) w.header else (some [], s) with
      | (none, s) => (.error ("TCP read header failed: " ++ w.error), s)
      | (some rest, s) =>
          match s.readExact (frameLen (first ++ rest)) w.payload with
          | (none, s) => (.error ("TCP read payload failed: " ++ w.error), s)
          | (some payload, s) => (.ok payload, s)

end TcpStream

def containsText (text part : String) : Bool := decide (part.toList <:+: text.toList)

def isTimeoutError (err : String) : Bool :=
  ["timed out", "would block", "WouldBlock", "Resource temporarily unavailable",
    "os error 11", "os error 35", "10060", "os error 997",
    "Попытка установить соединение"].any (containsText err)

/-- The two ends of a session's stream: one writes messages, the other reads them
until an error that is no time-out. -/
structure Session where
  stream : TcpStream
  ended : Bool

inductive SessionInput where
  | send (payload : List UInt8)
  | read (waits : TcpStream.Waits)

namespace Session

def start : Session := ⟨.empty, false⟩

variable (s : Session)

/-- Messages are put out as they are read. -/
def step : SessionInput → Session × Option (List UInt8)
  | .send payload =>
      match s.stream.sendFramed payload with
      | .ok stream => ({ s with stream := stream }, none)
      | .error _ => (s, none)
  | .read w =>
      if s.ended then (s, none)
      else
        match s.stream.readFramed w with
        | (.ok payload, stream) => ({ s with stream := stream }, some payload)
        | (.error err, stream) => ({ stream := stream, ended := !isTimeoutError err }, none)

end Session

def tcpSession : Machine Session SessionInput (Option (List UInt8)) := ⟨Session.step⟩

def SessionInput.sent : SessionInput → Option (List UInt8)
  | .send payload => some payload
  | .read _ => none

/-- The size of the header for a length. -/
def headerSize (len : Nat) : Nat :=
  if len ≤ 0x3f then 1 else if len ≤ 0x3fff then 2 else if len ≤ 0x3fffff then 3 else 4

def header (len : Nat) : List UInt8 := leBytes (headerSize len) (4 * len + (headerSize len - 1))

/-- What is written for a payload. -/
def message (payload : List UInt8) : List UInt8 := header payload.length ++ payload

/-- The size of the message at the front of a byte string, and of its header. -/
def frontHeader (bytes : List UInt8) : Nat := headLen (bytes.getD 0 0)

def frontMessage (bytes : List UInt8) : Nat :=
  frontHeader bytes + frameLen (bytes.take (frontHeader bytes))

/-- What arrives by the end of the read of the header. -/
def TcpStream.Waits.byHeader (w : TcpStream.Waits) (bytes : List UInt8) : Nat :=
  w.first + if 1 < frontHeader bytes then w.header else 0

/-- The read of a message times out before its first byte has arrived, or not at
all. -/
def TcpStream.InTime (s : TcpStream) (w : TcpStream.Waits) : Prop :=
  s.arrivedAfter w.first = 0 ∨
    frontHeader s.bytes ≤ s.arrivedAfter (w.byHeader s.bytes) ∧
      frontMessage s.bytes ≤ s.arrivedAfter (w.byHeader s.bytes + w.payload)

/-- The lengths of payloads that have a header. -/
def SessionInput.Sendable : SessionInput → Prop
  | .send payload => payload.length ≤ 0x3fffffff
  | .read _ => True

def SessionInput.InTime (s : Session) : SessionInput → Prop
  | .send _ => True
  | .read w => s.stream.InTime w

section Headers

theorem shiftLeft_or {k tag : Nat} (h : tag < 2 ^ k) (len : Nat) :
    len <<< k ||| tag = 2 ^ k * len + tag := by
  rw [← Nat.shiftLeft_add_eq_or_of_lt h, Nat.shiftLeft_eq, Nat.mul_comm]

theorem lowBytes_three (header : UInt32) :
    [(header &&& 0xff).toUInt8, ((header >>> 8) &&& 0xff).toUInt8,
      ((header >>> 16) &&& 0xff).toUInt8] = leBytes 3 header.toNat := by
  have hlow (n : UInt32) : (n &&& 0xff).toUInt8 = UInt8.ofNat n.toNat := by
    rw [← UInt8.toNat_inj]
    have hmask : n.toNat &&& (2 ^ 8 - 1) = n.toNat % 2 ^ 8 := Nat.and_two_pow_sub_one_eq_mod _ 8
    have hbyte : (n &&& 0xff).toNat = n.toNat % 2 ^ 8 := hmask
    rw [UInt32.toNat_toUInt8, hbyte, UInt8.toNat_ofNat', Nat.mod_mod]
  have h8 : (header >>> 8).toNat = header.toNat / 256 := by
    rw [UInt32.toNat_shiftRight]
    exact Nat.shiftRight_eq_div_pow _ _
  have h16 : (header >>> 16).toNat = header.toNat / 256 / 256 := by
    rw [UInt32.toNat_shiftRight, Nat.div_div_eq_div_mul]
    exact Nat.shiftRight_eq_div_pow _ _
  rw [hlow, hlow, hlow, h8, h16]
  rfl

theorem encodeFrameLen_ok {len : Nat} (h : len ≤ 0x3fffffff) :
    encodeFrameLen len = .ok (header len) := by
  unfold encodeFrameLen header headerSize
  split
  · next hone =>
    have hlow : len <<< 2 = 4 * len := by omega
    rw [hlow]
    rfl
  split
  · next htwo =>
    have hcast : (UInt16.ofNat (len <<< 2) ||| 0x1).toNat = 4 * len + 1 := by
      have hfits : len <<< 2 < 2 ^ 16 := by omega
      rw [UInt16.toNat_or, UInt16.toNat_ofNat_of_lt' hfits]
      exact shiftLeft_or (by decide) len
    rw [hcast]
  split
  · next hthree =>
    have hcast : (UInt32.ofNat (len <<< 2) ||| 0x2).toNat = 4 * len + 2 := by
      have hfits : len <<< 2 < 2 ^ 32 := by omega
      rw [UInt32.toNat_or, UInt32.toNat_ofNat_of_lt' hfits]
      exact shiftLeft_or (by decide) len
    exact congrArg Except.ok ((lowBytes_three _).trans (congrArg (leBytes 3) hcast))
  · next hfour =>
    have hcast : (UInt32.ofNat (len <<< 2) ||| 0x3).toNat = 4 * len + 3 := by
      have hfits : len <<< 2 < 2 ^ 32 := by omega
      rw [UInt32.toNat_or, UInt32.toNat_ofNat_of_lt' hfits]
      exact shiftLeft_or (by decide) len
    rw [hcast]

/-- A header is its length shifted over its own size. -/
theorem frameLen_eq {header : List UInt8} (h : header.length ≤ 4) :
    frameLen header = leNat header / 4 := by
  have two (a b : UInt8) : a.toNat ||| b.toNat <<< 8 = leNat [a, b] := leNat_or_shiftLeft [a] b
  have three (a b c : UInt8) : leNat [a, b] ||| c.toNat <<< 16 = leNat [a, b, c] :=
    leNat_or_shiftLeft [a, b] c
  have four (a b c d : UInt8) : leNat [a, b, c] ||| d.toNat <<< 24 = leNat [a, b, c, d] :=
    leNat_or_shiftLeft [a, b, c] d
  match header with
  | [] => rfl
  | [a] => simp [frameLen, leNat, Nat.shiftRight_eq_div_pow]
  | [a, b] => simp [frameLen, Nat.shiftRight_eq_div_pow, two]
  | [a, b, c] => simp [frameLen, Nat.shiftRight_eq_div_pow, two, three]
  | [a, b, c, d] => simp [frameLen, Nat.shiftRight_eq_div_pow, two, three, four]

theorem headerSize_le (len : Nat) : headerSize len ≤ 4 := by
  unfold headerSize
  split <;> [decide; split <;> [decide; split <;> decide]]

@[simp] theorem header_length (len : Nat) : (header len).length = headerSize len :=
  leBytes_length _ _

/-- The length that is written is the length that is read. -/
theorem frameLen_header {len : Nat} (h : len ≤ 0x3fffffff) : frameLen (header len) = len := by
  have hfits : 4 * len + (headerSize len - 1) < 256 ^ headerSize len := by
    unfold headerSize
    split
    · omega
    split
    · omega
    split
    · omega
    · omega
  rw [frameLen_eq (by simpa using headerSize_le len), header, leNat_leBytes_of_lt hfits]
  have hsize := headerSize_le len
  omega

theorem headLen_eq (first : UInt8) : headLen first = first.toNat % 4 + 1 := by
  have hmask : (first &&& 0x3).toNat = first.toNat % 4 :=
    Nat.and_two_pow_sub_one_eq_mod first.toNat 2
  have hone : (1 : UInt8).toNat = 1 := rfl
  rw [headLen, UInt8.toNat_add, hmask, hone]
  omega

theorem headerSize_pos (len : Nat) : 0 < headerSize len := by
  unfold headerSize
  split <;> [decide; split <;> [decide; split <;> decide]]

/-- The low bits of the first byte are the size of the header. -/
theorem headLen_header (len : Nat) : headLen ((header len).getD 0 0) = headerSize len := by
  obtain ⟨size, hsize⟩ : ∃ size, headerSize len = size + 1 :=
    ⟨headerSize len - 1, by have := headerSize_pos len; omega⟩
  have hle := headerSize_le len
  have hfirst : (header len).getD 0 0 = UInt8.ofNat (4 * len + size) := by
    rw [header, hsize]
    rfl
  rw [hfirst, headLen_eq, UInt8.toNat_ofNat', hsize]
  omega

theorem frontHeader_message (payload rest : List UInt8) :
    frontHeader (message payload ++ rest) = headerSize payload.length := by
  rw [frontHeader, message, List.append_assoc, List.getD_append _ _ _ _
    (by simpa using headerSize_pos payload.length), headLen_header]

theorem frontMessage_message {payload : List UInt8} (h : payload.length ≤ 0x3fffffff)
    (rest : List UInt8) : frontMessage (message payload ++ rest) = (message payload).length := by
  rw [frontMessage, frontHeader_message, message, List.append_assoc,
    List.take_left' (header_length _), frameLen_header h, List.length_append, header_length]

end Headers

namespace TcpStream

section Reads

variable {s : TcpStream}

/-- What a read takes is no longer there for the next. -/
theorem readExact_served {n more : Nat} (h : n ≤ s.arrivedAfter more) :
    ∃ next : TcpStream, s.readExact n more = (some (s.bytes.take n), next) ∧
      next.bytes = s.bytes.drop n ∧
      ∀ k, next.arrivedAfter k = s.arrivedAfter (more + k) - n := by
  refine ⟨_, dif_pos h, rfl, ?_⟩
  intro k
  unfold arrivedAfter at h ⊢
  simp only [List.length_drop]
  omega

theorem readExact_late {n more : Nat} (h : s.arrivedAfter more < n) :
    ∃ next : TcpStream, s.readExact n more = (none, next) ∧
      next.bytes = s.bytes.drop (s.arrivedAfter more) :=
  ⟨_, dif_neg (by omega), rfl⟩

/-- A read that times out before the first byte leaves the stream alone. -/
theorem readFramed_idle {w : Waits} (h : s.arrivedAfter w.first = 0) :
    ∃ err next, s.readFramed w = (.error err, next) ∧ next.bytes = s.bytes := by
  have hlate : s.arrivedAfter w.first < 1 := by omega
  obtain ⟨next, hread, hbytes⟩ := readExact_late hlate
  refine ⟨"TCP read header failed: " ++ w.error, next, ?_, ?_⟩
  · rw [readFramed, hread]
  · rw [hbytes, h, List.drop_zero]

theorem readRest_served {size more : Nat}
    (h : size ≤ s.arrivedAfter (if 0 < size then more else 0)) :
    ∃ next : TcpStream, (if 0 < size then s.readExact size more else (some [], s)) =
        (some (s.bytes.take size), next) ∧
      next.bytes = s.bytes.drop size ∧
      ∀ k, next.arrivedAfter k = s.arrivedAfter ((if 0 < size then more else 0) + k) - size := by
  by_cases hpos : 0 < size
  · simp only [if_pos hpos] at h ⊢
    exact readExact_served h
  · obtain rfl : size = 0 := by omega
    exact ⟨s, rfl, rfl, fun k => by simp⟩

/-- A read that is served takes the first message out of the stream. -/
theorem readFramed_served {w : Waits} (hfirst : 1 ≤ s.arrivedAfter w.first)
    (hheader : frontHeader s.bytes ≤ s.arrivedAfter (w.byHeader s.bytes))
    (hmessage : frontMessage s.bytes ≤ s.arrivedAfter (w.byHeader s.bytes + w.payload)) :
    ∃ next, s.readFramed w = (.ok ((s.bytes.drop (frontHeader s.bytes)).take
        (frameLen (s.bytes.take (frontHeader s.bytes)))), next) ∧
      next.bytes = s.bytes.drop (frontMessage s.bytes) := by
  obtain ⟨size, hsize⟩ : ∃ size, frontHeader s.bytes = size + 1 := ⟨_, headLen_eq _⟩
  obtain ⟨afterFirst, hreadFirst, hbytesFirst, harrivedFirst⟩ := readExact_served hfirst
  have htake : s.bytes.take 1 ++ afterFirst.bytes.take size = s.bytes.take (size + 1) := by
    rw [hbytesFirst, Nat.add_comm size 1, List.take_add]
  have hhead : (s.bytes.take 1).getD 0 0 = s.bytes.getD 0 0 := by
    cases hbytes : s.bytes with
    | nil => rfl
    | cons first rest => rfl
  have hby : w.byHeader s.bytes = w.first + if 0 < size then w.header else 0 := by
    simp only [Waits.byHeader, hsize, Nat.lt_add_left_iff_pos]
  have hrest : size ≤ afterFirst.arrivedAfter (if 0 < size then w.header else 0) := by
    rw [harrivedFirst, ← hby]
    omega
  obtain ⟨afterHeader, hreadHeader, hbytesHeader, harrivedHeader⟩ := readRest_served hrest
  have hlast : frameLen (s.bytes.take (size + 1)) ≤ afterHeader.arrivedAfter w.payload := by
    rw [harrivedHeader, harrivedFirst, ← Nat.add_assoc, ← hby]
    rw [frontMessage, hsize] at hmessage
    omega
  obtain ⟨last, hreadLast, hbytesLast, _⟩ := readExact_served hlast
  refine ⟨last, ?_, ?_⟩
  · have hif : 1 < headLen ((s.bytes.take 1).getD 0 0) ↔ 0 < size := by
      rw [hhead]
      change 1 < frontHeader s.bytes ↔ _
      omega
    have hsub : headLen ((s.bytes.take 1).getD 0 0) - 1 = size := by
      rw [hhead]
      exact Nat.sub_eq_of_eq_add hsize
    have hdrop : s.bytes.drop (size + 1) = afterHeader.bytes := by
      rw [hbytesHeader, hbytesFirst, List.drop_drop, Nat.add_comm]
    simp only [readFramed, hreadFirst, hif, hsub, hreadHeader, htake]
    rw [hreadLast, hsize, hdrop]
  · rw [hbytesLast, hbytesHeader, hbytesFirst, List.drop_drop, List.drop_drop, frontMessage, hsize]
    congr 1
    omega

end Reads

end TcpStream

section Runs

variable {s : Session} {w : TcpStream.Waits} {unread : List (List UInt8)}

theorem sendFramed_ok (stream : TcpStream) {payload : List UInt8}
    (h : payload.length ≤ 0x3fffffff) :
    stream.sendFramed payload = .ok (stream.write (message payload)) := by
  rw [TcpStream.sendFramed, encodeFrameLen_ok h]
  rfl

/-- What a read that is in time does to a stream of whole messages. -/
theorem readFramed_messages {stream : TcpStream} (hsize : ∀ p ∈ unread, p.length ≤ 0x3fffffff)
    (hbytes : stream.bytes = unread.flatMap message) (htime : stream.InTime w) :
    (∃ err next, stream.readFramed w = (.error err, next) ∧
        next.bytes = unread.flatMap message) ∨
      ∃ payload rest next, unread = payload :: rest ∧
        stream.readFramed w = (.ok payload, next) ∧ next.bytes = rest.flatMap message := by
  by_cases hidle : stream.arrivedAfter w.first = 0
  · obtain ⟨err, next, hread, hnext⟩ := TcpStream.readFramed_idle hidle
    exact .inl ⟨err, next, hread, hnext.trans hbytes⟩
  · obtain ⟨hheader, hmessage⟩ := htime.resolve_left hidle
    have hserved := TcpStream.readFramed_served (Nat.pos_of_ne_zero hidle) hheader hmessage
    cases unread with
    | nil =>
        have hnone : stream.arrivedAfter w.first ≤ stream.bytes.length := Nat.min_le_right _ _
        rw [hbytes] at hnone
        exact absurd (Nat.le_zero.mp hnone) hidle
    | cons payload rest =>
        have hpayload := hsize payload List.mem_cons_self
        obtain ⟨next, hread, hnext⟩ := hserved
        rw [hbytes, List.flatMap_cons] at hread hnext
        rw [frontMessage_message hpayload, List.drop_left] at hnext
        refine .inr ⟨payload, rest, next, rfl, ?_, hnext⟩
        rw [hread, frontHeader_message, message, List.append_assoc,
          List.take_left' (header_length _), frameLen_header hpayload,
          List.drop_left' (header_length _), List.take_left]

/-- From a stream of whole messages on, what is read is what was written. -/
theorem outputs_before {inputs : List SessionInput}
    (hunread : ∀ p ∈ unread, p.length ≤ 0x3fffffff) (hsize : ∀ i ∈ inputs, i.Sendable)
    (hbytes : s.stream.bytes = unread.flatMap message)
    (htime : tcpSession.Along SessionInput.InTime s inputs) :
    (tcpSession.outputs s inputs).filterMap id <+:
      unread ++ inputs.filterMap SessionInput.sent := by
  induction inputs generalizing s unread with
  | nil => exact List.nil_prefix
  | cons input inputs ih =>
      obtain ⟨hinput, hrest⟩ := htime
      have hlater : ∀ i ∈ inputs, i.Sendable := fun i hi => hsize i (List.mem_cons_of_mem _ hi)
      cases input with
      | send payload =>
          have hpayload : payload.length ≤ 0x3fffffff := hsize _ List.mem_cons_self
          have hstep : tcpSession.step s (.send payload) =
              ({ s with stream := s.stream.write (message payload) }, none) := by
            change Session.step s (.send payload) = _
            rw [Session.step, sendFramed_ok _ hpayload]
          rw [hstep] at hrest
          have hall : ∀ p ∈ unread ++ [payload], p.length ≤ 0x3fffffff := by
            intro p member
            rcases List.mem_append.mp member with hp | hp
            · exact hunread p hp
            · exact List.mem_singleton.mp hp ▸ hpayload
          have hnext := ih hall hlater (by simp [TcpStream.write, hbytes]) hrest
          simpa [hstep, SessionInput.sent] using hnext
      | read w =>
          have hsent : (SessionInput.read w :: inputs).filterMap SessionInput.sent =
              inputs.filterMap SessionInput.sent := rfl
          rw [hsent]
          cases hended : s.ended with
          | true =>
              have hstep : tcpSession.step s (.read w) = (s, none) := by
                change Session.step s (.read w) = _
                rw [Session.step, if_pos hended]
              rw [hstep] at hrest
              simpa [hstep] using ih hunread hlater hbytes hrest
          | false =>
              have hopen : ¬ s.ended = true := by simp [hended]
              rcases readFramed_messages hunread hbytes hinput with
                ⟨err, next, hread, hnext⟩ | ⟨payload, rest, next, rfl, hread, hnext⟩
              · have hstep : tcpSession.step s (.read w) =
                    ({ stream := next, ended := !isTimeoutError err }, none) := by
                  change Session.step s (.read w) = _
                  rw [Session.step, if_neg hopen, hread]
                rw [hstep] at hrest
                simpa [hstep] using ih hunread hlater hnext hrest
              · have hstep : tcpSession.step s (.read w) =
                    ({ s with stream := next }, some payload) := by
                  change Session.step s (.read w) = _
                  rw [Session.step, if_neg hopen, hread]
                rw [hstep] at hrest
                have htail := ih (fun p hp => hunread p (List.mem_cons_of_mem _ hp)) hlater
                  hnext hrest
                simpa [hstep] using htail

end Runs

/-- What is read is a prefix of what was written, in every run in which no read
times out in the middle of a message; and a header is always read back. -/
theorem framing_in_step {inputs : List SessionInput} (hsize : ∀ i ∈ inputs, i.Sendable)
    (htime : tcpSession.Along SessionInput.InTime Session.start inputs) :
    (tcpSession.outputs Session.start inputs).filterMap id <+: inputs.filterMap SessionInput.sent ∧
      ∀ len ≤ 0x3fffffff, ∃ bytes, encodeFrameLen len = .ok bytes ∧
        headLen (bytes.getD 0 0) = bytes.length ∧ frameLen bytes = len := by
  have hnone : ∀ p ∈ ([] : List (List UInt8)), p.length ≤ 0x3fffffff := by simp
  refine ⟨outputs_before hnone hsize rfl htime, ?_⟩
  intro len hlen
  exact ⟨header len, encodeFrameLen_ok hlen, by rw [headLen_header, header_length],
    frameLen_header hlen⟩

theorem framing_in_step_late_first_byte :
    (tcpSession.outputs Session.start
        [.send [7, 8], .read ⟨0, 0, 0, "timed out"⟩, .read ⟨3, 0, 0, "timed out"⟩]).filterMap id <+:
        [[7, 8]] ∧
      ∀ len ≤ 0x3fffffff, ∃ bytes, encodeFrameLen len = .ok bytes ∧
        headLen (bytes.getD 0 0) = bytes.length ∧ frameLen bytes = len :=
  framing_in_step (by simp [SessionInput.Sendable])
    ⟨trivial, .inl rfl, .inr ⟨by decide, by decide⟩, trivial⟩

theorem isTimeoutError_append (before : String) :
    isTimeoutError (before ++ "timed out") = true := by
  have hin : containsText (before ++ "timed out") "timed out" = true :=
    decide_eq_true (by
      rw [String.toList_append]
      exact (List.suffix_append _ _).isInfix)
  exact List.any_eq_true.mpr ⟨_, List.mem_cons_self, hin⟩

/-- The first read gets the header and times out; the second takes the payload's
first byte to be a header. -/
theorem late_payload_shifts_stream :
    ¬ ∀ inputs : List SessionInput, (∀ i ∈ inputs, i.Sendable) →
      (tcpSession.outputs Session.start inputs).filterMap id <+:
          inputs.filterMap SessionInput.sent ∧
        ∀ len ≤ 0x3fffffff, ∃ bytes, encodeFrameLen len = .ok bytes ∧
          headLen (bytes.getD 0 0) = bytes.length ∧ frameLen bytes = len := by
  intro hall
  have hprefix := (hall [.send [0, 0], .read ⟨1, 0, 0, "timed out"⟩,
    .read ⟨1, 0, 0, "timed out"⟩] (by simp [SessionInput.Sendable])).1
  have hlate : tcpSession.outputs Session.start [.send [0, 0], .read ⟨1, 0, 0, "timed out"⟩,
      .read ⟨1, 0, 0, "timed out"⟩] = [none, none, some []] := by
    have hread : tcpSession.step ⟨⟨[8, 0, 0], 0, by decide⟩, false⟩
        (.read ⟨1, 0, 0, "timed out"⟩) = (⟨⟨[0, 0], 0, by decide⟩,
          !isTimeoutError ("TCP read payload failed: " ++ "timed out")⟩, none) := rfl
    rw [isTimeoutError_append] at hread
    change none :: (tcpSession.step ⟨⟨[8, 0, 0], 0, _⟩, false⟩ _).2 ::
      tcpSession.outputs (tcpSession.step ⟨⟨[8, 0, 0], 0, _⟩, false⟩ _).1 [_] = _
    rw [hread]
    rfl
  rw [hlate] at hprefix
  exact absurd hprefix (by decide)

end EvertyDesk.Transport
