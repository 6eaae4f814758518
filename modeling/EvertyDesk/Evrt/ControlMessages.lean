import EvertyDesk.Evrt.JsonFields
import EvertyDesk.Evrt.Packetize
import EvertyDesk.Host.AdaptiveRelief
import EvertyDesk.Lib.Utf8

/-!
What a client tells its host. A control packet is a request for a key frame or a report of
the receiver, in bytes, or in JSON from clients that know no other form. Older reports are
shorter, and say nothing of the client's screen.
-/

namespace EvertyDesk.Evrt

open Host (Pressure)

def typeControl : Nat := 4

def ctrlRequestKeyFrame : UInt8 := 0x01
def ctrlReceiverFeedback : UInt8 := 0x02

structure ReceiverFeedback where
  pressure : Pressure
  backlogFrames : UInt32
  queueDrops : UInt64
  decodeFps : UInt32
  assemblyDelayMs : Int32
  arrivalDeltaMs : Int32
  decodeDeltaMs : Int32
  presentDeltaMs : Int32
  pulseEstimateMs : Int32
  inputEstimateMs : Int32
  /-- Zero where the client sets no bound. -/
  maxWidth : UInt32
  maxHeight : UInt32
deriving DecidableEq

def pressureToU8 : Pressure → UInt8
  | .normal => 0
  | .high => 1
  | .critical => 2

def pressureFromU8 (v : UInt8) : Pressure :=
  if v = 1 then .high else if v = 2 then .critical else .normal

def pressureFromStr (s : List Char) : Pressure :=
  if s = "critical".toList then .critical else if s = "high".toList then .high else .normal

def bytesOfI32 (n : Int32) : List UInt8 := beBytes 4 n.toUInt32.toNat

def u32At (b : List UInt8) (offset : Nat) : UInt32 := UInt32.ofNat (beNat (field b offset 4))

def i32At (b : List UInt8) (offset : Nat) : Int32 := (u32At b offset).toInt32

namespace ReceiverFeedback

variable (fb : ReceiverFeedback)

def toBytes : List UInt8 :=
  [pressureToU8 fb.pressure] ++ (beBytes 4 fb.backlogFrames.toNat ++
    (beBytes 8 fb.queueDrops.toNat ++ (beBytes 4 fb.decodeFps.toNat ++
      (bytesOfI32 fb.assemblyDelayMs ++ (bytesOfI32 fb.arrivalDeltaMs ++
        (bytesOfI32 fb.decodeDeltaMs ++ (bytesOfI32 fb.presentDeltaMs ++
          (bytesOfI32 fb.pulseEstimateMs ++ (bytesOfI32 fb.inputEstimateMs ++
            (beBytes 4 fb.maxWidth.toNat ++ beBytes 4 fb.maxHeight.toNat))))))))))

def fromBytes (b : List UInt8) : Option ReceiverFeedback :=
  if b.length < 41 then none
  else
    some {
      pressure := pressureFromU8 (b.headD 0)
      backlogFrames := u32At b 1
      queueDrops := UInt64.ofNat (beNat (field b 5 8))
      decodeFps := u32At b 13
      assemblyDelayMs := i32At b 17
      arrivalDeltaMs := i32At b 21
      decodeDeltaMs := i32At b 25
      presentDeltaMs := i32At b 29
      pulseEstimateMs := i32At b 33
      inputEstimateMs := i32At b 37
      maxWidth := if 45 ≤ b.length then u32At b 41 else 0
      maxHeight := if 49 ≤ b.length then u32At b 45 else 0 }

end ReceiverFeedback

inductive ControlMessage where
  | requestKeyFrame
  | receiverFeedback (fb : ReceiverFeedback)
deriving DecidableEq

/-! Control packets in JSON. -/

def jsonU64Field (s key : List Char) : Option UInt64 :=
  (jsonNumberField (2 ^ 64) s key).map UInt64.ofNat

/-- A sign may come first. Another one is an error. -/
def parseI32 (text : List Char) : Option Int32 :=
  let (negative, digits) :=
    match text with
    | '-' :: digits => (true, digits)
    | digits => (false, digits)
  if digits.isEmpty || !digits.all Char.isDigit then none
  else
    let size : Int := Nat.ofDigitChars 10 digits 0
    let value := if negative then -size else size
    if -2 ^ 31 ≤ value ∧ value < 2 ^ 31 then some (Int32.ofInt value) else none

def jsonI32Field (s key : List Char) : Option Int32 :=
  (jsonRest s key).bind fun rest => parseI32 (rest.takeWhile fun c => c == '-' || c.isDigit)

def parseFeedback (s : List Char) : ReceiverFeedback where
  pressure := pressureFromStr ((jsonStrField s "pressure".toList).getD [])
  backlogFrames := (jsonU32Field s "backlogFrames".toList).getD 0
  queueDrops := (jsonU64Field s "queueDrops".toList).getD 0
  decodeFps := (jsonU32Field s "decodeFps".toList).getD 0
  assemblyDelayMs := (jsonI32Field s "assemblyDelayMs".toList).getD (-1)
  arrivalDeltaMs := (jsonI32Field s "arrivalDeltaMs".toList).getD (-1)
  decodeDeltaMs := (jsonI32Field s "decodeDeltaMs".toList).getD (-1)
  presentDeltaMs := (jsonI32Field s "presentDeltaMs".toList).getD (-1)
  pulseEstimateMs := (jsonI32Field s "pulseEstimateMs".toList).getD (-1)
  inputEstimateMs := (jsonI32Field s "inputEstimateMs".toList).getD (-1)
  maxWidth := 0
  maxHeight := 0

/-- The first byte of a text, which is none of a message in bytes. -/
def jsonBrace : UInt8 := 0x7B

def controlSessionToken (payload : List UInt8) : Option (List UInt8) :=
  if payload.head? ≠ some jsonBrace then none
  else do
    let s ← decodeUtf8 payload
    let token ← (jsonStrField s "sessionToken".toList).or (jsonStrField s "token".toList)
    if validSessionToken (utf8 token) then some (utf8 token) else none

/-- A message in bytes has its token in the tag of its packet. -/
def controlTokenMatches (payload : List UInt8) (expected : Option (List UInt8)) : Bool :=
  if payload.head? ≠ some jsonBrace then true
  else
    match expected with
    | some expected => validSessionToken expected && controlSessionToken payload == some expected
    | none => true

def parseControl (payload : List UInt8) : Option ControlMessage :=
  match payload with
  | [] => none
  | first :: rest =>
      if first = jsonBrace then do
        let s ← decodeUtf8 payload
        let kind ← jsonStrField s "kind".toList
        if kind = "request_key_frame".toList then some .requestKeyFrame
        else if kind = "receiver_feedback".toList then some (.receiverFeedback (parseFeedback s))
        else none
      else if first = ctrlRequestKeyFrame then some .requestKeyFrame
      else if first = ctrlReceiverFeedback then
        (ReceiverFeedback.fromBytes rest).map .receiverFeedback
      else none

section Sessions

variable (sha : Sha256) (sessionToken : Option (List UInt8))

def buildRequestKeyFrameAuthenticated : List UInt8 :=
  buildSingleAuthenticated sha typeControl [ctrlRequestKeyFrame] sessionToken

def buildReceiverFeedbackAuthenticated (fb : ReceiverFeedback) : List UInt8 :=
  buildSingleAuthenticated sha typeControl (ctrlReceiverFeedback :: fb.toBytes) sessionToken

/-- The message that a host's session hears in a datagram of its client. -/
def controlIn (datagram : List UInt8) : Option ControlMessage := do
  let pkt ← parseAuthenticated sha datagram datagram.length sessionToken
  if pkt.packetType = typeControl ∧ controlTokenMatches pkt.payload sessionToken then
    parseControl pkt.payload
  else none

end Sessions

section Reading

variable {fb : ReceiverFeedback}

theorem pressureFromU8_toU8 (pressure : Pressure) :
    pressureFromU8 (pressureToU8 pressure) = pressure := by
  cases pressure <;> rfl

@[simp] theorem bytesOfI32_length (n : Int32) : (bytesOfI32 n).length = 4 := beBytes_length ..

@[simp] theorem toBytes_length : fb.toBytes.length = 49 := by
  simp [ReceiverFeedback.toBytes]

theorem i32_readBack (n : Int32) : Int32.ofNat (beNat (bytesOfI32 n)) = n := by
  change (UInt32.ofNat (beNat (bytesOfI32 n))).toInt32 = n
  rw [bytesOfI32, readBack32]
  rfl

theorem field_take {b : List UInt8} {offset width n : Nat} (h : offset + width ≤ n) :
    field (b.take n) offset width = field b offset width := by
  rw [field, field, List.drop_take, List.take_take, Nat.min_eq_left (by omega)]

theorem field_cons (byte : UInt8) (rest : List UInt8) (offset width : Nat) :
    field (byte :: rest) (offset + 1) width = field rest offset width := rfl

/-- What a report says whatever comes behind its first 41 bytes. -/
theorem fromBytes_front (fb : ReceiverFeedback) (size : List UInt8) :
    ReceiverFeedback.fromBytes (fb.toBytes.take 41 ++ size) =
      some { fb with
        maxWidth := if 4 ≤ size.length then u32At size 0 else 0
        maxHeight := if 8 ≤ size.length then u32At size 4 else 0 } := by
  have hfront : (fb.toBytes.take 41).length = 41 := by simp
  have hlength : (fb.toBytes.take 41 ++ size).length = 41 + size.length := by
    rw [List.length_append, hfront]
  have hbytes : fb.toBytes.take 41 ++ size =
      pressureToU8 fb.pressure :: (beBytes 4 fb.backlogFrames.toNat ++
        (beBytes 8 fb.queueDrops.toNat ++ (beBytes 4 fb.decodeFps.toNat ++
          (bytesOfI32 fb.assemblyDelayMs ++ (bytesOfI32 fb.arrivalDeltaMs ++
            (bytesOfI32 fb.decodeDeltaMs ++ (bytesOfI32 fb.presentDeltaMs ++
              (bytesOfI32 fb.pulseEstimateMs ++
                (bytesOfI32 fb.inputEstimateMs ++ size))))))))) := by
    simp [ReceiverFeedback.toBytes, List.take_append, List.take_of_length_le]
  have hend : ∀ offset width, field (fb.toBytes.take 41 ++ size) (41 + offset) width =
      field size offset width := by
    intro offset width
    rw [field_skip (by omega), hfront, Nat.add_sub_cancel_left]
  rw [ReceiverFeedback.fromBytes, hlength, if_neg (by omega), Option.some_inj,
    ReceiverFeedback.mk.injEq]
  refine ⟨?_, ?_, ?_, ?_, ?_, ?_, ?_, ?_, ?_, ?_, ?_, ?_⟩
  · rw [hbytes, List.headD_cons, pressureFromU8_toU8]
  case refine_11 =>
    apply ite_congr (propext (by omega)) (fun _ => ?_) fun _ => rfl
    exact congrArg (UInt32.ofNat ∘ beNat) (hend 0 4)
  case refine_12 =>
    apply ite_congr (propext (by omega)) (fun _ => ?_) fun _ => rfl
    exact congrArg (UInt32.ofNat ∘ beNat) (hend 4 4)
  all_goals
    rw [hbytes]
    simp [u32At, i32At, field_cons, field_skip, field_here, i32_readBack]

/-- A report that is cut off is read up to where the bytes of its screen's size end. -/
theorem fromBytes_take (fb : ReceiverFeedback) (n : Nat) :
    ReceiverFeedback.fromBytes (fb.toBytes.take n) =
      if n < 41 then none
      else some { fb with
        maxWidth := if 45 ≤ n then fb.maxWidth else 0
        maxHeight := if 49 ≤ n then fb.maxHeight else 0 } := by
  split
  next hshort =>
    have hlength : (fb.toBytes.take n).length < 41 := by
      rw [List.length_take]
      omega
    rw [ReceiverFeedback.fromBytes, if_pos hlength]
  next hlong =>
    obtain ⟨more, rfl⟩ := Nat.exists_eq_add_of_le (Nat.not_lt.mp hlong)
    have hsize : fb.toBytes.drop 41 =
        beBytes 4 fb.maxWidth.toNat ++ beBytes 4 fb.maxHeight.toNat := by
      simp [ReceiverFeedback.toBytes, List.drop_append, List.drop_eq_nil_of_le]
    have hmore : ((fb.toBytes.drop 41).take more).length = min more 8 := by
      rw [List.length_take, List.length_drop, toBytes_length]
    rw [List.take_add, fromBytes_front, hmore]
    apply congrArg some
    rw [ReceiverFeedback.mk.injEq]
    refine ⟨rfl, rfl, rfl, rfl, rfl, rfl, rfl, rfl, rfl, rfl, ?_, ?_⟩
    · apply ite_congr (propext (by omega)) (fun hwidth => ?_) fun _ => rfl
      rw [u32At, field_take (by omega), hsize, field_here (beBytes_length ..), readBack32]
    · apply ite_congr (propext (by omega)) (fun hheight => ?_) fun _ => rfl
      rw [u32At, field_take (by omega), hsize, field_skip (by simp), beBytes_length,
        ← List.append_nil (beBytes 4 fb.maxHeight.toNat), field_here (beBytes_length ..),
        readBack32]

end Reading

section Hearing

variable (sha : Sha256) (sessionToken : Option (List UInt8))

/-- A packet of its own, as it is read. -/
def singlePacket (packetType : Nat) (payload : List UInt8) : EvrtPacket where
  packetType := packetType
  flags := 0
  frameId := 0
  packetIndex := 0
  packetCount := 1
  presentationTimeUs := 0
  payload := payload
  frameId_lt := Nat.two_pow_pos 32

theorem parse_buildSingle {packetType : Nat} {payload : List UInt8} (htype : packetType < 256)
    (h : payload.length ≤ 1160) :
    let datagram := buildSingleAuthenticated sha packetType payload sessionToken
    parseAuthenticated sha datagram datagram.length sessionToken =
      some (singlePacket packetType payload) := by
  have hmax : payload.length ≤ baseMax sessionToken := by
    unfold baseMax
    split <;> simp only [maxAuthPayloadSize, maxPayloadSize, maxPacketSize, headerSize,
      authTagSize] <;> omega
  have hfits : (singlePacket packetType payload).Fits :=
    { packetType := htype
      flags := Nat.two_pow_pos 16
      index := Nat.one_pos
      count := by change 1 ≤ maxFramePacketCount; decide
      time := Nat.two_pow_pos 64
      payload := hmax.trans (VideoFrame.baseMax_le sessionToken) }
  rw [buildSingleAuthenticated, if_neg (Nat.not_lt.mpr hmax)]
  exact parseAuthenticated_build sha (singlePacket packetType payload) hfits sessionToken hmax

theorem controlIn_build {payload : List UInt8} (h : payload.length ≤ 1160)
    (hbinary : payload.head? ≠ some jsonBrace) :
    controlIn sha sessionToken (buildSingleAuthenticated sha typeControl payload sessionToken) =
      parseControl payload := by
  have hmatches : controlTokenMatches payload sessionToken = true := if_pos hbinary
  have hread := parse_buildSingle sha sessionToken (show typeControl < 256 by decide) h
  dsimp only at hread
  rw [controlIn, hread]
  exact if_pos ⟨rfl, hmatches⟩

/-- Under every token the host hears a request as one, and a report as it was sent. Of a
report that is cut off it hears nothing, or all but the size of the screen. -/
theorem heard_as_sent (fb : ReceiverFeedback) :
    controlIn sha sessionToken (buildRequestKeyFrameAuthenticated sha sessionToken) =
        some .requestKeyFrame ∧
      controlIn sha sessionToken (buildReceiverFeedbackAuthenticated sha sessionToken fb) =
        some (.receiverFeedback fb) ∧
      ∀ n, controlIn sha sessionToken (buildSingleAuthenticated sha typeControl
          (ctrlReceiverFeedback :: fb.toBytes.take n) sessionToken) =
        if n < 41 then none
        else some (.receiverFeedback { fb with
          maxWidth := if 45 ≤ n then fb.maxWidth else 0
          maxHeight := if 49 ≤ n then fb.maxHeight else 0 }) := by
  have hreport : ∀ n, controlIn sha sessionToken (buildSingleAuthenticated sha typeControl
      (ctrlReceiverFeedback :: fb.toBytes.take n) sessionToken) =
        (ReceiverFeedback.fromBytes (fb.toBytes.take n)).map .receiverFeedback := by
    intro n
    have hlength : (ctrlReceiverFeedback :: fb.toBytes.take n).length ≤ 1160 := by
      rw [List.length_cons, List.length_take, toBytes_length]
      omega
    have hbinary : some ctrlReceiverFeedback ≠ some jsonBrace := by decide
    exact controlIn_build sha sessionToken hlength hbinary
  refine ⟨?_, ?_, fun n => ?_⟩
  · exact controlIn_build sha sessionToken (by decide) (by decide)
  · have hwhole : fb.toBytes.take 49 = fb.toBytes := List.take_of_length_le (by simp)
    have hsent := hreport 49
    rw [fromBytes_take, hwhole] at hsent
    exact hsent
  · rw [hreport, fromBytes_take]
    split <;> rfl

end Hearing

end EvertyDesk.Evrt
