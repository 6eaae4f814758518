import EvertyDesk.Lib.Bytes
import EvertyDesk.Lib.Walks

/-!
The answer of a STUN server tells a host the address from which the server has
its question. The answer is a header of 20 bytes and a list of attributes, each
padded to a multiple of four bytes. Any host may send the datagram that is
parsed here.
-/

namespace EvertyDesk.Transport

/-- Four bytes, most significant first. -/
structure Ipv4Addr where
  a : UInt8
  b : UInt8
  c : UInt8
  d : UInt8
deriving DecidableEq, Repr

structure SocketAddr where
  ip : Ipv4Addr
  port : UInt16
deriving DecidableEq, Repr

def stunMagicCookie : UInt32 := 0x2112A442

def stunBindingSuccess : UInt16 := 0x0101

def stunAttrXorMappedAddress : UInt16 := 0x0020

def stunAttrMappedAddress : UInt16 := 0x0001

/-! The parser. -/

def u16FromBeBytes (high low : UInt8) : UInt16 := UInt16.ofNat (beNat [high, low])

def u32ToBeBytes (word : UInt32) : Vector UInt8 4 :=
  #v[(word >>> 24).toUInt8, (word >>> 16).toUInt8, (word >>> 8).toUInt8, word.toUInt8]

def readU16 (bytes : List UInt8) (pos : Nat) : Checked UInt16 := do
  let high ← Checked.index bytes pos
  let low ← Checked.index bytes (← Checked.add pos 1)
  return u16FromBeBytes high low

/-- The addresses found so far. -/
structure Found where
  mapped : Option SocketAddr
  xorMapped : Option SocketAddr
deriving DecidableEq, Repr

/-- `value.len() >= 8 && value[1] == 0x01`. -/
def holdsIpv4 (value : List UInt8) : Checked Bool := do
  if 8 ≤ value.length then
    let family ← Checked.index value 1
    return family == 0x01
  else return false

def readXorMapped (value : List UInt8) : Checked SocketAddr := do
  let cookie := u32ToBeBytes stunMagicCookie
  let port ← readU16 value 2
  let a ← Checked.index value 4
  let b ← Checked.index value 5
  let c ← Checked.index value 6
  let d ← Checked.index value 7
  return {
    ip := ⟨a ^^^ cookie[0], b ^^^ cookie[1], c ^^^ cookie[2], d ^^^ cookie[3]⟩
    port := port ^^^ u16FromBeBytes cookie[0] cookie[1] }

def readMapped (value : List UInt8) : Checked SocketAddr := do
  let port ← readU16 value 2
  let a ← Checked.index value 4
  let b ← Checked.index value 5
  let c ← Checked.index value 6
  let d ← Checked.index value 7
  return { ip := ⟨a, b, c, d⟩, port }

/-- The two branches on the type of an attribute. -/
def noteAddress (attrType : UInt16) (value : List UInt8) (found : Found) : Checked Found := do
  if attrType = stunAttrXorMappedAddress ∧ (← holdsIpv4 value) then
    return { found with xorMapped := some (← readXorMapped value) }
  else if attrType = stunAttrMappedAddress ∧ (← holdsIpv4 value) then
    return { found with mapped := some (← readMapped value) }
  else return found

/-- One turn of the loop. The padded length is `(attr_len + 3) & !3`. -/
def attributeAt (msg : List UInt8) (stop pos : Nat) (found : Found) :
    Checked (Option (Nat × Found)) := do
  let valStart ← Checked.add pos 4
  if valStart ≤ stop then
    let attrType ← readU16 msg pos
    let attrLen ← readU16 msg (← Checked.add pos 2)
    let valEnd ← Checked.add valStart attrLen.toNat
    if stop < valEnd ∨ valEnd < valStart then return none
    else
      let value ← Checked.slice msg valStart valEnd
      let found ← noteAddress attrType value found
      let paddedLen := (← Checked.add attrLen.toNat 3) / 4 * 4
      return some (← Checked.add valStart paddedLen, found)
  else return none

theorem attributeAt_advances {msg : List UInt8} {stop pos pos' : Nat} {found found' : Found}
    (h : attributeAt msg stop pos found = .ok (some (pos', found'))) :
    pos < pos' ∧ pos < stop := by
  unfold attributeAt at h
  obtain ⟨valStart, hvalStart, h⟩ := Checked.returns_of_bind h
  obtain rfl := Checked.add_returns hvalStart
  split at h
  case isFalse => simp [pure, Except.pure] at h
  case isTrue hle =>
    obtain ⟨attrType, -, h⟩ := Checked.returns_of_bind h
    obtain ⟨lengthPos, -, h⟩ := Checked.returns_of_bind h
    obtain ⟨attrLen, -, h⟩ := Checked.returns_of_bind h
    obtain ⟨valEnd, -, h⟩ := Checked.returns_of_bind h
    split at h
    case isTrue => simp [pure, Except.pure] at h
    case isFalse =>
      obtain ⟨value, -, h⟩ := Checked.returns_of_bind h
      obtain ⟨noted, -, h⟩ := Checked.returns_of_bind h
      obtain ⟨rounded, -, h⟩ := Checked.returns_of_bind h
      obtain ⟨next, hnext, h⟩ := Checked.returns_of_bind h
      obtain rfl := Checked.add_returns hnext
      simp only [pure, Except.pure, Except.ok.injEq, Option.some.injEq, Prod.mk.injEq] at h
      omega

/-- `while pos + 4 <= end`. -/
def attributeWalk (msg : List UInt8) (stop : Nat) : Walk Found where
  stop := stop
  turn := attributeAt msg stop
  advances _ _ _ _ := attributeAt_advances

def parseMappedAddress (msg : List UInt8) : Checked (Option SocketAddr) := do
  let length ← readU16 msg 2
  let stop := min (← Checked.add 20 length.toNat) msg.length
  let found ← (attributeWalk msg stop).run 20 { mapped := none, xorMapped := none }
  return found.xorMapped.or found.mapped

/-! What an attribute says. -/

/-- A reserved byte, the family, the port and the four bytes of the address. -/
def ipv4Of : List UInt8 → Option SocketAddr
  | _ :: family :: p :: q :: a :: b :: c :: d :: _ =>
      if family = 0x01 then some ⟨⟨a, b, c, d⟩, u16FromBeBytes p q⟩ else none
  | _ => none

/-- The address under the magic cookie, bit by bit. -/
def SocketAddr.masked (address : SocketAddr) : SocketAddr where
  ip := ⟨address.ip.a ^^^ 0x21, address.ip.b ^^^ 0x12, address.ip.c ^^^ 0xA4, address.ip.d ^^^ 0x42⟩
  port := address.port ^^^ 0x2112

def xorMappedOf (attrType : UInt16) (value : List UInt8) : Option SocketAddr :=
  if attrType = stunAttrXorMappedAddress then (ipv4Of value).map SocketAddr.masked else none

def mappedOf (attrType : UInt16) (value : List UInt8) : Option SocketAddr :=
  if attrType = stunAttrMappedAddress then ipv4Of value else none

/-- A value holds no IPv4 address, or it begins with the fields of one. -/
theorem ipv4Of_cases (value : List UInt8) :
    holdsIpv4 value = .ok false ∧ ipv4Of value = none ∨
      ∃ reserved p q a b c d rest,
        value = reserved :: 0x01 :: p :: q :: a :: b :: c :: d :: rest := by
  match value with
  | reserved :: family :: p :: q :: a :: b :: c :: d :: rest =>
      by_cases hfamily : family = 0x01
      · exact Or.inr ⟨reserved, p, q, a, b, c, d, rest, by rw [hfamily]⟩
      · refine Or.inl ⟨?_, if_neg hfamily⟩
        simp [holdsIpv4, Checked.index, bind, Except.bind, pure, Except.pure, hfamily]
  | [] | [_] | [_, _] | [_, _, _] | [_, _, _, _] | [_, _, _, _, _] | [_, _, _, _, _, _]
  | [_, _, _, _, _, _, _] => exact Or.inl ⟨rfl, rfl⟩

theorem noteAddress_eq (attrType : UInt16) (value : List UInt8) (found : Found) :
    noteAddress attrType value found =
      .ok { mapped := (mappedOf attrType value).or found.mapped
            xorMapped := (xorMappedOf attrType value).or found.xorMapped } := by
  rcases ipv4Of_cases value with ⟨hholds, hnone⟩ | ⟨reserved, p, q, a, b, c, d, rest, rfl⟩
  · simp [noteAddress, hholds, mappedOf, xorMappedOf, hnone, bind, Except.bind, pure, Except.pure]
  · have hholds : holdsIpv4 (reserved :: 0x01 :: p :: q :: a :: b :: c :: d :: rest) =
        .ok true := rfl
    by_cases hxor : attrType = stunAttrXorMappedAddress
    · subst hxor
      rfl
    · by_cases hmapped : attrType = stunAttrMappedAddress
      · subst hmapped
        rfl
      · simp [noteAddress, hholds, mappedOf, xorMappedOf, hxor, hmapped, bind, Except.bind,
          pure, Except.pure]

/-! Any string. -/

theorem readU16_ok {bytes : List UInt8} {pos : Nat} (h : pos + 1 < bytes.length)
    (hword : pos + 1 < Checked.wordLimit) : ∃ value, readU16 bytes pos = .ok value := by
  refine ⟨u16FromBeBytes bytes[pos] bytes[pos + 1], ?_⟩
  rw [readU16, Checked.bind_ok (Checked.index_ok (by omega)),
    Checked.bind_ok (Checked.add_ok hword), Checked.bind_ok (Checked.index_ok h)]
  rfl

/-- A turn from a position not far behind the stop neither overflows nor reads
outside the string, and goes on not far behind the stop. -/
theorem attributeAt_returns {msg : List UInt8} {stop pos : Nat} (found : Found)
    (hstop : stop ≤ msg.length) (hsmall : stop < 2 ^ 17) (hpos : pos < stop + 4) :
    ∃ outcome, attributeAt msg stop pos found = .ok outcome ∧
      ∀ pos' found', outcome = some (pos', found') → pos' < stop + 4 := by
  have hword : 2 ^ 18 < Checked.wordLimit := by decide
  rw [attributeAt, Checked.bind_ok (Checked.add_ok (by omega))]
  split
  case isFalse => exact ⟨none, rfl, by simp⟩
  case isTrue hle =>
    obtain ⟨attrType, htype⟩ := @readU16_ok msg pos (by omega) (by omega)
    obtain ⟨attrLen, hlen⟩ := @readU16_ok msg (pos + 2) (by omega) (by omega)
    have hlenlt := attrLen.toNat_lt
    rw [Checked.bind_ok htype, Checked.bind_ok (Checked.add_ok (by omega)),
      Checked.bind_ok hlen, Checked.bind_ok (Checked.add_ok (by omega))]
    split
    case isTrue => exact ⟨none, rfl, by simp⟩
    case isFalse hwithin =>
      rw [Checked.bind_ok (Checked.slice_ok (by omega) (by omega)),
        Checked.bind_ok (noteAddress_eq _ _ _), Checked.bind_ok (Checked.add_ok (by omega)),
        Checked.bind_ok (Checked.add_ok (by omega))]
      refine ⟨_, rfl, fun pos' found' hnext => ?_⟩
      simp only [Option.some.injEq, Prod.mk.injEq] at hnext
      omega

theorem parseMappedAddress_returns {msg : List UInt8} (h : 20 ≤ msg.length) :
    ∃ result, parseMappedAddress msg = .ok result := by
  have hword : 2 ^ 18 < Checked.wordLimit := by decide
  obtain ⟨length, hlength⟩ := @readU16_ok msg 2 (by omega) (by omega)
  have hlt := length.toNat_lt
  obtain ⟨stop, hstop⟩ : ∃ stop, stop = min (20 + length.toNat) msg.length := ⟨_, rfl⟩
  obtain ⟨found, hfound⟩ : ∃ found, (attributeWalk msg stop).run 20
      { mapped := none, xorMapped := none } = .ok found :=
    Walk.run_returns (fun pos found (hpos : pos < stop + 4) =>
      attributeAt_returns found (by omega) (by omega) hpos) (by omega)
  refine ⟨found.xorMapped.or found.mapped, ?_⟩
  rw [parseMappedAddress, Checked.bind_ok hlength, Checked.bind_ok (Checked.add_ok (by omega)),
    ← hstop, Checked.bind_ok hfound]
  rfl

/-- The loop over the datagrams that come before the time is up or the socket
fails. -/
def recvStunResponse (txnId : List UInt8) :
    List (List UInt8) → Checked (Option SocketAddr)
  | [] => return none
  | datagram :: later => do
      if datagram.length < 20 then recvStunResponse txnId later
      else
        let msgType ← readU16 datagram 0
        if msgType ≠ stunBindingSuccess then recvStunResponse txnId later
        else
          let txn ← Checked.slice datagram 8 20
          if txn ≠ txnId then recvStunResponse txnId later
          else parseMappedAddress datagram

/-- The parser meets no string shorter than a header, whatever the datagrams. -/
theorem recvStunResponse_returns (txnId : List UInt8) (datagrams : List (List UInt8)) :
    ∃ result, recvStunResponse txnId datagrams = .ok result := by
  induction datagrams with
  | nil => exact ⟨none, rfl⟩
  | cons datagram later ih =>
      rw [recvStunResponse]
      split
      case isTrue => exact ih
      case isFalse hlength =>
        obtain ⟨msgType, htype⟩ := @readU16_ok datagram 0 (by omega) (by decide)
        rw [Checked.bind_ok htype]
        split
        case isTrue => exact ih
        case isFalse =>
          rw [Checked.bind_ok (Checked.slice_ok (by omega) (by omega))]
          split
          case isTrue => exact ih
          case isFalse => exact parseMappedAddress_returns (by omega)

/-! Well-formed answers. -/

structure Attribute where
  type : UInt16
  value : List UInt8
  padding : List UInt8
  fits : value.length < 2 ^ 16
  padded : (value.length + padding.length) % 4 = 0
  least : padding.length < 4

def Attribute.encode (attr : Attribute) : List UInt8 :=
  beBytes 2 attr.type.toNat ++ (beBytes 2 attr.value.length ++ (attr.value ++ attr.padding))

def Attribute.mapped (attr : Attribute) : Option SocketAddr := mappedOf attr.type attr.value

def Attribute.xorMapped (attr : Attribute) : Option SocketAddr := xorMappedOf attr.type attr.value

/-- `transaction` is the magic cookie and the number of the question. -/
structure Response where
  messageType : UInt16
  transaction : List UInt8
  attributes : List Attribute
  transaction_length : transaction.length = 16
  fits : (attributes.flatMap Attribute.encode).length < 2 ^ 16

def Response.encode (response : Response) : List UInt8 :=
  beBytes 2 response.messageType.toNat ++
    (beBytes 2 (response.attributes.flatMap Attribute.encode).length ++
      (response.transaction ++ response.attributes.flatMap Attribute.encode))

/-- The last address under the cookie if there is one, otherwise the last plain
one. -/
def Response.mappedAddress (response : Response) : Option SocketAddr :=
  (response.attributes.filterMap Attribute.xorMapped).getLast?.or
    (response.attributes.filterMap Attribute.mapped).getLast?

theorem readU16_of_drop {bytes rest : List UInt8} {pos n : Nat}
    (h : bytes.drop pos = beBytes 2 n ++ rest) (hn : n < 2 ^ 16)
    (hword : pos + 1 < Checked.wordLimit) : readU16 bytes pos = .ok (UInt16.ofNat n) := by
  have hpair : beBytes 2 n = [UInt8.ofNat (n / 256), UInt8.ofNat n] := rfl
  have hvalue : u16FromBeBytes (UInt8.ofNat (n / 256)) (UInt8.ofNat n) = UInt16.ofNat n := by
    rw [u16FromBeBytes, ← hpair, beNat_beBytes_of_lt hn]
  have hhigh : bytes.drop pos = UInt8.ofNat (n / 256) :: UInt8.ofNat n :: rest := by
    rw [h, hpair]
    rfl
  have hlow : bytes.drop (pos + 1) = UInt8.ofNat n :: rest :=
    @Checked.drop_further _ _ [_] _ _ hhigh
  rw [readU16, Checked.bind_ok (Checked.index_of_drop hhigh),
    Checked.bind_ok (Checked.add_ok hword), Checked.bind_ok (Checked.index_of_drop hlow), hvalue]
  rfl

/-- What a turn makes of an attribute. -/
def Found.note (found : Found) (attr : Attribute) : Found where
  mapped := attr.mapped.or found.mapped
  xorMapped := attr.xorMapped.or found.xorMapped

/-- These attributes lie from the position up to the stop. -/
def Laid (msg : List UInt8) (stop pos : Nat) (attributes : List Attribute) : Prop :=
  pos + (attributes.flatMap Attribute.encode).length = stop ∧
    ∃ more, msg.drop pos = attributes.flatMap Attribute.encode ++ more

theorem Attribute.encode_length (attr : Attribute) :
    attr.encode.length = 4 + (attr.value.length + 3) / 4 * 4 := by
  have hpadded := attr.padded
  have hleast := attr.least
  simp only [Attribute.encode, List.length_append, beBytes_length]
  omega

theorem Laid.rest {msg : List UInt8} {stop pos : Nat} {attr : Attribute}
    {attributes : List Attribute} (h : Laid msg stop pos (attr :: attributes)) :
    Laid msg stop (pos + attr.encode.length) attributes := by
  obtain ⟨hstop, more, hmore⟩ := h
  rw [List.flatMap_cons] at hstop hmore
  rw [List.length_append] at hstop
  refine ⟨by omega, more, ?_⟩
  rw [List.append_assoc] at hmore
  exact Checked.drop_further hmore

theorem attributeAt_laid {msg : List UInt8} {stop pos : Nat} {attr : Attribute}
    {attributes : List Attribute} (found : Found) (hstop : stop ≤ msg.length)
    (hsmall : stop < 2 ^ 17) (h : Laid msg stop pos (attr :: attributes)) :
    attributeAt msg stop pos found = .ok (some (pos + attr.encode.length, found.note attr)) := by
  have hword : 2 ^ 18 < Checked.wordLimit := by decide
  obtain ⟨hend, more, hmore⟩ := h
  have hlength := attr.encode_length
  have hfits := attr.fits
  rw [List.flatMap_cons] at hend hmore
  rw [List.length_append] at hend
  simp only [Attribute.encode, List.append_assoc] at hmore
  have hvalueStart := Checked.drop_further hmore
  have hvalue := Checked.drop_further hvalueStart
  rw [beBytes_length] at hvalueStart
  rw [beBytes_length, beBytes_length, Nat.add_assoc] at hvalue
  have htype : readU16 msg pos = .ok attr.type := by
    rw [readU16_of_drop hmore attr.type.toNat_lt (by omega), UInt16.ofNat_toNat]
  have hlen : readU16 msg (pos + 2) = .ok (UInt16.ofNat attr.value.length) :=
    readU16_of_drop hvalueStart hfits (by omega)
  have hlenNat : (UInt16.ofNat attr.value.length).toNat = attr.value.length := by
    rw [UInt16.toNat_ofNat', Nat.mod_eq_of_lt hfits]
  rw [attributeAt, Checked.bind_ok (Checked.add_ok (by omega)), if_pos (by omega),
    Checked.bind_ok htype, Checked.bind_ok (Checked.add_ok (by omega)), Checked.bind_ok hlen,
    hlenNat, Checked.bind_ok (Checked.add_ok (by omega)), if_neg (by omega),
    Checked.bind_ok (Checked.slice_of_drop hvalue (by omega) rfl),
    Checked.bind_ok (noteAddress_eq _ _ _), Checked.bind_ok (Checked.add_ok (by omega)),
    Checked.bind_ok (Checked.add_ok (by omega)), hlength, Nat.add_assoc]
  rfl

theorem attributeAt_end {msg : List UInt8} {stop pos : Nat} (found : Found)
    (hsmall : stop < 2 ^ 17) (h : Laid msg stop pos []) :
    attributeAt msg stop pos found = .ok none := by
  have hword : 2 ^ 18 < Checked.wordLimit := by decide
  obtain ⟨hend, -⟩ := h
  rw [List.flatMap_nil, List.length_nil, Nat.add_zero] at hend
  rw [attributeAt, Checked.bind_ok (Checked.add_ok (by omega)), if_neg (by omega)]
  rfl

theorem foldl_note (attributes : List Attribute) (found : Found) :
    attributes.foldl Found.note found =
      { mapped := (attributes.filterMap Attribute.mapped).getLast?.or found.mapped
        xorMapped := (attributes.filterMap Attribute.xorMapped).getLast?.or found.xorMapped } := by
  induction attributes generalizing found with
  | nil => rfl
  | cons attr attributes ih =>
      rw [List.foldl_cons, ih, getLast?_filterMap_cons, getLast?_filterMap_cons]
      rfl

theorem parseMappedAddress_encode (response : Response) (more : List UInt8) :
    parseMappedAddress (response.encode ++ more) = .ok response.mappedAddress := by
  have hword : 2 ^ 18 < Checked.wordLimit := by decide
  obtain ⟨messageType, transaction, attributes, htransaction, hfits⟩ := response
  obtain ⟨body, hbody⟩ : ∃ body, body = attributes.flatMap Attribute.encode := ⟨_, rfl⟩
  obtain ⟨msg, hmsg⟩ : ∃ msg, msg = (Response.mk messageType transaction attributes
    htransaction hfits).encode ++ more := ⟨_, rfl⟩
  have hall : msg.drop 0 = beBytes 2 messageType.toNat ++ (beBytes 2 body.length ++
      (transaction ++ (body ++ more))) := by
    simp [hmsg, hbody, Response.encode]
  have hafterType := Checked.drop_further hall
  have hafterLength := Checked.drop_further hafterType
  have hattributes := Checked.drop_further hafterLength
  simp only [beBytes_length, htransaction, Nat.zero_add, Nat.reduceAdd] at hafterType hattributes
  have hlength : msg.length = 20 + body.length + more.length := by
    rw [List.drop_zero] at hall
    simp only [hall, List.length_append, beBytes_length, htransaction]
    omega
  rw [← hbody] at hfits
  have hlengthNat : (UInt16.ofNat body.length).toNat = body.length := by
    rw [UInt16.toNat_ofNat', Nat.mod_eq_of_lt hfits]
  have hwalk : (attributeWalk msg (20 + body.length)).run 20
      { mapped := none, xorMapped := none } =
        .ok (attributes.foldl Found.note { mapped := none, xorMapped := none }) :=
    Walk.run_records
      (fun pos attr attributes found (h : Laid msg (20 + body.length) pos _) =>
        attributeAt_laid found (by omega) (by omega) h)
      (fun pos attr attributes h => h.rest)
      (fun pos found h => attributeAt_end found (by omega) h)
      ⟨by rw [hbody], more, by rw [hattributes, hbody]⟩
  rw [← hmsg, parseMappedAddress, Checked.bind_ok (readU16_of_drop hafterType hfits (by omega)),
    hlengthNat, Checked.bind_ok (Checked.add_ok (by omega)), Nat.min_eq_left (by omega),
    Checked.bind_ok hwalk, foldl_note]
  simp [Response.mappedAddress, pure, Except.pure]

/-! A server writes an address under the cookie, and it is read back. -/

/-- No datagram makes the parser panic, and of a well-formed answer it returns
the address it is there for. -/
theorem parseMappedAddress_correct :
    (∀ msg : List UInt8, 20 ≤ msg.length → ∃ result, parseMappedAddress msg = .ok result) ∧
      ∀ (response : Response) (more : List UInt8),
        parseMappedAddress (response.encode ++ more) = .ok response.mappedAddress :=
  ⟨fun _ => parseMappedAddress_returns, parseMappedAddress_encode⟩

/-- An unknown attribute with padding, the address 203.0.113.5:12345 under the
cookie and the plain address of a gateway. -/
theorem parseMappedAddress_correct_of_three :
    (∃ result, parseMappedAddress (List.replicate 20 0) = .ok result) ∧
      ∃ response : Response, response.attributes.map Attribute.type = [0x8022, 0x0020, 0x0001] ∧
        parseMappedAddress (response.encode ++ [7]) = .ok (some ⟨⟨203, 0, 113, 5⟩, 12345⟩) :=
  ⟨parseMappedAddress_correct.1 _ (by decide),
    { messageType := 0x0101
      transaction := [0x21, 0x12, 0xA4, 0x42, 1, 2, 3, 4, 5, 6, 7, 8, 9, 10, 11, 12]
      attributes := [
        { type := 0x8022, value := [65, 66], padding := [0, 0]
          fits := by decide, padded := rfl, least := by decide },
        { type := 0x0020, value := [0, 1, 0x11, 0x2B, 0xEA, 0x12, 0xD5, 0x47], padding := []
          fits := by decide, padded := rfl, least := by decide },
        { type := 0x0001, value := [0, 1, 0x27, 0x0F, 198, 51, 100, 7], padding := []
          fits := by decide, padded := rfl, least := by decide }]
      transaction_length := rfl
      fits := by decide },
    rfl, (parseMappedAddress_correct.2 _ [7]).trans rfl⟩

end EvertyDesk.Transport
