import EvertyDesk.Evrtck.Decoder

/-!
What a packet says, as a parser over its bytes without positions and machine
arithmetic, and that the decoder reads just this: it does not panic while it
reads, it fails where the parser does, and it leaves the frame alone.
-/

namespace EvertyDesk.Evrtck

/-- A parser takes bytes off the front, if it finds what it expects. -/
def Parse (Result : Type) : Type := List UInt8 → Option (Result × List UInt8)

namespace Parse

variable {Result Next : Type}

instance : Monad Parse where
  pure result := fun bytes => some (result, bytes)
  bind parser next := fun bytes =>
    match parser bytes with
    | none => none
    | some (result, rest) => next result rest

def fail : Parse Result := fun _ => none

variable {parser : Parse Result} {next : Result → Parse Next} {bytes rest : List UInt8}

theorem bind_run : (parser >>= next) bytes =
    match parser bytes with
    | none => none
    | some (result, rest) => next result rest := rfl

theorem bind_some {result : Result} (h : parser bytes = some (result, rest)) :
    (parser >>= next) bytes = next result rest := by
  rw [bind_run, h]

theorem bind_none (h : parser bytes = none) : (parser >>= next) bytes = none := by
  rw [bind_run, h]

end Parse

def takeBytes (n : Nat) : Parse (List UInt8) := fun bytes =>
  if n ≤ bytes.length then some (bytes.take n, bytes.drop n) else none

def parse8 : Parse UInt8 := do
  let bytes ← takeBytes 1
  return bytes.headD 0

def parse16 : Parse UInt16 := do
  let bytes ← takeBytes 2
  return UInt16.ofNat (leNat bytes)

def parse32 : Parse UInt32 := do
  let bytes ← takeBytes 4
  return UInt32.ofNat (leNat bytes)

def parseCopyRects (width height : Nat) : Nat → Parse (List CopyRect)
  | 0 => return []
  | count + 1 => do
      let srcX ← parse32
      let srcY ← parse32
      let dstX ← parse32
      let dstY ← parse32
      let rectWidth ← parse32
      let rectHeight ← parse32
      let rect : CopyRect := ⟨srcX, srcY, dstX, dstY, rectWidth, rectHeight⟩
      let rest ← parseCopyRects width height count
      return if rect.isValid width height then rect :: rest else rest

/-- What the packet says of one tile. -/
structure TileData where
  idx : Nat
  mode : UInt8
  payload : List UInt8
deriving DecidableEq, Repr

def parseTile (tileCount : Nat) : Parse TileData := do
  let tileIdx ← parse16
  if tileIdx.toNat ≥ tileCount then Parse.fail
  else do
    let mode ← parse8
    if mode = modeSolid then do
      let payload ← takeBytes 4
      return ⟨tileIdx.toNat, mode, payload⟩
    else if mode = modeDelta ∨ mode = modeZstd then do
      let len ← parse32
      let payload ← takeBytes len.toNat
      return ⟨tileIdx.toNat, mode, payload⟩
    else Parse.fail

def parseTiles (tileCount : Nat) : Nat → Parse (List TileData)
  | 0 => return []
  | count + 1 => do
      let tile ← parseTile tileCount
      let rest ← parseTiles tileCount count
      return tile :: rest

def parsePrologue : Parse (UInt8 × UInt8) := do
  let found ← takeBytes 4
  if found ≠ magic then Parse.fail
  else do
    let ver ← parse8
    if ver ≠ version ∧ ver ≠ versionCopyRects then Parse.fail
    else do
      let flags ← parse8
      let _frameId ← parse32
      return (ver, flags)

def parseHead (width height : Nat) (ver flags : UInt8) : Parse (Option FrameHead) := do
  let w ← parse32
  let h ← parse32
  if w.toNat ≠ width ∨ h.toNat ≠ height then Parse.fail
  else if flags &&& flagNop ≠ 0 then return none
  else do
    let mapBytes ← parse16
    return some { ver := ver, flags := flags, mapBytes := mapBytes.toNat }

def parseCopySection (width height : Nat) (head : FrameHead) : Parse (List CopyRect) := do
  if head.ver = versionCopyRects ∨ head.flags &&& flagCopyRects ≠ 0 then do
    let count ← parse16
    parseCopyRects width height count.toNat
  else return []

def parseTileSection (width height mapBytes : Nat) : Parse (List TileData) := do
  let tileMap ← takeBytes mapBytes
  parseTiles (tilesInDim width * tilesInDim height) (popCount tileMap)

/-- What comes after the header, unless the frame stays as it is. -/
structure Changes where
  rects : List CopyRect
  tiles : List TileData
deriving DecidableEq, Repr

def parseChanges (width height : Nat) : Option FrameHead → Parse Changes
  | none => return { rects := [], tiles := [] }
  | some head => do
      let rects ← parseCopySection width height head
      let tiles ← parseTileSection width height head.mapBytes
      return { rects := rects, tiles := tiles }

/-! Reading and parsing. -/

/-- The program reads what the parser takes. -/
def Reads {Result Parsed : Type} (data : List UInt8) (program : Decode Result)
    (parser : Parse Parsed) (R : Result → Parsed → Prop) : Prop :=
  ∀ s : Decoding, s.pos ≤ data.length →
    ∃ outcome t, program s = .ok (outcome, t) ∧ t.frame = s.frame ∧
      match outcome, parser (data.drop s.pos) with
      | .ok result, some (parsed, rest) =>
          R result parsed ∧ t.pos ≤ data.length ∧ data.drop t.pos = rest
      | .error _, none => True
      | _, _ => False

section Rules

variable {Result Parsed Result' Parsed' : Type} {data : List UInt8}
  {R : Result → Parsed → Prop} {R' : Result' → Parsed' → Prop}

theorem reads_pure {result : Result} {parsed : Parsed} (h : R result parsed) :
    Reads data (pure result) (pure parsed) R :=
  fun s hpos => ⟨.ok result, s, rfl, rfl, h, hpos, rfl⟩

theorem reads_fail {error : EvrtckError} : Reads data (Proc.fail error) Parse.fail R :=
  fun s _ => ⟨.error error, s, rfl, rfl, trivial⟩

theorem Reads.bind {program : Decode Result} {parser : Parse Parsed}
    {next : Result → Decode Result'} {nextParser : Parsed → Parse Parsed'}
    (h : Reads data program parser R)
    (hnext : ∀ result parsed, R result parsed → Reads data (next result) (nextParser parsed) R') :
    Reads data (program >>= next) (parser >>= nextParser) R' := by
  intro s hpos
  obtain ⟨outcome, t, hrun, hframe, houtcome⟩ := h s hpos
  cases hparse : parser (data.drop s.pos) with
  | none =>
      cases outcome with
      | ok result => simp [hparse] at houtcome
      | error error =>
          refine ⟨.error error, t, Proc.bind_fails hrun, hframe, ?_⟩
          rw [Parse.bind_none hparse]
          trivial
  | some found =>
      obtain ⟨parsed, rest⟩ := found
      cases outcome with
      | error error => simp [hparse] at houtcome
      | ok result =>
          rw [hparse] at houtcome
          obtain ⟨hR, htpos, hrest⟩ := houtcome
          obtain ⟨outcome', t', hrun', hframe', houtcome'⟩ := hnext result parsed hR t htpos
          refine ⟨outcome', t', ?_, hframe'.trans hframe, ?_⟩
          · rw [Proc.bind_returns hrun]
            exact hrun'
          · rw [Parse.bind_some hparse, ← hrest]
            exact houtcome'

theorem reads_lift {computation : Checked Result} {result : Result}
    {next : Result → Decode Result'} {parser : Parse Parsed'}
    (h : computation = .ok result) (hnext : Reads data (next result) parser R') :
    Reads data (liftM computation >>= next) parser R' := by
  subst h
  exact hnext

end Rules

section Reading

variable {data : List UInt8}

/-- Where a reading program finds its bytes. -/
private theorem drop_add (n : Nat) (s : Decoding) (hpos : s.pos ≤ data.length) :
    (s.pos + n > data.length ↔ ¬ n ≤ (data.drop s.pos).length) ∧
      data.drop (s.pos + n) = (data.drop s.pos).drop n := by
  rw [List.length_drop, List.drop_drop]
  exact ⟨by omega, rfl⟩

variable (hdata : data.length < Checked.sizeLimit)

include hdata

private theorem need_run {n : Nat} {s : Decoding} (hn : n < Checked.sizeLimit)
    (hpos : s.pos ≤ data.length) :
    Checked.add s.pos n = .ok (s.pos + n) ∧
      need data n s =
        if s.pos + n > data.length then .ok (.error .truncatedData, s)
        else .ok (.ok (), s) := by
  have hadd : Checked.add s.pos n = .ok (s.pos + n) := by
    apply Checked.add_ok
    rw [Checked.sizeLimit] at hdata hn
    rw [Checked.wordLimit]
    omega
  refine ⟨hadd, ?_⟩
  unfold need
  rw [Proc.get_bind, Proc.lift_bind hadd]
  split <;> rfl

/-- The bytes asked for are there, or they are not and reading fails. -/
private theorem take_cases {n : Nat} {s : Decoding} (hn : n < Checked.sizeLimit)
    (hpos : s.pos ≤ data.length) :
    (need data n s = .ok (.error .truncatedData, s) ∧ takeBytes n (data.drop s.pos) = none) ∨
    (need data n s = .ok (.ok (), s) ∧ s.pos + n ≤ data.length ∧
      ((data.drop s.pos).take n).length = n ∧
      takeBytes n (data.drop s.pos) = some ((data.drop s.pos).take n, data.drop (s.pos + n))) := by
  obtain ⟨_, hneed⟩ := need_run hdata hn hpos
  obtain ⟨hshort, hdrop⟩ := drop_add n s hpos
  by_cases hroom : s.pos + n > data.length
  · rw [if_pos hroom] at hneed
    exact .inl ⟨hneed, if_neg (hshort.mp hroom)⟩
  · rw [if_neg hroom] at hneed
    have hfits : n ≤ (data.drop s.pos).length := by
      by_contra hlong
      exact hroom (hshort.mpr hlong)
    refine .inr ⟨hneed, Nat.le_of_not_lt hroom, List.length_take_of_le hfits, ?_⟩
    rw [hdrop]
    exact if_pos hfits

theorem readBytes_reads {n : Nat} (hn : n < Checked.sizeLimit) :
    Reads data (readBytes data n) (takeBytes n)
      (fun result parsed => result = parsed ∧ parsed.length = n) := by
  intro s hpos
  obtain ⟨hadd, _⟩ := need_run hdata hn hpos
  rcases take_cases hdata hn hpos with ⟨hneed, hparse⟩ | ⟨hneed, hroom, hlength, hparse⟩
  · rw [hparse]
    refine ⟨.error .truncatedData, s, ?_, rfl, trivial⟩
    unfold readBytes
    rw [Proc.bind_fails hneed]
  · have hslice : Checked.slice data s.pos (s.pos + n) = .ok ((data.drop s.pos).take n) := by
      rw [Checked.slice_ok (by omega) (by omega), Nat.add_sub_cancel_left]
    rw [hparse]
    refine ⟨.ok ((data.drop s.pos).take n), { s with pos := s.pos + n }, ?_, rfl,
      ⟨rfl, hlength⟩, hroom, rfl⟩
    unfold readBytes
    rw [Proc.bind_returns hneed, Proc.get_bind, Proc.lift_bind hadd, Proc.lift_bind hslice]
    rfl

theorem skipBytes_reads {n : Nat} (hn : n < Checked.sizeLimit) :
    Reads data (skipBytes data n) (takeBytes n)
      (fun range payload => range.1 ≤ range.2 ∧ range.2 ≤ data.length ∧
        field data range.1 (range.2 - range.1) = payload ∧ payload.length = n) := by
  intro s hpos
  obtain ⟨hadd, _⟩ := need_run hdata hn hpos
  rcases take_cases hdata hn hpos with ⟨hneed, hparse⟩ | ⟨hneed, hroom, hlength, hparse⟩
  · rw [hparse]
    refine ⟨.error .truncatedData, s, ?_, rfl, trivial⟩
    unfold skipBytes
    rw [Proc.bind_fails hneed]
  · rw [hparse]
    refine ⟨.ok (s.pos, s.pos + n), { s with pos := s.pos + n }, ?_, rfl,
      ⟨Nat.le_add_right _ _, hroom, ?_, hlength⟩, hroom, rfl⟩
    · unfold skipBytes
      rw [Proc.bind_returns hneed, Proc.get_bind, Proc.lift_bind hadd]
      rfl
    · dsimp only
      rw [Nat.add_sub_cancel_left, field]

theorem readMode_reads : Reads data (readMode data) parse8 Eq := by
  intro s hpos
  have hone : 1 < Checked.sizeLimit := by decide
  obtain ⟨hadd, _⟩ := need_run hdata hone hpos
  rcases take_cases hdata hone hpos with ⟨hneed, hnone⟩ | ⟨hneed, hlt, _, _⟩
  · have hparse : parse8 (data.drop s.pos) = none := by
      unfold parse8
      rw [Parse.bind_none hnone]
    refine ⟨.error .truncatedData, s, ?_, rfl, ?_⟩
    · unfold readMode
      rw [Proc.bind_fails hneed]
    · rw [hparse]
      trivial
  · have hhead : data.drop s.pos = data[s.pos] :: data.drop (s.pos + 1) :=
      List.drop_eq_getElem_cons hlt
    have hparse : parse8 (data.drop s.pos) = some (data[s.pos], data.drop (s.pos + 1)) := by
      rw [hhead]
      rfl
    refine ⟨.ok data[s.pos], { s with pos := s.pos + 1 }, ?_, rfl, ?_⟩
    · unfold readMode
      rw [Proc.bind_returns hneed, Proc.get_bind, Proc.lift_bind (Checked.index_ok hlt),
        Proc.lift_bind hadd]
      rfl
    · rw [hparse]
      exact ⟨rfl, hlt, rfl⟩

theorem readU8_reads : Reads data (readU8 data) parse8 Eq := by
  unfold readU8 parse8
  apply (readBytes_reads hdata (by decide)).bind
  rintro bytes _ ⟨rfl, hlength⟩
  match bytes, hlength with
  | [byte], _ => exact reads_pure rfl

theorem readU16_reads : Reads data (readU16 data) parse16 Eq := by
  unfold readU16 parse16
  apply (readBytes_reads hdata (by decide)).bind
  rintro bytes _ ⟨rfl, _⟩
  exact reads_pure rfl

theorem readU32_reads : Reads data (readU32 data) parse32 Eq := by
  unfold readU32 parse32
  apply (readBytes_reads hdata (by decide)).bind
  rintro bytes _ ⟨rfl, _⟩
  exact reads_pure rfl

theorem readCopyRects_reads (width height count : Nat) :
    Reads data (readCopyRects data width height count) (parseCopyRects width height count) Eq := by
  have hfield := readU32_reads hdata
  induction count with
  | zero => exact reads_pure rfl
  | succ count ih =>
      unfold readCopyRects parseCopyRects
      apply hfield.bind
      rintro srcX _ rfl
      apply hfield.bind
      rintro srcY _ rfl
      apply hfield.bind
      rintro dstX _ rfl
      apply hfield.bind
      rintro dstY _ rfl
      apply hfield.bind
      rintro rectWidth _ rfl
      apply hfield.bind
      rintro rectHeight _ rfl
      apply ih.bind
      rintro rest _ rfl
      exact reads_pure rfl

end Reading

theorem tilesInDimChecked_ok {px : Nat} (h : px < 2 ^ 32) :
    tilesInDimChecked px = .ok (tilesInDim px) := by
  have hadd : Checked.add px tileSize = .ok (px + tileSize) := by
    apply Checked.add_ok
    rw [Checked.wordLimit, tileSize]
    omega
  have hsub : Checked.sub (px + tileSize) 1 = .ok (px + tileSize - 1) := by
    apply Checked.sub_ok
    rw [tileSize]
    omega
  unfold tilesInDimChecked
  rw [Checked.bind_ok hadd, Checked.bind_ok hsub]
  rfl

theorem tileCountChecked_ok {width height : Nat} (hwidth : width < 2 ^ 32)
    (hheight : height < 2 ^ 32) :
    Checked.mul (tilesInDim width) (tilesInDim height) =
      .ok (tilesInDim width * tilesInDim height) := by
  have hx : tilesInDim width ≤ 2 ^ 27 := by
    rw [tilesInDim, tileSize]
    omega
  have hy : tilesInDim height ≤ 2 ^ 27 := by
    rw [tilesInDim, tileSize]
    omega
  apply Checked.mul_ok
  calc
    tilesInDim width * tilesInDim height ≤ 2 ^ 27 * 2 ^ 27 := Nat.mul_le_mul hx hy
    _ < Checked.wordLimit := by decide

theorem tileRectChecked_ok (width height : Nat) {tx ty : Nat} (hx : tx < 2 ^ 32)
    (hy : ty < 2 ^ 32) :
    tileRectChecked width height tx ty = .ok (tileRect width height tx ty) := by
  have hsmall : ∀ t < 2 ^ 32, Checked.mul t tileSize = .ok (t * tileSize) ∧
      Checked.add (t * tileSize) tileSize = .ok (t * tileSize + tileSize) := by
    intro t ht
    constructor
    · apply Checked.mul_ok
      rw [Checked.wordLimit, tileSize]
      omega
    · apply Checked.add_ok
      rw [Checked.wordLimit, tileSize]
      omega
  unfold tileRectChecked
  rw [Checked.bind_ok (hsmall tx hx).1, Checked.bind_ok (hsmall ty hy).1,
    Checked.bind_ok (hsmall tx hx).2, Checked.bind_ok (hsmall ty hy).2]
  rfl

/-- An entry found in a packet is what the packet says of a tile. -/
structure Matches (data : List UInt8) (width height : Nat) (entry : TileEntry)
    (tile : TileData) : Prop where
  idx : entry.idx = tile.idx
  idx_lt : tile.idx < tilesInDim width * tilesInDim height
  rect : entry.rect = tileRect width height (tile.idx % tilesInDim width)
    (tile.idx / tilesInDim width)
  mode : entry.mode = tile.mode
  modes : tile.mode = modeSolid ∧ tile.payload.length = 4 ∨ tile.mode = modeDelta ∨
    tile.mode = modeZstd
  short : tile.payload.length < 2 ^ 32
  range : entry.encStart ≤ entry.encEnd ∧ entry.encEnd ≤ data.length
  payload : field data entry.encStart (entry.encEnd - entry.encStart) = tile.payload

section Frames

variable {data : List UInt8} {width height : Nat} (hdata : data.length < Checked.sizeLimit)

include hdata

theorem scanTile_reads :
    Reads data
      (scanTile data width height (tilesInDim width) (tilesInDim width * tilesInDim height))
      (parseTile (tilesInDim width * tilesInDim height)) (Matches data width height) := by
  unfold scanTile parseTile
  apply (readU16_reads hdata).bind
  rintro tileIdx _ rfl
  dsimp only
  split
  · exact reads_fail
  next hidx =>
    have hidx : tileIdx.toNat < tilesInDim width * tilesInDim height := by omega
    have hlt := tileIdx.toNat_lt
    have hpos : 0 < tilesInDim width := by
      by_contra hzero
      rw [Nat.eq_zero_of_not_pos hzero, Nat.zero_mul] at hidx
      omega
    have hx := Nat.mod_le tileIdx.toNat (tilesInDim width)
    have hy := Nat.div_le_self tileIdx.toNat (tilesInDim width)
    apply reads_lift (Checked.mod_ok hpos)
    apply reads_lift (Checked.div_ok hpos)
    apply (readMode_reads hdata).bind
    rintro mode _ rfl
    apply reads_lift (tileRectChecked_ok width height (by omega) (by omega))
    split
    next hsolid =>
      apply (skipBytes_reads hdata (by decide)).bind
      rintro range payload ⟨hle, hend, hpayload, hlength⟩
      exact reads_pure ⟨rfl, hidx, rfl, rfl, Or.inl ⟨hsolid, hlength⟩,
        by rw [hlength]; decide, ⟨hle, hend⟩, hpayload⟩
    · split
      next hmode =>
        apply (readU32_reads hdata).bind
        rintro len _ rfl
        have hlen := len.toNat_lt
        apply (skipBytes_reads hdata (by rw [Checked.sizeLimit]; omega)).bind
        rintro range payload ⟨hle, hend, hpayload, hlength⟩
        exact reads_pure ⟨rfl, hidx, rfl, rfl, Or.inr hmode, by rw [hlength]; exact hlen,
          ⟨hle, hend⟩, hpayload⟩
      · exact reads_fail

theorem scanTiles_reads (count : Nat) :
    Reads data
      (scanTiles data width height (tilesInDim width) (tilesInDim width * tilesInDim height) count)
      (parseTiles (tilesInDim width * tilesInDim height) count)
      (List.Forall₂ (Matches data width height)) := by
  induction count with
  | zero => exact reads_pure List.Forall₂.nil
  | succ count ih =>
      unfold scanTiles parseTiles
      apply (scanTile_reads hdata).bind
      intro entry tile hmatches
      apply ih.bind
      intro entries tiles hrest
      exact reads_pure (List.Forall₂.cons hmatches hrest)

theorem readPrologue_reads : Reads data (readPrologue data) parsePrologue Eq := by
  unfold readPrologue parsePrologue
  apply (readBytes_reads hdata (by decide)).bind
  rintro found _ ⟨rfl, _⟩
  split
  · exact reads_fail
  · apply (readU8_reads hdata).bind
    rintro ver _ rfl
    split
    · exact reads_fail
    · apply (readU8_reads hdata).bind
      rintro flags _ rfl
      apply (readU32_reads hdata).bind
      rintro frameId _ rfl
      exact reads_pure rfl

theorem readHead_reads (ver flags : UInt8) :
    Reads data (readHead data width height ver flags) (parseHead width height ver flags)
      (fun result parsed => result = parsed ∧
        ∀ head, parsed = some head → head.mapBytes < 2 ^ 16) := by
  unfold readHead parseHead
  apply (readU32_reads hdata).bind
  rintro w _ rfl
  apply (readU32_reads hdata).bind
  rintro h _ rfl
  split
  · exact reads_fail
  · split
    · exact reads_pure ⟨rfl, fun head hhead => by cases hhead⟩
    · apply (readU16_reads hdata).bind
      rintro mapBytes _ rfl
      refine reads_pure ⟨rfl, fun head hhead => ?_⟩
      cases hhead
      exact mapBytes.toNat_lt

theorem readCopySection_reads (head : FrameHead) :
    Reads data (readCopySection data width height head)
      (parseCopySection width height head) Eq := by
  unfold readCopySection parseCopySection
  split
  · apply (readU16_reads hdata).bind
    rintro count _ rfl
    exact readCopyRects_reads hdata width height count.toNat
  · exact reads_pure rfl

theorem readTiles_reads
    (hwidth : width < 2 ^ 32) (hheight : height < 2 ^ 32) {mapBytes : Nat}
    (hmap : mapBytes < Checked.sizeLimit) :
    Reads data (readTiles data width height mapBytes) (parseTileSection width height mapBytes)
      (List.Forall₂ (Matches data width height)) := by
  unfold readTiles parseTileSection
  apply (readBytes_reads hdata hmap).bind
  rintro tileMap _ ⟨rfl, _⟩
  apply reads_lift (tilesInDimChecked_ok hwidth)
  apply reads_lift (tilesInDimChecked_ok hheight)
  apply reads_lift (tileCountChecked_ok hwidth hheight)
  exact scanTiles_reads hdata (popCount tileMap)

end Frames

end EvertyDesk.Evrtck
