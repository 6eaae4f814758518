import EvertyDesk.Evrt2.Apf
import EvertyDesk.Lib.Machine

/-!
The attention feed from the host to the client: one map in full, then differences, each
against the map sent before it. The client applies them to the levels it holds, which are
those of the host rounded to sixteen steps.
-/

namespace EvertyDesk.Evrt2

structure ApfHeader where
  version : UInt8
  tileSize : UInt8
  cols : UInt16
  rows : UInt16
  encoding : UInt8
deriving DecidableEq, Repr

/-- The fields of a payload that is long enough for a header. -/
def readApfHeader (payload : List UInt8) : ApfHeader where
  version := payload.getD 0 0
  tileSize := payload.getD 1 0
  cols := UInt16.ofNat (beNat (field payload 2 2))
  rows := UInt16.ofNat (beNat (field payload 4 2))
  encoding := payload.getD 6 0

def ApfHeader.tileCount (header : ApfHeader) : Nat := header.cols.toNat * header.rows.toNat

section Decoding

variable {P : Type} (fromLevel : Fin 16 → P)

/-- The priority of a level, which is in the low half of the byte. -/
def dequantizeU4 (level : UInt8) : P := fromLevel (Fin.ofNat 16 (level &&& 0x0F).toNat)

/-- The two levels of a byte, as far as cells are missing. -/
def unpackByte (tileCount : Nat) (map : List P) (byte : UInt8) : List P :=
  let map := if map.length < tileCount then map ++ [dequantizeU4 fromLevel (byte >>> 4)] else map
  if map.length < tileCount then map ++ [dequantizeU4 fromLevel (byte &&& 0x0F)] else map

def decodeU4 (payload : List UInt8) : Option (ApfHeader × List P) :=
  if payload.length < apfHeaderLen then none
  else
    let header := readApfHeader payload
    if header.encoding ≠ apfEncodingU4 then none
    else
      let packedLen := divCeil header.tileCount 2
      if payload.length < apfHeaderLen + packedLen then none
      else
        let body := field payload apfHeaderLen packedLen
        some (header, body.foldl (unpackByte fromLevel header.tileCount) [])

/-- The loop over the records: cells are skipped or get a new level, until the grid is
through. -/
def applyRecords (tileCount : Nat) (map : List P) (idx : Nat) : List UInt8 → Option (List P)
  | [] => if idx < tileCount then none else some map
  | byte :: bytes =>
      if idx < tileCount then
        if byte &&& 0x80 = 0 then
          let skip := (byte &&& 0x7F).toNat
          if idx + skip > tileCount then none
          else applyRecords tileCount map (idx + skip) bytes
        else
          applyRecords tileCount (map.set idx (dequantizeU4 fromLevel (byte &&& 0x0F)))
            (idx + 1) bytes
      else some map

def decodeDelta (payload : List UInt8) (previous : List P) : Option (ApfHeader × List P) :=
  if payload.length < apfHeaderLen then none
  else
    let header := readApfHeader payload
    if header.encoding ≠ apfEncodingDelta then none
    else if previous.length ≠ header.tileCount then none
    else
      (applyRecords fromLevel header.tileCount previous 0 (payload.drop apfHeaderLen)).map
        fun map => (header, map)

/-- What the client holds after one more payload. One that is not decoded is dropped. -/
def receiveApf (lastApf : Option (ApfHeader × List P)) (payload : List UInt8) :
    Option (ApfHeader × List P) :=
  let decoded :=
    if payload[6]? = some apfEncodingDelta then
      lastApf.bind fun previous => decodeDelta fromLevel payload previous.2
    else decodeU4 fromLevel payload
  decoded.or lastApf

/-- The client as a machine over the payloads; what it puts out is the map that it holds
then. -/
def apfReceiver : Machine (Option (ApfHeader × List P)) (List UInt8) (Option (List P)) where
  step lastApf payload :=
    let next := receiveApf fromLevel lastApf payload
    (next, next.map Prod.snd)

variable (arith : PriorityArith P)

/-- The levels of a map, as the client holds them. -/
def quantizedLevels (map : List P) : List P := (map.map arith.quantizeU4).map fromLevel

/-- Differences, each against the map before it. -/
def deltaFeed (cols rows : UInt16) (tileSize : UInt8) (previous : List P) :
    List (List P) → List (List UInt8)
  | [] => []
  | current :: maps =>
      encodeDelta arith previous current cols rows tileSize ::
        deltaFeed cols rows tileSize current maps

/-- One map in full, then differences. -/
def attentionFeed (cols rows : UInt16) (tileSize : UInt8) (first : List P)
    (maps : List (List P)) : List (List UInt8) :=
  encodeU4 arith first cols rows tileSize :: deltaFeed arith cols rows tileSize first maps

end Decoding

@[simp] theorem readApfHeader_apfHeader (tileSize : UInt8) (cols rows : UInt16)
    (encoding : UInt8) (body : List UInt8) :
    readApfHeader (apfHeader tileSize cols rows encoding ++ body) =
      ⟨apfVersion, tileSize, cols, rows, encoding⟩ := by
  have hcols : field (apfHeader tileSize cols rows encoding ++ body) 2 2 =
      beBytes 2 cols.toNat := rfl
  have hrows : field (apfHeader tileSize cols rows encoding ++ body) 4 2 =
      beBytes 2 rows.toNat := rfl
  rw [readApfHeader, hcols, hrows, readBack16, readBack16]
  rfl

theorem apfHeader_encoding (tileSize : UInt8) (cols rows : UInt16) (encoding : UInt8)
    (body : List UInt8) :
    (apfHeader tileSize cols rows encoding ++ body)[6]? = some encoding := rfl

section Levels

variable {P : Type} {fromLevel : Fin 16 → P} {arith : PriorityArith P}

@[simp] theorem quantizedLevels_length (map : List P) :
    (quantizedLevels fromLevel arith map).length = map.length := by
  simp [quantizedLevels]

private theorem low_level (hi lo : Fin 16) :
    Fin.ofNat 16 (((UInt8.ofNat hi.val <<< 4 ||| UInt8.ofNat lo.val) &&& 0x0F) &&& 0x0F).toNat =
      lo := by
  revert hi lo
  decide

private theorem high_level (hi lo : Fin 16) :
    Fin.ofNat 16 (((UInt8.ofNat hi.val <<< 4 ||| UInt8.ofNat lo.val) >>> 4) &&& 0x0F).toNat =
      hi := by
  revert hi lo
  decide

private theorem change_level (new : Fin 16) :
    (0x80 ||| UInt8.ofNat new.val) &&& 0x80 ≠ 0 ∧
      Fin.ofNat 16 (((0x80 ||| UInt8.ofNat new.val) &&& 0x0F) &&& 0x0F).toNat = new := by
  revert new
  decide

private theorem skip_count {n : Nat} (h : n ≤ deltaMaxSkipRun) :
    UInt8.ofNat n &&& 0x80 = 0 ∧ (UInt8.ofNat n &&& 0x7F).toNat = n := by
  have hall : ∀ n : Fin 128,
      UInt8.ofNat n.val &&& 0x80 = 0 ∧ (UInt8.ofNat n.val &&& 0x7F).toNat = n.val := by
    decide
  exact hall ⟨n, Nat.lt_succ_of_le h⟩

@[simp] theorem quantizedLevels_cons (p : P) (map : List P) :
    quantizedLevels fromLevel arith (p :: map) =
      fromLevel (arith.quantizeU4 p) :: quantizedLevels fromLevel arith map := rfl

/-- Two cells out of one byte. -/
theorem unpackByte_pair {tileCount : Nat} {map : List P} (p q : P) (rest : List P)
    (h : map.length + 2 ≤ tileCount) :
    unpackByte fromLevel tileCount map (packLevels arith (p :: q :: rest)) =
      map ++ [fromLevel (arith.quantizeU4 p), fromLevel (arith.quantizeU4 q)] := by
  have hhigh : dequantizeU4 fromLevel (packLevels arith (p :: q :: rest) >>> 4) =
      fromLevel (arith.quantizeU4 p) := congrArg fromLevel (high_level _ _)
  have hlow : dequantizeU4 fromLevel (packLevels arith (p :: q :: rest) &&& 0x0F) =
      fromLevel (arith.quantizeU4 q) := congrArg fromLevel (low_level _ _)
  have hroom : map.length < tileCount := by omega
  simp only [unpackByte, if_pos hroom, hhigh]
  rw [if_pos (by simp only [List.length_append, List.length_singleton]; omega), hlow,
    List.append_assoc]
  rfl

/-- The last cell of an odd number is alone in its byte. -/
theorem unpackByte_last {tileCount : Nat} {map : List P} (p : P) (h : map.length + 1 = tileCount) :
    unpackByte fromLevel tileCount map (packLevels arith [p]) =
      map ++ [fromLevel (arith.quantizeU4 p)] := by
  have hhigh : dequantizeU4 fromLevel (packLevels arith [p] >>> 4) =
      fromLevel (arith.quantizeU4 p) := by
    have hpad : packLevels arith [p] = level arith p <<< 4 ||| UInt8.ofNat (0 : Fin 16).val := by
      simp [packLevels]
    rw [hpad]
    exact congrArg fromLevel (high_level _ _)
  have hroom : map.length < tileCount := by omega
  simp only [unpackByte, if_pos hroom, hhigh]
  rw [if_neg (by simp only [List.length_append, List.length_singleton]; omega)]

/-- The body of a full map gives its levels back. -/
theorem unpack_levels {tileCount : Nat} (cells map : List P)
    (h : map.length + cells.length = tileCount) :
    ((chunks 2 cells).map (packLevels arith)).foldl (unpackByte fromLevel tileCount) map =
      map ++ quantizedLevels fromLevel arith cells := by
  induction cells using List.twoStepInduction generalizing map with
  | nil => simp [quantizedLevels]
  | singleton p =>
      have hone : chunks 2 [p] = [[p]] := by
        rw [chunks_of_ne_nil (by decide) (List.cons_ne_nil p []), List.drop_eq_nil_of_le (by simp),
          chunks_nil]
        rfl
      rw [hone, List.map_singleton, List.foldl_cons, List.foldl_nil, unpackByte_last p h]
      rfl
  | cons_cons p q cells ih _ =>
      rw [chunks_of_ne_nil (by decide) (List.cons_ne_nil p _), List.map_cons, List.foldl_cons]
      simp only [List.length_cons] at h
      have hpair : unpackByte fromLevel tileCount map
          (packLevels arith ((p :: q :: cells).take 2)) =
          map ++ [fromLevel (arith.quantizeU4 p), fromLevel (arith.quantizeU4 q)] :=
        unpackByte_pair p q [] (by omega)
      have hrest : (p :: q :: cells).drop 2 = cells := rfl
      rw [hpair, hrest,
        ih _ (by simp only [List.length_append, List.length_cons, List.length_nil]; omega)]
      simp

theorem decodeU4_encodeU4 {cols rows : UInt16} {map : List P}
    (h : map.length = cols.toNat * rows.toNat) (tileSize : UInt8) :
    decodeU4 fromLevel (encodeU4 arith map cols rows tileSize) =
      some (⟨apfVersion, tileSize, cols, rows, apfEncodingU4⟩,
        quantizedLevels fromLevel arith map) := by
  have hlength : (encodeU4 arith map cols rows tileSize).length =
      apfHeaderLen + divCeil map.length 2 := encodeU4_length ..
  have hbody : field (encodeU4 arith map cols rows tileSize) apfHeaderLen
      (divCeil map.length 2) = (chunks 2 map).map (packLevels arith) := by
    have hwidth : ((chunks 2 map).map (packLevels arith)).length = divCeil map.length 2 := by
      simp
    have hwhole : encodeU4 arith map cols rows tileSize =
        apfHeader tileSize cols rows apfEncodingU4 ++
          ((chunks 2 map).map (packLevels arith) ++ []) := by
      rw [List.append_nil, encodeU4]
    rw [hwhole]
    exact field_append (apfHeader_length ..) hwidth
  have hheader : readApfHeader (encodeU4 arith map cols rows tileSize) =
      ⟨apfVersion, tileSize, cols, rows, apfEncodingU4⟩ := readApfHeader_apfHeader ..
  unfold decodeU4
  rw [if_neg (by omega)]
  simp only [hheader, ne_eq, not_true_eq_false, if_false, ApfHeader.tileCount, ← h]
  rw [if_neg (by omega), hbody, unpack_levels map [] (Nat.zero_add _), List.nil_append]

/-- Skip records move on by their run. -/
theorem applyRecords_skip (fromLevel : Fin 16 → P) {tileCount : Nat} (map : List P)
    (idx run : Nat) (rest : List UInt8) (h : idx + run ≤ tileCount) :
    applyRecords fromLevel tileCount map idx (pushSkipRecords run ++ rest) =
      applyRecords fromLevel tileCount map (idx + run) rest := by
  induction run using pushSkipRecords.induct generalizing idx with
  | case1 => simp [pushSkipRecords]
  | case2 run hrun n ih =>
      have hn : n ≤ deltaMaxSkipRun := Nat.min_le_right run deltaMaxSkipRun
      have hle : n ≤ run := Nat.min_le_left run deltaMaxSkipRun
      obtain ⟨hskip, hcount⟩ := skip_count hn
      rw [pushSkipRecords, if_neg hrun]
      change applyRecords fromLevel tileCount map idx
        (UInt8.ofNat n :: (pushSkipRecords (run - n) ++ rest)) = _
      rw [applyRecords, if_pos (by omega), if_pos hskip, hcount, if_neg (by omega),
        ih (idx + n) (by omega)]
      congr 1
      omega

/-- The records of a difference turn the levels before into the levels after. In front of
the cells that are still to come the decoder lags behind by the run of cells that have not
changed. -/
theorem applyRecords_deltaRecords (fromLevel : Fin 16 → P) (arith : PriorityArith P)
    {tileCount : Nat} (cells : List (P × P)) (done : List P)
    (idx run : Nat) (hidx : idx + run = done.length)
    (hcount : done.length + cells.length = tileCount) :
    applyRecords fromLevel tileCount
        (done ++ quantizedLevels fromLevel arith (cells.map Prod.fst)) idx
        (deltaRecords arith run cells) =
      some (done ++ quantizedLevels fromLevel arith (cells.map Prod.snd)) := by
  induction cells generalizing done idx run with
  | nil =>
      rw [List.length_nil, Nat.add_zero] at hcount
      have hskip := applyRecords_skip fromLevel (done ++ []) idx run [] (by omega : _ ≤ tileCount)
      rw [List.append_nil (pushSkipRecords run)] at hskip
      refine hskip.trans ?_
      rw [applyRecords, if_neg (by omega)]
      rfl
  | cons cell cells ih =>
      obtain ⟨previous, current⟩ := cell
      rw [List.length_cons] at hcount
      rw [deltaRecords]
      split
      · next hsame =>
        have hrest := ih (done ++ [fromLevel (arith.quantizeU4 previous)]) idx (run + 1)
          (by simp only [List.length_append, List.length_singleton]; omega)
          (by simp only [List.length_append, List.length_singleton]; omega)
        simpa [hsame] using hrest
      · next hchanged =>
        obtain ⟨hchange, hlevel⟩ := change_level (arith.quantizeU4 current)
        have hnew : dequantizeU4 fromLevel ((0x80 ||| level arith current) &&& 0x0F) =
            fromLevel (arith.quantizeU4 current) := congrArg fromLevel hlevel
        have hset : (done ++ quantizedLevels fromLevel arith
              (((previous, current) :: cells).map Prod.fst)).set (idx + run)
              (fromLevel (arith.quantizeU4 current)) =
            (done ++ [fromLevel (arith.quantizeU4 current)]) ++
              quantizedLevels fromLevel arith (cells.map Prod.fst) := by
          rw [hidx, List.set_append_right _ _ (Nat.le_refl _)]
          simp
        have hrest := ih (done ++ [fromLevel (arith.quantizeU4 current)]) (done.length + 1) 0
          (by simp) (by simp only [List.length_append, List.length_singleton]; omega)
        rw [applyRecords_skip _ _ _ _ _ (by omega), applyRecords, if_pos (by omega)]
        refine (if_neg hchange).trans ?_
        rw [hnew, hset, hidx, hrest]
        simp

theorem decodeDelta_encodeDelta {cols rows : UInt16} {previous current : List P}
    (hprevious : previous.length = cols.toNat * rows.toNat)
    (hcurrent : current.length = cols.toNat * rows.toNat) (tileSize : UInt8) :
    decodeDelta fromLevel (encodeDelta arith previous current cols rows tileSize)
        (quantizedLevels fromLevel arith previous) =
      some (⟨apfVersion, tileSize, cols, rows, apfEncodingDelta⟩,
        quantizedLevels fromLevel arith current) := by
  have hsame : previous.length = current.length := hprevious.trans hcurrent.symm
  have hcells : (previous.zip current).take (cols.toNat * rows.toNat) = previous.zip current := by
    apply List.take_of_length_le
    rw [List.length_zip, hsame, hcurrent, Nat.min_self]
  have hcount : ([] : List P).length + (previous.zip current).length = cols.toNat * rows.toNat := by
    rw [List.length_zip, hsame, hcurrent, Nat.min_self]
    exact Nat.zero_add _
  have hrecords := applyRecords_deltaRecords fromLevel arith (previous.zip current) [] 0 0 rfl
    hcount
  rw [List.map_fst_zip hsame.le, List.map_snd_zip hsame.ge] at hrecords
  have hheader : readApfHeader (encodeDelta arith previous current cols rows tileSize) =
      ⟨apfVersion, tileSize, cols, rows, apfEncodingDelta⟩ := readApfHeader_apfHeader ..
  have hlength : apfHeaderLen ≤ (encodeDelta arith previous current cols rows tileSize).length := by
    rw [encodeDelta, List.length_append, apfHeader_length]
    exact Nat.le_add_right _ _
  have hbody : (encodeDelta arith previous current cols rows tileSize).drop apfHeaderLen =
      deltaRecords arith 0 (previous.zip current) := by
    rw [encodeDelta, hcells, List.drop_left' (apfHeader_length ..)]
  unfold decodeDelta
  rw [if_neg (by omega)]
  simp only [hheader, ne_eq, not_true_eq_false, if_false, ApfHeader.tileCount, hbody]
  rw [if_neg (by simp [hprevious])]
  simp only [List.nil_append] at hrecords
  rw [hrecords]
  rfl

/-- A full map puts the client in step, whatever it held. -/
theorem receiveApf_full (fromLevel : Fin 16 → P) (arith : PriorityArith P)
    {cols rows : UInt16} {map : List P} (h : map.length = cols.toNat * rows.toNat)
    (tileSize : UInt8) (lastApf : Option (ApfHeader × List P)) :
    receiveApf fromLevel lastApf (encodeU4 arith map cols rows tileSize) =
      some (⟨apfVersion, tileSize, cols, rows, apfEncodingU4⟩,
        quantizedLevels fromLevel arith map) := by
  have hencoding : (encodeU4 arith map cols rows tileSize)[6]? = some apfEncodingU4 :=
    apfHeader_encoding ..
  unfold receiveApf
  rw [hencoding, if_neg (by decide), decodeU4_encodeU4 h]
  rfl

/-- A difference keeps a client in step that holds the levels of the map before. -/
theorem receiveApf_delta (fromLevel : Fin 16 → P) (arith : PriorityArith P)
    {cols rows : UInt16} {previous current : List P}
    (hprevious : previous.length = cols.toNat * rows.toNat)
    (hcurrent : current.length = cols.toNat * rows.toNat) (tileSize : UInt8)
    (header : ApfHeader) :
    receiveApf fromLevel (some (header, quantizedLevels fromLevel arith previous))
        (encodeDelta arith previous current cols rows tileSize) =
      some (⟨apfVersion, tileSize, cols, rows, apfEncodingDelta⟩,
        quantizedLevels fromLevel arith current) := by
  have hencoding : (encodeDelta arith previous current cols rows tileSize)[6]? =
      some apfEncodingDelta := apfHeader_encoding ..
  unfold receiveApf
  rw [hencoding, if_pos rfl, Option.bind_some, decodeDelta_encodeDelta hprevious hcurrent]
  rfl

theorem deltaFeed_in_step {cols rows : UInt16} (tileSize : UInt8) {previous : List P}
    {maps : List (List P)} (header : ApfHeader)
    (hprevious : previous.length = cols.toNat * rows.toNat)
    (hmaps : ∀ map ∈ maps, map.length = cols.toNat * rows.toNat) :
    (apfReceiver fromLevel).outputs (some (header, quantizedLevels fromLevel arith previous))
        (deltaFeed arith cols rows tileSize previous maps) =
      maps.map fun map => some (quantizedLevels fromLevel arith map) := by
  induction maps generalizing previous header with
  | nil => rfl
  | cons current maps ih =>
      have hcurrent := hmaps current List.mem_cons_self
      have hrest : ∀ map ∈ maps, map.length = cols.toNat * rows.toNat := fun map hmap =>
        hmaps map (List.mem_cons_of_mem _ hmap)
      have hstep := receiveApf_delta fromLevel arith hprevious hcurrent tileSize header
      rw [deltaFeed, Machine.outputs_cons, List.map_cons]
      simp only [apfReceiver, hstep]
      exact congrArg _ (ih _ hcurrent hrest)

/-- After each payload of the feed the client holds the levels of the map that was sent. -/
theorem attentionFeed_in_step (fromLevel : Fin 16 → P) (arith : PriorityArith P)
    (cols rows : UInt16) (tileSize : UInt8) (first : List P) (maps : List (List P))
    (hgrid : ∀ map ∈ first :: maps, map.length = cols.toNat * rows.toNat)
    (lastApf : Option (ApfHeader × List P)) :
    (apfReceiver fromLevel).outputs lastApf (attentionFeed arith cols rows tileSize first maps) =
      (first :: maps).map fun map => some (quantizedLevels fromLevel arith map) := by
  have hfirst := hgrid first List.mem_cons_self
  have hfull := receiveApf_full fromLevel arith hfirst tileSize lastApf
  rw [attentionFeed, Machine.outputs_cons, List.map_cons]
  simp only [apfReceiver, hfull]
  exact congrArg _ (deltaFeed_in_step tileSize _ hfirst fun map hmap =>
    hgrid map (List.mem_cons_of_mem _ hmap))

end Levels

/-- Priorities in fifteenths, rounded as the codec does. -/
private def fifteenths : PriorityArith Nat where
  zero := 0
  gt p q := decide (p > q)
  quantizeU4 p := ⟨min p 15, by omega⟩

/-- 150 cells, of which at first only the last one changes, and then none. -/
theorem attentionFeed_in_step_longRun :
    let first := List.replicate 150 3
    let maps := [List.replicate 149 3 ++ [20], List.replicate 149 3 ++ [15]]
    (∀ map ∈ first :: maps, map.length = (15 : UInt16).toNat * (10 : UInt16).toNat) ∧
      (apfReceiver Fin.val).outputs none (attentionFeed fifteenths 15 10 32 first maps) =
        (first :: maps).map fun map => some (quantizedLevels Fin.val fifteenths map) := by
  intro first maps
  have hgrid : ∀ map ∈ first :: maps, map.length = (15 : UInt16).toNat * (10 : UInt16).toNat := by
    intro map hmap
    simp only [first, maps, List.mem_cons, List.not_mem_nil, or_false] at hmap
    rcases hmap with rfl | rfl | rfl <;> simp
  exact ⟨hgrid, attentionFeed_in_step Fin.val fifteenths 15 10 32 first maps hgrid none⟩

section Host

variable {P : Type} (fromLevel : Fin 16 → P) (arith : PriorityArith P)

/-- What the host's stream does with its baseline: a frame with its attention map, which
is sent or not, or a new resolution. -/
inductive FeedInput (P : Type) where
  | frame (isKeyframe : Bool) (attn : AttentionMap P) (sent : Bool)
  | resolutionChange

/-- The host as a machine: its state is the map that was sent last, its output what is on
the wire. -/
def apfSender : Machine (Option (ApfMap P)) (FeedInput P) (Option (List UInt8)) where
  step lastSentApf input :=
    match input with
    | .resolutionChange => (none, none)
    | .frame isKeyframe attn sent =>
        match fitApf arith attn, apfPayload arith isKeyframe lastSentApf attn with
        | some apf, some payload => if sent then (some apf, some payload) else (lastSentApf, none)
        | _, _ => (lastSentApf, none)

/-- The client holds the levels of the map that the host sent last. -/
def HoldsLevels (lastSentApf : Option (ApfMap P)) (lastApf : Option (ApfHeader × List P)) : Prop :=
  ∀ apf, lastSentApf = some apf →
    apf.values.length = apf.cols.toNat * apf.rows.toNat ∧
      ∃ header, lastApf = some (header, quantizedLevels fromLevel arith apf.values)

variable {fromLevel arith}

theorem holdsLevels_none (lastApf : Option (ApfHeader × List P)) :
    HoldsLevels fromLevel arith none lastApf := by
  intro apf heq
  contradiction

/-- Whatever the host sends of a map, the client in step has its levels afterwards. -/
theorem HoldsLevels.payload {lastSentApf : Option (ApfMap P)}
    {lastApf : Option (ApfHeader × List P)} (h : HoldsLevels fromLevel arith lastSentApf lastApf)
    {attn : AttentionMap P} {apf : ApfMap P} (hfit : fitApf arith attn = some apf)
    {isKeyframe : Bool} {payload : List UInt8}
    (hpayload : apfPayload arith isKeyframe lastSentApf attn = some payload) :
    HoldsLevels fromLevel arith (some apf) (receiveApf fromLevel lastApf payload) := by
  obtain ⟨hlength, -⟩ := fitApf_spec hfit
  intro apf' heq
  obtain rfl := Option.some.inj heq
  refine ⟨hlength, ?_⟩
  rw [apfPayload, hfit] at hpayload
  dsimp only at hpayload
  split at hpayload
  · next previous hfilter =>
      obtain ⟨hlast, hcan⟩ := Option.filter_eq_some_iff.mp hfilter
      obtain ⟨-, hgrid⟩ : isKeyframe = false ∧ previous.SameGrid apf := by simpa using hcan
      obtain ⟨hcols, hrows, -, -⟩ := hgrid
      obtain ⟨hprevious, header, hheld⟩ := h previous hlast
      obtain rfl := Option.some.inj hpayload
      rw [hheld, receiveApf_delta _ _ (by rw [hprevious, hcols, hrows]) hlength]
      exact ⟨_, rfl⟩
  · split at hpayload
    · obtain rfl := Option.some.inj hpayload
      rw [receiveApf_full _ _ hlength]
      exact ⟨_, rfl⟩
    · contradiction

/-- In every run of the host, with key frames, other resolutions and failed sends at any
time, a client that gets all that is sent is in step with it. -/
theorem host_feed_in_step (inputs : List (FeedInput P)) (lastApf : Option (ApfHeader × List P)) :
    HoldsLevels fromLevel arith ((apfSender arith).run none inputs)
      ((apfReceiver fromLevel).run lastApf
        (((apfSender arith).outputs none inputs).filterMap id)) := by
  have hrun : ∀ lastSentApf lastApf, HoldsLevels fromLevel arith lastSentApf lastApf →
      HoldsLevels fromLevel arith ((apfSender arith).run lastSentApf inputs)
        ((apfReceiver fromLevel).run lastApf
          (((apfSender arith).outputs lastSentApf inputs).filterMap id)) := by
    induction inputs with
    | nil => exact fun _ _ h => h
    | cons input inputs ih =>
        intro lastSentApf lastApf h
        have hunsent : (apfSender arith).step lastSentApf input = (lastSentApf, none) →
            HoldsLevels fromLevel arith ((apfSender arith).run lastSentApf (input :: inputs))
              ((apfReceiver fromLevel).run lastApf
                (((apfSender arith).outputs lastSentApf (input :: inputs)).filterMap id)) := by
          intro hstep
          rw [Machine.run_cons, Machine.outputs_cons, hstep]
          exact ih lastSentApf lastApf h
        cases input with
        | resolutionChange => exact ih none lastApf (holdsLevels_none lastApf)
        | frame isKeyframe attn sent =>
            cases hfit : fitApf arith attn with
            | none => exact hunsent (by simp [apfSender, hfit])
            | some apf =>
                cases hpayload : apfPayload arith isKeyframe lastSentApf attn with
                | none => exact hunsent (by simp [apfSender, hpayload])
                | some payload =>
                    cases sent with
                    | false => exact hunsent (by simp [apfSender, hfit, hpayload])
                    | true =>
                        have hstep : (apfSender arith).step lastSentApf
                            (.frame isKeyframe attn true) = (some apf, some payload) := by
                          simp [apfSender, hfit, hpayload]
                        rw [Machine.run_cons, Machine.outputs_cons, hstep]
                        exact ih (some apf) _ (h.payload hfit hpayload)
  exact hrun none lastApf (holdsLevels_none lastApf)

end Host

end EvertyDesk.Evrt2
