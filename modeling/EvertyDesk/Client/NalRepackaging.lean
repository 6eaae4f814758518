import EvertyDesk.Client.NalUnits

/-!
The parts of a packet are the units that were joined to it. With start codes between them
they always are. With lengths in front, a length may spell a start code, alone or with what
stands behind it; the packet is then cut there, and gives the units back only where every
length spells one at the right place.
-/

namespace EvertyDesk.Client

open Checked

/-- A unit as an encoder makes it. -/
structure NalUnit where
  bytes : List UInt8
  nonempty : bytes ≠ []
  clean : CleanBytes bytes
  short : bytes.length < 2 ^ 32

def NalUnit.length (unit : NalUnit) : Nat := unit.bytes.length

/-- A unit with its length in front. -/
def NalUnit.framed (size : Nat) (unit : NalUnit) : List UInt8 :=
  beBytes size unit.length ++ unit.bytes

def framed (size : Nat) (units : List NalUnit) : List UInt8 := units.flatMap (NalUnit.framed size)

/-- Units behind start codes, each of them the long one or the short one. -/
def startCoded (units : List (Bool × NalUnit)) : List UInt8 :=
  units.flatMap fun (long, unit) => (if long then [0, 0, 0, 1] else [0, 0, 1]) ++ unit.bytes

def bytesOf (units : List NalUnit) : List (List UInt8) := units.map NalUnit.bytes

@[simp] theorem bytesOf_nil : bytesOf [] = [] := rfl

@[simp] theorem bytesOf_cons (unit : NalUnit) (units : List NalUnit) :
    bytesOf (unit :: units) = unit.bytes :: bytesOf units := rfl

@[simp] theorem framed_cons (size : Nat) (unit : NalUnit) (units : List NalUnit) :
    framed size (unit :: units) = unit.framed size ++ framed size units := rfl

/-- This is the packet the encoder's output is put into. -/
theorem appendAvccNal_framed (out : List UInt8) (units : List NalUnit) :
    units.foldlM (fun out unit => appendAvccNal out unit.bytes) out =
      .ok (out ++ framed 4 units) := by
  induction units generalizing out with
  | nil => exact congrArg Except.ok (List.append_nil out).symm
  | cons unit units ih =>
      rw [List.foldlM_cons, appendAvccNal, if_pos unit.short]
      refine (ih _).trans ?_
      rw [framed_cons, NalUnit.framed, NalUnit.length]
      simp only [List.append_assoc]

/-! Zeros at the end. -/

theorem trimZeroPadding_eq {bytes : List UInt8} (h : bytes.getLast? ≠ some 0) :
    trimZeroPadding bytes = bytes := by
  induction bytes using List.reverseRecOn with
  | nil => rfl
  | append_singleton bytes byte ih =>
      rw [List.getLast?_concat] at h
      rw [trimZeroPadding, List.rdropWhile_concat_neg]
      simpa using fun hzero => h (congrArg some hzero)

@[simp] theorem trimZeroPadding_zero (bytes : List UInt8) :
    trimZeroPadding (bytes ++ [0]) = trimZeroPadding bytes :=
  List.rdropWhile_concat_pos _ _ _ rfl

/-- What follows bytes that do not end with a zero is trimmed alone. -/
theorem trimZeroPadding_append {bytes : List UInt8} (h : bytes.getLast? ≠ some 0)
    (rest : List UInt8) : trimZeroPadding (bytes ++ rest) = bytes ++ trimZeroPadding rest := by
  induction rest using List.reverseRecOn with
  | nil =>
      rw [List.append_nil, trimZeroPadding_eq h]
      exact (List.append_nil bytes).symm
  | append_singleton rest byte ih =>
      rw [← List.append_assoc]
      by_cases hzero : byte = 0
      · subst hzero
        rw [trimZeroPadding_zero, trimZeroPadding_zero, ih]
      · have hlast : ∀ front : List UInt8, (front ++ [byte]).getLast? ≠ some 0 := by
          intro front
          rw [List.getLast?_concat]
          exact fun hsome => hzero (Option.some.inj hsome)
        rw [trimZeroPadding_eq (hlast _), trimZeroPadding_eq (hlast _), List.append_assoc]

/-! From pieces to parts. -/

/-- The parts that pieces become. -/
def nalsOf (pieces : List (List UInt8)) : List (List UInt8) :=
  (pieces.map trimZeroPadding).filter fun nal => !nal.isEmpty

theorem codeParts_eq (packet : List UInt8) :
    codeParts packet = nalsOf (cutAtCodes packet).tail := by
  rw [codeParts, partsBetween, nalsOf]
  induction (cutAtCodes packet).tail with
  | nil => rfl
  | cons piece pieces ih =>
      cases piece with
      | nil => exact ih
      | cons byte bytes =>
          rw [List.filter_cons_of_pos rfl, List.map_cons, List.map_cons, List.filter_cons,
            List.filter_cons, ih]

theorem nalsOf_cons (piece : List UInt8) (pieces : List (List UInt8)) :
    nalsOf (piece :: pieces) =
      if trimZeroPadding piece = [] then nalsOf pieces
      else trimZeroPadding piece :: nalsOf pieces := by
  rw [nalsOf, List.map_cons, List.filter_cons]
  split
  next hsome => rw [if_neg (by simpa using hsome), nalsOf]
  next hnone => rw [if_pos (by simpa using hnone), nalsOf]

/-- Units are their own parts. -/
theorem nalsOf_units (units : List NalUnit) : nalsOf (bytesOf units) = bytesOf units := by
  induction units with
  | nil => rfl
  | cons unit units ih =>
      rw [bytesOf_cons, nalsOf_cons, trimZeroPadding_eq unit.clean.last, if_neg unit.nonempty, ih]

/-! Start codes give the units back. -/

theorem cut_startCoded (units : List (Bool × NalUnit)) :
    cutAtCodes (startCoded units) = [] :: bytesOf (units.map Prod.snd) := by
  induction units with
  | nil => rfl
  | cons unit units ih =>
      obtain ⟨long, unit⟩ := unit
      have hrest : cutAtCodes (unit.bytes ++ startCoded units) =
          unit.bytes :: bytesOf (units.map Prod.snd) := by
        rw [cut_append unit.clean.code unit.clean.last, ih]
        simp
      cases long with
      | false =>
          rw [List.map_cons, bytesOf_cons, ← hrest]
          exact cutAtCodes_short _
      | true =>
          rw [List.map_cons, bytesOf_cons, ← hrest]
          exact cutAtCodes_long _

theorem startCoded_units {units : List (Bool × NalUnit)} (h : units ≠ []) :
    h264Nals (startCoded units) = .ok (bytesOf (units.map Prod.snd)) := by
  have hcode : [0, 0, 1] <:+: startCoded units := by
    rw [← not_not (a := [0, 0, 1] <:+: startCoded units), ← tail_cutAtCodes_eq_nil,
      cut_startCoded, List.tail_cons]
    simpa [bytesOf] using h
  rw [h264Nals_eq, if_pos hcode, codeParts_eq, cut_startCoded, List.tail_cons, nalsOf_units]

/-! Lengths are walked unit by unit. -/

theorem NalUnit.length_pos (unit : NalUnit) : 0 < unit.length :=
  List.length_pos_iff.mpr unit.nonempty

theorem NalUnit.framed_length (size : Nat) (unit : NalUnit) :
    (unit.framed size).length = size + unit.length := by
  rw [NalUnit.framed, List.length_append, beBytes_length, NalUnit.length]

theorem NalUnit.short_four (unit : NalUnit) : unit.length < 256 ^ 4 := unit.short

/-- One unit of a packet with lengths: where it is, and what its length reads as. -/
theorem framed_reads {packet : List UInt8} {size pos : Nat} {unit : NalUnit}
    {rest : List UInt8} (hsize : unit.length < 256 ^ size) (hpos : pos ≤ packet.length)
    (hdrop : packet.drop pos = unit.framed size ++ rest) :
    pos + size + unit.length ≤ packet.length ∧
      slice packet pos (pos + size) = .ok (beBytes size unit.length) ∧
      beNat (beBytes size unit.length) = unit.length ∧
      slice packet (pos + size) (pos + size + unit.length) = .ok unit.bytes ∧
      packet.drop (pos + size + unit.length) = rest := by
  have hlength := length_of_drop hdrop hpos
  rw [List.length_append, unit.framed_length] at hlength
  rw [NalUnit.framed, List.append_assoc] at hdrop
  have hunit := drop_further hdrop
  rw [beBytes_length] at hunit
  refine ⟨by omega, ?_, beNat_beBytes_of_lt hsize, ?_, ?_⟩
  · exact slice_of_drop hdrop hpos (by rw [beBytes_length])
  · exact slice_of_drop hunit (by omega) rfl
  · exact drop_further hunit

theorem avccNalsFrom_framed {packet : List UInt8} {pos : Nat} {units : List NalUnit}
    {nals : List (List UInt8)} (hpos : pos ≤ packet.length)
    (hdrop : packet.drop pos = framed 4 units) (hsome : nals ++ bytesOf units ≠ []) :
    avccNalsFrom packet pos nals = .ok (nals ++ bytesOf units) := by
  induction units generalizing pos nals with
  | nil =>
      have hend := length_of_drop hdrop hpos
      rw [bytesOf_nil, List.append_nil] at hsome
      change packet.length = pos + 0 at hend
      rw [avccNalsFrom, dif_neg (by omega), if_neg (by simp [hsome]), bytesOf_nil, List.append_nil]
      rfl
  | cons unit units ih =>
      obtain ⟨hend, hbytes, hlength, hnal, hrest⟩ := framed_reads unit.short_four hpos hdrop
      have hnone : ¬ (unit.length = 0 ∨ packet.length < pos + 4 + unit.length) := by
        have := unit.length_pos
        omega
      rw [avccNalsFrom, dif_pos (by omega), hbytes, bind_ok rfl]
      dsimp only
      rw [hlength, if_neg hnone, hnal, bind_ok rfl, ih hend hrest (by simp), bytesOf_cons,
        List.append_assoc]
      rfl

theorem avccNals_framed {units : List NalUnit} (h : units ≠ []) :
    avccNals (framed 4 units) = .ok (bytesOf units) :=
  avccNalsFrom_framed (Nat.zero_le _) List.drop_zero (by simpa [bytesOf] using h)

theorem appendAvccFrom_framed {avcc : List UInt8} {size pos : Nat} {units : List NalUnit}
    {out : List UInt8} (hpositive : 0 < size) (hsize : ∀ unit ∈ units, unit.length < 256 ^ size)
    (hpos : pos ≤ avcc.length) (hdrop : avcc.drop pos = framed size units) :
    appendAvccFrom avcc size pos out = .ok (true, out ++ startCoded (units.map (true, ·))) := by
  induction units generalizing pos out with
  | nil =>
      have hend := length_of_drop hdrop hpos
      change avcc.length = pos + 0 at hend
      rw [appendAvccFrom, dif_neg (by omega), List.map_nil]
      exact congrArg (fun out => Except.ok (true, out)) (List.append_nil out).symm
  | cons unit units ih =>
      obtain ⟨hend, hbytes, hlength, hnal, hrest⟩ :=
        framed_reads (hsize unit List.mem_cons_self) hpos hdrop
      rw [appendAvccFrom, dif_pos ⟨hpositive, by omega⟩, hbytes, bind_ok rfl]
      dsimp only
      rw [foldl_shiftLeft_or, hlength, if_neg unit.length_pos.ne', if_neg hend.not_gt, hnal,
        bind_ok rfl, ih (fun next hnext => hsize next (List.mem_cons_of_mem _ hnext)) hend hrest,
        appendAnnexBNal]
      simp [startCoded]

/-- Every size that can express the lengths gives a packet with start codes. -/
theorem appendAvcc_framed {size : Nat} {units : List NalUnit} (hunits : units ≠ [])
    (hmin : 1 ≤ size) (hmax : size ≤ 4) (hsize : ∀ unit ∈ units, unit.length < 256 ^ size) :
    appendAvccPayloadAsAnnexB (framed size units) size [] =
      .ok (true, startCoded (units.map (true, ·))) := by
  have hclamp : max 1 (min size 4) = size := by omega
  have hsome : 0 < (startCoded (units.map (true, ·))).length := by
    cases units with
    | nil => exact absurd rfl hunits
    | cons unit units => simp [startCoded]
  rw [appendAvccPayloadAsAnnexB, hclamp,
    bind_ok (appendAvccFrom_framed hmin hsize (Nat.zero_le _) List.drop_zero), List.nil_append]
  exact congrArg Except.ok (Prod.ext (by simpa using hsome) rfl)

/-! Lengths that spell start codes. -/

/-- The length of the unit, alone or with the unit's first bytes, has a start code in it. -/
def NalUnit.Unlucky (unit : NalUnit) : Prop :=
  256 ≤ unit.length ∧ unit.length < 512 ∨ unit.length % 2 ^ 24 = 1 ∨
    unit.length % 2 ^ 16 = 0 ∧ [1] <+: unit.bytes ∨
    unit.length % 2 ^ 8 = 0 ∧ [0, 1] <+: unit.bytes

/-- The unit with its length in front begins with these bytes and a start code; what is
left of the unit follows. -/
def NalUnit.Spells (unit : NalUnit) (front : List UInt8) : Prop :=
  front ≠ [] ∧ unit.framed 4 = front ++ 0 :: 0 :: 1 :: unit.bytes.drop (front.length - 1)

/-- What bytes in front of a start code add to the unit before them. A start code among
them adds nothing. -/
def added (front : List UInt8) : List UInt8 :=
  if front = [0, 0, 1] then [] else trimZeroPadding front

/-- The first of these units has lost this many bytes to the start code in front of it.
From there on, the length of every unit spells a start code, and the bytes in front of that
make up for what the unit before has lost. -/
def Lands (lost : Nat) : List NalUnit → Prop
  | [] => True
  | [_] => lost = 0
  | unit :: next :: units => ∃ front, next.Spells front ∧
      unit.bytes.drop lost ++ added front = unit.bytes ∧ Lands (front.length - 1) (next :: units)

/-- The lengths, taken for start codes, part the units from each other. -/
def Coincides (units : List NalUnit) : Prop :=
  ∃ unit ∈ units.head?, ∃ front, unit.Spells front ∧ Lands (front.length - 1) units

theorem infix_at {pattern bytes : List UInt8} :
    pattern <:+: bytes ↔ ∃ front rest, bytes = front ++ (pattern ++ rest) := by
  constructor
  · rintro ⟨front, rest, h⟩
    exact ⟨front, rest, by rw [← h, List.append_assoc]⟩
  · rintro ⟨front, rest, h⟩
    exact ⟨front, rest, by rw [h, List.append_assoc]⟩

theorem NalUnit.framed_last (unit : NalUnit) : (unit.framed 4).getLast? ≠ some 0 := by
  rw [NalUnit.framed, List.getLast?_append_of_ne_nil _ unit.nonempty]
  exact unit.clean.last

/-- A start code in a unit with its length is one of two kinds: it does not begin with the
length, or it does and nothing else follows. -/
theorem NalUnit.code_cases {unit : NalUnit} (h : [0, 0, 1] <:+: unit.framed 4) :
    (∃ front, unit.Spells front) ∨
      ∃ byte, unit.framed 4 = 0 :: 0 :: 1 :: byte :: unit.bytes ∧
        ¬ [0, 0, 1] <:+: byte :: unit.bytes := by
  obtain ⟨front, rest, hframed⟩ := infix_at.mp h
  have hdrop : (unit.framed 4).drop 4 = unit.bytes := List.drop_left' (beBytes_length 4 unit.length)
  have hspells : ∀ front rest : List UInt8, front ≠ [] →
      unit.framed 4 = front ++ ([0, 0, 1] ++ rest) → unit.Spells front := by
    intro front rest hfront hsplit
    have hfront' := List.length_pos_iff.mpr hfront
    refine ⟨hfront, ?_⟩
    have hrest : unit.bytes.drop (front.length - 1) = rest := by
      have hlength : 4 + (front.length - 1) = front.length + 3 := by omega
      rw [← hdrop, List.drop_drop, hlength, hsplit, ← List.append_assoc]
      exact List.drop_left' (by simp)
    rw [hrest, hsplit]
    rfl
  by_cases hfront : front = []
  · subst hfront
    rw [List.nil_append] at hframed
    cases rest with
    | nil =>
        have hbytes := congrArg List.length hdrop
        rw [hframed] at hbytes
        exact absurd hbytes.symm unit.length_pos.ne'
    | cons byte rest =>
        have hrest : rest = unit.bytes := by
          rw [← hdrop, hframed]
          rfl
        subst hrest
        by_cases hagain : [0, 0, 1] <:+: byte :: unit.bytes
        · obtain ⟨more, rest, hmore⟩ := infix_at.mp hagain
          exact Or.inl ⟨[0, 0, 1] ++ more, hspells _ rest (by simp) (by simp [hframed, hmore])⟩
        · exact Or.inr ⟨byte, hframed, hagain⟩
  · exact Or.inl ⟨front, hspells front rest hfront hframed⟩

theorem NalUnit.Spells.front_le {unit : NalUnit} {front : List UInt8} (h : unit.Spells front) :
    front.length ≤ 3 := by
  by_contra hlong
  have hdrop : (unit.framed 4).drop 4 = unit.bytes := List.drop_left' (beBytes_length 4 unit.length)
  rw [h.2, List.drop_append_of_le_length (by omega)] at hdrop
  exact unit.clean.code (infix_at.mpr ⟨_, _, hdrop.symm⟩)

theorem first_code {front : List UInt8} (hlength : front.length ≤ 3)
    (hcode : [0, 0, 1] <:+: front ++ [0, 0]) : front = [0, 0, 1] := by
  match front with
  | [] => simp [List.infix_cons_iff] at hcode
  | [first] => simp [List.infix_cons_iff] at hcode
  | [first, second] => simp [List.infix_cons_iff] at hcode
  | [first, second, third] =>
      have hsame : 0 = first ∧ 0 = second ∧ 1 = third := by
        simpa [List.infix_cons_iff] using hcode
      obtain ⟨rfl, rfl, rfl⟩ := hsame
      rfl
  | _ :: _ :: _ :: _ :: _ =>
      simp only [List.length_cons] at hlength
      omega

theorem NalUnit.drop_last (unit : NalUnit) (lost : Nat) :
    (unit.bytes.drop lost).getLast? ≠ some 0 := by
  rw [List.getLast?_drop]
  split
  · exact fun hnone => nomatch hnone
  · exact unit.clean.last

theorem NalUnit.cut_drop (unit : NalUnit) (lost : Nat) (rest : List UInt8) :
    cutAtCodes (unit.bytes.drop lost ++ rest) =
      (cutAtCodes rest).modifyHead (unit.bytes.drop lost ++ ·) := by
  apply cut_append
  · exact fun hcode => unit.clean.code (hcode.trans (List.drop_suffix lost unit.bytes).isInfix)
  · exact unit.drop_last lost

/-- How a packet is cut at a length that spells a start code. -/
theorem NalUnit.Spells.cut {unit : NalUnit} {front : List UInt8} (h : unit.Spells front)
    (rest : List UInt8) :
    ∃ head pieces, trimZeroPadding head = added front ∧ nalsOf pieces = [] ∧
      cutAtCodes (unit.framed 4 ++ rest) = head :: (pieces ++
        (cutAtCodes rest).modifyHead (unit.bytes.drop (front.length - 1) ++ ·)) := by
  rw [h.2, List.append_assoc, List.cons_append, List.cons_append, List.cons_append, ← unit.cut_drop]
  by_cases htwice : front = [0, 0, 1]
  · subst htwice
    refine ⟨[], [[]], rfl, rfl, ?_⟩
    exact (cutAtCodes_short _).trans (congrArg _ (cutAtCodes_short _))
  · obtain ⟨head, hhead, hcut⟩ := cut_front (fun hcode => htwice (first_code h.front_le hcode))
      (unit.bytes.drop (front.length - 1) ++ rest)
    refine ⟨head, [], ?_, rfl, hcut⟩
    rw [added, if_neg htwice]
    rcases hhead with rfl | rfl
    · rfl
    · rw [trimZeroPadding_zero]

/-! What becomes of a packet that has been cut open. -/

/-- The parts of a packet behind a start code: these bytes, and then units with lengths. -/
def opened (bytes : List UInt8) (units : List NalUnit) : List (List UInt8) :=
  nalsOf ((cutAtCodes (framed 4 units)).modifyHead (bytes ++ ·))

/-- What bytes become alone. -/
def single (bytes : List UInt8) : List (List UInt8) := if bytes = [] then [] else [bytes]

theorem single_length_le (bytes : List UInt8) : (single bytes).length ≤ 1 := by
  rw [single]
  split
  · exact Nat.zero_le 1
  · exact le_rfl

theorem nalsOf_append (left right : List (List UInt8)) :
    nalsOf (left ++ right) = nalsOf left ++ nalsOf right := by
  rw [nalsOf, List.map_append, List.filter_append, nalsOf, nalsOf]

theorem nalsOf_single (piece : List UInt8) (pieces : List (List UInt8)) :
    nalsOf (piece :: pieces) = single (trimZeroPadding piece) ++ nalsOf pieces := by
  rw [nalsOf_cons, single]
  split
  · rfl
  · rfl

/-- A unit whose length spells a start code begins a new part. -/
theorem opened_spells {bytes front : List UInt8} {next : NalUnit} (h : next.Spells front)
    (hlast : bytes.getLast? ≠ some 0) (units : List NalUnit) :
    opened bytes (next :: units) =
      single (bytes ++ added front) ++ opened (next.bytes.drop (front.length - 1)) units := by
  obtain ⟨head, pieces, hhead, hpieces, hcut⟩ := h.cut (framed 4 units)
  rw [opened, framed_cons, hcut, List.modifyHead_cons, nalsOf_single, nalsOf_append, hpieces,
    trimZeroPadding_append hlast, hhead]
  rfl

theorem closed_spells {front : List UInt8} {unit : NalUnit} (h : unit.Spells front)
    (units : List NalUnit) :
    nalsOf (cutAtCodes (framed 4 (unit :: units))).tail =
      opened (unit.bytes.drop (front.length - 1)) units := by
  obtain ⟨head, pieces, -, hpieces, hcut⟩ := h.cut (framed 4 units)
  rw [framed_cons, hcut, List.tail_cons, nalsOf_append, hpieces]
  rfl

/-- A unit with its length goes on with the part before it, or there is a start code and no
part of its own ends up as the unit. -/
theorem cut_unspelled {unit : NalUnit} (h : ¬ ∃ front, unit.Spells front) (rest : List UInt8) :
    cutAtCodes (unit.framed 4 ++ rest) = (cutAtCodes rest).modifyHead (unit.framed 4 ++ ·) ∨
      ∃ byte, cutAtCodes (unit.framed 4 ++ rest) =
        [] :: (cutAtCodes rest).modifyHead (byte :: unit.bytes ++ ·) := by
  by_cases hcode : [0, 0, 1] <:+: unit.framed 4
  · obtain hspells | ⟨byte, hframed, hafter⟩ := NalUnit.code_cases hcode
    · exact absurd hspells h
    · have hlast := unit.framed_last
      rw [hframed] at hlast
      refine Or.inr ⟨byte, ?_⟩
      rw [hframed, ← cut_append hafter
        (getLast?_of_cons (getLast?_of_cons (getLast?_of_cons hlast)))]
      exact cutAtCodes_short _
  · exact Or.inl (cut_append hcode unit.framed_last rest)

/-- There are no more parts than units. -/
theorem opened_length_le (bytes : List UInt8) (units : List NalUnit) :
    (opened bytes units).length ≤ units.length + 1 := by
  induction units generalizing bytes with
  | nil =>
      change (nalsOf [bytes ++ []]).length ≤ 1
      rw [nalsOf_single]
      exact (List.append_nil _).symm ▸ single_length_le _
  | cons unit units ih =>
      rw [List.length_cons]
      by_cases hspells : ∃ front, unit.Spells front
      · obtain ⟨front, hspells⟩ := hspells
        obtain ⟨head, pieces, -, hpieces, hcut⟩ := hspells.cut (framed 4 units)
        have hsingle := single_length_le (trimZeroPadding (bytes ++ head))
        have hrest := ih (unit.bytes.drop (front.length - 1))
        rw [opened] at hrest
        rw [opened, framed_cons, hcut, List.modifyHead_cons, nalsOf_single, nalsOf_append, hpieces,
          List.nil_append, List.length_append]
        omega
      · obtain hcut | ⟨byte, hcut⟩ := cut_unspelled hspells (framed 4 units)
        · have hrest := ih (bytes ++ unit.framed 4)
          rw [opened] at hrest
          rw [opened, framed_cons, hcut, List.modifyHead_modifyHead]
          simp only [Function.comp_def, ← List.append_assoc]
          omega
        · have hsingle := single_length_le (trimZeroPadding (bytes ++ []))
          have hrest := ih (byte :: unit.bytes)
          rw [opened] at hrest
          rw [opened, framed_cons, hcut, List.modifyHead_cons, nalsOf_single, List.length_append]
          omega

/-- The first part has all the bytes it begins with. -/
theorem opened_first {bytes : List UInt8} (hsome : bytes ≠ [])
    (hlast : bytes.getLast? ≠ some 0) (units : List NalUnit) :
    ∃ more parts, opened bytes units = (bytes ++ more) :: parts := by
  obtain ⟨first, pieces, hpieces⟩ := List.exists_cons_of_ne_nil (cutAtCodes_ne_nil (framed 4 units))
  refine ⟨trimZeroPadding first, nalsOf pieces, ?_⟩
  rw [opened, hpieces, List.modifyHead_cons, nalsOf_cons, trimZeroPadding_append hlast,
    if_neg (by simp [hsome])]

/-- Too few parts are not the units. -/
theorem opened_ne {bytes : List UInt8} {first second : NalUnit} {units : List NalUnit} :
    opened bytes units ≠ bytesOf (first :: second :: units) := by
  intro hparts
  have hlength := opened_length_le bytes units
  rw [hparts, bytesOf, List.length_map] at hlength
  simp only [List.length_cons] at hlength
  omega

theorem single_eq {bytes : List UInt8} (h : bytes ≠ []) : single bytes = [bytes] := if_neg h

/-- A part that is longer than the unit is not the unit. -/
theorem opened_longer {byte : UInt8} {unit : NalUnit} (units : List NalUnit) :
    opened (byte :: unit.bytes) units ≠ bytesOf (unit :: units) := by
  intro hparts
  have hlast : (byte :: unit.bytes).getLast? ≠ some 0 := by
    rw [List.getLast?_cons_of_ne_nil unit.nonempty]
    exact unit.clean.last
  obtain ⟨more, parts, hopened⟩ := opened_first (List.cons_ne_nil _ _) hlast units
  rw [hopened, bytesOf_cons] at hparts
  have hlength := congrArg List.length (List.cons.inj hparts).1
  rw [List.length_append, List.length_cons] at hlength
  omega

theorem opened_nil (lost : Nat) (unit : NalUnit) :
    opened (unit.bytes.drop lost) [] = single (unit.bytes.drop lost) := by
  change nalsOf [unit.bytes.drop lost ++ []] = _
  rw [nalsOf_single, List.append_nil, trimZeroPadding_eq (unit.drop_last lost)]
  exact List.append_nil _

theorem single_drop_iff (lost : Nat) (unit : NalUnit) :
    single (unit.bytes.drop lost) = [unit.bytes] ↔ lost = 0 := by
  constructor
  · intro hsame
    have hsome : unit.bytes.drop lost ≠ [] := by
      intro hnone
      rw [single, if_pos hnone] at hsame
      cases hsame
    rw [single_eq hsome] at hsame
    have hlength := congrArg List.length (List.cons.inj hsame).1
    rw [List.length_drop] at hlength
    have hpos := List.length_pos_iff.mpr unit.nonempty
    omega
  · rintro rfl
    exact single_eq unit.nonempty

/-- A length that spells no start code leaves its bytes in one of the parts. -/
theorem opened_unspelled {lost : Nat} {unit next : NalUnit} {units : List NalUnit}
    (hspells : ¬ ∃ front, next.Spells front) :
    opened (unit.bytes.drop lost) (next :: units) ≠ bytesOf (unit :: next :: units) := by
  intro hparts
  obtain hcut | ⟨byte, hcut⟩ := cut_unspelled hspells (framed 4 units)
  · have hjoined : opened (unit.bytes.drop lost) (next :: units) =
        opened (unit.bytes.drop lost ++ next.framed 4) units := by
      rw [opened, framed_cons, hcut, List.modifyHead_modifyHead, opened]
      simp only [Function.comp_def, ← List.append_assoc]
    exact absurd (hjoined ▸ hparts) opened_ne
  · have hsplit : opened (unit.bytes.drop lost) (next :: units) =
        single (unit.bytes.drop lost) ++ opened (byte :: next.bytes) units := by
      rw [opened, framed_cons, hcut, List.modifyHead_cons, nalsOf_single,
        List.append_nil, trimZeroPadding_eq (unit.drop_last lost)]
      rfl
    rw [hsplit] at hparts
    by_cases hnone : unit.bytes.drop lost = []
    · rw [single, if_pos hnone, List.nil_append] at hparts
      exact absurd hparts opened_ne
    · rw [single_eq hnone, bytesOf_cons] at hparts
      exact absurd (List.cons.inj hparts).2 (opened_longer units)

theorem lands_iff (lost : Nat) (unit : NalUnit) (units : List NalUnit) :
    opened (unit.bytes.drop lost) units = bytesOf (unit :: units) ↔
      Lands lost (unit :: units) := by
  induction units generalizing lost unit with
  | nil =>
      rw [opened_nil, Lands, bytesOf_cons, bytesOf_nil]
      exact single_drop_iff lost unit
  | cons next units ih =>
      have hlast := unit.drop_last lost
      rw [Lands]
      constructor
      · intro hparts
        by_cases hspells : ∃ front, next.Spells front
        · obtain ⟨front, hspells⟩ := hspells
          rw [opened_spells hspells hlast] at hparts
          by_cases hnone : unit.bytes.drop lost ++ added front = []
          · rw [single, if_pos hnone, List.nil_append] at hparts
            exact absurd hparts opened_ne
          · rw [single_eq hnone, bytesOf_cons] at hparts
            obtain ⟨hsame, hrest⟩ := List.cons.inj hparts
            exact ⟨front, hspells, hsame, (ih _ next).mp hrest⟩
        · exact absurd hparts (opened_unspelled hspells)
      · rintro ⟨front, hspells, hsame, hlands⟩
        rw [opened_spells hspells hlast, hsame, single_eq unit.nonempty, (ih _ next).mpr hlands]
        rfl

/-- A packet with a start code in it gives the units back only if the start codes coincide
with the lengths. -/
theorem coincides_iff (unit : NalUnit) (units : List NalUnit) :
    codeParts (framed 4 (unit :: units)) = bytesOf (unit :: units) ↔ Coincides (unit :: units) := by
  rw [codeParts_eq, Coincides]
  constructor
  · intro hparts
    refine ⟨unit, rfl, ?_⟩
    by_cases hspells : ∃ front, unit.Spells front
    · obtain ⟨front, hspells⟩ := hspells
      rw [closed_spells hspells] at hparts
      exact ⟨front, hspells, (lands_iff _ unit units).mp hparts⟩
    · rw [framed_cons] at hparts
      obtain hcut | ⟨byte, hcut⟩ := cut_unspelled hspells (framed 4 units)
      · obtain ⟨first, pieces, hpieces⟩ :=
          List.exists_cons_of_ne_nil (cutAtCodes_ne_nil (framed 4 units))
        have hlength := opened_length_le [1] units
        have hclosed := congrArg List.length hparts
        rw [opened, hpieces, List.modifyHead_cons, nalsOf_cons,
          trimZeroPadding_append (by simp), if_neg (by simp), List.length_cons] at hlength
        rw [hcut, hpieces, List.modifyHead_cons, List.tail_cons, bytesOf, List.length_map,
          List.length_cons] at hclosed
        omega
      · rw [hcut, List.tail_cons] at hparts
        exact absurd hparts (opened_longer units)
  · rintro ⟨first, hfirst, front, hspells, hlands⟩
    rw [List.head?_cons, Option.mem_some_iff] at hfirst
    subst hfirst
    rw [closed_spells hspells]
    exact (lands_iff _ unit units).mpr hlands

/-! Which packets have a start code in them. -/

theorem ofNat_eq_iff (n : Nat) (byte : UInt8) : byte = UInt8.ofNat n ↔ n % 256 = byte.toNat := by
  rw [← UInt8.toNat_inj, UInt8.toNat_ofNat', eq_comm]

theorem NalUnit.unlucky_iff (unit : NalUnit) : [0, 0, 1] <:+: unit.framed 4 ↔ unit.Unlucky := by
  have hcode := unit.clean.code
  have hzero : (0 : UInt8).toNat = 0 := rfl
  have hone : (1 : UInt8).toNat = 1 := rfl
  have hmiddle : unit.length / 256 / 256 / 256 % 256 = 0 ∧ unit.length / 256 / 256 % 256 = 0 ∧
      unit.length / 256 % 256 = 1 ↔ 256 ≤ unit.length ∧ unit.length < 512 := by
    have hshort := unit.short_four
    omega
  have hlow : unit.length / 256 / 256 % 256 = 0 ∧ unit.length / 256 % 256 = 0 ∧
      unit.length % 256 = 1 ↔ unit.length % 2 ^ 24 = 1 := by
    omega
  have hshared : unit.length / 256 % 256 = 0 ∧ unit.length % 256 = 0 ↔
      unit.length % 2 ^ 16 = 0 := by
    omega
  change [0, 0, 1] <:+: UInt8.ofNat (unit.length / 256 / 256 / 256) ::
    UInt8.ofNat (unit.length / 256 / 256) :: UInt8.ofNat (unit.length / 256) ::
    UInt8.ofNat unit.length :: unit.bytes ↔ _
  simp only [List.infix_cons_iff, List.cons_prefix_cons, List.nil_prefix, and_true,
    ofNat_eq_iff, hcode, or_false, hzero, hone]
  rw [hmiddle, hlow, ← and_assoc (a := unit.length / 256 % 256 = 0), hshared]
  rfl

theorem framed_code_iff (units : List NalUnit) :
    [0, 0, 1] <:+: framed 4 units ↔ ∃ unit ∈ units, unit.Unlucky := by
  rw [← not_iff_not, ← tail_cutAtCodes_eq_nil, not_exists]
  simp only [not_and]
  induction units with
  | nil => simp [framed]
  | cons unit units ih =>
      rw [framed_cons, List.forall_mem_cons, ← ih, ← unit.unlucky_iff]
      by_cases hcode : [0, 0, 1] <:+: unit.framed 4
      · have hwhole : [0, 0, 1] <:+: unit.framed 4 ++ framed 4 units :=
          hcode.trans (List.prefix_append _ _).isInfix
        simp only [tail_cutAtCodes_eq_nil, hwhole, hcode, not_true, false_and]
      · rw [cut_append hcode unit.framed_last, List.tail_modifyHead, and_iff_right hcode]

/-! The units come back. -/

/-- Every packet made of the units is read as the units. -/
structure Repackaged (units : List NalUnit) : Prop where
  startCoded : ∀ coded, coded.map Prod.snd = units →
    h264Nals (startCoded coded) = .ok (bytesOf units)
  framed : h264Nals (framed 4 units) = .ok (bytesOf units)
  converted : ∀ size, 1 ≤ size → size ≤ 4 → (∀ unit ∈ units, unit.length < 256 ^ size) →
    ∃ packet, appendAvccPayloadAsAnnexB (EvertyDesk.Client.framed size units) size [] =
      .ok (true, packet) ∧ h264Nals packet = .ok (bytesOf units)

/-- Every byte string is read to its end. With lengths in front the units come back if and
only if no length spells a start code or all do so in the right places. -/
theorem repackaged_iff (unit : NalUnit) (units : List NalUnit) :
    (∀ packet, ∃ nals, h264Nals packet = .ok nals) ∧
      (∀ avcc size out, ∃ result, appendAvccPayloadAsAnnexB avcc size out = .ok result) ∧
      (Repackaged (unit :: units) ↔
        (∀ each ∈ unit :: units, ¬ each.Unlucky) ∨ Coincides (unit :: units)) := by
  refine ⟨h264Nals_returns, appendAvcc_returns, ?_⟩
  have hcode : ¬ [0, 0, 1] <:+: framed 4 (unit :: units) ↔
      ∀ each ∈ unit :: units, ¬ each.Unlucky := by
    rw [framed_code_iff, not_exists]
    simp only [not_and]
  rw [← hcode, ← coincides_iff]
  constructor
  · intro h
    have hframed := h.framed
    rw [h264Nals_eq] at hframed
    split at hframed
    next => exact Or.inr (Except.ok.inj hframed)
    next hnone => exact Or.inl hnone
  · intro h
    refine ⟨?_, ?_, ?_⟩
    · intro coded hcoded
      have hsome : coded ≠ [] := by
        rintro rfl
        cases hcoded
      rw [startCoded_units hsome, hcoded]
    · rw [h264Nals_eq]
      split
      next hsome => exact congrArg Except.ok (h.resolve_left (not_not.mpr hsome))
      next => exact avccNals_framed (List.cons_ne_nil _ _)
    · intro size hmin hmax hsize
      refine ⟨_, appendAvcc_framed (List.cons_ne_nil _ _) hmin hmax hsize, ?_⟩
      rw [startCoded_units (by simp), List.map_map]
      exact congrArg (fun units => Except.ok (bytesOf units)) (List.map_id _)

/-- A slice of 300 bytes, such as a small picture has. -/
def smallSlice : NalUnit where
  bytes := List.replicate 300 101
  nonempty := List.cons_ne_nil _ _
  clean := by
    have hzero : ∀ {pattern : List UInt8}, 0 ∈ pattern → ¬ pattern <:+: List.replicate 300 101 :=
      fun hmem hwithin => absurd (List.eq_of_mem_replicate (hwithin.subset hmem)) (by decide)
    refine ⟨hzero (by decide), hzero (by decide), hzero (by decide), ?_⟩
    rw [List.getLast?_replicate]
    decide
  short := by
    rw [List.length_replicate]
    decide

/-- Its length is `0 0 1 44`: the start code is taken away, and the last length byte is
taken for the unit's first byte. -/
theorem small_slice_torn :
    h264Nals (framed 4 [smallSlice]) = .ok [44 :: smallSlice.bytes] ∧
      ¬ Repackaged [smallSlice] := by
  have hread : h264Nals (framed 4 [smallSlice]) = .ok [44 :: smallSlice.bytes] := by
    have hlength : smallSlice.length = 300 := List.length_replicate
    have hunlucky : smallSlice.Unlucky := Or.inl (by rw [hlength]; decide)
    have hcode := (framed_code_iff [smallSlice]).mpr ⟨_, List.mem_cons_self, hunlucky⟩
    rw [h264Nals_eq, if_pos hcode]
    exact congrArg Except.ok (by decide +kernel)
  refine ⟨hread, fun h => ?_⟩
  have hsame := Except.ok.inj (hread.symm.trans h.framed)
  have hlength := congrArg List.length (List.cons.inj hsame).1
  rw [List.length_cons] at hlength
  omega

end EvertyDesk.Client
