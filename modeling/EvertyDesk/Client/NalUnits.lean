import EvertyDesk.Lib.Bytes
import EvertyDesk.Lib.Checked
import EvertyDesk.Lib.StartCodes

/-!
The packets of the macOS video decoder, and their parts. A packet with a start code
anywhere is read as parts between start codes, any other one as parts with their lengths
in front. The encoder's packets, which have lengths, are given start codes.

Positions in a packet are far below the limit of a word.
-/

namespace EvertyDesk.Client

open Checked

/-! Start codes. -/

/-- The bytes from this position on are read one by one, up to the first that differs. -/
def bytesAre (packet : List UInt8) (i : Nat) : List UInt8 → Checked Bool
  | [] => .ok true
  | expected :: more => do
      let byte ← index packet i
      if byte = expected then bytesAre packet (i + 1) more else return false

def startCodesFrom (packet : List UInt8) (i : Nat) (starts : List (Nat × Nat)) :
    Checked (List (Nat × Nat)) :=
  if _h : i + 3 ≤ packet.length then do
    if ← bytesAre packet i [0, 0, 1] then
      startCodesFrom packet (i + 3) (starts ++ [(i, 3)])
    else if ← (if i + 4 ≤ packet.length then bytesAre packet i [0, 0, 0, 1] else return false) then
      startCodesFrom packet (i + 4) (starts ++ [(i, 4)])
    else startCodesFrom packet (i + 1) starts
  else return starts
termination_by packet.length - i

def annexBStartCodes (packet : List UInt8) : Checked (List (Nat × Nat)) :=
  startCodesFrom packet 0 []

def trimZeroPadding (nal : List UInt8) : List UInt8 := nal.rdropWhile (· == 0)

/-- A part ends where the next start code begins. -/
def nalEnd (packet : List UInt8) (starts : List (Nat × Nat)) : Nat :=
  match starts with
  | (next, _) :: _ => next
  | [] => packet.length

def annexBNals (packet : List UInt8) : List (Nat × Nat) → Checked (List (List UInt8))
  | [] => .ok []
  | (start, codeLen) :: starts =>
      let nalStart := start + codeLen
      let nalEnd := nalEnd packet starts
      if nalStart < nalEnd then do
        let nal ← slice packet nalStart nalEnd
        let nals ← annexBNals packet starts
        return trimZeroPadding nal :: nals
      else annexBNals packet starts

/-! Lengths. -/

def avccNalsFrom (packet : List UInt8) (pos : Nat) (nals : List (List UInt8)) :
    Checked (List (List UInt8)) :=
  if _h : pos + 4 ≤ packet.length then do
    let bytes ← slice packet pos (pos + 4)
    let len := beNat bytes
    let nalStart := pos + 4
    let nalEnd := nalStart + len
    if len = 0 ∨ packet.length < nalEnd then return []
    else do
      let nal ← slice packet nalStart nalEnd
      avccNalsFrom packet nalEnd (nals ++ [nal])
  else if nals.isEmpty && !packet.isEmpty then return [packet]
  else return nals
termination_by packet.length - pos

def avccNals (packet : List UInt8) : Checked (List (List UInt8)) := avccNalsFrom packet 0 []

def h264Nals (packet : List UInt8) : Checked (List (List UInt8)) := do
  let starts ← annexBStartCodes packet
  if starts.isEmpty then avccNals packet
  else do
    let nals ← annexBNals packet starts
    return nals.filter fun nal => !nal.isEmpty

def appendAvccNal (out nal : List UInt8) : Except String (List UInt8) :=
  if nal.length < 2 ^ 32 then return out ++ beBytes 4 nal.length ++ nal
  else throw "VideoToolbox H264 NAL too large"

/-! From lengths to start codes. -/

def appendAnnexBNal (out nal : List UInt8) : List UInt8 := out ++ [0, 0, 0, 1] ++ nal

/-- The loop, which gives what is put out and whether it has come to the end. -/
def appendAvccFrom (avcc : List UInt8) (nalLengthSize : Nat) (pos : Nat) (out : List UInt8) :
    Checked (Bool × List UInt8) :=
  if _h : 0 < nalLengthSize ∧ pos + nalLengthSize ≤ avcc.length then do
    let bytes ← slice avcc pos (pos + nalLengthSize)
    let len := bytes.foldl (fun len byte => len <<< 8 ||| byte.toNat) 0
    let nalStart := pos + nalLengthSize
    if len = 0 then appendAvccFrom avcc nalLengthSize nalStart out
    else
      let nalEnd := nalStart + len
      if avcc.length < nalEnd then return (false, out)
      else do
        let nal ← slice avcc nalStart nalEnd
        appendAvccFrom avcc nalLengthSize nalEnd (appendAnnexBNal out nal)
  else return (true, out)
termination_by avcc.length - pos

def appendAvccPayloadAsAnnexB (avcc : List UInt8) (nalLengthSize : Nat) (out : List UInt8) :
    Checked (Bool × List UInt8) := do
  let nalLengthSize := max 1 (min nalLengthSize 4)
  let (finished, appended) ← appendAvccFrom avcc nalLengthSize 0 out
  return (finished && decide (out.length < appended.length), appended)

/-! What the loops compute, on whole byte strings. -/

theorem bytesAre_eq {packet pattern : List UInt8} {i : Nat}
    (h : i + pattern.length ≤ packet.length) :
    bytesAre packet i pattern = .ok (decide (pattern <+: packet.drop i)) := by
  induction pattern generalizing i with
  | nil => simp [bytesAre]
  | cons expected more ih =>
      rw [List.length_cons] at h
      have hi : i < packet.length := by omega
      rw [bytesAre, bind_ok (index_ok hi), List.drop_eq_getElem_cons hi]
      by_cases hsame : packet[i] = expected
      · rw [if_pos hsame, ih (by omega)]
        simp [List.cons_prefix_cons, hsame]
      · have hnot : ¬ expected :: more <+: packet[i] :: packet.drop (i + 1) :=
          fun hprefix => hsame (List.cons_prefix_cons.mp hprefix).1.symm
        rw [if_neg hsame, decide_eq_false hnot]
        rfl

/-- The parts between start codes. -/
def partsBetween (pieces : List (List UInt8)) : List (List UInt8) :=
  (pieces.filter fun piece => !piece.isEmpty).map trimZeroPadding

/-- These are the start codes from a position on. -/
structure StartCodes (packet : List UInt8) (i : Nat) (starts : List (Nat × Nat)) : Prop where
  start_le : i ≤ nalEnd packet starts
  end_le : nalEnd packet starts ≤ packet.length
  first : (cutAtCodes (packet.drop i)).head? =
    some ((packet.drop i).take (nalEnd packet starts - i))
  parts : annexBNals packet starts = .ok (partsBetween (cutAtCodes (packet.drop i)).tail)
  none : starts = [] ↔ (cutAtCodes (packet.drop i)).tail = []

theorem StartCodes.nil {packet : List UInt8} {i : Nat} (h : packet.drop i = [])
    (hi : i ≤ packet.length) : StartCodes packet i [] where
  start_le := hi
  end_le := le_rfl
  first := by simp [h]
  parts := by
    rw [h]
    rfl
  none := by simp [h]

theorem StartCodes.byte {packet bytes : List UInt8} {i : Nat} {byte : UInt8}
    {starts : List (Nat × Nat)} (h : StartCodes packet (i + 1) starts)
    (hdrop : packet.drop i = byte :: bytes) (hcode : ¬ AtCode (byte :: bytes)) :
    StartCodes packet i starts := by
  have hnext : packet.drop (i + 1) = bytes := @drop_further _ packet [byte] bytes i hdrop
  have hcut := cutAtCodes_byte hcode
  obtain ⟨hstart, hend, hfirst, hparts, hnone⟩ := h
  rw [hnext] at hfirst hparts hnone
  rw [← hdrop] at hcut
  constructor
  · omega
  · exact hend
  · have hsub : nalEnd packet starts - i = nalEnd packet starts - (i + 1) + 1 := by omega
    rw [hcut, List.head?_modifyHead, hfirst, hdrop, hsub]
    rfl
  · rw [hcut, List.tail_modifyHead, hparts]
  · rw [hcut, List.tail_modifyHead, hnone]

theorem StartCodes.code {packet : List UInt8} {i codeLen : Nat} {starts : List (Nat × Nat)}
    (h : StartCodes packet (i + codeLen) starts) (hlen : i + codeLen ≤ packet.length)
    (hcut : cutAtCodes (packet.drop i) = [] :: cutAtCodes (packet.drop (i + codeLen))) :
    StartCodes packet i ((i, codeLen) :: starts) := by
  obtain ⟨hstart, hend, hfirst, hparts, hnone⟩ := h
  obtain ⟨first, rest, hpieces⟩ :=
    List.exists_cons_of_ne_nil (cutAtCodes_ne_nil (packet.drop (i + codeLen)))
  rw [hpieces] at hcut hfirst hparts
  rw [List.head?_cons, Option.some_inj] at hfirst
  constructor
  · exact le_rfl
  · exact (Nat.le_add_right i codeLen).trans hlen
  · rw [hcut]
    simp [nalEnd]
  · rw [hcut, annexBNals, List.tail_cons, partsBetween]
    split
    next hsome =>
      have hne : first.isEmpty = false := by
        rw [List.isEmpty_eq_false_iff, hfirst, ← List.length_pos_iff, List.length_take,
          List.length_drop]
        omega
      rw [slice_ok hstart hend, bind_ok rfl, hparts, bind_ok rfl, ← hfirst,
        List.filter_cons_of_pos (by simp [hne])]
      rfl
    next hsome =>
      have hempty : first.isEmpty = true := by
        rw [hfirst, Nat.sub_eq_zero_of_le (Nat.not_lt.mp hsome)]
        rfl
      rw [hparts, List.filter_cons_of_neg (by simp [hempty])]
      rfl
  · simp [hcut]

theorem startCodesFrom_eq {packet bytes : List UInt8} {i : Nat} (hdrop : packet.drop i = bytes)
    (hi : i ≤ packet.length) (starts : List (Nat × Nat)) :
    ∃ later, startCodesFrom packet i starts = .ok (starts ++ later) ∧
      StartCodes packet i later := by
  induction bytes using code_induction generalizing i starts with
  | nil =>
      have hlength := length_of_drop hdrop hi
      rw [List.length_nil, Nat.add_zero] at hlength
      refine ⟨[], ?_, StartCodes.nil hdrop hi⟩
      rw [startCodesFrom, dif_neg (by omega), List.append_nil]
      rfl
  | short bytes ih =>
      have hlength := length_of_drop hdrop hi
      simp only [List.length_cons] at hlength
      have hnext : packet.drop (i + 3) = bytes := @drop_further _ packet [0, 0, 1] bytes i hdrop
      obtain ⟨later, hlater, hcodes⟩ := ih hnext (by omega) (starts ++ [(i, 3)])
      refine ⟨(i, 3) :: later, ?_, hcodes.code (by omega) ?_⟩
      · rw [startCodesFrom, dif_pos (by omega), bytesAre_eq (by simp; omega), bind_ok rfl,
          if_pos (by simp [hdrop]), hlater, List.append_assoc]
        rfl
      · rw [hdrop, hnext, cutAtCodes_short]
  | long bytes ih =>
      have hlength := length_of_drop hdrop hi
      simp only [List.length_cons] at hlength
      have hnext : packet.drop (i + 4) = bytes := @drop_further _ packet [0, 0, 0, 1] bytes i hdrop
      obtain ⟨later, hlater, hcodes⟩ := ih hnext (by omega) (starts ++ [(i, 4)])
      refine ⟨(i, 4) :: later, ?_, hcodes.code (by omega) ?_⟩
      · rw [startCodesFrom, dif_pos (by omega), bytesAre_eq (by simp; omega), bind_ok rfl,
          if_neg (by simp [hdrop]), if_pos (by omega), bytesAre_eq (by simp; omega), bind_ok rfl,
          if_pos (by simp [hdrop]), hlater, List.append_assoc]
        rfl
      · rw [hdrop, hnext, cutAtCodes_long]
  | byte byte bytes hcode ih =>
      have hlength := length_of_drop hdrop hi
      rw [List.length_cons] at hlength
      have hnext : packet.drop (i + 1) = bytes := @drop_further _ packet [byte] bytes i hdrop
      obtain ⟨later, hlater, hcodes⟩ := ih hnext (by omega) starts
      refine ⟨later, ?_, hcodes.byte hdrop hcode⟩
      rw [AtCode, not_or] at hcode
      rw [startCodesFrom]
      split
      next hroom =>
        rw [bytesAre_eq (by simp; omega), bind_ok rfl, if_neg (by simp [hdrop, hcode.1])]
        split
        next hlong =>
          rw [bytesAre_eq (by simp; omega), bind_ok rfl, if_neg (by simp [hdrop, hcode.2])]
          exact hlater
        next hshort => exact hlater
      next hroom =>
        rw [startCodesFrom, dif_neg (by omega)] at hlater
        exact hlater

/-- The parts of a packet that has start codes. -/
def codeParts (packet : List UInt8) : List (List UInt8) :=
  (partsBetween (cutAtCodes packet).tail).filter fun nal => !nal.isEmpty

/-- One way or the other. -/
theorem h264Nals_eq (packet : List UInt8) :
    h264Nals packet =
      if [0, 0, 1] <:+: packet then .ok (codeParts packet) else avccNals packet := by
  obtain ⟨starts, hstarts, hcodes⟩ :=
    startCodesFrom_eq (List.drop_zero (l := packet)) (Nat.zero_le _) []
  have hnone := hcodes.none
  have hparts := hcodes.parts
  rw [List.drop_zero] at hnone hparts
  rw [tail_cutAtCodes_eq_nil] at hnone
  rw [h264Nals, annexBStartCodes, hstarts, bind_ok rfl, List.nil_append]
  by_cases hcode : [0, 0, 1] <:+: packet
  · have hsome : starts.isEmpty = false :=
      List.isEmpty_eq_false_iff.mpr fun hnil => hnone.mp hnil hcode
    rw [if_neg (by simp [hsome]), if_pos hcode, hparts]
    rfl
  · rw [if_pos (by simp [hnone.mpr hcode]), if_neg hcode]

/-! No read is out of bounds. -/

theorem avccNalsFrom_returns (packet : List UInt8) (pos : Nat) (nals : List (List UInt8)) :
    ∃ result, avccNalsFrom packet pos nals = .ok result := by
  induction hrest : packet.length - pos using Nat.strong_induction_on generalizing pos nals with
  | _ rest ih =>
      subst hrest
      rw [avccNalsFrom]
      split
      next hroom =>
        rw [slice_ok (by omega) hroom, bind_ok rfl]
        dsimp only
        split
        next => exact ⟨_, rfl⟩
        next hlen =>
          rw [not_or, Nat.not_lt] at hlen
          rw [slice_ok (by omega) hlen.2, bind_ok rfl]
          exact ih _ (by omega) _ _ rfl
      next =>
        split
        · exact ⟨_, rfl⟩
        · exact ⟨_, rfl⟩

theorem h264Nals_returns (packet : List UInt8) : ∃ nals, h264Nals packet = .ok nals := by
  rw [h264Nals_eq]
  split
  · exact ⟨_, rfl⟩
  · exact avccNalsFrom_returns packet 0 []

theorem appendAvccFrom_returns (avcc : List UInt8) (size pos : Nat) (out : List UInt8) :
    ∃ result, appendAvccFrom avcc size pos out = .ok result := by
  induction hrest : avcc.length - pos using Nat.strong_induction_on generalizing pos out with
  | _ rest ih =>
      subst hrest
      rw [appendAvccFrom]
      split
      next hroom =>
        rw [slice_ok (by omega) hroom.2, bind_ok rfl]
        dsimp only
        split
        next => exact ih _ (by omega) _ _ rfl
        next =>
          split
          next => exact ⟨_, rfl⟩
          next hend =>
            rw [slice_ok (by omega) (Nat.not_lt.mp hend), bind_ok rfl]
            exact ih _ (by omega) _ _ rfl
      next => exact ⟨_, rfl⟩

theorem appendAvcc_returns (avcc : List UInt8) (size : Nat) (out : List UInt8) :
    ∃ result, appendAvccPayloadAsAnnexB avcc size out = .ok result := by
  obtain ⟨result, hresult⟩ := appendAvccFrom_returns avcc (max 1 (min size 4)) 0 out
  rw [appendAvccPayloadAsAnnexB, bind_ok hresult]
  exact ⟨_, rfl⟩

end EvertyDesk.Client
