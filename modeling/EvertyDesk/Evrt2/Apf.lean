import EvertyDesk.Evrt2.Packet
import EvertyDesk.Lib.Chunks
import Mathlib.Algebra.BigOperators.Group.List.Basic

/-!
The attention priority field: how much each tile of a frame matters, sent in full with a
key frame and as a difference with the other frames. The grid is made coarse enough for
one datagram; a difference is made for the same grid.
-/

namespace EvertyDesk.Evrt2

/-- What is done with priorities, which are `f32`. -/
structure PriorityArith (P : Type) where
  zero : P
  gt : P → P → Bool
  quantizeU4 : P → Fin 16

/-- One priority for each tile of a frame, row after row. -/
structure AttentionMap (P : Type) where
  tilesX : Nat
  tilesY : Nat
  values : List P
  complete : values.length = tilesX * tilesY

def apfVersion : UInt8 := 1
def apfHeaderLen : Nat := 8
def apfEncodingU4 : UInt8 := 0x01
def apfEncodingDelta : UInt8 := 0x03
def deltaMaxSkipRun : Nat := 0x7F
def tileSize : Nat := 32

def apfHeader (tileSize : UInt8) (cols rows : UInt16) (encoding : UInt8) : List UInt8 :=
  apfVersion :: tileSize :: (beBytes 2 cols.toNat ++ (beBytes 2 rows.toNat ++ [encoding, 0]))

@[simp] theorem apfHeader_length (tileSize : UInt8) (cols rows : UInt16) (encoding : UInt8) :
    (apfHeader tileSize cols rows encoding).length = apfHeaderLen := by
  simp [apfHeader, beBytes_length, apfHeaderLen]

/-- The smallest cell, in tiles, with which the full map fits. -/
def fitScaleForBudget (tilesX tilesY maxPayload : Nat) : Option Nat :=
  (List.range' 1 255).find? fun scale =>
    let cols := divCeil tilesX scale
    let rows := divCeil tilesY scale
    decide (apfHeaderLen + divCeil (cols * rows) 2 ≤ maxPayload)

def pushSkipRecords (run : Nat) : List UInt8 :=
  if run = 0 then []
  else
    let n := min run deltaMaxSkipRun
    UInt8.ofNat n :: pushSkipRecords (run - n)
termination_by run
decreasing_by simp only [deltaMaxSkipRun]; omega

section Encoding

variable {P : Type} (arith : PriorityArith P)

def level (priority : P) : UInt8 := UInt8.ofNat (arith.quantizeU4 priority).val

/-- Two levels, the first in the high half. -/
def packLevels : List P → UInt8
  | hi :: lo :: _ => level arith hi <<< 4 ||| level arith lo
  | [hi] => level arith hi <<< 4
  | [] => 0

def encodeU4 (attentionMap : List P) (cols rows : UInt16) (tileSize : UInt8) : List UInt8 :=
  apfHeader tileSize cols rows apfEncodingU4 ++ (chunks 2 attentionMap).map (packLevels arith)

/-- The records of a difference, after so many cells that are the same. -/
def deltaRecords (unchangedRun : Nat) : List (P × P) → List UInt8
  | [] => pushSkipRecords unchangedRun
  | (previous, current) :: rest =>
      if arith.quantizeU4 previous = arith.quantizeU4 current then
        deltaRecords (unchangedRun + 1) rest
      else
        pushSkipRecords unchangedRun ++ (0x80 ||| level arith current) :: deltaRecords 0 rest

def encodeDelta (previous current : List P) (cols rows : UInt16) (tileSize : UInt8) : List UInt8 :=
  apfHeader tileSize cols rows apfEncodingDelta ++
    deltaRecords arith 0 ((previous.zip current).take (cols.toNat * rows.toNat))

/-- Every cell gets the highest priority of its tiles. -/
def downsampleMax (attn : AttentionMap P) (scale : Nat) : List P × Nat × Nat :=
  let coarseCols := divCeil attn.tilesX scale
  let coarseRows := divCeil attn.tilesY scale
  let coarse := List.replicate (coarseCols * coarseRows) arith.zero
  let tiles := (List.range attn.tilesY).flatMap fun ty =>
    (List.range attn.tilesX).map fun tx => (tx, ty)
  let raise (coarse : List P) (tile : Nat × Nat) : List P :=
    let p := attn.values.getD (tile.1 + tile.2 * attn.tilesX) arith.zero
    coarse.modify (tile.1 / scale + tile.2 / scale * coarseCols) fun old =>
      if arith.gt p old then p else old
  (tiles.foldl raise coarse, coarseCols, coarseRows)

/-- A map on the grid it is sent on. -/
structure ApfMap (P : Type) where
  values : List P
  cols : UInt16
  rows : UInt16
  tileSize : UInt8

def fitApf (attn : AttentionMap P) : Option (ApfMap P) :=
  (fitScaleForBudget attn.tilesX attn.tilesY maxPayload).map fun scale =>
    let (values, cols, rows) :=
      if scale = 1 then (attn.values, attn.tilesX, attn.tilesY)
      else downsampleMax arith attn scale
    ⟨values, UInt16.ofNat cols, UInt16.ofNat rows, UInt8.ofNat (min (tileSize * scale) 255)⟩

/-- The other end has a map on the same grid. -/
def ApfMap.SameGrid (previous current : ApfMap P) : Prop :=
  previous.cols = current.cols ∧ previous.rows = current.rows ∧
    previous.tileSize = current.tileSize ∧ previous.values.length = current.values.length

instance (previous current : ApfMap P) : Decidable (previous.SameGrid current) :=
  inferInstanceAs (Decidable (_ ∧ _ ∧ _ ∧ _))

/-- What is sent of the attention map with a frame, if anything. -/
def apfPayload (isKeyframe : Bool) (lastSentApf : Option (ApfMap P)) (attn : AttentionMap P) :
    Option (List UInt8) :=
  match fitApf arith attn with
  | none => none
  | some apf =>
      let canDelta (previous : ApfMap P) : Bool := !isKeyframe && decide (previous.SameGrid apf)
      match lastSentApf.filter canDelta with
      | some previous =>
          some (encodeDelta arith previous.values apf.values apf.cols apf.rows apf.tileSize)
      | none =>
          if isKeyframe then some (encodeU4 arith apf.values apf.cols apf.rows apf.tileSize)
          else none

/-- Which cells have changed their level. -/
def changedCells (previous current : List P) : List Bool :=
  (previous.zip current).map fun cell =>
    decide (arith.quantizeU4 cell.1 ≠ arith.quantizeU4 cell.2)

end Encoding

/-- The lengths of the runs of cells that have not changed: before the first cell that
has, between two such cells and after the last. -/
def unchangedRuns (run : Nat) : List Bool → List Nat
  | [] => [run]
  | false :: cells => unchangedRuns (run + 1) cells
  | true :: cells => run :: unchangedRuns 0 cells

/-- One byte for every changed cell, and one for each 127 cells of a run between them,
or a rest of them. -/
def deltaSize (cells : List Bool) : Nat :=
  cells.count true + ((unchangedRuns 0 cells).map fun run => divCeil run 127).sum

section Sizes

variable {P : Type} {arith : PriorityArith P}

theorem pushSkipRecords_length (run : Nat) : (pushSkipRecords run).length = divCeil run 127 := by
  induction run using pushSkipRecords.induct with
  | case1 => simp [pushSkipRecords, divCeil]
  | case2 run hrun n ih =>
      rw [pushSkipRecords, if_neg hrun, List.length_cons, ih]
      simp only [n, divCeil, deltaMaxSkipRun]
      omega

theorem deltaRecords_length (run : Nat) (cells : List (P × P)) :
    (deltaRecords arith run cells).length =
      (cells.map fun cell => decide (arith.quantizeU4 cell.1 ≠ arith.quantizeU4 cell.2)).count
          true +
        ((unchangedRuns run (cells.map fun cell =>
          decide (arith.quantizeU4 cell.1 ≠ arith.quantizeU4 cell.2))).map
            fun run => divCeil run 127).sum := by
  induction cells generalizing run with
  | nil => simp [deltaRecords, unchangedRuns, pushSkipRecords_length]
  | cons cell cells ih =>
      obtain ⟨previous, current⟩ := cell
      rw [deltaRecords]
      split
      · next hsame => simp [ih, unchangedRuns, hsame]
      · next hchanged =>
        simp [ih, unchangedRuns, hchanged, pushSkipRecords_length]
        omega

theorem encodeU4_length (attentionMap : List P) (cols rows : UInt16) (tileSize : UInt8) :
    (encodeU4 arith attentionMap cols rows tileSize).length =
      apfHeaderLen + divCeil attentionMap.length 2 := by
  simp [encodeU4]

theorem encodeDelta_length {previous current : List P} {cols rows : UInt16}
    (hsame : previous.length = current.length)
    (hgrid : current.length = cols.toNat * rows.toNat) (tileSize : UInt8) :
    (encodeDelta arith previous current cols rows tileSize).length =
      apfHeaderLen + deltaSize (changedCells arith previous current) := by
  have hall : (previous.zip current).take (cols.toNat * rows.toNat) = previous.zip current := by
    apply List.take_of_length_le
    rw [List.length_zip, hsame, hgrid, Nat.min_self]
  rw [encodeDelta, hall, List.length_append, apfHeader_length, deltaRecords_length]
  rfl

theorem fitScaleForBudget_spec {tilesX tilesY maxPayload scale : Nat}
    (h : fitScaleForBudget tilesX tilesY maxPayload = some scale) :
    0 < scale ∧
      apfHeaderLen + divCeil (divCeil tilesX scale * divCeil tilesY scale) 2 ≤ maxPayload := by
  have hmember := List.mem_of_find?_eq_some h
  have hfits := List.find?_some h
  exact ⟨by have := List.mem_range'_1.mp hmember; omega, by simpa using hfits⟩

theorem downsampleMax_length (attn : AttentionMap P) (scale : Nat) :
    (downsampleMax arith attn scale).1.length =
      divCeil attn.tilesX scale * divCeil attn.tilesY scale := by
  have hkept : ∀ (tiles : List (Nat × Nat)) (coarse : List P),
      (tiles.foldl (fun (coarse : List P) (tile : Nat × Nat) =>
        coarse.modify (tile.1 / scale + tile.2 / scale * divCeil attn.tilesX scale) fun old =>
          if arith.gt (attn.values.getD (tile.1 + tile.2 * attn.tilesX) arith.zero) old then
            attn.values.getD (tile.1 + tile.2 * attn.tilesX) arith.zero
          else old) coarse).length = coarse.length := by
    intro tiles
    induction tiles with
    | nil => exact fun _ => rfl
    | cons tile tiles ih => exact fun coarse => (ih _).trans (List.length_modify ..)
  rw [downsampleMax]
  exact (hkept _ _).trans List.length_replicate

theorem divCeil_one (n : Nat) : divCeil n 1 = n := by simp [divCeil]

/-- A grid of less than 2 ^ 16 cells is written as it is. -/
theorem toNat_mul_of_small {cols rows : Nat} (h : cols * rows < 2 ^ 16) :
    (UInt16.ofNat cols).toNat * (UInt16.ofNat rows).toNat = cols * rows := by
  rw [UInt16.toNat_ofNat', UInt16.toNat_ofNat']
  rcases Nat.eq_zero_or_pos cols with rfl | hcols
  · simp
  · rcases Nat.eq_zero_or_pos rows with rfl | hrows
    · simp
    · have hcols' : cols < 2 ^ 16 := (Nat.le_mul_of_pos_right cols hrows).trans_lt h
      have hrows' : rows < 2 ^ 16 := (Nat.le_mul_of_pos_left rows hcols).trans_lt h
      rw [Nat.mod_eq_of_lt hcols', Nat.mod_eq_of_lt hrows']

/-- A map on its grid has as many values as cells, and fits when it is sent in full. -/
theorem fitApf_spec {attn : AttentionMap P} {apf : ApfMap P} (h : fitApf arith attn = some apf) :
    apf.values.length = apf.cols.toNat * apf.rows.toNat ∧
      apfHeaderLen + divCeil apf.values.length 2 ≤ maxPayload := by
  obtain ⟨scale, hscale, hapf⟩ := Option.map_eq_some_iff.mp h
  obtain ⟨-, hfits⟩ := fitScaleForBudget_spec hscale
  have hgrid : ∃ cols rows, cols = divCeil attn.tilesX scale ∧
      rows = divCeil attn.tilesY scale ∧ apf.cols = UInt16.ofNat cols ∧
      apf.rows = UInt16.ofNat rows ∧ apf.values.length = cols * rows := by
    by_cases hone : scale = 1
    · subst hone
      rw [if_pos rfl] at hapf
      subst hapf
      exact ⟨_, _, (divCeil_one _).symm, (divCeil_one _).symm, rfl, rfl, attn.complete⟩
    · rw [if_neg hone] at hapf
      subst hapf
      exact ⟨_, _, rfl, rfl, rfl, rfl, downsampleMax_length attn scale⟩
  obtain ⟨cols, rows, hx, hy, hcols, hrows, hlength⟩ := hgrid
  rw [← hx, ← hy] at hfits
  refine ⟨?_, hlength ▸ hfits⟩
  rw [hlength, hcols, hrows]
  exact (toNat_mul_of_small (by
    simp only [divCeil, apfHeaderLen, maxPayload, maxDatagram, headerLen] at hfits
    omega)).symm

end Sizes

end EvertyDesk.Evrt2
