import EvertyDesk.Evrtck.Packets
import EvertyDesk.Lib.Cells

/-!
Decoding in the order of priorities against decoding as the tiles come. Tiles of different
places do not meet, and those of one place have one priority, so that the order does not
matter while every tile is painted. The painting stops at the first tile that is malformed,
and that is where the orders may part.
-/

namespace EvertyDesk.Evrtck

/-- A tile of the packet: its index and, if it is not malformed, its pixels. -/
abbrev WireTile := Nat × Except EvrtckError TilePixels

/-- A difference must have the size of its tile. -/
def checkedPixels (rect : TileRect) : Except EvrtckError TilePixels → Except EvrtckError TilePixels
  | .ok (.delta bytes) =>
      if bytes.length = rect.rowBytes * (rect.y1 - rect.y0) then .ok (.delta bytes)
      else .error .invalidDelta
  | pixels => pixels

/-- What the packet says of a tile, as the painting finds it. -/
def wireTile (zstd : Zstd) (width height : Nat) (tile : TileData) : WireTile :=
  (tile.idx, checkedPixels (rectOf width height tile.idx) (tilePixels zstd tile))

/-- The tiles before the first malformed one. -/
def soundTiles : List WireTile → List (Nat × TilePixels)
  | (idx, .ok pixels) :: tiles => (idx, pixels) :: soundTiles tiles
  | (_, .error _) :: _ => []
  | [] => []

/-- What is wrong with the first malformed tile. -/
def firstError : List WireTile → Option EvrtckError
  | (_, .ok _) :: tiles => firstError tiles
  | (_, .error error) :: _ => some error
  | [] => none

def paintPlace (width height : Nat) (frame : List UInt8) (tile : Nat × TilePixels) : List UInt8 :=
  paintTile width (rectOf width height tile.1) frame tile.2

/-- The frame when the painting stops. -/
def painted (width height : Nat) (tiles : List WireTile) (frame : List UInt8) : List UInt8 :=
  (soundTiles tiles).foldl (paintPlace width height) frame

/-- The result of the painting, unless a tile is malformed. -/
def reported {Result : Type} (tiles : List WireTile) (result : Result) :
    Except EvrtckError Result :=
  match firstError tiles with
  | some error => .error error
  | none => .ok result

/-- The tiles in the order of the priorities, which are numbers. -/
def inOrder (priority : Option (Nat → Int)) (tiles : List WireTile) : List WireTile :=
  match priority with
  | none => tiles
  | some p => descending (fun tile => p tile.1) tiles

/-- The priorities as the decoder takes them. -/
def numbers (p : Nat → Int) : Nat → Priority := fun idx => some (p idx)

theorem reported_map {Result Other : Type} (tiles : List WireTile) (result : Result)
    (f : Result → Other) : (reported tiles result).map f = reported tiles (f result) := by
  unfold reported
  cases firstError tiles <;> rfl

theorem firstError_eq_none_iff {tiles : List WireTile} :
    firstError tiles = none ↔ ∀ tile ∈ tiles, ∃ pixels, tile.2 = .ok pixels := by
  induction tiles with
  | nil => simp [firstError]
  | cons tile tiles ih =>
      obtain ⟨idx, pixels⟩ := tile
      cases pixels <;> simp [firstError, ih]

section Places

variable {width height : Nat} {rect : TileRect}

theorem TileRect.Within.holds_of_row (hrect : rect.Within width height) {y i : Nat}
    (hy : y ∈ rect.rows) (hge : rect.rowStart width y ≤ i)
    (hlt : i < rect.rowStart width y + rect.rowBytes) : rect.Holds width i := by
  have hleft := hrect.left
  have hright := hrect.right
  have hrow : rect.x0 * 4 + rect.rowBytes = rect.x1 * 4 := by
    rw [TileRect.rowBytes]
    omega
  rw [rowStart_eq] at hge hlt
  have hright' : rect.x1 * 4 ≤ width * 4 := by omega
  have hlt' : i < y * (width * 4) + rect.x1 * 4 := by omega
  obtain ⟨hi, hcolumn⟩ := (mem_row_iff hright').mp ⟨hge, hlt'⟩
  exact ⟨hi ▸ hy, hcolumn⟩

theorem TileRect.Within.row_end (hrect : rect.Within width height) {y : Nat} (hy : y ∈ rect.rows) :
    rect.rowStart width y + rect.rowBytes ≤ width * height * 4 := by
  have hleft := hrect.left
  have hright := hrect.right
  have hbottom := hrect.bottom
  rw [mem_rows] at hy
  have hrows : (y + 1) * (width * 4) ≤ height * (width * 4) := Nat.mul_le_mul_right _ (by omega)
  rw [Nat.succ_mul, show height * (width * 4) = width * height * 4 by ring] at hrows
  rw [rowStart_eq, TileRect.rowBytes]
  omega

theorem xorRow_length (hrect : rect.Within width height) {bytes frame : List UInt8}
    (hbytes : bytes.length = rect.rowBytes * (rect.y1 - rect.y0))
    (hframe : frame.length = width * height * 4) {y : Nat} (hy : y ∈ rect.rows) :
    (xorRow width rect bytes frame y).length = rect.rowBytes := by
  have hend := hrect.row_end hy
  rw [mem_rows] at hy
  have hrows : (y - rect.y0 + 1) * rect.rowBytes ≤ (rect.y1 - rect.y0) * rect.rowBytes :=
    Nat.mul_le_mul_right _ (by omega)
  rw [Nat.succ_mul, Nat.mul_comm (rect.y1 - rect.y0)] at hrows
  simp only [xorRow, field, List.length_zipWith, List.length_take, List.length_drop]
  omega

/-- A tile changes its place only, and what it makes of it depends on the place only. -/
theorem paintTile_region (hrect : rect.Within width height) {pixels : TilePixels}
    (hfits : pixels.Fits rect) {items others : List UInt8}
    (hitems : items.length = width * height * 4)
    (hothers : others.length = width * height * 4)
    (hsame : ∀ i, rect.Holds width i → items[i]? = others[i]?) :
    (paintTile width rect items pixels).length = width * height * 4 ∧
      (∀ i, ¬ rect.Holds width i → (paintTile width rect items pixels)[i]? = items[i]?) ∧
      ∀ i, rect.Holds width i →
        (paintTile width rect items pixels)[i]? = (paintTile width rect others pixels)[i]? := by
  have hrows : ∀ part : List UInt8 → Nat → List UInt8,
      (∀ frame : List UInt8, frame.length = width * height * 4 → ∀ y ∈ rect.rows,
        (part frame y).length = rect.rowBytes) →
      (∀ frame other : List UInt8, (∀ i, rect.Holds width i → frame[i]? = other[i]?) →
        ∀ y ∈ rect.rows, part frame y = part other y) →
      let write := fun (frame : List UInt8) y =>
        overwrite frame (rect.rowStart width y) (part frame y)
      (rect.rows.foldl write items).length = width * height * 4 ∧
        (∀ i, ¬ rect.Holds width i → (rect.rows.foldl write items)[i]? = items[i]?) ∧
        ∀ i, rect.Holds width i →
          (rect.rows.foldl write items)[i]? = (rect.rows.foldl write others)[i]? := by
    intro part hlength hpart write
    have hfits : ∀ frame : List UInt8, frame.length = width * height * 4 →
        ∀ y ∈ rect.rows, rect.rowStart width y + (part frame y).length ≤ width * height * 4 := by
      intro frame hframe y hy
      rw [hlength frame hframe y hy]
      exact hrect.row_end hy
    refine ⟨foldl_overwrite_length hfits hitems, ?_⟩
    refine foldl_overwrite_region hfits ?_ (fun frame other _ _ => hpart frame other) hitems
      hothers hsame
    intro frame hframe y hy i hge hlt
    rw [hlength frame hframe y hy] at hlt
    exact hrect.holds_of_row hy hge hlt
  cases pixels with
  | solid color =>
      refine hrows (fun _ _ => (List.replicate (rect.x1 - rect.x0) color).flatten) ?_ ?_
      · intro frame _ y _
        exact flatten_replicate_length hfits _
      · exact fun _ _ _ _ _ => rfl
  | delta bytes =>
      refine hrows (xorRow width rect bytes) ?_ ?_
      · exact fun frame hframe y hy => xorRow_length hrect hfits hframe hy
      · intro frame other hagree y hy
        apply xorRow_congr
        apply field_congr
        exact fun i hge hlt => hagree i (hrect.holds_of_row hy hge hlt)

/-- The positions of the frame that lie in a tile. -/
def InPlace (width height : Nat) (idx i : Nat) : Prop :=
  i < width * height * 4 ∧ tileOf width i = idx

theorem inPlace_iff {idx : Nat} (hidx : idx < tilesInDim width * tilesInDim height) {i : Nat} :
    InPlace width height idx i ↔ (rectOf width height idx).Holds width i := by
  constructor
  · rintro ⟨hlt, htile⟩
    exact (tileOf_eq_iff hlt).mp htile
  · intro hholds
    have hrect : (rectOf width height idx).Within width height := tileRect_within hidx
    have hlt := hrect.lt_of_holds hholds
    exact ⟨hlt, (tileOf_eq_iff hlt).mpr hholds⟩

theorem paintPlace_paintsCell {tile : Nat × TilePixels}
    (hidx : tile.1 < tilesInDim width * tilesInDim height)
    (hfits : tile.2.Fits (rectOf width height tile.1)) :
    PaintsCell (InPlace width height) Prod.fst (paintPlace width height)
      (width * height * 4) tile := by
  have hrect : (rectOf width height tile.1).Within width height := tileRect_within hidx
  refine ⟨fun items hitems => ?_, fun items hitems i hi => ?_,
    fun items others hitems hothers hsame i hi => ?_⟩
  · exact (paintTile_region hrect hfits hitems hitems fun _ _ => rfl).1
  · rw [inPlace_iff hidx] at hi
    exact (paintTile_region hrect hfits hitems hitems fun _ _ => rfl).2.1 i hi
  · simp only [inPlace_iff hidx] at hsame hi
    exact (paintTile_region hrect hfits hitems hothers hsame).2.2 i hi

end Places

section Painting

variable {zstd : Zstd} {data : List UInt8} {width height : Nat} {s : Decoding}

/-- A tile that is to be painted, as the packet has it. -/
def found (width height : Nat) (tile : TileEntry × Except EvrtckError TilePixels) : WireTile :=
  (tile.1.idx, checkedPixels (rectOf width height tile.1.idx) tile.2)

/-- The tiles are painted up to the first malformed one, which is reported. -/
theorem paintTiles_sound (hsize : width * height * 4 < Checked.sizeLimit)
    {tiles : List (TileEntry × Except EvrtckError TilePixels)}
    (hpaintable : ∀ tile ∈ tiles, Paintable width height tile)
    (hplaces : ∀ tile ∈ tiles, tile.1.rect = rectOf width height tile.1.idx)
    (hframe : s.frame.length = width * height * 4) :
    paintTiles width tiles s =
      .ok (reported (tiles.map (found width height)) (), { s with
        frame := painted width height (tiles.map (found width height)) s.frame }) := by
  induction tiles generalizing s with
  | nil => rfl
  | cons tile tiles ih =>
      obtain ⟨entry, pixels⟩ := tile
      obtain ⟨hrect, hcolor⟩ := hpaintable _ List.mem_cons_self
      have hplace := hplaces _ List.mem_cons_self
      dsimp only at hrect hplace
      have hrest := fun frame (hframe : frame.length = width * height * 4) =>
        ih (s := { s with frame := frame })
          (fun tile h => hpaintable tile (List.mem_cons_of_mem _ h))
          (fun tile h => hplaces tile (List.mem_cons_of_mem _ h)) hframe
      obtain ⟨hwidth, hrowBytes⟩ := hrect.row_size
      unfold paintTiles
      rw [Proc.lift_bind hwidth, Proc.lift_bind hrowBytes]
      rcases pixels with error | color | delta
      · rfl
      · obtain ⟨hpaint, hpainted⟩ := paintSolid_ok hrect hsize hframe (hcolor color rfl)
        dsimp only
        rw [Proc.get_bind, Proc.lift_bind hpaint, Proc.set_bind, hrest _ hpainted, hplace]
        rfl
      · obtain ⟨hheight, hexpected⟩ := hrect.delta_size hsize
        dsimp only
        rw [Proc.lift_bind hheight, Proc.lift_bind hexpected, List.map_cons]
        by_cases hfits : delta.length = entry.rect.rowBytes * (entry.rect.y1 - entry.rect.y0)
        · have hfound : found width height (entry, .ok (.delta delta)) =
              (entry.idx, .ok (.delta delta)) := by
            rw [found, checkedPixels, ← hplace, if_pos hfits]
          obtain ⟨hpaint, hpainted⟩ := paintDelta_ok hrect hsize hframe hfits
          rw [if_neg (not_not.mpr hfits), hfound, Proc.get_bind, Proc.lift_bind hpaint,
            Proc.set_bind, hrest _ hpainted, hplace]
          rfl
        · have hfound : found width height (entry, .ok (.delta delta)) =
              (entry.idx, .error .invalidDelta) := by
            rw [found, checkedPixels, ← hplace, if_neg hfits]
          rw [if_pos hfits, hfound]
          rfl

/-- What was found in the packet is what the packet says. -/
theorem map_found {dirty : List TileEntry} {tiles : List TileData}
    (h : List.Forall₂ (Matches data width height) dirty tiles) :
    (dirty.zip (tiles.map (tilePixels zstd))).map (found width height) =
      tiles.map (wireTile zstd width height) := by
  induction h with
  | nil => rfl
  | cons hfirst _ ih =>
      rw [List.map_cons, List.zip_cons_cons, List.map_cons, List.map_cons, ih, found, wireTile,
        hfirst.idx]

theorem places_of_matches {dirty : List TileEntry} {tiles : List TileData}
    (h : List.Forall₂ (Matches data width height) dirty tiles) :
    ∀ tile ∈ dirty.zip (tiles.map (tilePixels zstd)),
      tile.1.rect = rectOf width height tile.1.idx := by
  induction h with
  | nil => simp
  | cons hfirst _ ih =>
      intro tile htile
      rcases List.mem_cons.mp htile with rfl | htile
      · exact hfirst.idx ▸ hfirst.rect
      · exact ih tile htile

/-- Numbers are in an order. -/
theorem sortByPriority_numbers (width height : Nat) (p : Option (Nat → Int))
    (tiles : List (TileEntry × Except EvrtckError TilePixels)) :
    ∃ sorted, sortByPriority (p.map numbers) tiles = .ok sorted ∧
      sorted.map (found width height) = inOrder p (tiles.map (found width height)) := by
  cases p with
  | none => exact ⟨tiles, rfl, rfl⟩
  | some p =>
      have hordered : Orderable (some (numbers p)) (tiles.map fun tile => tile.1.idx) := by
        intro q hq a _ hnone
        cases hq
        cases hnone
      have htotal := (notBelow_total_order_iff (fun tile => tile.1.idx) (numbers p) tiles).mpr
        hordered
      refine ⟨_, if_pos htotal, ?_⟩
      exact List.map_mergeSort fun a _ b _ => rfl

theorem paintFrame_inOrder (zstd : Zstd) (hsize : width * height * 4 < Checked.sizeLimit)
    (hframe : s.frame.length = width * height * 4)
    {dirty : List TileEntry} {tiles : List TileData}
    (h : List.Forall₂ (Matches data width height) dirty tiles) (p : Option (Nat → Int)) :
    let ordered := inOrder p (tiles.map (wireTile zstd width height))
    paintFrame zstd data width (p.map numbers) dirty s =
      .ok (reported ordered (ordered.map Prod.fst),
        { s with frame := painted width height ordered s.frame }) := by
  obtain ⟨sorted, hsorted, hfound⟩ := sortByPriority_numbers width height p
    (dirty.zip (tiles.map (tilePixels zstd)))
  rw [map_found h] at hfound
  have hperm := sortByPriority_perm hsorted
  have hpaint := paintTiles_sound hsize
    (fun tile htile => paintable_of_matches zstd h tile (hperm.subset htile))
    (fun tile htile => places_of_matches h tile (hperm.subset htile)) hframe
  have hindices : sorted.map (fun tile => tile.1.idx) =
      (sorted.map (found width height)).map Prod.fst := by
    rw [List.map_map]
    rfl
  intro ordered
  unfold paintFrame
  rw [Proc.lift_bind (decompressTiles_ok h), Proc.lift_bind hsorted, hindices]
  rw [hfound] at hpaint ⊢
  unfold reported at hpaint ⊢
  cases hfirst : firstError ordered with
  | none =>
      rw [hfirst] at hpaint
      rw [Proc.bind_returns hpaint]
      rfl
  | some error =>
      rw [hfirst] at hpaint
      rw [Proc.bind_fails hpaint]

end Painting

namespace EvrtckDecoder

variable {zstd : Zstd} {d fit : EvrtckDecoder} {data : List UInt8} {flags : UInt8}
variable {changes : Changes}

/-- The decoder comes to the painting of the packet: it has a frame of the size that the
header says, and the packet is legible. -/
structure ComesToPaint (d : EvrtckDecoder) (data : List UInt8) (fit : EvrtckDecoder)
    (flags : UInt8) (changes : Changes) : Prop where
  header : 18 ≤ data.length
  magic : field data 0 4 = magic
  fitted : d.fitted (wireWidth data) (wireHeight data) = .ok fit
  legible : ∃ rest,
    parseFrame (wireWidth data) (wireHeight data) data = some ((flags, changes), rest)

/-- The tiles of the packet, as the painting finds them. -/
def wireTiles (zstd : Zstd) (data : List UInt8) (changes : Changes) : List WireTile :=
  changes.tiles.map (wireTile zstd (wireWidth data) (wireHeight data))

/-- The frame that they are painted on. -/
def ground (fit : EvrtckDecoder) (data : List UInt8) (flags : UInt8) (changes : Changes) :
    List UInt8 :=
  background fit.frame (wireWidth data) (wireHeight data) flags changes

theorem ComesToPaint.unique (h : d.ComesToPaint data fit flags changes)
    {fit' : EvrtckDecoder} {flags' : UInt8} {changes' : Changes}
    (h' : d.ComesToPaint data fit' flags' changes') :
    fit = fit' ∧ flags = flags' ∧ changes = changes' := by
  obtain ⟨rest, hparse⟩ := h.legible
  obtain ⟨rest', hparse'⟩ := h'.legible
  have hfit := h.fitted.symm.trans h'.fitted
  have hsame := hparse.symm.trans hparse'
  injection hfit with hfit
  injection hsame with hsame
  simp only [Prod.mk.injEq] at hsame
  exact ⟨hfit, hsame.1.1, hsame.1.2⟩

/-- A decoder that was fitted to a size has a frame of that size. -/
theorem fitted_small {width height : Nat} (hframe : d.frame.length < Checked.sizeLimit)
    (hfit : d.fitted width height = .ok fit) :
    width * height * 4 < Checked.sizeLimit ∧ fit.frame.length = width * height * 4 := by
  have hsize : width * height * 4 < Checked.sizeLimit := by
    by_contra hlarge
    obtain ⟨panic, hpanic⟩ := fitted_panics hframe hlarge
    rw [hfit] at hpanic
    cases hpanic
  obtain ⟨fit', hfit', hlength, _⟩ := d.fitted_ok hsize
  rw [hfit] at hfit'
  cases hfit'
  exact ⟨hsize, hlength⟩

section Coming

variable (zstd) (h : d.ComesToPaint data fit flags changes)
  (hdata : data.length < Checked.sizeLimit)
  (hframe : d.frame.length < Checked.sizeLimit)

include h hframe

theorem ComesToPaint.small :
    wireWidth data * wireHeight data * 4 < Checked.sizeLimit ∧
      fit.frame.length = wireWidth data * wireHeight data * 4 :=
  fitted_small hframe h.fitted

theorem ComesToPaint.ground_length :
    (fit.ground data flags changes).length = wireWidth data * wireHeight data * 4 :=
  background_length flags changes (h.small hframe).2

include hdata

/-- The tiles are found, and the rectangles are copied. -/
theorem ComesToPaint.read :
    ∃ dirty t, readChanges data (wireWidth data) (wireHeight data) ⟨0, fit.frame⟩ =
        .ok (.ok dirty, t) ∧
      List.Forall₂ (Matches data (wireWidth data) (wireHeight data)) dirty changes.tiles ∧
      t.frame = fit.ground data flags changes := by
  obtain ⟨hsize, hlength⟩ := h.small hframe
  obtain ⟨rest, hparse⟩ := h.legible
  have hread := readChanges_run (s := ⟨0, fit.frame⟩) hdata (leNat_field_lt data 10 4)
    (leNat_field_lt data 14 4) hsize hlength rfl
  rw [← wireWidth, ← wireHeight, hparse] at hread
  exact hread

/-- A decoder that comes to the painting paints the tiles in the order of the priorities. -/
theorem ComesToPaint.decode (p : Option (Nat → Int)) :
    let ordered := inOrder p (wireTiles zstd data changes)
    let frame := painted (wireWidth data) (wireHeight data) ordered (fit.ground data flags changes)
    d.decodeWirePrioritized zstd data (p.map numbers) =
      .ok ({ fit with frame := frame }, reported ordered (frame, ordered.map Prod.fst)) := by
  obtain ⟨dirty, t, hrun, hmatches, hground⟩ := h.read hdata hframe
  have hstart := h.ground_length hframe
  rw [← hground] at hstart
  have hpaint := paintFrame_inOrder zstd (h.small hframe).1 hstart hmatches p
  intro ordered frame
  unfold decodeWirePrioritized
  have hheader := h.header
  rw [if_neg (by omega), if_neg (not_not.mpr h.magic)]
  dsimp only
  rw [← wireWidth, ← wireHeight, Checked.bind_ok h.fitted, decodeFramePrioritized_eq,
    Proc.bind_returns hrun, hpaint, hground,
    ← reported_map ordered (ordered.map Prod.fst) fun order => (frame, order)]
  rfl

end Coming

/-- A tile that is not malformed can be painted. -/
theorem paintsCell_of_matches {width height : Nat} {entry : TileEntry} {tile : TileData}
    (h : Matches data width height entry tile) {sound : Nat × TilePixels}
    (hsound : wireTile zstd width height tile = (sound.1, .ok sound.2)) :
    PaintsCell (InPlace width height) Prod.fst (paintPlace width height)
      (width * height * 4) sound := by
  obtain ⟨idx, pixels⟩ := sound
  rw [wireTile, Prod.mk.injEq] at hsound
  obtain ⟨rfl, hpixels⟩ := hsound
  apply paintPlace_paintsCell h.idx_lt
  obtain ⟨_, hcolor⟩ := paintable_of_matches zstd (List.Forall₂.cons h .nil)
    (entry, tilePixels zstd tile) List.mem_cons_self
  cases htile : tilePixels zstd tile with
  | error error =>
      rw [htile] at hpixels
      cases hpixels
  | ok found =>
      rw [htile] at hpixels
      cases found with
      | solid color =>
          cases hpixels
          exact hcolor color htile
      | delta bytes =>
          rw [checkedPixels] at hpixels
          split at hpixels
          next hlength =>
            cases hpixels
            exact hlength
          · cases hpixels

section Alike

variable (h : d.ComesToPaint data fit flags changes) (hdata : data.length < Checked.sizeLimit)
  (hframe : d.frame.length < Checked.sizeLimit)

include h hdata hframe

end Alike

end EvrtckDecoder

end EvertyDesk.Evrtck
