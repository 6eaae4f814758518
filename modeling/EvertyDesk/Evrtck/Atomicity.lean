import EvertyDesk.Evrtck.Overlay
import EvertyDesk.Evrtck.PaintOrder

/-!
What a packet that fails leaves behind. The decoder works on its frame as it reads: what
comes before the first malformed part of a packet is done and stays done, in a frame
that may have been replaced by a black one for the dimensions in the header.
-/

namespace EvertyDesk.Evrtck

/-- The tiles that can be read, up to the first that cannot. -/
def legibleTiles (tileCount : Nat) : Nat → List UInt8 → List TileData
  | 0, _ => []
  | count + 1, bytes =>
      match parseTile tileCount bytes with
      | none => []
      | some (tile, rest) => tile :: legibleTiles tileCount count rest

/-- Each place is cleared and painted, up to the first malformed tile. If it is the size
of that one that is wrong, its place is cleared nevertheless. -/
def laid (zstd : Zstd) (width height : Nat) : List TileData → List UInt8 → List UInt8
  | [], frame => frame
  | tile :: tiles, frame =>
      let rect := rectOf width height tile.idx
      let cleared := paintTile width rect frame clearPixel
      match (wireTile zstd width height tile).2 with
      | .ok pixels => laid zstd width height tiles (paintTile width rect cleared pixels)
      | .error _ =>
          match tilePixels zstd tile with
          | .ok _ => cleared
          | .error _ => frame

section Overlays

variable {zstd : Zstd} {data : List UInt8} {width height : Nat} {s : Decoding}

/-- All the tiles are there, and none of them is malformed. -/
def AllSound (zstd : Zstd) (width height count : Nat) (tiles : List TileData) : Prop :=
  tiles.length = count ∧ firstError (tiles.map (wireTile zstd width height)) = none

/-- A tile that is read is laid over the frame, or it is malformed. -/
theorem overlayTile_laid (zstd : Zstd) (hsize : width * height * 4 < Checked.sizeLimit)
    (hframe : s.frame.length = width * height * 4) {tilesX tileCount : Nat}
    {entry : TileEntry} {tile : TileData} {t : Decoding}
    (hscan : scanTile data width height tilesX tileCount s = .ok (.ok entry, t))
    (hsame : t.frame = s.frame) (hmatches : Matches data width height entry tile) :
    let cleared := paintTile width (rectOf width height tile.idx) s.frame clearPixel
    ∃ outcome u, overlayTile zstd data width height tilesX tileCount s = .ok (outcome, u) ∧
      u.pos = t.pos ∧ u.frame.length = width * height * 4 ∧
      match (wireTile zstd width height tile).2 with
      | .ok pixels => outcome = .ok tile.idx ∧
          u.frame = paintTile width (rectOf width height tile.idx) cleared pixels
      | .error error => outcome = .error error ∧
          u.frame = laid zstd width height [tile] s.frame := by
  intro cleared
  have hrect : entry.rect = rectOf width height tile.idx := hmatches.rect
  have hwithin : (rectOf width height tile.idx).Within width height :=
    tileRect_within hmatches.idx_lt
  have hcleared : cleared.length = width * height * 4 := (clearTile_ok hwithin hsize hframe).2
  rw [overlayTile_scanned hsize hframe hscan hsame hmatches]
  cases hpixels : tilePixels zstd tile with
  | error error =>
      have hwire : (wireTile zstd width height tile).2 = .error error := by
        rw [wireTile, hpixels, checkedPixels]
        rintro bytes ⟨⟩
      rw [hwire]
      refine ⟨.error error, t, rfl, rfl, hsame ▸ hframe, rfl, ?_⟩
      rw [hsame, laid, hwire, hpixels]
  | ok pixels =>
      have hwire : (wireTile zstd width height tile).2 =
          checkedPixels (rectOf width height tile.idx) (.ok pixels) := by
        rw [wireTile, hpixels]
      have hpaintable := paintable_of_matches zstd (List.Forall₂.cons hmatches .nil)
      rw [List.map_singleton, hpixels] at hpaintable
      have hpaint := paintTiles_sound hsize hpaintable
        (fun other hother => by rw [List.eq_of_mem_singleton hother, hrect, hmatches.idx])
        (s := { t with frame := cleared }) hcleared
      have hfound : [(entry, (.ok pixels : Except EvrtckError TilePixels))].map
          (found width height) =
          [(tile.idx, checkedPixels (rectOf width height tile.idx) (.ok pixels))] := by
        rw [List.map_singleton, found, hmatches.idx]
      rw [List.zip_cons_cons, List.zip_nil_right, hfound] at hpaint
      dsimp only
      cases hchecked : checkedPixels (rectOf width height tile.idx) (.ok pixels) with
      | error error =>
          rw [hchecked] at hpaint hwire
          rw [hwire]
          refine ⟨.error error, _, Proc.bind_fails hpaint, rfl, hcleared, rfl, ?_⟩
          rw [laid, hwire, hpixels]
          rfl
      | ok sound =>
          rw [hchecked] at hpaint hwire
          rw [hwire]
          have hcell : PaintsCell (InPlace width height) Prod.fst (paintPlace width height)
              (width * height * 4) (tile.idx, sound) :=
            EvrtckDecoder.paintsCell_of_matches hmatches (Prod.ext rfl hwire)
          exact ⟨.ok tile.idx, _, Proc.bind_returns hpaint, rfl, hcell.length _ hcleared, rfl, rfl⟩

theorem laid_malformed {tile : TileData} {error : EvrtckError}
    (h : (wireTile zstd width height tile).2 = .error error) (tiles : List TileData)
    (frame : List UInt8) :
    laid zstd width height (tile :: tiles) frame = laid zstd width height [tile] frame := by
  unfold laid
  rw [h]

theorem laid_sound {tile : TileData} {pixels : TilePixels}
    (h : (wireTile zstd width height tile).2 = .ok pixels) (tiles : List TileData)
    (frame : List UInt8) :
    laid zstd width height (tile :: tiles) frame =
      laid zstd width height tiles (paintTile width (rectOf width height tile.idx)
        (paintTile width (rectOf width height tile.idx) frame clearPixel) pixels) := by
  rw [laid, h]

theorem allSound_cons {count : Nat} {tile : TileData} {tiles : List TileData} :
    AllSound zstd width height (count + 1) (tile :: tiles) ↔
      (∃ pixels, (wireTile zstd width height tile).2 = .ok pixels) ∧
        AllSound zstd width height count tiles := by
  unfold AllSound
  rw [List.length_cons, Nat.succ_inj, firstError_eq_none_iff, firstError_eq_none_iff,
    List.map_cons, List.forall_mem_cons]
  exact and_left_comm

/-- The tiles of an overlay are laid over the frame up to the first malformed one, and just
if there is none the overlay is applied. -/
theorem overlayTiles_laid (zstd : Zstd) (hdata : data.length < Checked.sizeLimit)
    (hsize : width * height * 4 < Checked.sizeLimit) (count : Nat)
    (hframe : s.frame.length = width * height * 4) (hpos : s.pos ≤ data.length) :
    let tileCount := tilesInDim width * tilesInDim height
    let tiles := legibleTiles tileCount count (data.drop s.pos)
    ∃ outcome t, overlayTiles zstd data width height (tilesInDim width) tileCount count s =
        .ok (outcome, t) ∧
      t.frame = laid zstd width height tiles s.frame ∧
      t.frame.length = width * height * 4 ∧
      ((∃ indices, outcome = .ok indices) ↔ AllSound zstd width height count tiles) := by
  induction count generalizing s with
  | zero => exact ⟨.ok [], s, rfl, rfl, hframe, fun _ => ⟨rfl, rfl⟩, fun _ => ⟨[], rfl⟩⟩
  | succ count ih =>
      intro tileCount tiles
      unfold overlayTiles
      have hscans : Reads data (scanTile data width height _ _) _ _ := scanTile_reads hdata
      rcases hscans.run hpos with
        ⟨hparse, error, t, hscan, hsame⟩ |
        ⟨tile, rest, entry, t, hparse, hscan, hsame, hmatches, htpos, hrest⟩
      · have htiles : tiles = [] := by
          unfold tiles legibleTiles
          rw [hparse]
        have hfails : overlayTile zstd data width height (tilesInDim width) tileCount s =
            .ok (.error error, t) := Proc.bind_fails hscan
        rw [htiles]
        refine ⟨.error error, t, Proc.bind_fails hfails, hsame, hsame ▸ hframe, ?_⟩
        simp [AllSound]
      · have htiles : tiles = tile :: legibleTiles tileCount count (data.drop t.pos) := by
          unfold tiles
          rw [legibleTiles, hparse, ← hrest]
        obtain ⟨outcome, u, hlay, hupos, hulength, houtcome⟩ :=
          overlayTile_laid zstd hsize hframe hscan hsame hmatches
        rw [htiles, allSound_cons]
        cases hsound : (wireTile zstd width height tile).2 with
        | error error =>
            rw [hsound] at houtcome
            obtain ⟨rfl, huframe⟩ := houtcome
            rw [laid_malformed hsound]
            refine ⟨.error error, u, Proc.bind_fails hlay, huframe, hulength, ?_⟩
            simp
        | ok pixels =>
            rw [hsound] at houtcome
            obtain ⟨rfl, huframe⟩ := houtcome
            obtain ⟨outcome, v, hrest', hvframe, hvlength, hall⟩ := ih hulength (hupos ▸ htpos)
            rw [hupos] at hvframe hall
            rw [laid_sound hsound, ← huframe]
            cases outcome with
            | error error =>
                refine ⟨.error error, v, ?_, hvframe, hvlength, ?_⟩
                · rw [Proc.bind_returns hlay, Proc.bind_fails hrest']
                · rw [← hall]
                  simp
            | ok indices =>
                refine ⟨.ok (tile.idx :: indices), v, ?_, hvframe, hvlength, ?_⟩
                · rw [Proc.bind_returns hlay, Proc.bind_returns hrest']
                  rfl
                · rw [← hall]
                  simp

end Overlays

namespace EvrtckDecoder

variable {zstd : Zstd} {d fit : EvrtckDecoder} {data : List UInt8}

/-- The frame is that of the dimensions. -/
structure Sized (d : EvrtckDecoder) : Prop where
  size : d.frame.length = d.width * d.height * 4
  small : d.frame.length < Checked.sizeLimit

/-- A new decoder after calls, each of which returned a result or an error. -/
inductive Reached (zstd : Zstd) : EvrtckDecoder → Prop where
  | new : Reached zstd .new
  | decoded {d after : EvrtckDecoder} {data : List UInt8} {priority : Option (Nat → Priority)}
      {outcome : Except EvrtckError (List UInt8 × List Nat)} (hd : Reached zstd d)
      (hdata : data.length < Checked.sizeLimit)
      (hdecode : d.decodeWirePrioritized zstd data priority = .ok (after, outcome)) :
      Reached zstd after
  | overlaid {d after : EvrtckDecoder} {data : List UInt8} {outcome : Except EvrtckError (List Nat)}
      (hd : Reached zstd d) (hdata : data.length < Checked.sizeLimit)
      (hoverlay : d.applyAbsoluteOverlay zstd data = .ok (after, outcome)) : Reached zstd after
  | synced {d : EvrtckDecoder} {rgba : List UInt8} (hd : Reached zstd d)
      (hrgba : rgba.length < Checked.sizeLimit) (width height : Nat) :
      Reached zstd (d.syncFromRgba rgba width height)

/-- An overlay that fails before its first tile. -/
theorem applyAbsoluteOverlay_spares {error : EvrtckError} {t : Decoding}
    (hrun : applyOverlay zstd data d.width d.height ⟨0, d.frame⟩ = .ok (.error error, t))
    (hsame : t.frame = d.frame) : d.applyAbsoluteOverlay zstd data = .ok (d, .error error) := by
  unfold applyAbsoluteOverlay
  rw [hrun]
  obtain ⟨frame, width, height⟩ := d
  subst hsame
  rfl

/-- After its header and its map the overlay changes the frame tile by tile. -/
theorem applyAbsoluteOverlay_lays (zstd : Zstd) (hdata : data.length < Checked.sizeLimit)
    (hd : d.Sized) :
    match parseOverlayCount d.width d.height data with
    | none => ∃ error, d.applyAbsoluteOverlay zstd data = .ok (d, .error error)
    | some (count, rest) =>
        let tiles := legibleTiles (tilesInDim d.width * tilesInDim d.height) count rest
        ∃ frame outcome, d.applyAbsoluteOverlay zstd data =
            .ok ({ d with frame := frame }, outcome) ∧
          frame = laid zstd d.width d.height tiles d.frame ∧
          frame.length = d.width * d.height * 4 ∧
          ((∃ indices, outcome = .ok indices) ↔ AllSound zstd d.width d.height count tiles) := by
  have hsmall := hd.small
  rw [hd.size] at hsmall
  have hparse := applyOverlay_parse zstd d.width d.height hdata d.frame
  cases hcount : parseOverlayCount d.width d.height data with
  | none =>
      rw [hcount] at hparse
      obtain ⟨error, t, hrun, hsame⟩ := hparse
      exact ⟨error, applyAbsoluteOverlay_spares hrun hsame⟩
  | some found =>
      obtain ⟨count, rest⟩ := found
      rw [hcount] at hparse
      obtain ⟨t, hsame, htpos, hrest, hrun⟩ := hparse
      obtain ⟨outcome, u, htiles, hlaid, hlength, hall⟩ := overlayTiles_laid zstd hdata hsmall
        count (hsame ▸ hd.size) htpos
      rw [hrest, hsame] at hlaid
      rw [hrest] at hall
      refine ⟨u.frame, outcome, ?_, hlaid, hlength, hall⟩
      unfold applyAbsoluteOverlay
      rw [hrun, htiles]
      rfl

theorem decodeWirePrioritized_sized {after : EvrtckDecoder} {priority : Option (Nat → Priority)}
    {outcome : Except EvrtckError (List UInt8 × List Nat)}
    (hdata : data.length < Checked.sizeLimit) (hd : d.Sized)
    (hdecode : d.decodeWirePrioritized zstd data priority = .ok (after, outcome)) :
    after.Sized := by
  unfold decodeWirePrioritized at hdecode
  split at hdecode
  · cases hdecode
    exact hd
  split at hdecode
  · cases hdecode
    exact hd
  dsimp only at hdecode
  rw [← wireWidth, ← wireHeight] at hdecode
  obtain ⟨fit, hfit, hdecode⟩ := Checked.returns_of_bind hdecode
  obtain ⟨⟨result, t⟩, hrun, hdecode⟩ := Checked.returns_of_bind hdecode
  cases hdecode
  obtain ⟨hsize, hlength⟩ := fitted_small hd.small hfit
  obtain ⟨fit', hfit', _, hwidth, hheight⟩ := d.fitted_ok hsize
  rw [hfit] at hfit'
  cases hfit'
  have hframe : t.frame.length = wireWidth data * wireHeight data * 4 := by
    have hframes := decodeFramePrioritized_run zstd (s := ⟨0, fit.frame⟩) hdata
      (leNat_field_lt data 10 4) (leNat_field_lt data 14 4) hsize hlength rfl priority
    rw [← wireWidth, ← wireHeight] at hframes
    cases hparse : parseFrame (wireWidth data) (wireHeight data) data with
    | none =>
        rw [hparse] at hframes
        obtain ⟨error, u, hrun', hlength'⟩ := hframes
        rw [hrun] at hrun'
        cases hrun'
        exact hlength'
    | some found =>
        obtain ⟨⟨flags, changes⟩, rest⟩ := found
        rw [hparse] at hframes
        obtain ⟨dirty, u, hmatches, hbackground, hrun'⟩ := hframes
        rw [hrun'] at hrun
        have hstart := background_length flags changes hlength
        rw [← hbackground] at hstart
        exact paintFrame_length hsize hstart hmatches hrun
  constructor
  · rw [hframe, hwidth, hheight]
  · rw [hframe]
    exact hsize

theorem applyAbsoluteOverlay_sized {after : EvrtckDecoder} {outcome : Except EvrtckError (List Nat)}
    (hdata : data.length < Checked.sizeLimit) (hd : d.Sized)
    (hoverlay : d.applyAbsoluteOverlay zstd data = .ok (after, outcome)) : after.Sized := by
  have hlays := applyAbsoluteOverlay_lays zstd hdata hd
  cases hparse : parseOverlayCount d.width d.height data with
  | none =>
      rw [hparse] at hlays
      obtain ⟨error, hfails⟩ := hlays
      rw [hoverlay] at hfails
      cases hfails
      exact hd
  | some found =>
      rw [hparse] at hlays
      obtain ⟨frame, outcome', hlaid, _, hlength, _⟩ := hlays
      rw [hoverlay] at hlaid
      cases hlaid
      have hsmall := hd.small
      rw [hd.size] at hsmall
      exact ⟨hlength, hlength ▸ hsmall⟩

theorem Reached.sized (h : Reached zstd d) : d.Sized := by
  induction h with
  | new => exact ⟨rfl, by decide⟩
  | decoded _ hdata hdecode ih => exact decodeWirePrioritized_sized hdata ih hdecode
  | overlaid _ hdata hoverlay ih => exact applyAbsoluteOverlay_sized hdata ih hoverlay
  | synced _ hrgba width height ih =>
      unfold syncFromRgba
      split
      · exact ih
      next hlength => exact ⟨not_not.mp hlength, hrgba⟩

end EvrtckDecoder

end EvertyDesk.Evrtck
