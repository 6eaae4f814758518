import EvertyDesk.Host.ColorConversion
import EvertyDesk.Host.EncodeLoop

/-!
Scaling a picture down into a buffer that is used again for every picture. The loop
writes a pixel only if it lies inside both buffers, so that a wrong place would leave
what the buffer held before. No place is wrong.
-/

namespace EvertyDesk.Host

/-- One pixel of the output. -/
def downscalePixel (src : List UInt8) (srcRow dstRow xRatio : Nat) (dst : Buffers Unit UInt8)
    (dx : Nat) : Checked (Buffers Unit UInt8) := do
  let product ← Checked.mul dx xRatio
  let sx := product >>> 16
  let s ← Checked.add srcRow (← Checked.mul sx 4)
  let d ← Checked.add dstRow (← Checked.mul dx 4)
  let sLast ← Checked.add s 3
  let dLast ← Checked.add d 3
  if sLast < src.length ∧ dLast < (dst ()).length then do
    let dst ← dst.write () d (← Checked.index src s)
    let dst ← dst.write () (d + 1) (← Checked.index src (s + 1))
    let dst ← dst.write () (d + 2) (← Checked.index src (s + 2))
    dst.write () (d + 3) 255
  else return dst

/-- One row of the output. -/
def downscaleRow (src : List UInt8) (sw dw xRatio yRatio : Nat) (dst : Buffers Unit UInt8)
    (dy : Nat) : Checked (Buffers Unit UInt8) := do
  let product ← Checked.mul dy yRatio
  let sy := product >>> 16
  let srcRow ← Checked.mul (← Checked.mul sy sw) 4
  let dstRow ← Checked.mul (← Checked.mul dy dw) 4
  (List.range dw).foldlM (downscalePixel src srcRow dstRow xRatio) dst

/-- The picture in the buffer, which held something else before. -/
def downscaleInto (src : List UInt8) (srcW srcH : UInt32) (dst : List UInt8)
    (dstW dstH : UInt32) : Checked (List UInt8) := do
  let sw := srcW.toNat
  let sh := srcH.toNat
  let dw := dstW.toNat
  let dh := dstH.toNat
  let size ← Checked.mul (← Checked.mul dw dh) 4
  Checked.allocate size
  let dst := resize dst size 0
  if sw = 0 ∨ sh = 0 ∨ dw = 0 ∨ dh = 0 then return dst
  let full ← Checked.mul (← Checked.mul sw sh) 4
  if src.length < full then return dst
  let xRatio ← Checked.div (sw <<< 16) dw
  let yRatio ← Checked.div (sh <<< 16) dh
  let filled ← (List.range dh).foldlM (downscaleRow src sw dw xRatio yRatio) fun _ => dst
  return filled ()

/-! The places that are read. -/

/-- A place of the source, in 16 binary digits after the point. -/
theorem sample_lt {place count size : Nat} (hplace : place < count) (hsize : 0 < size) :
    place * (size * 2 ^ 16 / count) / 2 ^ 16 < size ∧
      place * (size * 2 ^ 16 / count) < size * 2 ^ 16 := by
  have hlt : place * (size * 2 ^ 16 / count) < size * 2 ^ 16 := by
    rcases Nat.eq_zero_or_pos (size * 2 ^ 16 / count) with hzero | hpos
    · rw [hzero, Nat.mul_zero]
      omega
    · calc place * (size * 2 ^ 16 / count) < count * (size * 2 ^ 16 / count) :=
            Nat.mul_lt_mul_of_pos_right hplace hpos
        _ ≤ size * 2 ^ 16 := Nat.mul_div_le _ _
  refine ⟨?_, hlt⟩
  apply Nat.div_lt_of_lt_mul
  rwa [Nat.mul_comm (2 ^ 16)]

theorem sample_same {place size : Nat} (h : place < size) :
    place * (size * 2 ^ 16 / size) / 2 ^ 16 = place := by
  rw [Nat.mul_div_cancel_left _ (by omega), Nat.mul_div_cancel _ (by decide)]

/-! What is written. -/

/-- Where the pixel of a place comes from. -/
def sourceBase (sw sh dw dh dy dx : Nat) : Nat :=
  (dy * (sh * 2 ^ 16 / dh) / 2 ^ 16 * sw + dx * (sw * 2 ^ 16 / dw) / 2 ^ 16) * 4

def downscaled (src : List UInt8) (sw sh dw dh place : Nat) : UInt8 :=
  if place % 4 = 3 then 255
  else src.getD (sourceBase sw sh dw dh (place / 4 / dw) (place / 4 % dw) + place % 4) 0

def downscaleWrites (src : List UInt8) (sw sh dw dh dy dx : Nat) : List (Write Unit UInt8) :=
  [⟨(), (dy * dw + dx) * 4, src.getD (sourceBase sw sh dw dh dy dx) 0⟩,
    ⟨(), (dy * dw + dx) * 4 + 1, src.getD (sourceBase sw sh dw dh dy dx + 1) 0⟩,
    ⟨(), (dy * dw + dx) * 4 + 2, src.getD (sourceBase sw sh dw dh dy dx + 2) 0⟩,
    ⟨(), (dy * dw + dx) * 4 + 3, 255⟩]

section

variable {src : List UInt8} {sw sh dw dh dy dx : Nat}

/-- The pixel is read inside the source. -/
theorem sourceBase_lt (hsw : 0 < sw) (hsh : 0 < sh) (hdy : dy < dh) (hdx : dx < dw) :
    sourceBase sw sh dw dh dy dx + 3 < sw * sh * 4 := by
  have hplace := place_lt (sample_lt hdy hsh).1 (sample_lt hdx hsw).1
  rw [Nat.mul_comm sh sw] at hplace
  rw [sourceBase]
  omega

theorem downscalePixel_ok {dst : Buffers Unit UInt8} (hsw : 0 < sw) (hsh : 0 < sh)
    (hswWord : sw < 2 ^ 32) (hrange : sw * sh * 4 < Checked.wordLimit)
    (hsrc : sw * sh * 4 ≤ src.length) (hsize : dw * dh * 4 < Checked.sizeLimit)
    (hdst : dst.Sized fun _ => dw * dh * 4) (hdy : dy < dh) (hdx : dx < dw) :
    downscalePixel src (dy * (sh * 2 ^ 16 / dh) / 2 ^ 16 * sw * 4) (dy * dw * 4)
        (sw * 2 ^ 16 / dw) dst dx =
      .ok (dst.putAll (downscaleWrites src sw sh dw dh dy dx)) := by
  have hword : Checked.wordLimit = 2 ^ 64 := rfl
  have hobject : Checked.sizeLimit = 2 ^ 63 := rfl
  have hbase := sourceBase_lt hsw hsh hdy hdx
  have hplace := place_lt hdy hdx
  rw [Nat.mul_comm dh] at hplace
  have hsample := (sample_lt hdx hsw).2
  have hlength : (dst ()).length = dw * dh * 4 := hdst ()
  have hsourceBase : dy * (sh * 2 ^ 16 / dh) / 2 ^ 16 * sw * 4 +
      dx * (sw * 2 ^ 16 / dw) / 2 ^ 16 * 4 = sourceBase sw sh dw dh dy dx := by
    rw [sourceBase, Nat.add_mul]
  have hplaceBase : dy * dw * 4 + dx * 4 = (dy * dw + dx) * 4 := by rw [Nat.add_mul]
  unfold downscalePixel
  rw [Checked.bind_ok (Checked.mul_ok (by omega))]
  dsimp only
  rw [Nat.shiftRight_eq_div_pow, Checked.bind_ok (Checked.mul_ok (by omega)),
    Checked.bind_ok (Checked.add_ok (by omega)), hsourceBase,
    Checked.bind_ok (Checked.mul_ok (by omega)),
    Checked.bind_ok (Checked.add_ok (by omega)), hplaceBase,
    Checked.bind_ok (Checked.add_ok (by omega)),
    Checked.bind_ok (Checked.add_ok (by omega)), if_pos (by omega),
    Checked.bind_ok (Checked.index_ok (by omega)),
    Checked.bind_ok (Buffers.write_ok hdst (by omega)),
    Checked.bind_ok (Checked.index_ok (by omega)),
    Checked.bind_ok (Buffers.write_ok (hdst.put _) (by omega)),
    Checked.bind_ok (Checked.index_ok (by omega)),
    Checked.bind_ok (Buffers.write_ok ((hdst.put _).put _) (by omega)),
    Buffers.write_ok (((hdst.put _).put _).put _) (by omega)]
  rw [downscaleWrites, List.getD_eq_getElem _ _ (by omega),
    List.getD_eq_getElem _ _ (by omega), List.getD_eq_getElem _ _ (by omega)]
  rfl

theorem downscaleRow_eq {dst : Buffers Unit UInt8} (hsw : 0 < sw) (hsh : 0 < sh)
    (hshWord : sh < 2 ^ 32) (hrange : sw * sh * 4 < Checked.wordLimit)
    (hsize : dw * dh * 4 < Checked.sizeLimit) (hdw : 0 < dw) (hdy : dy < dh) :
    downscaleRow src sw dw (sw * 2 ^ 16 / dw) (sh * 2 ^ 16 / dh) dst dy =
      (List.range dw).foldlM (downscalePixel src (dy * (sh * 2 ^ 16 / dh) / 2 ^ 16 * sw * 4)
        (dy * dw * 4) (sw * 2 ^ 16 / dw)) dst := by
  have hword : Checked.wordLimit = 2 ^ 64 := rfl
  have hobject : Checked.sizeLimit = 2 ^ 63 := rfl
  have hsource := place_lt (sample_lt hdy hsh).1 hsw
  have hplace := place_lt hdy hdw
  rw [Nat.mul_comm sh sw] at hsource
  rw [Nat.mul_comm dh dw] at hplace
  have hsample := (sample_lt hdy hsh).2
  unfold downscaleRow
  rw [Checked.bind_ok (Checked.mul_ok (by omega))]
  dsimp only
  rw [Nat.shiftRight_eq_div_pow, Checked.bind_ok (Checked.mul_ok (by omega)),
    Checked.bind_ok (Checked.mul_ok (by omega)), Checked.bind_ok (Checked.mul_ok (by omega)),
    Checked.bind_ok (Checked.mul_ok (by omega))]

theorem downscaled_pixel {pixel colour : Nat} (hcolour : colour < 3) :
    downscaled src sw sh dw dh (pixel * 4 + colour) =
      src.getD (sourceBase sw sh dw dh (pixel / dw) (pixel % dw) + colour) 0 := by
  have hlt : colour < 4 := by omega
  rw [downscaled, place_div hlt, place_mod hlt, if_neg (by omega)]

theorem downscaled_colour {colour : Nat} (hdx : dx < dw) (hcolour : colour < 3) :
    downscaled src sw sh dw dh ((dy * dw + dx) * 4 + colour) =
      src.getD (sourceBase sw sh dw dh dy dx + colour) 0 := by
  rw [downscaled_pixel hcolour, place_div hdx, place_mod hdx]

theorem downscaled_first (pixel : Nat) : downscaled src sw sh dw dh (pixel * 4) =
    src.getD (sourceBase sw sh dw dh (pixel / dw) (pixel % dw)) 0 := by
  have hcolour := @downscaled_pixel src sw sh dw dh pixel 0 (by decide)
  rwa [Nat.add_zero, Nat.add_zero] at hcolour

theorem downscaled_alpha (pixel : Nat) : downscaled src sw sh dw dh (pixel * 4 + 3) = 255 := by
  rw [downscaled, place_mod (by decide), if_pos rfl]

theorem downscaleWrites_right (hdx : dx < dw) :
    ∀ write ∈ downscaleWrites src sw sh dw dh dy dx,
      write.item = downscaled src sw sh dw dh write.position := by
  intro write hwrite
  simp only [downscaleWrites, List.mem_cons, List.not_mem_nil, or_false] at hwrite
  rcases hwrite with rfl | rfl | rfl | rfl
  · dsimp only
    rw [downscaled_first, place_div hdx, place_mod hdx]
  · exact (downscaled_colour hdx (by decide)).symm
  · exact (downscaled_colour hdx (by decide)).symm
  · exact (downscaled_alpha _).symm

theorem downscaleWrites_cover {place : Nat} (h : place < dw * dh * 4) :
    ∃ dy < dh, ∃ dx < dw, ∃ write ∈ downscaleWrites src sw sh dw dh dy dx,
      write.buffer = () ∧ write.position = place := by
  have hpixel : place / 4 < dw * dh := by omega
  obtain ⟨hrow, hcol, hsame⟩ := place_split hpixel
  refine ⟨place / 4 / dw, hrow, place / 4 % dw, hcol, ?_⟩
  have hcases : place % 4 = 0 ∨ place % 4 = 1 ∨ place % 4 = 2 ∨ place % 4 = 3 := by omega
  rcases hcases with hk | hk | hk | hk
  · refine ⟨_, List.mem_cons_self, rfl, ?_⟩
    dsimp only
    omega
  · refine ⟨_, List.mem_cons_of_mem _ List.mem_cons_self, rfl, ?_⟩
    dsimp only
    omega
  · refine ⟨_, List.mem_cons_of_mem _ (List.mem_cons_of_mem _ List.mem_cons_self), rfl, ?_⟩
    dsimp only
    omega
  · refine ⟨_, List.mem_cons_of_mem _ (List.mem_cons_of_mem _
      (List.mem_cons_of_mem _ List.mem_cons_self)), rfl, ?_⟩
    dsimp only
    omega

end

section

variable {src : List UInt8} {srcW srcH dstW dstH : UInt32}

/-- What the buffer held before does not matter. -/
theorem downscaleInto_eq (dst : List UInt8) (hsw : 0 < srcW.toNat) (hsh : 0 < srcH.toNat)
    (hdw : 0 < dstW.toNat) (hdh : 0 < dstH.toNat)
    (hrange : srcW.toNat * srcH.toNat * 4 < Checked.wordLimit)
    (hsize : dstW.toNat * dstH.toNat * 4 < Checked.sizeLimit)
    (hsrc : srcW.toNat * srcH.toNat * 4 ≤ src.length) :
    downscaleInto src srcW srcH dst dstW dstH =
      .ok ((List.range (dstW.toNat * dstH.toNat * 4)).map
        (downscaled src srcW.toNat srcH.toNat dstW.toNat dstH.toNat)) := by
  have hword : Checked.wordLimit = 2 ^ 64 := rfl
  have hobject : Checked.sizeLimit = 2 ^ 63 := rfl
  have hsrcW := srcW.toNat_lt
  have hsrcH := srcH.toNat_lt
  unfold downscaleInto
  dsimp only
  generalize srcW.toNat = sw at *
  generalize srcH.toNat = sh at *
  generalize dstW.toNat = dw at *
  generalize dstH.toNat = dh at *
  have hsized : Buffers.Sized (fun _ : Unit => resize dst (dw * dh * 4) 0)
      fun _ => dw * dh * 4 := fun _ => resize_length _ _ _
  have hfill : (List.range dh).foldlM
      (downscaleRow src sw dw (sw * 2 ^ 16 / dw) (sh * 2 ^ 16 / dh))
      (fun _ => resize dst (dw * dh * 4) 0) =
      .ok fun _ => (List.range (dw * dh * 4)).map (downscaled src sw sh dw dh) := by
    have houter : ∀ dst : Buffers Unit UInt8, (dst.Sized fun _ => dw * dh * 4) → ∀ dy < dh,
        downscaleRow src sw dw (sw * 2 ^ 16 / dw) (sh * 2 ^ 16 / dh) dst dy =
          (List.range dw).foldlM (downscalePixel src
            (dy * (sh * 2 ^ 16 / dh) / 2 ^ 16 * sw * 4) (dy * dw * 4) (sw * 2 ^ 16 / dw)) dst :=
      fun dst _ dy hdy => downscaleRow_eq hsw hsh hsrcH hrange hsize hdw hdy
    exact Buffers.nested_loops_fill houter
      (fun dst hdst dy hdy dx hdx =>
        downscalePixel_ok hsw hsh hsrcW hrange hsrc hsize hdst hdy hdx)
      (fun dy _ dx hdx => downscaleWrites_right hdx)
      (fun _ place hplace => downscaleWrites_cover hplace) hsized
  rw [Checked.bind_ok (Checked.mul_ok (by omega)), Checked.bind_ok (Checked.mul_ok (by omega)),
    Checked.bind_ok (Checked.allocate_ok (by omega)), if_neg (by omega),
    Checked.bind_ok (Checked.mul_ok (by omega)), Checked.bind_ok (Checked.mul_ok (by omega)),
    if_neg (by omega), Checked.bind_ok (Checked.div_ok hdw), Checked.bind_ok (Checked.div_ok hdh),
    Nat.shiftLeft_eq, Nat.shiftLeft_eq, Checked.bind_ok hfill]
  rfl

theorem map_range_four (f : Nat → UInt8) (count : Nat) :
    (List.range (count * 4)).map f =
      (List.range count).flatMap fun i =>
        [f (i * 4), f (i * 4 + 1), f (i * 4 + 2), f (i * 4 + 3)] := by
  induction count with
  | zero => rfl
  | succ count ih =>
      rw [Nat.succ_mul, List.range_add, List.map_append, ih, @List.range_succ count,
        List.flatMap_append]
      rfl

/-- The loop computes the picture that the encode loop goes on with. -/
theorem map_downscaled (hsw : 0 < srcW.toNat) (hsh : 0 < srcH.toNat) (hdw : 0 < dstW.toNat)
    (hdh : 0 < dstH.toNat) (hsrc : srcW.toNat * srcH.toNat * 4 ≤ src.length) :
    (List.range (dstW.toNat * dstH.toNat * 4)).map
        (downscaled src srcW.toNat srcH.toNat dstW.toNat dstH.toNat) =
      downscaleBgra src srcW srcH dstW dstH := by
  rw [downscaleBgra, if_neg (by omega), map_range_four]
  apply List.flatMap_congr
  intro pixel _
  rw [downscaled_first, downscaled_pixel (by decide), downscaled_pixel (by decide),
    downscaled_alpha]
  rfl

end

/-- Every pixel of the buffer is overwritten, from a pixel of the frame, and nothing else
is read; at the same size the colours stay what they are. -/
theorem downscaleInto_overwrites (src dst : List UInt8) (srcW srcH dstW dstH : UInt32)
    (hsw : 0 < srcW.toNat) (hsh : 0 < srcH.toNat) (hdw : 0 < dstW.toNat)
    (hdh : 0 < dstH.toNat) (hrange : srcW.toNat * srcH.toNat * 4 < Checked.wordLimit)
    (hsize : dstW.toNat * dstH.toNat * 4 < Checked.sizeLimit)
    (hsrc : srcW.toNat * srcH.toNat * 4 ≤ src.length) :
    ∃ out, downscaleInto src srcW srcH dst dstW dstH = .ok out ∧
      out = downscaleBgra src srcW srcH dstW dstH ∧
      out.length = dstW.toNat * dstH.toNat * 4 ∧
      (∀ dy < dstH.toNat, ∀ dx < dstW.toNat,
        let sy := dy * (srcH.toNat * 2 ^ 16 / dstH.toNat) / 2 ^ 16
        let sx := dx * (srcW.toNat * 2 ^ 16 / dstW.toNat) / 2 ^ 16
        sy < srcH.toNat ∧ sx < srcW.toNat ∧
          (∀ colour < 3, out[(dy * dstW.toNat + dx) * 4 + colour]? =
            src[(sy * srcW.toNat + sx) * 4 + colour]?) ∧
          out[(dy * dstW.toNat + dx) * 4 + 3]? = some 255) ∧
      (dstW = srcW → dstH = srcH → ∀ place < out.length, place % 4 ≠ 3 →
        out[place]? = src[place]?) := by
  have hout : ∀ place < dstW.toNat * dstH.toNat * 4,
      ((List.range (dstW.toNat * dstH.toNat * 4)).map
        (downscaled src srcW.toNat srcH.toNat dstW.toNat dstH.toNat))[place]? =
        some (downscaled src srcW.toNat srcH.toNat dstW.toNat dstH.toNat place) := by
    intro place hplace
    rw [List.getElem?_map, List.getElem?_range hplace, Option.map_some]
  have hlength : ((List.range (dstW.toNat * dstH.toNat * 4)).map
      (downscaled src srcW.toNat srcH.toNat dstW.toNat dstH.toNat)).length =
      dstW.toNat * dstH.toNat * 4 := by
    rw [List.length_map, List.length_range]
  have hread : ∀ position < src.length, some (src.getD position 0) = src[position]? := by
    intro position hposition
    rw [List.getD_eq_getElem _ _ hposition, List.getElem?_eq_getElem hposition]
  refine ⟨_, downscaleInto_eq dst hsw hsh hdw hdh hrange hsize hsrc,
    map_downscaled hsw hsh hdw hdh hsrc, hlength, ?_, ?_⟩
  · intro dy hdy dx hdx
    have hbase := sourceBase_lt hsw hsh hdy hdx
    have hplace := place_lt hdy hdx
    rw [Nat.mul_comm dstH.toNat] at hplace
    refine ⟨(sample_lt hdy hsh).1, (sample_lt hdx hsw).1, ?_, ?_⟩
    · intro colour hcolour
      rw [hout _ (by omega), downscaled_colour hdx hcolour, hread _ (by omega)]
      rfl
    · rw [hout _ (by omega), downscaled_alpha]
  · rintro rfl rfl place hplace hcolour
    rw [hlength] at hplace
    have hpixel : place / 4 < dstW.toNat * dstH.toNat := by omega
    obtain ⟨hrow, hcol, hsame⟩ := place_split hpixel
    rw [hout place hplace, downscaled, if_neg hcolour, sourceBase, sample_same hrow,
      sample_same hcol, hsame, hread _ (by omega)]
    congr 1
    omega

/-- Two pixels become one, in a buffer that held the row before. -/
theorem downscaleInto_overwrites_stale :
    ∃ out, downscaleInto [1, 2, 3, 4, 5, 6, 7, 8] 2 1 [9, 9, 9, 9, 9, 9, 9, 9] 1 1 = .ok out ∧
      out = downscaleBgra [1, 2, 3, 4, 5, 6, 7, 8] 2 1 1 1 := by
  obtain ⟨out, hout, hsame, -⟩ := downscaleInto_overwrites [1, 2, 3, 4, 5, 6, 7, 8]
    [9, 9, 9, 9, 9, 9, 9, 9] 2 1 1 1 (by decide) (by decide) (by decide) (by decide)
    (by decide) (by decide) (by decide)
  exact ⟨out, hout, hsame⟩

end EvertyDesk.Host
