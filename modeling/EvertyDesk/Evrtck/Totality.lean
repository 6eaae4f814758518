import EvertyDesk.Evrtck.Painting

/-!
On which bytes the decoder returns. The sizes in the header decide whether there
can be such a frame at all; everything after it is checked before it is used.
What is left is the order of the tiles, which the caller's priorities must allow.
-/

namespace EvertyDesk.Evrtck

/-- If a tile's priority is not a number, the priorities of the others that are
numbers are the same. -/
def Orderable (priority : Option (Nat → Priority)) (indices : List Nat) : Prop :=
  ∀ p, priority = some p → ∀ a ∈ indices, p a = none →
    ∀ b ∈ indices, ∀ c ∈ indices, p b ≠ none → p c ≠ none → p b = p c

/-- The dimensions in a packet's header. -/
def wireWidth (data : List UInt8) : Nat := leNat (field data 10 4)

def wireHeight (data : List UInt8) : Nat := leNat (field data 14 4)

/-- The tiles that a packet has entries for, in their order. -/
def namedTiles (data : List UInt8) : List Nat :=
  match parseFrame (wireWidth data) (wireHeight data) data with
  | some ((_, changes), _) => changes.tiles.map TileData.idx
  | none => []

/-- The packet is dismissed for its header, or there is a frame of its size and
an order of its tiles. -/
def Acceptable (data : List UInt8) (priority : Option (Nat → Priority)) : Prop :=
  data.length < 18 ∨ field data 0 4 ≠ magic ∨
    wireWidth data * wireHeight data * 4 < Checked.sizeLimit ∧ Orderable priority (namedTiles data)

/-- Both ways of decoding the packet return. -/
def EvrtckDecoder.ReturnsOn (zstd : Zstd) (d : EvrtckDecoder) (data : List UInt8)
    (priority : Option (Nat → Priority)) : Prop :=
  (∃ result, d.decodeWire zstd data = .ok result) ∧
    ∃ result, d.decodeWirePrioritized zstd data priority = .ok result

/-- Comparing is a total order just if no number is beside two others. -/
theorem notBelow_total_order_iff {Item : Type} (index : Item → Nat) (p : Nat → Priority)
    (items : List Item) :
    (∀ a ∈ items, ∀ b ∈ items,
      (notBelow (p (index a)) (p (index b)) ∨ notBelow (p (index b)) (p (index a))) ∧
        ∀ c ∈ items, notBelow (p (index a)) (p (index b)) →
          notBelow (p (index b)) (p (index c)) → notBelow (p (index a)) (p (index c))) ↔
      Orderable (some p) (items.map index) := by
  constructor
  · intro horder _ hp n hn hnone b hb c hc hb' hc'
    injection hp with hp
    subst hp
    obtain ⟨n, hnitem, rfl⟩ := List.mem_map.mp hn
    obtain ⟨b, hbitem, rfl⟩ := List.mem_map.mp hb
    obtain ⟨c, hcitem, rfl⟩ := List.mem_map.mp hc
    have hbc := (horder b hbitem n hnitem).2 c hcitem
    have hcb := (horder c hcitem n hnitem).2 b hbitem
    rw [hnone] at hbc hcb
    obtain ⟨first, hfirst⟩ := Option.ne_none_iff_exists'.mp hb'
    obtain ⟨second, hsecond⟩ := Option.ne_none_iff_exists'.mp hc'
    rw [hfirst, hsecond] at hbc hcb
    simp only [notBelow, decide_eq_true_eq, forall_const] at hbc hcb
    rw [hfirst, hsecond, le_antisymm hcb hbc]
  · intro horder a ha b hb
    constructor
    · cases p (index a) <;> cases p (index b) <;> simp [notBelow, le_total]
    · intro c hc hab hbc
      cases hpa : p (index a) with
      | none => rfl
      | some first =>
          cases hpc : p (index c) with
          | none => rfl
          | some third =>
              cases hpb : p (index b) with
              | none =>
                  have hsame := horder p rfl _ (List.mem_map_of_mem hb) hpb _
                    (List.mem_map_of_mem ha) _ (List.mem_map_of_mem hc) (by simp [hpa])
                    (by simp [hpc])
                  rw [hpa, hpc] at hsame
                  injection hsame with hsame
                  simp [notBelow, hsame]
              | some second =>
                  rw [hpa, hpb] at hab
                  rw [hpb, hpc] at hbc
                  simp only [notBelow, decide_eq_true_eq] at hab hbc ⊢
                  omega

section Painting

variable {zstd : Zstd} {data : List UInt8} {width height : Nat} {s : Decoding}
  {dirty : List TileEntry} {tiles : List TileData}

theorem zip_indices (h : List.Forall₂ (Matches data width height) dirty tiles) :
    (dirty.zip (tiles.map (tilePixels zstd))).map (fun tile => tile.1.idx) =
      tiles.map TileData.idx := by
  induction h with
  | nil => rfl
  | cons hfirst _ ih =>
      simp only [List.map_cons, List.zip_cons_cons, ih, hfirst.idx]

theorem sortByPriority_ok_iff (priority : Option (Nat → Priority))
    (items : List (TileEntry × Except EvrtckError TilePixels)) :
    (∃ sorted, sortByPriority priority items = .ok sorted) ↔
      Orderable priority (items.map fun tile => tile.1.idx) := by
  cases priority with
  | none =>
      constructor
      · intro _ p hp
        cases hp
      · intro _
        exact ⟨items, rfl⟩
  | some p =>
      rw [← notBelow_total_order_iff (fun tile => tile.1.idx) p items]
      unfold sortByPriority Checked.sortBy
      dsimp only
      split
      next horder => exact ⟨fun _ => horder, fun _ => ⟨_, rfl⟩⟩
      next horder =>
        constructor
        · rintro ⟨sorted, hsorted⟩
          cases hsorted
        · intro h
          exact absurd h horder

theorem sortByPriority_perm {priority : Option (Nat → Priority)}
    {items sorted : List (TileEntry × Except EvrtckError TilePixels)}
    (h : sortByPriority priority items = .ok sorted) : sorted.Perm items := by
  cases priority with
  | none =>
      cases h
      exact .refl _
  | some p =>
      unfold sortByPriority Checked.sortBy at h
      dsimp only at h
      split at h
      · cases h
        exact List.mergeSort_perm _ _
      · cases h

/-- Painting tiles that have an order returns, with a frame of the same size. -/
theorem paintFrame_sorted (hsize : width * height * 4 < Checked.sizeLimit)
    (hframe : s.frame.length = width * height * 4)
    (h : List.Forall₂ (Matches data width height) dirty tiles)
    {priority : Option (Nat → Priority)}
    {sorted : List (TileEntry × Except EvrtckError TilePixels)}
    (hsorted : sortByPriority priority (dirty.zip (tiles.map (tilePixels zstd))) = .ok sorted) :
    ∃ outcome t, paintFrame zstd data width priority dirty s = .ok (outcome, t) ∧
      t.frame.length = width * height * 4 := by
  unfold paintFrame
  rw [Proc.lift_bind (decompressTiles_ok h), Proc.lift_bind hsorted]
  obtain ⟨outcome, t, hrun, _, hlength, _⟩ := paintTiles_run hsize
    (fun tile htile => paintable_of_matches zstd h tile
      ((sortByPriority_perm hsorted).subset htile)) hframe
  cases outcome with
  | error error => exact ⟨.error error, t, Proc.bind_fails hrun, hlength⟩
  | ok result => exact ⟨_, t, Proc.bind_returns hrun, hlength⟩

theorem paintFrame_unsorted (h : List.Forall₂ (Matches data width height) dirty tiles)
    {priority : Option (Nat → Priority)} {panic : Panic}
    (hsorted : sortByPriority priority (dirty.zip (tiles.map (tilePixels zstd))) = .error panic) :
    paintFrame zstd data width priority dirty s = .error panic := by
  unfold paintFrame
  rw [Proc.lift_bind (decompressTiles_ok h), Proc.lift_panics hsorted]

section Painted

variable (hsize : width * height * 4 < Checked.sizeLimit)
  (hframe : s.frame.length = width * height * 4)
  (h : List.Forall₂ (Matches data width height) dirty tiles)

include hsize hframe h

/-- The tiles of a packet are painted, or the first malformed one is reported,
if there is an order of them. -/
theorem paintFrame_returns_iff
    (priority : Option (Nat → Priority)) :
    (∃ result, paintFrame zstd data width priority dirty s = .ok result) ↔
      Orderable priority (tiles.map TileData.idx) := by
  have hsort := sortByPriority_ok_iff priority (dirty.zip (tiles.map (tilePixels zstd)))
  rw [zip_indices h] at hsort
  rw [← hsort]
  cases hsorted : sortByPriority priority (dirty.zip (tiles.map (tilePixels zstd))) with
  | error panic =>
      rw [paintFrame_unsorted h hsorted]
      simp
  | ok sorted =>
      obtain ⟨outcome, t, hrun, _⟩ := paintFrame_sorted hsize hframe h hsorted
      exact ⟨fun _ => ⟨sorted, rfl⟩, fun _ => ⟨_, hrun⟩⟩

theorem paintFrame_length
    {priority : Option (Nat → Priority)} {outcome : Except EvrtckError (List Nat)}
    {t : Decoding} (hrun : paintFrame zstd data width priority dirty s = .ok (outcome, t)) :
    t.frame.length = width * height * 4 := by
  cases hsorted : sortByPriority priority (dirty.zip (tiles.map (tilePixels zstd))) with
  | error panic =>
      rw [paintFrame_unsorted h hsorted] at hrun
      cases hrun
  | ok sorted =>
      obtain ⟨outcome', u, hrun', hlength⟩ := paintFrame_sorted hsize hframe h hsorted
      rw [hrun] at hrun'
      cases hrun'
      exact hlength

end Painted

end Painting

namespace EvrtckDecoder

theorem frameSize_ok {width height : Nat} (h : width * height * 4 < Checked.sizeLimit) :
    frameSize width height = .ok (width * height * 4) := by
  have hlimits : Checked.sizeLimit < Checked.wordLimit := by decide
  have hpixels : Checked.mul width height = .ok (width * height) := Checked.mul_ok (by omega)
  unfold frameSize
  rw [Checked.bind_ok hpixels]
  exact Checked.mul_ok (by omega)

/-- If there can be a frame of these dimensions, the decoder has one. -/
theorem fitted_ok (d : EvrtckDecoder) {width height : Nat}
    (h : width * height * 4 < Checked.sizeLimit) :
    ∃ fit : EvrtckDecoder, d.fitted width height = .ok fit ∧
      fit.frame.length = width * height * 4 ∧
      fit.width = width ∧ fit.height = height := by
  have hblack : black width height = .ok
      { frame := List.replicate (width * height * 4) 0, width := width, height := height } := by
    unfold black
    rw [Checked.bind_ok (frameSize_ok h), Checked.bind_ok (Checked.allocate_ok h)]
    rfl
  unfold fitted
  split
  · rw [hblack]
    exact ⟨_, rfl, by simp, rfl, rfl⟩
  next hdims =>
    rw [not_or, not_not, not_not] at hdims
    rw [Checked.bind_ok (frameSize_ok h)]
    split
    · rw [hblack]
      exact ⟨_, rfl, by simp, rfl, rfl⟩
    next hlength => exact ⟨d, rfl, not_not.mp hlength, hdims.1, hdims.2⟩

/-- If there cannot be, the decoder panics. -/
theorem fitted_panics {d : EvrtckDecoder} {width height : Nat}
    (hframe : d.frame.length < Checked.sizeLimit)
    (h : ¬ width * height * 4 < Checked.sizeLimit) :
    ∃ panic, d.fitted width height = .error panic := by
  have hsize : (∃ panic, frameSize width height = .error panic) ∨
      frameSize width height = .ok (width * height * 4) := by
    unfold frameSize Checked.mul
    split
    next hpixels =>
      rw [Checked.bind_ok rfl]
      split
      · exact Or.inr rfl
      · exact Or.inl ⟨_, rfl⟩
    · exact Or.inl ⟨_, Checked.bind_panics rfl⟩
  have hblack : ∃ panic, black width height = .error panic := by
    unfold black
    rcases hsize with ⟨panic, hsize⟩ | hsize
    · exact ⟨panic, Checked.bind_panics hsize⟩
    · refine ⟨.capacity, ?_⟩
      rw [Checked.bind_ok hsize]
      exact Checked.bind_panics (if_neg h)
  unfold fitted
  split
  · exact hblack
  · rcases hsize with ⟨panic, hsize⟩ | hsize
    · exact ⟨panic, Checked.bind_panics hsize⟩
    · rw [Checked.bind_ok hsize, if_pos (by omega)]
      exact hblack

theorem decodeWirePrioritized_returns_iff (zstd : Zstd) {d : EvrtckDecoder}
    {data : List UInt8} (hdata : data.length < Checked.sizeLimit)
    (hframe : d.frame.length < Checked.sizeLimit) (priority : Option (Nat → Priority)) :
    (∃ result, d.decodeWirePrioritized zstd data priority = .ok result) ↔
      Acceptable data priority := by
  unfold decodeWirePrioritized Acceptable
  split
  next hshort => exact ⟨fun _ => Or.inl hshort, fun _ => ⟨_, rfl⟩⟩
  next hshort =>
    split
    next hmagic => exact ⟨fun _ => Or.inr (Or.inl hmagic), fun _ => ⟨_, rfl⟩⟩
    next hmagic =>
      rw [or_iff_right hshort, or_iff_right hmagic]
      dsimp only
      rw [← wireWidth, ← wireHeight]
      by_cases hsize : wireWidth data * wireHeight data * 4 < Checked.sizeLimit
      · have hwidth : wireWidth data < 2 ^ 32 := leNat_field_lt data 10 4
        have hheight : wireHeight data < 2 ^ 32 := leNat_field_lt data 14 4
        obtain ⟨fit, hfit, hlength, _, _⟩ := d.fitted_ok hsize
        rw [Checked.bind_ok hfit]
        have hrun := decodeFramePrioritized_run zstd (s := ⟨0, fit.frame⟩)
          hdata hwidth hheight hsize hlength rfl priority
        unfold namedTiles
        cases hparse : parseFrame (wireWidth data) (wireHeight data) data with
        | none =>
            rw [hparse] at hrun
            obtain ⟨error, t, hrun, _⟩ := hrun
            rw [Checked.bind_ok hrun]
            exact ⟨fun _ => ⟨hsize, by simp [Orderable]⟩, fun _ => ⟨_, rfl⟩⟩
        | some found =>
            obtain ⟨⟨flags, changes⟩, rest⟩ := found
            rw [hparse] at hrun
            obtain ⟨dirty, t, hmatches, hbackground, hrun⟩ := hrun
            have hlength' := background_length flags changes hlength
            rw [← hbackground] at hlength'
            rw [hrun, and_iff_right hsize]
            exact (Checked.bind_returns_iff fun result => ⟨_, rfl⟩).trans
              (paintFrame_returns_iff hsize hlength' hmatches priority)
      · obtain ⟨panic, hpanic⟩ := fitted_panics hframe hsize
        rw [Checked.bind_panics hpanic]
        simp [hsize]

/-- Slices and vectors have at most as many bytes as a signed word can count. -/
theorem returns_iff (zstd : Zstd) {d : EvrtckDecoder} {data : List UInt8}
    (hdata : data.length < Checked.sizeLimit) (hframe : d.frame.length < Checked.sizeLimit)
    (priority : Option (Nat → Priority)) :
    d.ReturnsOn zstd data priority ↔ Acceptable data priority := by
  have hwire : (∃ result, d.decodeWire zstd data = .ok result) ↔ Acceptable data none :=
    (Checked.bind_returns_iff fun result => ⟨_, rfl⟩).trans
      (decodeWirePrioritized_returns_iff zstd hdata hframe none)
  unfold ReturnsOn
  rw [hwire, decodeWirePrioritized_returns_iff zstd hdata hframe priority, and_iff_right_iff_imp]
  rintro (hshort | hmagic | ⟨hsize, _⟩)
  · exact Or.inl hshort
  · exact Or.inr (Or.inl hmagic)
  · refine Or.inr (Or.inr ⟨hsize, ?_⟩)
    rintro p hp
    cases hp

/-- A header with the dimensions 2³¹ × 2³¹, and a solid tile. -/
def hugePacket : List UInt8 :=
  frameHeader version 0 0 (2 ^ 31) (2 ^ 31) 1 ++ [0x01, 0x00, 0x00, modeSolid, 1, 2, 3, 4]

/-- A library that puts a byte before what it is given. -/
def prefixing : Zstd where
  encodeAll bytes := some (0 :: bytes)
  decodeAll stream := some stream.tail

/-- Two solid tiles, of which the second is painted first. -/
def smallPacket : List UInt8 :=
  frameHeader version 0 7 33 1 1 ++
    [0x03, 0x00, 0x00, modeSolid, 1, 2, 3, 4, 0x01, 0x00, modeSolid, 5, 6, 7, 8]

theorem returns_on_small_packet :
    EvrtckDecoder.new.ReturnsOn prefixing smallPacket (some fun idx => some idx) ∧
      namedTiles smallPacket = [0, 1] := by
  have hnamed : namedTiles smallPacket = [0, 1] := by decide
  refine ⟨(returns_iff prefixing (by decide) (by decide) _).mpr ?_, hnamed⟩
  refine Or.inr (Or.inr ⟨by decide, ?_⟩)
  intro p hp a _ hnone
  rw [← Option.some.inj hp] at hnone
  cases hnone

theorem huge_packet_panics :
    ¬ ∀ (zstd : Zstd) (d : EvrtckDecoder) (data : List UInt8)
      (priority : Option (Nat → Priority)), data.length < Checked.sizeLimit →
      d.frame.length < Checked.sizeLimit → d.ReturnsOn zstd data priority := by
  intro hall
  obtain ⟨⟨result, hresult⟩, _⟩ :=
    hall prefixing EvrtckDecoder.new hugePacket none (by decide) (by decide)
  have hpanics : EvrtckDecoder.new.decodeWire prefixing hugePacket = .error .overflow := by
    rfl
  rw [hpanics] at hresult
  cases hresult

end EvrtckDecoder

theorem prefixing_lawful : EvrtckDecoder.prefixing.Lawful where
  round_trip bytes := ⟨0 :: bytes, rfl, by simp, rfl⟩
  short bytes stream hbytes hstream := by
    cases hstream
    rw [tileSize] at hbytes
    rw [List.length_cons]
    omega

end EvertyDesk.Evrtck
