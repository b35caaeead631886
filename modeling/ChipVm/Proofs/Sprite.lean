/-
# Drawing is a wrapped exclusive or

A sprite is drawn cell by cell: each cell under one of its set bits is looked at, whether it is
lit, and then flipped.  What comes of that can be said for each pixel by itself.  A pixel at
column `px` and row `py` lies so many columns to the right of the corner and so many rows below
it, both counted around the edges of the screen (`Sprite.distance`); the bit of the sprite that
stands there (`Sprite.bitAt`) is what the pixel is combined with.

* The cells that are flipped are those under a set bit (`Sprite.mem_cells`), and since eight
  columns and fifteen rows do not reach around the screen, none of them comes up twice
  (`Sprite.nodup_cells`).
* A pixel changes with every flip of its cell, so what counts is whether it is flipped an odd
  number of times (`Frame.pixel_flipCells`).
* A cell that comes up once is still as it was before the drawing when its turn comes
  (`Frame.collided_flipCells`).
-/
import Mathlib.Algebra.GroupWithZero.Nat
import Mathlib.Data.List.Nodup
import Mathlib.Tactic.Lemma
import ChipVm.Proofs.Screen

namespace ChipVm

/-! ## The cells of a sprite -/

namespace Sprite

/-- How many places a place lies behind `start`, counted around a circle of `size` places. -/
def distance (size start place : Nat) : Nat :=
  (((place : Int) - start) % size).toNat

/-- The bit of a sprite that stands over a cell when its top left corner stands at `(x, y)`.  Rows
are eight columns wide with the most significant bit leftmost, and only the first
`spriteRowLimit` of them count. -/
def bitAt (x y : UInt8) (rows : List UInt8) (cell : Cell) : Bool :=
  let right := distance screenWidth x.toNat cell.1
  let down := distance screenHeight y.toNat cell.2
  if down < min rows.length spriteRowLimit ∧ right < 8 then
    (rows.getD down 0).toNat.testBit (7 - right)
  else
    false

/-- Going around from `start`, the place that is reached after `k` steps is `k` places behind. -/
lemma ofNat_add_eq_iff {size : Nat} [NeZero size] (start : Nat) (place : Fin size) {k : Nat}
    (hk : k < size) : Fin.ofNat size (start + k) = place ↔ k = distance size start place := by
  have hsize : (size : Int) ≠ 0 := by omega
  have hnonneg := Int.emod_nonneg ((place : Int) - start) hsize
  rw [Fin.ext_iff, distance]
  show (start + k) % size = place.val ↔ _
  constructor
  · intro hplace
    have hback : ((place.val : Int) - start) % size = k := by
      have hstart : ((start + k : Nat) : Int) - start = k := by omega
      rw [← hplace, Int.natCast_emod, Int.emod_sub_emod, hstart]
      exact Int.emod_eq_of_lt (by omega) (by omega)
    rw [hback, Int.toNat_natCast]
  · rintro rfl
    have hforth : (start : Int) + ((place.val : Int) - start) = place.val := by omega
    rw [← Int.natCast_inj, Int.natCast_emod, Int.natCast_add, Int.toNat_of_nonneg hnonneg,
      Int.add_emod_emod, hforth]
    exact Int.emod_eq_of_lt (by omega) (by omega)

/-- Fewer steps than there are places do not lead to one place twice. -/
lemma ofNat_add_inj {size : Nat} [NeZero size] {start j k : Nat} (hj : j < size) (hk : k < size)
    (h : Fin.ofNat size (start + j) = Fin.ofNat size (start + k)) : j = k := by
  rw [ofNat_add_eq_iff start _ hj] at h
  exact h.trans ((ofNat_add_eq_iff start _ hk).mp rfl).symm

lemma mem_rowColumns {x : Nat} {row : UInt8} {column : Fin screenWidth} :
    column ∈ rowColumns x row ↔
      distance screenWidth x column < 8 ∧
        row.toNat.testBit (7 - distance screenWidth x column) = true := by
  simp only [rowColumns, List.mem_map, List.mem_filter, List.mem_range]
  constructor
  · rintro ⟨bit, ⟨hbit, hset⟩, hcolumn⟩
    obtain rfl := (ofNat_add_eq_iff x column (Nat.lt_trans hbit (by decide))).mp hcolumn
    exact ⟨hbit, hset⟩
  · rintro ⟨hbit, hset⟩
    exact ⟨_, ⟨hbit, hset⟩, (ofNat_add_eq_iff x column (Nat.lt_trans hbit (by decide))).mpr rfl⟩

lemma nodup_rowColumns (x : Nat) (row : UInt8) : (rowColumns x row).Nodup := by
  refine List.Nodup.map_on ?_ (List.nodup_range.filter _)
  intro first hfirst second hsecond hsame
  have hfirst := List.mem_range.mp (List.mem_of_mem_filter hfirst)
  have hsecond := List.mem_range.mp (List.mem_of_mem_filter hsecond)
  exact ofNat_add_inj (Nat.lt_trans hfirst (by decide)) (Nat.lt_trans hsecond (by decide)) hsame

variable {x y : UInt8} {rows : List UInt8}

lemma getElem?_take_eq_some {offset : Nat} {byte : UInt8} :
    (rows.take spriteRowLimit)[offset]? = some byte ↔
      offset < min rows.length spriteRowLimit ∧ rows.getD offset 0 = byte := by
  rw [List.getElem?_take, List.getD_eq_getElem?_getD, Nat.lt_min]
  by_cases hlimit : offset < spriteRowLimit
  · by_cases hlength : offset < rows.length
    · simp [hlimit, hlength]
    · simp [hlimit, hlength]
  · simp [hlimit]

/-- The cells that a sprite flips are those under its set bits. -/
lemma mem_cells {cell : Cell} : cell ∈ cells x y rows ↔ bitAt x y rows cell = true := by
  obtain ⟨column, row⟩ := cell
  simp only [cells, List.mem_flatMap, List.mem_map, Prod.exists, Prod.mk.injEq,
    List.mem_zipIdx_iff_getElem?, getElem?_take_eq_some, bitAt]
  constructor
  · rintro ⟨byte, offset, ⟨hoffset, rfl⟩, _, hcolumn, rfl, hrow⟩
    have hlimit : offset < screenHeight :=
      Nat.lt_of_lt_of_le hoffset (Nat.le_trans (Nat.min_le_right _ _) (by decide))
    obtain rfl := (ofNat_add_eq_iff y.toNat row hlimit).mp hrow
    obtain ⟨hright, hset⟩ := mem_rowColumns.mp hcolumn
    rw [if_pos ⟨hoffset, hright⟩]
    exact hset
  · intro hset
    split at hset
    · rename_i hinside
      have hlimit : distance screenHeight y.toNat row < screenHeight :=
        Nat.lt_of_lt_of_le hinside.1 (Nat.le_trans (Nat.min_le_right _ _) (by decide))
      exact ⟨_, _, ⟨hinside.1, rfl⟩, column, mem_rowColumns.mpr ⟨hinside.2, hset⟩, rfl,
        (ofNat_add_eq_iff y.toNat row hlimit).mpr rfl⟩
    · cases hset

/-- No cell comes up twice: eight columns and fifteen rows do not reach around the screen. -/
lemma nodup_cells (x y : UInt8) (rows : List UInt8) : (cells x y rows).Nodup := by
  have hoffsets : ((rows.take spriteRowLimit).zipIdx.map Prod.snd).Nodup := by
    rw [List.zipIdx_map_snd]
    exact List.nodup_range'
  have hlimit : ∀ entry ∈ (rows.take spriteRowLimit).zipIdx, entry.2 < screenHeight := by
    rintro ⟨byte, offset⟩ hentry
    rw [List.mem_zipIdx_iff_getElem?, getElem?_take_eq_some] at hentry
    exact Nat.lt_of_lt_of_le hentry.1 (Nat.le_trans (Nat.min_le_right _ _) (by decide))
  refine List.nodup_flatMap.mpr ⟨?_, ?_⟩
  · rintro ⟨byte, offset⟩ -
    exact (nodup_rowColumns x.toNat byte).map fun _ _ hsame => congrArg Prod.fst hsame
  -- different rows of the sprite lie in different rows of the screen
  · refine (List.pairwise_map.mp hoffsets).imp_of_mem ?_
    intro first second hfirst hsecond hne cell hmemFirst hmemSecond
    obtain ⟨_, -, rfl⟩ := List.mem_map.mp hmemFirst
    obtain ⟨_, -, hsame⟩ := List.mem_map.mp hmemSecond
    exact hne (ofNat_add_inj (hlimit _ hfirst) (hlimit _ hsecond) (congrArg Prod.snd hsame).symm)

end Sprite

/-! ## Flipping cell after cell -/

namespace Frame

/-- A collision that is noted beforehand is remembered, and decides nothing. -/
lemma foldl_flip (cells : List Cell) (frame : Frame) (collided : Bool) :
    cells.foldl
      (fun (frame, collided) (x, y) => (frame.flip x y, collided || frame.pixel x y &&& 1 == 1))
      (frame, collided)
      = ((frame.flipCells cells).1, collided || (frame.flipCells cells).2) := by
  induction cells generalizing frame collided with
  | nil => simp [flipCells]
  | cons cell cells ih =>
    have hplain := ih (frame.flip cell.1 cell.2) (false || frame.pixel cell.1 cell.2 &&& 1 == 1)
    rw [List.foldl_cons, flipCells, List.foldl_cons, ih, hplain]
    simp only [Bool.or_assoc, Bool.false_or]

lemma flipCells_cons (frame : Frame) (cell : Cell) (cells : List Cell) :
    frame.flipCells (cell :: cells)
      = (((frame.flip cell.1 cell.2).flipCells cells).1,
        frame.pixel cell.1 cell.2 &&& 1 == 1
          || ((frame.flip cell.1 cell.2).flipCells cells).2) := by
  rw [flipCells, List.foldl_cons, foldl_flip, Bool.false_or]

/-- A pixel ends up flipped if its cell comes up an odd number of times. -/
lemma pixel_flipCells (frame : Frame) (cells : List Cell) (x : Fin screenWidth)
    (y : Fin screenHeight) :
    (frame.flipCells cells).1.pixel x y
      = frame.pixel x y ^^^ UInt8.ofNat (cells.count (x, y) % 2) := by
  induction cells generalizing frame with
  | nil => simp [flipCells]
  | cons cell cells ih =>
    rw [flipCells_cons, ih, pixel_flip, List.count_cons]
    by_cases hcell : cell = (x, y)
    · subst hcell
      rw [if_pos ⟨rfl, rfl⟩, if_pos (beq_self_eq_true (x, y)), UInt8.xor_assoc]
      -- one flip more turns an even number of flips into an odd one, and the other way round
      rcases Nat.mod_two_eq_zero_or_one (cells.count (x, y)) with heven | hodd
      · have hnext : (cells.count (x, y) + 1) % 2 = 1 := by omega
        rw [heven, hnext]
        rfl
      · have hnext : (cells.count (x, y) + 1) % 2 = 0 := by omega
        rw [hodd, hnext]
        rfl
    · have hapart : ¬(cell.1 = x ∧ cell.2 = y) := fun h => hcell (Prod.ext h.1 h.2)
      simp [hcell, hapart]

/-- Where no cell comes up twice, each is found as it was before the first flip. -/
lemma collided_flipCells {cells : List Cell} (frame : Frame) (h : cells.Nodup) :
    (frame.flipCells cells).2 = true ↔ ∃ cell ∈ cells, frame.pixel cell.1 cell.2 &&& 1 = 1 := by
  induction cells generalizing frame with
  | nil => simp [flipCells]
  | cons cell cells ih =>
    obtain ⟨hfresh, hrest⟩ := List.nodup_cons.mp h
    -- the flip of the first cell does not touch the others
    have hothers : ∀ other ∈ cells,
        (frame.flip cell.1 cell.2).pixel other.1 other.2 = frame.pixel other.1 other.2 := by
      intro other hother
      refine (frame.pixel_flip _ _ _ _).trans (if_neg ?_)
      rintro ⟨hcolumn, hrow⟩
      exact hfresh (Prod.ext hcolumn hrow ▸ hother)
    rw [flipCells_cons, List.exists_mem_cons_iff, Bool.or_eq_true, beq_iff_eq, ih _ hrest]
    refine or_congr_right (exists_congr fun other => and_congr_right fun hother => ?_)
    rw [hothers other hother]

end Frame

/-! ## Drawing -/

namespace Screen

lemma pixel_draw (screen : Screen) (x y : UInt8) (rows : List UInt8) (px : Fin screenWidth)
    (py : Fin screenHeight) :
    (screen.draw x y rows).1.frame.pixel px py
      = screen.frame.pixel px py ^^^ (Sprite.bitAt x y rows (px, py)).toUInt8 := by
  show (screen.frame.flipCells (Sprite.cells x y rows)).1.pixel px py = _
  rw [Frame.pixel_flipCells, (Sprite.nodup_cells x y rows).count]
  cases hbit : Sprite.bitAt x y rows (px, py) with
  | true =>
    rw [if_pos (Sprite.mem_cells.mpr hbit)]
    rfl
  | false =>
    rw [if_neg fun hmem => by simp [Sprite.mem_cells.mp hmem] at hbit]
    rfl

/-- A sprite collides where it has a bit over a lit pixel. -/
lemma collided_draw {screen : Screen} (h : screen.frame.Binary) (x y : UInt8)
    (rows : List UInt8) :
    (screen.draw x y rows).2 = true ↔
      ∃ cell, Sprite.bitAt x y rows cell = true ∧ screen.frame.pixel cell.1 cell.2 = 1 := by
  show (screen.frame.flipCells (Sprite.cells x y rows)).2 = true ↔ _
  rw [Frame.collided_flipCells _ (Sprite.nodup_cells x y rows)]
  refine exists_congr fun cell => and_congr Sprite.mem_cells ?_
  rcases h cell.1 cell.2 with hdark | hlit
  · simp [hdark]
  · simp [hlit]

/-- Drawing a sprite combines each pixel with the bit of the sprite that stands over it by an
exclusive or, and tells whether a pixel that was lit is out afterwards.  The pixels stay dark or
lit, and the screen counts as changed. -/
theorem draw_is_wrapped_xor (screen : Screen) (hbinary : screen.frame.Binary) (x y : UInt8)
    (rows : List UInt8) :
    (∀ px py, (screen.draw x y rows).1.frame.pixel px py
      = screen.frame.pixel px py ^^^ (Sprite.bitAt x y rows (px, py)).toUInt8) ∧
    ((screen.draw x y rows).2 = true ↔ ∃ px py, screen.frame.pixel px py = 1 ∧
      (screen.draw x y rows).1.frame.pixel px py = 0) ∧
    (screen.draw x y rows).1.frame.Binary ∧
    (screen.draw x y rows).1.dirty = true := by
  refine ⟨screen.pixel_draw x y rows, ?_, binary_draw hbinary x y rows, rfl⟩
  rw [collided_draw hbinary, Prod.exists]
  refine exists_congr fun px => exists_congr fun py => ?_
  rw [pixel_draw, and_comm]
  refine and_congr_right fun hlit => ?_
  -- a lit pixel goes out exactly under a set bit
  rw [hlit]
  cases Sprite.bitAt x y rows (px, py) <;> decide

/-- Three pixels around a corner of the screen. -/
def cornered : Screen := (Screen.initial.draw 63 31 [0xC0, 0x40]).1

/-- Another sprite at the same corner, which is named by coordinates beyond the edges, puts out
two of the three pixels and lights a fourth one. -/
theorem draw_is_wrapped_xor_cornered :
    cornered.frame.Binary ∧
    (cornered.draw 255 95 [0x80, 0xC0]).2 = true ∧
    (cornered.draw 255 95 [0x80, 0xC0]).1.frame.pixel ⟨63, by decide⟩ ⟨31, by decide⟩ = 0 ∧
    (cornered.draw 255 95 [0x80, 0xC0]).1.frame.pixel ⟨0, by decide⟩ ⟨31, by decide⟩ = 1 ∧
    (cornered.draw 255 95 [0x80, 0xC0]).1.frame.pixel ⟨63, by decide⟩ ⟨0, by decide⟩ = 1 ∧
    (cornered.draw 255 95 [0x80, 0xC0]).1.frame.pixel ⟨0, by decide⟩ ⟨0, by decide⟩ = 0 := by
  have hbinary : cornered.frame.Binary := binary_draw Frame.binary_blank 63 31 [0xC0, 0x40]
  have hbefore : ∀ px py, cornered.frame.pixel px py
      = 0 ^^^ (Sprite.bitAt 63 31 [0xC0, 0x40] (px, py)).toUInt8 := by
    intro px py
    rw [cornered, pixel_draw]
    exact congrArg (· ^^^ _) (Frame.pixel_blank px py)
  obtain ⟨hpixels, hcollided, -, -⟩ := draw_is_wrapped_xor cornered hbinary 255 95 [0x80, 0xC0]
  have hafter : ∀ px py, (cornered.draw 255 95 [0x80, 0xC0]).1.frame.pixel px py
      = 0 ^^^ (Sprite.bitAt 63 31 [0xC0, 0x40] (px, py)).toUInt8
        ^^^ (Sprite.bitAt 255 95 [0x80, 0xC0] (px, py)).toUInt8 := by
    intro px py
    rw [hpixels, hbefore]
  have hputOut : (cornered.draw 255 95 [0x80, 0xC0]).2 = true :=
    hcollided.mpr ⟨⟨63, by decide⟩, ⟨31, by decide⟩, (hbefore _ _).trans (by decide),
      (hafter _ _).trans (by decide)⟩
  exact ⟨hbinary, hputOut, (hafter _ _).trans (by decide), (hafter _ _).trans (by decide),
    (hafter _ _).trans (by decide), (hafter _ _).trans (by decide)⟩

end Screen

end ChipVm
