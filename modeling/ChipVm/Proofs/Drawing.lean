/-
# The order of drawings does not show

Drawing a sprite flips the cells under its set bits, so drawing several sprites one after the
other flips the cells of the first, then those of the second, and so on (`Screen.frame_drawAll`).
A pixel only remembers whether it was flipped an odd number of times.  How often its cell comes up
does not depend on the order of the sprites, and drawing all of them once more, in whatever order,
makes every number even.

Which of the drawings report a collision does depend on the order.  What holds of the reports of
one sprite that is drawn twice is that a pixel under one of its bits is lit either before the
first drawing or before the second.
-/
import ChipVm.Proofs.Sprite

namespace ChipVm

/-- A sprite and where its top left corner stands. -/
structure Drawing where
  /-- The column of the corner. -/
  x : UInt8
  /-- The row of the corner. -/
  y : UInt8
  /-- The rows of the sprite. -/
  rows : List UInt8
deriving DecidableEq

namespace Drawing

/-- The cells that a drawing flips. -/
def cells (drawing : Drawing) : List Cell :=
  Sprite.cells drawing.x drawing.y drawing.rows

end Drawing

namespace Frame

lemma ext_pixel {before after : Frame} (h : ∀ x y, before.pixel x y = after.pixel x y) :
    before = after := by
  obtain ⟨rows⟩ := before
  obtain ⟨rows'⟩ := after
  refine congrArg Frame.mk (Vector.ext fun y hy => Vector.ext fun x hx => ?_)
  exact h ⟨x, hx⟩ ⟨y, hy⟩

lemma flipCells_append (frame : Frame) (first second : List Cell) :
    (frame.flipCells (first ++ second)).1
      = ((frame.flipCells first).1.flipCells second).1 := by
  simp only [flipCells_fst, List.foldl_append]

/-- Only how often each cell comes up counts, not when. -/
lemma flipCells_perm (frame : Frame) {cells cells' : List Cell} (h : cells.Perm cells') :
    (frame.flipCells cells).1 = (frame.flipCells cells').1 := by
  refine ext_pixel fun x y => ?_
  rw [pixel_flipCells, pixel_flipCells, h.count_eq]

/-- Flipping the same cells twice, in any two orders, undoes itself. -/
lemma flipCells_twice (frame : Frame) {cells cells' : List Cell} (h : cells'.Perm cells) :
    (frame.flipCells (cells ++ cells')).1 = frame := by
  refine ext_pixel fun x y => ?_
  have heven : (cells ++ cells').count (x, y) % 2 = 0 := by
    rw [List.count_append, h.count_eq]
    omega
  rw [pixel_flipCells, heven]
  exact UInt8.xor_zero

/-- A byte without its lowest bit has it after a flip. -/
lemma lowest_xor_one {byte : UInt8} (h : ¬ byte &&& 1 = 1) : (byte ^^^ 1) &&& 1 = 1 := by
  have hparity : ∀ byte : UInt8, (byte &&& 1).toNat = byte.toNat % 2 := fun byte =>
    (UInt8.toNat_and byte 1).trans (Nat.and_one_is_mod byte.toNat)
  rw [← UInt8.toNat_inj, hparity, UInt8.toNat_one] at h ⊢
  rw [UInt8.toNat_xor, Nat.xor_mod_two_eq_one, UInt8.toNat_one]
  exact fun heq => h (heq.mpr rfl)

/-- Where no cell comes up twice, one of two equal rounds of flips meets a lit pixel, as soon as
there is a cell at all: a pixel that is dark in the first round is lit in the second. -/
lemma collided_flipCells_twice (frame : Frame) {cells : List Cell} (h : cells.Nodup) :
    ((frame.flipCells cells).2 || ((frame.flipCells cells).1.flipCells cells).2) = true ↔
      ∃ cell, cell ∈ cells := by
  rw [Bool.or_eq_true, collided_flipCells _ h, collided_flipCells _ h]
  constructor
  · rintro (⟨cell, hcell, -⟩ | ⟨cell, hcell, -⟩)
    · exact ⟨cell, hcell⟩
    · exact ⟨cell, hcell⟩
  · rintro ⟨cell, hcell⟩
    by_cases hlit : frame.pixel cell.1 cell.2 &&& 1 = 1
    · exact Or.inl ⟨cell, hcell, hlit⟩
    · refine Or.inr ⟨cell, hcell, ?_⟩
      have honce : cells.count (cell.1, cell.2) % 2 = 1 := by
        rw [h.count, if_pos hcell]
      rw [pixel_flipCells, honce]
      exact lowest_xor_one hlit

end Frame

namespace Sprite

lemma exists_mem_rowColumns {x : Nat} {row : UInt8} :
    (∃ column, column ∈ rowColumns x row) ↔ ∃ bit < 8, row.toNat.testBit bit = true := by
  simp only [rowColumns, List.mem_map, List.mem_filter, List.mem_range]
  constructor
  · rintro ⟨_, bit, ⟨-, hset⟩, -⟩
    exact ⟨7 - bit, by omega, hset⟩
  · rintro ⟨bit, hbit, hset⟩
    have hback : 7 - (7 - bit) = bit := by omega
    exact ⟨_, 7 - bit, ⟨by omega, by rw [hback, hset]⟩, rfl⟩

/-- A sprite has a cell as soon as one of the rows that count has a bit. -/
lemma exists_mem_cells {x y : UInt8} {rows : List UInt8} :
    (∃ cell, cell ∈ cells x y rows) ↔
      ∃ row ∈ rows.take spriteRowLimit, ∃ bit < 8, row.toNat.testBit bit = true := by
  simp only [cells, List.mem_flatMap, List.mem_map]
  constructor
  · rintro ⟨_, ⟨row, offset⟩, hrow, column, hcolumn, -⟩
    exact ⟨row, List.fst_mem_of_mem_zipIdx hrow, exists_mem_rowColumns.mp ⟨column, hcolumn⟩⟩
  · rintro ⟨row, hrow, hset⟩
    obtain ⟨offset, hoffset⟩ := List.getElem?_of_mem hrow
    obtain ⟨column, hcolumn⟩ := (exists_mem_rowColumns (x := x.toNat)).mpr hset
    exact ⟨_, (row, offset), List.mem_zipIdx_iff_getElem?.mpr hoffset, column, hcolumn, rfl⟩

end Sprite

namespace Screen

/-- The screen after the given drawings, one after the other. -/
def drawAll (screen : Screen) (drawings : List Drawing) : Screen :=
  drawings.foldl (fun screen drawing => (screen.draw drawing.x drawing.y drawing.rows).1) screen

lemma frame_drawAll (screen : Screen) (drawings : List Drawing) :
    (screen.drawAll drawings).frame
      = (screen.frame.flipCells (drawings.flatMap Drawing.cells)).1 := by
  induction drawings generalizing screen with
  | nil => rfl
  | cons drawing drawings ih =>
    rw [List.flatMap_cons, Frame.flipCells_append]
    exact ih (screen.draw drawing.x drawing.y drawing.rows).1

/-- Any order of the same drawings leaves the same frame, and drawing them all again, in any
order, brings the frame back that was there before.  Of two equal drawings in a row one reports a
collision exactly if a bit of the rows that count is set. -/
theorem drawings_commute_and_cancel (screen : Screen) (drawings : List Drawing) :
    (∀ drawings', drawings'.Perm drawings →
      (screen.drawAll drawings').frame = (screen.drawAll drawings).frame ∧
      ((screen.drawAll drawings).drawAll drawings').frame = screen.frame) ∧
    (∀ x y rows,
      ((screen.draw x y rows).2 || ((screen.draw x y rows).1.draw x y rows).2) = true ↔
        ∃ row ∈ rows.take spriteRowLimit, ∃ bit < 8, row.toNat.testBit bit = true) := by
  refine ⟨fun drawings' hperm => ?_, fun x y rows => ?_⟩
  · have hcells : (drawings'.flatMap Drawing.cells).Perm (drawings.flatMap Drawing.cells) :=
      hperm.flatMap_right Drawing.cells
    refine ⟨?_, ?_⟩
    · rw [frame_drawAll, frame_drawAll]
      exact screen.frame.flipCells_perm hcells
    · rw [frame_drawAll, frame_drawAll, ← Frame.flipCells_append]
      exact screen.frame.flipCells_twice hcells
  · rw [← Sprite.exists_mem_cells]
    exact screen.frame.collided_flipCells_twice (Sprite.nodup_cells x y rows)

/-- Two sprites that share a pixel beyond the right edge: the wide one reports a collision if it
comes second, and none if it comes first, but the frames are the same and both are gone when they
are drawn again. -/
theorem drawings_commute_and_cancel_overlapping :
    (Screen.initial.draw 63 31 [0xC0]).2 = false ∧
    ((Screen.initial.draw 0 31 [0x80]).1.draw 63 31 [0xC0]).2 = true ∧
    (Screen.initial.drawAll [⟨0, 31, [0x80]⟩, ⟨63, 31, [0xC0]⟩]).frame
      = (Screen.initial.drawAll [⟨63, 31, [0xC0]⟩, ⟨0, 31, [0x80]⟩]).frame ∧
    ((Screen.initial.drawAll [⟨63, 31, [0xC0]⟩, ⟨0, 31, [0x80]⟩]).drawAll
      [⟨0, 31, [0x80]⟩, ⟨63, 31, [0xC0]⟩]).frame = Frame.blank ∧
    ((Screen.initial.draw 63 31 [0xC0]).2
      || ((Screen.initial.draw 63 31 [0xC0]).1.draw 63 31 [0xC0]).2) = true := by
  obtain ⟨hswapped, htwice⟩ :=
    drawings_commute_and_cancel Screen.initial [⟨63, 31, [0xC0]⟩, ⟨0, 31, [0x80]⟩]
  obtain ⟨hframe, hblank⟩ := hswapped _ (List.Perm.swap _ _ [])
  have hfirst : (Screen.initial.draw 63 31 [0xC0]).2 ≠ true := by
    rw [ne_eq, collided_draw Frame.binary_blank]
    rintro ⟨cell, -, hlit⟩
    cases (Frame.pixel_blank cell.1 cell.2).symm.trans hlit
  have hshared : (Screen.initial.draw 0 31 [0x80]).1.frame.pixel ⟨0, by decide⟩ ⟨31, by decide⟩
      = 1 := by
    rw [pixel_draw]
    exact (congrArg (· ^^^ _) (Frame.pixel_blank _ _)).trans (by decide)
  have hsecond : ((Screen.initial.draw 0 31 [0x80]).1.draw 63 31 [0xC0]).2 = true :=
    (collided_draw (binary_draw Frame.binary_blank 0 31 [0x80]) 63 31 [0xC0]).mpr
      ⟨(⟨0, by decide⟩, ⟨31, by decide⟩), by decide, hshared⟩
  exact ⟨Bool.eq_false_iff.mpr hfirst, hsecond, hframe, hblank,
    (htwice 63 31 [0xC0]).mpr ⟨0xC0, by decide, 7, by decide, by decide⟩⟩

end Screen

end ChipVm
