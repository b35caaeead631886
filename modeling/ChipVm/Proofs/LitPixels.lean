/-
# The lit pixels are accounted for

A drawing lights the dark pixels under the set bits of a sprite and puts out the lit ones.  Since
no cell comes up twice, every set bit of the rows that count stands over a pixel of its own, so
the numbers balance: what is lit afterwards, and twice what was put out, is what was lit before
together with the bits of the sprite (`Screen.lit_is_conserved`).

* The pixels of a frame, in the order in which they are counted, are those of its cells row after
  row (`Frame.pixels_eq`), so the count is the size of the set of lit cells (`Frame.card_litCells`).
* The cells that are lit after a drawing are those that are either lit before or under a set bit,
  but not both (`Screen.litCells_draw`), and the cells that are both are those that are put out
  (`Screen.putOut_draw`).
-/
import Mathlib.Data.Finset.SymmDiff
import Mathlib.Data.Fintype.Prod
import Mathlib.Data.List.FinRange
import ChipVm.Proofs.Drawing

namespace ChipVm

open scoped symmDiff

namespace Frame

/-! ## Counting lit pixels -/

/-- The cells of the screen row after row, each row from left to right. -/
def cells : List Cell :=
  (List.finRange screenHeight).flatMap fun y => (List.finRange screenWidth).map fun x => (x, y)

lemma mem_cells (cell : Cell) : cell ∈ cells := by
  simp only [cells, List.mem_flatMap, List.mem_map, List.mem_finRange, true_and]
  exact ⟨cell.2, cell.1, rfl⟩

lemma nodup_cells : cells.Nodup := by
  refine List.nodup_flatMap.mpr ⟨?_, ?_⟩
  · intro y _
    exact (List.nodup_finRange screenWidth).map fun _ _ h => congrArg Prod.fst h
  -- different rows have no cell in common
  · refine (List.nodup_finRange screenHeight).imp ?_
    intro y y' hne cell hmem hmem'
    obtain ⟨_, -, rfl⟩ := List.mem_map.mp hmem
    obtain ⟨_, -, hsame⟩ := List.mem_map.mp hmem'
    exact hne (congrArg Prod.snd hsame).symm

lemma toList_eq_map_finRange {α : Type} {n : Nat} (row : Vector α n) :
    row.toList = (List.finRange n).map fun x => row[x.val] := by
  have hrow : row.toList = (Vector.ofFn fun x : Fin n => row[x.val]).toList := by
    rw [Vector.ofFn_getElem]
  rw [hrow, Vector.toList_ofFn, List.ofFn_eq_map]

lemma pixels_eq (frame : Frame) :
    frame.pixels = cells.map fun cell => frame.pixel cell.1 cell.2 := by
  simp only [pixels, cells, toList_eq_map_finRange, List.flatMap_map, List.map_flatMap,
    List.map_map]
  rfl

/-- The cells whose pixel is lit. -/
def litCells (frame : Frame) : Finset Cell :=
  Finset.univ.filter fun cell => frame.pixel cell.1 cell.2 = 1

@[simp] lemma mem_litCells {frame : Frame} {cell : Cell} :
    cell ∈ frame.litCells ↔ frame.pixel cell.1 cell.2 = 1 := by
  simp [litCells]

lemma card_litCells (frame : Frame) : frame.litCells.card = frame.lit := by
  have hset : frame.litCells
      = (cells.filter fun cell => frame.pixel cell.1 cell.2 == 1).toFinset := by
    ext cell
    simp [mem_cells]
  rw [hset, List.toFinset_card_of_nodup (nodup_cells.filter _), ← List.countP_eq_length_filter,
    lit, pixels_eq, List.count_eq_countP, List.countP_map]
  rfl

@[simp] lemma lit_blank : blank.lit = 0 := by
  rw [← card_litCells, Finset.card_eq_zero]
  ext cell
  simp

/-- The cells whose pixel is lit in the one frame and dark in the other. -/
def putOut (before after : Frame) : Finset Cell :=
  Finset.univ.filter fun cell =>
    before.pixel cell.1 cell.2 = 1 ∧ after.pixel cell.1 cell.2 = 0

@[simp] lemma mem_putOut {before after : Frame} {cell : Cell} :
    cell ∈ before.putOut after ↔
      before.pixel cell.1 cell.2 = 1 ∧ after.pixel cell.1 cell.2 = 0 := by
  simp [putOut]

end Frame

/-! ## Counting the bits of a sprite -/

namespace Sprite

/-- The number of set bits in the rows of a sprite that count. -/
def setBits (rows : List UInt8) : Nat :=
  ((rows.take spriteRowLimit).map fun row => (List.range 8).countP row.toNat.testBit).sum

lemma length_rowColumns (x : Nat) (row : UInt8) :
    (rowColumns x row).length = (List.range 8).countP row.toNat.testBit := by
  have hmirror : (List.range 8).reverse = (List.range 8).map fun bit => 7 - bit := by decide
  rw [rowColumns, List.length_map, ← List.countP_eq_length_filter,
    ← (List.reverse_perm (List.range 8)).countP_eq row.toNat.testBit, hmirror, List.countP_map]
  rfl

/-- Every set bit that counts stands over one cell. -/
lemma length_cells (x y : UInt8) (rows : List UInt8) : (cells x y rows).length = setBits rows := by
  have hrows : ((rows.take spriteRowLimit).zipIdx.map fun entry =>
      (List.range 8).countP entry.1.toNat.testBit)
        = (rows.take spriteRowLimit).map fun row => (List.range 8).countP row.toNat.testBit := by
    conv_rhs => rw [← List.zipIdx_map_fst 0 (rows.take spriteRowLimit), List.map_map]
    rfl
  rw [cells, List.length_flatMap, setBits, ← hrows]
  simp only [List.length_map, length_rowColumns]

end Sprite

/-! ## The balance of a drawing -/

namespace Screen

variable {screen : Screen}

/-- Drawing lights what is dark and puts out what is lit under the bits of the sprite. -/
lemma litCells_draw (h : screen.frame.Binary) (x y : UInt8) (rows : List UInt8) :
    (screen.draw x y rows).1.frame.litCells
      = screen.frame.litCells ∆ (Sprite.cells x y rows).toFinset := by
  ext cell
  rw [Finset.mem_symmDiff, Frame.mem_litCells, Frame.mem_litCells, List.mem_toFinset,
    Sprite.mem_cells, pixel_draw]
  rcases h cell.1 cell.2 with hdark | hlit
  · rw [hdark]
    cases Sprite.bitAt x y rows cell <;> decide
  · rw [hlit]
    cases Sprite.bitAt x y rows cell <;> decide

lemma putOut_draw (screen : Screen) (x y : UInt8) (rows : List UInt8) :
    screen.frame.putOut (screen.draw x y rows).1.frame
      = screen.frame.litCells ∩ (Sprite.cells x y rows).toFinset := by
  ext cell
  rw [Finset.mem_inter, Frame.mem_litCells, Frame.mem_putOut, List.mem_toFinset,
    Sprite.mem_cells, pixel_draw]
  refine and_congr_right fun hlit => ?_
  rw [hlit]
  cases Sprite.bitAt x y rows cell <;> decide

lemma lit_draw (h : screen.frame.Binary) (x y : UInt8) (rows : List UInt8) :
    (screen.draw x y rows).1.frame.lit
        + 2 * (screen.frame.putOut (screen.draw x y rows).1.frame).card
      = screen.frame.lit + Sprite.setBits rows := by
  have hbits : (Sprite.cells x y rows).toFinset.card = Sprite.setBits rows := by
    rw [List.toFinset_card_of_nodup (Sprite.nodup_cells x y rows), Sprite.length_cells]
  rw [← Frame.card_litCells, ← Frame.card_litCells, litCells_draw h, putOut_draw, ← hbits]
  generalize screen.frame.litCells = lit
  generalize (Sprite.cells x y rows).toFinset = bits
  have hunion : (lit ∆ bits).card = (lit \ bits).card + (bits \ lit).card :=
    Finset.card_union_of_disjoint disjoint_sdiff_sdiff
  have hlit := Finset.card_sdiff_add_card_inter lit bits
  have hbits := Finset.card_sdiff_add_card_inter bits lit
  rw [Finset.inter_comm] at hbits
  omega

lemma collided_iff_putOut (h : screen.frame.Binary) (x y : UInt8) (rows : List UInt8) :
    (screen.draw x y rows).2 = true ↔
      0 < (screen.frame.putOut (screen.draw x y rows).1.frame).card := by
  rw [collided_draw h, Finset.card_pos, putOut_draw]
  refine exists_congr fun cell => ?_
  rw [Finset.mem_inter, Frame.mem_litCells, List.mem_toFinset, Sprite.mem_cells, and_comm]

/-- The pixels that are lit after a drawing, and twice those that it puts out, are as many as the
pixels that were lit before and the bits of the sprite that count.  A collision is reported
exactly if a pixel is put out, so none is reported exactly if every bit lights a pixel. -/
theorem lit_is_conserved (screen : Screen) (hbinary : screen.frame.Binary) (x y : UInt8)
    (rows : List UInt8) :
    (screen.draw x y rows).1.frame.lit
        + 2 * (screen.frame.putOut (screen.draw x y rows).1.frame).card
      = screen.frame.lit + Sprite.setBits rows ∧
    ((screen.draw x y rows).2 = true ↔
      0 < (screen.frame.putOut (screen.draw x y rows).1.frame).card) ∧
    ((screen.draw x y rows).2 = false ↔
      (screen.draw x y rows).1.frame.lit = screen.frame.lit + Sprite.setBits rows) := by
  have hbalance := lit_draw hbinary x y rows
  have hcollided := collided_iff_putOut hbinary x y rows
  refine ⟨hbalance, hcollided, ?_⟩
  rw [← Bool.not_eq_true, hcollided]
  omega

/-- A sprite across the right edge lights its nine bits on a blank screen, and puts all nine
pixels out when it is drawn once more. -/
theorem lit_is_conserved_twice :
    (Screen.initial.draw 62 31 [0xFF, 0x80]).1.frame.Binary ∧
    (Screen.initial.draw 62 31 [0xFF, 0x80]).2 = false ∧
    (Screen.initial.draw 62 31 [0xFF, 0x80]).1.frame.lit = 9 ∧
    ((Screen.initial.draw 62 31 [0xFF, 0x80]).1.draw 62 31 [0xFF, 0x80]).2 = true ∧
    ((Screen.initial.draw 62 31 [0xFF, 0x80]).1.frame.putOut
      ((Screen.initial.draw 62 31 [0xFF, 0x80]).1.draw 62 31 [0xFF, 0x80]).1.frame).card = 9 ∧
    ((Screen.initial.draw 62 31 [0xFF, 0x80]).1.draw 62 31 [0xFF, 0x80]).1.frame.lit = 0 := by
  have hbits : Sprite.setBits [0xFF, 0x80] = 9 := by decide
  have hblank : Screen.initial.frame.lit = 0 := Frame.lit_blank
  have hbinary : (Screen.initial.draw 62 31 [0xFF, 0x80]).1.frame.Binary :=
    binary_draw Frame.binary_blank 62 31 [0xFF, 0x80]
  obtain ⟨hfirst, hcollided, -⟩ :=
    lit_is_conserved Screen.initial Frame.binary_blank 62 31 [0xFF, 0x80]
  obtain ⟨hsecond, hcollided', -⟩ := lit_is_conserved _ hbinary 62 31 [0xFF, 0x80]
  have hdark : (Screen.initial.frame.putOut
      (Screen.initial.draw 62 31 [0xFF, 0x80]).1.frame).card = 0 := by
    rw [Finset.card_eq_zero, putOut_draw]
    ext cell
    simp [Screen.initial]
  have hgone : ((Screen.initial.draw 62 31 [0xFF, 0x80]).1.draw 62 31 [0xFF, 0x80]).1.frame
      = Frame.blank := by
    have htwice := Screen.initial.frame.flipCells_twice
      (List.Perm.refl (Sprite.cells 62 31 [0xFF, 0x80]))
    rwa [Frame.flipCells_append] at htwice
  rw [hgone, Frame.lit_blank] at hsecond ⊢
  refine ⟨hbinary, ?_, ?_, hcollided'.mpr ?_, ?_, rfl⟩
  · rw [← Bool.not_eq_true, hcollided]
    omega
  · omega
  · rw [hgone]
    omega
  · omega

end Screen

end ChipVm
