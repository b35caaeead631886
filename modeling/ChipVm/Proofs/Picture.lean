/-
# Pictures of frames

A texture holds three colour bytes for each pixel, row after row, and it is copied row by row into
a buffer whose rows may stand further apart.  This file says which byte of either shows which
pixel, and that nothing else of the buffer is touched.

* Lists of one length, put one behind the other, are found again by their number: by dropping
  those before (`drop_flatMap`), byte by byte (`getElem?_flatMap`), or by cutting
  (`pieces_flatMap`).  A texture is made in two such layers, of colours and of rows, so this is
  where all its index arithmetic is done.
* Rows that start at least as far apart as they are long have no place in common.  What one of
  them has put into the buffer is therefore not touched by those after it (`copied_copyRows`).
* A pixel of a screen is 0 or 1, which is what keeps its brightness within a byte
  (`toNat_brightness`).
-/
import Mathlib.Tactic.Lemma
import ChipVm.Picture.Texture
import ChipVm.Proofs.LitPixels
import ChipVm.Proofs.Machine.Invariant

namespace ChipVm.Picture

/-! ## Lists of one length -/

section

variable {α β : Type} {n : Nat} {f : α → List β}

lemma drop_flatMap (h : ∀ a, (f a).length = n) (list : List α) (k : Nat) :
    (list.flatMap f).drop (k * n) = (list.drop k).flatMap f := by
  induction k generalizing list with
  | zero => simp
  | succ k ih =>
    cases list with
    | nil => simp
    | cons a list =>
      rw [List.flatMap_cons, Nat.succ_mul, Nat.add_comm, ← List.drop_drop,
        List.drop_left' (h a), ih, List.drop_succ_cons]

lemma length_flatMap (h : ∀ a, (f a).length = n) (list : List α) :
    (list.flatMap f).length = list.length * n := by
  induction list with
  | nil => simp
  | cons a list ih =>
    rw [List.flatMap_cons, List.length_append, h, ih, List.length_cons, Nat.succ_mul, Nat.add_comm]

lemma getElem?_flatMap (h : ∀ a, (f a).length = n) (list : List α) (i : Nat) {k : Nat}
    (hk : k < n) : (list.flatMap f)[i * n + k]? = list[i]?.bind fun a => (f a)[k]? := by
  have hhead : list[i]? = (list.drop i).head? := List.head?_drop.symm
  rw [← List.getElem?_drop, drop_flatMap h, hhead]
  cases list.drop i with
  | nil => rfl
  | cons a rest =>
    rw [List.flatMap_cons, List.getElem?_append_left (by rw [h]; exact hk)]
    rfl

/-- Cutting undoes joining. -/
lemma pieces_flatMap (h : ∀ a, (f a).length = n) (hn : 0 < n) (list : List α) :
    pieces n (list.flatMap f) = list.map f := by
  rw [pieces, length_flatMap h, Nat.mul_div_cancel _ hn]
  refine List.ext_getElem (by simp) fun k hk _ => ?_
  rw [List.length_map, List.length_range] at hk
  rw [List.getElem_map, List.getElem_range, drop_flatMap h, List.drop_eq_getElem_cons hk,
    List.flatMap_cons, List.take_left' (h _), List.getElem_map]

end

/-! ## Textures -/

variable {frame : Frame} {pixel : UInt8}

/-- The brightness of a dark or a lit pixel is a byte. -/
lemma toNat_brightness (h : pixel = 0 ∨ pixel = 1) :
    (brightness pixel).toNat = 255 * pixel.toNat := by
  rcases h with rfl | rfl <;> rfl

lemma length_colours (pixels : List UInt8) : (colours pixels).length = pixels.length * channels :=
  length_flatMap (fun _ => List.length_replicate) pixels

lemma getElem?_colours (pixels : List UInt8) (i : Nat) {c : Nat} (hc : c < channels) :
    (colours pixels)[i * channels + c]? = pixels[i]?.map brightness := by
  rw [colours, getElem?_flatMap (fun _ => List.length_replicate) pixels i hc]
  cases pixels[i]? with
  | none => rfl
  | some pixel => exact List.getElem?_replicate_of_lt hc

/-- The colour bytes of one row of a frame. -/
def rowColours (row : Vector UInt8 screenWidth) : List UInt8 := colours row.toList

lemma length_rowColours (row : Vector UInt8 screenWidth) : (rowColours row).length = 192 := by
  rw [rowColours, length_colours, Vector.length_toList]
  rfl

lemma texture_eq (frame : Frame) : texture frame = frame.rows.toList.flatMap rowColours := by
  rw [texture, Frame.pixels, colours, List.flatMap_assoc]
  rfl

lemma length_texture (frame : Frame) : (texture frame).length = 6144 := by
  rw [texture_eq, length_flatMap length_rowColours, Vector.length_toList]
  rfl

lemma getElem?_rows (frame : Frame) (y : Fin screenHeight) :
    frame.rows.toList[y.val]? = some (frame.rows.get y) := by
  rw [Vector.getElem?_toList, Vector.getElem?_eq_getElem y.isLt]
  rfl

/-- The colours of a pixel stand in the row of that pixel. -/
lemma place_in_row (x : Fin screenWidth) (c : Fin channels) : 3 * x.val + c.val < 192 := by
  have hx : x.val < 64 := x.isLt
  have hc : c.val < 3 := c.isLt
  omega

lemma getElem?_rowColours (frame : Frame) (x : Fin screenWidth) (y : Fin screenHeight)
    (c : Fin channels) :
    (rowColours (frame.rows.get y))[3 * x.val + c.val]? = some (brightness (frame.pixel x y)) := by
  rw [rowColours, Nat.mul_comm, getElem?_colours _ _ c.isLt, Vector.getElem?_toList,
    Vector.getElem?_eq_getElem x.isLt]
  rfl

lemma getElem?_texture (frame : Frame) (x : Fin screenWidth) (y : Fin screenHeight)
    (c : Fin channels) :
    (texture frame)[3 * (64 * y.val + x.val) + c.val]? = some (brightness (frame.pixel x y)) := by
  have hrow := place_in_row x c
  have hplace : 3 * (64 * y.val + x.val) + c.val = y.val * 192 + (3 * x.val + c.val) := by omega
  rw [texture_eq, hplace, getElem?_flatMap length_rowColours _ _ hrow, getElem?_rows,
    Option.bind_some, getElem?_rowColours]

/-- Frames of dark and lit pixels can be told apart by their textures. -/
lemma eq_of_texture_eq {other : Frame} (h : frame.Binary) (hother : other.Binary)
    (hsame : texture frame = texture other) : frame = other := by
  refine Frame.ext_pixel fun x y => UInt8.toNat_inj.mp ?_
  have hbytes := getElem?_texture frame x y ⟨0, by decide⟩
  rw [hsame, getElem?_texture] at hbytes
  have hlight := congrArg UInt8.toNat (Option.some.inj hbytes)
  rw [toNat_brightness (h x y), toNat_brightness (hother x y)] at hlight
  omega

/-! ## Copying -/

/-- From `start` on there are these rows now, `pitch` places apart and each of the same length, and
everywhere else what was there before. -/
structure Copied (pitch start length : Nat) (rows : List (List UInt8))
    (before after : List UInt8) : Prop where
  inside : ∀ k row, rows[k]? = some row → ∀ j < length, after[start + k * pitch + j]? = row[j]?
  outside : ∀ place, (∀ k < rows.length, ∀ j < length, place ≠ start + k * pitch + j) →
    after[place]? = before[place]?

/-- What fits is put in, and nothing else is changed. -/
lemma overwrite_of_le {buffer row : List UInt8} {start : Nat}
    (h : start + row.length ≤ buffer.length) :
    ∃ after, overwrite? buffer start row = some after ∧ after.length = buffer.length ∧
      (∀ j < row.length, after[start + j]? = row[j]?) ∧
      ∀ place, place < start ∨ start + row.length ≤ place → after[place]? = buffer[place]? := by
  have hbefore : (buffer.take start).length = start := by
    rw [List.length_take]
    omega
  refine ⟨_, if_pos h, ?_, ?_, ?_⟩
  · simp only [List.length_append, hbefore, List.length_drop]
    omega
  · intro j hj
    rw [List.append_assoc, List.getElem?_append_right (by omega), hbefore,
      List.getElem?_append_left (by omega), Nat.add_sub_cancel_left]
  · rintro place (hleft | hright)
    · rw [List.append_assoc, List.getElem?_append_left (by omega), List.getElem?_take_of_lt hleft]
    · rw [List.getElem?_append_right (by rw [List.length_append]; omega), List.length_append,
        hbefore, List.getElem?_drop, Nat.add_sub_cancel' hright]

lemma copied_copyRows {pitch start length : Nat} {rows : List (List UInt8)} {buffer : List UInt8}
    (hpitch : length ≤ pitch) (hrows : ∀ row ∈ rows, row.length = length)
    (hroom : ∀ k < rows.length, start + k * pitch + length ≤ buffer.length) :
    ∃ after, copyRows? pitch start rows buffer = some after ∧
      Copied pitch start length rows buffer after := by
  induction rows generalizing start buffer with
  | nil => exact ⟨buffer, rfl, nofun, fun _ _ => rfl⟩
  | cons first rows ih =>
    obtain ⟨rfl, hrest⟩ := List.forall_mem_cons.mp hrows
    have hfirst := hroom 0 (Nat.succ_pos rows.length)
    rw [Nat.zero_mul, Nat.add_zero] at hfirst
    obtain ⟨mid, hmid, hlength, hinside, houtside⟩ := overwrite_of_le hfirst
    have hplaces : ∀ k j, start + (k + 1) * pitch + j = start + pitch + k * pitch + j := by
      intro k j
      rw [Nat.succ_mul]
      omega
    have hroom' : ∀ k < rows.length, start + pitch + k * pitch + first.length ≤ mid.length := by
      intro k hk
      rw [hlength, ← hplaces]
      exact hroom (k + 1) (Nat.succ_lt_succ hk)
    obtain ⟨after, hafter, hcopied⟩ := ih hrest hroom'
    refine ⟨after, ?_, ?_, ?_⟩
    · rw [copyRows?, hmid]
      exact hafter
    · rintro (_ | k) row hrow j hj
      · obtain rfl := Option.some.inj hrow
        -- the rows after this one start where it has ended already
        rw [Nat.zero_mul, Nat.add_zero, hcopied.outside _ (by intros; omega), hinside j hj]
      · rw [hplaces]
        exact hcopied.inside k row hrow j hj
    · intro place hplace
      rw [hcopied.outside place fun k hk j hj => ?_, houtside place ?_]
      -- a place in none of the rows is not in the first of them either
      · by_contra hin
        exact hplace 0 (Nat.succ_pos rows.length) (place - start) (by omega) (by omega)
      · rw [← hplaces]
        exact hplace (k + 1) (Nat.succ_lt_succ hk) j hj

/-- The copy of a texture, into a buffer with room for its rows. -/
lemma copied_copyTexture (frame : Frame) {pitch : Nat} {buffer : List UInt8}
    (hpitch : 192 ≤ pitch) (hroom : 31 * pitch + 192 ≤ buffer.length) :
    ∃ after, copyTexture? frame pitch buffer = some after ∧
      Copied pitch 0 192 (frame.rows.toList.map rowColours) buffer after := by
  have hrows : pieces (screenWidth * channels) (texture frame)
      = frame.rows.toList.map rowColours := by
    rw [texture_eq]
    exact pieces_flatMap length_rowColours (by decide) _
  rw [copyTexture?, hrows]
  refine copied_copyRows hpitch ?_ ?_
  · intro row hrow
    obtain ⟨_, -, rfl⟩ := List.mem_map.mp hrow
    exact length_rowColours _
  · intro k hk
    rw [List.length_map, Vector.length_toList] at hk
    have hlast : k * pitch ≤ 31 * pitch := Nat.mul_le_mul_right pitch (Nat.le_of_lt_succ hk)
    omega

/-- Where the colour bytes of a pixel are in the copy. -/
lemma getElem?_of_copied {pitch : Nat} {before after : List UInt8}
    (h : Copied pitch 0 192 (frame.rows.toList.map rowColours) before after)
    (x : Fin screenWidth) (y : Fin screenHeight) (c : Fin channels) :
    after[y.val * pitch + 3 * x.val + c.val]? = some (brightness (frame.pixel x y)) := by
  have hrow : (frame.rows.toList.map rowColours)[y.val]?
      = some (rowColours (frame.rows.get y)) := by
    rw [List.getElem?_map, getElem?_rows, Option.map_some]
  have hbyte := h.inside y.val _ hrow _ (place_in_row x c)
  rwa [Nat.zero_add, ← Nat.add_assoc, getElem?_rowColours] at hbyte

/-- Every place of a row in the copy is that of a colour byte. -/
lemma getElem?_of_copied_of_ne {pitch : Nat} {before after : List UInt8}
    (h : Copied pitch 0 192 (frame.rows.toList.map rowColours) before after) {place : Nat}
    (hplace : ∀ (x : Fin screenWidth) (y : Fin screenHeight) (c : Fin channels),
      place ≠ y.val * pitch + 3 * x.val + c.val) : after[place]? = before[place]? := by
  refine h.outside place fun y hy j hj => ?_
  rw [List.length_map, Vector.length_toList] at hy
  have hx : j / 3 < screenWidth := show j / 3 < 64 by omega
  have hne := hplace ⟨j / 3, hx⟩ ⟨y, hy⟩ ⟨j % 3, Nat.mod_lt j (by decide)⟩
  dsimp only at hne
  omega

/-! ## Both together -/

/-- Frames of dark and lit pixels, and a reachable machine shows no others, are shown as they are.
No brightness runs over a byte, each colour byte of the texture has the brightness of its pixel,
and different frames have different textures.  In a buffer with room for rows that do not overlap
there is a place for each of these bytes, and no other place is changed. -/
theorem pictures_are_faithful :
    (∀ m : Machine, m.Reachable → m.screen.frame.Binary) ∧
    ∀ frame : Frame, frame.Binary →
      (∀ pixel ∈ frame.pixels, 255 * pixel.toNat < UInt8.size ∧
        (brightness pixel).toNat = 255 * pixel.toNat) ∧
      (texture frame).length = 6144 ∧
      (∀ (x : Fin screenWidth) (y : Fin screenHeight) (c : Fin channels),
        (texture frame)[3 * (64 * y.val + x.val) + c.val]?.map UInt8.toNat
          = some (255 * (frame.pixel x y).toNat)) ∧
      (∀ other : Frame, other.Binary → frame ≠ other → texture frame ≠ texture other) ∧
      ∀ (pitch : Nat) (buffer : List UInt8), 192 ≤ pitch → 31 * pitch + 192 ≤ buffer.length →
        ∃ after, copyTexture? frame pitch buffer = some after ∧
          (∀ (x : Fin screenWidth) (y : Fin screenHeight) (c : Fin channels),
            after[y.val * pitch + 3 * x.val + c.val]?.map UInt8.toNat
              = some (255 * (frame.pixel x y).toNat)) ∧
          ∀ place,
            (∀ (x : Fin screenWidth) (y : Fin screenHeight) (c : Fin channels),
              place ≠ y.val * pitch + 3 * x.val + c.val) →
            after[place]? = buffer[place]? := by
  refine ⟨fun m hm => hm.coherent.pixels, ?_⟩
  intro frame hbinary
  refine ⟨?_, length_texture frame, ?_, ?_, ?_⟩
  · intro pixel hpixel
    rw [Frame.pixels_eq] at hpixel
    obtain ⟨⟨x, y⟩, -, rfl⟩ := List.mem_map.mp hpixel
    have hexact := toNat_brightness (hbinary x y)
    refine ⟨?_, hexact⟩
    rw [← hexact]
    exact UInt8.toNat_lt _
  · intro x y c
    rw [getElem?_texture, Option.map_some, toNat_brightness (hbinary x y)]
  · intro other hother hne hsame
    exact hne (eq_of_texture_eq hbinary hother hsame)
  · intro pitch buffer hpitch hroom
    obtain ⟨after, hafter, hcopied⟩ := copied_copyTexture frame hpitch hroom
    refine ⟨after, hafter, ?_, fun place => getElem?_of_copied_of_ne hcopied⟩
    intro x y c
    rw [getElem?_of_copied hcopied, Option.map_some, toNat_brightness (hbinary x y)]

/-- A frame in which only the last pixel is lit. -/
def lastPixel : Frame := Frame.blank.flip ⟨63, by decide⟩ ⟨31, by decide⟩

/-- Its three bytes are the last of the texture.  In rows of 200 bytes they are the last of the
last row, and what stands between two rows or behind the last stays there. -/
theorem pictures_are_faithful_lastPixel :
    (Machine.ofConfig Config.standard 0).screen.frame.Binary ∧
    lastPixel.Binary ∧ Frame.blank.Binary ∧
    (texture lastPixel)[6140]?.map UInt8.toNat = some 0 ∧
    (texture lastPixel)[6143]?.map UInt8.toNat = some 255 ∧
    texture lastPixel ≠ texture Frame.blank ∧
    ∃ after, copyTexture? lastPixel 200 (List.replicate 6400 7) = some after ∧
      after[6391]?.map UInt8.toNat = some 255 ∧
      after[192]? = some 7 ∧ after[6392]? = some 7 := by
  have hbinary : lastPixel.Binary := Frame.binary_blank.flip _ _
  have hlit : lastPixel.pixel ⟨63, by decide⟩ ⟨31, by decide⟩ = 1 := by
    rw [lastPixel, Frame.pixel_flip, if_pos ⟨rfl, rfl⟩, Frame.pixel_blank]
    rfl
  have hdark : lastPixel.pixel ⟨62, by decide⟩ ⟨31, by decide⟩ = 0 := by
    rw [lastPixel, Frame.pixel_flip, if_neg (by decide), Frame.pixel_blank]
  have hne : lastPixel ≠ Frame.blank := by
    intro hsame
    rw [hsame, Frame.pixel_blank] at hlit
    cases hlit
  obtain ⟨hmachines, hframes⟩ := pictures_are_faithful
  obtain ⟨-, -, hbytes, hdistinct, hcopies⟩ := hframes lastPixel hbinary
  obtain ⟨after, hafter, hinside, houtside⟩ :=
    hcopies 200 (List.replicate 6400 7) (by decide) (by rw [List.length_replicate]; decide)
  refine ⟨hmachines _ (.start Config.standard 0), hbinary, Frame.binary_blank, ?_, ?_,
    hdistinct _ Frame.binary_blank hne, after, hafter, ?_, ?_, ?_⟩
  · exact (hbytes ⟨62, by decide⟩ ⟨31, by decide⟩ ⟨2, by decide⟩).trans (by rw [hdark]; rfl)
  · exact (hbytes ⟨63, by decide⟩ ⟨31, by decide⟩ ⟨2, by decide⟩).trans (by rw [hlit]; rfl)
  · simpa [hlit] using hinside ⟨63, by decide⟩ ⟨31, by decide⟩ ⟨2, by decide⟩
  · rw [houtside 192 ?_, List.getElem?_replicate_of_lt (by decide)]
    intro x y c
    have hrow := place_in_row x c
    rcases Nat.eq_zero_or_pos y.val with hfirst | hlater <;> omega
  · rw [houtside 6392 ?_, List.getElem?_replicate_of_lt (by decide)]
    intro x y c
    have hrow := place_in_row x c
    have hy : y.val < 32 := y.isLt
    omega

end ChipVm.Picture
