/-
# Blocks of bytes

A few instructions read or write several bytes in a row, from where the index register points or
in V0..Vx.  This file says what such a block is, byte by byte: `Memory.slice` gives the bytes that
stand at its addresses, `Memory.write` puts bytes there and leaves all other addresses alone
(`Memory.Overwrites`), and `RegisterFile.setThrough` and `RegisterFile.valuesThrough` do the same
for V0..Vx.
-/
import Mathlib.Data.List.Nodup
import Mathlib.Tactic.Lemma
import ChipVm.Proofs.Instruction.RoundTrip
import ChipVm.Proofs.Machine.Failure

namespace ChipVm

/-! ## Blocks in memory -/

namespace Memory

variable {memory before after : Memory} {start length : Nat} {bytes : List UInt8}

/-- Memories in which the same bytes are read are the same. -/
lemma ext_read8 (h : ∀ address, before.read8 address = after.read8 address) : before = after := by
  obtain ⟨first⟩ := before
  obtain ⟨second⟩ := after
  refine congrArg Memory.mk (Vector.ext fun address hlt => ?_)
  have hbyte := h address
  rw [read8, read8, dif_pos hlt, dif_pos hlt] at hbyte
  exact Except.ok.inj hbyte

/-- From `start` on there are these bytes now, and everywhere else what was there before. -/
structure Overwrites (before : Memory) (start : Nat) (bytes : List UInt8) (after : Memory) :
    Prop where
  inside : ∀ k byte, bytes[k]? = some byte → after.read8 (start + k) = .ok byte
  outside : ∀ address, address < start ∨ start + bytes.length ≤ address →
    after.read8 address = before.read8 address

/-- The loop that writes byte by byte comes to an overwriting. -/
lemma overwrites_write (h : before.write start bytes = .ok () after) :
    before.Overwrites start bytes after := by
  induction bytes generalizing before start with
  | nil =>
    obtain ⟨-, rfl⟩ := EStateM.Result.ok.inj h
    exact ⟨nofun, fun _ _ => rfl⟩
  | cons byte rest ih =>
    rw [write] at h
    split at h
    · cases h
    · rename_i mid hfirst
      have hrest := ih h
      have hread := read8_of_write8 hfirst
      refine ⟨?_, ?_⟩
      · rintro (_ | k) value hvalue
        -- the first byte lies before those that are written after it
        · obtain rfl := Option.some.inj hvalue
          rw [Nat.add_zero, hrest.outside start (Or.inl (Nat.lt_succ_self start)), hread,
            if_pos rfl]
        · have hplace : start + (k + 1) = start + 1 + k := by omega
          rw [hplace]
          exact hrest.inside k value hvalue
      · intro address haddress
        rw [List.length_cons] at haddress
        rw [hrest.outside address (by omega), hread, if_neg (by omega)]

/-- To write what is there already changes nothing. -/
lemma Overwrites.eq_of_same (h : before.Overwrites start bytes after)
    (hsame : ∀ k byte, bytes[k]? = some byte → before.read8 (start + k) = .ok byte) :
    after = before := by
  refine ext_read8 fun address => ?_
  by_cases hinside : start ≤ address ∧ address < start + bytes.length
  · obtain ⟨k, rfl⟩ := Nat.exists_eq_add_of_le hinside.1
    have hbyte := List.getElem?_eq_getElem (show k < bytes.length by omega)
    rw [h.inside k _ hbyte, hsame k _ hbyte]
  · exact h.outside address (by omega)

lemma length_of_slice (h : memory.slice start length = .ok bytes) : bytes.length = length := by
  have hfits := le_of_slice_ok h
  rw [slice, if_pos hfits] at h
  obtain rfl := Except.ok.inj h
  rw [Array.length_toList, Array.size_extract, Vector.size_toArray]
  omega

lemma read8_of_slice (h : memory.slice start length = .ok bytes) {k : Nat} {byte : UInt8}
    (hbyte : bytes[k]? = some byte) : memory.read8 (start + k) = .ok byte := by
  have hfits := le_of_slice_ok h
  have hk : k < length := by
    rw [← length_of_slice h]
    exact (List.getElem?_eq_some_iff.mp hbyte).1
  rw [slice, if_pos hfits] at h
  obtain rfl := Except.ok.inj h
  rw [Array.getElem?_toList, Array.getElem?_extract, if_pos (by rw [Vector.size_toArray]; omega),
    Vector.getElem?_toArray] at hbyte
  obtain ⟨hinside, rfl⟩ := Vector.getElem?_eq_some_iff.mp hbyte
  exact dif_pos hinside

end Memory

/-! ## Blocks of registers -/

namespace Register

lemma ofNat_index (z : Register) : ofNat z.index.val = z :=
  ofNat_eq (Nat.mod_eq_of_lt z.val_index_lt)

lemma length_through (x : Register) : x.through.length = x.index.val + 1 := by
  rw [through, List.length_map, List.length_range]

/-- V0..Vx are the registers up to Vx, each at its own place. -/
lemma getElem?_through {x z : Register} {k : Nat} :
    x.through[k]? = some z ↔ k = z.index.val ∧ z.index ≤ x.index := by
  have hx := x.val_index_lt
  rw [through, List.getElem?_map, Option.map_eq_some_iff]
  constructor
  · rintro ⟨n, hn, rfl⟩
    obtain ⟨hk, rfl⟩ := List.getElem?_eq_some_iff.mp hn
    rw [List.length_range] at hk
    have hplace : (ofNat k).index.val = k := Nat.mod_eq_of_lt (by omega)
    rw [List.getElem_range, Fin.le_def, hplace]
    omega
  · rintro ⟨rfl, hz⟩
    exact ⟨z.index.val, List.getElem?_range (Nat.lt_succ_of_le hz), z.ofNat_index⟩

lemma mem_through {x z : Register} : z ∈ x.through ↔ z.index ≤ x.index := by
  rw [List.mem_iff_getElem?]
  simp only [getElem?_through, exists_eq_left]

lemma nodup_through (x : Register) : x.through.Nodup := by
  refine List.Nodup.map_on ?_ List.nodup_range
  intro j hj k hk hsame
  have hx := x.val_index_lt
  rw [List.mem_range] at hj hk
  have hplaces : j % 0x10 = k % 0x10 := congrArg (fun z => z.index.val) hsame
  omega

end Register

namespace RegisterFile

variable {file : RegisterFile} {x z : Register} {bytes : List UInt8} {byte : UInt8}
  {pairs : List (Register × UInt8)}

lemma get_foldl_set_of_ne (file : RegisterFile) (h : ∀ pair ∈ pairs, pair.1 ≠ z) :
    (pairs.foldl (fun file (r, byte) => file.set r byte) file).get z = file.get z := by
  induction pairs generalizing file with
  | nil => rfl
  | cons pair pairs ih =>
    obtain ⟨hfirst, hrest⟩ := List.forall_mem_cons.mp h
    exact (ih (file.set pair.1 pair.2) hrest).trans (file.get_set_of_ne pair.2 hfirst)

/-- A register that is set once keeps what it was set to. -/
lemma get_foldl_set_of_mem (file : RegisterFile) (hnodup : (pairs.map Prod.fst).Nodup)
    (h : (z, byte) ∈ pairs) :
    (pairs.foldl (fun file (r, byte) => file.set r byte) file).get z = byte := by
  induction pairs generalizing file with
  | nil => cases h
  | cons pair pairs ih =>
    obtain ⟨hfresh, hrest⟩ := List.nodup_cons.mp hnodup
    rcases List.mem_cons.mp h with rfl | hlater
    · have hothers : ∀ other ∈ pairs, other.1 ≠ z := by
        rintro other hother rfl
        exact hfresh (List.mem_map.mpr ⟨other, hother, rfl⟩)
      exact (get_foldl_set_of_ne (file.set z byte) hothers).trans (file.get_set_self z byte)
    · exact ih (file.set pair.1 pair.2) hrest hlater

lemma get_setThrough_of_lt (file : RegisterFile) (bytes : List UInt8) (h : x.index < z.index) :
    (file.setThrough x bytes).get z = file.get z := by
  refine get_foldl_set_of_ne file ?_
  rintro pair hpair rfl
  exact absurd (Register.mem_through.mp (List.of_mem_zip hpair).1) (Fin.not_le.mpr h)

lemma get_setThrough_of_le (file : RegisterFile) (hlength : bytes.length = x.index.val + 1)
    (hz : z.index ≤ x.index) (hbyte : bytes[z.index.val]? = some byte) :
    (file.setThrough x bytes).get z = byte := by
  refine get_foldl_set_of_mem file ?_ ?_
  · rw [List.map_fst_zip (Nat.le_of_eq (x.length_through.trans hlength.symm))]
    exact x.nodup_through
  · exact List.mem_iff_getElem?.mpr
      ⟨z.index.val, List.getElem?_zip_eq_some.mpr ⟨Register.getElem?_through.mpr ⟨rfl, hz⟩, hbyte⟩⟩

lemma getElem?_valuesThrough {k : Nat} :
    (file.valuesThrough x)[k]? = some byte ↔
      ∃ z : Register, k = z.index.val ∧ z.index ≤ x.index ∧ file.get z = byte := by
  rw [valuesThrough, List.getElem?_map, Option.map_eq_some_iff]
  simp only [Register.getElem?_through, and_assoc]

/-- V0..Vx are the first registers of the file. -/
lemma valuesThrough_eq_take (file : RegisterFile) (x : Register) :
    file.valuesThrough x = file.v.toList.take (x.index.val + 1) := by
  refine List.ext_getElem? fun k => Option.ext fun byte => ?_
  rw [getElem?_valuesThrough, List.getElem?_take, Option.ite_none_right_eq_some,
    Vector.getElem?_toList, Vector.getElem?_eq_some_iff]
  constructor
  · rintro ⟨z, rfl, hz, rfl⟩
    exact ⟨Nat.lt_succ_of_le hz, z.index.isLt, rfl⟩
  · rintro ⟨hk, hlt, rfl⟩
    exact ⟨⟨k, hlt⟩, rfl, Nat.le_of_lt_succ hk, rfl⟩

end RegisterFile

end ChipVm
