import Mathlib.Data.List.GetD
import Mathlib.Data.List.Infix
import SerialServer.Core.Machine
import SerialServer.Core.Scan

/-!
# SerialServer.Display.Font

The font of the display program `oled001.c`.

`Ascii_1` has 240 rows of five bytes, the columns of a character from left to right. The
comments in the source number the rows from 1; the first 94 of them are labelled with the
characters from `!` to `~`, in their order.

A program that walks over the table with a pointer sees one run of bytes. No five bytes in a
row that it can come to for a character are those of the character, but for the row itself
(`window_eq_row_iff`).
-/

namespace SerialServer.Oled

/-- `Ascii_1`. -/
def ascii1 : List (List Nat) :=
  [[0x00, 0x00, 0x4F, 0x00, 0x00], [0x00, 0x07, 0x00, 0x07, 0x00], [0x14, 0x7F, 0x14, 0x7F, 0x14],
   [0x24, 0x2A, 0x7F, 0x2A, 0x12], [0x23, 0x13, 0x08, 0x64, 0x62], [0x36, 0x49, 0x55, 0x22, 0x50],
   [0x00, 0x05, 0x03, 0x00, 0x00], [0x00, 0x1C, 0x22, 0x41, 0x00], [0x00, 0x41, 0x22, 0x1C, 0x00],
   [0x14, 0x08, 0x3E, 0x08, 0x14], [0x08, 0x08, 0x3E, 0x08, 0x08], [0x00, 0x50, 0x30, 0x00, 0x00],
   [0x08, 0x08, 0x08, 0x08, 0x08], [0x00, 0x60, 0x60, 0x00, 0x00], [0x20, 0x10, 0x08, 0x04, 0x02],
   [0x3E, 0x51, 0x49, 0x45, 0x3E], [0x00, 0x42, 0x7F, 0x40, 0x00], [0x42, 0x61, 0x51, 0x49, 0x46],
   [0x21, 0x41, 0x45, 0x4B, 0x31], [0x18, 0x14, 0x12, 0x7F, 0x10], [0x27, 0x45, 0x45, 0x45, 0x39],
   [0x3C, 0x4A, 0x49, 0x49, 0x30], [0x01, 0x71, 0x09, 0x05, 0x03], [0x36, 0x49, 0x49, 0x49, 0x36],
   [0x06, 0x49, 0x49, 0x29, 0x1E], [0x00, 0x36, 0x36, 0x00, 0x00], [0x00, 0x56, 0x36, 0x00, 0x00],
   [0x08, 0x14, 0x22, 0x41, 0x00], [0x14, 0x14, 0x14, 0x14, 0x14], [0x00, 0x41, 0x22, 0x14, 0x08],
   [0x02, 0x01, 0x51, 0x09, 0x06], [0x32, 0x49, 0x79, 0x41, 0x3E], [0x7E, 0x11, 0x11, 0x11, 0x7E],
   [0x7F, 0x49, 0x49, 0x49, 0x36], [0x3E, 0x41, 0x41, 0x41, 0x22], [0x7F, 0x41, 0x41, 0x22, 0x1C],
   [0x7F, 0x49, 0x49, 0x49, 0x41], [0x7F, 0x09, 0x09, 0x09, 0x01], [0x3E, 0x41, 0x49, 0x49, 0x7A],
   [0x7F, 0x08, 0x08, 0x08, 0x7F], [0x00, 0x41, 0x7F, 0x41, 0x00], [0x20, 0x40, 0x41, 0x3F, 0x01],
   [0x7F, 0x08, 0x14, 0x22, 0x41], [0x7F, 0x40, 0x40, 0x40, 0x40], [0x7F, 0x02, 0x0C, 0x02, 0x7F],
   [0x7F, 0x04, 0x08, 0x10, 0x7F], [0x3E, 0x41, 0x41, 0x41, 0x3E], [0x7F, 0x09, 0x09, 0x09, 0x06],
   [0x3E, 0x41, 0x51, 0x21, 0x5E], [0x7F, 0x09, 0x19, 0x29, 0x46], [0x46, 0x49, 0x49, 0x49, 0x31],
   [0x01, 0x01, 0x7F, 0x01, 0x01], [0x3F, 0x40, 0x40, 0x40, 0x3F], [0x1F, 0x20, 0x40, 0x20, 0x1F],
   [0x3F, 0x40, 0x38, 0x40, 0x3F], [0x63, 0x14, 0x08, 0x14, 0x63], [0x07, 0x08, 0x70, 0x08, 0x07],
   [0x61, 0x51, 0x49, 0x45, 0x43], [0x00, 0x7F, 0x41, 0x41, 0x00], [0x02, 0x04, 0x08, 0x10, 0x20],
   [0x00, 0x41, 0x41, 0x7F, 0x00], [0x04, 0x02, 0x01, 0x02, 0x04], [0x40, 0x40, 0x40, 0x40, 0x40],
   [0x01, 0x02, 0x04, 0x00, 0x00], [0x20, 0x54, 0x54, 0x54, 0x78], [0x7F, 0x48, 0x44, 0x44, 0x38],
   [0x38, 0x44, 0x44, 0x44, 0x20], [0x38, 0x44, 0x44, 0x48, 0x7F], [0x38, 0x54, 0x54, 0x54, 0x18],
   [0x08, 0x7E, 0x09, 0x01, 0x02], [0x06, 0x49, 0x49, 0x49, 0x3F], [0x7F, 0x08, 0x04, 0x04, 0x78],
   [0x00, 0x44, 0x7D, 0x40, 0x00], [0x20, 0x40, 0x44, 0x3D, 0x00], [0x7F, 0x10, 0x28, 0x44, 0x00],
   [0x00, 0x41, 0x7F, 0x40, 0x00], [0x7C, 0x04, 0x18, 0x04, 0x7C], [0x7C, 0x08, 0x04, 0x04, 0x78],
   [0x38, 0x44, 0x44, 0x44, 0x38], [0x7C, 0x14, 0x14, 0x14, 0x08], [0x08, 0x14, 0x14, 0x18, 0x7C],
   [0x7C, 0x08, 0x04, 0x04, 0x08], [0x48, 0x54, 0x54, 0x54, 0x20], [0x04, 0x3F, 0x44, 0x40, 0x20],
   [0x3C, 0x40, 0x40, 0x20, 0x7C], [0x1C, 0x20, 0x40, 0x20, 0x1C], [0x3C, 0x40, 0x30, 0x40, 0x3C],
   [0x44, 0x28, 0x10, 0x28, 0x44], [0x0C, 0x50, 0x50, 0x50, 0x3C], [0x44, 0x64, 0x54, 0x4C, 0x44],
   [0x00, 0x08, 0x36, 0x41, 0x00], [0x00, 0x00, 0x7F, 0x00, 0x00], [0x00, 0x41, 0x36, 0x08, 0x00],
   [0x02, 0x01, 0x02, 0x04, 0x02], [0x3E, 0x55, 0x55, 0x41, 0x22], [0x00, 0x00, 0x00, 0x00, 0x00],
   [0x00, 0x00, 0x79, 0x00, 0x00], [0x18, 0x24, 0x74, 0x2E, 0x24], [0x48, 0x7E, 0x49, 0x42, 0x40],
   [0x5D, 0x22, 0x22, 0x22, 0x5D], [0x15, 0x16, 0x7C, 0x16, 0x15], [0x00, 0x00, 0x77, 0x00, 0x00],
   [0x0A, 0x55, 0x55, 0x55, 0x28], [0x00, 0x01, 0x00, 0x01, 0x00], [0x00, 0x0A, 0x0D, 0x0A, 0x04],
   [0x08, 0x14, 0x2A, 0x14, 0x22], [0x04, 0x04, 0x04, 0x04, 0x1C], [0x00, 0x08, 0x08, 0x08, 0x00],
   [0x01, 0x01, 0x01, 0x01, 0x01], [0x00, 0x02, 0x05, 0x02, 0x00], [0x44, 0x44, 0x5F, 0x44, 0x44],
   [0x00, 0x00, 0x04, 0x02, 0x01], [0x7E, 0x20, 0x20, 0x10, 0x3E], [0x06, 0x0F, 0x7F, 0x00, 0x7F],
   [0x00, 0x18, 0x18, 0x00, 0x00], [0x00, 0x40, 0x50, 0x20, 0x00], [0x00, 0x0A, 0x0D, 0x0A, 0x00],
   [0x22, 0x14, 0x2A, 0x14, 0x08], [0x17, 0x08, 0x34, 0x2A, 0x7D], [0x17, 0x08, 0x04, 0x6A, 0x59],
   [0x30, 0x48, 0x45, 0x40, 0x20], [0x70, 0x29, 0x26, 0x28, 0x70], [0x70, 0x28, 0x26, 0x29, 0x70],
   [0x70, 0x2A, 0x25, 0x2A, 0x70], [0x72, 0x29, 0x26, 0x29, 0x70], [0x70, 0x29, 0x24, 0x29, 0x70],
   [0x70, 0x2A, 0x2D, 0x2A, 0x70], [0x7E, 0x11, 0x7F, 0x49, 0x49], [0x0E, 0x51, 0x51, 0x71, 0x11],
   [0x7C, 0x55, 0x56, 0x54, 0x44], [0x7C, 0x55, 0x56, 0x54, 0x44], [0x7C, 0x56, 0x55, 0x56, 0x44],
   [0x7C, 0x55, 0x54, 0x55, 0x44], [0x00, 0x45, 0x7E, 0x44, 0x00], [0x00, 0x44, 0x7E, 0x45, 0x00],
   [0x00, 0x46, 0x7D, 0x46, 0x00], [0x00, 0x45, 0x7C, 0x45, 0x00], [0x7F, 0x49, 0x49, 0x41, 0x3E],
   [0x7C, 0x0A, 0x11, 0x22, 0x7D], [0x38, 0x45, 0x46, 0x44, 0x38], [0x38, 0x44, 0x46, 0x45, 0x38],
   [0x38, 0x46, 0x45, 0x46, 0x38], [0x38, 0x46, 0x45, 0x46, 0x39], [0x38, 0x45, 0x44, 0x45, 0x38],
   [0x22, 0x14, 0x08, 0x14, 0x22], [0x2E, 0x51, 0x49, 0x45, 0x3A], [0x3C, 0x41, 0x42, 0x40, 0x3C],
   [0x3C, 0x40, 0x42, 0x41, 0x3C], [0x3C, 0x42, 0x41, 0x42, 0x3C], [0x3C, 0x41, 0x40, 0x41, 0x3C],
   [0x0C, 0x10, 0x62, 0x11, 0x0C], [0x7F, 0x12, 0x12, 0x12, 0x0C], [0x40, 0x3E, 0x01, 0x49, 0x36],
   [0x20, 0x55, 0x56, 0x54, 0x78], [0x20, 0x54, 0x56, 0x55, 0x78], [0x20, 0x56, 0x55, 0x56, 0x78],
   [0x20, 0x55, 0x56, 0x55, 0x78], [0x20, 0x55, 0x54, 0x55, 0x78], [0x20, 0x56, 0x57, 0x56, 0x78],
   [0x24, 0x54, 0x78, 0x54, 0x58], [0x0C, 0x52, 0x52, 0x72, 0x13], [0x38, 0x55, 0x56, 0x54, 0x18],
   [0x38, 0x54, 0x56, 0x55, 0x18], [0x38, 0x56, 0x55, 0x56, 0x18], [0x38, 0x55, 0x54, 0x55, 0x18],
   [0x00, 0x49, 0x7A, 0x40, 0x00], [0x00, 0x48, 0x7A, 0x41, 0x00], [0x00, 0x4A, 0x79, 0x42, 0x00],
   [0x00, 0x4A, 0x78, 0x42, 0x00], [0x31, 0x4A, 0x4E, 0x4A, 0x30], [0x7A, 0x11, 0x0A, 0x09, 0x70],
   [0x30, 0x49, 0x4A, 0x48, 0x30], [0x30, 0x48, 0x4A, 0x49, 0x30], [0x30, 0x4A, 0x49, 0x4A, 0x30],
   [0x30, 0x4A, 0x49, 0x4A, 0x31], [0x30, 0x4A, 0x48, 0x4A, 0x30], [0x08, 0x08, 0x2A, 0x08, 0x08],
   [0x38, 0x64, 0x54, 0x4C, 0x38], [0x38, 0x41, 0x42, 0x20, 0x78], [0x38, 0x40, 0x42, 0x21, 0x78],
   [0x38, 0x42, 0x41, 0x22, 0x78], [0x38, 0x42, 0x40, 0x22, 0x78], [0x0C, 0x50, 0x52, 0x51, 0x3C],
   [0x7E, 0x14, 0x14, 0x14, 0x08], [0x0C, 0x51, 0x50, 0x51, 0x3C], [0x1E, 0x09, 0x09, 0x29, 0x5E],
   [0x08, 0x15, 0x15, 0x35, 0x4E], [0x38, 0x44, 0x46, 0x45, 0x20], [0x30, 0x48, 0x4A, 0x49, 0x20],
   [0x38, 0x45, 0x46, 0x45, 0x20], [0x30, 0x49, 0x4A, 0x49, 0x20], [0x7C, 0x45, 0x46, 0x45, 0x38],
   [0x20, 0x50, 0x50, 0x7C, 0x03], [0x1F, 0x15, 0x15, 0x35, 0x51], [0x0E, 0x15, 0x15, 0x35, 0x46],
   [0x7C, 0x55, 0x56, 0x55, 0x44], [0x38, 0x55, 0x56, 0x55, 0x18], [0x00, 0x44, 0x7C, 0x40, 0x00],
   [0x7F, 0x48, 0x44, 0x40, 0x40], [0x00, 0x49, 0x7F, 0x44, 0x00], [0x7C, 0x08, 0x12, 0x21, 0x7C],
   [0x78, 0x10, 0x0A, 0x09, 0x70], [0x7C, 0x09, 0x12, 0x21, 0x7C], [0x78, 0x11, 0x0A, 0x09, 0x70],
   [0x38, 0x47, 0x44, 0x47, 0x38], [0x30, 0x4B, 0x48, 0x4B, 0x30], [0x3E, 0x41, 0x7F, 0x49, 0x49],
   [0x38, 0x44, 0x38, 0x54, 0x58], [0x7C, 0x15, 0x16, 0x35, 0x48], [0x78, 0x11, 0x0A, 0x09, 0x10],
   [0x48, 0x54, 0x56, 0x55, 0x20], [0x20, 0x48, 0x56, 0x55, 0x20], [0x48, 0x55, 0x56, 0x55, 0x20],
   [0x20, 0x49, 0x56, 0x55, 0x20], [0x04, 0x05, 0x7E, 0x05, 0x04], [0x08, 0x3C, 0x48, 0x22, 0x01],
   [0x3C, 0x42, 0x45, 0x42, 0x3C], [0x38, 0x42, 0x45, 0x22, 0x78], [0x3C, 0x43, 0x40, 0x43, 0x3C],
   [0x38, 0x43, 0x40, 0x23, 0x78], [0x0C, 0x11, 0x60, 0x11, 0x0C], [0x44, 0x66, 0x55, 0x4C, 0x44],
   [0x48, 0x6A, 0x59, 0x48, 0x00], [0x44, 0x64, 0x55, 0x4C, 0x44], [0x48, 0x68, 0x5A, 0x48, 0x00],
   [0x44, 0x65, 0x56, 0x4D, 0x44], [0x48, 0x69, 0x5A, 0x49, 0x00], [0x00, 0x02, 0x01, 0x02, 0x00],
   [0x00, 0x01, 0x02, 0x01, 0x00], [0x00, 0x01, 0x01, 0x01, 0x00], [0x01, 0x02, 0x02, 0x01, 0x00],
   [0x00, 0x00, 0x01, 0x00, 0x00], [0x00, 0x02, 0x05, 0x02, 0x00], [0x02, 0x01, 0x02, 0x01, 0x00],
   [0x7F, 0x05, 0x15, 0x3A, 0x50], [0x3E, 0x55, 0x55, 0x41, 0x22], [0x18, 0x14, 0x08, 0x14, 0x0C],
   [0x44, 0x4A, 0x4A, 0x51, 0x51], [0x51, 0x51, 0x4A, 0x4A, 0x44], [0x74, 0x42, 0x41, 0x42, 0x74]]

/-- The row that is labelled with a character. -/
def row (c : Char) : List Byte := (ascii1.getD (c.toNat - '!'.toNat) []).map (BitVec.ofNat 8)

/-- The size of the table in bytes. -/
def ascii1Size : Nat := 240 * 5

/-- The byte at a distance from the start of the table. What lies around the table is not part
of it. -/
def ascii1At (around : Int → Byte) (o : Int) : Byte :=
  if 0 ≤ o ∧ o < ascii1Size then BitVec.ofNat 8 (ascii1.flatten.getD o.toNat 0)
  else around o

/-- The five bytes from a distance on. -/
def window (around : Int → Byte) (o : Int) : List Byte :=
  (List.range 5).map fun k : Nat => ascii1At around (o + k)

/-- The characters of a dotted address. -/
def dotted : List Char := "0123456789.".toList

theorem length_flatten_ascii1 : ascii1.flatten.length = ascii1Size := by
  decide +kernel

/-- Inside the table a window is a part of it. -/
theorem window_eq (around : Int → Byte) {n : Nat} (hn : n + 5 ≤ ascii1Size) :
    window around n = ((ascii1.flatten.drop n).take 5).map (BitVec.ofNat 8) := by
  have hlen := length_flatten_ascii1
  apply List.ext_getElem
  · rw [window, List.length_map, List.length_range, List.length_map, List.length_take,
      List.length_drop]
    omega
  · intro k hk hk'
    rw [window, List.length_map, List.length_range] at hk
    have hin : (0 : Int) ≤ n + k ∧ (n + k : Int) < ascii1Size := by omega
    have hnat : ((n : Int) + k).toNat = n + k := by omega
    simp only [window, List.getElem_map, List.getElem_range, List.getElem_take, List.getElem_drop]
    rw [ascii1At, if_pos hin, hnat, List.getD_eq_getElem _ _ (by omega)]

/-- The rows of the eleven characters: five bytes each, which come up five bytes behind the start
of the row before them and nowhere else among the next 256. -/
theorem row_table : ∀ c ∈ dotted, c.toNat - '!'.toNat ≤ 24 ∧
    (ascii1.getD (c.toNat - '!'.toNat) []).length = 5 ∧
    (∀ n ∈ ascii1.getD (c.toNat - '!'.toNat) [], n < 256) ∧
    ((ascii1.flatten.drop (5 * (c.toNat - '!'.toNat - 1))).tails.take 256).findIdxs
      ((ascii1.getD (c.toNat - '!'.toNat) []).isPrefixOf ·) = [5] :=
  Scan.forall_mem_of_all (by decide +kernel)

theorem lt_of_mem_ascii1 : ∀ n ∈ ascii1.flatten, n < 256 := by
  decide +kernel

/-- Numbers below 256 are read back from bytes. -/
theorem map_toNat_ofNat {ns : List Nat} (h : ∀ n ∈ ns, n < 256) :
    (ns.map (BitVec.ofNat 8)).map BitVec.toNat = ns := by
  rw [List.map_map]
  refine (List.map_congr_left fun n hn => ?_).trans (List.map_id ns)
  exact Nat.mod_eq_of_lt (h n hn)

/-- **The bytes of a character are found in one place only** on the way of a pointer that starts
one row before them and is ahead by less than 256 bytes. -/
theorem window_eq_row_iff (around : Int → Byte) {c : Char} (hc : c ∈ dotted) {i : Nat}
    (hi : i < 256) :
    window around (5 * (c.toNat - '!'.toNat - 1) + i : Nat) = row c ↔ i = 5 := by
  obtain ⟨hrow, hlen, hbytes, hfound⟩ := row_table c hc
  have hsize := length_flatten_ascii1
  generalize hstart : 5 * (c.toNat - '!'.toNat - 1) = start at hfound ⊢
  generalize hw : ascii1.getD (c.toNat - '!'.toNat) [] = w at hlen hbytes hfound
  have hin : start + i + 5 ≤ ascii1Size := by
    rw [ascii1Size]
    omega
  have hi' : i < ((ascii1.flatten.drop start).tails.take 256).length := by
    rw [List.length_take, List.length_tails, List.length_drop, hsize]
    omega
  have hmem := List.mem_findIdxs_iff_pos_getElem hi' (p := (w.isPrefixOf ·))
  rw [hfound, List.mem_singleton, List.getElem_take, List.getElem_tails, List.drop_drop,
    List.isPrefixOf_iff_prefix, List.prefix_iff_eq_take, hlen] at hmem
  rw [window_eq around hin, row, hw]
  refine Iff.trans ⟨?_, ?_⟩ hmem.symm
  · intro h
    have hback := congrArg (List.map BitVec.toNat) h
    have hpart : ∀ n ∈ (ascii1.flatten.drop (start + i)).take 5, n < 256 := fun n hn =>
      lt_of_mem_ascii1 n (List.mem_of_mem_drop (List.mem_of_mem_take hn))
    rw [map_toNat_ofNat hpart, map_toNat_ofNat hbytes] at hback
    exact hback.symm
  · intro h
    rw [h]

end SerialServer.Oled
