import SerialServer.Core.Hex
import SerialServer.Core.Inet
import SerialServer.Display.Font

/-!
# SerialServer.Display.Oled

How `oled001.c` shows an address.

The program turns each character of the address into a row number of the font (`a2n`) and shows
the rows one after the other (`Show_String`, `Show_Font57`), each five columns wide and followed
by an empty one. The display counts its columns itself; the program sets page and column at the
start of every character.

The row numbers of `a2n` are one too low for a font whose rows are numbered from 1. And the
pointer into the font starts at a column `i` that has not been set. The two make up for each
other when the stack holds a 5 there (`shows_iff`), which is what the loop of the call before
has left, if nothing has changed it since. That call is why `Show_String` shows a blank first.
-/

namespace SerialServer.Oled

open Scan

/-! ### The display -/

/-- A byte that is written to the memory of the display. -/
structure Cell where
  page : Nat
  column : Nat
  data : Byte
  deriving Repr, DecidableEq

/-- Where the display writes next. -/
structure Display where
  page : Nat
  column : Nat
  deriving Repr, DecidableEq

/-- `Write_Command`: the commands that set the low and the high half of the column, and the
page. The others leave both alone. -/
def writeCommand (disp : Display) (cmd : Byte) : Display :=
  if cmd.toNat < 0x10 then { disp with column := disp.column / 16 * 16 + cmd.toNat }
  else if cmd.toNat < 0x20 then { disp with column := (cmd.toNat - 0x10) * 16 + disp.column % 16 }
  else if 0xb0 ≤ cmd.toNat ∧ cmd.toNat < 0xb8 then { disp with page := cmd.toNat - 0xb0 }
  else disp

/-- `Write_Data`. -/
def writeData (disp : Display) (data : Byte) : Display × Cell :=
  ({ disp with column := disp.column + 1 }, ⟨disp.page, disp.column, data⟩)

/-- `Set_Start_Column`. -/
def setStartColumn (disp : Display) (d : Byte) : Display :=
  writeCommand (writeCommand disp (0x00 + d % 16)) (0x10 + d / 16)

/-- `Set_Start_Page`. -/
def setStartPage (disp : Display) (d : Byte) : Display := writeCommand disp (0xb0 ||| d)

/-- A run of calls of `Write_Data`. -/
def writeDatas (disp : Display) : List Byte → Display × List Cell
  | [] => (disp, [])
  | b :: bs =>
      let (disp, cell) := writeData disp b
      let (disp, cells) := writeDatas disp bs
      (disp, cell :: cells)

/-! ### Showing text -/

/-- `a2n`. -/
def a2n (a : Word) : Word :=
  if 0x0ff &&& a = 0x2e then 13
  else if 0x0ff &&& a = 0x2f then 14
  else a - 0x30 + 15

/-- What `main` makes of a text: `szipn[i] = a2n(0x0ff & szip[i])`, and a 0 behind it. -/
def converted (m : Machine) (sz : List Byte) : List Byte :=
  sz.map (fun c => (a2n (m.lowByte c)).setWidth 8) ++ [0]

/-- `&Ascii_1[(b-1)][i]`, as a distance from the start of the table. -/
def srcPointer (b i : Byte) : Int := 5 * ((b.toNat : Int) - 1) + i.toNat

/-- The distances at which `Show_Font57` reads. -/
def reads (b i : Byte) : List Int := (List.range 5).map fun k : Nat => srcPointer b i + k

/-- `Show_Font57` for database 1, where the stack holds `i` at first: what is written. -/
def showFont57 (around : Int → Byte) (i b c d : Byte) (disp : Display) : Display × List Cell :=
  let disp := setStartPage disp c
  let disp := setStartColumn disp d
  writeDatas disp (window around (srcPointer b i) ++ [0x00])

/-- The loop of `Show_String`, from call number `n` on; `entry` says what `i` is on entry of each
call. The result is what each call writes. -/
def showLoop (around : Int → Byte) (entry : Nat → Byte) (b : Byte) :
    Nat → List Byte → Byte → Display → Display × List (List Cell)
  | _, [], _, disp => (disp, [])
  | n, x :: xs, c, disp =>
      let (disp, cells) := showFont57 around (entry n) x b c disp
      let c := c + 6
      if xs.head? = some 0 then (disp, [cells])
      else
        let (disp, calls) := showLoop around entry b (n + 1) xs c disp
        (disp, cells :: calls)

/-- `Show_String` for database 1. -/
def showString (around : Int → Byte) (entry : Nat → Byte) (data : List Byte) (b c : Byte)
    (disp : Display) : Display × List (List Cell) :=
  let (disp, cells) := showFont57 around (entry 0) 96 b c disp
  let (disp, calls) := showLoop around entry b 1 data c disp
  (disp, cells :: calls)

/-- `XLevel`, made of `XLevelH` and `XLevelL`. -/
def xLevel : Byte := (0x10 &&& 0x0f) * 16 + 0x00

/-- What is written for a text: `Show_String(1, szipn, page, XLevel + 0x16)`. -/
def shown (m : Machine) (around : Int → Byte) (entry : Nat → Byte) (page : Fin 8)
    (sz : List Char) (disp : Display) : List (List Cell) :=
  (showString around entry (converted m (bytes sz)) (BitVec.ofNat 8 page) (xLevel + 0x16) disp).2

/-! ### What one call writes -/

/-- Bytes in the columns from `column` on. -/
def cells (page column : Nat) : List Byte → List Cell
  | [] => []
  | b :: bs => ⟨page, column, b⟩ :: cells page (column + 1) bs

theorem writeDatas_eq (disp : Display) (bs : List Byte) :
    writeDatas disp bs =
      ({ disp with column := disp.column + bs.length }, cells disp.page disp.column bs) := by
  induction bs generalizing disp with
  | nil => rfl
  | cons b bs ih =>
    rw [writeDatas, writeData]
    dsimp only
    rw [ih, List.length_cons, cells]
    dsimp only
    rw [Nat.add_right_comm, Nat.add_assoc]

/-- The two halves make up the column. -/
theorem setStartColumn_eq (disp : Display) (d : Byte) :
    setStartColumn disp d = { disp with column := d.toNat } := by
  have hd := d.isLt
  have hlow : (0x00 + d % 16 : Byte).toNat = d.toNat % 16 := by simp
  have hhigh : (0x10 + d / 16 : Byte).toNat = 16 + d.toNat / 16 := by
    rw [BitVec.toNat_add, BitVec.toNat_udiv]
    exact Nat.mod_eq_of_lt (by simp; omega)
  rw [setStartColumn, writeCommand, hhigh, if_neg (by omega), if_pos (by omega), writeCommand,
    hlow, if_pos (by omega)]
  dsimp only
  congr 1
  omega

theorem setStartPage_eq (disp : Display) (page : Fin 8) :
    setStartPage disp (BitVec.ofNat 8 page) = { disp with page := page } := by
  have hpage : ∀ page : Fin 8, (0xb0 ||| BitVec.ofNat 8 page : Byte).toNat = 0xb0 + page := by
    decide
  rw [setStartPage, writeCommand, hpage, if_neg (by omega), if_neg (by omega), if_pos (by omega),
    Nat.add_sub_cancel_left]

/-- **A call writes five bytes of the font and an empty column**, from the column it is given. -/
theorem showFont57_eq (around : Int → Byte) (i b : Byte) (page : Fin 8) (d : Byte)
    (disp : Display) :
    showFont57 around i b (BitVec.ofNat 8 page) d disp =
      (⟨page, d.toNat + 6⟩, cells page d.toNat (window around (srcPointer b i) ++ [0x00])) := by
  rw [showFont57, setStartPage_eq, setStartColumn_eq, writeDatas_eq]
  simp [window]

/-- The columns of some bytes. -/
theorem column_of_mem_cells {page column : Nat} {bs : List Byte} {cell : Cell}
    (h : cell ∈ cells page column bs) : cell.column < column + bs.length := by
  induction bs generalizing column with
  | nil => cases h
  | cons b bs ih =>
    rw [List.length_cons]
    rcases List.mem_cons.1 h with rfl | h
    · exact Nat.lt_add_of_pos_right (Nat.succ_pos _)
    · have := ih h
      omega

theorem cells_inj {page column : Nat} {bs bs' : List Byte}
    (h : cells page column bs = cells page column bs') : bs = bs' := by
  induction bs generalizing column bs' with
  | nil =>
    cases bs' with
    | nil => rfl
    | cons b' bs' => cases h
  | cons b bs ih =>
    cases bs' with
    | nil => cases h
    | cons b' bs' =>
      obtain ⟨hcell, hrest⟩ := List.cons.inj h
      rw [(Cell.mk.inj hcell).2.2, ih hrest]

/-! ### The characters of an address -/

/-- `inet_ntoa` prints digits and dots, fifteen at most. -/
theorem inetNtoa_dotted (m : Machine) (a : Word) :
    (∀ c ∈ inetNtoa m a, c ∈ dotted) ∧ (inetNtoa m a).length ≤ 15 ∧ inetNtoa m a ≠ [] := by
  have hoctet : ∀ n < 256, (octet (BitVec.ofNat 8 n)).all (fun c => c ∈ dotted) = true ∧
      (octet (BitVec.ofNat 8 n)).length ≤ 3 := by
    decide +kernel
  have hbyte : ∀ b : Byte, (∀ c ∈ octet b, c ∈ dotted) ∧ (octet b).length ≤ 3 := by
    intro b
    obtain ⟨hall, hlen⟩ := hoctet b.toNat b.isLt
    rw [BitVec.ofNat_toNat, BitVec.setWidth_eq] at hall hlen
    exact ⟨forall_mem_of_all hall, hlen⟩
  have hdot : '.' ∈ dotted := by decide
  obtain ⟨b₀, b₁, b₂, b₃, hb, -⟩ := bytesOf_eq m a
  obtain ⟨d₀, l₀⟩ := hbyte b₀
  obtain ⟨d₁, l₁⟩ := hbyte b₁
  obtain ⟨d₂, l₂⟩ := hbyte b₂
  obtain ⟨d₃, l₃⟩ := hbyte b₃
  rw [inetNtoa, hb]
  refine ⟨?_, ?_, by simp⟩
  · intro c hc
    simp only [List.mem_append, List.mem_cons] at hc
    rcases hc with hc | rfl | hc | rfl | hc | rfl | hc
    · exact d₀ c hc
    · exact hdot
    · exact d₁ c hc
    · exact hdot
    · exact d₂ c hc
    · exact hdot
    · exact d₃ c hc
  · simp only [List.length_append, List.length_cons]
    omega

/-- The byte `a2n` makes of a character. -/
def rowByte (m : Machine) (c : Char) : Byte := (a2n (m.lowByte (BitVec.ofNat 8 c.toNat))).setWidth 8

/-- **The row numbers are one too low**: the pointer is at the start of the row before. -/
theorem rowByte_toNat (m : Machine) : ∀ {c : Char}, c ∈ dotted →
    (rowByte m c).toNat = c.toNat - '!'.toNat ∧ 13 ≤ (rowByte m c).toNat ∧
      (rowByte m c).toNat ≤ 24 := by
  intro c hc
  have htable : ∀ c ∈ dotted,
      ((a2n ((BitVec.ofNat 8 c.toNat : Byte).setWidth 32)).setWidth 8 : Byte).toNat =
        c.toNat - '!'.toNat ∧ 13 ≤ c.toNat - '!'.toNat ∧ c.toNat - '!'.toNat ≤ 24 :=
    forall_mem_of_all (by decide)
  obtain ⟨heq, hlow, hhigh⟩ := htable c hc
  rw [rowByte, Machine.lowByte_eq, heq]
  exact ⟨rfl, hlow, hhigh⟩

/-- **A character is shown as itself exactly when `i` is 5.** -/
theorem glyph_eq_iff (m : Machine) (around : Int → Byte) {c : Char} (hc : c ∈ dotted) (i : Byte) :
    window around (srcPointer (rowByte m c) i) = row c ↔ i = 5 := by
  obtain ⟨heq, hlow, -⟩ := rowByte_toNat m hc
  have hptr : srcPointer (rowByte m c) i = (5 * (c.toNat - '!'.toNat - 1) + i.toNat : Nat) := by
    rw [srcPointer]
    omega
  rw [hptr, window_eq_row_iff around hc i.isLt, ← BitVec.toNat_inj]
  rfl

/-- Whatever `i` is, the table is not left. -/
theorem reads_inside (m : Machine) {c : Char} (hc : c ∈ dotted) (i : Byte) :
    ∀ o ∈ reads (rowByte m c) i, 0 ≤ o ∧ o < ascii1Size := by
  obtain ⟨-, hlow, hhigh⟩ := rowByte_toNat m hc
  have hi := i.isLt
  intro o ho
  obtain ⟨k, hk, rfl⟩ := List.mem_map.1 ho
  have hk5 := List.mem_range.1 hk
  rw [srcPointer, ascii1Size]
  omega

/-! ### The whole text -/

/-- **What the loop writes**, call by call: every character six columns behind the one before. -/
theorem showLoop_calls (around : Int → Byte) (entry : Nat → Byte) (page : Fin 8)
    {xs : List Byte} (hxs : ∀ x ∈ xs, x ≠ 0) (hne : xs ≠ []) (n : Nat) (c : Byte)
    (disp : Display) :
    (showLoop around entry (BitVec.ofNat 8 page) n (xs ++ [0]) c disp).2 =
      xs.mapIdx fun k x => cells page (c + BitVec.ofNat 8 (6 * k)).toNat
        (window around (srcPointer x (entry (n + k))) ++ [0x00]) := by
  induction xs generalizing n c disp with
  | nil => exact absurd rfl hne
  | cons x xs ih =>
    rw [List.forall_mem_cons] at hxs
    have hnext : ∀ k, c + 6 + BitVec.ofNat 8 (6 * k) = c + BitVec.ofNat 8 (6 * (k + 1)) := by
      intro k
      rw [Nat.mul_add, Nat.mul_one, Nat.add_comm, BitVec.ofNat_add, ← BitVec.add_assoc]
      rfl
    have hcall : ∀ k, n + 1 + k = n + (k + 1) := fun k => by omega
    rw [List.cons_append, showLoop, showFont57_eq, List.mapIdx_cons]
    dsimp only
    rw [Nat.mul_zero, Nat.add_zero, show c + BitVec.ofNat 8 0 = c from BitVec.add_zero c]
    by_cases hnil : xs = []
    · subst hnil
      rfl
    · have hhead : (xs ++ [0]).head? ≠ some 0 := by
        obtain ⟨y, ys, rfl⟩ := List.exists_cons_of_ne_nil hnil
        exact fun h => hxs.2 y List.mem_cons_self (Option.some.inj h)
      rw [if_neg hhead]
      dsimp only
      rw [ih hxs.2 hnil]
      simp only [hnext, hcall, Nat.add_zero]

/-- **The display shows the text**: the call for each character writes the five columns of its
row at its place, no call reads outside the font, and none gets to column 128. -/
structure Shows (m : Machine) (around : Int → Byte) (entry : Nat → Byte) (page : Fin 8)
    (sz : List Char) (disp : Display) : Prop where
  glyphs : ∀ k (hk : k < sz.length), (shown m around entry page sz disp)[k + 1]? =
    some (cells page (0x16 + 6 * k) (row sz[k] ++ [0x00]))
  blank : ∀ o ∈ reads 96 (entry 0), 0 ≤ o ∧ o < ascii1Size
  inside : ∀ k (hk : k < sz.length), ∀ o ∈ reads (rowByte m sz[k]) (entry (k + 1)),
    0 ≤ o ∧ o < ascii1Size
  columns : ∀ call ∈ shown m around entry page sz disp, ∀ cell ∈ call, cell.column < 128

section Text

variable (m : Machine) (around : Int → Byte) (entry : Nat → Byte) (page : Fin 8)
  {sz : List Char} (hsz : ∀ c ∈ sz, c ∈ dotted) (hlen : sz.length ≤ 15) (hne : sz ≠ [])
  (disp : Display)
include hsz hlen hne

/-- What is written for a text of dots and digits. -/
theorem shown_eq : shown m around entry page sz disp =
    cells page 0x16 (window around (srcPointer 96 (entry 0)) ++ [0x00]) ::
      sz.mapIdx fun k c => cells page (0x16 + 6 * k)
        (window around (srcPointer (rowByte m c) (entry (k + 1))) ++ [0x00]) := by
  have hconverted : converted m (bytes sz) = sz.map (rowByte m) ++ [0] := by
    rw [converted, bytes, List.map_map]
    rfl
  have hnul : ∀ x ∈ sz.map (rowByte m), x ≠ 0 := by
    intro x hx
    obtain ⟨c, hc, rfl⟩ := List.mem_map.1 hx
    obtain ⟨-, hlow, -⟩ := rowByte_toNat m (hsz c hc)
    intro h0
    rw [h0] at hlow
    exact absurd hlow (by decide)
  rw [shown, showString, showFont57_eq, hconverted]
  dsimp only
  rw [showLoop_calls around entry page hnul (by simpa using hne)]
  refine congrArg₂ _ rfl (List.ext_getElem (by simp) fun k hk hk' => ?_)
  rw [List.length_mapIdx] at hk'
  have hcolumn : (xLevel + 0x16 + BitVec.ofNat 8 (6 * k)).toNat = 0x16 + 6 * k := by
    rw [BitVec.toNat_add, BitVec.toNat_ofNat]
    have hlevel : (xLevel + 0x16).toNat = 0x16 := by decide
    omega
  rw [List.getElem_mapIdx, List.getElem_mapIdx, List.getElem_map, hcolumn, Nat.add_comm 1 k]

/-- A character comes out right exactly when its call finds a 5. -/
theorem glyph_shown_iff {k : Nat} (hk : k < sz.length) :
    (shown m around entry page sz disp)[k + 1]? =
        some (cells page (0x16 + 6 * k) (row sz[k] ++ [0x00])) ↔
      entry (k + 1) = 5 := by
  have hc := hsz sz[k] (List.getElem_mem hk)
  rw [shown_eq m around entry page hsz hlen hne, List.getElem?_cons_succ, List.getElem?_mapIdx,
    List.getElem?_eq_getElem hk, Option.map_some, Option.some.injEq,
    ← glyph_eq_iff m around hc (entry (k + 1))]
  constructor
  · intro h
    exact List.append_cancel_right (cells_inj h)
  · intro h
    rw [h]

/-- No call gets to column 128. -/
theorem column_lt : ∀ call ∈ shown m around entry page sz disp, ∀ cell ∈ call,
    cell.column < 128 := by
  have hwindow : ∀ o, (window around o ++ [0x00]).length = 6 := fun o => by simp [window]
  rw [shown_eq m around entry page hsz hlen hne]
  intro call hcall cell hcell
  rcases List.mem_cons.1 hcall with rfl | hcall
  · have hcolumn := column_of_mem_cells hcell
    rw [hwindow] at hcolumn
    omega
  · obtain ⟨k, hk, rfl⟩ := List.mem_mapIdx.1 hcall
    have hcolumn := column_of_mem_cells hcell
    rw [hwindow] at hcolumn
    omega

end Text

/-- The blank is read from the table too, wherever its pointer starts. -/
theorem blank_inside (i : Byte) : ∀ o ∈ reads 96 i, 0 ≤ o ∧ o < ascii1Size := by
  have hi := i.isLt
  have hblank : (96 : Byte).toNat = 96 := rfl
  intro o ho
  obtain ⟨k, hk, rfl⟩ := List.mem_map.1 ho
  have hk5 := List.mem_range.1 hk
  rw [srcPointer, ascii1Size, hblank]
  omega

/-- With a 5 on entry of every call that shows a character, the text is shown. -/
theorem shows_of_five (m : Machine) (around : Int → Byte) {entry : Nat → Byte} (page : Fin 8)
    {sz : List Char} (hsz : ∀ c ∈ sz, c ∈ dotted) (hlen : sz.length ≤ 15) (hne : sz ≠ [])
    (disp : Display) (h : ∀ k < sz.length, entry (k + 1) = 5) :
    Shows m around entry page sz disp where
  glyphs k hk := (glyph_shown_iff m around entry page hsz hlen hne disp hk).2 (h k hk)
  blank := blank_inside _
  inside _ hk := reads_inside m (hsz _ (List.getElem_mem hk)) _
  columns := column_lt m around entry page hsz hlen hne disp

/-- **The display shows an address exactly when `i` is 5 on entry of every call that shows a
character.** -/
theorem shows_iff (m : Machine) (around : Int → Byte) (entry : Nat → Byte) (page : Fin 8)
    (ip : Word) (disp : Display) :
    Shows m around entry page (inetNtoa m ip) disp ↔
      ∀ k < (inetNtoa m ip).length, entry (k + 1) = 5 := by
  obtain ⟨hsz, hlen, hne⟩ := inetNtoa_dotted m ip
  constructor
  · intro h k hk
    exact (glyph_shown_iff m around entry page hsz hlen hne disp hk).1 (h.glyphs k hk)
  · exact shows_of_five m around page hsz hlen hne disp

/-- No address is shown on a stack of zeros. -/
theorem not_shows :
    ¬ Shows ⟨.big, .unsigned⟩ (fun _ => 0) (fun _ => 0) 5 (inetNtoa ⟨.big, .unsigned⟩ 0xc0a80001)
      ⟨0, 0⟩ := by
  intro h
  obtain ⟨hsz, hlen, hne⟩ := inetNtoa_dotted ⟨.big, .unsigned⟩ 0xc0a80001
  have hfirst := List.length_pos_of_ne_nil hne
  exact absurd ((glyph_shown_iff _ _ _ _ hsz hlen hne _ hfirst).1 (h.glyphs 0 hfirst)) (by decide)

/-- What the calls find when nothing else has used their part of the stack: the loop of the call
before has left a 5. -/
def kept (i : Byte) : Nat → Byte
  | 0 => i
  | _ + 1 => 5

/-- Then the address is shown, whatever the first call has found. -/
theorem shows_kept (m : Machine) (around : Int → Byte) (i : Byte) (page : Fin 8) (ip : Word)
    (disp : Display) : Shows m around (kept i) page (inetNtoa m ip) disp := by
  obtain ⟨hsz, hlen, hne⟩ := inetNtoa_dotted m ip
  exact shows_of_five m around page hsz hlen hne disp fun _ _ => rfl

/-- On a stack of zeros every character comes out as the one before it in the font: a dot as a
hyphen and 0 as a slash. -/
theorem glyph_zero (m : Machine) (around : Int → Byte) {c : Char} (hc : c ∈ dotted) :
    window around (srcPointer (rowByte m c) 0) = row (Char.ofNat (c.toNat - 1)) := by
  have htable : ∀ c ∈ dotted,
      ((ascii1.flatten.drop (5 * (c.toNat - '!'.toNat - 1))).take 5).map (BitVec.ofNat 8) =
        row (Char.ofNat (c.toNat - 1)) :=
    forall_mem_of_all (by decide +kernel)
  obtain ⟨heq, hlow, hhigh⟩ := rowByte_toNat m hc
  have hptr : srcPointer (rowByte m c) 0 = (5 * (c.toNat - '!'.toNat - 1) : Nat) := by
    have hzero : (0 : Byte).toNat = 0 := rfl
    rw [srcPointer, hzero]
    omega
  rw [hptr, window_eq around (by rw [ascii1Size]; omega), htable c hc]

end SerialServer.Oled
