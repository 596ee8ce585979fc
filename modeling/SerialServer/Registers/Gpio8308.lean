import SerialServer.Core.Hex
import SerialServer.Core.Run

/-!
# SerialServer.Registers.Gpio8308

The register file `/proc/gpio8308` of the kernel module `gpio8308.c`.

What is written to the file is copied to a buffer of 1024 bytes, closed with a NUL and parsed.
A first byte `a` sets the offset that reads of the file use; any other first byte goes with two
numbers, an offset and a value, and the value is stored in the register at that offset.

Three things keep a write from harm only for some inputs. The NUL goes behind the bytes, where
there is no room for it when they fill the buffer; the parse starts at the second byte, which
an empty write does not have; and the offset is not compared with the size of the window. So a
run is confined exactly when each of its writes is `Safe` (`confined_iff`), a condition on the
bytes that are written. Nothing outside the window changes then (`regs_outside`), and a value
that is written as text is in its register (`register_written`).
-/

namespace SerialServer.Gpio8308

open Scan Run

/-- `PROCFS_MAX_SIZE`. -/
def procfsMaxSize : Nat := 1024

/-- The size of the window `setl_reg` maps. -/
def windowSize : Nat := 0x1000

/-- The globals of the module, and the memory around the registers. -/
structure Module where
  procfsBuffer : Buf
  procfsBufferSize : Nat
  goffset : Word
  gwoffset : Word
  gv : Word
  /-- The bytes by their distance from `get_immrbase()`. -/
  regs : Int → Byte

/-- The globals before the first write. -/
def Module.init (regs : Int → Byte) : Module where
  procfsBuffer := fun _ => 0
  procfsBufferSize := 0
  goffset := 0x00000c08
  gwoffset := 0x00000c08
  gv := 0
  regs := regs

/-- A write to the file. -/
structure Write where
  /-- The bytes the caller points at, `count` in number. -/
  data : List Byte
  /-- How many of them can be read. -/
  readable : Nat
  /-- Whether `ioremap` succeeds. -/
  mapped : Bool
  deriving Repr, DecidableEq

/-- `count`. -/
def Write.count (w : Write) : Nat := w.data.length

/-- The number of bytes that are taken. -/
def Write.size (w : Write) : Nat :=
  if w.count > procfsMaxSize then procfsMaxSize else w.count

/-- `out_be32`. -/
def outBe32 (regs : Int → Byte) (addr : Int) (v : Word) : Int → Byte := fun a =>
  if addr ≤ a ∧ a < addr + 4 then (netBytes v).getD (a - addr).toNat 0 else regs a

/-- `in_be32`. -/
def inBe32 (regs : Int → Byte) (addr : Int) : Word :=
  ofNetBytes (regs addr) (regs (addr + 1)) (regs (addr + 2)) (regs (addr + 3))

/-- What a call leaves: the module, its result, and the stores `out_be32` has made. -/
structure Call where
  module : Module
  ret : Int
  stores : List (Int × Word)

/-- `setl_reg`; `addr` is an `int`. -/
def setlReg (mapped : Bool) (s : Module) (addr v : Word) : Module × List (Int × Word) :=
  if mapped then ({ s with regs := outBe32 s.regs addr.toInt v }, [(addr.toInt, v)]) else (s, [])

/-- `copy_from_user` to the start of the buffer, and how many bytes are missing. Zeros stand in
for these. -/
def copyFromUser (buf : Buf) (w : Write) (n : Nat) : Buf × Nat :=
  (buf.store 0 (w.data.take (min n w.readable) ++ List.replicate (n - w.readable) 0),
    n - w.readable)

/-- The text at `procfs_buffer + 1`. -/
def parsed (buf : Buf) : List Char := cstr (chars (buf.slice 1 procfsMaxSize))

/-- `sscanf(text, "%x%x", &gwoffset, &gv)`: the result and the new values. -/
def sscanf2 (text : List Char) (gwoffset gv : Word) : Nat × Word × Word :=
  match kscanHex text with
  | none => (0, gwoffset, gv)
  | some (offset, rest) =>
      match kscanHex rest with
      | none => (1, offset, gv)
      | some (v, _) => (2, offset, v)

/-- `EFAULT`. -/
def efault : Int := 14

/-- The `switch` of `procfile_write`, and the result behind it. -/
def command (mapped : Bool) (s : Module) : Call :=
  let ret : Int := s.procfsBufferSize
  if s.procfsBuffer 0 = 0x61 then
    match kscanHex (parsed s.procfsBuffer) with
    | some (offset, _) => ⟨{ s with goffset := offset }, ret, []⟩
    | none => ⟨s, ret, []⟩
  else
    let (n, gwoffset, gv) := sscanf2 (parsed s.procfsBuffer) s.gwoffset s.gv
    let s := { s with gwoffset := gwoffset, gv := gv }
    if n ≠ 2 then ⟨s, ret, []⟩
    else
      let (s, stores) := setlReg mapped s gwoffset gv
      ⟨s, ret, stores⟩

/-- `procfile_write`. -/
def procfileWrite (s : Module) (w : Write) : Call :=
  let s := { s with procfsBufferSize := w.size }
  let (buf, missing) := copyFromUser s.procfsBuffer w w.size
  if missing ≠ 0 then ⟨{ s with procfsBuffer := buf }, -efault, []⟩
  else
    let buf := buf.store w.size [0]
    command w.mapped { s with procfsBuffer := buf }

/-- `get_gpio6`. -/
def getGpio6 (s : Module) : Word := inBe32 s.regs s.goffset.toInt

/-- `procfile_read`: the module and what is returned. -/
def procfileRead (s : Module) (offset : Int) : Module × List Byte :=
  let v := getGpio6 s
  if offset > 0 then (s, [])
  else
    let buf := s.procfsBuffer.store 0 (bytes (hex8 v ++ ['\n']) ++ [0])
    ({ s with procfsBuffer := buf }, buf.slice 0 9)

/-! ### Which bytes a write touches -/

/-- The buffer behind the copy. -/
def copied (s : Module) (w : Write) : Buf := (copyFromUser s.procfsBuffer w w.size).1

/-- The buffer that is parsed. -/
def closed (s : Module) (w : Write) : Buf := (copied s w).store w.size [0]

/-- The copy stops at a byte that cannot be read. -/
def Write.Faults (w : Write) : Prop := w.readable < w.size

instance (w : Write) : Decidable w.Faults := inferInstanceAs (Decidable (_ < _))

/-- The indices of the bytes the parse is given: a text and its NUL. -/
def parsedIndices (s : Module) (w : Write) : List Nat :=
  if w.Faults then [] else List.range' 1 ((parsed (closed s w)).length + 1)

/-- The indices a write uses in `procfs_buffer`: those of the copy, of the NUL, of the first
byte and of the parse. -/
def indices (s : Module) (w : Write) : List Nat :=
  List.range w.size ++ (if w.Faults then [] else [w.size, 0]) ++ parsedIndices s w

/-- The text a write gives to the parse: its bytes but the first, up to a NUL. -/
def Write.text (w : Write) : List Char := cstr (chars (w.data.drop 1))

/-- The two numbers in a text. -/
def numbers (text : List Char) : Option (Word × Word) :=
  (kscanHex text).bind fun r => (kscanHex r.2).map fun r' => (r.1, r'.1)

/-- The two numbers of a write that is meant for a register. -/
def Write.numbers (w : Write) : Option (Word × Word) :=
  if w.data.head? = some 0x61 then none else Gpio8308.numbers w.text

/-- **A write is confined**: every index lies in the buffer, the parse is given bytes of this
write and the NUL behind them, a store is made for two numbers of this write only and lies in
the window, and without a store no register changes. -/
structure Confined (s : Module) (w : Write) : Prop where
  indices : ∀ i ∈ indices s w, i < procfsMaxSize
  own : ∀ i ∈ parsedIndices s w, i ≤ w.size
  stored : ∀ p ∈ (procfileWrite s w).stores, ∃ offset v, w.numbers = some (offset, v) ∧
    p = (offset.toInt, v) ∧ 0 ≤ p.1 ∧ p.1 + 4 ≤ windowSize
  unchanged : (procfileWrite s w).stores = [] → (procfileWrite s w).module.regs = s.regs

/-- **What a write must be**: there is a byte that cannot be read, or there are bytes and room
for a NUL behind them, and if they name a register, it is one in the window. -/
def Write.Safe (w : Write) : Prop :=
  w.readable < min w.count procfsMaxSize ∨
    (0 < w.count ∧ w.count < procfsMaxSize ∧
      ∀ offset v, w.numbers = some (offset, v) → w.mapped = true →
        0 ≤ offset.toInt ∧ offset.toInt ≤ 0xffc)

theorem Write.size_eq (w : Write) : w.size = min w.count procfsMaxSize := by
  unfold Write.size
  split <;> omega

/-- A write that is refused touches the buffer and nothing else. -/
theorem procfileWrite_faults {s : Module} {w : Write} (h : w.Faults) :
    procfileWrite s w = ⟨{ s with procfsBufferSize := w.size, procfsBuffer := copied s w },
      -efault, []⟩ := by
  have hmissing : w.size - w.readable ≠ 0 := Nat.sub_ne_zero_of_lt h
  rw [procfileWrite, copied, copyFromUser]
  dsimp only
  rw [if_pos hmissing]

/-- Any other write gets to the `switch`. -/
theorem procfileWrite_taken {s : Module} {w : Write} (h : ¬ w.Faults) :
    procfileWrite s w = command w.mapped
      { s with procfsBufferSize := w.size, procfsBuffer := closed s w } := by
  have hmissing : w.size - w.readable = 0 := Nat.sub_eq_zero_of_le (Nat.not_lt.1 h)
  rw [procfileWrite, closed, copied, copyFromUser]
  dsimp only
  rw [if_neg (not_not_intro hmissing)]

/-! ### What is parsed -/

theorem sscanf2_of_some {text : List Char} {offset v : Word}
    (h : numbers text = some (offset, v)) (gwoffset gv : Word) :
    sscanf2 text gwoffset gv = (2, offset, v) := by
  obtain ⟨r, hr, h⟩ := Option.bind_eq_some_iff.1 h
  obtain ⟨r', hr', heq⟩ := Option.map_eq_some_iff.1 h
  obtain ⟨rfl, rfl⟩ := Prod.mk.inj heq
  rw [sscanf2, hr]
  dsimp only
  rw [hr']

theorem sscanf2_of_none {text : List Char} (h : numbers text = none) (gwoffset gv : Word) :
    (sscanf2 text gwoffset gv).1 ≠ 2 := by
  unfold numbers at h
  unfold sscanf2
  cases hr : kscanHex text with
  | none => exact (by decide : (0 : Nat) ≠ 2)
  | some r =>
    rw [hr, Option.bind_some, Option.map_eq_none_iff] at h
    dsimp only
    rw [h]
    exact (by decide : (1 : Nat) ≠ 2)

/-- The two numbers a buffer holds for a register. -/
def taken (buf : Buf) : Option (Word × Word) :=
  if buf 0 = 0x61 then none else numbers (parsed buf)

/-- Two numbers are stored. -/
theorem command_some {s : Module} {offset v : Word}
    (h : taken s.procfsBuffer = some (offset, v)) (mapped : Bool) :
    (command mapped s).stores = (if mapped then [(offset.toInt, v)] else []) ∧
      (command mapped s).module.regs =
        if mapped then outBe32 s.regs offset.toInt v else s.regs := by
  unfold taken at h
  split at h
  · cases h
  · next ha =>
    rw [command, if_neg ha, sscanf2_of_some h]
    cases mapped <;> exact ⟨rfl, rfl⟩

/-- Anything else stores nothing and changes no register. -/
theorem command_none {s : Module} (h : taken s.procfsBuffer = none) (mapped : Bool) :
    (command mapped s).stores = [] ∧ (command mapped s).module.regs = s.regs := by
  unfold taken at h
  unfold command
  split at h
  · next ha =>
    rw [if_pos ha]
    cases kscanHex (parsed s.procfsBuffer) <;> exact ⟨rfl, rfl⟩
  · next ha =>
    rw [if_neg ha]
    dsimp only
    rw [if_pos (sscanf2_of_none h _ _)]
    exact ⟨rfl, rfl⟩

theorem procfileWrite_some {s : Module} {w : Write} (hw : ¬ w.Faults) {offset v : Word}
    (h : taken (closed s w) = some (offset, v)) :
    (procfileWrite s w).stores = (if w.mapped then [(offset.toInt, v)] else []) ∧
      (procfileWrite s w).module.regs =
        if w.mapped then outBe32 s.regs offset.toInt v else s.regs := by
  rw [procfileWrite_taken hw]
  exact command_some (s := { s with procfsBufferSize := w.size, procfsBuffer := closed s w }) h
    w.mapped

theorem procfileWrite_none {s : Module} {w : Write} (hw : ¬ w.Faults)
    (h : taken (closed s w) = none) :
    (procfileWrite s w).stores = [] ∧ (procfileWrite s w).module.regs = s.regs := by
  rw [procfileWrite_taken hw]
  exact command_none (s := { s with procfsBufferSize := w.size, procfsBuffer := closed s w }) h
    w.mapped

/-- The buffer that is parsed starts with the bytes that were taken, and a NUL. -/
theorem closed_eq {s : Module} {w : Write} (hw : ¬ w.Faults) :
    closed s w = s.procfsBuffer.store 0 (w.data.take w.size ++ [0]) := by
  have hread : min w.size w.readable = w.size := Nat.min_eq_left (Nat.not_lt.1 hw)
  have hmissing : w.size - w.readable = 0 := Nat.sub_eq_zero_of_le (Nat.not_lt.1 hw)
  have hlen : (w.data.take w.size).length = w.size := by
    rw [List.length_take, w.size_eq, Write.count]
    omega
  have hstore := Buf.store_store s.procfsBuffer 0 (w.data.take w.size) [0]
  rw [Nat.zero_add, hlen] at hstore
  rw [closed, copied, copyFromUser]
  dsimp only
  rw [hread, hmissing, List.replicate_zero, List.append_nil, hstore]

/-- The first byte and the text of a write that leaves room for the NUL are its own. -/
theorem closed_own {s : Module} {w : Write} (hw : ¬ w.Faults) (hpos : 0 < w.count)
    (hroom : w.count < procfsMaxSize) :
    some (closed s w 0) = w.data.head? ∧ parsed (closed s w) = w.text := by
  have hsize : w.size = w.data.length := by
    rw [w.size_eq]
    exact Nat.min_eq_left (Nat.le_of_lt hroom)
  obtain ⟨c, cs, hdata⟩ := List.exists_cons_of_length_pos hpos
  have hroom' : cs.length + 1 < procfsMaxSize := by simpa [Write.count, hdata] using hroom
  rw [closed_eq hw, hsize, List.take_length, hdata]
  refine ⟨rfl, ?_⟩
  -- Behind the first byte come the others and the NUL, and then what was there before.
  have hown := Buf.slice_store_mid s.procfsBuffer [c] (cs ++ [0]) []
  rw [List.append_nil, List.length_append, List.length_singleton, List.length_singleton,
    List.singleton_append, ← List.cons_append] at hown
  have hlong : procfsMaxSize = (cs.length + 1) + (procfsMaxSize - (cs.length + 1)) := by omega
  rw [parsed, hlong, Buf.slice_append, hown, Write.text, hdata, List.drop_one, List.tail_cons,
    List.append_assoc]
  exact cstr_chars_nul cs _

/-- So are its numbers. -/
theorem taken_closed {s : Module} {w : Write} (hw : ¬ w.Faults) (hpos : 0 < w.count)
    (hroom : w.count < procfsMaxSize) : taken (closed s w) = w.numbers := by
  obtain ⟨hhead, htext⟩ := closed_own (s := s) hw hpos hroom
  rw [taken, Write.numbers, ← hhead, htext]
  simp only [Option.some.injEq]

theorem length_text_lt {w : Write} (hpos : 0 < w.count) : w.text.length < w.count := by
  have hcut := (List.takeWhile_prefix (fun c : Char => decide (c.toNat ≠ 0))
    (l := chars (w.data.drop 1))).length_le
  rw [chars, List.length_map, List.length_drop] at hcut
  rw [Write.text, cstr, chars]
  rw [Write.count] at hpos ⊢
  omega

theorem mem_parsedIndices {s : Module} {w : Write} (hw : ¬ w.Faults) {i : Nat} :
    i ∈ parsedIndices s w ↔ 1 ≤ i ∧ i ≤ (parsed (closed s w)).length + 1 := by
  rw [parsedIndices, if_neg hw, List.mem_range'_1]
  omega

theorem mem_indices {s : Module} {w : Write} (hw : ¬ w.Faults) {i : Nat} :
    i ∈ indices s w ↔ i ≤ w.size ∨ i ∈ parsedIndices s w := by
  have hown : i < w.size ∨ i ∈ [w.size, 0] ↔ i ≤ w.size := by
    simp only [List.mem_cons, List.not_mem_nil, or_false]
    omega
  rw [indices, if_neg hw, List.mem_append, List.mem_append, List.mem_range, hown]

/-! ### Confined writes -/

/-- A write that is refused is confined. -/
theorem confined_of_faults {s : Module} {w : Write} (h : w.Faults) : Confined s w := by
  have hwrite := procfileWrite_faults (s := s) h
  have hsize := w.size_eq
  refine ⟨?_, ?_, ?_, ?_⟩
  · intro i hi
    simp only [indices, parsedIndices, if_pos h, List.append_nil, List.mem_range] at hi
    omega
  · intro i hi
    rw [parsedIndices, if_pos h] at hi
    cases hi
  · intro p hp
    rw [hwrite] at hp
    cases hp
  · intro _
    rw [hwrite]

/-- Where there is room for the NUL, the text that is parsed is the bytes that were taken. -/
theorem own_of_room {s : Module} {w : Write} (hw : ¬ w.Faults) (hpos : 0 < w.count)
    (hroom : w.count < procfsMaxSize) : ∀ i ∈ parsedIndices s w, i ≤ w.size := by
  intro i hi
  have hsize := w.size_eq
  have hlen := length_text_lt hpos
  rw [← (closed_own (s := s) hw hpos hroom).2] at hlen
  have hi' := (mem_parsedIndices hw).1 hi
  omega

/-- So every index is one of the buffer. -/
theorem indices_of_room {s : Module} {w : Write} (hw : ¬ w.Faults) (hpos : 0 < w.count)
    (hroom : w.count < procfsMaxSize) : ∀ i ∈ indices s w, i < procfsMaxSize := by
  intro i hi
  have hsize := w.size_eq
  have hi' : i ≤ w.size := ((mem_indices hw).1 hi).elim id (own_of_room hw hpos hroom i)
  omega

/-- The stores of such a write are those its own bytes name. -/
theorem mem_stores {s : Module} {w : Write} (hw : ¬ w.Faults) (hpos : 0 < w.count)
    (hroom : w.count < procfsMaxSize) {p : Int × Word} :
    p ∈ (procfileWrite s w).stores ↔
      w.mapped = true ∧ ∃ offset v, w.numbers = some (offset, v) ∧ p = (offset.toInt, v) := by
  have htaken := taken_closed (s := s) hw hpos hroom
  cases hnumbers : w.numbers with
  | none =>
    rw [(procfileWrite_none hw (htaken.trans hnumbers)).1]
    refine iff_of_false List.not_mem_nil ?_
    rintro ⟨-, offset, v, hnone, -⟩
    cases hnone
  | some r =>
    obtain ⟨offset, v⟩ := r
    rw [(procfileWrite_some hw (htaken.trans hnumbers)).1]
    cases w.mapped with
    | false => exact iff_of_false List.not_mem_nil fun h => Bool.false_ne_true h.1
    | true =>
      rw [if_pos rfl, List.mem_singleton]
      constructor
      · intro hp
        exact ⟨rfl, offset, v, rfl, hp⟩
      · rintro ⟨-, offset', v', hsome, hp⟩
        cases hsome
        exact hp

/-- Without a store the registers are left alone. -/
theorem regs_of_no_stores {s : Module} {w : Write} (h : (procfileWrite s w).stores = []) :
    (procfileWrite s w).module.regs = s.regs := by
  by_cases hw : w.Faults
  · rw [procfileWrite_faults hw]
  cases htaken : taken (closed s w) with
  | none => exact (procfileWrite_none hw htaken).2
  | some r =>
    obtain ⟨hstores, hregs⟩ := procfileWrite_some hw htaken
    cases hmapped : w.mapped with
    | false => rw [hregs, hmapped, if_neg Bool.false_ne_true]
    | true =>
      rw [hstores, hmapped, if_pos rfl] at h
      cases h

theorem confined_of_safe {s : Module} {w : Write} (h : w.Safe) : Confined s w := by
  by_cases hw : w.Faults
  · exact confined_of_faults hw
  have hread : ¬ w.readable < min w.count procfsMaxSize := by
    rw [← w.size_eq]
    exact hw
  obtain ⟨hpos, hroom, hreg⟩ := h.resolve_left hread
  refine ⟨indices_of_room hw hpos hroom, own_of_room hw hpos hroom, fun p hp => ?_,
    regs_of_no_stores⟩
  obtain ⟨hmapped, offset, v, hnumbers, rfl⟩ := (mem_stores hw hpos hroom).1 hp
  obtain ⟨hlow, hhigh⟩ := hreg offset v hnumbers hmapped
  refine ⟨offset, v, hnumbers, rfl, hlow, ?_⟩
  rw [windowSize]
  omega

theorem safe_of_confined {s : Module} {w : Write} (h : Confined s w) : w.Safe := by
  have hsize := w.size_eq
  by_cases hw : w.Faults
  · left
    rw [← hsize]
    exact hw
  right
  -- The NUL at the end says that there is room for it, the first number that there are bytes.
  have hroom : w.count < procfsMaxSize := by
    have hnul := h.indices w.size ((mem_indices hw).2 (.inl (Nat.le_refl _)))
    omega
  have hpos : 0 < w.count := by
    have hfirst := h.own 1 ((mem_parsedIndices hw).2 (by omega))
    omega
  refine ⟨hpos, hroom, fun offset v hnumbers hmapped => ?_⟩
  have hmem := (mem_stores (s := s) hw hpos hroom).2 ⟨hmapped, offset, v, hnumbers, rfl⟩
  obtain ⟨-, -, -, -, hlow, hhigh⟩ := h.stored _ hmem
  rw [windowSize] at hhigh
  omega

/-- **A write is confined exactly when it is safe**, whatever state the module is in. -/
theorem confined_write_iff (s : Module) (w : Write) : Confined s w ↔ w.Safe :=
  ⟨safe_of_confined, confined_of_safe⟩

/-- The module behind a write. -/
def step (s : Module) (w : Write) : Module := (procfileWrite s w).module

/-- **A run of writes is confined exactly when every write is safe.** -/
theorem confined_iff (s : Module) (ws : List Write) :
    EachStep step Confined s ws ↔ ∀ w ∈ ws, w.Safe := by
  rw [eachStep_iff (I := fun _ => True) trivial (fun s w _ => confined_write_iff s w)
    (fun _ _ _ _ => trivial), eachStep_events]

/-- A write of two numbers `offset` and `v`. -/
def setLine (offset v : Word) (mapped : Bool) : Write :=
  let data := bytes ('b' :: (hex8 offset ++ ' ' :: hex8 v))
  ⟨data, data.length, mapped⟩

/-- The two numbers are read back from it. -/
theorem numbers_setLine (offset v : Word) (mapped : Bool) :
    (setLine offset v mapped).numbers = some (offset, v) := by
  have hhex : ∀ w : Word, ∀ c ∈ hex8 w, 48 ≤ c.toNat ∧ c.toNat ≤ 102 := fun w c hc =>
    isXDigit_range (isXDigit_of_mem_hex8 c hc)
  have hrange : ∀ c ∈ hex8 offset ++ ' ' :: hex8 v, c.toNat ≠ 0 ∧ c.toNat < 256 := by
    refine List.forall_mem_append.2 ⟨fun c hc => ?_, List.forall_mem_cons.2 ⟨by decide, ?_⟩⟩
    · have hc' := hhex offset c hc
      omega
    · intro c hc
      have hc' := hhex v c hc
      omega
  have htext : (setLine offset v mapped).text = hex8 offset ++ ' ' :: hex8 v := by
    have hdrop : (setLine offset v mapped).data.drop 1 = bytes (hex8 offset ++ ' ' :: hex8 v) := rfl
    rw [Write.text, hdrop, chars_bytes fun c hc => (hrange c hc).2]
    exact cstr_eq_self fun c hc => (hrange c hc).1
  have hfirst : kscanHex (hex8 offset ++ ' ' :: hex8 v) = some (offset, ' ' :: hex8 v) := by
    refine kscanHex_hex8 offset ?_
    intro c hc
    obtain rfl := Option.some.inj hc
    decide
  have hsecond : kscanHex (' ' :: hex8 v) = some (v, []) := by
    have hend : kscanHex (hex8 v ++ []) = some (v, []) := kscanHex_hex8 v (by rintro c ⟨⟩)
    rwa [List.append_nil] at hend
  have hhead : (setLine offset v mapped).data.head? ≠ some 0x61 := by
    have hb : (setLine offset v mapped).data.head? = some 0x62 := rfl
    rw [hb]
    decide
  rw [Write.numbers, if_neg hhead, htext, numbers, hfirst, Option.bind_some, hsecond]
  rfl

/-- An empty write parses what an earlier one has left, a full one puts its NUL behind the
buffer, and the register behind the window is stored to. -/
theorem not_confined :
    let s := Module.init fun _ => 0
    ¬ EachStep step Confined s [⟨[], 0, true⟩] ∧
      ¬ EachStep step Confined s [⟨List.replicate 1024 0x62, 1024, true⟩] ∧
      ¬ EachStep step Confined s [setLine 0x1000 1 true] := by
  have hnot : ∀ s w, ¬ w.Safe → ¬ EachStep step Confined s [w] :=
    fun s w hw h => hw ((confined_write_iff s w).1 h.1)
  refine ⟨hnot _ _ ?_, hnot _ _ ?_, hnot _ _ ?_⟩
  · rintro (h | h)
    · exact absurd h (by decide)
    · exact absurd h.1 (by decide)
  · have hcount : Write.count ⟨List.replicate 1024 0x62, 1024, true⟩ = 1024 :=
      List.length_replicate
    rw [Write.Safe, hcount, procfsMaxSize]
    rintro (h | h)
    · exact absurd h (by decide)
    · exact absurd h.2.1 (by decide)
  · rintro (h | h)
    · exact absurd h (by decide)
    · exact absurd (h.2.2 0x1000 1 (numbers_setLine _ _ _) rfl).2 (by decide)

/-! ### The registers -/

theorem outBe32_of_outside {addr a : Int} (h : a < addr ∨ addr + 4 ≤ a) (regs : Int → Byte)
    (v : Word) : outBe32 regs addr v a = regs a := by
  rw [outBe32, if_neg (by omega)]

/-- A register holds what was stored last. -/
theorem inBe32_outBe32 (regs : Int → Byte) (addr : Int) (v : Word) :
    inBe32 (outBe32 regs addr v) addr = v := by
  have hbyte : ∀ k : Int, 0 ≤ k → k < 4 →
      outBe32 regs addr v (addr + k) = (netBytes v).getD k.toNat 0 := by
    intro k hlow hhigh
    rw [outBe32, if_pos (by omega), show addr + k - addr = k by omega]
  have h0 := hbyte 0 (by decide) (by decide)
  rw [Int.add_zero] at h0
  rw [inBe32, h0, hbyte 1 (by decide) (by decide), hbyte 2 (by decide) (by decide),
    hbyte 3 (by decide) (by decide)]
  exact ofNetBytes_extract v

/-- The registers behind a write are those its stores make. -/
theorem procfileWrite_regs (s : Module) (w : Write) : (procfileWrite s w).module.regs =
    (procfileWrite s w).stores.foldl (fun regs p => outBe32 regs p.1 p.2) s.regs := by
  by_cases hw : w.Faults
  · rw [procfileWrite_faults hw]
    rfl
  cases htaken : taken (closed s w) with
  | none =>
    obtain ⟨hstores, hregs⟩ := procfileWrite_none hw htaken
    rw [hstores, hregs, List.foldl_nil]
  | some r =>
    obtain ⟨hstores, hregs⟩ := procfileWrite_some hw htaken
    rw [hstores, hregs]
    cases w.mapped <;> rfl

/-- **Safe writes stay in the window**: whatever run of them there was, no byte outside has
changed. -/
theorem regs_outside {s : Module} {ws : List Write} (h : ∀ w ∈ ws, w.Safe) {a : Int}
    (ha : a < 0 ∨ windowSize ≤ a) : (ws.foldl step s).regs a = s.regs a := by
  refine EachStep.foldl (C := fun _ (w : Write) => w.Safe)
    (I := fun s' : Module => s'.regs a = s.regs a) rfl ?_
    (eachStep_events.2 h)
  intro s' w hs' hw
  have hconfined := (confined_write_iff s' w).2 hw
  have hstores : ∀ ps : List (Int × Word), (∀ p ∈ ps, 0 ≤ p.1 ∧ p.1 + 4 ≤ windowSize) →
      ∀ regs, ps.foldl (fun regs p => outBe32 regs p.1 p.2) regs a = regs a := by
    intro ps hps
    induction ps with
    | nil => exact fun _ => rfl
    | cons p ps ih =>
      intro regs
      have hp := hps p List.mem_cons_self
      rw [List.foldl_cons, ih fun q hq => hps q (List.mem_cons_of_mem _ hq),
        outBe32_of_outside (by omega)]
  rw [step, procfileWrite_regs, hstores _ (fun p hp => ?_), hs']
  obtain ⟨-, -, -, -, hwindow⟩ := hconfined.stored p hp
  exact hwindow

/-- **What is written is in the register**, when the offset lies in the window. -/
theorem register_written (s : Module) {offset : Word} (v : Word) (hlow : 0 ≤ offset.toInt)
    (hhigh : offset.toInt ≤ 0xffc) :
    (setLine offset v true).Safe ∧
      inBe32 (step s (setLine offset v true)).regs offset.toInt = v := by
  have hnumbers := numbers_setLine offset v true
  have hcount : (setLine offset v true).count = 18 := by
    rw [Write.count, setLine, length_bytes, List.length_cons, List.length_append,
      List.length_cons, length_hex8, length_hex8]
  have hfaults : ¬ (setLine offset v true).Faults := by
    have hread : (setLine offset v true).readable = (setLine offset v true).count := rfl
    rw [Write.Faults, Write.size_eq, hread]
    omega
  have htaken := taken_closed (s := s) hfaults (by omega) (by rw [hcount, procfsMaxSize]; decide)
  refine ⟨.inr ⟨by omega, by rw [hcount, procfsMaxSize]; decide, fun offset' v' h _ => ?_⟩, ?_⟩
  · rw [hnumbers] at h
    obtain ⟨rfl, rfl⟩ := Prod.mk.inj (Option.some.inj h)
    exact ⟨hlow, hhigh⟩
  · have hregs := (procfileWrite_some hfaults (htaken.trans hnumbers)).2
    have hmapped : (setLine offset v true).mapped = true := rfl
    rw [hmapped, if_pos rfl] at hregs
    rw [step, hregs, inBe32_outBe32]

/-! ### Reading the file -/

/-- **What is read is the register**: the text of `procfile_read` gives the value back to a
program that scans it. -/
theorem procfileRead_scanned (s : Module) :
    fscanfHex (procfileRead s 0).2 = some (getGpio6 s) := by
  have hlen : (bytes (hex8 (getGpio6 s) ++ ['\n'])).length = 9 := by simp
  have htext := Buf.slice_store_mid s.procfsBuffer [] (bytes (hex8 (getGpio6 s) ++ ['\n'])) [0]
  rw [List.nil_append, List.length_nil, hlen] at htext
  have hascii : ∀ c ∈ hex8 (getGpio6 s) ++ ['\n'], c.toNat < 256 := by
    intro c hc
    rcases List.mem_append.1 hc with hc | hc
    · have hrange := isXDigit_range (isXDigit_of_mem_hex8 c hc)
      omega
    · rw [List.mem_singleton.1 hc]
      decide
  rw [procfileRead, if_neg (by decide)]
  dsimp only
  rw [htext, fscanfHex, chars_bytes hascii, scanHex_hex8 _ (by simp; decide), Option.map_some]

end SerialServer.Gpio8308
