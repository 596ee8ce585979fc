import Mathlib.Data.List.GetD
import SerialServer.Core.Checksum

/-!
# SerialServer.Wire.Frame

The message format shared by the reporter, the server and the clients.

A message is a type byte, an index byte, a length byte `n`, `n` payload bytes and
one check byte. Each of the three programs carries its own copy of the function
that computes the check byte (`crc` in `mrs2lib.c` and `tcpc.c`, `mycrc` in
`dataxfer.c`); the copies have one text, which is `complementSum` here, and each
keeps its own name in the module of its program.

`crcOk` is the test a receiver makes. It is run on a buffer, not on a message: the
position of the check byte and the number of bytes summed both come from the
length byte found in the buffer. `IsFrame` says what a complete message is as a
list of bytes; a buffer that starts with one passes the test
(`crcOk_of_isFrame`), and the test looks at those bytes only (`crcOk_congr`).
-/

namespace SerialServer

/-- `crc`, `mycrc`: the complement of the sum of the first `p[2] + 3` bytes. -/
def complementSum (m : Machine) (p : Buf) : Word :=
  let len := m.lowByte (p 2)
  let n := len.toNat + 3
  let ret := accumulate m p n
  0x0ff - (0x0ff &&& ret)

theorem complementSum_eq (m : Machine) (p : Buf) :
    complementSum m p = (checkByte (p.slice 0 ((p 2).toNat + 3))).setWidth 32 := by
  simp only [complementSum, Machine.lowByte_toNat, complement_eq, setWidth_accumulate, checkByte]

/-- The receiver's test: the byte after the payload is the checksum. -/
def crcOk (m : Machine) (p : Buf) : Bool :=
  let check := (m.lowByte (p 2)).toNat + 4 - 1
  decide (m.lowByte (p check) = complementSum m p)

/-- The test passes exactly when the bytes of the message sum to `0xff`. -/
theorem crcOk_iff (m : Machine) (p : Buf) :
    crcOk m p = true ↔ (p.slice 0 ((p 2).toNat + 4)).sum = 0xff := by
  have h32 : ∀ c d : Byte, c.setWidth 32 = d.setWidth 32 ↔ c = d := by
    intro c d
    constructor
    · intro h
      have h' := congrArg (BitVec.setWidth 8) h
      simpa [BitVec.setWidth_setWidth_of_le] using h'
    · rintro rfl
      rfl
  have hs : p.slice 0 ((p 2).toNat + 4) =
      p.slice 0 ((p 2).toNat + 3) ++ [p ((p 2).toNat + 3)] := by
    rw [Buf.slice_succ, Nat.zero_add]
  rw [crcOk, decide_eq_true_iff, Machine.lowByte_eq, complementSum_eq, Machine.lowByte_toNat, h32,
    hs, sum_snoc_iff]
  rfl

/-- The test reads the message and nothing after it. -/
theorem crcOk_congr (m : Machine) {p q : Buf} (h : Buf.Agree ((p 2).toNat + 4) p q) :
    crcOk m p = crcOk m q := by
  have h2 : p 2 = q 2 := h 2 (by omega)
  rw [Bool.eq_iff_iff, crcOk_iff, crcOk_iff, ← h2, h.slice (Nat.le_refl _)]

/-- **One changed byte is noticed**, unless it is the length byte. -/
theorem crcOk_update {m : Machine} {p : Buf} (h : crcOk m p = true) {i : Nat}
    (hi : i < (p 2).toNat + 4) (h2 : i ≠ 2) {c : Byte} (hc : c ≠ p i) :
    crcOk m (Function.update p i c) = false := by
  have hlen : Function.update p i c 2 = p 2 := Function.update_of_ne h2.symm _ _
  have hsum := sum_slice_update p hi c
  rw [(crcOk_iff m p).1 h] at hsum
  rw [Bool.eq_false_iff, Ne, crcOk_iff, hlen]
  intro hok
  rw [hok] at hsum
  exact hc (add_left_cancel hsum).symm

/-- A complete message: its length byte accounts for its length, and its bytes sum
to `0xff`. -/
def IsFrame (f : List Byte) : Prop :=
  f.length = (f.getD 2 0).toNat + 4 ∧ f.sum = 0xff

instance (f : List Byte) : Decidable (IsFrame f) := inferInstanceAs (Decidable (_ ∧ _))

theorem IsFrame.four_le {f : List Byte} (h : IsFrame f) : 4 ≤ f.length := by
  have := h.1
  omega

/-- A message is at most 259 bytes long. -/
theorem IsFrame.length_le {f : List Byte} (h : IsFrame f) : f.length ≤ 259 := by
  have := h.1
  have := (f.getD 2 0).isLt
  omega

/-- Head and payload, closed by the check byte, are a message. -/
theorem isFrame_withCheck {xs : List Byte} (h : xs.length = (xs.getD 2 0).toNat + 3) :
    IsFrame (withCheck xs) := by
  refine ⟨?_, sum_withCheck xs⟩
  have h2 : (withCheck xs).getD 2 0 = xs.getD 2 0 := by
    rw [withCheck, List.getD_append _ _ _ _ (by omega)]
  rw [h2, withCheck_length, h]

/-- The byte at position `i` of a buffer a list was received into. -/
theorem store_zero {b : Buf} {xs : List Byte} {i : Nat} (h : i < xs.length) :
    b.store 0 xs i = xs.getD i 0 := by
  have h' := Buf.store_add (b := b) (p := 0) h
  rw [Nat.zero_add] at h'
  rw [h', List.getD_eq_getElem _ _ h]

/-- A buffer that starts with a message passes the test, whatever follows it. -/
theorem crcOk_of_isFrame (m : Machine) (b : Buf) {f : List Byte} (rest : List Byte)
    (h : IsFrame f) : crcOk m (b.store 0 (f ++ rest)) = true := by
  have h4 := h.four_le
  have h2 : b.store 0 (f ++ rest) 2 = f.getD 2 0 := by
    rw [store_zero (by simp; omega), List.getD_append _ _ _ _ (by omega)]
  rw [crcOk_iff, h2, ← h.1, ← h.2]
  congr 1
  apply List.ext_getElem (by simp)
  intro i hi hf
  rw [Buf.getElem_slice, Nat.zero_add, store_zero (by simp; omega),
    List.getD_append _ _ _ _ hf, List.getD_eq_getElem _ _ hf]

/-- The check byte a builder computes over the head and payload it has just stored. -/
theorem complementSum_store (m : Machine) (b : Buf) {xs : List Byte}
    (h : xs.length = (xs.getD 2 0).toNat + 3) :
    (complementSum m (b.store 0 xs)).setWidth 8 = checkByte xs := by
  rw [complementSum_eq, store_zero (by omega), ← h, Buf.slice_store,
    BitVec.setWidth_setWidth_of_le _ (by omega), BitVec.setWidth_eq]

/-- Storing a three-byte head, the payload behind it and then their check byte leaves
the closed message at `p`. -/
theorem store_frame (m : Machine) (b : Buf) (p : Nat) (head payload : List Byte)
    (hh : head.length = 3) (hp : payload.length = (head.getD 2 0).toNat) :
    ((b.store p head).store (p + 3) payload).store (p + (3 + payload.length))
        [(complementSum m (((b.store p head).store (p + 3) payload).offset p)).setWidth 8] =
      b.store p (withCheck (head ++ payload)) := by
  have hw : (b.store p head).store (p + 3) payload = b.store p (head ++ payload) := by
    rw [← hh, Buf.store_store]
  have hl : (head ++ payload).length = ((head ++ payload).getD 2 0).toNat + 3 := by
    rw [List.getD_append _ _ _ _ (by omega), List.length_append, hh, hp, Nat.add_comm]
  have hn : 3 + payload.length = (head ++ payload).length := by rw [List.length_append, hh]
  rw [hw, Buf.offset_store, complementSum_store m _ hl, hn, Buf.store_store, withCheck]

end SerialServer
