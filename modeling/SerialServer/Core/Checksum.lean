import Mathlib.Algebra.BigOperators.Group.List.Basic
import Mathlib.Data.BitVec
import SerialServer.Core.Buffer

/-!
# SerialServer.Core.Checksum

The complement checksum: a message is closed by the byte that makes the sum of
all its bytes `0xff` modulo 256.

`checkByte` is that byte and `withCheck` appends it. A message is intact exactly when
its bytes sum to `0xff` (`sum_snoc_iff`), and `accumulate`, the loop a C program
computes the sum with, agrees with the sum over the byte list whatever the
machine's `char` is (`setWidth_accumulate`).
-/

namespace SerialServer

/-- The byte that closes a message: the complement of the sum of its bytes. -/
def checkByte (xs : List Byte) : Byte := 0xff - xs.sum

/-- A message with its closing check byte. -/
def withCheck (xs : List Byte) : List Byte := xs ++ [checkByte xs]

@[simp] theorem withCheck_length (xs : List Byte) : (withCheck xs).length = xs.length + 1 := by
  simp [withCheck]

/-- A closing byte makes the sum `0xff` exactly when it is the check byte. -/
theorem sum_snoc_iff (xs : List Byte) (c : Byte) :
    (xs ++ [c]).sum = 0xff ↔ c = checkByte xs := by
  rw [List.sum_append, List.sum_singleton, checkByte, eq_sub_iff_add_eq, add_comm]

@[simp] theorem sum_withCheck (xs : List Byte) : (withCheck xs).sum = 0xff :=
  (sum_snoc_iff xs _).2 rfl

/-- The sum of the first `n` masked bytes, accumulated in an `int`:
`for (i = 0; i < n; i++) ret += 0x0ff & p[i];`. -/
def accumulate (m : Machine) (p : Buf) : Nat → Word
  | 0 => 0
  | n + 1 => accumulate m p n + m.lowByte (p n)

/-- The low byte of the accumulated `int` is the sum of the bytes. -/
theorem setWidth_accumulate (m : Machine) (p : Buf) (n : Nat) :
    (accumulate m p n).setWidth 8 = (p.slice 0 n).sum := by
  induction n with
  | zero => rfl
  | succ n ih =>
      rw [accumulate, BitVec.setWidth_add _ _ (by omega), ih, Machine.lowByte_eq,
        BitVec.setWidth_setWidth_of_le _ (by omega), BitVec.setWidth_eq, Buf.slice_succ,
        List.sum_append, List.sum_singleton, Nat.zero_add]

/-- Another byte at one place changes the sum by the difference of the two. -/
theorem sum_slice_update (p : Buf) {i n : Nat} (hi : i < n) (c : Byte) :
    (Buf.slice (Function.update p i c) 0 n).sum + p i = (p.slice 0 n).sum + c := by
  induction n with
  | zero => omega
  | succ n ih =>
    rw [Buf.slice_succ, Buf.slice_succ, List.sum_append, List.sum_append, List.sum_singleton,
      List.sum_singleton, Nat.zero_add]
    by_cases hin : i = n
    · -- The bytes before the changed one are as they were.
      subst hin
      have hbefore : Buf.slice (Function.update p i c) 0 i = p.slice 0 i :=
        Buf.slice_congr fun k hk => Function.update_of_ne (by omega) _ _
      rw [hbefore, Function.update_self, add_assoc, add_assoc, add_comm c]
    · rw [Function.update_of_ne (Ne.symm hin), add_right_comm, ih (by omega), add_right_comm]

/-- Masking an `int` and complementing it in `0xff` only looks at its low byte. -/
theorem complement_eq (w : Word) :
    0x0ff - (0x0ff &&& w) = (0xff - w.setWidth 8 : Byte).setWidth 32 := by
  apply BitVec.eq_of_toNat_eq
  have mask : (0x0ff &&& w : Word).toNat = w.toNat % 256 := by
    rw [BitVec.toNat_and, Nat.and_comm]
    exact Nat.and_two_pow_sub_one_eq_mod w.toNat 8
  have wide : (0x0ff : Word).toNat = 255 := rfl
  have narrow : (0xff : Byte).toNat = 255 := rfl
  simp only [BitVec.toNat_sub, BitVec.toNat_setWidth, mask, wide, narrow]
  omega

end SerialServer
