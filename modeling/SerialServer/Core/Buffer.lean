import Mathlib.Data.List.GetD
import SerialServer.Core.Machine

/-!
# SerialServer.Core.Buffer

Character buffers as a program sees them through a pointer.

A `Buf` gives the byte at every offset of a pointer; nothing records how many of
them a message has filled in, so a read past the received bytes returns whatever
an earlier message left there, as it does in memory. `store` models a run of
assignments to consecutive elements (and `read`/`recvfrom`, which fill a prefix),
`offset` models pointer arithmetic, and `slice` reads a run of elements out.

`Agree n b b'` says that two buffers have the same first `n` bytes; it is the
relation a statement about received bytes is made with.
-/

namespace SerialServer

/-- The bytes a `char *` points at, by offset. -/
abbrev Buf := Nat → Byte

namespace Buf

/-- Assign `xs` to the elements `p, p+1, …`. -/
def store (b : Buf) (p : Nat) (xs : List Byte) : Buf := fun i =>
  if i < p then b i else xs.getD (i - p) (b i)

/-- The pointer `b + p`. -/
def offset (b : Buf) (p : Nat) : Buf := fun i => b (p + i)

/-- The `n` bytes from offset `p` on. -/
def slice (b : Buf) (p n : Nat) : List Byte := (List.range n).map fun i => b (p + i)

/-- The `int` that `bcopy(b + p, &x, 4)` leaves in `x`. -/
def loadInt (m : Machine) (b : Buf) (p : Nat) : Word :=
  m.ofBytes (b p) (b (p + 1)) (b (p + 2)) (b (p + 3))

/-! ### Reading back what was stored -/

theorem store_lt {b : Buf} {p : Nat} {xs : List Byte} {i : Nat} (h : i < p) :
    b.store p xs i = b i := by
  simp [store, h]

theorem store_ge {b : Buf} {p : Nat} {xs : List Byte} {i : Nat} (h : p + xs.length ≤ i) :
    b.store p xs i = b i := by
  have hi : ¬ i < p := by omega
  have hx : xs.length ≤ i - p := by omega
  simp [store, hi, List.getElem?_eq_none hx]

theorem store_add {b : Buf} {p : Nat} {xs : List Byte} {i : Nat} (h : i < xs.length) :
    b.store p xs (p + i) = xs[i] := by
  have hi : ¬ p + i < p := by omega
  simp [store, hi, h]

/-- One assignment. -/
theorem store_singleton (b : Buf) (p : Nat) (c : Byte) : b.store p [c] = Function.update b p c := by
  funext i
  by_cases hi : i = p
  · subst hi
    simp [store]
  · rw [Function.update_of_ne hi]
    by_cases hlt : i < p
    · exact store_lt hlt
    · exact store_ge (by simp; omega)

@[simp] theorem offset_zero (b : Buf) : b.offset 0 = b := by
  funext i
  simp [offset]

/-- Storing at a pointer is storing at its offset. -/
theorem offset_store (b : Buf) (p : Nat) (xs : List Byte) :
    (b.store p xs).offset p = (b.offset p).store 0 xs := by
  funext i
  have hi : ¬ p + i < p := by omega
  simp [offset, store, hi]

/-- Two adjacent stores are one. -/
theorem store_store (b : Buf) (p : Nat) (xs ys : List Byte) :
    (b.store p xs).store (p + xs.length) ys = b.store p (xs ++ ys) := by
  funext i
  by_cases hp : i < p
  · rw [store_lt (by omega), store_lt hp, store_lt hp]
  by_cases hx : i < p + xs.length
  · obtain ⟨k, rfl⟩ : ∃ k, i = p + k := ⟨i - p, by omega⟩
    rw [store_lt hx, store_add (by omega), store_add (by simp; omega),
      List.getElem_append_left (by omega)]
  by_cases hy : i < p + xs.length + ys.length
  · obtain ⟨k, rfl⟩ : ∃ k, i = p + xs.length + k := ⟨i - (p + xs.length), by omega⟩
    rw [store_add (by omega), Nat.add_assoc, store_add (by simp; omega),
      List.getElem_append_right (by omega)]
    simp
  · rw [store_ge (by omega), store_ge (by omega), store_ge (by simp; omega)]

/-! ### Slices -/

@[simp] theorem slice_length (b : Buf) (p n : Nat) : (b.slice p n).length = n := by
  simp [slice]

theorem getElem_slice (b : Buf) (p n i : Nat) (h : i < (b.slice p n).length) :
    (b.slice p n)[i] = b (p + i) := by
  simp [slice]

theorem slice_succ (b : Buf) (p n : Nat) : b.slice p (n + 1) = b.slice p n ++ [b (p + n)] := by
  simp [slice, List.range_succ]

theorem slice_append (b : Buf) (p n k : Nat) :
    b.slice p (n + k) = b.slice p n ++ b.slice (p + n) k := by
  induction k with
  | zero => simp [slice]
  | succ k ih => rw [← Nat.add_assoc, slice_succ, ih, slice_succ, List.append_assoc, Nat.add_assoc]

theorem slice_cons (b : Buf) (p n : Nat) : b.slice p (n + 1) = b p :: b.slice (p + 1) n := by
  rw [Nat.add_comm n 1, slice_append]
  rfl

theorem slice_congr {b b' : Buf} {p n : Nat} (h : ∀ i < n, b (p + i) = b' (p + i)) :
    b.slice p n = b'.slice p n := by
  apply List.map_congr_left
  intro i hi
  exact h i (List.mem_range.1 hi)

/-- What was stored at `p` is read back there. -/
@[simp] theorem slice_store (b : Buf) (p : Nat) (xs : List Byte) :
    (b.store p xs).slice p xs.length = xs := by
  apply List.ext_getElem (by simp)
  intro i h₁ h₂
  rw [getElem_slice, store_add h₂]

/-- A part of what was stored is read back at its place. -/
theorem slice_store_mid (b : Buf) (xs ys zs : List Byte) :
    (b.store 0 (xs ++ ys ++ zs)).slice xs.length ys.length = ys := by
  have hs := slice_store (b.store 0 xs) xs.length (ys ++ zs)
  have hb := store_store b 0 xs (ys ++ zs)
  rw [Nat.zero_add, ← List.append_assoc] at hb
  rw [hb, List.length_append, slice_append] at hs
  exact (List.append_inj hs (by simp)).1

/-! ### Moving elements by one -/

/-- `for (i = p; i < p + n; i++) b[i] = b[i + 1];` -/
def pullDown (b : Buf) (p : Nat) : Nat → Buf
  | 0 => b
  | n + 1 => pullDown (Function.update b p (b (p + 1))) (p + 1) n

/-- `for (j = p + n; j > p; j--) b[j + 1] = b[j];` -/
def pushUp (b : Buf) (p : Nat) : Nat → Buf
  | 0 => b
  | n + 1 => pushUp (Function.update b (p + n + 2) (b (p + n + 1))) p n

theorem pullDown_apply (b : Buf) (p n i : Nat) :
    b.pullDown p n i = if p ≤ i ∧ i < p + n then b (i + 1) else b i := by
  induction n generalizing b p with
  | zero => rw [pullDown, if_neg (by omega)]
  | succ n ih =>
    rw [pullDown, ih]
    by_cases hi : i = p
    · subst hi
      rw [if_neg (by omega), if_pos (by omega), Function.update_self]
    · rw [Function.update_of_ne hi]
      by_cases hin : p + 1 ≤ i ∧ i < p + 1 + n
      · rw [if_pos hin, if_pos (by omega), Function.update_of_ne (by omega)]
      · rw [if_neg hin, if_neg (by omega)]

theorem pushUp_apply (b : Buf) (p n i : Nat) :
    b.pushUp p n i = if p + 1 < i ∧ i ≤ p + n + 1 then b (i - 1) else b i := by
  induction n generalizing b with
  | zero => rw [pushUp, if_neg (by omega)]
  | succ n ih =>
    rw [pushUp, ih]
    by_cases hi : i = p + n + 2
    · subst hi
      rw [if_neg (by omega), if_pos (by omega), Function.update_self]
      rfl
    · rw [Function.update_of_ne hi]
      by_cases hin : p + 1 < i ∧ i ≤ p + n + 1
      · rw [if_pos hin, if_pos (by omega), Function.update_of_ne (by omega)]
      · rw [if_neg hin, if_neg (by omega)]

/-! ### Received bytes -/

/-- A buffer with the bytes `d` and zeros behind them. -/
def ofList (d : List Byte) : Buf := fun i => d.getD i 0

/-- The first bytes of `b` are the bytes `d`. -/
def Receives (d : List Byte) (b : Buf) : Prop := b.slice 0 d.length = d

theorem receives_store (d : List Byte) (b : Buf) : Receives d (b.store 0 d) :=
  slice_store b 0 d

theorem Receives.getD {d : List Byte} {b : Buf} (h : Receives d b) {i : Nat} (hi : i < d.length) :
    b i = d.getD i 0 := by
  have hs := getElem_slice b 0 d.length i (by simpa using hi)
  rw [Nat.zero_add] at hs
  rw [← hs, List.getD_eq_getElem _ _ hi]
  simp only [show b.slice 0 d.length = d from h]

theorem receives_ofList (d : List Byte) : Receives d (ofList d) := by
  apply List.ext_getElem (by simp)
  intro i h₁ h₂
  rw [getElem_slice, Nat.zero_add, ofList, List.getD_eq_getElem _ _ h₂]

theorem Receives.slice {d : List Byte} {b : Buf} (h : Receives d b) {n : Nat} (hn : n ≤ d.length) :
    b.slice 0 n = d.take n := by
  apply List.ext_getElem (by simp [hn])
  intro i h₁ h₂
  rw [getElem_slice, Nat.zero_add, h.getD (by simp at h₂; omega), List.getElem_take,
    List.getD_eq_getElem]

/-! ### Buffers with a common prefix -/

/-- The two buffers have the same first `n` bytes. -/
def Agree (n : Nat) (b b' : Buf) : Prop := ∀ i < n, b i = b' i

theorem Agree.refl (n : Nat) (b : Buf) : Agree n b b := fun _ _ => rfl

theorem Agree.symm {n : Nat} {b b' : Buf} (h : Agree n b b') : Agree n b' b :=
  fun i hi => (h i hi).symm

theorem Agree.mono {n k : Nat} {b b' : Buf} (h : Agree n b b') (hk : k ≤ n) : Agree k b b' :=
  fun i hi => h i (by omega)

theorem Agree.slice {n k : Nat} {b b' : Buf} (h : Agree n b b') (hk : k ≤ n) :
    b.slice 0 k = b'.slice 0 k :=
  slice_congr fun i hi => by simpa using h i (by omega)

theorem Agree.loadInt {n p : Nat} {b b' : Buf} (h : Agree n b b') (hp : p + 4 ≤ n)
    (m : Machine) : b.loadInt m p = b'.loadInt m p := by
  simp only [Buf.loadInt, h p (by omega), h (p + 1) (by omega), h (p + 2) (by omega),
    h (p + 3) (by omega)]

/-- Two buffers that have received the same bytes agree on them. -/
theorem Receives.agree {d : List Byte} {b b' : Buf} (h : Receives d b) (h' : Receives d b') :
    Agree d.length b b' := by
  intro i hi
  rw [h.getD hi, h'.getD hi]

/-- A buffer that agrees with one that has received `d` has received it too. -/
theorem Receives.of_agree {d : List Byte} {b b' : Buf} (h : Receives d b)
    (ha : Agree d.length b b') : Receives d b' :=
  (ha.slice (Nat.le_refl _)).symm.trans h

end Buf

end SerialServer
