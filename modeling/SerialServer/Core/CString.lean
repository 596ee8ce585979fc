import Mathlib.Logic.Function.Basic
import Mathlib.Tactic.Common

/-!
# SerialServer.Core.CString

Strings in memory, and the pieces a text file is read in.

A memory gives the character at every address. `strcpy` writes a string and the NUL behind it,
and nothing else (`strcpy_of_lt`, `strcpy_of_gt`); what it has written is read back from a
field that is long enough (`stringAt_strcpy`).

`fgets` reads a line, or as much of it as there is room for. Whatever the room, a newline ends
a piece (`fgets_newline`), and a line that fits is one piece (`fgets_line`).
-/

namespace SerialServer.CString

/-- The character that ends a string. -/
def nul : Char := Char.ofNat 0

/-- `strcpy`. -/
def strcpy (mem : Int → Char) (p : Int) : List Char → Int → Char
  | [] => Function.update mem p nul
  | c :: cs => strcpy (Function.update mem p c) (p + 1) cs

/-- The string that starts at an address, as far as the next `k` bytes go. -/
def stringAt (mem : Int → Char) (p : Int) : Nat → List Char
  | 0 => []
  | k + 1 => if mem p = nul then [] else mem p :: stringAt mem (p + 1) k

/-- `fgets(buf, n, fp)` until there is no more: what each call leaves in `buf`, from what is in
it and what is left of the file. -/
def fgets (n : Nat) : List Char → List Char → List (List Char)
  | buf, [] => if buf = [] then [] else [buf]
  | buf, c :: cs =>
      if c = '\n' ∨ buf.length + 2 = n then (buf ++ [c]) :: fgets n [] cs
      else fgets n (buf ++ [c]) cs

/-! ### Copies -/

theorem strcpy_of_lt {mem : Int → Char} {p a : Int} (s : List Char) (h : a < p) :
    strcpy mem p s a = mem a := by
  induction s generalizing mem p with
  | nil => exact Function.update_of_ne (by omega) _ _
  | cons c s ih => rw [strcpy, ih (by omega), Function.update_of_ne (by omega)]

theorem strcpy_of_gt {mem : Int → Char} {p a : Int} {s : List Char} (h : p + s.length < a) :
    strcpy mem p s a = mem a := by
  induction s generalizing mem p with
  | nil => exact Function.update_of_ne (by simp at h; omega) _ _
  | cons c s ih =>
    rw [List.length_cons] at h
    rw [strcpy, ih (by omega), Function.update_of_ne (by omega)]

/-- A copy starts at its first byte whatever stood there. -/
theorem strcpy_update (mem : Int → Char) (p : Int) (c : Char) (s : List Char) :
    strcpy (Function.update mem p c) p s = strcpy mem p s := by
  cases s with
  | nil => exact Function.update_idem _ _ _
  | cons d s => rw [strcpy, strcpy, Function.update_idem]

/-- **A string is read back** from a field that has room for it. -/
theorem stringAt_strcpy {s : List Char} (hs : ∀ c ∈ s, c ≠ nul) (mem : Int → Char) (p : Int)
    {k : Nat} (hk : s.length < k) : stringAt (strcpy mem p s) p k = s := by
  induction s generalizing mem p k with
  | nil =>
    obtain ⟨k, rfl⟩ := Nat.exists_eq_add_one_of_ne_zero (Nat.ne_of_gt hk)
    exact if_pos (Function.update_self _ _ _)
  | cons c s ih =>
    rw [List.length_cons] at hk
    obtain ⟨k, rfl⟩ := Nat.exists_eq_add_one_of_ne_zero (by omega : k ≠ 0)
    have hc : strcpy mem p (c :: s) p = c := by
      rw [strcpy, strcpy_of_lt s (by omega), Function.update_self]
    rw [stringAt, hc, if_neg (hs c (by simp)), strcpy, ih (fun d hd => hs d (by simp [hd]))]
    omega

theorem stringAt_congr {mem mem' : Int → Char} {p : Int} {k : Nat}
    (h : ∀ a, p ≤ a → a < p + k → mem a = mem' a) :
    stringAt mem p k = stringAt mem' p k := by
  induction k generalizing p with
  | zero => rfl
  | succ k ih =>
    have hp := h p (by omega) (by omega)
    rw [stringAt, stringAt, hp, ih fun a ha ha' => h a (by omega) (by omega)]

/-- A string that ends in the next `k` bytes is all of it. -/
theorem stringAt_of_lt {mem : Int → Char} {p : Int} {k m : Nat}
    (h : (stringAt mem p k).length < k) (hm : k ≤ m) : stringAt mem p m = stringAt mem p k := by
  induction k generalizing p m with
  | zero => exact absurd h (Nat.not_lt_zero _)
  | succ k ih =>
    obtain ⟨m, rfl⟩ := Nat.exists_eq_add_one_of_ne_zero (by omega : m ≠ 0)
    rw [stringAt] at h ⊢
    rw [stringAt]
    split at h
    · next hnul => rw [if_pos hnul, if_pos hnul]
    · next hnul =>
      rw [List.length_cons] at h
      rw [if_neg hnul, if_neg hnul, ih (by omega) (by omega)]

/-! ### Pieces of a file -/

/-- A newline ends a piece. -/
theorem fgets_newline (n : Nat) (buf l rest : List Char) :
    fgets n buf (l ++ '\n' :: rest) = fgets n buf (l ++ ['\n']) ++ fgets n [] rest := by
  induction l generalizing buf with
  | nil => simp [fgets]
  | cons c l ih =>
    rw [List.cons_append, List.cons_append, fgets, fgets]
    split
    · rw [ih, List.cons_append]
    · rw [ih]

/-- A line that fits is one piece. -/
theorem fgets_line {n : Nat} {buf l : List Char} (hl : '\n' ∉ l) (hlen : buf.length + l.length < n)
    (hne : buf ++ l ≠ []) : fgets n buf l = [buf ++ l] := by
  induction l generalizing buf with
  | nil =>
    rw [List.append_nil] at hne ⊢
    rw [fgets, if_neg hne]
  | cons c l ih =>
    obtain ⟨hc, hl'⟩ := List.ne_and_not_mem_of_not_mem_cons hl
    rw [List.length_cons] at hlen
    rw [fgets]
    split
    · next h =>
      have hfull : buf.length + 2 = n := h.resolve_left hc.symm
      have hnil : l = [] := List.length_eq_zero_iff.1 (by omega)
      rw [hnil, fgets, if_pos rfl]
    · have hlen' : (buf ++ [c]).length + l.length < n := by
        rw [List.length_append, List.length_singleton]
        omega
      rw [ih hl' hlen' (by simp), List.append_assoc, List.singleton_append]

end SerialServer.CString
