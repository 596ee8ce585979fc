import Mathlib.Logic.Function.Basic
import Mathlib.Data.List.Basic
import Mathlib.Tactic.Common

/-!
# SerialServer.Core.Machine

The part of a C machine that a byte-level wire format depends on.

Two things differ between the machines such a program runs on, and a `Machine`
fixes both: the order in which an `int` lies in memory, and whether a plain
`char` is signed (so that `c` promoted to `int` is negative for bytes from
`0x80` on). Everything else is fixed-width arithmetic on bit patterns: a `char`
is a `Byte`, an `int` (or an `in_addr_t`) is a `Word`, and both wrap.

The two facts clients use are that `0x0ff & c` does not depend on the sign of
`char` (`Machine.lowByte_eq`), and that an integer written through `htonl` lies
in memory most significant byte first on either machine
(`Machine.bytesOf_htonl`, `Machine.ntohl_ofBytes`).
-/

namespace SerialServer

/-- A `char` as it lies in memory. -/
abbrev Byte := BitVec 8

/-- A 32-bit C integer (`int`, `unsigned int`, `in_addr_t`) as a bit pattern. -/
abbrev Word := BitVec 32

/-- The order in which the bytes of an integer lie in memory. -/
inductive ByteOrder
  | big
  | little
  deriving Repr, DecidableEq

/-- Whether plain `char` is a signed type. -/
inductive CharSign
  | signed
  | unsigned
  deriving Repr, DecidableEq

/-- A C machine, as far as a wire format can see it. -/
structure Machine where
  order : ByteOrder
  charSign : CharSign
  deriving Repr, DecidableEq

/-! ### Integers as four bytes -/

/-- The four bytes of `w`, most significant first (network order). -/
def netBytes (w : Word) : List Byte :=
  [w.extractLsb' 24 8, w.extractLsb' 16 8, w.extractLsb' 8 8, w.extractLsb' 0 8]

/-- The integer whose bytes are given most significant first. -/
def ofNetBytes (b₀ b₁ b₂ b₃ : Byte) : Word := b₀ ++ b₁ ++ b₂ ++ b₃

/-- The integer with its four bytes reversed. -/
def bswap (w : Word) : Word :=
  ofNetBytes (w.extractLsb' 0 8) (w.extractLsb' 8 8) (w.extractLsb' 16 8) (w.extractLsb' 24 8)

@[simp] theorem netBytes_length (w : Word) : (netBytes w).length = 4 := rfl

/-- Splitting an integer into bytes and joining them again gives it back. -/
theorem ofNetBytes_extract (w : Word) :
    ofNetBytes (w.extractLsb' 24 8) (w.extractLsb' 16 8) (w.extractLsb' 8 8)
      (w.extractLsb' 0 8) = w := by
  apply BitVec.eq_of_getLsbD_eq
  intro i hi
  simp only [ofNetBytes, BitVec.getLsbD_append, BitVec.getLsbD_extractLsb']
  by_cases h8 : i < 8
  · simp [h8]
  by_cases h16 : i < 16
  · simp [h8, show i - 8 < 8 by omega, show 8 + (i - 8) = i by omega]
  by_cases h24 : i < 24
  · simp [h8, show ¬ i - 8 < 8 by omega, show i - 8 - 8 < 8 by omega,
      show 16 + (i - 8 - 8) = i by omega]
  · simp [h8, show ¬ i - 8 < 8 by omega, show ¬ i - 8 - 8 < 8 by omega,
      show i - 8 - 8 - 8 < 8 by omega, show 24 + (i - 8 - 8 - 8) = i by omega]

/-- Joining four bytes and splitting the integer again gives them back. -/
theorem netBytes_ofNetBytes (b₀ b₁ b₂ b₃ : Byte) :
    netBytes (ofNetBytes b₀ b₁ b₂ b₃) = [b₀, b₁, b₂, b₃] := by
  have part : ∀ k < 4, ∀ i < 8, (ofNetBytes b₀ b₁ b₂ b₃).getLsbD (8 * k + i) =
      ([b₃, b₂, b₁, b₀].getD k 0).getLsbD i := by
    intro k hk i hi
    simp only [ofNetBytes, BitVec.getLsbD_append]
    match k, hk with
    | 0, _ => simp [hi]
    | 1, _ => simp [show ¬ 8 + i < 8 by omega, hi]
    | 2, _ => simp [show ¬ 16 + i < 8 by omega, show ¬ 16 + i - 8 < 8 by omega,
        show 16 + i - 8 - 8 = i by omega, hi]
    | 3, _ => simp [show ¬ 24 + i < 8 by omega, show ¬ 24 + i - 8 < 8 by omega,
        show ¬ 24 + i - 8 - 8 < 8 by omega, show 24 + i - 8 - 8 - 8 = i by omega]
  have field : ∀ k < 4, (ofNetBytes b₀ b₁ b₂ b₃).extractLsb' (8 * k) 8 =
      [b₃, b₂, b₁, b₀].getD k 0 := by
    intro k hk
    apply BitVec.eq_of_getLsbD_eq
    intro i hi
    rw [BitVec.getLsbD_extractLsb', part k hk i hi]
    simp [hi]
  have f₃ := field 3 (by omega)
  have f₂ := field 2 (by omega)
  have f₁ := field 1 (by omega)
  have f₀ := field 0 (by omega)
  simp only [netBytes]
  exact congrArg₂ _ f₃ (congrArg₂ _ f₂ (congrArg₂ _ f₁ (congrArg₂ _ f₀ rfl)))

theorem ofNetBytes_inj {a₀ a₁ a₂ a₃ b₀ b₁ b₂ b₃ : Byte}
    (h : ofNetBytes a₀ a₁ a₂ a₃ = ofNetBytes b₀ b₁ b₂ b₃) :
    a₀ = b₀ ∧ a₁ = b₁ ∧ a₂ = b₂ ∧ a₃ = b₃ := by
  have h' := congrArg netBytes h
  simpa [netBytes_ofNetBytes] using h'

theorem bswap_ofNetBytes (b₀ b₁ b₂ b₃ : Byte) :
    bswap (ofNetBytes b₀ b₁ b₂ b₃) = ofNetBytes b₃ b₂ b₁ b₀ := by
  have h := netBytes_ofNetBytes b₀ b₁ b₂ b₃
  simp only [netBytes, List.cons.injEq, and_true] at h
  obtain ⟨h₀, h₁, h₂, h₃⟩ := h
  rw [bswap, h₀, h₁, h₂, h₃]

namespace Machine

/-! ### `char` and `int` -/

/-- The integer promotion of a `char`. -/
def promote (m : Machine) (c : Byte) : Word :=
  match m.charSign with
  | .signed => c.signExtend 32
  | .unsigned => c.setWidth 32

/-- The expression `0x0ff & c`. -/
def lowByte (m : Machine) (c : Byte) : Word := 0x0ff &&& m.promote c

/-- Masking removes the sign extension: `0x0ff & c` is the byte's own value. -/
theorem lowByte_eq (m : Machine) (c : Byte) : m.lowByte c = c.setWidth 32 := by
  have mask : ∀ i < 32, (0x0ff : Word).getLsbD i = decide (i < 8) := by decide
  apply BitVec.eq_of_getLsbD_eq
  intro i hi
  rw [lowByte, promote, BitVec.getLsbD_and, mask i hi]
  by_cases h8 : i < 8
  · cases m.charSign <;> simp [BitVec.getElem_signExtend, h8, hi]
  · have hc : c.getLsbD i = false := BitVec.getLsbD_of_ge _ _ (by omega)
    simp [h8, hc]

theorem lowByte_toNat (m : Machine) (c : Byte) : (m.lowByte c).toNat = c.toNat := by
  rw [lowByte_eq, BitVec.toNat_setWidth]
  have := c.isLt
  omega

theorem lowByte_inj {m : Machine} {c d : Byte} (h : m.lowByte c = m.lowByte d) : c = d := by
  have h' := congrArg BitVec.toNat h
  rw [lowByte_toNat, lowByte_toNat] at h'
  exact BitVec.eq_of_toNat_eq h'

/-! ### Integers in memory -/

/-- The bytes of an `int` in the order they lie in memory. -/
def bytesOf (m : Machine) (w : Word) : List Byte :=
  match m.order with
  | .big => netBytes w
  | .little => (netBytes w).reverse

/-- The `int` whose bytes lie in memory as `b₀ b₁ b₂ b₃`. -/
def ofBytes (m : Machine) (b₀ b₁ b₂ b₃ : Byte) : Word :=
  match m.order with
  | .big => ofNetBytes b₀ b₁ b₂ b₃
  | .little => ofNetBytes b₃ b₂ b₁ b₀

/-- `htonl`: host to network order. -/
def htonl (m : Machine) (w : Word) : Word :=
  match m.order with
  | .big => w
  | .little => bswap w

/-- `ntohl`: network to host order, the same permutation of bytes. -/
def ntohl (m : Machine) (w : Word) : Word := m.htonl w

@[simp] theorem bytesOf_length (m : Machine) (w : Word) : (m.bytesOf w).length = 4 := by
  cases h : m.order <;> simp [bytesOf, h]

/-- An integer put through `htonl` lies in memory in network order. -/
theorem bytesOf_htonl (m : Machine) (w : Word) : m.bytesOf (m.htonl w) = netBytes w := by
  cases h : m.order with
  | big => simp [bytesOf, htonl, h]
  | little =>
      simp only [bytesOf, htonl, h]
      rw [bswap, netBytes_ofNetBytes]
      rfl

/-- `ntohl` of four bytes copied from memory reads them in network order. -/
theorem ntohl_ofBytes (m : Machine) (b₀ b₁ b₂ b₃ : Byte) :
    m.ntohl (m.ofBytes b₀ b₁ b₂ b₃) = ofNetBytes b₀ b₁ b₂ b₃ := by
  cases h : m.order with
  | big => simp [ntohl, htonl, ofBytes, h]
  | little => simp [ntohl, htonl, ofBytes, h, bswap_ofNetBytes]

theorem ofBytes_inj {m : Machine} {a₀ a₁ a₂ a₃ b₀ b₁ b₂ b₃ : Byte}
    (h : m.ofBytes a₀ a₁ a₂ a₃ = m.ofBytes b₀ b₁ b₂ b₃) :
    a₀ = b₀ ∧ a₁ = b₁ ∧ a₂ = b₂ ∧ a₃ = b₃ := by
  cases ho : m.order with
  | big =>
      simp only [ofBytes, ho] at h
      exact ofNetBytes_inj h
  | little =>
      simp only [ofBytes, ho] at h
      obtain ⟨h₃, h₂, h₁, h₀⟩ := ofNetBytes_inj h
      exact ⟨h₀, h₁, h₂, h₃⟩

end Machine

end SerialServer
