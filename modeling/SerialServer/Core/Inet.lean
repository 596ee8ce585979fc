import Mathlib.Algebra.Group.Nat.Defs
import Mathlib.Data.List.TakeWhile
import SerialServer.Core.Machine

/-!
# SerialServer.Core.Inet

`inet_ntoa` and `inet_aton`, on texts as lists of characters.

An `in_addr_t` keeps its four bytes in memory in the order they are written, so
both functions work on `Machine.bytesOf`. `inetAton` follows the C library: one
to four parts separated by dots, each decimal, octal (leading `0`) or
hexadecimal (leading `0x`), the last part filling the bytes that remain, and
anything from the first white space on ignored.

The text `inetNtoa` produces is read back as the address it was produced from
(`inetAton_inetNtoa`).
-/

namespace SerialServer

/-- The decimal digits of one byte of an address. -/
def octet (b : Byte) : List Char := Nat.toDigits 10 b.toNat

/-- `inet_ntoa`: the dotted decimal text of an address. -/
def inetNtoa (m : Machine) (a : Word) : List Char :=
  match m.bytesOf a with
  | [b₀, b₁, b₂, b₃] => octet b₀ ++ '.' :: (octet b₁ ++ '.' :: (octet b₂ ++ '.' :: octet b₃))
  | _ => []

/-- The value of a digit in base 16 or less. -/
def digitVal (c : Char) : Option Nat :=
  if '0' ≤ c ∧ c ≤ '9' then some (c.toNat - '0'.toNat)
  else if 'a' ≤ c ∧ c ≤ 'f' then some (c.toNat - 'a'.toNat + 10)
  else if 'A' ≤ c ∧ c ≤ 'F' then some (c.toNat - 'A'.toNat + 10)
  else none

/-- Read `ds` in the given base, after the digits with value `acc`. -/
def numeralFrom (base acc : Nat) : List Char → Option Nat
  | [] => some acc
  | c :: ds =>
      match digitVal c with
      | some d => if d < base then numeralFrom base (acc * base + d) ds else none
      | none => none

/-- Read a nonempty numeral in the given base. -/
def numeral (base : Nat) : List Char → Option Nat
  | [] => none
  | ds => numeralFrom base 0 ds

/-- One part of an address: a C numeral. -/
def inetPart : List Char → Option Nat
  | '0' :: 'x' :: ds => numeral 16 ds
  | '0' :: 'X' :: ds => numeral 16 ds
  | '0' :: ds => numeralFrom 8 0 ds
  | ds => numeral 10 ds

/-- The texts between the dots. -/
def splitDots : List Char → List (List Char)
  | [] => [[]]
  | c :: cs =>
      if c = '.' then [] :: splitDots cs
      else
        match splitDots cs with
        | [] => [[c]]
        | part :: parts => (c :: part) :: parts

/-- The address whose bytes, in the order they are written, are `n₀ n₁ n₂ n₃`. -/
def ofOctets (m : Machine) (n₀ n₁ n₂ n₃ : Nat) : Word :=
  m.ofBytes (BitVec.ofNat 8 n₀) (BitVec.ofNat 8 n₁) (BitVec.ofNat 8 n₂) (BitVec.ofNat 8 n₃)

/-- `inet_aton`: the address a text stands for, if it stands for one. -/
def inetAton (m : Machine) (text : List Char) : Option Word :=
  match (splitDots (text.takeWhile (fun c => !c.isWhitespace))).mapM inetPart with
  | some [a] => if a < 2 ^ 32 then
      some (ofOctets m (a / 2 ^ 24) (a / 2 ^ 16) (a / 2 ^ 8) a) else none
  | some [a, b] => if a < 2 ^ 8 ∧ b < 2 ^ 24 then
      some (ofOctets m a (b / 2 ^ 16) (b / 2 ^ 8) b) else none
  | some [a, b, c] => if a < 2 ^ 8 ∧ b < 2 ^ 8 ∧ c < 2 ^ 16 then
      some (ofOctets m a b (c / 2 ^ 8) c) else none
  | some [a, b, c, d] => if a < 2 ^ 8 ∧ b < 2 ^ 8 ∧ c < 2 ^ 8 ∧ d < 2 ^ 8 then
      some (ofOctets m a b c d) else none
  | _ => none

/-! ### Reading back what was printed -/

/-- The text of a byte is the numeral of its value, and holds no dot or blank. -/
theorem octet_spec (b : Byte) : inetPart (octet b) = some b.toNat ∧
    ∀ c ∈ octet b, c ≠ '.' ∧ c.isWhitespace = false := by
  have h : ∀ n < 256, inetPart (octet (BitVec.ofNat 8 n)) = some n ∧
      (octet (BitVec.ofNat 8 n)).all (fun c => c ≠ '.' ∧ c.isWhitespace = false) := by
    decide +kernel
  obtain ⟨hpart, hall⟩ := h b.toNat b.isLt
  rw [BitVec.ofNat_toNat, BitVec.setWidth_eq] at hpart hall
  exact ⟨hpart, fun c hc => of_decide_eq_true (List.all_eq_true.1 hall c hc)⟩

theorem splitDots_noDot {part : List Char} (h : ∀ c ∈ part, c ≠ '.') :
    splitDots part = [part] := by
  induction part with
  | nil => rfl
  | cons c cs ih =>
      have hc : c ≠ '.' := h c (by simp)
      have hcs : splitDots cs = [cs] := ih fun d hd => h d (by simp [hd])
      simp [splitDots, hc, hcs]

theorem splitDots_dot {part : List Char} (rest : List Char) (h : ∀ c ∈ part, c ≠ '.') :
    splitDots (part ++ '.' :: rest) = part :: splitDots rest := by
  induction part with
  | nil => simp [splitDots]
  | cons c cs ih =>
      have hc : c ≠ '.' := h c (by simp)
      have hcs := ih fun d hd => h d (by simp [hd])
      simp [splitDots, hc, hcs]

theorem bytesOf_eq (m : Machine) (a : Word) :
    ∃ b₀ b₁ b₂ b₃, m.bytesOf a = [b₀, b₁, b₂, b₃] ∧ m.ofBytes b₀ b₁ b₂ b₃ = a := by
  obtain ⟨order, charSign⟩ := m
  cases order with
  | big => exact ⟨_, _, _, _, rfl, ofNetBytes_extract a⟩
  | little => exact ⟨_, _, _, _, rfl, ofNetBytes_extract a⟩

/-- `inet_aton` reads back the text `inet_ntoa` made of an address. -/
theorem inetAton_inetNtoa (m : Machine) (a : Word) : inetAton m (inetNtoa m a) = some a := by
  obtain ⟨b₀, b₁, b₂, b₃, hb, ha⟩ := bytesOf_eq m a
  have dots : ∀ b c, c ∈ octet b → c ≠ '.' := fun b c hc => ((octet_spec b).2 c hc).1
  have blank : ∀ b c, c ∈ octet b → (!c.isWhitespace) = true := fun b c hc => by
    simp [((octet_spec b).2 c hc).2]
  have text : inetNtoa m a =
      octet b₀ ++ '.' :: (octet b₁ ++ '.' :: (octet b₂ ++ '.' :: octet b₃)) := by
    simp [inetNtoa, hb]
  have noBlank : (inetNtoa m a).takeWhile (fun c => !c.isWhitespace) = inetNtoa m a := by
    rw [List.takeWhile_eq_self_iff, text]
    intro c hc
    simp only [List.mem_append, List.mem_cons] at hc
    rcases hc with h | rfl | h | rfl | h | rfl | h
    all_goals first | exact blank _ _ h | rfl
  have parts : (splitDots (inetNtoa m a)).mapM inetPart =
      some [b₀.toNat, b₁.toNat, b₂.toNat, b₃.toNat] := by
    rw [text, splitDots_dot _ (dots b₀), splitDots_dot _ (dots b₁), splitDots_dot _ (dots b₂),
      splitDots_noDot (dots b₃)]
    simp [(octet_spec _).1]
  have lt : ∀ b : Byte, b.toNat < 2 ^ 8 := fun b => b.isLt
  rw [inetAton, noBlank, parts]
  simp only [lt, and_self, if_true, ofOctets, BitVec.ofNat_toNat, BitVec.setWidth_eq, ha]

/-! ### Addresses as they are written -/

/-- An address, independent of any machine: its bytes in the order they are written. -/
structure Ipv4 where
  a : Byte
  b : Byte
  c : Byte
  d : Byte
  deriving Repr, DecidableEq

namespace Ipv4

/-- The `s_addr` of an address. -/
def sAddr (m : Machine) (x : Ipv4) : Word := m.ofBytes x.a x.b x.c x.d

/-- The dotted text of an address. -/
def text (x : Ipv4) : List Char :=
  octet x.a ++ '.' :: (octet x.b ++ '.' :: (octet x.c ++ '.' :: octet x.d))

def bytes (x : Ipv4) : List Byte := [x.a, x.b, x.c, x.d]

def reverse (x : Ipv4) : Ipv4 := ⟨x.d, x.c, x.b, x.a⟩

/-- The address whose `s_addr`, on a machine of this byte order, is `htonl` of the `s_addr` of
`x`: on a machine that swaps, the bytes come out reversed. -/
def hton (m : Machine) (x : Ipv4) : Ipv4 :=
  match m.order with
  | .big => x
  | .little => x.reverse

theorem sAddr_inj {m : Machine} {x y : Ipv4} (h : x.sAddr m = y.sAddr m) : x = y := by
  obtain ⟨ha, hb, hc, hd⟩ := Machine.ofBytes_inj h
  cases x
  cases y
  simp only [mk.injEq]
  exact ⟨ha, hb, hc, hd⟩

/-- The bytes of an `s_addr` lie in memory as they are written. -/
theorem bytesOf_sAddr (m : Machine) (x : Ipv4) : m.bytesOf (x.sAddr m) = x.bytes := by
  obtain ⟨b₀, b₁, b₂, b₃, hb, ha⟩ := bytesOf_eq m (x.sAddr m)
  obtain ⟨rfl, rfl, rfl, rfl⟩ := Machine.ofBytes_inj ha
  exact hb

theorem inetNtoa_sAddr (m : Machine) (x : Ipv4) : inetNtoa m (x.sAddr m) = x.text := by
  rw [inetNtoa, bytesOf_sAddr]
  rfl

/-- The text of an address is read as that address, on any machine. -/
theorem inetAton_text (m : Machine) (x : Ipv4) : inetAton m x.text = some (x.sAddr m) := by
  rw [← inetNtoa_sAddr m, inetAton_inetNtoa]

/-- `htonl` of an `s_addr` is the `s_addr` of another address, unless the machine is big-endian. -/
theorem bytesOf_htonl_sAddr (m : Machine) (x : Ipv4) :
    m.bytesOf (m.htonl (x.sAddr m)) = (x.hton m).bytes := by
  rw [Machine.bytesOf_htonl, hton]
  cases h : m.order with
  | big =>
    simp only [sAddr, Machine.ofBytes, h, netBytes_ofNetBytes]
    rfl
  | little =>
    simp only [sAddr, Machine.ofBytes, h, netBytes_ofNetBytes]
    rfl

/-- `ntohl` of four bytes of an address that lie in memory. -/
theorem ntohl_sAddr (m : Machine) (x : Ipv4) : m.ntohl (x.sAddr m) = (x.hton m).sAddr m := by
  rw [sAddr, Machine.ntohl_ofBytes, hton]
  cases h : m.order <;> simp [sAddr, Machine.ofBytes, h, reverse]

theorem hton_eq_self_iff (m : Machine) (x : Ipv4) :
    x.hton m = x ↔ m.order = .big ∨ x.reverse = x := by
  unfold hton
  cases m.order <;> simp

@[simp] theorem hton_hton (m : Machine) (x : Ipv4) : (x.hton m).hton m = x := by
  unfold hton
  cases m.order <;> rfl

/-- Addresses on two machines: the swaps cancel when both swap or neither does. -/
theorem hton_hton_eq_self_iff (m m' : Machine) (x : Ipv4) :
    (x.hton m).hton m' = x ↔ m.order = m'.order ∨ x.reverse = x := by
  unfold hton
  cases m.order <;> cases m'.order <;> simp [reverse]

end Ipv4

end SerialServer
