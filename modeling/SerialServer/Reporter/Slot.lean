import Mathlib.Algebra.Group.Int.Defs
import Mathlib.Data.Int.Basic
import Mathlib.Tactic.Common

/-!
# SerialServer.Reporter.Slot

How the reporter, `dataxfer.c`, gets from a port's name to its place in the table
`gport_stat`.

A name is the text in front of the first colon of a configuration line, and is
turned into a number by `atoi`. Two functions then make a slot of that number:
`myport2sn`, an exact match on 3000 … 3007, and the formula `(sn % 10) % 8` that is
written out at seven other places (`digitSlot`). Slots are C `int`s: the formula
keeps the sign of the number.
-/

namespace SerialServer.Dataxfer

/-- The name given for a port. -/
abbrev PortName := List Char

/-- `isspace`. -/
def isspace (c : Char) : Bool := c = ' ' || (9 ≤ c.toNat && c.toNat ≤ 13)

/-- The value of the digits at the front of a text, after digits with value `acc`. -/
def leadingNat (acc : Nat) : List Char → Nat
  | [] => acc
  | c :: cs => if c.isDigit then leadingNat (acc * 10 + (c.toNat - '0'.toNat)) cs else acc

/-- A value brought into the range of a `long`, which has 32 bits on the board. -/
def clampLong (n : Int) : Int := max (-2 ^ 31) (min n (2 ^ 31 - 1))

/-- `atoi`. -/
def atoi (pname : PortName) : Int :=
  match pname.dropWhile isspace with
  | '-' :: cs => clampLong (-(leadingNat 0 cs))
  | '+' :: cs => clampLong (leadingNat 0 cs)
  | cs => clampLong (leadingNat 0 cs)

/-- `sn = atoi(pname); sn = (sn % 10) % 8;` -/
def digitSlot (pname : PortName) : Int := ((atoi pname).tmod 10).tmod 8

/-- `myport2sn`. -/
def myport2sn (pname : PortName) : Int :=
  let sn := atoi pname
  if sn = 3000 then 0
  else if sn = 3001 then 1
  else if sn = 3002 then 2
  else if sn = 3003 then 3
  else if sn = 3004 then 4
  else if sn = 3005 then 5
  else if sn = 3006 then 6
  else if sn = 3007 then 7
  else 0

theorem myport2sn_nonneg (pname : PortName) : 0 ≤ myport2sn pname := by
  unfold myport2sn
  grind

theorem myport2sn_le (pname : PortName) : myport2sn pname ≤ 7 := by
  unfold myport2sn
  grind

/-- The slot of a name under `myport2sn`, as an index into the table. -/
def portSlot (pname : PortName) : Fin 8 :=
  ⟨(myport2sn pname).toNat, by
    have := myport2sn_nonneg pname
    have := myport2sn_le pname
    omega⟩

@[simp] theorem portSlot_val (pname : PortName) : ((portSlot pname : Nat) : Int) = myport2sn pname := by
  have := myport2sn_nonneg pname
  simp [portSlot]
  omega

example : digitSlot "3011".toList = 1 ∧ myport2sn "3011".toList = 0 := by decide +kernel

end SerialServer.Dataxfer
