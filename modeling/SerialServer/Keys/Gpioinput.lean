import SerialServer.Core.Machine
import SerialServer.Core.Settle

/-!
# SerialServer.Keys.Gpioinput

The key scanner `gpioinput.c`.

Six keys are wired to the six top bits of a port that a timer reads; a key that is held
pulls its bit down. `foo` shifts the new sample into three registers and `key1` compares
them bit by bit, writing to the input device when one of two patterns is there. So the
events of one key are the `report`s along the samples of its bit (`keyEvents_keyinput`),
and everything else is said of a history of levels.

The set-up of the device (`init_gpiokey`), the timer and the time stamps are left out; a
tick is a function of the registers and of the word read from `/proc/gpio6`.
-/

namespace SerialServer.Gpioinput

open Settle

/-- `struct input_event`, without its time. -/
structure InputEvent where
  type : BitVec 16
  code : BitVec 16
  value : Word
  deriving Repr, DecidableEq

/-- `EV_SYN`. -/
def evSyn : BitVec 16 := 0x00

/-- `EV_KEY`. -/
def evKey : BitVec 16 := 0x01

/-- `key6`: `KEY_LEFT`, `KEY_RIGHT`, `KEY_UP`, `KEY_DOWN`, `KEY_ENTER`, `KEY_ESC`. -/
def key6 : Fin 6 → Word
  | 0 => 105
  | 1 => 106
  | 2 => 103
  | 3 => 108
  | 4 => 28
  | 5 => 1

/-- The globals `gpio0`, `gpio1` and `gpio2`, oldest first. -/
structure Gpio where
  gpio0 : Word
  gpio1 : Word
  gpio2 : Word
  deriving Repr, DecidableEq

/-- `keyevent`: what it writes to the device. -/
def keyevent (key press : Word) : List InputEvent :=
  if press ≠ 0 then [⟨evSyn, 0, 0⟩, ⟨evKey, key.setWidth 16, 1⟩]
  else [⟨evSyn, 0, 0⟩, ⟨evKey, key.setWidth 16, 0⟩]

/-- The expression `(gpio >> (31 - n)) & 1`. -/
def gpioBit (gpio : Word) (n : Fin 6) : Word := gpio.sshiftRight (31 - n) &&& 1

/-- `key1`. -/
def key1 (g : Gpio) (n : Fin 6) : List InputEvent :=
  let i0 := gpioBit g.gpio0 n
  let i1 := gpioBit g.gpio1 n
  let i2 := gpioBit g.gpio2 n
  if i0 = 1 ∧ i1 = 0 ∧ i2 = 0 then keyevent (key6 n) 1
  else if i0 = 0 ∧ i1 = 1 ∧ i2 = 1 then keyevent (key6 n) 0
  else []

/-- `keyinput`. -/
def keyinput (g : Gpio) : List InputEvent := (List.finRange 6).flatMap (key1 g)

/-- `foo`, after `/proc/gpio6` has given `gpio`: the new registers and what is written. -/
def foo (g : Gpio) (gpio : Word) : Gpio × List InputEvent :=
  let g : Gpio := ⟨g.gpio1, g.gpio2, gpio⟩
  (g, keyinput g)

/-- What the ticks that read `samples` write, tick by tick. -/
def ticksFrom (g : Gpio) : List Word → List (List InputEvent)
  | [] => []
  | gpio :: samples => (foo g gpio).2 :: ticksFrom (foo g gpio).1 samples

/-- What `main` makes of the first sample and the timer of the others. -/
def ticks (init : Word) (samples : List Word) : List (List InputEvent) :=
  ticksFrom ⟨init, init, init⟩ samples

/-! ### The events of one key -/

/-- The level of key `n`: bit `31 - n`, clear while the key is held. -/
def level (n : Fin 6) (gpio : Word) : Bool := gpio.getLsbD (31 - n)

/-- The event that presses (`true`) or releases key `n`. -/
def keyEvent (n : Fin 6) (pressed : Bool) : InputEvent :=
  ⟨evKey, (key6 n).setWidth 16, if pressed then 1 else 0⟩

/-- The presses (`true`) and releases of key `n` among some events. -/
def keyEvents (n : Fin 6) (evs : List InputEvent) : List Bool :=
  evs.filterMap fun ev =>
    if ev.type = evKey ∧ ev.code = (key6 n).setWidth 16 then some (decide (ev.value ≠ 0))
    else none

/-- The levels of key `n` along a history. -/
def levels (n : Fin 6) (init : Word) (samples : List Word) : List Bool :=
  (init :: samples).map (level n)

theorem gpioBit_eq (gpio : Word) (n : Fin 6) :
    gpioBit gpio n = if level n gpio then 1 else 0 := by
  have one : ∀ i < 32, (1 : Word).getLsbD i = decide (i = 0) := by decide
  have hn : 31 - n.val < 32 := by omega
  apply BitVec.eq_of_getLsbD_eq
  intro i hi
  rw [gpioBit, level, BitVec.getLsbD_and, one i hi, BitVec.getLsbD_sshiftRight]
  by_cases h0 : i = 0
  · subst h0
    cases gpio.getLsbD (31 - n.val) <;> simp [hn]
  · cases gpio.getLsbD (31 - n.val) <;> simp [h0]

/-- The codes of the keys differ. -/
theorem key6_inj {n k : Fin 6} (h : (key6 n).setWidth 16 = (key6 k).setWidth 16) : n = k := by
  revert n k
  decide

theorem keyEvents_keyevent (n k : Fin 6) (press : Word) :
    keyEvents n (keyevent (key6 k) press) = if k = n then [decide (press ≠ 0)] else [] := by
  have hsyn : ¬ evSyn = evKey := by decide
  have hcode : (key6 k).setWidth 16 = (key6 n).setWidth 16 ↔ k = n :=
    ⟨key6_inj, fun h => h ▸ rfl⟩
  by_cases hp : press = 0
  · rw [keyevent, if_neg (not_not_intro hp)]
    by_cases hk : k = n <;> simp [keyEvents, hp, hk, hsyn, hcode]
  · rw [keyevent, if_pos hp]
    by_cases hk : k = n
    · simpa [keyEvents, hk, hsyn, hcode] using hp
    · simp [keyEvents, hk, hsyn, hcode]

/-- One turn of the loop in `keyinput` reports for its own key only. -/
theorem keyEvents_key1 (g : Gpio) (n k : Fin 6) :
    keyEvents n (key1 g k) = if k = n then
      ((report (level n g.gpio0) (level n g.gpio1) (level n g.gpio2)).map not).toList else [] := by
  have hnil : keyEvents n [] = [] := rfl
  by_cases hk : k = n
  · subst hk
    rw [if_pos rfl, key1, gpioBit_eq, gpioBit_eq, gpioBit_eq]
    cases level k g.gpio0 <;> cases level k g.gpio1 <;> cases level k g.gpio2 <;>
      simp [report, keyEvents_keyevent, hnil]
  · rw [if_neg hk, key1]
    split
    · rw [keyEvents_keyevent, if_neg hk]
    · split
      · rw [keyEvents_keyevent, if_neg hk]
      · exact hnil

/-- **What a scan writes about one key** depends on that key's bit alone: the report of its
three samples. -/
theorem keyEvents_keyinput (g : Gpio) (n : Fin 6) :
    keyEvents n (keyinput g) =
      ((report (level n g.gpio0) (level n g.gpio1) (level n g.gpio2)).map not).toList := by
  have happ : ∀ ks : List (Fin 6), keyEvents n (ks.flatMap (key1 g)) =
      ks.flatMap fun k => keyEvents n (key1 g k) := by
    intro ks
    induction ks with
    | nil => rfl
    | cons k ks ih =>
      rw [List.flatMap_cons, List.flatMap_cons, ← ih]
      exact List.filterMap_append
  have hone : ∀ (k : Fin 6) (evs : List Bool),
      (List.finRange 6).flatMap (fun i => if i = k then evs else []) = evs := by
    intro k evs
    have hkeys : List.finRange 6 = [0, 1, 2, 3, 4, 5] := by decide
    rw [hkeys]
    match k with
    | 0 | 1 | 2 | 3 | 4 | 5 => simp
  rw [keyinput, happ]
  simp only [keyEvents_key1]
  exact hone n _

theorem keyEvents_ticksFrom (n : Fin 6) (g : Gpio) (samples : List Word) :
    (ticksFrom g samples).map (keyEvents n) =
      (reportsFrom (level n g.gpio1) (level n g.gpio2) (samples.map (level n))).map
        fun r => (r.map not).toList := by
  induction samples generalizing g with
  | nil => rfl
  | cons gpio samples ih =>
    rw [ticksFrom, List.map_cons, ih, foo, keyEvents_keyinput]
    rfl

end SerialServer.Gpioinput
