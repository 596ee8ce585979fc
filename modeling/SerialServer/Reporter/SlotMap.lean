import Mathlib.Tactic.IntervalCases
import SerialServer.Reporter.Ser2net

/-!
# SerialServer.Reporter.SlotMap

Which port names keep to one slot, and which ports to slots of their own.

`myport2sn` knows the numbers 3000 … 3007 and takes anything else for slot 0; the digit
formula makes a slot of every number. For a single name the two agree on 3001 … 3007 and
on the numbers whose last digit is 0 or 8, all of which are slot 0 (`consistent_iff`). So
a configuration keeps its ports apart just when it uses 3001 … 3007 once each, for the
devices that can be used together, and slot 0 for one more (`slotsSound_iff`).
-/

namespace SerialServer.Dataxfer

/-- The last digit of a port's number is 0 or 8. -/
def ZeroSlot (z : Int) : Prop := z.tmod 10 = 0 ∨ z.tmod 10 = 8 ∨ z.tmod 10 = -8

instance (z : Int) : Decidable (ZeroSlot z) := inferInstanceAs (Decidable (_ ∨ _))

/-- The numbers of the slots 1 … 7. -/
def OwnSlot (z : Int) : Prop := 3001 ≤ z ∧ z ≤ 3007

instance (z : Int) : Decidable (OwnSlot z) := inferInstanceAs (Decidable (_ ∧ _))

/-! ### One name -/

/-- Every call for the port changes the record that `udp_a010` reports for it. -/
def Consistent (pname : PortName) : Prop := ∀ c : Call, c.slot pname = portSlot pname

theorem consistent_iff_eq (pname : PortName) :
    Consistent pname ↔ digitSlot pname = myport2sn pname := by
  constructor
  · intro h
    rw [← portSlot_val]
    exact h .myinitGd
  · intro h c
    rw [portSlot_val]
    cases c with
    | mySaveIpRemote inp => rfl
    | _ => exact h

theorem digitSlot_zero_iff (pname : PortName) :
    digitSlot pname = 0 ↔ ZeroSlot (atoi pname) := by
  have hlt : (atoi pname).tmod 10 < 10 := Int.tmod_lt_of_pos _ (by decide)
  have hgt : -10 < (atoi pname).tmod 10 := Int.lt_tmod_of_pos _ (by decide)
  unfold digitSlot ZeroSlot
  generalize (atoi pname).tmod 10 = d at hlt hgt
  interval_cases d <;> decide

/-- The numbers of the slots 1 … 7 are what both functions understand. -/
theorem ownSlot_slots {pname : PortName} (h : OwnSlot (atoi pname)) :
    digitSlot pname = atoi pname - 3000 ∧ myport2sn pname = atoi pname - 3000 := by
  obtain ⟨hlo, hhi⟩ := h
  unfold digitSlot myport2sn
  generalize atoi pname = z at hlo hhi
  interval_cases z <;> exact ⟨rfl, rfl⟩

theorem myport2sn_zero {pname : PortName} (h : ¬ OwnSlot (atoi pname)) : myport2sn pname = 0 := by
  unfold OwnSlot at h
  unfold myport2sn
  grind

theorem consistent_iff (pname : PortName) :
    Consistent pname ↔ OwnSlot (atoi pname) ∨ ZeroSlot (atoi pname) := by
  rw [consistent_iff_eq]
  by_cases hown : OwnSlot (atoi pname)
  · obtain ⟨hd, hp⟩ := ownSlot_slots hown
    exact iff_of_true (hd.trans hp.symm) (.inl hown)
  · rw [myport2sn_zero hown, digitSlot_zero_iff]
    exact (or_iff_right hown).symm

/-! ### Several ports -/

variable {n : Nat}

/-- The slots of a configuration are as they should be. -/
structure SlotsSound (cfg : Config n) : Prop where
  /-- Each port has one slot. -/
  consistent : ∀ i, Consistent (cfg.name i)
  /-- Ports of different devices have different slots. -/
  disjoint : ∀ i j, (cfg.port i).devname ≠ (cfg.port j).devname →
    ∀ c c' : Call, c.slot (cfg.name i) ≠ c'.slot (cfg.name j)
  /-- No event of a port changes what is shown for one of another device. -/
  isolated : ∀ (s : Ser2net n) (ev : Event n) (j : Fin n),
    (cfg.port ev.1).devname ≠ (cfg.port j).devname →
    ∀ c : Call, (step cfg s ev).table (c.slot (cfg.name j)) = s.table (c.slot (cfg.name j))

/-- The ports are numbered as the slots need it. -/
structure NumbersSound (cfg : Config n) : Prop where
  known : ∀ i, OwnSlot (atoi (cfg.name i)) ∨ ZeroSlot (atoi (cfg.name i))
  distinct : ∀ i j, (cfg.port i).devname ≠ (cfg.port j).devname →
    atoi (cfg.name i) ≠ atoi (cfg.name j) ∧
      ¬ (ZeroSlot (atoi (cfg.name i)) ∧ ZeroSlot (atoi (cfg.name j)))

/-- A sequence of calls leaves every slot alone that none of them changes. -/
theorem foldl_table_other (pname : PortName) (t : PortTable) (cs : List Call) {k : Int}
    (hk : ∀ c : Call, k ≠ c.slot pname) : cs.foldl (Call.table pname) t k = t k := by
  induction cs generalizing t with
  | nil => rfl
  | cons c cs ih => rw [List.foldl_cons, ih, Call.table_apply, if_neg (hk c)]

theorem step_table_other {cfg : Config n} (s : Ser2net n) (ev : Event n) {k : Int}
    (hk : ∀ c : Call, k ≠ c.slot (cfg.name ev.1)) : (step cfg s ev).table k = s.table k := by
  show (execCalls cfg.m (cfg.name ev.1) s.table _).1 k = _
  rw [execCalls_table]
  exact foldl_table_other _ _ _ hk

/-- For names with one slot each, the slots are the same just when the numbers are, or both
are numbers of slot 0. -/
theorem digitSlot_eq_iff {p q : PortName} (hp : OwnSlot (atoi p) ∨ ZeroSlot (atoi p))
    (hq : OwnSlot (atoi q) ∨ ZeroSlot (atoi q)) :
    digitSlot p = digitSlot q ↔ atoi p = atoi q ∨ ZeroSlot (atoi p) ∧ ZeroSlot (atoi q) := by
  constructor
  · intro h
    rcases hp with hp | hp
    · rcases hq with hq | hq
      · left
        have hp' := (ownSlot_slots hp).1
        have hq' := (ownSlot_slots hq).1
        omega
      · rw [(digitSlot_zero_iff q).2 hq] at h
        exact .inr ⟨(digitSlot_zero_iff p).1 h, hq⟩
    · rw [(digitSlot_zero_iff p).2 hp] at h
      exact .inr ⟨hp, (digitSlot_zero_iff q).1 h.symm⟩
  · rintro (h | ⟨hp', hq'⟩)
    · unfold digitSlot
      rw [h]
    · rw [(digitSlot_zero_iff p).2 hp', (digitSlot_zero_iff q).2 hq']

/-- **When the slots of a configuration are sound**: if and only if every port has a number
in 3001 … 3007 or one that ends in 0 or 8, and two ports of different devices have different
numbers, not both of the second kind. -/
theorem slotsSound_iff (cfg : Config n) : SlotsSound cfg ↔ NumbersSound cfg := by
  constructor
  · intro h
    have hknown : ∀ i, OwnSlot (atoi (cfg.name i)) ∨ ZeroSlot (atoi (cfg.name i)) :=
      fun i => (consistent_iff _).1 (h.consistent i)
    refine ⟨hknown, fun i j hdev => ?_⟩
    have hne : digitSlot (cfg.name i) ≠ digitSlot (cfg.name j) :=
      h.disjoint i j hdev .myinitGd .myinitGd
    rw [ne_eq, digitSlot_eq_iff (hknown i) (hknown j), not_or] at hne
    exact hne
  · intro h
    have hconsistent : ∀ i, Consistent (cfg.name i) := fun i => (consistent_iff _).2 (h.known i)
    have hdisjoint : ∀ i j, (cfg.port i).devname ≠ (cfg.port j).devname →
        ∀ c c' : Call, c.slot (cfg.name i) ≠ c'.slot (cfg.name j) := by
      intro i j hdev c c'
      -- All slots of a port are its digit slot.
      have hslot : ∀ i (c : Call), c.slot (cfg.name i) = digitSlot (cfg.name i) := by
        intro i c
        rw [hconsistent i c, portSlot_val, (consistent_iff_eq _).1 (hconsistent i)]
      obtain ⟨hnum, hzero⟩ := h.distinct i j hdev
      rw [hslot, hslot, ne_eq, digitSlot_eq_iff (h.known i) (h.known j), not_or]
      exact ⟨hnum, hzero⟩
    refine ⟨hconsistent, hdisjoint, fun s ev j hdev c => ?_⟩
    exact step_table_other s ev fun c' => (hdisjoint ev.1 j hdev c' c).symm

/-- Three lines of `ser2net.conf`. The calls for 2003 change slot 3 while its record is
reported from slot 0; 3001 and 5001 share slot 1, so that a client of 5001 shows up as one
of 3001. -/
theorem shipped_ports_collide :
    let line (name dev : List Char) : PortConfig :=
      ⟨name, dev, true, none, none, none, ⟨false, [], 256⟩, 31⟩
    let cfg : Config 3 := ⟨⟨.big, .unsigned⟩, fun i =>
      if i = 0 then line "3001".toList "/dev/ttyS0".toList
      else if i = 1 then line "5001".toList "/dev/lp0".toList
      else line "2003".toList "/dev/ttyS2".toList⟩
    let s := step cfg (start fun _ => .raw)
      (1, .accept ⟨true, true, true, true, true, true, true, true, 0⟩)
    (digitSlot (cfg.name 2) = 3 ∧ portSlot (cfg.name 2) = 0) ∧
      ((s.ports 0).tcpToDevState = .unconnected ∧ (s.table (cfg.slot 0)).stat = 0x10) ∧
      ¬ SlotsSound cfg := by
  intro line cfg s
  refine ⟨by decide +kernel, by decide +kernel, fun h => ?_⟩
  have hslot : digitSlot (cfg.name 2) = portSlot (cfg.name 2) := h.consistent 2 .myinitGd
  exact absurd hslot (by decide +kernel)

end SerialServer.Dataxfer
