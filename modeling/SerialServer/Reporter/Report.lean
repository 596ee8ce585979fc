import SerialServer.Reporter.Slot
import SerialServer.Reporter.Termios
import SerialServer.Wire.PortStat

/-!
# SerialServer.Reporter.Report

The reporter's table of ports and the broadcasts it makes of it (`dataxfer.c`).

Everything the serial code does to the table goes through eight small functions,
each of which takes a port's name, finds the slot and changes one record. Two of
them broadcast afterwards: `myChangeStat` sends the `stat` fields of all ports
(`udp_af20`) and `mysavestop` the whole record of one (`udp_a010`). A `Call` is one
call of one of the eight, and `Call.exec` what it does; the callbacks of the serial
code are modelled by the calls they make, in order.

The table is indexed by a C `int`. Only `0 … 7` are inside the array; an index the
slot formula makes negative names memory before it.
-/

namespace SerialServer.Dataxfer

/-- `gport_stat`, by C index. -/
abbrev PortTable := Int → PortStat

/-- Change the record at `i`. -/
def PortTable.modify (t : PortTable) (i : Int) (f : PortStat → PortStat) : PortTable :=
  Function.update t i (f (t i))

@[simp] theorem PortTable.modify_self (t : PortTable) (i : Int) (f : PortStat → PortStat) :
    t.modify i f i = f (t i) := by
  simp [modify]

@[simp] theorem PortTable.modify_ne (t : PortTable) {i j : Int} (f : PortStat → PortStat)
    (h : j ≠ i) : t.modify i f j = t j := by
  simp [modify, h]

/-- The bytes of one UDP datagram. -/
abbrev Datagram := List Byte

/-! ### Broadcasts -/

/-- `mycrc`. -/
def mycrc (m : Machine) (p : Buf) : Word := complementSum m p

/-- `udp_a010`: the datagram with the record of a port. Every byte that is sent has been
assigned, so the initial contents of the local `pout` do not matter. -/
def udpA010 (m : Machine) (t : PortTable) (pname : PortName) : Datagram :=
  let pout : Buf := fun _ => 0
  let sn := myport2sn pname
  let pout := pout.store 0 [0xa0, chr (BitVec.ofInt 32 (0x10 + sn)), 0x0a]
  let pout := pout.store 3 [chr (t sn).stat, chr (t sn).baud, chr (t sn).bits,
    chr (t sn).parity, chr (t sn).stop, chr (t sn).flowctrl]
  let pout := pout.store 9 (m.bytesOf (m.htonl (t sn).ip))
  let pout := pout.store 13 [chr (mycrc m pout)]
  pout.slice 0 14

/-- `udp_af20`: the datagram with the `stat` fields of all ports. -/
def udpAf20 (m : Machine) (t : PortTable) : Datagram :=
  let pout : Buf := fun _ => 0
  let pout := pout.store 0 [0xaf, 0x20, 8]
  let pout := pout.store 3 (List.ofFn fun i : Fin 8 => chr (t (i : Nat)).stat)
  let pout := pout.store 11 [chr (mycrc m pout)]
  pout.slice 0 12

/-! ### Codes -/

/-- `baud2n`. -/
def baud2n (baud : Speed) : Word :=
  if baud = B300 then 0x0
  else if baud = B600 then 0x01
  else if baud = B1200 then 0x02
  else if baud = B2400 then 0x03
  else if baud = B4800 then 0x04
  else if baud = B9600 then 0x05
  else if baud = B19200 then 0x06
  else if baud = B38400 then 0x07
  else if baud = B115200 then 0x08
  else 0x08

/-- `bits2n`. -/
def bits2n (bits : Word) : Word :=
  if bits = 5 then 0x0
  else if bits = 6 then 0x01
  else if bits = 7 then 0x02
  else if bits = 8 then 0x03
  else 0x03

/-- The `switch` of `mysaveparity`. -/
def parity2n (v : Word) : Word :=
  if v = 1 then 0
  else if v = 2 then 1
  else if v = 3 then 2
  else 0

/-- The `switch` of `mysavestop`. -/
def stop2n (v : Word) : Word :=
  if v = 1 then 1
  else if v = 2 then 2
  else 1

/-- The `switch` of `mysaveflowc`. -/
def flowc2n (v : Word) : Word :=
  if v = 10 then 0
  else if v = 11 then 2
  else if v = 12 then 1
  else if v = 14 then 0
  else if v = 15 then 2
  else if v = 16 then 1
  else if v = 1 then 0
  else if v = 2 then 2
  else if v = 3 then 1
  else 0

/-! ### The functions that change the table -/

/-- The settings `myinit_gd` gives a slot. The rate passed to `baud2n` there is the
number 115200, which is no speed code, and takes the default. -/
def initRecord : PortStat where
  stat := 0
  baud := baud2n 115200
  bits := bits2n 8
  parity := 0
  stop := 1
  flowctrl := 0
  ip := 0

/-- `myChangeStat`. -/
def myChangeStat (t : PortTable) (stat : Word) (pname : PortName) : PortTable :=
  t.modify (digitSlot pname) fun r => { r with stat := stat }

/-- `myinit_gd`. -/
def myinitGd (t : PortTable) (pname : PortName) : PortTable :=
  t.modify (digitSlot pname) fun _ => initRecord

/-- `mySaveIpRemote`, given what `inet_aton` has left in `inp.s_addr`. -/
def mySaveIpRemote (t : PortTable) (inp : Word) (pname : PortName) : PortTable :=
  t.modify (myport2sn pname) fun r => { r with ip := inp }

/-- `prnspeed`. -/
def prnspeed (t : PortTable) (s : Speed) (pname : PortName) : PortTable :=
  t.modify (digitSlot pname) fun r => { r with baud := baud2n s }

/-- `mysavebits`. -/
def mysavebits (t : PortTable) (v : Word) (pname : PortName) : PortTable :=
  t.modify (digitSlot pname) fun r => { r with bits := bits2n v }

/-- `mysaveparity`. -/
def mysaveparity (t : PortTable) (v : Word) (pname : PortName) : PortTable :=
  t.modify (digitSlot pname) fun r => { r with parity := parity2n v }

/-- `mysavestop`. -/
def mysavestop (t : PortTable) (v : Word) (pname : PortName) : PortTable :=
  t.modify (digitSlot pname) fun r => { r with stop := stop2n v }

/-- `mysaveflowc`: the code of the flow control, and then 0 over it. -/
def mysaveflowc (t : PortTable) (v : Word) (pname : PortName) : PortTable :=
  let t := t.modify (digitSlot pname) fun r => { r with flowctrl := flowc2n v }
  t.modify (digitSlot pname) fun r => { r with flowctrl := 0 }

/-- One call of a function that changes the table. -/
inductive Call
  | myinitGd
  | myChangeStat (stat : Word)
  | mySaveIpRemote (inp : Word)
  | prnspeed (s : Speed)
  | mysavebits (v : Word)
  | mysaveparity (v : Word)
  | mysavestop (v : Word)
  | mysaveflowc (v : Word)
  deriving Repr, DecidableEq

/-- What a call for port `pname` does to the table. -/
def Call.table (pname : PortName) (t : PortTable) : Call → PortTable
  | .myinitGd => Dataxfer.myinitGd t pname
  | .myChangeStat stat => Dataxfer.myChangeStat t stat pname
  | .mySaveIpRemote inp => Dataxfer.mySaveIpRemote t inp pname
  | .prnspeed s => Dataxfer.prnspeed t s pname
  | .mysavebits v => Dataxfer.mysavebits t v pname
  | .mysaveparity v => Dataxfer.mysaveparity t v pname
  | .mysavestop v => Dataxfer.mysavestop t v pname
  | .mysaveflowc v => Dataxfer.mysaveflowc t v pname

/-- What a call broadcasts, once it has changed the table to `t`. -/
def Call.sends (m : Machine) (pname : PortName) (t : PortTable) : Call → List Datagram
  | .myChangeStat _ => [udpAf20 m t]
  | .mysavestop _ => [udpA010 m t pname]
  | _ => []

/-- Make a sequence of calls for one port: the table after them and the datagrams sent. -/
def execCalls (m : Machine) (pname : PortName) :
    PortTable → List Call → PortTable × List Datagram
  | t, [] => (t, [])
  | t, c :: cs =>
      let t := c.table pname t
      let rest := execCalls m pname t cs
      (rest.1, c.sends m pname t ++ rest.2)

/-- The slot a call changes. -/
def Call.slot (pname : PortName) : Call → Int
  | .mySaveIpRemote _ => myport2sn pname
  | _ => digitSlot pname

/-- What a call makes of the record it finds there. -/
def Call.update (r : PortStat) : Call → PortStat
  | .myinitGd => initRecord
  | .myChangeStat stat => { r with stat := stat }
  | .mySaveIpRemote inp => { r with ip := inp }
  | .prnspeed s => { r with baud := baud2n s }
  | .mysavebits v => { r with bits := bits2n v }
  | .mysaveparity v => { r with parity := parity2n v }
  | .mysavestop v => { r with stop := stop2n v }
  | .mysaveflowc _ => { r with flowctrl := 0 }

/-- **A call changes one record.** -/
theorem Call.table_eq (pname : PortName) (t : PortTable) (c : Call) :
    c.table pname t = t.modify (c.slot pname) fun r => c.update r := by
  cases c with
  | mysaveflowc v =>
    -- Of two assignments to the same field the second stays.
    funext k
    by_cases hk : k = digitSlot pname
    · simp [table, Dataxfer.mysaveflowc, slot, update, hk]
    · simp [table, Dataxfer.mysaveflowc, slot, hk]
  | _ => rfl

/-- What a call leaves in a slot. -/
theorem Call.table_apply (pname : PortName) (t : PortTable) (c : Call) (k : Int) :
    c.table pname t k = if k = c.slot pname then c.update (t k) else t k := by
  rw [table_eq]
  by_cases hk : k = c.slot pname
  · rw [if_pos hk, hk, PortTable.modify_self]
  · rw [if_neg hk, PortTable.modify_ne t _ hk]

/-- What a call makes of the status of its port's slot. -/
def Call.statAfter (st : Word) : Call → Word
  | .myinitGd => 0
  | .myChangeStat stat => stat
  | _ => st

/-- **The status of a slot changes only by `myChangeStat` and `myinit_gd`**, and only for
the port whose digits name it. -/
theorem Call.table_stat (pname : PortName) (t : PortTable) (c : Call) (k : Int) :
    (c.table pname t k).stat =
      if k = digitSlot pname then c.statAfter (t k).stat else (t k).stat := by
  rw [table_apply]
  cases c with
  | mySaveIpRemote inp =>
    -- The one call with another slot leaves the status alone.
    simp only [statAfter, ite_self]
    split <;> rfl
  | _ => exact apply_ite PortStat.stat _ _ _

/-- The table after a sequence of calls. -/
theorem execCalls_table (m : Machine) (pname : PortName) (t : PortTable) (cs : List Call) :
    (execCalls m pname t cs).1 = cs.foldl (Call.table pname) t := by
  induction cs generalizing t with
  | nil => rfl
  | cons c cs ih => exact ih _

/-- The status of a slot after a sequence of calls. -/
theorem execCalls_stat (m : Machine) (pname : PortName) (t : PortTable) (cs : List Call)
    (k : Int) :
    ((execCalls m pname t cs).1 k).stat =
      if k = digitSlot pname then cs.foldl Call.statAfter (t k).stat else (t k).stat := by
  induction cs generalizing t with
  | nil => simp [execCalls]
  | cons c cs ih =>
    have hrest := ih (c.table pname t)
    rw [Call.table_stat] at hrest
    by_cases hk : k = digitSlot pname
    · simpa only [execCalls, if_pos hk, List.foldl_cons] using hrest
    · simpa only [execCalls, if_neg hk] using hrest

/-! ### The broadcasts as messages -/

/-- The record a port's name selects through `myport2sn` is broadcast whole. -/
theorem udpA010_eq (m : Machine) (t : PortTable) (pname : PortName) :
    udpA010 m t pname =
      portFrame (BitVec.ofNat 8 (0x10 + portSlot pname)) (t (myport2sn pname)) := by
  have hsn : chr (BitVec.ofInt 32 (0x10 + myport2sn pname)) =
      BitVec.ofNat 8 (0x10 + portSlot pname) := by
    rw [← portSlot_val]
    generalize portSlot pname = sn
    revert sn
    decide
  have hb := store_portFrame m (BitVec.ofNat 8 (0x10 + portSlot pname)) (t (myport2sn pname))
    (fun _ => 0) 0
  rw [Buf.offset_zero] at hb
  have hs := Buf.slice_store (fun _ => 0) 0
    (portFrame (BitVec.ofNat 8 (0x10 + portSlot pname)) (t (myport2sn pname)))
  rw [portFrame_length, ← hb] at hs
  rw [udpA010, hsn]
  exact hs

theorem udpAf20_eq (m : Machine) (t : PortTable) :
    udpAf20 m t = statFrame 0xaf fun i => (t (i : Nat)).stat := by
  have hb := store_statFrame m 0xaf (fun i => (t (i : Nat)).stat) (fun _ => 0) 0
  rw [Buf.offset_zero] at hb
  have hs := Buf.slice_store (fun _ => 0) 0 (statFrame 0xaf fun i => (t (i : Nat)).stat)
  rw [statFrame_length, ← hb] at hs
  exact hs

end SerialServer.Dataxfer
