import SerialServer.Core.Inet
import SerialServer.Wire.PortStat

/-!
# SerialServer.Server.Mrs2lib

The message handlers of the server, `mrs2lib.c`.

A `Server` holds the globals of the file (the table `gport_stat`, the interface
address in binary and as text) together with the two scripts `mySaveBAT` writes
and the scripts it has handed to `system`. The address `eth0` really has is not
among them: it belongs to the kernel, changes behind the program's back and is
read by `getip_eth0`, so it is an argument (`Eth0`).

The decoders `udpa0`, `udpaf` and `setnewip` read a receive buffer; the builders
`tcp50`, `tcp51` and the tail of `udp2send` write an output buffer and set an
`int` the caller passed by address. A pointer into the middle of the output
buffer, or of the array of lengths, is an offset. The parameter `inlen` is used
for its sign only; the loops that print the received bytes are left out.
-/

namespace SerialServer.Mrs2lib

/-- The address and netmask of `eth0`, as the `ioctl`s of `getipmask` report them. -/
structure Eth0 where
  ip : Word
  mask : Word
  deriving Repr, DecidableEq

/-- A shell script, line by line. -/
abbrev Script := List (List Char)

/-- The globals of `mrs2lib.c` and the files it writes. -/
structure Server where
  gportStat : Fin 8 → PortStat
  gip : Word
  gipmask : Word
  gszip : List Char
  gszipmask : List Char
  /-- `/root/app/batip0`, run at boot. -/
  batip0 : Option Script
  /-- `/root/run/batnewip`, run once when written. -/
  batnewip : Option Script
  /-- What `system` has run, in order. -/
  ran : List Script

/-! ### Start-up -/

/-- `baud2n`. -/
def baud2n (baud : Word) : Word :=
  if baud = 300 then 0x0
  else if baud = 600 then 0x01
  else if baud = 1200 then 0x02
  else if baud = 2400 then 0x03
  else if baud = 4800 then 0x04
  else if baud = 9600 then 0x05
  else if baud = 19200 then 0x06
  else if baud = 38400 then 0x07
  else if baud = 115200 then 0x08
  else 0x08

/-- `bits2n`. -/
def bits2n (bits : Word) : Word :=
  if bits = 5 then 0x0
  else if bits = 6 then 0x01
  else if bits = 7 then 0x02
  else if bits = 8 then 0x03
  else 0x03

/-- `getip_eth0`: the address goes through its dotted text, which is kept as well. -/
def getipEth0 (m : Machine) (e : Eth0) (s : Server) : Server :=
  let pip := inetNtoa m e.ip
  let pmask := inetNtoa m e.mask
  { s with
    gszip := pip
    gszipmask := pmask
    gip := (inetAton m pip).getD s.gip
    gipmask := (inetAton m pmask).getD s.gipmask }

/-- The record `init_gd` gives every port. -/
def initRecord : PortStat where
  stat := 0
  baud := baud2n 115200
  bits := bits2n 8
  parity := 0
  stop := 1
  flowctrl := 0
  ip := 0

/-- `init_gd`. -/
def initGd (m : Machine) (e : Eth0) (s : Server) : Server :=
  { getipEth0 m e s with gportStat := fun _ => initRecord }

/-- `crc`. -/
def crc (m : Machine) (p : Buf) : Word := complementSum m p

/-! ### Changing the address -/

/-- Whether each `fopen` of `mySaveBAT` succeeds. -/
structure FopenEnv where
  batip0 : Bool
  batnewip : Bool
  deriving Repr, DecidableEq

/-- The line that configures `eth0`. -/
def ifconfigLine (pip pmask : List Char) : List Char :=
  "ifconfig eth0 ".toList ++ pip ++ " netmask ".toList ++ pmask

/-- `mySaveBAT`: write the boot script, then the script for now, and run the latter.
Each failed `fopen` returns at once; the return value is never looked at. -/
def mySaveBAT (env : FopenEnv) (pip pmask : List Char) (s : Server) : Server :=
  if !env.batip0 then s
  else
    let s := { s with batip0 := some ["#!/bin/sh".toList, ifconfigLine pip pmask] }
    if !env.batnewip then s
    else
      let script : Script := ["#!/bin/sh".toList, "killall mrs".toList,
        "killall ser2net".toList, ifconfigLine pip pmask,
        "/root/run/ser2net -c /root/run/ser2net.conf &".toList,
        "/root/run/mrs eth0 100 &".toList]
      { s with batnewip := some script, ran := s.ran ++ [script] }

/-- `setnewip`: its result and the new globals. -/
def setnewip (m : Machine) (env : FopenEnv) (s : Server) (p : Buf) : Int × Server :=
  if m.lowByte (p 0) ≠ 0x51 then (-1, s)
  else
    let sip := p.loadInt m 4
    let smask := p.loadInt m 8
    let ip := inetNtoa m sip
    let ipmask := inetNtoa m smask
    if sip ≠ s.gip ∨ smask ≠ s.gipmask then
      let s := mySaveBAT env ip ipmask s
      (0, { s with gip := sip, gipmask := smask, gszip := ip, gszipmask := ipmask })
    else (0, s)

/-! ### Datagrams -/

/-- `0x07 & c`, the port number in an index byte. -/
def slotBits (m : Machine) (c : Byte) : Fin 8 := Fin.ofNat 8 (0x07 &&& m.promote c).toNat

/-- Whether an index byte names one of the eight ports: `case 0x10: … case 0x17:`. -/
def isPortIndex (m : Machine) (c : Byte) : Bool :=
  decide (0x10 ≤ (m.lowByte c).toNat ∧ (m.lowByte c).toNat ≤ 0x17)

/-- What a decoder of datagrams returns: its result, `*poutlen` and the globals. -/
structure Decoded where
  op : Int
  poutlen : Int
  srv : Server

/-- The record `udpa0` reads from a buffer. -/
def udpRecord (m : Machine) (pin : Buf) : PortStat where
  stat := m.lowByte (pin 3)
  baud := m.lowByte (pin 4)
  bits := m.lowByte (pin 5)
  parity := m.lowByte (pin 6)
  stop := m.lowByte (pin 7)
  flowctrl := m.lowByte (pin 8)
  ip := m.ntohl (pin.loadInt m 9)

/-- `udpa0`: an address (index 0) or the record of one port. -/
def udpa0 (m : Machine) (s : Server) (pin : Buf) : Decoded :=
  if m.lowByte (pin 1) = 0 then
    ⟨-1, 0, { s with
      gip := m.ntohl (pin.loadInt m 3)
      gipmask := m.ntohl (pin.loadInt m 7) }⟩
  else if isPortIndex m (pin 1) then
    let sn := slotBits m (pin 1)
    ⟨-1, 0, { s with gportStat := Function.update s.gportStat sn (udpRecord m pin) }⟩
  else ⟨-1, 0, s⟩

/-- The new value of one record in the loop of `udpaf`. -/
def udpafRecord (m : Machine) (c : Byte) (r : PortStat) : PortStat :=
  let s := m.lowByte c
  if s ≠ r.stat then { r with stat := s } else r

/-- `udpaf`: the `stat` fields of all ports. `*poutlen` is left alone. -/
def udpaf (m : Machine) (s : Server) (pin : Buf) (poutlen : Int) : Decoded :=
  ⟨-1, poutlen, { s with gportStat := fun i => udpafRecord m (pin (3 + i)) (s.gportStat i) }⟩

/-- What `udp2send` returns and leaves behind. -/
structure Udp where
  op : Int
  pout : Buf
  poutlen : Int
  srv : Server

/-- `udp2send`: check a datagram, decode it, and build the summary that goes to the
client. The summary is built, and the result set to 0, for every datagram that passes
the checksum, whatever the switch made of it. -/
def udp2send (m : Machine) (s : Server) (pin : Buf) (inlen : Int) (pout : Buf) (poutlen : Int) :
    Udp :=
  if inlen ≤ 0 then ⟨-1, pout, 0, s⟩
  else if !crcOk m pin then ⟨-1, pout, 0, s⟩
  else
    let d :=
      if m.lowByte (pin 0) = 0xa0 then udpa0 m s pin
      else if m.lowByte (pin 0) = 0xaf then udpaf m s pin poutlen
      else ⟨-1, 0, s⟩
    let s := d.srv
    let pout := pout.store 0 [0xaf, 0x20, 8]
    let pout := pout.store 3 (List.ofFn fun i => chr (s.gportStat i).stat)
    let pout := pout.store 11 [chr (crc m pout)]
    ⟨0, pout, 12, s⟩

/-! ### Requests -/

/-- What a request handler returns and leaves behind: its result, the request buffer
(rewritten in place by a bulk request), the reply buffer, the array of reply lengths
and the globals. -/
structure Tcp where
  op : Int
  pin : Buf
  pout : Buf
  poutlen : Nat → Int
  srv : Server

/-- `tcp51`: acknowledge an address change. -/
def tcp51 (m : Machine) (e : Eth0) (s : Server) (pin pout : Buf) (poutlen : Nat → Int) : Tcp :=
  let s := getipEth0 m e s
  let pout := pout.store 0 [0xa1, 0x00, 2, 0, 0]
  let pout := pout.store 5 [chr (crc m pout)]
  ⟨0x51, pin, pout, Function.update poutlen 0 6, s⟩

/-- `tcp50` for every index but `0xff`, writing at `pout + p` and `poutlen + pi`. -/
def tcp50Single (m : Machine) (e : Eth0) (s : Server) (pin pout : Buf) (p : Nat)
    (poutlen : Nat → Int) (pi : Nat) : Tcp :=
  if m.lowByte (pin 1) = 0 then
    let s := getipEth0 m e s
    let pout := pout.store p [0xa0, 0x00, 8]
    let pout := pout.store (p + 3) (m.bytesOf s.gip)
    let pout := pout.store (p + 7) (m.bytesOf s.gipmask)
    let pout := pout.store (p + 11) [chr (crc m (pout.offset p))]
    ⟨0, pin, pout, Function.update poutlen pi 12, s⟩
  else if isPortIndex m (pin 1) then
    let r := s.gportStat (slotBits m (pin 1))
    let pout := pout.store p [0xa0, pin 1, 0x0a]
    let pout := pout.store (p + 3)
      [chr r.stat, chr r.baud, chr r.bits, chr r.parity, chr r.stop, chr r.flowctrl]
    let pout := pout.store (p + 9) (m.bytesOf (m.htonl r.ip))
    let pout := pout.store (p + 13) [chr (crc m (pout.offset p))]
    ⟨0, pin, pout, Function.update poutlen pi 14, s⟩
  else if m.lowByte (pin 1) = 0x20 then
    let pout := pout.store p [0xa0, pin 1, 0x08]
    let pout := pout.store (p + 3) (List.ofFn fun i => chr (s.gportStat i).stat)
    let pout := pout.store (p + 11) [chr (crc m (pout.offset p))]
    ⟨0, pin, pout, Function.update poutlen pi 12, s⟩
  else ⟨-1, pin, pout, poutlen, s⟩

/-- The local pointers of a bulk request next to what it has done so far. -/
structure Bulk where
  p : Nat
  pi : Nat
  tcp : Tcp

/-- One turn of the loop of a bulk request: ask for port `i` behind the last reply. -/
def bulkTurn (m : Machine) (e : Eth0) (b : Bulk) (i : Nat) : Bulk :=
  let pin := b.tcp.pin.store 1 [BitVec.ofNat 8 (0x10 + i)]
  -- `*pi` is the length the previous call has just set, so never negative.
  let p := b.p + (b.tcp.poutlen b.pi).toNat
  let pi := b.pi + 1
  ⟨p, pi, tcp50Single m e b.tcp.srv pin b.tcp.pout p b.tcp.poutlen pi⟩

/-- `tcp50`. The recursive calls of index `0xff` have indices 0 and `0x10..0x17`, so the
recursion is one level deep. -/
def tcp50 (m : Machine) (e : Eth0) (s : Server) (pin pout : Buf) (poutlen : Nat → Int) : Tcp :=
  if m.lowByte (pin 1) = 0xff then
    let pin := pin.store 1 [0x0]
    let first : Bulk := ⟨0, 0, tcp50Single m e s pin pout 0 poutlen 0⟩
    { ((List.range 8).foldl (bulkTurn m e) first).tcp with op := 9 }
  else tcp50Single m e s pin pout 0 poutlen 0

/-- `tcp2send`. -/
def tcp2send (m : Machine) (e : Eth0) (s : Server) (pin : Buf) (inlen : Int) (pout : Buf)
    (poutlen : Nat → Int) : Tcp :=
  if inlen ≤ 0 then ⟨-1, pin, pout, Function.update poutlen 0 0, s⟩
  else if !crcOk m pin then ⟨-1, pin, pout, Function.update poutlen 0 0, s⟩
  else if m.lowByte (pin 0) = 0x50 then tcp50 m e s pin pout poutlen
  else if m.lowByte (pin 0) = 0x51 then tcp51 m e s pin pout poutlen
  else ⟨-1, pin, pout, Function.update poutlen 0 0, s⟩

end SerialServer.Mrs2lib
