import SerialServer.Core.Interleave
import SerialServer.Server.Mrs2s

/-!
# SerialServer.Server.Stepwise

The two loops of a child process, one access to its globals at a time.

`main` and `threadUDPr` run in one process and take no lock. Between any two reads or
writes of `gport_stat`, `gip`, `gipmask` or `new_fd`, and between any two calls of `send`,
the other thread may run. The functions are those of `mrs2lib.c` and `mrs2s.c` once more,
written as `Code`: what is read is held in a local, what is written is one field. The
receive buffers, the output buffers and the array of lengths are locals of each thread.

The texts `gszip`, `gszipmask` and the two scripts are touched by `main` only; a script is
written in one step. A `send` is atomic: it sends all it is given, or fails and sends
nothing.

A turn that nothing interrupts does what the turn of `Server.Mrs2s` does
(`clientTurn_alone`, `threadUDPr_alone`).
-/

namespace SerialServer.Stepwise

open Mrs2lib Mrs2s

/-- What the threads of a child process share. -/
structure Process where
  srv : Server
  /-- `new_fd` is open. -/
  newFd : Bool

/-- Code of a thread of the process. -/
abbrev Proc := Code Process (List Byte)

/-- Read a global. -/
def look {α : Type} (g : Server → α) : Proc α := Code.get fun s => g s.srv

/-- Write a global. -/
def write (f : Server → Server) : Proc Unit := Code.modify fun s => { s with srv := f s.srv }

/-! ### Requests -/

/-- `getip_eth0`. -/
def getipEth0 (m : Machine) (e : Eth0) : Proc Unit := do
  let pip := inetNtoa m e.ip
  let pmask := inetNtoa m e.mask
  write fun s => { s with gszip := pip }
  write fun s => { s with gszipmask := pmask }
  write fun s => { s with gip := (inetAton m pip).getD s.gip }
  write fun s => { s with gipmask := (inetAton m pmask).getD s.gipmask }

/-- `pout[3+i]=gport_stat[i].stat`, for a `pout` at offset `p`. -/
def storeStat (p : Nat) (pout : Buf) (i : Fin 8) : Proc Buf := do
  let stat ← look fun s => (s.gportStat i).stat
  pure (pout.store (p + 3 + i) [chr stat])

/-- The loop over `storeStat`. -/
def storeStats (pout : Buf) (p : Nat) : Proc Buf := (List.finRange 8).foldlM (storeStat p) pout

/-- What a request handler returns, and what it leaves in its caller's variables. -/
structure Reply where
  op : Int
  pin : Buf
  pout : Buf
  poutlen : Nat → Int

/-- `sip.s_addr != gip.s_addr || smask.s_addr != gipmask.s_addr`: the mask is read only if
the addresses are equal. -/
def isNew (sip smask : Word) : Proc Bool := do
  let gip ← look Server.gip
  if sip ≠ gip then pure true
  else do
    let gipmask ← look Server.gipmask
    pure (decide (smask ≠ gipmask))

/-- `setnewip`; its result is not looked at. -/
def setnewip (m : Machine) (env : FopenEnv) (p : Buf) : Proc Unit :=
  if m.lowByte (p 0) ≠ 0x51 then pure ()
  else do
    let sip := p.loadInt m 4
    let smask := p.loadInt m 8
    let ip := inetNtoa m sip
    let ipmask := inetNtoa m smask
    let new ← isNew sip smask
    if new then do
      write (mySaveBAT env ip ipmask)
      write fun s => { s with gip := sip }
      write fun s => { s with gipmask := smask }
      write fun s => { s with gszip := ip }
      write fun s => { s with gszipmask := ipmask }
    else pure ()

/-- `tcp51`. -/
def tcp51 (m : Machine) (e : Eth0) (pin pout : Buf) (poutlen : Nat → Int) : Proc Reply := do
  getipEth0 m e
  let pout := pout.store 0 [0xa1, 0x00, 2, 0, 0]
  let pout := pout.store 5 [chr (crc m pout)]
  pure ⟨0x51, pin, pout, Function.update poutlen 0 6⟩

/-- `tcp50` for every index but `0xff`, writing at `pout + p` and `poutlen + pi`. -/
def tcp50Single (m : Machine) (e : Eth0) (pin pout : Buf) (p : Nat) (poutlen : Nat → Int)
    (pi : Nat) : Proc Reply :=
  if m.lowByte (pin 1) = 0 then do
    let pout := pout.store p [0xa0, 0x00, 8]
    getipEth0 m e
    let gip ← look Server.gip
    let pout := pout.store (p + 3) (m.bytesOf gip)
    let gipmask ← look Server.gipmask
    let pout := pout.store (p + 7) (m.bytesOf gipmask)
    let pout := pout.store (p + 11) [chr (crc m (pout.offset p))]
    pure ⟨0, pin, pout, Function.update poutlen pi 12⟩
  else if isPortIndex m (pin 1) then do
    let sn := slotBits m (pin 1)
    let pout := pout.store p [0xa0, pin 1, 0x0a]
    let stat ← look fun s => (s.gportStat sn).stat
    let baud ← look fun s => (s.gportStat sn).baud
    let bits ← look fun s => (s.gportStat sn).bits
    let parity ← look fun s => (s.gportStat sn).parity
    let stop ← look fun s => (s.gportStat sn).stop
    let flowctrl ← look fun s => (s.gportStat sn).flowctrl
    let pout := pout.store (p + 3)
      [chr stat, chr baud, chr bits, chr parity, chr stop, chr flowctrl]
    let ip ← look fun s => (s.gportStat sn).ip
    let pout := pout.store (p + 9) (m.bytesOf (m.htonl ip))
    let pout := pout.store (p + 13) [chr (crc m (pout.offset p))]
    pure ⟨0, pin, pout, Function.update poutlen pi 14⟩
  else if m.lowByte (pin 1) = 0x20 then do
    let pout := pout.store p [0xa0, pin 1, 0x08]
    let pout ← storeStats pout p
    let pout := pout.store (p + 11) [chr (crc m (pout.offset p))]
    pure ⟨0, pin, pout, Function.update poutlen pi 12⟩
  else pure ⟨-1, pin, pout, poutlen⟩

/-- The local pointers of a bulk request next to what it has done so far. -/
structure Bulk where
  p : Nat
  pi : Nat
  reply : Reply

/-- One turn of the loop of a bulk request. -/
def bulkTurn (m : Machine) (e : Eth0) (b : Bulk) (i : Nat) : Proc Bulk := do
  let pin := b.reply.pin.store 1 [BitVec.ofNat 8 (0x10 + i)]
  let p := b.p + (b.reply.poutlen b.pi).toNat
  let pi := b.pi + 1
  let r ← tcp50Single m e pin b.reply.pout p b.reply.poutlen pi
  pure ⟨p, pi, r⟩

/-- `tcp50`. -/
def tcp50 (m : Machine) (e : Eth0) (pin pout : Buf) (poutlen : Nat → Int) : Proc Reply :=
  if m.lowByte (pin 1) = 0xff then do
    let pin := pin.store 1 [0x0]
    let first ← tcp50Single m e pin pout 0 poutlen 0
    let last ← (List.range 8).foldlM (bulkTurn m e) ⟨0, 0, first⟩
    pure { last.reply with op := 9 }
  else tcp50Single m e pin pout 0 poutlen 0

/-- `tcp2send`. -/
def tcp2send (m : Machine) (e : Eth0) (pin : Buf) (inlen : Int) (pout : Buf)
    (poutlen : Nat → Int) : Proc Reply :=
  if inlen ≤ 0 then pure ⟨-1, pin, pout, Function.update poutlen 0 0⟩
  else if !crcOk m pin then pure ⟨-1, pin, pout, Function.update poutlen 0 0⟩
  else if m.lowByte (pin 0) = 0x50 then tcp50 m e pin pout poutlen
  else if m.lowByte (pin 0) = 0x51 then tcp51 m e pin pout poutlen
  else pure ⟨-1, pin, pout, Function.update poutlen 0 0⟩

/-! ### The loop of `main` -/

/-- The locals of the loop. -/
structure Main where
  buf : Buf
  outbuf : Buf
  poutlen : Nat → Int
  /-- The loop has not been left. -/
  running : Bool

/-- One `send` of `outbuf`: whether it succeeded. -/
def sendOut (ok : Bool) (outbuf : Buf) (p n : Nat) : Proc Bool :=
  if ok then do
    Code.send (outbuf.slice p n)
    pure true
  else pure false

/-- The sends of `case 9`, until one fails. -/
def sendBulk (sendOk : Nat → Bool) (outbuf : Buf) (poutlen : Nat → Int) :
    Nat → List Nat → Proc Bool
  | _, [] => pure true
  | p, i :: is => do
      let sent ← sendOut (sendOk i) outbuf p (poutlen i).toNat
      if sent then sendBulk sendOk outbuf poutlen (p + (poutlen i).toNat) is
      else pure false

/-- The `switch` on the result of `tcp2send`. -/
def answer (m : Machine) (env : TurnEnv) (c : Main) (op : Int) : Proc Main :=
  if op = 0 then do
    let sent ← sendOut (env.sendOk 0) c.outbuf 0 (c.poutlen 0).toNat
    pure { c with running := sent }
  else if op = 9 then do
    let sent ← sendBulk env.sendOk c.outbuf c.poutlen 0 (List.range 9)
    pure { c with running := sent }
  else if op = 0x51 then do
    let sent ← sendOut (env.sendOk 0) c.outbuf 0 (c.poutlen 0).toNat
    if sent then do
      setnewip m env.fopen c.buf
      pure c
    else pure { c with running := false }
  else pure c

/-- Behind the loop: `close(new_fd); new_fd=-1;`. -/
def leave (c : Main) : Proc Main :=
  if c.running then pure c
  else do
    Code.modify fun s => { s with newFd := false }
    pure c

/-- One turn of the loop, after `read` has returned `r`, and what is behind the loop if
it is left. -/
def clientTurn (m : Machine) (env : TurnEnv) (c : Main) (r : ReadResult) : Proc Main :=
  if !c.running then pure c
  else
    match r with
    | .error => leave { c with running := false }
    | .eof => leave { c with running := false }
    | .data d => do
        let buf := c.buf.store 0 d.bytes
        let t ← tcp2send m env.eth0 buf d.bytes.length c.outbuf c.poutlen
        let c ← answer m env { c with buf := t.pin, outbuf := t.pout, poutlen := t.poutlen } t.op
        leave c

/-! ### Datagrams -/

/-- Write a field of a record of `gport_stat`. -/
def writePort (sn : Fin 8) (f : PortStat → PortStat) : Proc Unit :=
  write fun s => { s with gportStat := Function.update s.gportStat sn (f (s.gportStat sn)) }

/-- `udpa0`. Its result and `*poutlen` are overwritten by its caller. -/
def udpa0 (m : Machine) (pin : Buf) : Proc Unit :=
  if m.lowByte (pin 1) = 0 then do
    write fun s => { s with gip := m.ntohl (pin.loadInt m 3) }
    write fun s => { s with gipmask := m.ntohl (pin.loadInt m 7) }
  else if isPortIndex m (pin 1) then do
    let sn := slotBits m (pin 1)
    writePort sn fun r => { r with stat := m.lowByte (pin 3) }
    writePort sn fun r => { r with baud := m.lowByte (pin 4) }
    writePort sn fun r => { r with bits := m.lowByte (pin 5) }
    writePort sn fun r => { r with parity := m.lowByte (pin 6) }
    writePort sn fun r => { r with stop := m.lowByte (pin 7) }
    writePort sn fun r => { r with flowctrl := m.lowByte (pin 8) }
    writePort sn fun r => { r with ip := m.ntohl (pin.loadInt m 9) }
  else pure ()

/-- One turn of the loop of `udpaf`. -/
def udpafTurn (m : Machine) (pin : Buf) (_ : Unit) (i : Fin 8) : Proc Unit := do
  let s := m.lowByte (pin (3 + i))
  let stat ← look fun s => (s.gportStat i).stat
  if s ≠ stat then writePort i fun r => { r with stat := s } else pure ()

/-- `udpaf`. -/
def udpaf (m : Machine) (pin : Buf) : Proc Unit := (List.finRange 8).foldlM (udpafTurn m pin) ()

/-- What `udp2send` returns, and what it leaves in its caller's variables. -/
structure Summary where
  op : Int
  pout : Buf
  poutlen : Int

/-- The `switch` of `udp2send`. -/
def udpDecode (m : Machine) (pin : Buf) : Proc Unit :=
  if m.lowByte (pin 0) = 0xa0 then udpa0 m pin
  else if m.lowByte (pin 0) = 0xaf then udpaf m pin
  else pure ()

/-- `udp2send`. -/
def udp2send (m : Machine) (pin : Buf) (inlen : Int) (pout : Buf) : Proc Summary :=
  if inlen ≤ 0 then pure ⟨-1, pout, 0⟩
  else if !crcOk m pin then pure ⟨-1, pout, 0⟩
  else do
    udpDecode m pin
    let pout := pout.store 0 [0xaf, 0x20, 8]
    let pout ← storeStats pout 0
    let pout := pout.store 11 [chr (crc m pout)]
    pure ⟨0, pout, 12⟩

/-- The locals of `threadUDPr`. -/
structure Udp where
  buf : Buf
  outbuf : Buf
  outlen : Int

/-- Behind `udp2send`: send the summary on, if there is a client. A `send` that fails is
reported and nothing else. -/
def forward (sendOk : Bool) (op : Int) (t : Udp) : Proc Udp := do
  let newFd ← Code.get Process.newFd
  if !newFd then pure t
  else if op = 0 then
    if 0 < t.outlen then do
      let _ ← sendOut sendOk t.outbuf 0 t.outlen.toNat
      pure t
    else pure t
  else pure t

/-- One turn of the loop in `threadUDPr`, after `recvfrom` has returned the bytes `d`. -/
def threadUDPr (m : Machine) (sendOk : Bool) (t : Udp) (d : List Byte) : Proc Udp :=
  if (0 : Int) < d.length then do
    let buf := t.buf.store 0 d
    let r ← udp2send m buf d.length t.outbuf
    forward sendOk r.op ⟨buf, r.pout, r.poutlen⟩
  else pure t

/-! ### Without interruption -/

@[simp] theorem look_alone {α : Type} (g : Server → α) (s : Process) :
    (look g).alone s = ⟨s, [], g s.srv⟩ := rfl

/-- Storing a run of bytes one at a time. -/
theorem foldl_store {n : Nat} (g : Fin n → Byte) (b : Buf) (p : Nat) :
    (List.finRange n).foldl (fun b i => b.store (p + i) [g i]) b = b.store p (List.ofFn g) := by
  induction n generalizing b with
  | zero =>
    funext i
    simp [Buf.store]
  | succ n ih =>
    have hlast := Buf.store_store b p (List.ofFn fun i => g i.castSucc) [g (Fin.last n)]
    rw [List.length_ofFn] at hlast
    rw [List.finRange_succ_last, List.foldl_append, List.foldl_map, List.ofFn_succ',
      List.concat_eq_append, ← hlast, ← ih (fun i => g i.castSucc) b]
    rfl

theorem storeStats_alone (pout : Buf) (p : Nat) (s : Process) :
    (storeStats pout p).alone s =
      ⟨s, [], pout.store (p + 3) (List.ofFn fun i => chr (s.srv.gportStat i).stat)⟩ := by
  obtain ⟨hout, hstate, hresult⟩ := Code.alone_foldlM (storeStat p)
    (R := fun s' b c => s' = s ∧ b = c)
    (g := fun b i => b.store (p + 3 + i) [chr (s.srv.gportStat i).stat])
    (by rintro _ b c i ⟨rfl, rfl⟩; exact ⟨rfl, rfl, rfl⟩)
    (List.finRange 8) (s := s) (a := pout) (c := pout) ⟨rfl, rfl⟩
  rw [foldl_store] at hresult
  exact Done.eq_mk hstate hout hresult

/-- What a request handler leaves, without the globals. -/
def Reply.of (r : Tcp) : Reply := ⟨r.op, r.pin, r.pout, r.poutlen⟩

/-- The code runs alone like a request handler. -/
def RunsLike (t : Proc Reply) (s : Process) (r : Tcp) : Prop :=
  t.alone s = ⟨{ s with srv := r.srv }, [], .of r⟩

theorem tcp51_alone (m : Machine) (e : Eth0) (pin pout : Buf) (poutlen : Nat → Int)
    (s : Process) :
    RunsLike (tcp51 m e pin pout poutlen) s (Mrs2lib.tcp51 m e s.srv pin pout poutlen) := rfl

theorem tcp50Single_alone (m : Machine) (e : Eth0) (pin pout : Buf) (p : Nat)
    (poutlen : Nat → Int) (pi : Nat) (s : Process) :
    RunsLike (tcp50Single m e pin pout p poutlen pi) s
      (Mrs2lib.tcp50Single m e s.srv pin pout p poutlen pi) := by
  unfold RunsLike tcp50Single Mrs2lib.tcp50Single
  by_cases h0 : m.lowByte (pin 1) = 0
  · rw [if_pos h0, if_pos h0]
    rfl
  rw [if_neg h0, if_neg h0]
  by_cases hp : isPortIndex m (pin 1) = true
  · rw [if_pos hp, if_pos hp]
    rfl
  rw [if_neg hp, if_neg hp]
  by_cases h20 : m.lowByte (pin 1) = 0x20
  · rw [if_pos h20, if_pos h20]
    simp only [Code.alone_bind, storeStats_alone, Code.alone_pure, List.append_nil]
    rfl
  · rw [if_neg h20, if_neg h20]
    rfl

/-- What a bulk request has done so far, without the globals. -/
def Bulk.of (b : Mrs2lib.Bulk) : Bulk := ⟨b.p, b.pi, .of b.tcp⟩

theorem bulkTurn_alone (m : Machine) (e : Eth0) (b : Mrs2lib.Bulk) (i : Nat) (newFd : Bool) :
    (bulkTurn m e (.of b) i).alone ⟨b.tcp.srv, newFd⟩ =
      ⟨⟨(Mrs2lib.bulkTurn m e b i).tcp.srv, newFd⟩, [], .of (Mrs2lib.bulkTurn m e b i)⟩ := by
  have h := tcp50Single_alone m e (b.tcp.pin.store 1 [BitVec.ofNat 8 (0x10 + i)]) b.tcp.pout
    (b.p + (b.tcp.poutlen b.pi).toNat) b.tcp.poutlen (b.pi + 1) ⟨b.tcp.srv, newFd⟩
  simp only [bulkTurn, Bulk.of, Reply.of, Code.alone_bind, Code.alone_pure]
  rw [h]
  rfl

theorem bulkTurns_alone (m : Machine) (e : Eth0) (is : List Nat) (b : Mrs2lib.Bulk)
    (newFd : Bool) :
    (is.foldlM (bulkTurn m e) (.of b)).alone ⟨b.tcp.srv, newFd⟩ =
      ⟨⟨(is.foldl (Mrs2lib.bulkTurn m e) b).tcp.srv, newFd⟩, [],
        .of (is.foldl (Mrs2lib.bulkTurn m e) b)⟩ := by
  -- The loop has the globals in the process, its twin has them in what it carries along.
  obtain ⟨hout, hstate, hresult⟩ := Code.alone_foldlM (bulkTurn m e)
    (g := Mrs2lib.bulkTurn m e) (R := fun s b c => s = ⟨c.tcp.srv, newFd⟩ ∧ b = .of c)
    (by
      rintro _ _ c i ⟨rfl, rfl⟩
      rw [bulkTurn_alone]
      exact ⟨rfl, rfl, rfl⟩)
    is (s := ⟨b.tcp.srv, newFd⟩) (a := .of b) (c := b) ⟨rfl, rfl⟩
  exact Done.eq_mk hstate hout hresult

theorem tcp50_alone (m : Machine) (e : Eth0) (pin pout : Buf) (poutlen : Nat → Int)
    (s : Process) :
    RunsLike (tcp50 m e pin pout poutlen) s (Mrs2lib.tcp50 m e s.srv pin pout poutlen) := by
  unfold RunsLike tcp50 Mrs2lib.tcp50
  by_cases hff : m.lowByte (pin 1) = 0xff
  · rw [if_pos hff, if_pos hff]
    have hfirst := tcp50Single_alone m e (pin.store 1 [0x0]) pout 0 poutlen 0 s
    dsimp only
    generalize Mrs2lib.tcp50Single m e s.srv (pin.store 1 [0x0]) pout 0 poutlen 0 = first
      at hfirst ⊢
    have hrest : ((List.range 8).foldlM (bulkTurn m e) ⟨0, 0, .of first⟩).alone
        ⟨first.srv, s.newFd⟩ = _ := bulkTurns_alone m e (List.range 8) ⟨0, 0, first⟩ s.newFd
    rw [Code.alone_bind, hfirst, Code.alone_bind]
    dsimp only
    rw [hrest]
    rfl
  · rw [if_neg hff, if_neg hff]
    exact tcp50Single_alone m e pin pout 0 poutlen 0 s

theorem tcp2send_alone (m : Machine) (e : Eth0) (pin : Buf) (inlen : Int) (pout : Buf)
    (poutlen : Nat → Int) (s : Process) :
    RunsLike (tcp2send m e pin inlen pout poutlen) s
      (Mrs2lib.tcp2send m e s.srv pin inlen pout poutlen) := by
  unfold tcp2send Mrs2lib.tcp2send
  split
  · rfl
  split
  · rfl
  split
  · exact tcp50_alone m e pin pout poutlen s
  split
  · exact tcp51_alone m e pin pout poutlen s
  · rfl

theorem isNew_alone (sip smask : Word) (s : Process) :
    (isNew sip smask).alone s =
      ⟨s, [], decide (sip ≠ s.srv.gip ∨ smask ≠ s.srv.gipmask)⟩ := by
  rw [isNew, Code.alone_bind, look_alone]
  dsimp only
  by_cases hip : sip ≠ s.srv.gip
  · rw [if_pos hip, decide_eq_true (.inl hip)]
    rfl
  · rw [if_neg hip, decide_eq_decide.2 (or_iff_right hip)]
    rfl

theorem setnewip_alone (m : Machine) (env : FopenEnv) (p : Buf) (s : Process) :
    (setnewip m env p).alone s =
      ⟨{ s with srv := (Mrs2lib.setnewip m env s.srv p).2 }, [], ()⟩ := by
  unfold setnewip Mrs2lib.setnewip
  by_cases h51 : m.lowByte (p 0) ≠ 0x51
  · rw [if_pos h51, if_pos h51]
    rfl
  rw [if_neg h51, if_neg h51]
  simp only [Code.alone_bind, isNew_alone]
  by_cases hnew : p.loadInt m 4 ≠ s.srv.gip ∨ p.loadInt m 8 ≠ s.srv.gipmask
  · rw [decide_eq_true hnew, if_pos hnew]
    rfl
  · rw [decide_eq_false hnew, if_neg hnew]
    rfl

theorem sendOut_alone (ok : Bool) (outbuf : Buf) (p n : Nat) (s : Process) :
    (sendOut ok outbuf p n).alone s = ⟨s, if ok then [outbuf.slice p n] else [], ok⟩ := by
  cases ok <;> rfl

theorem sendBulk_alone (sendOk : Nat → Bool) (outbuf : Buf) (poutlen : Nat → Int) (p : Nat)
    (is : List Nat) (s : Process) :
    (sendBulk sendOk outbuf poutlen p is).alone s =
      ⟨s, (Mrs2s.sendBulk sendOk outbuf poutlen p is).1,
        (Mrs2s.sendBulk sendOk outbuf poutlen p is).2⟩ := by
  induction is generalizing p with
  | nil => rfl
  | cons i is ih =>
    rw [sendBulk, Code.alone_bind, sendOut_alone, Mrs2s.sendBulk]
    cases sendOk i with
    | false => rfl
    | true =>
      dsimp only
      rw [if_pos rfl, ih]
      rfl

/-- A child whose loop has these locals. -/
def Main.child (c : Main) (srv : Server) (sent : List (List Byte)) : Child :=
  ⟨c.buf, c.outbuf, c.poutlen, srv, sent, c.running⟩

/-- What the loop of a child leaves, without the globals. -/
def Main.of (c : Child) : Main := ⟨c.buf, c.outbuf, c.poutlen, c.running⟩

theorem answer_alone (m : Machine) (env : TurnEnv) (c : Main) (hrun : c.running = true) (op : Int)
    (s : Process) :
    (answer m env c op).alone s =
      ⟨{ s with srv := (Mrs2s.answer m env (c.child s.srv []) op).srv },
        (Mrs2s.answer m env (c.child s.srv []) op).sent,
        .of (Mrs2s.answer m env (c.child s.srv []) op)⟩ := by
  obtain ⟨buf, outbuf, poutlen, running⟩ := c
  cases hrun
  unfold answer Mrs2s.answer
  by_cases h0 : op = 0
  · rw [if_pos h0, if_pos h0, Code.alone_bind, sendOut_alone]
    cases env.sendOk 0 <;> rfl
  rw [if_neg h0, if_neg h0]
  by_cases h9 : op = 9
  · rw [if_pos h9, if_pos h9, Code.alone_bind, sendBulk_alone]
    exact congrArg (fun out => (⟨_, out, _⟩ : Done Process _ Main)) (List.append_nil _)
  rw [if_neg h9, if_neg h9]
  by_cases h51 : op = 0x51
  · rw [if_pos h51, if_pos h51, Code.alone_bind, sendOut_alone]
    cases env.sendOk 0 with
    | false => rfl
    | true =>
      simp only [if_true, Code.alone_bind, setnewip_alone]
      rfl
  · rw [if_neg h51, if_neg h51]
    rfl

theorem leave_alone (c : Main) (srv : Server) :
    (leave c).alone ⟨srv, true⟩ = ⟨⟨srv, c.running⟩, [], c⟩ := by
  obtain ⟨buf, outbuf, poutlen, running⟩ := c
  cases running <;> rfl

/-- **An uninterrupted turn of the loop** is the turn of `Server.Mrs2s`, and `new_fd` is
closed when the loop is left. -/
theorem clientTurn_alone (m : Machine) (env : TurnEnv) (c : Main) (r : ReadResult)
    (s : Process) (hfd : s.newFd = c.running) :
    (clientTurn m env c r).alone s =
      ⟨⟨(Mrs2s.clientTurn m env (c.child s.srv []) r).srv,
          (Mrs2s.clientTurn m env (c.child s.srv []) r).running⟩,
        (Mrs2s.clientTurn m env (c.child s.srv []) r).sent,
        .of (Mrs2s.clientTurn m env (c.child s.srv []) r)⟩ := by
  obtain ⟨srv, newFd⟩ := s
  obtain ⟨buf, outbuf, poutlen, running⟩ := c
  obtain rfl : newFd = running := hfd
  cases newFd with
  | false => rfl
  | true =>
    cases r with
    | error => rfl
    | eof => rfl
    | data d =>
      let t := Mrs2lib.tcp2send m env.eth0 srv (buf.store 0 d.bytes) d.bytes.length outbuf poutlen
      have ht : _ = (⟨⟨t.srv, true⟩, [], .of t⟩ : Done Process (List Byte) Reply) :=
        tcp2send_alone m env.eth0 (buf.store 0 d.bytes) d.bytes.length outbuf poutlen ⟨srv, true⟩
      have hans := answer_alone m env ⟨t.pin, t.pout, t.poutlen, true⟩ rfl t.op ⟨t.srv, true⟩
      change (tcp2send m env.eth0 (buf.store 0 d.bytes) d.bytes.length outbuf poutlen >>= fun t =>
        answer m env ⟨t.pin, t.pout, t.poutlen, true⟩ t.op >>= leave).alone ⟨srv, true⟩ = _
      rw [Code.alone_bind, ht, Code.alone_bind]
      dsimp only [Reply.of]
      rw [hans, leave_alone]
      exact congrArg (fun out => (⟨_, out, _⟩ : Done Process _ Main)) (List.append_nil _)

/-! ### Datagrams without interruption -/

@[simp] theorem writePort_alone (sn : Fin 8) (f : PortStat → PortStat) (s : Process) :
    (writePort sn f).alone s =
      ⟨{ s with srv := { s.srv with
        gportStat := Function.update s.srv.gportStat sn (f (s.srv.gportStat sn)) } }, [], ()⟩ := rfl

theorem udpa0_alone (m : Machine) (pin : Buf) (s : Process) :
    (udpa0 m pin).alone s = ⟨{ s with srv := (Mrs2lib.udpa0 m s.srv pin).srv }, [], ()⟩ := by
  unfold udpa0 Mrs2lib.udpa0
  by_cases h0 : m.lowByte (pin 1) = 0
  · rw [if_pos h0, if_pos h0]
    rfl
  rw [if_neg h0, if_neg h0]
  by_cases hp : isPortIndex m (pin 1) = true
  · rw [if_pos hp, if_pos hp]
    simp only [Code.alone_bind, writePort_alone, Function.update_self, Function.update_idem,
      List.append_nil]
    rfl
  · rw [if_neg hp, if_neg hp]
    rfl

theorem udpafTurn_alone (m : Machine) (pin : Buf) (u : Unit) (i : Fin 8) (s : Process) :
    (udpafTurn m pin u i).alone s =
      ⟨{ s with srv := { s.srv with
        gportStat := Function.update s.srv.gportStat i
          (udpafRecord m (pin (3 + i)) (s.srv.gportStat i)) } }, [], ()⟩ := by
  rw [udpafTurn, Code.alone_bind, look_alone]
  dsimp only
  unfold udpafRecord
  by_cases hs : m.lowByte (pin (3 + i)) ≠ (s.srv.gportStat i).stat
  · rw [if_pos hs, if_pos hs]
    rfl
  · rw [if_neg hs, if_neg hs, Function.update_eq_self]
    rfl

/-- Updating a function at each of some different places. -/
theorem foldl_update {ι β : Type} [DecidableEq ι] (h : ι → β → β) {is : List ι} (his : is.Nodup)
    (t : ι → β) : is.foldl (fun t i => Function.update t i (h i (t i))) t =
      fun i => if i ∈ is then h i (t i) else t i := by
  induction is generalizing t with
  | nil =>
    funext i
    simp
  | cons j is ih =>
    obtain ⟨hj, his⟩ := List.nodup_cons.1 his
    rw [List.foldl_cons, ih his]
    funext i
    by_cases hi : i = j
    · subst hi
      simp [hj]
    · simp [hi]

theorem udpaf_alone (m : Machine) (pin : Buf) (poutlen : Int) (s : Process) :
    (udpaf m pin).alone s =
      ⟨{ s with srv := (Mrs2lib.udpaf m s.srv pin poutlen).srv }, [], ()⟩ := by
  obtain ⟨hout, hstate⟩ := Code.alone_foldlM (udpafTurn m pin)
    (g := fun t i => Function.update t i (udpafRecord m (pin (3 + i)) (t i)))
    (R := fun s' _ t => s' = { s with srv := { s.srv with gportStat := t } })
    (by
      rintro _ u t i rfl
      rw [udpafTurn_alone]
      exact ⟨rfl, rfl⟩)
    (List.finRange 8) (s := s) (a := ()) (c := s.srv.gportStat) rfl
  rw [foldl_update _ (List.nodup_finRange 8)] at hstate
  simp only [List.mem_finRange, if_true] at hstate
  exact Done.eq_mk hstate hout rfl

theorem udpDecode_alone (m : Machine) (pin : Buf) (poutlen : Int) (s : Process) :
    (udpDecode m pin).alone s =
      ⟨{ s with srv := (if m.lowByte (pin 0) = 0xa0 then Mrs2lib.udpa0 m s.srv pin
        else if m.lowByte (pin 0) = 0xaf then Mrs2lib.udpaf m s.srv pin poutlen
        else ⟨-1, 0, s.srv⟩ : Decoded).srv }, [], ()⟩ := by
  unfold udpDecode
  by_cases ha0 : m.lowByte (pin 0) = 0xa0
  · rw [if_pos ha0, if_pos ha0, udpa0_alone]
  rw [if_neg ha0, if_neg ha0]
  by_cases haf : m.lowByte (pin 0) = 0xaf
  · rw [if_pos haf, if_pos haf, udpaf_alone m pin poutlen]
  · rw [if_neg haf, if_neg haf]
    rfl

theorem udp2send_alone (m : Machine) (pin : Buf) (inlen : Int) (pout : Buf) (poutlen : Int)
    (s : Process) :
    (udp2send m pin inlen pout).alone s =
      ⟨{ s with srv := (Mrs2lib.udp2send m s.srv pin inlen pout poutlen).srv }, [],
        ⟨(Mrs2lib.udp2send m s.srv pin inlen pout poutlen).op,
          (Mrs2lib.udp2send m s.srv pin inlen pout poutlen).pout,
          (Mrs2lib.udp2send m s.srv pin inlen pout poutlen).poutlen⟩⟩ := by
  unfold udp2send Mrs2lib.udp2send
  by_cases hlen : inlen ≤ 0
  · rw [if_pos hlen, if_pos hlen]
    rfl
  rw [if_neg hlen, if_neg hlen]
  by_cases hcrc : (!crcOk m pin) = true
  · rw [if_pos hcrc, if_pos hcrc]
    rfl
  rw [if_neg hcrc, if_neg hcrc, Code.alone_bind, udpDecode_alone m pin poutlen, Code.alone_bind,
    storeStats_alone]
  rfl

/-- A thread with these locals. -/
def Udp.thread (t : Udp) (srv : Server) : UdpThread := ⟨t.buf, t.outbuf, t.outlen, srv, []⟩

theorem forward_alone (op : Int) (t : Udp) (s : Process) :
    (forward true op t).alone s =
      ⟨s, if s.newFd = true ∧ op = 0 ∧ 0 < t.outlen then [t.outbuf.slice 0 t.outlen.toNat] else [],
        t⟩ := by
  rw [forward, Code.alone_bind, Code.alone_get]
  dsimp only
  by_cases hfd : s.newFd = true
  swap
  · rw [Bool.not_eq_true] at hfd
    rw [hfd, if_pos (by decide), if_neg fun h => nomatch h.1]
    rfl
  rw [hfd, if_neg (by decide)]
  by_cases hop : op = 0
  swap
  · rw [if_neg hop, if_neg fun h => hop h.2.1]
    rfl
  rw [if_pos hop]
  by_cases hlen : 0 < t.outlen
  · rw [if_pos hlen, if_pos ⟨rfl, hop, hlen⟩]
    rfl
  · rw [if_neg hlen, if_neg fun h => hlen h.2.2]
    rfl

/-- **An uninterrupted turn of the thread** whose `send` succeeds is the turn of
`Server.Mrs2s`. -/
theorem threadUDPr_alone (m : Machine) (t : Udp) (d : List Byte) (s : Process) :
    (threadUDPr m true t d).alone s =
      ⟨{ s with srv := (Mrs2s.threadUDPr m s.newFd (t.thread s.srv) d).srv },
        (Mrs2s.threadUDPr m s.newFd (t.thread s.srv) d).sent,
        ⟨(Mrs2s.threadUDPr m s.newFd (t.thread s.srv) d).buf,
          (Mrs2s.threadUDPr m s.newFd (t.thread s.srv) d).outbuf,
          (Mrs2s.threadUDPr m s.newFd (t.thread s.srv) d).outlen⟩⟩ := by
  unfold threadUDPr Mrs2s.threadUDPr
  by_cases hd : (0 : Int) < d.length
  · rw [if_pos hd, if_pos hd, Code.alone_bind,
      udp2send_alone m (t.buf.store 0 d) d.length t.outbuf t.outlen]
    dsimp only [Udp.thread]
    generalize Mrs2lib.udp2send m s.srv (t.buf.store 0 d) d.length t.outbuf t.outlen = r
    rw [forward_alone, List.nil_append]
    cases s.newFd with
    | false => rfl
    | true =>
      dsimp only [Bool.not_true]
      by_cases hop : r.op = 0
      · by_cases hlen : 0 < r.poutlen
        · rw [if_pos ⟨rfl, hop, hlen⟩, if_neg (by decide), if_pos hop, if_pos hlen]
          rfl
        · rw [if_neg fun h => hlen h.2.2, if_neg (by decide), if_pos hop, if_neg hlen]
      · rw [if_neg fun h => hop h.2.1, if_neg (by decide), if_neg hop]
  · rw [if_neg hd, if_neg hd]
    rfl

end SerialServer.Stepwise
