import SerialServer.Client.Tcpc
import SerialServer.Core.Scan
import SerialServer.Relay

/-!
# SerialServer.Client.AddressPath

Addresses on their way between a client, the server and the reporter.

An `s_addr` has its bytes in the order the address is written, on every machine. `htonl`
and `ntohl` are for integers; an `s_addr` put through one of them is the `s_addr` of another
address unless the machine is big-endian (`Ipv4.hton`). So an address comes through a path
when the number of swaps on it is even, or when it reads the same from both ends.
-/

namespace SerialServer.Tcpc

open Mrs2lib Mrs2s Dataxfer

/-! ### The scripts -/

/-- What one line of a script does to `eth0`: `ifconfig eth0 … netmask …` sets it. -/
def runLine (m : Machine) (e : Eth0) (line : List Char) : Eth0 :=
  match Scan.sscanf (List.replicate 5 .str) line with
  | [.str cmd, .str dev, .str ip, .str key, .str mask] =>
      if cmd = "ifconfig".toList ∧ dev = "eth0".toList ∧ key = "netmask".toList then
        ⟨(inetAton m ip).getD e.ip, (inetAton m mask).getD e.mask⟩
      else e
  | _ => e

/-- What a script that runs does to `eth0`. -/
def runScript (m : Machine) (e : Eth0) (script : Script) : Eth0 := script.foldl (runLine m) e

theorem solid_text (x : Ipv4) : Scan.Solid x.text ∧ x.text ≠ [] := by
  have hdot : ∀ t, Scan.Solid t → Scan.Solid ('.' :: t) := by
    intro t ht c hc
    rcases List.mem_cons.1 hc with rfl | hc
    · rfl
    · exact ht c hc
  have hoctet : ∀ b, Scan.Solid (octet b) := fun b => Scan.solid_toDigits _
  refine ⟨(hoctet _).append (hdot _ ((hoctet _).append (hdot _ ((hoctet _).append
    (hdot _ (hoctet _)))))), ?_⟩
  simp [Ipv4.text]

theorem ifconfigLine_eq (pip pmask : List Char) : ifconfigLine pip pmask =
    Scan.line ["ifconfig".toList, "eth0".toList, pip, "netmask".toList, pmask] := by
  have hhead : "ifconfig eth0 ".toList = "ifconfig".toList ++ ' ' :: ("eth0".toList ++ [' ']) := by
    decide
  have hkey : " netmask ".toList = ' ' :: ("netmask".toList ++ [' ']) := by
    decide
  refine (congrArg₂ (fun a b => a ++ pip ++ b ++ pmask) hhead hkey).trans ?_
  generalize "ifconfig".toList = cmd
  generalize "eth0".toList = dev
  generalize "netmask".toList = key
  simp only [Scan.line, List.append_assoc, List.cons_append, List.nil_append]

theorem runLine_ifconfig (m : Machine) (e : Eth0) (x y : Ipv4) :
    runLine m e (ifconfigLine x.text y.text) = ⟨x.sAddr m, y.sAddr m⟩ := by
  have hfields : ∀ f ∈ ["ifconfig".toList, "eth0".toList, x.text, "netmask".toList, y.text],
      Scan.Solid f ∧ f ≠ [] := by
    intro f hf
    simp only [List.mem_cons, List.not_mem_nil, or_false] at hf
    obtain rfl | rfl | rfl | rfl | rfl := hf
    · decide
    · decide
    · exact solid_text x
    · decide
    · exact solid_text y
  have hscan := Scan.sscanf_line_full hfields
  rw [← ifconfigLine_eq] at hscan
  have hx := x.inetAton_text m
  have hy := y.inetAton_text m
  unfold runLine
  rw [show (5 : Nat) = ["ifconfig".toList, "eth0".toList, x.text, "netmask".toList,
    y.text].length from rfl, hscan]
  simp only [List.map_cons, List.map_nil, and_self, if_true, hx, hy, Option.getD_some]

theorem runLine_short {m : Machine} {line : List Char}
    (h : (Scan.sscanf (List.replicate 5 .str) line).length ≠ 5) (e : Eth0) :
    runLine m e line = e := by
  unfold runLine
  split
  · next heq => exact absurd (congrArg List.length heq) h
  · rfl

/-- The script `mySaveBAT` runs sets the address it was written for. -/
theorem mySaveBAT_ran (m : Machine) (e : Eth0) (s : Server) (x y : Ipv4) :
    ∃ script, (mySaveBAT ⟨true, true⟩ x.text y.text s).ran = s.ran ++ [script] ∧
      runScript m e script = ⟨x.sAddr m, y.sAddr m⟩ := by
  refine ⟨_, rfl, ?_⟩
  have h₁ : (Scan.sscanf (List.replicate 5 .str) "#!/bin/sh".toList).length ≠ 5 := by decide
  have h₂ : (Scan.sscanf (List.replicate 5 .str) "killall mrs".toList).length ≠ 5 := by decide
  have h₃ : (Scan.sscanf (List.replicate 5 .str) "killall ser2net".toList).length ≠ 5 := by decide
  have h₄ : (Scan.sscanf (List.replicate 5 .str)
    "/root/run/ser2net -c /root/run/ser2net.conf &".toList).length ≠ 5 := by decide
  have h₅ : (Scan.sscanf (List.replicate 5 .str)
    "/root/run/mrs eth0 100 &".toList).length ≠ 5 := by decide
  simp only [runScript, List.foldl_cons, List.foldl_nil, runLine_short h₁, runLine_short h₂,
    runLine_short h₃, runLine_ifconfig, runLine_short h₄, runLine_short h₅]

/-! ### A device and its client -/

/-- A device: the address its `eth0` has, and the process that serves the client. -/
structure Device where
  eth0 : Eth0
  child : Child

/-- One turn of the process on a device where files can be written, what is sent goes out and
a script takes effect when it is run. -/
def Device.read (m : Machine) (d : Device) (chunk : Chunk) : Device :=
  let c := clientTurn m ⟨d.eth0, ⟨true, true⟩, fun _ => true⟩ d.child (.data chunk)
  ⟨(c.srv.ran.drop d.child.srv.ran.length).foldl (runScript m) d.eth0, c⟩

theorem sendto_changeLine (m : Machine) (sendline : Buf) (x y : Ipv4) :
    sendto m (changeLine m sendline (x.sAddr m) (y.sAddr m)) =
      changeFrame (x.hton m).bytes (y.hton m).bytes := by
  rw [changeLine_eq, Ipv4.bytesOf_htonl_sAddr, Ipv4.bytesOf_htonl_sAddr]
  exact sendto_store m sendline (isFrame_changeFrame rfl rfl)

/-- What the server reads when `tcpc.c` asks it to change the address to `ip` and `mask`. -/
def changeChunk (m : Machine) (sendline : Buf) (ip mask : Ipv4) : Chunk where
  bytes := sendto m (changeLine m sendline (ip.sAddr m) (mask.sAddr m))
  pos := by
    rw [sendto_changeLine]
    exact (by decide : 0 < 13)
  le := by
    rw [sendto_changeLine]
    exact (by decide : 13 ≤ 300)

/-- What the server reads when a client asks for index `idx`. -/
def queryChunk (m : Machine) (sendline : Buf) (idx : Byte) : Chunk where
  bytes := sendto m (queryLine m sendline idx)
  pos := by
    rw [queryLine_eq, sendto_store m sendline (isFrame_queryFrame idx)]
    exact (by decide : 0 < 5)
  le := by
    rw [queryLine_eq, sendto_store m sendline (isFrame_queryFrame idx)]
    exact (by decide : 5 ≤ 300)

/-- `setnewip` on an address change: the address is set unless it is there already. -/
theorem setnewip_changeFrame (m : Machine) (e : Eth0) (s : Server) (b : Buf) (x y : Ipv4) :
    ((setnewip m ⟨true, true⟩ (getipEth0 m e s)
      (b.store 0 (changeFrame x.bytes y.bytes))).2.ran.drop s.ran.length).foldl (runScript m) e =
        ⟨x.sAddr m, y.sAddr m⟩ := by
  have byte : ∀ k < 13, b.store 0 (changeFrame x.bytes y.bytes) k =
      (changeFrame x.bytes y.bytes).getD k 0 := fun k hk => store_zero hk
  have h0 : m.lowByte (b.store 0 (changeFrame x.bytes y.bytes) 0) = 0x51 := by
    rw [byte 0 (by omega)]
    exact (lowByte_eq_lit m _ (by decide)).2 rfl
  have hip : (b.store 0 (changeFrame x.bytes y.bytes)).loadInt m 4 = x.sAddr m := by
    simp only [Buf.loadInt, byte, Nat.reduceLT, Nat.reduceAdd]
    rfl
  have hmask : (b.store 0 (changeFrame x.bytes y.bytes)).loadInt m 8 = y.sAddr m := by
    simp only [Buf.loadInt, byte, Nat.reduceLT, Nat.reduceAdd]
    rfl
  unfold setnewip
  rw [if_neg (not_not_intro h0), hip, hmask, getipEth0_gip, getipEth0_gipmask]
  dsimp only
  rw [Ipv4.inetNtoa_sAddr, Ipv4.inetNtoa_sAddr]
  by_cases hnew : x.sAddr m ≠ e.ip ∨ y.sAddr m ≠ e.mask
  · obtain ⟨script, hran, hscript⟩ := mySaveBAT_ran m e (getipEth0 m e s) x y
    rw [if_pos hnew]
    dsimp only
    rw [hran, show (getipEth0 m e s).ran = s.ran from rfl, List.drop_left, List.foldl_cons,
      List.foldl_nil, hscript]
  · -- Nothing is run, and `eth0` has the address already.
    obtain ⟨hx, hy⟩ : x.sAddr m = e.ip ∧ y.sAddr m = e.mask := by simpa using hnew
    rw [if_neg hnew]
    dsimp only
    rw [show (getipEth0 m e s).ran = s.ran from rfl, List.drop_length, List.foldl_nil, hx, hy]

/-- **An address change sets the address the message carries.** -/
theorem read_changeFrame (m : Machine) {d : Device} (hrun : d.child.running = true) {chunk : Chunk}
    {x y : Ipv4} (hchunk : chunk.bytes = changeFrame x.bytes y.bytes) :
    (d.read m chunk).eth0 = ⟨x.sAddr m, y.sAddr m⟩ ∧ (d.read m chunk).child.running = true := by
  obtain ⟨bytes, hpos, hle⟩ := chunk
  obtain rfl : bytes = changeFrame x.bytes y.bytes := hchunk
  have hframe : IsFrame (changeFrame x.bytes y.bytes) := isFrame_changeFrame rfl rfl
  have hok := crcOk_of_isFrame m d.child.buf [] hframe
  rw [List.append_nil] at hok
  have h0 : m.lowByte (d.child.buf.store 0 (changeFrame x.bytes y.bytes) 0) = 0x51 := by
    rw [store_zero (by exact hpos)]
    exact (lowByte_eq_lit m _ (by decide)).2 rfl
  have h50 : ¬ m.lowByte (d.child.buf.store 0 (changeFrame x.bytes y.bytes) 0) = 0x50 := by
    rw [h0]
    decide
  have ht := tcp2send_accepted (show (0 : Int) < (changeFrame x.bytes y.bytes).length by
    exact_mod_cast hpos) hok d.eth0 d.child.srv d.child.outbuf d.child.poutlen
  rw [if_neg h50, if_pos h0, tcp51_eq] at ht
  have hturn : clientTurn m ⟨d.eth0, ⟨true, true⟩, fun _ => true⟩ d.child
      (.data ⟨changeFrame x.bytes y.bytes, hpos, hle⟩) = _ := if_neg (by simp [hrun])
  dsimp only at hturn
  rw [ht, answer, if_neg (show ¬ (0x51 : Int) = 0 by decide),
    if_neg (show ¬ (0x51 : Int) = 9 by decide), if_pos rfl] at hturn
  have hset := setnewip_changeFrame m d.eth0 d.child.srv d.child.buf x y
  unfold Device.read
  rw [hturn]
  exact ⟨hset, hrun⟩

/-- The address `tcpc.c` has set: the one its `htonl` has made of the one it was given. -/
theorem read_changeChunk (mc ms : Machine) {d : Device} (hrun : d.child.running = true)
    (sendline : Buf) (ip mask : Ipv4) :
    (d.read ms (changeChunk mc sendline ip mask)).eth0 =
        ⟨(ip.hton mc).sAddr ms, (mask.hton mc).sAddr ms⟩ ∧
      (d.read ms (changeChunk mc sendline ip mask)).child.running = true := by
  have hchunk : (changeChunk mc sendline ip mask).bytes =
      changeFrame (ip.hton mc).bytes (mask.hton mc).bytes := sendto_changeLine mc sendline ip mask
  exact read_changeFrame ms hrun hchunk

theorem chunk_ext {c c' : Chunk} (h : c.bytes = c'.bytes) : c = c' := by
  obtain ⟨bytes, hpos, hle⟩ := c
  obtain ⟨bytes', hpos', hle'⟩ := c'
  obtain rfl : bytes = bytes' := h
  rfl

/-- The query of a client, as the server takes it. -/
def queryRequest (idx : Byte) : Request where
  bytes := queryFrame idx
  isFrame := isFrame_queryFrame idx
  type := rfl

/-- **A query for the address is answered with the one `eth0` has.** -/
theorem read_query (mc ms : Machine) (sendline : Buf) {d : Device}
    (hrun : d.child.running = true) :
    (d.read ms (queryChunk mc sendline 0x00)).child.sent =
      d.child.sent ++ [addrFrame ms d.eth0] := by
  have hchunk : queryChunk mc sendline 0x00 = (queryRequest 0x00).only.chunk := by
    apply chunk_ext
    show sendto mc (queryLine mc sendline 0x00) = queryFrame 0x00 ++ []
    rw [queryLine_eq, sendto_store mc sendline (isFrame_queryFrame _), List.append_nil]
  have hsend : ∀ i, (⟨d.eth0, ⟨true, true⟩, fun _ => true⟩ : TurnEnv).sendOk i = true :=
    fun _ => rfl
  have h := (clientTurn_request ms hsend hrun (queryRequest 0x00).only).1
  have h0 : ms.lowByte 0x00 = 0 := (lowByte_eq_lit ms 0x00 (by decide)).2 rfl
  have hff : ¬ ms.lowByte 0x00 = 0xff := by
    rw [h0]
    decide
  have hans : answers ms d.eth0 d.child.srv.gportStat 0x00 = [addrFrame ms d.eth0] := by
    rw [answers, if_neg hff, singleReply, if_pos h0]
    rfl
  rw [hchunk]
  exact h.trans (congrArg _ hans)

/-- The address and mask in a reply lie in it as they are written. -/
theorem loadInt_addrFrame (mc ms : Machine) (recvline : Buf) (x y : Ipv4) :
    let reply := recvline.store 0 (addrFrame ms ⟨x.sAddr ms, y.sAddr ms⟩)
    reply.loadInt mc 3 = x.sAddr mc ∧ reply.loadInt mc 7 = y.sAddr mc := by
  intro reply
  have hframe : addrFrame ms ⟨x.sAddr ms, y.sAddr ms⟩ =
      withCheck ([0xa0, 0x00, 8] ++ (x.bytes ++ y.bytes)) := by
    rw [addrFrame, Ipv4.bytesOf_sAddr, Ipv4.bytesOf_sAddr]
  have byte : ∀ k < 12,
      reply k = (withCheck ([0xa0, 0x00, 8] ++ (x.bytes ++ y.bytes))).getD k 0 := by
    intro k hk
    rw [← hframe]
    exact store_zero (by rw [addrFrame_length]; exact hk)
  constructor
  · simp only [Buf.loadInt, byte, Nat.reduceLT, Nat.reduceAdd]
    rfl
  · simp only [Buf.loadInt, byte, Nat.reduceLT, Nat.reduceAdd]
    rfl

/-! ### Changing the address -/

/-- What it takes for an address change to have worked: the device (machine `ms`, in state `d`
before) has the new address, and the reply to a query for it says so to every client on the
machine `mc` that asked for the change. -/
structure Changed (mc ms : Machine) (d : Device) (sendline sendline' recvline : Buf)
    (ip mask : Ipv4) : Prop where
  configured : (d.read ms (changeChunk mc sendline ip mask)).eth0 =
    ⟨ip.sAddr ms, mask.sAddr ms⟩
  shown : ∃ reply, (((d.read ms (changeChunk mc sendline ip mask)).read ms
      (queryChunk mc sendline' 0x00)).child.sent =
        (d.read ms (changeChunk mc sendline ip mask)).child.sent ++ [reply]) ∧
    tcpcAddr mc (recvline.store 0 reply) = (ip.sAddr mc, mask.sAddr mc) ∧
    tcpcIpAddr mc (recvline.store 0 reply) = (ip.sAddr mc, mask.sAddr mc) ∧
    tcpcGetipAddr mc (recvline.store 0 reply) = (ip.sAddr mc, mask.sAddr mc)

/-- **An address change works** exactly when the client is big-endian, or the address and the
mask read the same from both ends. The byte order of the server does not matter. -/
theorem changed_iff (mc ms : Machine) (d : Device) (hrun : d.child.running = true)
    (sendline sendline' recvline : Buf) (ip mask : Ipv4) :
    Changed mc ms d sendline sendline' recvline ip mask ↔
      mc.order = .big ∨ (ip.reverse = ip ∧ mask.reverse = mask) := by
  obtain ⟨heth, hrun'⟩ := read_changeChunk mc ms hrun sendline ip mask
  have hboth : (mc.order = .big ∨ (ip.reverse = ip ∧ mask.reverse = mask)) ↔
      ip.hton mc = ip ∧ mask.hton mc = mask := by
    rw [Ipv4.hton_eq_self_iff, Ipv4.hton_eq_self_iff]
    tauto
  rw [hboth]
  constructor
  · rintro ⟨hconf, -⟩
    rw [heth, Eth0.mk.injEq] at hconf
    exact ⟨Ipv4.sAddr_inj hconf.1, Ipv4.sAddr_inj hconf.2⟩
  · rintro ⟨hip, hmask⟩
    have hreply := read_query mc ms sendline' hrun'
    rw [hip, hmask] at heth
    rw [heth] at hreply
    obtain ⟨hrip, hrmask⟩ := loadInt_addrFrame mc ms recvline ip mask
    refine ⟨heth, _, hreply, ?_, ?_, ?_⟩
    · rw [tcpcAddr, hrip, hrmask, Ipv4.ntohl_sAddr, Ipv4.ntohl_sAddr, hip, hmask]
    · rw [tcpcIpAddr, hrip, hrmask]
    · rw [tcpcGetipAddr, hrip, hrmask]

/-- The address change of `tcpc.c`, sent by a PC. -/
theorem changed_iff_pc :
    let pc : Machine := ⟨.little, .signed⟩
    let board : Machine := ⟨.big, .unsigned⟩
    let d : Device := ⟨⟨0xc0a80218, 0xffffff00⟩, freshChild⟩
    Changed pc board d (Buf.ofList []) (Buf.ofList []) (Buf.ofList []) ⟨10, 11, 12, 13⟩
        ⟨255, 0, 0, 0⟩ ↔
      pc.order = .big ∨
        ((⟨10, 11, 12, 13⟩ : Ipv4).reverse = ⟨10, 11, 12, 13⟩ ∧
          (⟨255, 0, 0, 0⟩ : Ipv4).reverse = ⟨255, 0, 0, 0⟩) :=
  changed_iff _ _ _ rfl _ _ _ _ _

/-- Sent by a PC, it sets 13.12.11.10. -/
theorem not_changed :
    ¬ ∀ (mc ms : Machine) (d : Device), d.child.running = true →
      ∀ (sendline sendline' recvline : Buf) (ip mask : Ipv4),
        Changed mc ms d sendline sendline' recvline ip mask := by
  intro h
  let pc : Machine := ⟨.little, .signed⟩
  let board : Machine := ⟨.big, .unsigned⟩
  let d : Device := ⟨⟨0xc0a80218, 0xffffff00⟩, freshChild⟩
  have hpc := h pc board d rfl (Buf.ofList []) (Buf.ofList []) (Buf.ofList []) ⟨10, 11, 12, 13⟩
    ⟨255, 0, 0, 0⟩
  have hrun : d.child.running = true := rfl
  obtain ⟨heth, -⟩ := read_changeChunk pc board hrun (Buf.ofList []) ⟨10, 11, 12, 13⟩
    ⟨255, 0, 0, 0⟩
  have hsame := hpc.configured.symm.trans heth
  rw [Eth0.mk.injEq] at hsame
  have hip := Ipv4.sAddr_inj hsame.1
  revert hip
  decide

/-! ### The remote host of a port -/

/-- The address in the record of a port lies in the message as its `htonl` is written. -/
theorem loadInt_portFrame (mc m : Machine) (b : Buf) (idx : Byte) {r : PortStat} {x : Ipv4}
    (hip : r.ip = x.sAddr m) :
    (b.store 0 (portFrame idx r)).loadInt mc 9 = (x.hton m).sAddr mc := by
  have hnet : netBytes r.ip = (x.hton m).bytes := by
    rw [hip, ← Machine.bytesOf_htonl m, Ipv4.bytesOf_htonl_sAddr]
  simp only [Buf.loadInt, Nat.reduceAdd, portFrame, PortStat.payload, hnet]
  rfl

/-- The server keeps the `s_addr` it was sent, on a board of the reporter's byte order. -/
theorem udpRecord_ip (m : Machine) (b : Buf) (idx : Byte) {r : PortStat} {x : Ipv4}
    (hip : r.ip = x.sAddr m) :
    (udpRecord m (b.store 0 (portFrame idx r))).ip = x.sAddr m := by
  show m.ntohl ((b.store 0 (portFrame idx r)).loadInt m 9) = _
  rw [loadInt_portFrame m m b idx hip, Ipv4.ntohl_sAddr, Ipv4.hton_hton]

/-- What a client on the machine `mc` takes for the remote host of port `pname`, after the
reporter has recorded the peer `x`, broadcast the record, the server has read it and has
answered the query `q`. Reporter and server run on one board, `m`. -/
def shownHost (m mc : Machine) (t : PortTable) (s : Server) (pname : PortName) (x : Ipv4)
    (q : Query m (portIndex (portSlot pname))) (e : Eth0) (buf outbuf reply recvline : Buf)
    (outlen : Int) (poutlen : Nat → Int) : Word :=
  let inp := (inetAton m x.text).getD 0
  let d := udpA010 m (mySaveIpRemote t inp pname) pname
  let u := udp2send m s (buf.store 0 d) d.length outbuf outlen
  let r := q.handle e u.srv reply poutlen
  tcpcPortIp mc (recvline.store 0 (r.pout.slice 0 (r.poutlen 0).toNat))

/-- **The remote host comes through** exactly when the client has the byte order of the board,
or the address reads the same from both ends. -/
theorem shownHost_eq_iff (m mc : Machine) (t : PortTable) (s : Server) (pname : PortName)
    (x : Ipv4) (q : Query m (portIndex (portSlot pname))) (e : Eth0)
    (buf outbuf reply recvline : Buf) (outlen : Int) (poutlen : Nat → Int) :
    shownHost m mc t s pname x q e buf outbuf reply recvline outlen poutlen = x.sAddr mc ↔
      m.order = mc.order ∨ x.reverse = x := by
  unfold shownHost
  dsimp only
  rw [Ipv4.inetAton_text, Option.getD_some, udpA010_portFrame]
  generalize hr : mySaveIpRemote t (x.sAddr m) pname (myport2sn pname) = r
  have hip : r.ip = x.sAddr m := by
    rw [← hr, mySaveIpRemote, PortTable.modify_self]
  have hok := crcOk_of_isFrame m buf [] (isFrame_portFrame (portIndex (portSlot pname)) r)
  rw [List.append_nil] at hok
  have hpos : (0 : Int) < (portFrame (portIndex (portSlot pname)) r).length := by
    rw [portFrame_length]
    decide
  have h0 : buf.store 0 (portFrame (portIndex (portSlot pname)) r) 0 = 0xa0 :=
    store_zero (by rw [portFrame_length]; omega)
  have h1 : buf.store 0 (portFrame (portIndex (portSlot pname)) r) 1 = portIndex (portSlot pname) :=
    store_zero (by rw [portFrame_length]; omega)
  -- The server's record of the port has the peer's address.
  have hrec := udpApply_a0 (m := m) h0 s (portSlot pname)
  rw [if_pos h1] at hrec
  have hsrv := udpRecord_ip m buf (portIndex (portSlot pname)) hip
  rw [← hrec] at hsrv
  obtain ⟨-, hlen, hslice⟩ := answeredWith_port q e
    (udpApply m s (buf.store 0 (portFrame (portIndex (portSlot pname)) r))) reply poutlen
  rw [udp2send_accepted hpos hok]
  dsimp only
  rw [hlen, Int.toNat_natCast, hslice, tcpcPortIp, loadInt_portFrame mc m recvline _ hsrv,
    Ipv4.ntohl_sAddr, ← Ipv4.hton_hton_eq_self_iff m mc x]
  exact ⟨Ipv4.sAddr_inj, fun h => congrArg _ h⟩

/-- The query of a client in the receive buffer `b`. -/
def clientQuery (m : Machine) (b : Buf) (idx : Byte) : Query m idx where
  buf := b.store 0 (queryFrame idx)
  len := 5
  pos := by decide
  check := by
    have hok := crcOk_of_isFrame m b [] (isFrame_queryFrame idx)
    rwa [List.append_nil] at hok
  type := (lowByte_eq_lit m _ (by decide)).2 (store_zero (by exact (by decide : 0 < 5)))
  index := store_zero (by exact (by decide : 1 < 5))

/-- A peer 192.168.2.24 of a PowerPC board is 24.2.168.192 on a PC. -/
theorem not_shownHost_eq :
    ¬ ∀ (m mc : Machine) (t : PortTable) (s : Server) (pname : PortName) (x : Ipv4)
      (q : Query m (portIndex (portSlot pname))) (e : Eth0) (buf outbuf reply recvline : Buf)
      (outlen : Int) (poutlen : Nat → Int),
        shownHost m mc t s pname x q e buf outbuf reply recvline outlen poutlen = x.sAddr mc := by
  intro h
  let board : Machine := ⟨.big, .unsigned⟩
  let pc : Machine := ⟨.little, .signed⟩
  let blank : Buf := Buf.ofList []
  have hpc := h board pc (fun _ => Mrs2lib.initRecord) freshChild.srv ['3'] ⟨192, 168, 2, 24⟩
    (clientQuery board blank _) ⟨0, 0⟩ blank blank blank blank 0 fun _ => 0
  rw [shownHost_eq_iff] at hpc
  revert hpc
  decide

end SerialServer.Tcpc
