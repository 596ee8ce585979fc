import SerialServer.Reporter.Report
import SerialServer.Server.Replies

/-!
# SerialServer.Relay

From the reporter's table to a client, through the server.

The reporter encodes a port's record into a broadcast (`udp_a010`), the server
decodes it into its own table (`udp2send`, `udpa0`) and encodes it once more when a
client asks for the port (`tcp50`). The two encoders live in two programs; they
write the same message for the same record, so what the client gets is what was
broadcast, byte for byte.
-/

namespace SerialServer

open Dataxfer Mrs2lib

/-- The two programs number the index bytes of the ports alike. -/
theorem udpA010_portFrame (m : Machine) (t : PortTable) (pname : PortName) :
    udpA010 m t pname = portFrame (portIndex (portSlot pname)) (t (myport2sn pname)) :=
  udpA010_eq m t pname

/-- What it takes for one broadcast of the port named `pname` to have been relayed: the
server has read it into `u`, a client's request has then been answered with `q`. -/
structure Relayed (t : PortTable) (s : Server) (pname : PortName) (d : Datagram) (ms : Machine)
    (u : Udp) (q : Tcp) : Prop where
  /-- The client's request is answered, with a message of 14 bytes. -/
  answered : q.op = 0 ∧ q.poutlen 0 = 14
  /-- The message is the one that was broadcast. -/
  lossless : q.pout.slice 0 14 = d
  /-- The server's table holds the reporter's record in the port's slot. -/
  stored : u.srv.gportStat (portSlot pname) = t (myport2sn pname)
  /-- Every other slot is as it was. -/
  isolated : ∀ i ≠ portSlot pname, u.srv.gportStat i = s.gportStat i
  /-- The summary for the client is ready. -/
  summarised : u.op = 0 ∧ u.poutlen = 12
  /-- It shows the port's new status. -/
  shown : ms.lowByte (u.pout (3 + portSlot pname)) = (t (myport2sn pname)).stat
  /-- It shows the old status of every other port. -/
  kept : ∀ i ≠ portSlot pname, u.pout (3 + i) = chr (s.gportStat i).stat

/-- The bytes of a stored summary. -/
theorem store_summary (pout : Buf) (s : Server) (i : Fin 8) :
    pout.store 0 (summary s) (3 + i) = chr (s.gportStat i).stat := by
  rw [store_zero (by rw [summary, statFrame_length]; omega), summary, statFrame_getD]

/-- **A broadcast record reaches the client unchanged.** Reporter and server may be any
machines, the receive buffer, the reply buffers and the server's table hold anything. -/
theorem relay_lossless (mr ms : Machine) (e : Eth0) (t : PortTable) (s : Server)
    (pname : PortName) (hr : (t (myport2sn pname)).InBytes) (buf outbuf : Buf) (outlen : Int)
    (req : Buf) (reqlen : Int) (hlen : 0 < reqlen) (hcrc : crcOk ms req = true)
    (htype : ms.lowByte (req 0) = 0x50) (hidx : req 1 = portIndex (portSlot pname))
    (reply : Buf) (poutlen : Nat → Int) :
    let d := udpA010 mr t pname
    let u := udp2send ms s (buf.store 0 d) d.length outbuf outlen
    Relayed t s pname d ms u (tcp2send ms e u.srv req reqlen reply poutlen) := by
  intro d u
  have hd : d = portFrame (portIndex (portSlot pname)) (t (myport2sn pname)) :=
    udpA010_portFrame mr t pname
  have hok : crcOk ms (buf.store 0 d) = true := by
    have h := crcOk_of_isFrame ms buf [] (isFrame_portFrame (portIndex (portSlot pname))
      (t (myport2sn pname)))
    rwa [List.append_nil, ← hd] at h
  have hs : (udpApply ms s (buf.store 0 d)).gportStat =
      Function.update s.gportStat (portSlot pname) (t (myport2sn pname)) := by
    rw [hd]
    exact udpApply_portFrame ms s buf _ hr
  have hu : u = ⟨0, outbuf.store 0 (summary (udpApply ms s (buf.store 0 d))), 12,
      udpApply ms s (buf.store 0 d)⟩ :=
    udp2send_accepted (by rw [hd, portFrame_length]; decide) hok s outbuf outlen
  have hstored : u.srv.gportStat (portSlot pname) = t (myport2sn pname) := by
    rw [hu, hs]
    exact Function.update_self ..
  have hkept : ∀ i ≠ portSlot pname, u.srv.gportStat i = s.gportStat i := by
    intro i hi
    rw [hu, hs]
    exact Function.update_of_ne hi ..
  have hout : ∀ i : Fin 8, u.pout (3 + i) = chr (u.srv.gportStat i).stat := by
    intro i
    rw [hu]
    exact store_summary _ _ i
  have hq := tcp2send_accepted hlen hcrc e u.srv reply poutlen
  rw [if_pos htype, tcp50_port ms e u.srv hidx] at hq
  refine ⟨?_, ?_, hstored, hkept, ?_, ?_, ?_⟩
  · rw [hq]
    exact ⟨rfl, Function.update_self 0 14 poutlen⟩
  · rw [hq, hstored, ← hd]
    have h := Buf.slice_store reply 0 d
    rwa [show d.length = 14 by rw [hd, portFrame_length]] at h
  · rw [hu]
    exact ⟨rfl, rfl⟩
  · rw [hout, hstored, Machine.lowByte_eq, setWidth_chr hr.stat]
  · intro i hi
    rw [hout, hkept i hi]

/-- Every slot of the server's table is the slot of some port name. -/
theorem portSlot_surjective (i : Fin 8) : ∃ pname, portSlot pname = i := by
  have h : ∀ i : Fin 8, portSlot (Nat.toDigits 10 (3000 + i)) = i := by decide +kernel
  exact ⟨_, h i⟩

/-- The port named 3003, connected from 192.168.2.24 with 9600 baud, on a PowerPC board. -/
theorem relay_lossless_port3003 :
    let m : Machine := ⟨.big, .unsigned⟩
    let t : PortTable := fun _ => ⟨0x11, 5, 3, 0, 1, 0, 0xc0a80218⟩
    let s : Server := ⟨fun _ => Mrs2lib.initRecord, 0, 0, [], [], none, none, []⟩
    let d := udpA010 m t "3003".toList
    let u := udp2send m s (Buf.store (fun _ => 0) 0 d) d.length (fun _ => 0) 0
    Relayed t s "3003".toList d m u
      (tcp2send m ⟨0, 0⟩ u.srv (Buf.store (fun _ => 0) 0 [0x50, 0x13, 0x01, 0x00, 0x9b]) 5
        (fun _ => 0) fun _ => 0) :=
  relay_lossless ⟨.big, .unsigned⟩ ⟨.big, .unsigned⟩ ⟨0, 0⟩ _ _ "3003".toList
    ⟨by decide, by decide, by decide, by decide, by decide, by decide⟩ _ _ _ _ 5
    (by decide) (by decide +kernel) (by decide +kernel) (by decide +kernel) _ _

end SerialServer
