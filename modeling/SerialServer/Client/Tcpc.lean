import SerialServer.Server.Views

/-!
# SerialServer.Client.Tcpc

The sample clients `tcpc.c`, `tcpc_ip.c` and `tcpc_getip.c`.

A client fills a send buffer with a query or with an address change, sends as many bytes
as the message says, and reads the reply into a receive buffer. An address is an `s_addr`
before it is sent and after a reply has been read. `tcpc.c` puts it through `htonl` and
`ntohl` on the way, the other two copy it as it is.

The texts the clients print, the connection and the second, equal address change of
`tcpc.c` are left out.
-/

namespace SerialServer.Tcpc

open Mrs2lib Mrs2s

/-! ### Sending -/

/-- `crc`, the copy of the clients. -/
def crc (m : Machine) (p : Buf) : Word := complementSum m p

/-- The bytes sent off `sendline`: `sendlen = (0x0ff & sendline[2]) + 4`. -/
def sendto (m : Machine) (sendline : Buf) : List Byte :=
  sendline.slice 0 ((m.lowByte (sendline 2)).toNat + 4)

/-- A query with index `idx`. -/
def queryLine (m : Machine) (sendline : Buf) (idx : Byte) : Buf :=
  let sendline := sendline.store 0 [0x50, idx, 0x01, 0x00]
  sendline.store 4 [chr (crc m sendline)]

/-- The address change of `tcpc.c`, `ip` and `mask` being what `inet_aton` has left in
`gip.s_addr`. -/
def changeLine (m : Machine) (sendline : Buf) (ip mask : Word) : Buf :=
  let sendline := sendline.store 0 [0x51, 0x0, 0x09, 0x00]
  let sendline := sendline.store 4 (m.bytesOf (m.htonl ip))
  let sendline := sendline.store 8 (m.bytesOf (m.htonl mask))
  sendline.store 12 [chr (crc m sendline)]

/-! ### Reading replies -/

/-- The address and mask `tcpc.c` reads out of a reply to index 0. -/
def tcpcAddr (m : Machine) (recvline : Buf) : Word × Word :=
  (m.ntohl (recvline.loadInt m 3), m.ntohl (recvline.loadInt m 7))

/-- The same in `tcpc_ip.c`, which copies through an `int` and once more without. -/
def tcpcIpAddr (m : Machine) (recvline : Buf) : Word × Word :=
  (recvline.loadInt m 3, recvline.loadInt m 7)

/-- The same in `tcpc_getip.c`. -/
def tcpcGetipAddr (m : Machine) (recvline : Buf) : Word × Word :=
  (recvline.loadInt m 3, recvline.loadInt m 7)

/-- The remote host `tcpc.c` reads out of the record of a port. -/
def tcpcPortIp (m : Machine) (recvline : Buf) : Word := m.ntohl (recvline.loadInt m 9)

/-! ### The messages -/

/-- A query. -/
def queryFrame (idx : Byte) : List Byte := withCheck [0x50, idx, 0x01, 0x00]

/-- An address change with the given eight payload bytes. -/
def changeFrame (ip mask : List Byte) : List Byte :=
  withCheck ([0x51, 0x0, 0x09] ++ (0x00 :: (ip ++ mask)))

theorem isFrame_queryFrame (idx : Byte) : IsFrame (queryFrame idx) := isFrame_withCheck rfl

theorem isFrame_changeFrame {ip mask : List Byte} (hi : ip.length = 4) (hm : mask.length = 4) :
    IsFrame (changeFrame ip mask) :=
  isFrame_withCheck (by simp [hi, hm])

/-- What is sent off a buffer that starts with a message is that message. -/
theorem sendto_store (m : Machine) (sendline : Buf) {f : List Byte} (hf : IsFrame f) :
    sendto m (sendline.store 0 f) = f := by
  have h2 : sendline.store 0 f 2 = f.getD 2 0 := store_zero (by have := hf.four_le; omega)
  rw [sendto, Machine.lowByte_toNat, h2, ← hf.1]
  exact Buf.slice_store sendline 0 f

theorem queryLine_eq (m : Machine) (sendline : Buf) (idx : Byte) :
    queryLine m sendline idx = sendline.store 0 (queryFrame idx) := by
  have hb := store_frame m sendline 0 [0x50, idx, 0x01] [0x00] rfl rfl
  have hw := Buf.store_store sendline 0 [0x50, idx, 0x01] [0x00]
  simp only [Nat.zero_add, List.length_cons, List.length_nil, Nat.reduceAdd, List.cons_append,
    List.nil_append, Buf.offset_zero] at hb hw
  rw [hw] at hb
  exact hb

theorem changeLine_eq (m : Machine) (sendline : Buf) (ip mask : Word) :
    changeLine m sendline ip mask =
      sendline.store 0 (changeFrame (m.bytesOf (m.htonl ip)) (m.bytesOf (m.htonl mask))) := by
  generalize hi : m.bytesOf (m.htonl ip) = wi
  generalize hm : m.bytesOf (m.htonl mask) = wm
  have hli : wi.length = 4 := by rw [← hi, Machine.bytesOf_length]
  have hlm : wm.length = 4 := by rw [← hm, Machine.bytesOf_length]
  have hb := store_frame m sendline 0 [0x51, 0x0, 0x09] (0x00 :: (wi ++ wm)) rfl
    (by simp [hli, hlm])
  have hw : ((sendline.store 0 [0x51, 0x0, 0x09, 0x00]).store 4 wi).store 8 wm =
      (sendline.store 0 [0x51, 0x0, 0x09]).store (0 + 3) (0x00 :: (wi ++ wm)) := by
    have h₁ := Buf.store_store sendline 0 [0x51, 0x0, 0x09, 0x00] wi
    have h₂ := Buf.store_store sendline 0 ([0x51, 0x0, 0x09, 0x00] ++ wi) wm
    have h₃ := Buf.store_store sendline 0 [0x51, 0x0, 0x09] (0x00 :: (wi ++ wm))
    simp only [Nat.zero_add, List.length_cons, List.length_nil, hli, Nat.reduceAdd,
      List.cons_append, List.nil_append] at h₁ h₂ h₃
    rw [h₁, h₂, Nat.zero_add, h₃]
  have hl : 3 + (0x00 :: (wi ++ wm) : List Byte).length = 12 := by simp [hli, hlm]
  rw [← hw, Buf.offset_zero, hl] at hb
  rw [changeLine, hi, hm]
  exact hb

end SerialServer.Tcpc
