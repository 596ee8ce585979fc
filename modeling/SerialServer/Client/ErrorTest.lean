import SerialServer.Client.Tcpc

/-!
# SerialServer.Client.ErrorTest

What the checksum catches, and the test `tcpc.c` makes of it.

The two functions that handle messages look at the checksum before anything else, and a
message passes exactly when its bytes sum to `0xff` (`crcOk_iff`). Another value of any byte
but the length byte changes the sum and nothing else the test depends on (`crcOk_update`), so
both functions turn the message down (`checksum_catches`).

The last thing `tcpc.c` sends is a query whose check byte is one too high. It is a message
with one byte changed (`errorLine_eq`).
-/

namespace SerialServer.Mrs2lib

/-- Both functions go on behind the test: a datagram is decoded and a summary made of it, a
request gets to the handler of its type. -/
structure Passes (m : Machine) (p : Buf) (inlen : Int) : Prop where
  udp : ∀ s pout poutlen, udp2send m s p inlen pout poutlen =
    ⟨0, pout.store 0 (summary (udpApply m s p)), 12, udpApply m s p⟩
  tcp : ∀ e s pout poutlen, tcp2send m e s p inlen pout poutlen =
    if m.lowByte (p 0) = 0x50 then tcp50 m e s p pout poutlen
    else if m.lowByte (p 0) = 0x51 then tcp51 m e s p pout poutlen
    else ⟨-1, p, pout, Function.update poutlen 0 0, s⟩

/-- Both functions return -1 with an output length of 0, and leave the globals and the output
buffer as they were. -/
structure Rejects (m : Machine) (p : Buf) (inlen : Int) : Prop where
  udp : ∀ s pout poutlen, udp2send m s p inlen pout poutlen = ⟨-1, pout, 0, s⟩
  tcp : ∀ e s pout poutlen, tcp2send m e s p inlen pout poutlen =
    ⟨-1, p, pout, Function.update poutlen 0 0, s⟩

theorem passes_of_crcOk {m : Machine} {p : Buf} {inlen : Int} (hlen : 0 < inlen)
    (h : crcOk m p = true) : Passes m p inlen :=
  ⟨udp2send_accepted hlen h, tcp2send_accepted hlen h⟩

theorem rejects_of_crcOk {m : Machine} {p : Buf} (h : crcOk m p = false) (inlen : Int) :
    Rejects m p inlen :=
  ⟨udp2send_rejected (.inr h), tcp2send_rejected (.inr h)⟩

/-- **What the checksum catches.** A complete message passes the test of both functions exactly
when its bytes sum to `0xff`, and once one of its bytes other than the length byte has another
value, both functions reject it. -/
theorem checksum_catches (m : Machine) (p : Buf) (inlen : Int)
    (hcomplete : (p 2).toNat + 4 ≤ inlen) :
    (crcOk m p = true ↔ (p.slice 0 ((p 2).toNat + 4)).sum = 0xff) ∧
      ((p.slice 0 ((p 2).toNat + 4)).sum = 0xff → Passes m p inlen) ∧
      ((p.slice 0 ((p 2).toNat + 4)).sum ≠ 0xff → Rejects m p inlen) ∧
      (crcOk m p = true → ∀ i < (p 2).toNat + 4, i ≠ 2 → ∀ c, c ≠ p i →
        Rejects m (Function.update p i c) inlen) := by
  refine ⟨crcOk_iff m p, fun hsum => ?_, fun hsum => ?_, fun hok i hi h2 c hc => ?_⟩
  · exact passes_of_crcOk (by omega) ((crcOk_iff m p).2 hsum)
  · exact rejects_of_crcOk (Bool.eq_false_iff.2 fun hok => hsum ((crcOk_iff m p).1 hok)) inlen
  · exact rejects_of_crcOk (crcOk_update hok hi h2 hc) inlen

/-- An address query of five bytes, in a buffer of zeros. -/
theorem checksum_catches_query :
    let m : Machine := ⟨.big, .signed⟩
    let p := Buf.ofList [0x50, 0x00, 0x01, 0x00, 0xae]
    (p 2).toNat + 4 ≤ (5 : Int) ∧
      (crcOk m p = true ↔ (p.slice 0 ((p 2).toNat + 4)).sum = 0xff) ∧
      ((p.slice 0 ((p 2).toNat + 4)).sum = 0xff → Passes m p 5) ∧
      ((p.slice 0 ((p 2).toNat + 4)).sum ≠ 0xff → Rejects m p 5) ∧
      (crcOk m p = true → ∀ i < (p 2).toNat + 4, i ≠ 2 → ∀ c, c ≠ p i →
        Rejects m (Function.update p i c) 5) :=
  ⟨by decide, checksum_catches _ _ _ (by decide)⟩

end SerialServer.Mrs2lib

namespace SerialServer.Tcpc

open Mrs2lib

/-- The last query of `tcpc.c`: `sendline[4] = crc(sendline) + 0x01`. -/
def errorLine (m : Machine) (sendline : Buf) : Buf :=
  let sendline := sendline.store 0 [0x50, 0x20, 0x01, 0x00]
  sendline.store 4 [chr (crc m sendline + 0x01)]

/-- It is the query with another check byte. -/
theorem errorLine_eq (m : Machine) (sendline : Buf) :
    errorLine m sendline = Function.update (queryLine m sendline 0x20) 4
      (queryLine m sendline 0x20 4 + 1) := by
  have hchr : ∀ w : Word, chr (w + 0x01) = chr w + 1 := fun w =>
    BitVec.setWidth_add _ _ (by omega)
  rw [errorLine, queryLine]
  rw [Buf.store_singleton, Buf.store_singleton, Function.update_self, Function.update_idem, hchr]

/-- **The test comes out as its author expects**: both functions reject the query. -/
theorem errorLine_rejected (m : Machine) (sendline : Buf) (inlen : Int) :
    Rejects m (errorLine m sendline) inlen := by
  have hok : crcOk m (queryLine m sendline 0x20) = true := by
    rw [queryLine_eq]
    simpa using crcOk_of_isFrame m sendline [] (isFrame_queryFrame 0x20)
  have hlen : (queryLine m sendline 0x20 2).toNat = 1 := rfl
  rw [errorLine_eq]
  exact rejects_of_crcOk (crcOk_update hok (by omega) (by decide) (by simp)) inlen

end SerialServer.Tcpc
