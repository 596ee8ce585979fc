import Mathlib.Tactic.FinCases
import SerialServer.Wire.Frame

/-!
# SerialServer.Wire.PortStat

`struct port_stat`, the record both programs keep for each of the eight serial
ports, and the two messages that carry it.

`portFrame` is the full record of one port (type `0xa0`, index `0x10 + sn`) and
`statFrame` the `stat` fields of all eight (type `0xaf` on the broadcast, `0xa0` in
a reply, index `0x20`). They are stated as byte lists; the builders of either
program are shown to produce them where they are modelled.

The fields are `int`s and travel as one byte each, so a record comes back whole
only when they are below 256 (`PortStat.InBytes`, `PortStat.decode_payload`).
-/

namespace SerialServer

/-- An `int` stored in a `char`. -/
def chr (w : Word) : Byte := w.setWidth 8

/-- `struct port_stat`. -/
structure PortStat where
  stat : Word
  baud : Word
  bits : Word
  parity : Word
  stop : Word
  flowctrl : Word
  /-- The remote host, as an `s_addr`. -/
  ip : Word
  deriving Repr, DecidableEq

namespace PortStat

/-- The ten payload bytes of a port record. -/
def payload (r : PortStat) : List Byte :=
  [chr r.stat, chr r.baud, chr r.bits, chr r.parity, chr r.stop, chr r.flowctrl] ++ netBytes r.ip

/-- The record ten payload bytes stand for. -/
def decode (c : Fin 6 → Byte) (b₀ b₁ b₂ b₃ : Byte) : PortStat where
  stat := (c 0).setWidth 32
  baud := (c 1).setWidth 32
  bits := (c 2).setWidth 32
  parity := (c 3).setWidth 32
  stop := (c 4).setWidth 32
  flowctrl := (c 5).setWidth 32
  ip := ofNetBytes b₀ b₁ b₂ b₃

/-- Every field that travels as one byte fits in it. -/
structure InBytes (r : PortStat) : Prop where
  stat : r.stat.toNat < 256
  baud : r.baud.toNat < 256
  bits : r.bits.toNat < 256
  parity : r.parity.toNat < 256
  stop : r.stop.toNat < 256
  flowctrl : r.flowctrl.toNat < 256

@[simp] theorem payload_length (r : PortStat) : r.payload.length = 10 := rfl

end PortStat

/-- An `int` below 256 survives a `char`. -/
theorem setWidth_chr {w : Word} (h : w.toNat < 256) : (chr w).setWidth 32 = w := by
  apply BitVec.eq_of_toNat_eq
  simp only [chr, BitVec.toNat_setWidth]
  omega

/-- Decoding the payload of a record whose fields fit in a byte gives it back. -/
theorem PortStat.decode_payload {r : PortStat} (h : r.InBytes) :
    PortStat.decode (fun i => r.payload.getD i 0) (r.payload.getD 6 0) (r.payload.getD 7 0)
      (r.payload.getD 8 0) (r.payload.getD 9 0) = r := by
  obtain ⟨stat, baud, bits, parity, stop, flowctrl, ip⟩ := r
  simp only [decode, payload, netBytes, PortStat.mk.injEq]
  exact ⟨setWidth_chr h.stat, setWidth_chr h.baud, setWidth_chr h.bits, setWidth_chr h.parity,
    setWidth_chr h.stop, setWidth_chr h.flowctrl, ofNetBytes_extract ip⟩

/-! ### The two messages -/

/-- The record of one port: type `0xa0`, index `idx`. -/
def portFrame (idx : Byte) (r : PortStat) : List Byte :=
  withCheck ([0xa0, idx, 0x0a] ++ r.payload)

/-- The `stat` fields of eight ports, under type `type` and index `0x20`. -/
def statFrame (type : Byte) (stat : Fin 8 → Word) : List Byte :=
  withCheck ([type, 0x20, 8] ++ List.ofFn fun i => chr (stat i))

@[simp] theorem portFrame_length (idx : Byte) (r : PortStat) :
    (portFrame idx r).length = 14 := rfl

@[simp] theorem statFrame_length (type : Byte) (stat : Fin 8 → Word) :
    (statFrame type stat).length = 12 := by
  simp [statFrame]

theorem isFrame_portFrame (idx : Byte) (r : PortStat) : IsFrame (portFrame idx r) :=
  isFrame_withCheck rfl

theorem isFrame_statFrame (type : Byte) (stat : Fin 8 → Word) : IsFrame (statFrame type stat) :=
  isFrame_withCheck (by simp)

/-- Byte `3 + i` of the second message is the `stat` field of port `i`. -/
theorem statFrame_getD (type : Byte) (stat : Fin 8 → Word) (i : Fin 8) :
    (statFrame type stat).getD (3 + i) 0 = chr (stat i) := by
  fin_cases i <;> rfl

/-! ### What a builder stores -/

/-- The stores of a builder of the first message, as one message. -/
theorem store_portFrame (m : Machine) (idx : Byte) (r : PortStat) (pout : Buf) (p : Nat) :
    (((pout.store p [0xa0, idx, 0x0a]).store (p + 3) [chr r.stat, chr r.baud, chr r.bits,
        chr r.parity, chr r.stop, chr r.flowctrl]).store (p + 9)
        (m.bytesOf (m.htonl r.ip))).store (p + 13) [chr (complementSum m
          ((((pout.store p [0xa0, idx, 0x0a]).store (p + 3) [chr r.stat, chr r.baud, chr r.bits,
            chr r.parity, chr r.stop, chr r.flowctrl]).store (p + 9)
            (m.bytesOf (m.htonl r.ip))).offset p))] =
      pout.store p (portFrame idx r) := by
  have hw := Buf.store_store (pout.store p [0xa0, idx, 0x0a]) (p + 3) [chr r.stat, chr r.baud,
    chr r.bits, chr r.parity, chr r.stop, chr r.flowctrl] (netBytes r.ip)
  have hb := store_frame m pout p [0xa0, idx, 0x0a] r.payload rfl rfl
  rw [Machine.bytesOf_htonl]
  refine Eq.trans ?_ hb
  rw [show r.payload = [chr r.stat, chr r.baud, chr r.bits, chr r.parity, chr r.stop,
    chr r.flowctrl] ++ netBytes r.ip from rfl, ← hw]
  rfl

/-- The stores of a builder of the second message, as one message. -/
theorem store_statFrame (m : Machine) (type : Byte) (stat : Fin 8 → Word) (pout : Buf) (p : Nat) :
    ((pout.store p [type, 0x20, 8]).store (p + 3) (List.ofFn fun i => chr (stat i))).store
        (p + 11) [chr (complementSum m (((pout.store p [type, 0x20, 8]).store (p + 3)
          (List.ofFn fun i => chr (stat i))).offset p))] =
      pout.store p (statFrame type stat) :=
  store_frame m pout p [type, 0x20, 8] (List.ofFn fun i => chr (stat i)) rfl
    (by rw [List.length_ofFn]; rfl)

end SerialServer
