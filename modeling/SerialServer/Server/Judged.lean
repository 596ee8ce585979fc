import SerialServer.Server.Received

/-!
# SerialServer.Server.Judged

When a message is judged on the bytes that were received.

`JudgedOnReceived` is the contract: nothing that earlier messages left behind in the
receive buffer has an influence, a message that is not there in full is refused, and
the decoders stay inside the payload. It is stated once for a message handler that is
known by what it reads (`ReadsFields`), and `judged_iff` says which messages the
contract holds for: those that are complete and, if they are intact, carry at least the
fields of their type. `udp2send` and `tcp2send` are two such handlers.

Neither of them compares anything with the number of bytes received, so truncated
messages and messages whose length byte is too small for their type break the contract.
-/

namespace SerialServer.Mrs2lib

open Buf

variable {ρ δ : Type*}

/-- **Messages are judged only on bytes that were received.** `handle` gives the result
of a handler and the globals it leaves, `decode` what its decoder makes of a buffer,
`fields b` the number of payload bytes that decoder reads. -/
structure JudgedOnReceived (m : Machine) (handle : Buf → ρ × Server) (decode : Buf → δ)
    (fields : Buf → Nat) (s : Server) (d : List Byte) : Prop where
  /-- Buffers that have received the same bytes are treated alike. -/
  same : ∀ b b', Receives d b → Receives d b' → handle b = handle b'
  /-- Only complete messages are accepted. -/
  complete : ∀ b, Receives d b → crcOk m b = true →
    4 ≤ d.length ∧ (b 2).toNat + 4 ≤ d.length
  /-- The decoder reads payload bytes only. -/
  payload : ∀ b b', Receives d b → crcOk m b = true → Agree ((b 2).toNat + 3) b b' →
    decode b = decode b'
  /-- A message too short for the fields of its type changes nothing. -/
  short : ∀ b, Receives d b → (b 2).toNat < fields b ∨ d.length < 3 + fields b →
    (handle b).2 = s

/-- A message is there in full, and has room for the fields of its type if it is intact. -/
structure WellSized (fields : Buf → Nat) (d : List Byte) : Prop where
  head : 4 ≤ d.length
  whole : (d.getD 2 0).toNat + 4 ≤ d.length
  room : (d.take ((d.getD 2 0).toNat + 4)).sum = 0xff →
    fields (ofList d) ≤ (d.getD 2 0).toNat

/-- What a handler reads: the head, whatever the acceptance test reads, and for an
accepted message the first `fields b` payload bytes, each of which counts. -/
structure ReadsFields (m : Machine) (handle : Buf → ρ × Server) (decode : Buf → δ)
    (fields : Buf → Nat) (s : Server) : Prop where
  fields_head : ∀ {b b'}, Agree 2 b b' → fields b = fields b'
  handle_congr : ∀ {b b'}, crcOk m b = crcOk m b' →
    (crcOk m b = true → Agree (3 + fields b) b b') → handle b = handle b'
  handle_reject : ∀ {b}, crcOk m b = false → (handle b).2 = s
  decode_congr : ∀ {b b'}, Agree (3 + fields b) b b' → decode b = decode b'
  decode_last : ∀ {b b'}, 0 < fields b → Agree (2 + fields b) b b' →
    b (2 + fields b) ≠ b' (2 + fields b) → decode b ≠ decode b'

/-- The acceptance test on a message that was received in full. -/
theorem crcOk_received {m : Machine} {d : List Byte} {b : Buf} (h : Receives d b)
    (h4 : 4 ≤ d.length) (hn : (d.getD 2 0).toNat + 4 ≤ d.length) :
    crcOk m b = true ↔ (d.take ((d.getD 2 0).toNat + 4)).sum = 0xff := by
  rw [crcOk_iff, h.getD (by omega), h.slice hn]

theorem judged_of_wellSized {m : Machine} {handle : Buf → ρ × Server} {decode : Buf → δ}
    {fields : Buf → Nat} {s : Server} (hr : ReadsFields m handle decode fields s)
    {d : List Byte} (hd : WellSized fields d) :
    JudgedOnReceived m handle decode fields s d := by
  obtain ⟨h4, hn, hroom⟩ := hd
  -- An accepted message carries its fields.
  have hfields : ∀ b, Receives d b → crcOk m b = true → fields b ≤ (b 2).toNat := by
    intro b hb hok
    have hag := (hb.agree (receives_ofList d)).mono (show 2 ≤ d.length by omega)
    rw [hr.fields_head hag, hb.getD (by omega)]
    exact hroom ((crcOk_received hb h4 hn).1 hok)
  have htwo : ∀ b, Receives d b → (b 2).toNat + 4 ≤ d.length := by
    intro b hb
    rw [hb.getD (by omega)]
    exact hn
  refine ⟨?_, ?_, ?_, ?_⟩
  · intro b b' hb hb'
    have hag := hb.agree hb'
    refine hr.handle_congr (crcOk_congr m (hag.mono (htwo b hb))) fun hok => ?_
    have := hfields b hb hok
    have := htwo b hb
    exact hag.mono (by omega)
  · intro b hb _
    exact ⟨h4, htwo b hb⟩
  · intro b b' hb hok hag
    have := hfields b hb hok
    exact hr.decode_congr (hag.mono (by omega))
  · intro b hb hshort
    cases hok : crcOk m b with
    | false => exact hr.handle_reject hok
    | true =>
      have := hfields b hb hok
      have := htwo b hb
      omega

theorem wellSized_of_judged {m : Machine} {handle : Buf → ρ × Server} {decode : Buf → δ}
    {fields : Buf → Nat} {s : Server} (hr : ReadsFields m handle decode fields s)
    {d : List Byte} (hj : JudgedOnReceived m handle decode fields s d) :
    WellSized fields d := by
  -- Otherwise leftover bytes complete it.
  have hfull : ¬ (d.length < 4 ∨ d.length < (d.getD 2 0).toNat + 4) := by
    intro hshort
    obtain ⟨b, hb, hok⟩ := exists_completion m hshort
    obtain ⟨h4, hn⟩ := hj.complete b hb hok
    rw [hb.getD (by omega)] at hn
    omega
  have h4 : 4 ≤ d.length := by omega
  have hn : (d.getD 2 0).toNat + 4 ≤ d.length := by omega
  refine ⟨h4, hn, fun hsum => ?_⟩
  have hb := receives_ofList d
  have hok : crcOk m (ofList d) = true := (crcOk_received hb h4 hn).2 hsum
  by_contra hlt
  have hag : Agree (2 + fields (ofList d)) (ofList d) ((ofList d).store (2 + fields (ofList d))
      [ofList d (2 + fields (ofList d)) + 1]) := fun i hi => (store_lt hi).symm
  have h2 : ofList d 2 = d.getD 2 0 := rfl
  have hpay := hj.payload _ _ hb hok (hag.mono (by rw [h2]; omega))
  refine hr.decode_last (by omega) hag ?_ hpay
  have hst : (ofList d).store (2 + fields (ofList d)) [ofList d (2 + fields (ofList d)) + 1]
      (2 + fields (ofList d) + 0) = _ := store_add (by simp)
  rw [Nat.add_zero] at hst
  rw [hst]
  simp

/-- The contract holds exactly for the messages that are well sized. -/
theorem judged_iff {m : Machine} {handle : Buf → ρ × Server} {decode : Buf → δ}
    {fields : Buf → Nat} {s : Server} (hr : ReadsFields m handle decode fields s)
    (d : List Byte) : JudgedOnReceived m handle decode fields s d ↔ WellSized fields d :=
  ⟨wellSized_of_judged hr, judged_of_wellSized hr⟩

/-! ### The two handlers -/

/-- What `udp2send` makes of `inlen` bytes in a buffer. -/
def udpHandle (m : Machine) (s : Server) (inlen : Int) (pout : Buf) (poutlen : Int) (b : Buf) :
    (Int × Buf × Int) × Server :=
  let r := udp2send m s b inlen pout poutlen
  ((r.op, r.pout, r.poutlen), r.srv)

/-- What `tcp2send` makes of `inlen` bytes in a buffer, with the `setnewip` that follows
an address change. -/
def tcpHandle (m : Machine) (e : Eth0) (env : FopenEnv) (s : Server) (inlen : Int) (pout : Buf)
    (poutlen : Nat → Int) (b : Buf) : (Int × Buf × (Nat → Int)) × Server :=
  let r := tcp2send m e s b inlen pout poutlen
  ((r.op, r.pout, r.poutlen), if r.op = 0x51 then (setnewip m env r.srv r.pin).2 else r.srv)

theorem udpHandle_reads (m : Machine) (s : Server) {inlen : Int} (h : 0 < inlen) (pout : Buf)
    (poutlen : Int) :
    ReadsFields m (udpHandle m s inlen pout poutlen) (fun b s => udpApply m s b) (udpFields m)
      s where
  fields_head := by
    intro b b' hag
    simp only [udpFields, hag 0 (by omega), hag 1 (by omega)]
  handle_congr := by
    intro b b' hcrc hag
    cases hok : crcOk m b with
    | false =>
      rw [udpHandle, udpHandle, udp2send_rejected (.inr hok),
        udp2send_rejected (.inr (hcrc.symm.trans hok))]
    | true =>
      rw [udpHandle, udpHandle, udp2send_accepted h hok,
        udp2send_accepted h (hcrc.symm.trans hok), udpApply_congr (hag hok)]
  handle_reject := by
    intro b hok
    rw [udpHandle, udp2send_rejected (.inr hok)]
  decode_congr := fun hag => funext fun s => udpApply_congr hag s
  decode_last := fun hf hag hne heq => udpApply_last hf hag hne s (congrFun heq s)

/-- A request that is not an address change does not get the result of one. -/
theorem tcp50_op_ne (m : Machine) (e : Eth0) (s : Server) (pin pout : Buf)
    (poutlen : Nat → Int) : (tcp50 m e s pin pout poutlen).op ≠ 0x51 := by
  by_cases hff : m.lowByte (pin 1) = 0xff
  · have h := congrArg Prod.fst (tcp50_bulk m e s hff pout poutlen)
    rw [show (tcp50 m e s pin pout poutlen).op = 9 from h]
    decide
  · rw [tcp50, if_neg hff, tcp50Single_eq]
    cases singleReply m e s.gportStat (pin 1) with
    | none => exact (by decide : (-1 : Int) ≠ 0x51)
    | some f => exact (by decide : (0 : Int) ≠ 0x51)

theorem tcpHandle_reads (m : Machine) (e : Eth0) (env : FopenEnv) (s : Server) {inlen : Int}
    (h : 0 < inlen) (pout : Buf) (poutlen : Nat → Int) :
    ReadsFields m (tcpHandle m e env s inlen pout poutlen) (fun b s => setnewip m env s b)
      (tcpFields m) s where
  fields_head := by
    intro b b' hag
    simp only [tcpFields, hag 0 (by omega)]
  handle_congr := by
    intro b b' hcrc hag
    cases hok : crcOk m b with
    | false =>
      rw [tcpHandle, tcpHandle, tcp2send_rejected (.inr hok),
        tcp2send_rejected (.inr (hcrc.symm.trans hok))]
      simp
    | true =>
      have h0 : b 0 = b' 0 := hag hok 0 (by omega)
      have h1 : b 1 = b' 1 := hag hok 1 (by omega)
      rw [tcpHandle, tcpHandle, tcp2send_accepted h hok,
        tcp2send_accepted h (hcrc.symm.trans hok), ← h0]
      by_cases h50 : m.lowByte (b 0) = 0x50
      · have hcong := tcp50_congr (m := m) h1 e s pout poutlen
        simp only [Tcp.result, Prod.mk.injEq] at hcong
        rw [if_pos h50, if_pos h50]
        simp [hcong, tcp50_op_ne]
      rw [if_neg h50, if_neg h50]
      by_cases h51 : m.lowByte (b 0) = 0x51
      · rw [if_pos h51, if_pos h51]
        simp [tcp51_eq, setnewip_congr (hag hok)]
      · rw [if_neg h51, if_neg h51]
        simp
  handle_reject := by
    intro b hok
    rw [tcpHandle, tcp2send_rejected (.inr hok)]
    simp
  decode_congr := fun hag => funext fun s => setnewip_congr hag env s
  decode_last := fun hf hag hne heq => setnewip_last hf hag hne env s (congrFun heq s)

/-- **Which messages are judged only on received bytes**: for both handlers, in every state
of the server, exactly those that are complete and have room for the fields of their type. -/
theorem judged_on_received_iff (m : Machine) (e : Eth0) (env : FopenEnv) (s : Server)
    (pout : Buf) (outlen : Int) (poutlen : Nat → Int) (d : List Byte) (hd : 0 < d.length) :
    (JudgedOnReceived m (udpHandle m s d.length pout outlen) (fun b s => udpApply m s b)
        (udpFields m) s d ↔ WellSized (udpFields m) d) ∧
      (JudgedOnReceived m (tcpHandle m e env s d.length pout poutlen)
        (fun b s => setnewip m env s b) (tcpFields m) s d ↔ WellSized (tcpFields m) d) := by
  have hlen : (0 : Int) < d.length := by omega
  exact ⟨judged_iff (udpHandle_reads m s hlen pout outlen) d,
    judged_iff (tcpHandle_reads m e env s hlen pout poutlen) d⟩

/-- The query of port 3. -/
theorem judged_on_received_query :
    let m : Machine := ⟨.big, .unsigned⟩
    let s : Server := ⟨fun _ => initRecord, 0, 0, [], [], none, none, []⟩
    let d : List Byte := [0x50, 0x13, 0x01, 0x00, 0x9b]
    (JudgedOnReceived m (udpHandle m s d.length (ofList []) 0) (fun b s => udpApply m s b)
        (udpFields m) s d ↔ WellSized (udpFields m) d) ∧
      (JudgedOnReceived m (tcpHandle m ⟨0, 0⟩ ⟨true, true⟩ s d.length (ofList []) fun _ => 0)
        (fun b s => setnewip m ⟨true, true⟩ s b) (tcpFields m) s d ↔
          WellSized (tcpFields m) d) :=
  judged_on_received_iff _ _ _ _ _ _ _ [0x50, 0x13, 0x01, 0x00, 0x9b] (by decide)

/-- Four bytes of a record that ends after them: behind a complete record of the same port
they are accepted, in a fresh buffer they are not. -/
theorem truncated_not_judged :
    let m : Machine := ⟨.big, .unsigned⟩
    let s : Server := ⟨fun _ => initRecord, 0, 0, [], [], none, none, []⟩
    let d : List Byte := [0xa0, 0x13, 0x0a, 0x11]
    ¬ JudgedOnReceived m (udpHandle m s d.length (ofList []) 0) (fun b s => udpApply m s b)
      (udpFields m) s d := by
  intro m s d hj
  have hsame := hj.same ((ofList (portFrame 0x13 ⟨0x11, 5, 3, 0, 1, 0, 0⟩)).store 0 d)
    ((ofList []).store 0 d) (receives_store ..) (receives_store ..)
  have hop := congrArg (fun r => r.1.1) hsame
  revert hop
  decide +kernel

end SerialServer.Mrs2lib
