import SerialServer.Server.Answers

/-!
# SerialServer.Server.Views

The ways a client can look at the table, and that they agree.

A port can be asked for alone (index `0x10 + i`), with the address and all the others (index
`0xff`), or for its status only, in the summary of all eight (index `0x20`), which is also
what a broadcast makes the server push. A bulk reply is the single replies in a row
(`tcp50_bulk`), so the views differ only in what they leave out.
-/

namespace SerialServer.Mrs2s

open Mrs2lib

/-- A query with index `idx` as it lies in the receive buffer, with what `read` returned. -/
structure Query (m : Machine) (idx : Byte) where
  buf : Buf
  len : Int
  pos : 0 < len
  check : crcOk m buf = true
  type : m.lowByte (buf 0) = 0x50
  index : buf 1 = idx

/-- What `tcp2send` makes of a query. -/
def Query.handle {m : Machine} {idx : Byte} (q : Query m idx) (e : Eth0) (s : Server) (pout : Buf)
    (poutlen : Nat → Int) : Tcp :=
  tcp2send m e s q.buf q.len pout poutlen

/-- The query is answered with the one message `f`. -/
def AnsweredWith {m : Machine} {idx : Byte} (q : Query m idx) (e : Eth0) (s : Server)
    (f : List Byte) : Prop :=
  ∀ pout poutlen, (q.handle e s pout poutlen).op = 0 ∧
    (q.handle e s pout poutlen).poutlen 0 = f.length ∧
    (q.handle e s pout poutlen).pout.slice 0 f.length = f

theorem Query.handle_eq {m : Machine} {idx : Byte} (q : Query m idx) (e : Eth0) (s : Server)
    (pout : Buf) (poutlen : Nat → Int) :
    q.handle e s pout poutlen = tcp50 m e s q.buf pout poutlen := by
  rw [handle, tcp2send_accepted q.pos q.check, if_pos q.type]

/-- A query that has a single reply is answered with it. -/
theorem Query.answeredWith {m : Machine} {idx : Byte} (q : Query m idx) (e : Eth0) (s : Server)
    (hidx : ¬ m.lowByte idx = 0xff) {f : List Byte}
    (hf : singleReply m e s.gportStat idx = some f) : AnsweredWith q e s f := by
  intro pout poutlen
  have hsingle := tcp50Single_eq m e s q.buf pout 0 poutlen 0
  rw [q.index, hf] at hsingle
  rw [q.handle_eq, tcp50, q.index, if_neg hidx, hsingle]
  exact ⟨rfl, Function.update_self 0 (f.length : Int) poutlen, Buf.slice_store pout 0 f⟩

/-! ### Single queries -/

theorem answeredWith_addr {m : Machine} (q : Query m 0x00) (e : Eth0) (s : Server) :
    AnsweredWith q e s (addrFrame m e) := by
  have h0 : m.lowByte 0x00 = 0 := (lowByte_eq_lit m 0x00 (by decide)).2 rfl
  have hff : ¬ m.lowByte 0x00 = 0xff := by
    rw [h0]
    decide
  exact q.answeredWith e s hff (if_pos h0)

theorem answeredWith_port {m : Machine} {i : Fin 8} (q : Query m (portIndex i)) (e : Eth0)
    (s : Server) : AnsweredWith q e s (portFrame (portIndex i) (s.gportStat i)) := by
  have h0 : ¬ m.lowByte (portIndex i) = 0 := lowByte_portIndex_ne m i (.inl (by decide))
  have hff : ¬ m.lowByte (portIndex i) = 0xff := lowByte_portIndex_ne m i (.inr (by decide))
  refine q.answeredWith e s hff ?_
  rw [singleReply, if_neg h0, if_pos (isPortIndex_portIndex m i), slotBits_portIndex]

theorem answeredWith_stats {m : Machine} (q : Query m 0x20) (e : Eth0) (s : Server) :
    AnsweredWith q e s (statFrame 0xa0 fun i => (s.gportStat i).stat) := by
  have h20 : m.lowByte 0x20 = 0x20 := (lowByte_eq_lit m 0x20 (by decide)).2 rfl
  have hp : ¬ isPortIndex m 0x20 = true := by
    rw [isPortIndex, h20]
    decide
  have hne : ∀ w : Word, (0x20 : Word) ≠ w → ¬ m.lowByte 0x20 = w := by
    intro w hw
    rwa [h20]
  refine q.answeredWith e s (hne _ (by decide)) ?_
  rw [singleReply, if_neg (hne _ (by decide)), if_neg hp, if_pos h20]

/-- **A query changes no record**, whatever it asks for. -/
theorem Query.handle_gportStat {m : Machine} {idx : Byte} (q : Query m idx) (e : Eth0) (s : Server)
    (pout : Buf) (poutlen : Nat → Int) :
    (q.handle e s pout poutlen).srv.gportStat = s.gportStat := by
  rw [q.handle_eq]
  by_cases hff : m.lowByte (q.buf 1) = 0xff
  · have hbulk := tcp50_bulk m e s hff pout poutlen
    simp only [Tcp.result, Prod.mk.injEq] at hbulk
    obtain ⟨-, -, -, hsrv⟩ := hbulk
    rw [hsrv, getipEth0_gportStat]
  · rw [tcp50, if_neg hff, tcp50Single_eq]
    cases singleReply m e s.gportStat (q.buf 1) with
    | none => rfl
    | some f => exact afterSingle_gportStat m e s (q.buf 1)

/-! ### Agreement -/

/-- The messages of a bulk reply, from the single ones. -/
theorem bulkFrames_eq (m : Machine) (e : Eth0) (t : Fin 8 → PortStat) :
    bulkFrames m e t 8 =
      addrFrame m e :: List.ofFn fun i => portFrame (portIndex i) (t i) := by
  rw [bulkFrames, List.take_of_length_le (by simp), List.ofFn_eq_map]

/-- How the views of the table hang together, `a` being the reply to index 0, `p i` the one to
index `0x10 + i` and `t` the one to index `0x20`. -/
structure ViewsAgree (m : Machine) (e : Eth0) (s : Server) (a : List Byte)
    (p : Fin 8 → List Byte) (t : List Byte) : Prop where
  addr : ∀ q : Query m 0x00, AnsweredWith q e s a
  port : ∀ i, ∀ q : Query m (portIndex i), AnsweredWith q e s (p i)
  stats : ∀ q : Query m 0x20, AnsweredWith q e s t
  isFrame : ∀ f ∈ t :: a :: List.ofFn p, IsFrame f
  /-- A bulk query is told from the others by its result. -/
  op : ∀ (q : Query m 0xff) pout poutlen, (q.handle e s pout poutlen).op = 9
  /-- It is answered with the single replies in a row, and nothing behind them is written. -/
  bulk : ∀ (q : Query m 0xff) pout poutlen,
    (q.handle e s pout poutlen).pout = pout.store 0 (a :: List.ofFn p).flatten
  /-- The lengths divide what has been written. -/
  lens : ∀ (q : Query m 0xff) pout poutlen i f, (a :: List.ofFn p)[i]? = some f →
    (q.handle e s pout poutlen).poutlen i = f.length
  /-- `outbuf` has room for it. -/
  total : (a :: List.ofFn p).flatten.length = 124
  /-- The loop that sends it finds the nine messages again. -/
  sends : ∀ (q : Query m 0xff) pout poutlen, sendBulk (fun _ => true)
    (q.handle e s pout poutlen).pout (q.handle e s pout poutlen).poutlen 0 (List.range 9) =
      (a :: List.ofFn p, true)
  /-- The status of a port is the same on its own and in the summary. -/
  stat : ∀ i : Fin 8, (p i).getD 3 0 = t.getD (3 + i) 0
  /-- The summary a broadcast makes the server push shows it too. -/
  pushed : ∀ s₀ (d : Buf) (len : Int) outbuf outlen, 0 < len → crcOk m d = true →
    (udp2send m s₀ d len outbuf outlen).srv = s →
      ∀ i : Fin 8, (udp2send m s₀ d len outbuf outlen).pout (3 + i) = (p i).getD 3 0
  /-- Looking changes nothing. -/
  unchanged : ∀ idx, ∀ q : Query m idx, ∀ pout poutlen,
    (q.handle e s pout poutlen).srv.gportStat = s.gportStat

theorem Query.handle_bulk {m : Machine} (q : Query m 0xff) (e : Eth0) (s : Server) (pout : Buf)
    (poutlen : Nat → Int) :
    (q.handle e s pout poutlen).result =
      (9, pout.store 0 (bulkFrames m e s.gportStat 8).flatten,
        putLens (bulkFrames m e s.gportStat 8) poutlen, getipEth0 m e s) := by
  have hff : m.lowByte (q.buf 1) = 0xff := by
    rw [q.index]
    exact (lowByte_eq_lit m 0xff (by decide)).2 rfl
  rw [q.handle_eq, tcp50_bulk m e s hff]

/-- **The views of the table agree**, in every state and whatever the buffers hold. -/
theorem views_agree (m : Machine) (e : Eth0) (s : Server) :
    ∃ a p t, ViewsAgree m e s a p t := by
  refine ⟨addrFrame m e, fun i => portFrame (portIndex i) (s.gportStat i),
    statFrame 0xa0 fun i => (s.gportStat i).stat, ?_⟩
  have hframes := bulkFrames_eq m e s.gportStat
  have hstat : ∀ i : Fin 8, (portFrame (portIndex i) (s.gportStat i)).getD 3 0 =
      chr (s.gportStat i).stat := fun i => rfl
  refine ⟨fun q => answeredWith_addr q e s, fun i q => answeredWith_port q e s,
    fun q => answeredWith_stats q e s, ?_, ?_, ?_, ?_, ?_, ?_, ?_, ?_, ?_⟩
  · intro f hf
    simp only [List.mem_cons, List.mem_ofFn] at hf
    obtain rfl | rfl | ⟨i, rfl⟩ := hf
    · exact isFrame_statFrame _ _
    · exact isFrame_addrFrame m e
    · exact isFrame_portFrame _ _
  · intro q pout poutlen
    exact congrArg (fun r => r.1) (q.handle_bulk e s pout poutlen)
  · intro q pout poutlen
    rw [← hframes]
    exact congrArg (fun r => r.2.1) (q.handle_bulk e s pout poutlen)
  · intro q pout poutlen i f hf
    have hlens : (q.handle e s pout poutlen).poutlen =
        putLens (bulkFrames m e s.gportStat 8) poutlen :=
      congrArg (fun r => r.2.2.1) (q.handle_bulk e s pout poutlen)
    rw [hlens, putLens, hframes, hf]
    rfl
  · rw [← hframes]
    simp [bulkFrames]
  · intro q pout poutlen
    have hbulk := q.handle_bulk e s pout poutlen
    simp only [Tcp.result, Prod.mk.injEq] at hbulk
    obtain ⟨-, hpout, hlens, -⟩ := hbulk
    rw [hpout, hlens, ← hframes]
    exact sendBulk_putLens (fun _ => rfl) pout poutlen _
  · intro i
    rw [hstat, statFrame_getD]
  · intro s₀ d len outbuf outlen hlen hcrc hs i
    rw [udp2send_accepted hlen hcrc] at hs ⊢
    rw [hstat, ← hs]
    show outbuf.store 0 (summary (udpApply m s₀ d)) (3 + i) = _
    rw [store_zero (by rw [summary, statFrame_length]; omega), summary, statFrame_getD]
  · intro idx q pout poutlen
    exact q.handle_gportStat e s pout poutlen

end SerialServer.Mrs2s
