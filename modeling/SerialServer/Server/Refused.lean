import SerialServer.Server.Emitted

/-!
# SerialServer.Server.Refused

What becomes of a message no branch of the handlers is meant for.

`udp2send` has three places that refuse a datagram (the checksum, the type, the index),
and each sets the result and the length its caller goes by. Only the first of them
returns; after the others the code that follows the `switch` sets both again, so the
caller forwards a summary for a datagram that was refused (`no_effect_iff`).

`tcp2send` gives its caller a length through a pointer. The branch of `tcp50` for an
unknown index is the only one that does not write it, and then the caller finds there
what the previous request has left (`lengths_defined_iff`).
-/

namespace SerialServer.Mrs2lib

open Mrs2s

/-! ### Datagrams -/

/-- The datagrams the decoders have no branch for. -/
def Unrecognised (m : Machine) (pin : Buf) : Prop :=
  crcOk m pin = false ∨ (pin 0 ≠ 0xa0 ∧ pin 0 ≠ 0xaf) ∨
    (pin 0 = 0xa0 ∧ pin 1 ≠ 0 ∧ isPortIndex m (pin 1) = false) ∨ (pin 0 = 0xaf ∧ pin 1 ≠ 0x20)

/-- The datagram `d`, received by the thread in state `t`, changes no global of `udp2send`,
and its result lets nothing be forwarded. -/
structure NoEffect (m : Machine) (connected : Bool) (t : UdpThread) (d : List Byte) : Prop where
  gportStat : (udp2send m t.srv (t.buf.store 0 d) d.length t.outbuf t.outlen).srv.gportStat =
    t.srv.gportStat
  gip : (udp2send m t.srv (t.buf.store 0 d) d.length t.outbuf t.outlen).srv.gip = t.srv.gip
  gipmask : (udp2send m t.srv (t.buf.store 0 d) d.length t.outbuf t.outlen).srv.gipmask =
    t.srv.gipmask
  op : (udp2send m t.srv (t.buf.store 0 d) d.length t.outbuf t.outlen).op = -1
  outlen : (udp2send m t.srv (t.buf.store 0 d) d.length t.outbuf t.outlen).poutlen = 0
  sent : (threadUDPr m connected t d).sent = t.sent

/-- Nothing is sent on for a datagram that is refused before the `switch`. -/
theorem threadUDPr_rejected {m : Machine} {t : UdpThread} {d : List Byte}
    (h : d = [] ∨ crcOk m (t.buf.store 0 d) = false) (connected : Bool) :
    (threadUDPr m connected t d).sent = t.sent := by
  unfold threadUDPr
  by_cases hd : (0 : Int) < d.length
  · have hcrc : crcOk m (t.buf.store 0 d) = false := by
      refine h.resolve_left ?_
      rintro rfl
      simp at hd
    rw [if_pos hd]
    dsimp only
    rw [udp2send_rejected (.inr hcrc)]
    cases connected <;> rfl
  · rw [if_neg hd]

/-- A datagram of a type the `switch` knows, but of none of its indices, changes nothing. -/
theorem udpApply_unrecognised {m : Machine} {pin : Buf} (h : Unrecognised m pin)
    (hcrc : crcOk m pin = true) (haf : pin 0 ≠ 0xaf) (s : Server) : udpApply m s pin = s := by
  rcases h with hbad | ⟨ha0, -⟩ | ⟨ha0, h0, hp⟩ | ⟨haf', -⟩
  · rw [hbad] at hcrc
    cases hcrc
  · exact udpApply_other ha0 haf s
  · have hz : ¬ m.lowByte (pin 1) = 0 :=
      fun heq => h0 ((lowByte_eq_lit m (pin 1) (by decide)).1 heq)
    rw [udpApply, if_pos ((lowByte_eq_a0 m _).2 ha0), udpa0, if_neg hz, if_neg (by simp [hp])]
  · exact absurd haf' haf

/-- **An unrecognised datagram is without effect exactly when its checksum is wrong** (or it
has no bytes). Of the others only those of type `0xaf` change a global, but for each of them a
summary is made ready and the result says to send it. -/
theorem no_effect_iff (m : Machine) (connected : Bool) (t : UdpThread) (d : List Byte)
    (h : Unrecognised m (t.buf.store 0 d)) :
    (NoEffect m connected t d ↔ d = [] ∨ crcOk m (t.buf.store 0 d) = false) ∧
      (t.buf.store 0 d 0 ≠ 0xaf →
        (udp2send m t.srv (t.buf.store 0 d) d.length t.outbuf t.outlen).srv = t.srv) := by
  have hreject : d = [] ∨ crcOk m (t.buf.store 0 d) = false →
      (d.length : Int) ≤ 0 ∨ crcOk m (t.buf.store 0 d) = false := by
    rintro (rfl | hcrc)
    · exact .inl (by simp)
    · exact .inr hcrc
  by_cases hrej : d = [] ∨ crcOk m (t.buf.store 0 d) = false
  · have hudp := udp2send_rejected (hreject hrej) t.srv t.outbuf t.outlen
    refine ⟨iff_of_true ?_ hrej, fun _ => by rw [hudp]⟩
    constructor
    · rw [hudp]
    · rw [hudp]
    · rw [hudp]
    · rw [hudp]
    · rw [hudp]
    · exact threadUDPr_rejected hrej connected
  · have hacc : d ≠ [] ∧ crcOk m (t.buf.store 0 d) = true := by simpa using hrej
    have hpos : (0 : Int) < d.length := by
      have := List.length_pos_of_ne_nil hacc.1
      omega
    have hudp := udp2send_accepted hpos hacc.2 t.srv t.outbuf t.outlen
    refine ⟨iff_of_false ?_ hrej, ?_⟩
    · intro hno
      -- The code behind the `switch` has set the result to 0.
      have hop := hno.op
      rw [hudp] at hop
      cases hop
    · intro haf
      rw [hudp]
      exact udpApply_unrecognised h hacc.2 haf t.srv

/-- A thread that has heard nothing yet. -/
def freshThread : UdpThread where
  buf := Buf.ofList []
  outbuf := Buf.ofList []
  outlen := 0
  srv := ⟨fun _ => initRecord, 0, 0, [], [], none, none, []⟩
  sent := []

theorem no_effect_iff_type :
    let m : Machine := ⟨.big, .unsigned⟩
    let d : List Byte := [0x00, 0x00, 0x00, 0xff]
    (NoEffect m true freshThread d ↔ d = [] ∨ crcOk m (freshThread.buf.store 0 d) = false) ∧
      (freshThread.buf.store 0 d 0 ≠ 0xaf →
        (udp2send m freshThread.srv (freshThread.buf.store 0 d) d.length freshThread.outbuf
          freshThread.outlen).srv = freshThread.srv) :=
  no_effect_iff _ _ _ _ (.inr (.inl (by decide)))

/-- A datagram of type 0 with a correct checksum makes the server send its client a message. -/
theorem not_no_effect :
    let m : Machine := ⟨.big, .unsigned⟩
    let d : List Byte := [0x00, 0x00, 0x00, 0xff]
    Unrecognised m (freshThread.buf.store 0 d) ∧ ¬ NoEffect m true freshThread d ∧
      (threadUDPr m true freshThread d).sent =
        [[0xaf, 0x20, 8, 0, 0, 0, 0, 0, 0, 0, 0, 0x28]] := by
  intro m d
  refine ⟨.inr (.inl (by decide)), ?_, by decide +kernel⟩
  intro hno
  have hop := hno.op
  revert hop
  decide +kernel

/-! ### Requests -/

/-- The lengths that go with a result: of the messages `fs` in the output buffer. -/
structure LengthsOf (op : Int) (fs : List (List Byte)) (poutlen : Nat → Int) : Prop where
  refused : op = -1 → fs = [] ∧ poutlen 0 = 0
  bulk : op = 9 → fs.length = 9 ∧ ∀ i < 9, poutlen i = (fs.getD i []).length
  single : op ≠ -1 → op ≠ 9 → poutlen 0 = fs.flatten.length

/-- A request has one result and writes some messages to the output buffer, and the lengths
its caller finds afterwards are theirs, whatever the buffer and the lengths were before. -/
def LengthsDefined (m : Machine) (e : Eth0) (s : Server) (pin : Buf) (inlen : Int) : Prop :=
  ∃ (op : Int) (fs : List (List Byte)), ∀ (pout : Buf) (poutlen : Nat → Int),
    let r := tcp2send m e s pin inlen pout poutlen
    r.op = op ∧ r.pout = pout.store 0 fs.flatten ∧ LengthsOf op fs r.poutlen

theorem store_nil (b : Buf) (p : Nat) : b.store p [] = b := by
  funext i
  simp [Buf.store]

/-- A refused request writes nothing but the length 0. -/
theorem lengthsOf_refused (poutlen : Nat → Int) :
    LengthsOf (-1) [] (Function.update poutlen 0 0) :=
  ⟨fun _ => ⟨rfl, by simp⟩, by simp, by simp⟩

theorem putLens_getD {fs : List (List Byte)} {i : Nat} (hi : i < fs.length)
    (poutlen : Nat → Int) : putLens fs poutlen i = (fs.getD i []).length := by
  simp [putLens, hi]

/-- A query with an index `tcp50` knows leaves the lengths of its answers. -/
theorem lengthsOf_answers {m : Machine} {idx : Byte} (hk : known m idx = true) (e : Eth0)
    (t : Fin 8 → PortStat) (poutlen : Nat → Int) :
    LengthsOf (replyOp m idx) (answers m e t idx) (putLens (answers m e t idx) poutlen) := by
  by_cases hff : m.lowByte idx = 0xff
  · have hnine := length_answers_bulk hff e t
    rw [replyOp, if_pos hff]
    exact ⟨by simp, fun _ => ⟨hnine, fun i hi => putLens_getD (by omega) poutlen⟩, by simp⟩
  · obtain ⟨f, hf⟩ := singleReply_of_known hff hk e t
    rw [replyOp, if_neg hff, if_pos hk, answers, if_neg hff, hf]
    exact ⟨by simp, by simp, fun _ _ => by simp [putLens]⟩

/-- A query with an index `tcp50` does not know leaves the lengths alone. -/
theorem tcp50_unknown {m : Machine} {pin : Buf} (hk : known m (pin 1) = false) (e : Eth0)
    (s : Server) (pout : Buf) (poutlen : Nat → Int) :
    (tcp50 m e s pin pout poutlen).op = -1 ∧
      (tcp50 m e s pin pout poutlen).poutlen = poutlen := by
  obtain ⟨hop, -, hlens⟩ := tcp50_result m e s pin pout poutlen
  refine ⟨hop.trans (replyOp_of_unknown hk), hlens.trans ?_⟩
  rw [(answers_eq_nil_iff m e s.gportStat (pin 1)).2 hk]
  rfl

/-- A valid query with an unknown index: the one request whose length is never written. -/
structure StaleLength (m : Machine) (pin : Buf) (inlen : Int) : Prop where
  pos : 0 < inlen
  crc : crcOk m pin = true
  type : m.lowByte (pin 0) = 0x50
  unknown : known m (pin 1) = false

/-- After such a request the caller reads the length of an earlier one. -/
theorem StaleLength.not_defined {m : Machine} {pin : Buf} {inlen : Int}
    (h : StaleLength m pin inlen) (e : Eth0) (s : Server) :
    ¬ LengthsDefined m e s pin inlen := by
  rintro ⟨op, fs, hall⟩
  -- Let the request before it have left a length of 1.
  obtain ⟨hop, -, hlens⟩ := hall (Buf.ofList []) fun _ => 1
  have hr : tcp2send m e s pin inlen (Buf.ofList []) (fun _ => 1) = _ :=
    (tcp2send_accepted h.pos h.crc e s _ _).trans (if_pos h.type)
  obtain ⟨hminus, hstale⟩ := tcp50_unknown h.unknown e s (Buf.ofList []) fun _ => 1
  rw [hr] at hop hlens
  have hzero := (hlens.refused (hop.symm.trans hminus)).2
  rw [hstale] at hzero
  cases hzero

/-- **The reply lengths are defined exactly when the request is not a valid query with an
unknown index.** -/
theorem lengths_defined_iff (m : Machine) (e : Eth0) (s : Server) (pin : Buf) (inlen : Int) :
    LengthsDefined m e s pin inlen ↔ ¬ StaleLength m pin inlen := by
  refine ⟨fun hdef hstale => hstale.not_defined e s hdef, fun hstale => ?_⟩
  by_cases hrej : inlen ≤ 0 ∨ crcOk m pin = false
  · refine ⟨-1, [], fun pout poutlen => ?_⟩
    rw [tcp2send_rejected hrej]
    exact ⟨rfl, (store_nil pout 0).symm, lengthsOf_refused poutlen⟩
  obtain ⟨hpos, hcrc⟩ : 0 < inlen ∧ crcOk m pin = true := by simpa using hrej
  by_cases h50 : m.lowByte (pin 0) = 0x50
  · have hk : known m (pin 1) = true := by
      by_contra hk
      exact hstale ⟨hpos, hcrc, h50, Bool.eq_false_of_not_eq_true hk⟩
    refine ⟨replyOp m (pin 1), answers m e s.gportStat (pin 1), fun pout poutlen => ?_⟩
    obtain ⟨hop, hpout, hlens⟩ := tcp50_result m e s pin pout poutlen
    rw [tcp2send_accepted hpos hcrc, if_pos h50]
    refine ⟨hop, hpout, ?_⟩
    rw [hlens]
    exact lengthsOf_answers hk e s.gportStat poutlen
  by_cases h51 : m.lowByte (pin 0) = 0x51
  · refine ⟨0x51, [ackFrame], fun pout poutlen => ?_⟩
    rw [tcp2send_accepted hpos hcrc, if_neg h50, if_pos h51, tcp51_eq]
    refine ⟨rfl, by simp, by simp, by simp, fun _ _ => ?_⟩
    dsimp only
    rw [Function.update_self]
    rfl
  · refine ⟨-1, [], fun pout poutlen => ?_⟩
    rw [tcp2send_accepted hpos hcrc, if_neg h50, if_neg h51]
    exact ⟨rfl, (store_nil pout 0).symm, lengthsOf_refused poutlen⟩

/-- A query with index `0x30` leaves the length of the reply before it. -/
theorem not_lengths_defined :
    let m : Machine := ⟨.big, .unsigned⟩
    let s : Server := ⟨fun _ => initRecord, 0, 0, [], [], none, none, []⟩
    ¬ LengthsDefined m ⟨0, 0⟩ s (Buf.ofList [0x50, 0x30, 0x00, 0x7f]) 4 := by
  intro m s
  exact StaleLength.not_defined ⟨by decide, by decide +kernel, by decide, by decide⟩ _ s

end SerialServer.Mrs2lib
