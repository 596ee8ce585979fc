import SerialServer.Reporter.Report
import SerialServer.Server.Answers

/-!
# SerialServer.Server.Emitted

Every message a program builds is one the programs accept.

Seven pieces of code build messages, each with a length byte, an offset for the check
byte and an output length written as literals. `Built` is what these three have to agree
on for a message at some place of a buffer; it is read off the message as soon as the
message is a frame (`built_of_slice`). What the builders of the server write is known as
a list of frames from `SerialServer.Server.Replies`; `tcp50_result` puts the three
branches of `tcp50` under one equation.
-/

namespace SerialServer.Mrs2lib

open Dataxfer Mrs2s

/-! ### Messages in a buffer -/

/-- The `len` bytes at `p` of a buffer of `size` bytes are a message its receivers accept,
whatever machine they run on and whatever else they have in their buffer. -/
structure Built (m : Machine) (size : Nat) (b : Buf) (p : Nat) (len : Int) : Prop where
  length : len = (b (p + 2)).toNat + 4
  crc : m.lowByte (b (p + len.toNat - 1)) = Mrs2lib.crc m (b.offset p)
  mycrc : m.lowByte (b (p + len.toNat - 1)) = Dataxfer.mycrc m (b.offset p)
  accepted : ∀ (m' : Machine) (buf : Buf) (rest : List Byte),
    crcOk m' (buf.store 0 (b.slice p len.toNat ++ rest)) = true
  fits : p + len.toNat ≤ size

/-- A frame that lies in the buffer is a message. -/
theorem built_of_slice (m : Machine) {size : Nat} {b : Buf} {p : Nat} {f : List Byte}
    (h : IsFrame f) (hb : b.slice p f.length = f) (hsize : p + f.length ≤ size) :
    Built m size b p f.length := by
  have h4 := h.four_le
  have hlen : f.length = (b (p + 2)).toNat + 4 := by
    have hget : f.getD 2 0 = b (p + 2) := by
      rw [List.getD_eq_getElem _ _ (by omega), ← Buf.getElem_slice b p f.length 2 (by simp; omega)]
      simp only [hb]
    rw [← hget]
    exact h.1
  have hslice : (b.offset p).slice 0 f.length = f := by
    rw [← hb]
    simp [Buf.slice, Buf.offset]
  have hok : crcOk m (b.offset p) = true := by
    have hsum := h.2
    rw [← hslice, hlen] at hsum
    exact (crcOk_iff m _).2 hsum
  have hcheck : m.lowByte (b (p + f.length - 1)) = complementSum m (b.offset p) := by
    rw [crcOk, decide_eq_true_iff, Machine.lowByte_toNat] at hok
    rw [← hok, hlen]
    simp only [Buf.offset]
    congr 2
  refine ⟨by omega, hcheck, hcheck, ?_, hsize⟩
  · intro m' buf rest
    rw [Int.toNat_natCast, hb]
    exact crcOk_of_isFrame m' buf rest h

/-- A frame that has been stored is a message. -/
theorem built_store (m : Machine) {size : Nat} (b : Buf) {f : List Byte} (h : IsFrame f)
    (hsize : f.length ≤ size) : Built m size (b.store 0 f) 0 f.length :=
  built_of_slice m h (Buf.slice_store b 0 f) (by omega)

/-! ### What `tcp50` returns -/

/-- The index bytes `tcp50` has a branch for. -/
def known (m : Machine) (idx : Byte) : Bool :=
  decide (m.lowByte idx = 0 ∨ isPortIndex m idx = true ∨ m.lowByte idx = 0x20 ∨
    m.lowByte idx = 0xff)

/-- The result of `tcp50` by index byte. -/
def replyOp (m : Machine) (idx : Byte) : Int :=
  if m.lowByte idx = 0xff then 9 else if known m idx then 0 else -1

theorem singleReply_eq_none {m : Machine} {idx : Byte} (hff : ¬ m.lowByte idx = 0xff) (e : Eth0)
    (t : Fin 8 → PortStat) : singleReply m e t idx = none ↔ known m idx = false := by
  rw [known, decide_eq_false_iff_not, singleReply]
  by_cases h0 : m.lowByte idx = 0
  · rw [if_pos h0]
    exact iff_of_false (Option.some_ne_none _) fun h => h (.inl h0)
  rw [if_neg h0]
  by_cases hp : isPortIndex m idx = true
  · rw [if_pos hp]
    exact iff_of_false (Option.some_ne_none _) fun h => h (.inr (.inl hp))
  rw [if_neg hp]
  by_cases h20 : m.lowByte idx = 0x20
  · rw [if_pos h20]
    exact iff_of_false (Option.some_ne_none _) fun h => h (.inr (.inr (.inl h20)))
  · rw [if_neg h20]
    refine iff_of_true rfl ?_
    rintro (h | h | h | h)
    · exact h0 h
    · exact hp h
    · exact h20 h
    · exact hff h

/-- A known index other than `0xff` has one answer. -/
theorem singleReply_of_known {m : Machine} {idx : Byte} (hff : ¬ m.lowByte idx = 0xff)
    (hk : known m idx = true) (e : Eth0) (t : Fin 8 → PortStat) :
    ∃ f, singleReply m e t idx = some f := by
  refine Option.ne_none_iff_exists'.1 ?_
  intro hnone
  rw [(singleReply_eq_none hff e t).1 hnone] at hk
  cases hk

theorem isFrame_singleReply {m : Machine} {e : Eth0} {t : Fin 8 → PortStat} {idx : Byte}
    {f : List Byte} (h : singleReply m e t idx = some f) : IsFrame f ∧ f.length ≤ 14 := by
  unfold singleReply at h
  split at h
  · cases h
    exact ⟨isFrame_addrFrame m e, by simp⟩
  · split at h
    · cases h
      exact ⟨isFrame_portFrame _ _, by simp⟩
    · split at h
      · cases h
        exact ⟨isFrame_statFrame _ _, by simp⟩
      · cases h

/-- **What `tcp50` returns**: the answers to the index, one behind the other, and the
length of each. -/
theorem tcp50_result (m : Machine) (e : Eth0) (s : Server) (pin pout : Buf)
    (poutlen : Nat → Int) :
    let r := tcp50 m e s pin pout poutlen
    let fs := answers m e s.gportStat (pin 1)
    r.op = replyOp m (pin 1) ∧ r.pout = pout.store 0 fs.flatten ∧ r.poutlen = putLens fs poutlen := by
  intro r fs
  by_cases hff : m.lowByte (pin 1) = 0xff
  · have hbulk := tcp50_bulk m e s hff pout poutlen
    simp only [Tcp.result, Prod.mk.injEq] at hbulk
    have hfs : fs = bulkFrames m e s.gportStat 8 := if_pos hff
    have hop : replyOp m (pin 1) = 9 := if_pos hff
    rw [hfs, hop]
    exact ⟨hbulk.1, hbulk.2.1, hbulk.2.2.1⟩
  · have hr : r = _ := (if_neg hff : tcp50 m e s pin pout poutlen = _).trans (tcp50Single_eq ..)
    have hfs : fs = (singleReply m e s.gportStat (pin 1)).toList := if_neg hff
    have hop : replyOp m (pin 1) = if known m (pin 1) then 0 else -1 := if_neg hff
    cases hreply : singleReply m e s.gportStat (pin 1) with
    | none =>
      have hk := (singleReply_eq_none hff e s.gportStat).1 hreply
      rw [hr, hfs, hop, hreply, hk]
      refine ⟨rfl, ?_, rfl⟩
      funext i
      simp [Buf.store]
    | some f =>
      have hk : known m (pin 1) = true := by
        by_contra hk
        have hnone := (singleReply_eq_none hff e s.gportStat).2 (Bool.eq_false_of_not_eq_true hk)
        rw [hnone] at hreply
        cases hreply
      rw [hr, hfs, hop, hreply, hk]
      refine ⟨rfl, by simp, ?_⟩
      exact putLens_snoc [] f poutlen

theorem isFrame_answers {m : Machine} {e : Eth0} {t : Fin 8 → PortStat} {idx : Byte} :
    ∀ f ∈ answers m e t idx, IsFrame f ∧ f.length ≤ 14 := by
  intro f hf
  unfold answers at hf
  split at hf
  · rcases List.mem_cons.1 hf with rfl | hf
    · exact ⟨isFrame_addrFrame m e, by simp⟩
    · obtain ⟨i, -, rfl⟩ := List.mem_map.1 hf
      exact ⟨isFrame_portFrame _ _, by simp⟩
  · exact isFrame_singleReply (Option.mem_toList.1 hf)

theorem length_answers_le (m : Machine) (e : Eth0) (t : Fin 8 → PortStat) (idx : Byte) :
    (answers m e t idx).length ≤ 9 := by
  unfold answers
  split
  · rfl
  · cases singleReply m e t idx <;> simp

/-- A bulk request has nine answers. -/
theorem length_answers_bulk {m : Machine} {idx : Byte} (hff : m.lowByte idx = 0xff) (e : Eth0)
    (t : Fin 8 → PortStat) : (answers m e t idx).length = 9 := by
  rw [answers, if_pos hff]
  rfl

/-- Every known index has an answer, and no other. -/
theorem answers_eq_nil_iff (m : Machine) (e : Eth0) (t : Fin 8 → PortStat) (idx : Byte) :
    answers m e t idx = [] ↔ known m idx = false := by
  by_cases hff : m.lowByte idx = 0xff
  · have hk : known m idx = true := decide_eq_true (.inr (.inr (.inr hff)))
    refine iff_of_false (fun hnil => ?_) (by simp [hk])
    have hnine := length_answers_bulk hff e t
    rw [hnil] at hnine
    cases hnine
  · rw [answers, if_neg hff, ← singleReply_eq_none hff e t]
    exact Option.toList_eq_nil_iff

theorem replyOp_eq_nine_iff (m : Machine) (idx : Byte) :
    replyOp m idx = 9 ↔ m.lowByte idx = 0xff := by
  unfold replyOp
  split
  · next hff => exact iff_of_true rfl hff
  · next hff => exact iff_of_false (by split <;> decide) hff

theorem replyOp_of_unknown {m : Machine} {idx : Byte} (hk : known m idx = false) :
    replyOp m idx = -1 := by
  have hff : ¬ m.lowByte idx = 0xff := by
    intro hff
    rw [known, decide_eq_false_iff_not] at hk
    exact hk (.inr (.inr (.inr hff)))
  rw [replyOp, if_neg hff, if_neg (by simp [hk])]

theorem replyOp_of_known {m : Machine} {idx : Byte} (hk : known m idx = true)
    (hff : ¬ m.lowByte idx = 0xff) : replyOp m idx = 0 := by
  rw [replyOp, if_neg hff, if_pos hk]

/-- Short messages are short together. -/
theorem length_flatten_le {fs : List (List Byte)} (h : ∀ f ∈ fs, f.length ≤ 14) :
    fs.flatten.length ≤ 14 * fs.length := by
  induction fs with
  | nil => simp
  | cons f fs ih =>
    have hf := h f List.mem_cons_self
    have hrest := ih fun g hg => h g (List.mem_cons_of_mem f hg)
    simp only [List.flatten_cons, List.length_append, List.length_cons]
    omega

/-! ### The messages of a reply -/

/-- Where the send loop of a bulk reply looks for message `i`. -/
def replyOffset (poutlen : Nat → Int) : Nat → Nat
  | 0 => 0
  | i + 1 => replyOffset poutlen i + (poutlen i).toNat

theorem replyOffset_putLens (poutlen : Nat → Int) (pre post : List (List Byte)) :
    replyOffset (putLens (pre ++ post) poutlen) pre.length = pre.flatten.length := by
  induction pre using List.reverseRecOn generalizing post with
  | nil => rfl
  | append_singleton pre f ih =>
    have hpre := ih (f :: post)
    rw [List.append_assoc, List.singleton_append, List.length_append, List.length_singleton,
      replyOffset, hpre, putLens_mid, List.flatten_append, List.flatten_singleton,
      List.length_append]

/-- Message `i` of a list of frames stored one behind the other. -/
theorem built_flatten (m : Machine) {size : Nat} (pout : Buf) (poutlen : Nat → Int)
    {fs : List (List Byte)} (hfs : ∀ f ∈ fs, IsFrame f) (hsize : fs.flatten.length ≤ size)
    {i : Nat} (hi : i < fs.length) :
    Built m size (pout.store 0 fs.flatten) (replyOffset (putLens fs poutlen) i)
      (putLens fs poutlen i) := by
  -- Message `i` stands behind those before it, which is where the send loop looks.
  obtain ⟨pre, f, post, rfl, rfl⟩ :
      ∃ pre f post, fs = pre ++ f :: post ∧ i = pre.length :=
    ⟨fs.take i, fs[i], fs.drop (i + 1), by simp, by simp; omega⟩
  have hlen : putLens (pre ++ f :: post) poutlen pre.length = f.length := by
    simp [putLens]
  rw [replyOffset_putLens, hlen]
  refine built_of_slice m (hfs f (by simp)) (slice_flatten_mid pout pre post f) ?_
  simp only [List.flatten_append, List.flatten_cons, List.length_append] at hsize
  omega

/-- The messages a request handler leaves in the output buffer of `main`, which is 400
bytes long, for the sends that follow. -/
structure RepliesBuilt (m : Machine) (pout : Buf) (r : Tcp) : Prop where
  single : r.op = 0 ∨ r.op = 0x51 → Built m 400 r.pout 0 (r.poutlen 0)
  bulk : r.op = 9 → ∀ i < 9, Built m 400 r.pout (replyOffset r.poutlen i) (r.poutlen i)
  none : ¬ (r.op = 0 ∨ r.op = 0x51) → r.op ≠ 9 → r.pout = pout
  inside : ∀ i, 400 ≤ i → r.pout i = pout i

theorem tcp50_built (m : Machine) (e : Eth0) (s : Server) (pin pout : Buf)
    (poutlen : Nat → Int) : RepliesBuilt m pout (tcp50 m e s pin pout poutlen) := by
  obtain ⟨hop, hpout, hlens⟩ := tcp50_result m e s pin pout poutlen
  have hframes : ∀ f ∈ answers m e s.gportStat (pin 1), IsFrame f :=
    fun f hf => (isFrame_answers f hf).1
  have hshort : ∀ f ∈ answers m e s.gportStat (pin 1), f.length ≤ 14 :=
    fun f hf => (isFrame_answers f hf).2
  have hlong := length_flatten_le hshort
  have hnine := length_answers_le m e s.gportStat (pin 1)
  refine ⟨?_, ?_, ?_, ?_⟩
  · intro hsingle
    have hk : ¬ known m (pin 1) = false := by
      intro hk
      rw [hop, replyOp_of_unknown hk] at hsingle
      exact absurd hsingle (by decide)
    have hpos := List.length_pos_of_ne_nil (mt (answers_eq_nil_iff m e s.gportStat (pin 1)).1 hk)
    rw [hpout, hlens]
    exact built_flatten m pout poutlen hframes (by omega) hpos
  · intro hbulk i hi
    have hff := (replyOp_eq_nine_iff m (pin 1)).1 (hop.symm.trans hbulk)
    have hlen := length_answers_bulk hff e s.gportStat
    rw [hpout, hlens]
    exact built_flatten m pout poutlen hframes (by omega) (by omega)
  · intro hsingle hbulk
    have hff := mt (replyOp_eq_nine_iff m (pin 1)).2 fun heq => hbulk (hop.trans heq)
    have hk : known m (pin 1) = false := by
      by_contra hk
      exact hsingle (.inl (hop.trans (replyOp_of_known (by simpa using hk) hff)))
    rw [hpout, (answers_eq_nil_iff m e s.gportStat (pin 1)).2 hk]
    funext i
    simp [Buf.store]
  · intro i hi
    rw [hpout, Buf.store_ge (by omega)]

theorem tcp51_built (m : Machine) (e : Eth0) (s : Server) (pin pout : Buf)
    (poutlen : Nat → Int) : RepliesBuilt m pout (tcp51 m e s pin pout poutlen) := by
  rw [tcp51_eq]
  refine ⟨fun _ => ?_, ?_, ?_, ?_⟩
  · dsimp only
    rw [Function.update_self]
    exact built_store m pout isFrame_ackFrame (by decide)
  · simp
  · simp
  · intro i hi
    have hlen : 0 + ackFrame.length ≤ i := Nat.le_trans (by decide) hi
    exact Buf.store_ge hlen

/-- **Every message the programs build is one they accept.** For every state of the
tables, of the address and of the buffers, each message of a reply of `tcp50` or `tcp51`,
the summary of `udp2send` and the two broadcasts of the reporter, built in 400, 600 and 30
bytes, has the length its length byte says and the check byte the receivers compute. -/
theorem emitted_accepted (m : Machine) :
    (∀ (e : Eth0) (s : Server) (pin pout : Buf) (poutlen : Nat → Int),
      RepliesBuilt m pout (tcp50 m e s pin pout poutlen) ∧
        RepliesBuilt m pout (tcp51 m e s pin pout poutlen)) ∧
    (∀ (s : Server) (pin : Buf) (inlen : Int) (pout : Buf) (poutlen : Int),
      let r := udp2send m s pin inlen pout poutlen
      (r.op = 0 ∧ Built m 600 r.pout 0 r.poutlen ∨ r.op = -1 ∧ r.pout = pout) ∧
        ∀ i, 600 ≤ i → r.pout i = pout i) ∧
    (∀ (t : PortTable) (pname : PortName) (pout : Buf),
      Built m 30 (pout.store 0 (udpA010 m t pname)) 0 (udpA010 m t pname).length) ∧
    ∀ (t : PortTable) (pout : Buf),
      Built m 30 (pout.store 0 (udpAf20 m t)) 0 (udpAf20 m t).length := by
  refine ⟨fun e s pin pout poutlen =>
    ⟨tcp50_built m e s pin pout poutlen, tcp51_built m e s pin pout poutlen⟩, ?_, ?_, ?_⟩
  · intro s pin inlen pout poutlen
    by_cases hrej : inlen ≤ 0 ∨ crcOk m pin = false
    · rw [udp2send_rejected hrej]
      exact ⟨.inr ⟨rfl, rfl⟩, fun _ _ => rfl⟩
    · have hacc : 0 < inlen ∧ crcOk m pin = true := by simpa using hrej
      rw [udp2send_accepted hacc.1 hacc.2]
      have hlen : (summary (udpApply m s pin)).length = 12 := statFrame_length ..
      have hsize : (statFrame 0xaf fun i => ((udpApply m s pin).gportStat i).stat).length ≤ 600 := by
        rw [statFrame_length]
        omega
      have hbuilt := built_store m pout (isFrame_statFrame 0xaf _) hsize
      rw [statFrame_length] at hbuilt
      refine ⟨.inl ⟨rfl, hbuilt⟩, fun i hi => ?_⟩
      have hin : 0 + (summary (udpApply m s pin)).length ≤ i := by omega
      exact Buf.store_ge hin
  · intro t pname pout
    rw [udpA010_eq]
    exact built_store m pout (isFrame_portFrame _ _) (by simp)
  · intro t pout
    rw [udpAf20_eq]
    exact built_store m pout (isFrame_statFrame _ _) (by simp)

end SerialServer.Mrs2lib
