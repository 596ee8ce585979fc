import Mathlib.Data.List.Forall2
import SerialServer.Server.Replies
import SerialServer.Server.Stepwise

/-!
# SerialServer.Server.Stream

What a client receives from the two threads of its child process.

A message is built in a buffer of its thread from values that are read one by one, and the
other thread may change the table between two of the reads. Its check byte is computed from
the buffer, though, not from the table. So whatever was read, the message is one of the kind
its head says (`Kind.Carries`), and complete.

The main result puts the turns of both threads together: in every interleaving, all that is
sent are complete messages, and those `main` has sent answer the requests in their order
(`stream_whole`).
-/

namespace SerialServer.Stepwise

open Mrs2lib Mrs2s Interleave

/-! ### Kinds of messages -/

/-- What a message to the client is about. -/
inductive Kind
  | address
  | port (idx : Byte)
  | status (type : Byte)
  | ack
  deriving Repr, DecidableEq

/-- The message is of this kind, whatever values it carries. -/
def Kind.Carries (m : Machine) : Kind → List Byte → Prop
  | .address, f => ∃ e : Eth0, f = addrFrame m e
  | .port idx, f => ∃ r : PortStat, f = portFrame idx r
  | .status type, f => ∃ stat : Fin 8 → Word, f = statFrame type stat
  | .ack, f => f = ackFrame

theorem Kind.Carries.isFrame {m : Machine} {k : Kind} {f : List Byte} (h : k.Carries m f) :
    IsFrame f := by
  cases k with
  | address =>
    obtain ⟨e, rfl⟩ := h
    exact isFrame_addrFrame m e
  | port idx =>
    obtain ⟨r, rfl⟩ := h
    exact isFrame_portFrame idx r
  | status type =>
    obtain ⟨stat, rfl⟩ := h
    exact isFrame_statFrame type stat
  | ack =>
    obtain rfl : f = ackFrame := h
    exact isFrame_ackFrame

/-- What a single request asks for. -/
def singleKind (m : Machine) (idx : Byte) : Option Kind :=
  if m.lowByte idx = 0 then some .address
  else if isPortIndex m idx then some (.port idx)
  else if m.lowByte idx = 0x20 then some (.status 0xa0)
  else none

/-- What a bulk request asks for. -/
def bulkKinds : List Kind :=
  .address :: (List.range 8).map fun i => .port (BitVec.ofNat 8 (0x10 + i))

/-- The replies a request asks for, in their order. -/
def replies (m : Machine) (pin : Buf) : List Kind :=
  if !crcOk m pin then []
  else if m.lowByte (pin 0) = 0x50 then
    if m.lowByte (pin 1) = 0xff then bulkKinds else (singleKind m (pin 1)).toList
  else if m.lowByte (pin 0) = 0x51 then [.ack]
  else []

/-- The messages are the first of those asked for, and all of them if `complete`. -/
def Answers (m : Machine) (ks : List Kind) (complete : Prop) (out : List (List Byte)) : Prop :=
  (∃ ks', ks' <+: ks ∧ List.Forall₂ (Kind.Carries m) ks' out) ∧
    (complete → List.Forall₂ (Kind.Carries m) ks out)

theorem Answers.isFrame {m : Machine} {ks : List Kind} {complete : Prop} {out : List (List Byte)}
    (h : Answers m ks complete out) {f : List Byte} (hf : f ∈ out) : IsFrame f := by
  obtain ⟨⟨ks', -, hall⟩, -⟩ := h
  induction hall with
  | nil => exact absurd hf List.not_mem_nil
  | cons hk _ ih =>
    rcases List.mem_cons.1 hf with rfl | hf
    · exact hk.isFrame
    · exact ih hf

theorem answers_nil (m : Machine) (ks : List Kind) {complete : Prop} (h : complete → ks = []) :
    Answers m ks complete [] :=
  ⟨⟨[], List.nil_prefix, .nil⟩, fun hc => h hc ▸ .nil⟩

theorem answers_all {m : Machine} {ks : List Kind} {complete : Prop} {out : List (List Byte)}
    (h : List.Forall₂ (Kind.Carries m) ks out) : Answers m ks complete out :=
  ⟨⟨ks, List.prefix_rfl, h⟩, fun _ => h⟩

/-- The first messages of an answer are an incomplete answer. -/
theorem answers_prefix {m : Machine} {ks : List Kind} {complete : Prop}
    {fs out : List (List Byte)} (h : List.Forall₂ (Kind.Carries m) ks fs) (hout : out <+: fs)
    (hc : complete → out = fs) : Answers m ks complete out := by
  obtain ⟨rest, rfl⟩ := hout
  refine ⟨⟨ks.take out.length, List.take_prefix .., ?_⟩, fun hcomplete => ?_⟩
  · have htake := List.forall₂_take out.length h
    rwa [List.take_left] at htake
  · rwa [hc hcomplete]

/-! ### Single requests -/

theorem look_silent {α : Type} (g : Server → α) : (look g).Silent fun _ => True :=
  Code.Silent.get _

theorem write_silent (f : Server → Server) : (write f).Silent fun _ => True :=
  Code.Silent.modify _

theorem getipEth0_silent (m : Machine) (e : Eth0) : (getipEth0 m e).Silent fun _ => True :=
  (write_silent _).bind fun _ _ => (write_silent _).bind fun _ _ =>
    (write_silent _).bind fun _ _ => write_silent _

theorem storeStat_silent (p : Nat) (pout : Buf) (i : Fin 8) :
    (storeStat p pout i).Silent fun b => ∃ w : Word, b = pout.store (p + 3 + i) [chr w] :=
  (look_silent _).bind fun w _ => Code.Silent.pure ⟨w, rfl⟩

/-- The values a loop over `storeStat` has stored are some table's, though it need never
have been there as a whole. -/
theorem storeStat_foldlM (p : Nat) {is : List (Fin 8)} (his : is.Nodup) (pout : Buf) :
    (is.foldlM (storeStat p) pout : Proc Buf).Silent fun b => ∃ stat : Fin 8 → Word,
      b = is.foldl (fun b i => b.store (p + 3 + i) [chr (stat i)]) pout := by
  induction is generalizing pout with
  | nil => exact Code.Silent.pure ⟨fun _ => 0, rfl⟩
  | cons i is ih =>
    obtain ⟨hi, his⟩ := List.nodup_cons.1 his
    rw [List.foldlM_cons]
    refine (storeStat_silent p pout i).bind ?_
    rintro _ ⟨w, rfl⟩
    refine (ih his _).mono ?_
    rintro _ ⟨stat, rfl⟩
    refine ⟨Function.update stat i w, ?_⟩
    rw [List.foldl_cons, Function.update_self]
    refine List.foldl_ext _ _ _ fun b j hj => ?_
    rw [Function.update_of_ne (ne_of_mem_of_not_mem hj hi)]

theorem storeStats_silent (pout : Buf) (p : Nat) :
    (storeStats pout p).Silent fun b => ∃ stat : Fin 8 → Word,
      b = pout.store (p + 3) (List.ofFn fun i => chr (stat i)) := by
  refine (storeStat_foldlM p (List.nodup_finRange 8) pout).mono ?_
  rintro _ ⟨stat, rfl⟩
  exact ⟨stat, foldl_store (fun i => chr (stat i)) pout (p + 3)⟩

/-- What a request for one message leaves at `pout + p` and `poutlen + pi`. -/
inductive Replied (m : Machine) (pin pout : Buf) (p : Nat) (poutlen : Nat → Int) (pi : Nat) :
    Option Kind → Reply → Prop
  | some {k : Kind} {f : List Byte} (h : k.Carries m f) :
      Replied m pin pout p poutlen pi (some k)
        ⟨0, pin, pout.store p f, Function.update poutlen pi f.length⟩
  | none : Replied m pin pout p poutlen pi none ⟨-1, pin, pout, poutlen⟩

theorem Replied.of_store {m : Machine} {pin pout b : Buf} {p : Nat} {poutlen : Nat → Int} {pi : Nat}
    {k : Kind} {f : List Byte} {n : Int} (h : k.Carries m f) (hb : b = pout.store p f)
    (hn : n = f.length) : Replied m pin pout p poutlen pi (Option.some k)
      ⟨0, pin, b, Function.update poutlen pi n⟩ := by
  rw [hb, hn]
  exact .some h

/-- **A single request** is answered with a message of the kind it asks for. -/
theorem tcp50Single_silent (m : Machine) (e : Eth0) (pin pout : Buf) (p : Nat)
    (poutlen : Nat → Int) (pi : Nat) :
    (tcp50Single m e pin pout p poutlen pi).Silent
      (Replied m pin pout p poutlen pi (singleKind m (pin 1))) := by
  unfold tcp50Single singleKind
  by_cases h0 : m.lowByte (pin 1) = 0
  · rw [if_pos h0, if_pos h0]
    refine (getipEth0_silent m e).bind fun _ _ => (look_silent _).bind fun gip _ =>
      (look_silent _).bind fun gipmask _ => Code.Silent.pure ?_
    exact .of_store ⟨⟨gip, gipmask⟩, rfl⟩ (store_addrFrame m ⟨gip, gipmask⟩ pout p)
      (by rw [addrFrame_length]; rfl)
  rw [if_neg h0, if_neg h0]
  by_cases hp : isPortIndex m (pin 1) = true
  · rw [if_pos hp, if_pos hp]
    refine (look_silent _).bind fun stat _ => (look_silent _).bind fun baud _ =>
      (look_silent _).bind fun bits _ => (look_silent _).bind fun parity _ =>
      (look_silent _).bind fun stop _ => (look_silent _).bind fun flowctrl _ =>
      (look_silent _).bind fun ip _ => Code.Silent.pure ?_
    let r : PortStat := ⟨stat, baud, bits, parity, stop, flowctrl, ip⟩
    exact .of_store ⟨r, rfl⟩ (store_portFrame m (pin 1) r pout p) (by rw [portFrame_length]; rfl)
  rw [if_neg hp, if_neg hp]
  by_cases h20 : m.lowByte (pin 1) = 0x20
  · have h1 : pin 1 = 0x20 := (lowByte_eq_lit m (pin 1) (by decide)).1 h20
    rw [if_pos h20, if_pos h20]
    refine (storeStats_silent _ p).bind ?_
    rintro _ ⟨stat, rfl⟩
    refine Code.Silent.pure (.of_store ⟨stat, rfl⟩ ?_ (by rw [statFrame_length]; rfl))
    rw [h1]
    exact store_statFrame m 0xa0 stat pout p
  · rw [if_neg h20, if_neg h20]
    exact Code.Silent.pure .none

/-! ### Bulk requests -/

/-- What holds between two turns of the loop of a bulk request, `fs` being the messages
written so far. -/
structure Written (pout : Buf) (poutlen : Nat → Int) (fs : List (List Byte)) (b : Bulk) :
    Prop where
  /-- `pi` points at the length of the last message. -/
  last : b.pi + 1 = fs.length
  /-- The next message goes right behind the last. -/
  next : b.p + (b.reply.poutlen b.pi).toNat = fs.flatten.length
  written : b.reply.pout = pout.store 0 fs.flatten
  lens : b.reply.poutlen = putLens fs poutlen

/-- A turn of the loop appends a record of its port. -/
theorem bulkTurn_silent (m : Machine) (e : Eth0) {pout : Buf} {poutlen : Nat → Int}
    {fs : List (List Byte)} {b : Bulk} (h : Written pout poutlen fs b) {i : Nat} (hi : i < 8) :
    (bulkTurn m e b i).Silent fun b' => ∃ f,
      (Kind.port (BitVec.ofNat 8 (0x10 + i))).Carries m f ∧
        Written pout poutlen (fs ++ [f]) b' := by
  have hkind : singleKind m (b.reply.pin.store 1 [portIndex ⟨i, hi⟩] 1) =
      some (.port (portIndex ⟨i, hi⟩)) := by
    have hpin : b.reply.pin.store 1 [portIndex ⟨i, hi⟩] 1 = portIndex ⟨i, hi⟩ := by
      simp [Buf.store]
    rw [hpin, singleKind, if_neg (lowByte_portIndex_ne m _ (.inl (by decide))),
      if_pos (isPortIndex_portIndex m _)]
  have hreply := tcp50Single_silent m e (b.reply.pin.store 1 [portIndex ⟨i, hi⟩]) b.reply.pout
    (b.p + (b.reply.poutlen b.pi).toNat) b.reply.poutlen (b.pi + 1)
  rw [hkind] at hreply
  refine hreply.bind fun r hr => ?_
  cases hr with
  | @some k f hf =>
  refine Code.Silent.pure ⟨f, hf, ?_, ?_, ?_, ?_⟩
  · simpa using h.last
  · simp [h.next]
  · dsimp only
    rw [h.next, h.written, store_flatten_snoc]
  · show Function.update b.reply.poutlen (b.pi + 1) _ = _
    rw [h.last, h.lens, putLens_snoc]

/-- The nine messages of a bulk request. -/
theorem tcp50_silent (m : Machine) (e : Eth0) {pin : Buf} (hff : m.lowByte (pin 1) = 0xff)
    (pout : Buf) (poutlen : Nat → Int) :
    (tcp50 m e pin pout poutlen).Silent fun r => ∃ fs : List (List Byte),
      List.Forall₂ (Kind.Carries m) bulkKinds fs ∧ r.op = 9 ∧ r.pout = pout.store 0 fs.flatten ∧
        r.poutlen = putLens fs poutlen := by
  have hfirst := tcp50Single_silent m e (pin.store 1 [0x0]) pout 0 poutlen 0
  have hkind : singleKind m (pin.store 1 [0x0] 1) = some .address := by
    have hpin : pin.store 1 [0x0] 1 = 0x0 := by
      simp [Buf.store]
    have h0 : m.lowByte 0x0 = 0 := (lowByte_eq_lit m 0x0 (by decide)).2 rfl
    rw [hpin, singleKind, if_pos h0]
  rw [hkind] at hfirst
  rw [tcp50, if_pos hff]
  refine hfirst.bind fun first hr => ?_
  cases hr with
  | @some k f hf =>
  -- The invariant of the loop: the kinds of what has been written.
  refine (Code.Silent.foldlM (bulkTurn m e)
    (I := fun is b => ∃ fs : List (List Byte), List.Forall₂ (Kind.Carries m)
      (.address :: is.map fun i => .port (BitVec.ofNat 8 (0x10 + i))) fs ∧
        Written pout poutlen fs b) ⟨[f], .cons hf .nil, ?_⟩ ?_).bind ?_
  · refine ⟨rfl, ?_, ?_, putLens_snoc [] f poutlen⟩
    · simp
    · simp
  · rintro pre i post hsplit b ⟨fs, hall, hb⟩
    have hi : i < 8 := List.mem_range.1 (hsplit ▸ List.mem_append_right _ List.mem_cons_self)
    refine (bulkTurn_silent m e hb hi).mono ?_
    rintro b' ⟨f, hf, hb'⟩
    refine ⟨fs ++ [f], ?_, hb'⟩
    rw [List.map_append]
    exact List.rel_append hall (.cons hf .nil)
  · rintro b ⟨fs, hall, hb⟩
    exact Code.Silent.pure ⟨fs, hall, rfl, hb.written, hb.lens⟩

/-! ### The replies of `main` -/

/-- What `tcp2send` can leave for a request that asks for `ks`. -/
inductive Ready (m : Machine) : List Kind → Reply → Prop
  | none {r : Reply} (hop : r.op = -1) : Ready m [] r
  | single {k : Kind} {r : Reply} (hop : r.op = 0 ∨ r.op = 0x51)
      (h : k.Carries m (r.pout.slice 0 (r.poutlen 0).toNat)) : Ready m [k] r
  | bulk {ks : List Kind} {fs : List (List Byte)} {pout : Buf} {poutlen : Nat → Int} {r : Reply}
      (hop : r.op = 9) (h : List.Forall₂ (Kind.Carries m) ks fs) (hlen : fs.length = 9)
      (hout : r.pout = pout.store 0 fs.flatten) (hlens : r.poutlen = putLens fs poutlen) :
      Ready m ks r

theorem Replied.ready {m : Machine} {pin pout : Buf} {poutlen : Nat → Int} {k : Option Kind}
    {r : Reply} (h : Replied m pin pout 0 poutlen 0 k r) : Ready m k.toList r := by
  cases h with
  | none => exact .none rfl
  | @some k f hf =>
    refine .single (.inl rfl) ?_
    have hslice : (pout.store 0 f).slice 0 (Function.update poutlen 0 (f.length : Int) 0).toNat =
        f := by
      rw [Function.update_self, Int.toNat_natCast, Buf.slice_store]
    rwa [hslice]

theorem tcp2send_silent (m : Machine) (e : Eth0) (pin : Buf) {inlen : Int} (hlen : 0 < inlen)
    (pout : Buf) (poutlen : Nat → Int) :
    (tcp2send m e pin inlen pout poutlen).Silent (Ready m (replies m pin)) := by
  unfold tcp2send replies
  rw [if_neg (by omega)]
  by_cases hcrc : (!crcOk m pin) = true
  · rw [if_pos hcrc, if_pos hcrc]
    exact Code.Silent.pure (.none rfl)
  rw [if_neg hcrc, if_neg hcrc]
  by_cases h50 : m.lowByte (pin 0) = 0x50
  · rw [if_pos h50, if_pos h50]
    by_cases hff : m.lowByte (pin 1) = 0xff
    · rw [if_pos hff]
      refine (tcp50_silent m e hff pout poutlen).mono ?_
      rintro r ⟨fs, hall, hop, hout, hlens⟩
      exact .bulk hop hall hall.length_eq.symm hout hlens
    · rw [if_neg hff, tcp50, if_neg hff]
      exact (tcp50Single_silent m e pin pout 0 poutlen 0).mono fun _ hr => hr.ready
  rw [if_neg h50, if_neg h50]
  by_cases h51 : m.lowByte (pin 0) = 0x51
  · rw [if_pos h51, if_pos h51]
    refine (getipEth0_silent m e).bind fun _ _ => Code.Silent.pure (.single (.inr rfl) ?_)
    dsimp only
    rw [store_ackFrame, Function.update_self]
    exact Buf.slice_store pout 0 ackFrame
  · rw [if_neg h51, if_neg h51]
    exact Code.Silent.pure (.none rfl)

/-- Sending the messages one by one off the output buffer, until one cannot be sent. -/
theorem sendBulk_yields (sendOk : Nat → Bool) (pout : Buf) (poutlen : Nat → Int)
    (fs : List (List Byte)) :
    (sendBulk sendOk (pout.store 0 fs.flatten) (putLens fs poutlen) 0
      (List.range fs.length)).Yields fun tr _ =>
        tr <+: fs ∧ ((∀ i, sendOk i = true) → tr = fs) := by
  refine taken_in_turn pout poutlen (C := fun p is post =>
    (sendBulk sendOk _ _ p is).Yields fun tr _ =>
      tr <+: post ∧ ((∀ i, sendOk i = true) → tr = post)) ?_ ?_
  · exact fun _ => ⟨List.nil_prefix, fun _ => rfl⟩
  · intro p i is f post hlen hslice hrest
    rw [sendBulk, hlen, sendOut, hslice]
    cases hok : sendOk i with
    | false =>
      refine ⟨List.nil_prefix, fun hall => ?_⟩
      rw [hall] at hok
      exact absurd hok (by decide)
    | true =>
      rw [if_pos rfl]
      refine Code.Yields.bind (Code.Yields.bind (Code.Yields.send ?_))
      refine hrest.mono ?_
      rintro tr _ ⟨hpre, hall⟩
      exact ⟨(List.prefix_cons_inj f).2 hpre, fun h => congrArg (f :: ·) (hall h)⟩

theorem isNew_silent (sip smask : Word) : (isNew sip smask).Silent fun _ => True := by
  refine (look_silent _).bind fun gip _ => ?_
  split
  · exact Code.Silent.pure trivial
  · exact (look_silent _).bind fun _ _ => Code.Silent.pure trivial

theorem setnewip_silent (m : Machine) (env : FopenEnv) (p : Buf) :
    (setnewip m env p).Silent fun _ => True := by
  unfold setnewip
  split
  · exact Code.Silent.pure trivial
  refine (isNew_silent _ _).bind fun new _ => ?_
  split
  · exact (write_silent _).bind fun _ _ => (write_silent _).bind fun _ _ =>
      (write_silent _).bind fun _ _ => (write_silent _).bind fun _ _ => write_silent _
  · exact Code.Silent.pure trivial

theorem leave_silent (c : Main) : (leave c).Silent fun _ => True := by
  unfold leave
  split
  · exact Code.Silent.pure trivial
  · exact (Code.Silent.modify _).bind fun _ _ => Code.Silent.pure trivial

/-- Silent code behind a turn's sends adds nothing to them. -/
theorem yields_silent {α β : Type} {t : Proc α} {k : α → Proc β} {Q : List (List Byte) → Prop}
    (h : t.Yields fun tr _ => Q tr) (hk : ∀ a, (k a).Silent fun _ => True) :
    (t >>= k).Yields fun tr _ => Q tr := by
  refine Code.Yields.bind (h.mono fun tr a hQ => (hk a).yields fun _ _ => ?_)
  rwa [List.append_nil]

theorem sendOut_yields {m : Machine} (sendOk : Nat → Bool) {k : Kind} {outbuf : Buf} {n : Nat}
    (h : k.Carries m (outbuf.slice 0 n)) :
    (sendOut (sendOk 0) outbuf 0 n).Yields fun tr _ =>
      Answers m [k] (∀ i, sendOk i = true) tr := by
  unfold sendOut
  cases hok : sendOk 0 with
  | false => exact answers_nil m _ fun hall => absurd (hok.symm.trans (hall 0)) (by decide)
  | true =>
    rw [if_pos rfl]
    exact Code.Yields.bind (Code.Yields.send (answers_all (.cons h .nil)))

/-- **The sends of `main`** answer the request. -/
theorem answer_yields {m : Machine} (env : TurnEnv) {ks : List Kind} {r : Reply}
    (h : Ready m ks r) :
    (answer m env ⟨r.pin, r.pout, r.poutlen, true⟩ r.op).Yields fun tr _ =>
      Answers m ks (∀ i, env.sendOk i = true) tr := by
  unfold answer
  cases h with
  | none hop =>
    rw [if_neg (by rw [hop]; decide), if_neg (by rw [hop]; decide), if_neg (by rw [hop]; decide)]
    exact answers_nil m [] fun _ => rfl
  | @single k _ hop hk =>
    rcases hop with hop | hop
    · rw [if_pos hop]
      exact yields_silent (sendOut_yields env.sendOk hk) fun _ => Code.Silent.pure trivial
    · rw [if_neg (by rw [hop]; decide), if_neg (by rw [hop]; decide), if_pos hop]
      refine yields_silent (sendOut_yields env.sendOk hk) fun sent => ?_
      split
      · exact (setnewip_silent m _ _).bind fun _ _ => Code.Silent.pure trivial
      · exact Code.Silent.pure trivial
  | @bulk _ fs pout poutlen _ hop hall hlen hout hlens =>
    rw [if_neg (by rw [hop]; decide), if_pos hop]
    have hsend := sendBulk_yields env.sendOk pout poutlen fs
    rw [hlen, ← hout, ← hlens] at hsend
    refine yields_silent (hsend.mono ?_) fun _ => Code.Silent.pure trivial
    rintro tr _ ⟨hpre, hfull⟩
    exact answers_prefix hall hpre hfull

/-- What `main` owes its client in a turn. -/
def owed (m : Machine) (c : Main) (r : ReadResult) : List Kind :=
  if c.running then
    match r with
    | .error => []
    | .eof => []
    | .data d => replies m (c.buf.store 0 d.bytes)
  else []

/-- **A turn of the loop** answers the request it has read. -/
theorem clientTurn_yields (m : Machine) (env : TurnEnv) (c : Main) (r : ReadResult) :
    (clientTurn m env c r).Yields fun tr _ =>
      Answers m (owed m c r) (∀ i, env.sendOk i = true) tr := by
  unfold clientTurn owed
  cases hrun : c.running with
  | false => exact answers_nil m [] fun _ => rfl
  | true =>
    rw [if_neg (by decide), if_pos rfl]
    cases r with
    | error => exact (leave_silent _).yields fun _ _ => answers_nil m [] fun _ => rfl
    | eof => exact (leave_silent _).yields fun _ _ => answers_nil m [] fun _ => rfl
    | data d =>
      have hlen : (0 : Int) < d.bytes.length := Int.natCast_pos.2 d.pos
      refine (tcp2send_silent m env.eth0 _ hlen c.outbuf c.poutlen).bind_yields fun t ht => ?_
      exact yields_silent (answer_yields env ht) leave_silent

/-! ### The summaries of the thread -/

theorem udpa0_silent (m : Machine) (pin : Buf) : (udpa0 m pin).Silent fun _ => True := by
  unfold udpa0
  split
  · exact (write_silent _).bind fun _ _ => write_silent _
  split
  · exact (write_silent _).bind fun _ _ => (write_silent _).bind fun _ _ =>
      (write_silent _).bind fun _ _ => (write_silent _).bind fun _ _ =>
      (write_silent _).bind fun _ _ => (write_silent _).bind fun _ _ => write_silent _
  · exact Code.Silent.pure trivial

theorem udpafTurn_silent (m : Machine) (pin : Buf) (u : Unit) (i : Fin 8) :
    (udpafTurn m pin u i).Silent fun _ => True := by
  refine (look_silent _).bind fun stat _ => ?_
  split
  · exact write_silent _
  · exact Code.Silent.pure trivial

theorem udpDecode_silent (m : Machine) (pin : Buf) : (udpDecode m pin).Silent fun _ => True := by
  unfold udpDecode
  split
  · exact udpa0_silent m pin
  split
  · exact Code.Silent.foldlM (udpafTurn m pin) (I := fun _ _ => True) trivial
      fun _ i _ _ u _ => udpafTurn_silent m pin u i
  · exact Code.Silent.pure trivial

/-- What `threadUDPr` may push to the client for a datagram. -/
def pushed (m : Machine) (pin : Buf) : List Kind :=
  if crcOk m pin then [.status 0xaf] else []

theorem udp2send_silent (m : Machine) (pin : Buf) {inlen : Int} (hlen : 0 < inlen) (pout : Buf) :
    (udp2send m pin inlen pout).Silent fun r => r.op = 0 →
      pushed m pin = [.status 0xaf] ∧
        ∃ stat, r.pout.slice 0 r.poutlen.toNat = statFrame 0xaf stat := by
  unfold udp2send pushed
  rw [if_neg (by omega)]
  cases hcrc : crcOk m pin with
  | false =>
    rw [if_pos (by decide)]
    refine Code.Silent.pure fun hop => ?_
    have hop' : (-1 : Int) = 0 := hop
    exact absurd hop' (by decide)
  | true =>
    rw [if_neg (by decide), if_pos rfl]
    refine (udpDecode_silent m pin).bind fun _ _ => (storeStats_silent _ 0).bind ?_
    rintro _ ⟨stat, rfl⟩
    refine Code.Silent.pure fun _ => ⟨rfl, stat, ?_⟩
    have hb := store_statFrame m 0xaf stat pout 0
    rw [Buf.offset_zero] at hb
    exact (congrArg (Buf.slice · 0 12) hb).trans (Buf.slice_store pout 0 (statFrame 0xaf stat))

/-- **A turn of the thread** pushes at most the summary its datagram asks for. -/
theorem threadUDPr_yields (m : Machine) (sendOk : Bool) (t : Udp) (d : List Byte) :
    (threadUDPr m sendOk t d).Yields fun tr _ =>
      Answers m (pushed m (t.buf.store 0 d)) False tr := by
  unfold threadUDPr
  split
  case isFalse => exact answers_nil m _ False.elim
  case isTrue hd =>
  refine (udp2send_silent m _ hd t.outbuf).bind_yields fun r hr => ?_
  refine Code.Yields.bind (Code.Yields.get fun newFd => ?_)
  split
  · exact answers_nil m _ False.elim
  split
  case isFalse => exact answers_nil m _ False.elim
  case isTrue hop =>
  split
  case isFalse => exact answers_nil m _ False.elim
  obtain ⟨hpush, stat, hsend⟩ := hr hop
  cases sendOk with
  | false => exact answers_nil m _ False.elim
  | true =>
    refine Code.Yields.bind (Code.Yields.bind (Code.Yields.send ?_))
    rw [hsend, hpush]
    exact answers_all (.cons ⟨stat, rfl⟩ .nil)

/-! ### The process -/

/-- The threads of a child process. -/
inductive Who
  | main
  | udp
  deriving Repr, DecidableEq

def Locals : Who → Type
  | .main => Main
  | .udp => Udp

/-- What a turn of `main` begins with. -/
structure Request where
  env : TurnEnv
  read : ReadResult

/-- What a turn of `threadUDPr` begins with. -/
structure Datagram where
  sendOk : Bool
  bytes : List Byte

def Input : Who → Type
  | .main => Request
  | .udp => Datagram

/-- A turn of either thread. -/
def turn (m : Machine) : (i : Who) → Locals i → Input i → Proc (Locals i)
  | .main, c, x => clientTurn m x.env c x.read
  | .udp, t, x => threadUDPr m x.sendOk t x.bytes

/-- A child process, with the requests and datagrams of its threads. -/
abbrev ChildProcess := System Process (List Byte) Locals Input

/-- A child process that begins with these globals and locals, after the events. -/
def after (m : Machine) (srv : Server) (l : ∀ i, Locals i) (es : List (Event Input)) :
    ChildProcess :=
  es.foldl (next (turn m)) (start ⟨srv, true⟩ l)

/-- The bytes sent on `new_fd`. -/
def stream (y : ChildProcess) : List Byte := y.messages.flatten

/-- What a turn may send. -/
def AnswerOf (m : Machine) : (i : Who) → Locals i → Input i → List (List Byte) → Prop
  | .main, c, x, out => Answers m (owed m c x.read) (∀ i, x.env.sendOk i = true) out
  | .udp, t, x, out => Answers m (pushed m (t.buf.store 0 x.bytes)) False out

theorem turn_yields (m : Machine) (i : Who) (l : Locals i) (x : Input i) :
    (turn m i l x).Yields fun tr _ => AnswerOf m i l x tr := by
  cases i with
  | main => exact clientTurn_yields m x.env l x.read
  | udp => exact threadUDPr_yields m x.sendOk l x.bytes

theorem AnswerOf.isFrame {m : Machine} {i : Who} {l : Locals i} {x : Input i}
    {out : List (List Byte)} (h : AnswerOf m i l x out) {f : List Byte} (hf : f ∈ out) :
    IsFrame f := by
  cases i with
  | main => exact Answers.isFrame h hf
  | udp => exact Answers.isFrame h hf

theorem kept_after (m : Machine) (srv : Server) (l : ∀ i, Locals i) (es : List (Event Input)) :
    Kept (AnswerOf m) (after m srv l es) :=
  run_kept (turn_yields m) (kept_start _ l) es

/-- A row of complete messages can be cut in one way only: the length byte of a message says
where the next one begins. -/
theorem cut_unique {fs gs : List (List Byte)} (hfs : ∀ f ∈ fs, IsFrame f)
    (hgs : ∀ g ∈ gs, IsFrame g) (h : fs.flatten = gs.flatten) : fs = gs := by
  induction fs generalizing gs with
  | nil =>
    cases gs with
    | nil => rfl
    | cons g gs =>
      have hg := (hgs g List.mem_cons_self).four_le
      have hlen := congrArg List.length h
      simp only [List.flatten_nil, List.length_nil, List.flatten_cons, List.length_append] at hlen
      omega
  | cons f fs ih =>
    have hf := hfs f List.mem_cons_self
    have hf4 := hf.four_le
    cases gs with
    | nil =>
      have hlen := congrArg List.length h
      simp only [List.flatten_nil, List.length_nil, List.flatten_cons, List.length_append] at hlen
      omega
    | cons g gs =>
      have hg := hgs g List.mem_cons_self
      have hg4 := hg.four_le
      rw [List.flatten_cons, List.flatten_cons] at h
      have h2 : f.getD 2 0 = g.getD 2 0 := by
        have := congrArg (List.getD · 2 0) h
        rwa [List.getD_append _ _ _ _ (by omega), List.getD_append _ _ _ _ (by omega)] at this
      obtain ⟨rfl, hrest⟩ := List.append_inj h (by rw [hf.1, hg.1, h2])
      rw [ih (fun f hf => hfs f (List.mem_cons_of_mem _ hf))
        (fun g hg => hgs g (List.mem_cons_of_mem _ hg)) hrest]

/-- What a client can rely on. -/
structure Whole (m : Machine) (y : ChildProcess) : Prop where
  /-- The stream is a row of complete messages, and the test a receiver makes passes on each. -/
  frames : ∃ fs : List (List Byte), stream y = fs.flatten ∧ ∀ f ∈ fs, IsFrame f ∧
    ∀ b rest, crcOk m (Buf.store b 0 (f ++ rest)) = true
  /-- There is no other way to cut it into messages. -/
  cut : ∀ fs gs : List (List Byte), (∀ f ∈ fs, IsFrame f) → (∀ g ∈ gs, IsFrame g) →
    stream y = fs.flatten → stream y = gs.flatten → fs = gs
  /-- `main` has finished the requests it has read, in their order, but for the one it is at. -/
  requests : y.begun .main = (y.done .main).map Turn.input ++ (y.phase .main).input
  /-- What it has sent are its answers, in that order. -/
  inOrder : y.sentBy .main = (y.done .main).flatMap Turn.out ++ (y.phase .main).out
  /-- An answer has the messages the request asks for, all of them if no `send` fails. -/
  answered : ∀ t ∈ y.done .main,
    Answers m (owed m t.before t.input.read) (∀ i, t.input.env.sendOk i = true) t.out
  /-- The answer `main` is at will be one of that kind. -/
  answering : ∀ before (input : Request) out rest,
    y.phase .main = .busy before input out rest → ∃ more,
      Answers m (owed m before input.read) (∀ i, input.env.sendOk i = true) (out ++ more)

/-- **A client never sees a broken stream**, however the two threads interleave. -/
theorem stream_whole (m : Machine) (srv : Server) (l : ∀ i, Locals i)
    (es : List (Event Input)) : Whole m (after m srv l es) := by
  have h := kept_after m srv l es
  refine ⟨⟨_, rfl, fun f hf => ?_⟩, fun fs gs hfs hgs hf hg => ?_, h.begun .main, h.sent .main,
    h.done .main, ?_⟩
  · obtain ⟨i, before, input, out, hpost, hmem⟩ := h.mem_messages hf
    have hframe := hpost.isFrame hmem
    exact ⟨hframe, fun b rest => crcOk_of_isFrame m b rest hframe⟩
  · exact cut_unique hfs hgs (hf.symm.trans hg)
  · intro before input out rest hp
    exact h.continued hp

end SerialServer.Stepwise
