import SerialServer.Server.Mrs2lib

/-!
# SerialServer.Server.Replies

What the builders of `mrs2lib.c` write, as messages.

Each builder stores a head, a payload and a check byte at literal offsets; the
lemmas here say that the result is one message stored at the output pointer, and
that the length it reports is that message's length. Callers cite
`tcp50Single_eq`, `tcp50_bulk`, `tcp51_eq` and `udp2send_accepted` and never unfold
the builders.

A bulk reply is nine messages in a row. The loop that builds it is carried by
`BulkInv`, which fixes after every turn where the two pointers stand and what has
been written so far.
-/

namespace SerialServer.Mrs2lib

/-! ### Index bytes -/

/-- The index byte of port `i`. -/
def portIndex (i : Fin 8) : Byte := BitVec.ofNat 8 (0x10 + i)

theorem portIndex_toNat (i : Fin 8) : (portIndex i).toNat = 0x10 + i := by
  revert i
  decide

theorem portIndex_inj {i j : Fin 8} (h : portIndex i = portIndex j) : i = j := by
  have h' := congrArg BitVec.toNat h
  rw [portIndex_toNat, portIndex_toNat] at h'
  exact Fin.ext (by omega)

theorem isPortIndex_portIndex (m : Machine) (i : Fin 8) : isPortIndex m (portIndex i) = true := by
  rw [isPortIndex, Machine.lowByte_toNat, portIndex_toNat]
  simp
  omega

/-- The index byte of a port is none of the other indices. -/
theorem lowByte_portIndex_ne (m : Machine) (i : Fin 8) {w : Word}
    (h : w.toNat < 0x10 ∨ 0x17 < w.toNat) : ¬ m.lowByte (portIndex i) = w := by
  intro heq
  have h' := congrArg BitVec.toNat heq
  rw [Machine.lowByte_toNat, portIndex_toNat] at h'
  omega

theorem slotBits_portIndex (m : Machine) (i : Fin 8) : slotBits m (portIndex i) = i := by
  obtain ⟨order, charSign⟩ := m
  cases charSign <;> revert i <;> simp only [slotBits, Machine.promote] <;> decide

/-- The index bytes of the eight ports are the only ones `isPortIndex` accepts. -/
theorem eq_portIndex {m : Machine} {c : Byte} (h : isPortIndex m c = true) :
    c = portIndex (slotBits m c) := by
  rw [isPortIndex, Machine.lowByte_toNat] at h
  obtain ⟨order, charSign⟩ := m
  cases charSign <;> revert c <;> simp only [slotBits, Machine.promote] <;> decide +kernel

theorem lowByte_eq_lit (m : Machine) (c : Byte) {n : Nat} (hn : n < 256) :
    m.lowByte c = BitVec.ofNat 32 n ↔ c = BitVec.ofNat 8 n := by
  rw [← BitVec.toNat_inj, ← BitVec.toNat_inj, Machine.lowByte_toNat]
  simp only [BitVec.toNat_ofNat]
  omega

theorem lowByte_eq_a0 (m : Machine) (c : Byte) : m.lowByte c = 0xa0 ↔ c = 0xa0 :=
  lowByte_eq_lit m c (by decide)

theorem lowByte_eq_af (m : Machine) (c : Byte) : m.lowByte c = 0xaf ↔ c = 0xaf :=
  lowByte_eq_lit m c (by decide)

/-! ### Single replies -/

/-- The reply to index 0: the interface address and netmask as they lie in memory. -/
def addrFrame (m : Machine) (e : Eth0) : List Byte :=
  withCheck ([0xa0, 0x00, 8] ++ (m.bytesOf e.ip ++ m.bytesOf e.mask))

/-- The acknowledgement of an address change. -/
def ackFrame : List Byte := withCheck [0xa1, 0x00, 2, 0, 0]

/-- The reply to a request with index `idx`, if that index has one. -/
def singleReply (m : Machine) (e : Eth0) (t : Fin 8 → PortStat) (idx : Byte) :
    Option (List Byte) :=
  if m.lowByte idx = 0 then some (addrFrame m e)
  else if isPortIndex m idx then some (portFrame idx (t (slotBits m idx)))
  else if m.lowByte idx = 0x20 then some (statFrame 0xa0 fun i => (t i).stat)
  else none

@[simp] theorem addrFrame_length (m : Machine) (e : Eth0) : (addrFrame m e).length = 12 := by
  simp [addrFrame]

theorem isFrame_addrFrame (m : Machine) (e : Eth0) : IsFrame (addrFrame m e) :=
  isFrame_withCheck (by simp)

theorem isFrame_ackFrame : IsFrame ackFrame := isFrame_withCheck rfl

@[simp] theorem getipEth0_gip (m : Machine) (e : Eth0) (s : Server) :
    (getipEth0 m e s).gip = e.ip := by
  simp [getipEth0, inetAton_inetNtoa]

@[simp] theorem getipEth0_gipmask (m : Machine) (e : Eth0) (s : Server) :
    (getipEth0 m e s).gipmask = e.mask := by
  simp [getipEth0, inetAton_inetNtoa]

@[simp] theorem getipEth0_gportStat (m : Machine) (e : Eth0) (s : Server) :
    (getipEth0 m e s).gportStat = s.gportStat := rfl

/-- The globals after a request with index `idx`: index 0 reads the interface. -/
def afterSingle (m : Machine) (e : Eth0) (s : Server) (idx : Byte) : Server :=
  if m.lowByte idx = 0 then getipEth0 m e s else s

@[simp] theorem afterSingle_gportStat (m : Machine) (e : Eth0) (s : Server) (idx : Byte) :
    (afterSingle m e s idx).gportStat = s.gportStat := by
  unfold afterSingle
  split <;> rfl

/-! ### What the builders store -/

theorem store_addrFrame (m : Machine) (e : Eth0) (pout : Buf) (p : Nat) :
    (((pout.store p [0xa0, 0x00, 8]).store (p + 3) (m.bytesOf e.ip)).store (p + 7)
        (m.bytesOf e.mask)).store (p + 11) [chr (crc m ((((pout.store p [0xa0, 0x00, 8]).store
          (p + 3) (m.bytesOf e.ip)).store (p + 7) (m.bytesOf e.mask)).offset p))] =
      pout.store p (addrFrame m e) := by
  have hw : ((pout.store p [0xa0, 0x00, 8]).store (p + 3) (m.bytesOf e.ip)).store (p + 7)
      (m.bytesOf e.mask) =
        (pout.store p [0xa0, 0x00, 8]).store (p + 3) (m.bytesOf e.ip ++ m.bytesOf e.mask) := by
    rw [← Buf.store_store, Machine.bytesOf_length]
  have hb := store_frame m pout p [0xa0, 0x00, 8] (m.bytesOf e.ip ++ m.bytesOf e.mask) rfl (by simp)
  rw [List.length_append, Machine.bytesOf_length, Machine.bytesOf_length] at hb
  rw [hw]
  exact hb

theorem store_ackFrame (m : Machine) (pout : Buf) :
    (pout.store 0 [0xa1, 0x00, 2, 0, 0]).store 5
        [chr (crc m (pout.store 0 [0xa1, 0x00, 2, 0, 0]))] = pout.store 0 ackFrame := by
  have hb := store_frame m pout 0 [0xa1, 0x00, 2] [0, 0] rfl rfl
  have hw : (pout.store 0 [0xa1, 0x00, 2]).store (0 + 3) [0, 0] =
      pout.store 0 [0xa1, 0x00, 2, 0, 0] := Buf.store_store pout 0 [0xa1, 0x00, 2] [0, 0]
  rw [hw, Buf.offset_zero] at hb
  exact hb

/-- **What a single request does**: it writes its reply at the output pointer, reports
that reply's length, and leaves the request as it was. -/
theorem tcp50Single_eq (m : Machine) (e : Eth0) (s : Server) (pin pout : Buf) (p : Nat)
    (poutlen : Nat → Int) (pi : Nat) :
    tcp50Single m e s pin pout p poutlen pi =
      match singleReply m e s.gportStat (pin 1) with
      | some f => ⟨0, pin, pout.store p f, Function.update poutlen pi f.length,
          afterSingle m e s (pin 1)⟩
      | none => ⟨-1, pin, pout, poutlen, s⟩ := by
  unfold tcp50Single singleReply afterSingle
  by_cases h0 : m.lowByte (pin 1) = 0
  · rw [if_pos h0, if_pos h0, if_pos h0]
    dsimp only
    rw [getipEth0_gip, getipEth0_gipmask, store_addrFrame, addrFrame_length]
    rfl
  rw [if_neg h0, if_neg h0, if_neg h0]
  by_cases hp : isPortIndex m (pin 1) = true
  · rw [if_pos hp, if_pos hp]
    dsimp only
    rw [crc, store_portFrame, portFrame_length]
    rfl
  rw [if_neg hp, if_neg hp]
  by_cases h20 : m.lowByte (pin 1) = 0x20
  · have h1 : pin 1 = 0x20 := (lowByte_eq_lit m (pin 1) (by decide)).1 h20
    rw [if_pos h20, if_pos h20]
    dsimp only
    rw [crc, h1, store_statFrame, statFrame_length]
    rfl
  rw [if_neg h20, if_neg h20]

/-- An address change is acknowledged; the interface is read, nothing else happens yet. -/
theorem tcp51_eq (m : Machine) (e : Eth0) (s : Server) (pin pout : Buf) (poutlen : Nat → Int) :
    tcp51 m e s pin pout poutlen =
      ⟨0x51, pin, pout.store 0 ackFrame, Function.update poutlen 0 6, getipEth0 m e s⟩ := by
  rw [← store_ackFrame m pout]
  rfl

/-! ### Bulk replies -/

/-- The messages of a bulk reply: the address, then the first `n` ports. -/
def bulkFrames (m : Machine) (e : Eth0) (t : Fin 8 → PortStat) (n : Nat) : List (List Byte) :=
  addrFrame m e :: ((List.finRange 8).take n).map fun i => portFrame (portIndex i) (t i)

theorem bulkFrames_succ (m : Machine) (e : Eth0) (t : Fin 8 → PortStat) {n : Nat} (h : n < 8) :
    bulkFrames m e t (n + 1) =
      bulkFrames m e t n ++ [portFrame (portIndex ⟨n, h⟩) (t ⟨n, h⟩)] := by
  have hlen : n < (List.finRange 8).length := by rwa [List.length_finRange]
  have hn : (List.finRange 8)[n] = ⟨n, h⟩ := by simp
  rw [bulkFrames, bulkFrames, ← List.take_concat_get' _ _ hlen, List.map_append, hn]
  rfl

/-- The array of reply lengths after the messages `fs` have been written. -/
def putLens (fs : List (List Byte)) (poutlen : Nat → Int) : Nat → Int := fun j =>
  fs[j]?.elim (poutlen j) fun f => f.length

theorem putLens_snoc (fs : List (List Byte)) (f : List Byte) (poutlen : Nat → Int) :
    Function.update (putLens fs poutlen) fs.length f.length = putLens (fs ++ [f]) poutlen := by
  funext j
  rcases Nat.lt_trichotomy j fs.length with hj | rfl | hj
  · rw [Function.update_of_ne (by omega), putLens, putLens, List.getElem?_append_left hj]
  · simp [putLens]
  · rw [Function.update_of_ne (by omega), putLens, putLens, List.getElem?_eq_none (by omega),
      List.getElem?_eq_none (by simp; omega)]

theorem putLens_mid (pre post : List (List Byte)) (f : List Byte) (poutlen : Nat → Int) :
    (putLens (pre ++ f :: post) poutlen pre.length).toNat = f.length := by
  simp [putLens]

/-- A message stored behind others. -/
theorem store_flatten_snoc (b : Buf) (fs : List (List Byte)) (f : List Byte) :
    (b.store 0 fs.flatten).store fs.flatten.length f = b.store 0 (fs ++ [f]).flatten := by
  have h := Buf.store_store b 0 fs.flatten f
  rw [Nat.zero_add] at h
  rw [h, List.flatten_append, List.flatten_singleton]

/-- One of the stored messages, read back. -/
theorem slice_flatten_mid (b : Buf) (pre post : List (List Byte)) (f : List Byte) :
    (b.store 0 (pre ++ f :: post).flatten).slice pre.flatten.length f.length = f := by
  have h := Buf.slice_store_mid b pre.flatten f post.flatten
  rwa [List.append_assoc, ← List.flatten_cons, ← List.flatten_append] at h

/-- **Messages that stand one behind the other are taken off the buffer one by one.** `C` is
about an offset, the numbers of the messages from there on, and the messages. -/
theorem taken_in_turn (b : Buf) (poutlen : Nat → Int) {fs : List (List Byte)}
    {C : Nat → List Nat → List (List Byte) → Prop} (hnil : ∀ p, C p [] [])
    (hcons : ∀ p i is f post, (putLens fs poutlen i).toNat = f.length →
      (b.store 0 fs.flatten).slice p f.length = f → C (p + f.length) is post →
        C p (i :: is) (f :: post)) :
    C 0 (List.range fs.length) fs := by
  have hall : ∀ pre post, pre ++ post = fs →
      C pre.flatten.length (List.range' pre.length post.length) post := by
    intro pre post hfs
    induction post generalizing pre with
    | nil => exact hnil _
    | cons f post ih =>
      have hrest := ih (pre ++ [f]) (by rw [List.append_assoc]; exact hfs)
      have hlen : (pre ++ [f]).flatten.length = pre.flatten.length + f.length := by simp
      rw [hlen, List.length_append, List.length_singleton] at hrest
      rw [List.length_cons, List.range'_succ]
      subst hfs
      exact hcons _ _ _ f post (putLens_mid pre post f poutlen) (slice_flatten_mid b pre post f)
        hrest
  rw [List.range_eq_range']
  exact hall [] fs rfl

/-- What holds between two turns of the loop of a bulk request, `fs` being the messages
written so far. -/
structure BulkInv (m : Machine) (e : Eth0) (s : Server) (pout : Buf) (poutlen : Nat → Int)
    (fs : List (List Byte)) (b : Bulk) : Prop where
  /-- `pi` points at the length of the last message. -/
  last : b.pi + 1 = fs.length
  /-- The next message goes right behind the last. -/
  next : b.p + (b.tcp.poutlen b.pi).toNat = fs.flatten.length
  written : b.tcp.pout = pout.store 0 fs.flatten
  lens : b.tcp.poutlen = putLens fs poutlen
  srv : b.tcp.srv = getipEth0 m e s

/-- A turn of the loop appends the record of its port. -/
theorem bulkTurn_inv {m : Machine} {e : Eth0} {s : Server} {pout : Buf} {poutlen : Nat → Int}
    {fs : List (List Byte)} {b : Bulk} (h : BulkInv m e s pout poutlen fs b) (i : Fin 8) :
    BulkInv m e s pout poutlen (fs ++ [portFrame (portIndex i) (s.gportStat i)])
      (bulkTurn m e b i) := by
  have hpin : b.tcp.pin.store 1 [portIndex i] 1 = portIndex i := by
    simp [Buf.store]
  have h0 : ¬ m.lowByte (portIndex i) = 0 := lowByte_portIndex_ne m i (.inl (by decide))
  have hreply : singleReply m e b.tcp.srv.gportStat (portIndex i) =
      some (portFrame (portIndex i) (s.gportStat i)) := by
    rw [singleReply, if_neg h0, if_pos (isPortIndex_portIndex m i), slotBits_portIndex, h.srv,
      getipEth0_gportStat]
  have hturn := tcp50Single_eq m e b.tcp.srv (b.tcp.pin.store 1 [portIndex i]) b.tcp.pout
    (b.p + (b.tcp.poutlen b.pi).toNat) b.tcp.poutlen (b.pi + 1)
  rw [hpin, hreply, afterSingle, if_neg h0] at hturn
  have hb : bulkTurn m e b i = ⟨b.p + (b.tcp.poutlen b.pi).toNat, b.pi + 1, _⟩ :=
    congrArg (Bulk.mk _ _) hturn
  rw [hb]
  have hw := store_flatten_snoc pout fs (portFrame (portIndex i) (s.gportStat i))
  rw [← h.written] at hw
  constructor
  · simpa using h.last
  · simp [h.next]
  · simpa only [h.next] using hw
  · show Function.update b.tcp.poutlen (b.pi + 1) _ = _
    rw [h.last, h.lens, putLens_snoc]
  · exact h.srv

/-- What a request handler gives its caller: everything but the request buffer. -/
def Tcp.result (r : Tcp) : Int × Buf × (Nat → Int) × Server := (r.op, r.pout, r.poutlen, r.srv)

/-- **What a bulk request does**: nine messages in a row, each with its length, and the
interface address read once. -/
theorem tcp50_bulk (m : Machine) (e : Eth0) (s : Server) {pin : Buf}
    (hidx : m.lowByte (pin 1) = 0xff) (pout : Buf) (poutlen : Nat → Int) :
    (tcp50 m e s pin pout poutlen).result =
      (9, pout.store 0 (bulkFrames m e s.gportStat 8).flatten,
        putLens (bulkFrames m e s.gportStat 8) poutlen, getipEth0 m e s) := by
  have hpin : pin.store 1 [0x0] 1 = 0x0 := by
    simp [Buf.store]
  have h0 : m.lowByte 0x0 = 0 := (lowByte_eq_lit m 0x0 (by decide)).2 rfl
  have hfirst := tcp50Single_eq m e s (pin.store 1 [0x0]) pout 0 poutlen 0
  rw [hpin, singleReply, if_pos h0, afterSingle, if_pos h0] at hfirst
  -- The induction is on the number of turns taken, over the messages written by then.
  have hinv : ∀ n ≤ 8, BulkInv m e s pout poutlen (bulkFrames m e s.gportStat n)
      ((List.range n).foldl (bulkTurn m e)
        ⟨0, 0, tcp50Single m e s (pin.store 1 [0x0]) pout 0 poutlen 0⟩) := by
    intro n
    induction n with
    | zero =>
      intro _
      rw [hfirst]
      refine ⟨rfl, ?_, ?_, ?_, rfl⟩
      · simp [bulkFrames]
      · simp [bulkFrames]
      · exact putLens_snoc [] (addrFrame m e) poutlen
    | succ n ih =>
      intro hn
      have hturn := bulkTurn_inv (ih (by omega)) (⟨n, hn⟩ : Fin 8)
      rw [List.range_succ, List.foldl_append, bulkFrames_succ m e s.gportStat hn]
      exact hturn
  obtain ⟨-, -, hpout, hlens, hsrv⟩ := hinv 8 (Nat.le_refl _)
  rw [tcp50, if_pos hidx, ← hpout, ← hlens, ← hsrv]
  rfl

/-! ### Datagrams -/

/-- The globals after a datagram that passed the checksum. -/
def udpApply (m : Machine) (s : Server) (pin : Buf) : Server :=
  if m.lowByte (pin 0) = 0xa0 then (udpa0 m s pin).srv
  else if m.lowByte (pin 0) = 0xaf then (udpaf m s pin 0).srv
  else s

/-- The summary `udp2send` sends on: the `stat` fields of the whole table. -/
def summary (s : Server) : List Byte := statFrame 0xaf fun i => (s.gportStat i).stat

/-- **What an accepted datagram does**: the decoder of its type changes the globals, and
the summary of the new table is ready for the client. -/
theorem udp2send_accepted {m : Machine} {pin : Buf} {inlen : Int} (hlen : 0 < inlen)
    (hcrc : crcOk m pin = true) (s : Server) (pout : Buf) (poutlen : Int) :
    udp2send m s pin inlen pout poutlen =
      ⟨0, pout.store 0 (summary (udpApply m s pin)), 12, udpApply m s pin⟩ := by
  have hsrv : (if m.lowByte (pin 0) = 0xa0 then udpa0 m s pin
      else if m.lowByte (pin 0) = 0xaf then udpaf m s pin poutlen
      else ⟨-1, 0, s⟩ : Decoded).srv = udpApply m s pin := by
    unfold udpApply
    split
    · rfl
    · split <;> rfl
  have hb := store_statFrame m 0xaf (fun i => ((udpApply m s pin).gportStat i).stat) pout 0
  rw [Buf.offset_zero] at hb
  rw [udp2send, if_neg (by omega), if_neg (by simp [hcrc])]
  dsimp only
  rw [hsrv, summary, ← hb]
  rfl

/-- A datagram that fails the checksum, or has no bytes, does nothing. -/
theorem udp2send_rejected {m : Machine} {pin : Buf} {inlen : Int}
    (h : inlen ≤ 0 ∨ crcOk m pin = false) (s : Server) (pout : Buf) (poutlen : Int) :
    udp2send m s pin inlen pout poutlen = ⟨-1, pout, 0, s⟩ := by
  unfold udp2send
  by_cases hlen : inlen ≤ 0
  · rw [if_pos hlen]
  · have hcrc : crcOk m pin = false := h.resolve_left hlen
    rw [if_neg hlen, if_pos (by simp [hcrc])]

/-- The record `udpa0` reads is the one a broadcast carries. -/
theorem udpRecord_portFrame (m : Machine) (b : Buf) (idx : Byte) {r : PortStat} (h : r.InBytes) :
    udpRecord m (b.store 0 (portFrame idx r)) = r := by
  have byte : ∀ k < 14, b.store 0 (portFrame idx r) k = (portFrame idx r).getD k 0 :=
    fun k hk => store_zero (by rw [portFrame_length]; exact hk)
  rw [udpRecord, Buf.loadInt, Machine.ntohl_ofBytes]
  simp only [Machine.lowByte_eq, byte, Nat.reduceLT, Nat.reduceAdd]
  exact PortStat.decode_payload h

/-- A record replaces the record of the port its index names. -/
theorem udpApply_a0 {m : Machine} {b : Buf} (h : b 0 = 0xa0) (s : Server) (i : Fin 8) :
    (udpApply m s b).gportStat i = if b 1 = portIndex i then udpRecord m b else s.gportStat i := by
  rw [udpApply, if_pos ((lowByte_eq_a0 m _).2 h)]
  unfold udpa0
  by_cases hi : b 1 = portIndex i
  · have hz : ¬ m.lowByte (portIndex i) = 0 := lowByte_portIndex_ne m i (.inl (by decide))
    rw [if_pos hi, hi, if_neg hz, if_pos (isPortIndex_portIndex m i), slotBits_portIndex]
    exact Function.update_self ..
  rw [if_neg hi]
  by_cases hz : m.lowByte (b 1) = 0
  · rw [if_pos hz]
  rw [if_neg hz]
  by_cases hp : isPortIndex m (b 1) = true
  · rw [if_pos hp]
    -- The index names a port, but not this one.
    refine Function.update_of_ne ?_ ..
    rintro rfl
    exact hi (eq_portIndex hp)
  · rw [if_neg hp]

theorem udpafRecord_eq (m : Machine) (c : Byte) (r : PortStat) :
    udpafRecord m c r = { r with stat := m.lowByte c } := by
  unfold udpafRecord
  dsimp only
  by_cases hs : m.lowByte c = r.stat
  · rw [if_neg (not_not_intro hs), hs]
  · rw [if_pos hs]

/-- A status message replaces the status of every port. -/
theorem udpApply_af {m : Machine} {b : Buf} (h : b 0 = 0xaf) (s : Server) (i : Fin 8) :
    (udpApply m s b).gportStat i = { s.gportStat i with stat := m.lowByte (b (3 + i)) } := by
  have hne : ¬ m.lowByte (b 0) = 0xa0 := by
    rw [lowByte_eq_a0, h]
    decide
  rw [udpApply, if_neg hne, if_pos ((lowByte_eq_af m _).2 h)]
  exact udpafRecord_eq m _ _

/-- Any other type changes nothing. -/
theorem udpApply_other {m : Machine} {b : Buf} (ha0 : b 0 ≠ 0xa0) (haf : b 0 ≠ 0xaf)
    (s : Server) : udpApply m s b = s := by
  rw [udpApply, if_neg (mt (lowByte_eq_a0 m _).1 ha0), if_neg (mt (lowByte_eq_af m _).1 haf)]

/-- A broadcast record replaces the record of its port and nothing else. -/
theorem udpApply_portFrame (m : Machine) (s : Server) (b : Buf) (i : Fin 8) {r : PortStat}
    (h : r.InBytes) :
    (udpApply m s (b.store 0 (portFrame (portIndex i) r))).gportStat =
      Function.update s.gportStat i r := by
  have h0 : b.store 0 (portFrame (portIndex i) r) 0 = 0xa0 :=
    store_zero (by rw [portFrame_length]; omega)
  have h1 : b.store 0 (portFrame (portIndex i) r) 1 = portIndex i :=
    store_zero (by rw [portFrame_length]; omega)
  funext j
  rw [udpApply_a0 h0, h1, udpRecord_portFrame m b _ h]
  by_cases hj : j = i
  · rw [hj, if_pos rfl, Function.update_self]
  · have hne : portIndex i ≠ portIndex j := fun heq => hj (portIndex_inj heq).symm
    rw [if_neg hne, Function.update_of_ne hj]

/-! ### Requests -/

/-- A request that passes the checksum is answered by the handler of its type. -/
theorem tcp2send_accepted {m : Machine} {pin : Buf} {inlen : Int} (hlen : 0 < inlen)
    (hcrc : crcOk m pin = true) (e : Eth0) (s : Server) (pout : Buf) (poutlen : Nat → Int) :
    tcp2send m e s pin inlen pout poutlen =
      if m.lowByte (pin 0) = 0x50 then tcp50 m e s pin pout poutlen
      else if m.lowByte (pin 0) = 0x51 then tcp51 m e s pin pout poutlen
      else ⟨-1, pin, pout, Function.update poutlen 0 0, s⟩ := by
  rw [tcp2send, if_neg (by omega), if_neg (by simp [hcrc])]

/-- A request that fails the checksum, or has no bytes, does nothing. -/
theorem tcp2send_rejected {m : Machine} {pin : Buf} {inlen : Int}
    (h : inlen ≤ 0 ∨ crcOk m pin = false) (e : Eth0) (s : Server) (pout : Buf)
    (poutlen : Nat → Int) :
    tcp2send m e s pin inlen pout poutlen = ⟨-1, pin, pout, Function.update poutlen 0 0, s⟩ := by
  unfold tcp2send
  by_cases hlen : inlen ≤ 0
  · rw [if_pos hlen]
  · have hcrc : crcOk m pin = false := h.resolve_left hlen
    rw [if_neg hlen, if_pos (by simp [hcrc])]

/-- A request for one port is answered with that port's record. -/
theorem tcp50_port (m : Machine) (e : Eth0) (s : Server) {pin : Buf} {i : Fin 8}
    (hidx : pin 1 = portIndex i) (pout : Buf) (poutlen : Nat → Int) :
    tcp50 m e s pin pout poutlen =
      ⟨0, pin, pout.store 0 (portFrame (portIndex i) (s.gportStat i)),
        Function.update poutlen 0 14, s⟩ := by
  have hff : ¬ m.lowByte (portIndex i) = 0xff := lowByte_portIndex_ne m i (.inr (by decide))
  have h0 : ¬ m.lowByte (portIndex i) = 0 := lowByte_portIndex_ne m i (.inl (by decide))
  rw [tcp50, hidx, if_neg hff, tcp50Single_eq, hidx, singleReply, if_neg h0,
    if_pos (isPortIndex_portIndex m i), slotBits_portIndex, afterSingle, if_neg h0]
  rfl

end SerialServer.Mrs2lib
