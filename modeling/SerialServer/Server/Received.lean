import SerialServer.Server.Replies

/-!
# SerialServer.Server.Received

Which bytes of a receive buffer the handlers of `mrs2lib.c` look at.

A handler is given a buffer and a length and uses the length for its sign only. What
it reads is fixed by the message itself: the acceptance test reads up to the byte its
length byte points at, the decoder of a type reads the fields of that type, wherever
the message ends. `udpFields` and `tcpFields` say how many payload bytes those are.

The results here come in pairs: buffers that agree as far as a handler reads give the
same result, and a change to the last byte it reads is noticed.
-/

namespace SerialServer

/-! ### Truncated messages -/

/-- The bytes that follow a truncated message can always complete it: whatever was
received, if it ends before its check byte then some buffer that has received it passes
the acceptance test. -/
theorem exists_completion (m : Machine) {d : List Byte}
    (h : d.length < 4 ∨ d.length < (d.getD 2 0).toNat + 4) :
    ∃ b, Buf.Receives d b ∧ crcOk m b = true := by
  obtain ⟨n, hn⟩ : ∃ n, n = (Buf.ofList d 2).toNat + 3 := ⟨_, rfl⟩
  have hlen : d.length ≤ n := by
    rcases h with h | h
    · omega
    · have h2 : Buf.ofList d 2 = d.getD 2 0 := rfl
      rw [hn, h2]
      omega
  -- The check byte of what is there, put where the test looks for it.
  obtain ⟨b, hb⟩ : ∃ b, b = (Buf.ofList d).store n [checkByte ((Buf.ofList d).slice 0 n)] :=
    ⟨_, rfl⟩
  have hagree : Buf.Agree n (Buf.ofList d) b := fun i hi => by rw [hb, Buf.store_lt hi]
  refine ⟨b, (Buf.receives_ofList d).of_agree (hagree.mono hlen), ?_⟩
  have h2 : b 2 = Buf.ofList d 2 := (hagree 2 (by omega)).symm
  have hlast : b n = checkByte ((Buf.ofList d).slice 0 n) := by
    have h' : (Buf.ofList d).store n [checkByte ((Buf.ofList d).slice 0 n)] (n + 0) = _ :=
      Buf.store_add (by simp)
    rw [hb]
    exact h'
  have hs : b.slice 0 (n + 1) = withCheck ((Buf.ofList d).slice 0 n) := by
    rw [Buf.slice_succ, Nat.zero_add, ← hagree.slice (Nat.le_refl n), hlast, withCheck]
  rw [crcOk_iff, h2, show (Buf.ofList d 2).toNat + 4 = n + 1 by omega, hs, sum_withCheck]

namespace Mrs2lib

/-! ### Datagrams -/

/-- How many payload bytes the decoder of a datagram reads. -/
def udpFields (m : Machine) (pin : Buf) : Nat :=
  if m.lowByte (pin 0) = 0xa0 then
    if m.lowByte (pin 1) = 0 then 8 else if isPortIndex m (pin 1) then 10 else 0
  else if m.lowByte (pin 0) = 0xaf then 8
  else 0

/-- The fields of a record are within ten payload bytes. -/
theorem udpRecord_congr {m : Machine} {p q : Buf} (h : Buf.Agree 13 p q) :
    udpRecord m p = udpRecord m q := by
  simp only [udpRecord, h.loadInt (p := 9) (by omega), h 3 (by omega), h 4 (by omega),
    h 5 (by omega), h 6 (by omega), h 7 (by omega), h 8 (by omega)]

/-- A datagram's effect is decided by its head and the fields of its type. -/
theorem udpApply_congr {m : Machine} {p q : Buf} (h : Buf.Agree (3 + udpFields m p) p q)
    (s : Server) : udpApply m s p = udpApply m s q := by
  have h0 : p 0 = q 0 := h 0 (by omega)
  have h1 : p 1 = q 1 := h 1 (by omega)
  unfold udpFields at h
  unfold udpApply udpa0 udpaf
  rw [← h0, ← h1]
  by_cases ha0 : m.lowByte (p 0) = 0xa0
  · rw [if_pos ha0] at h
    rw [if_pos ha0, if_pos ha0]
    by_cases hi0 : m.lowByte (p 1) = 0
    · rw [if_pos hi0] at h
      rw [if_pos hi0, if_pos hi0]
      simp only [h.loadInt (p := 3) (by omega), h.loadInt (p := 7) (by omega)]
    rw [if_neg hi0] at h
    rw [if_neg hi0, if_neg hi0]
    by_cases hp : isPortIndex m (p 1) = true
    · rw [if_pos hp] at h
      rw [if_pos hp, if_pos hp]
      simp only [udpRecord_congr h]
    · rw [if_neg hp, if_neg hp]
  rw [if_neg ha0] at h
  rw [if_neg ha0, if_neg ha0]
  by_cases haf : m.lowByte (p 0) = 0xaf
  · rw [if_pos haf] at h
    rw [if_pos haf, if_pos haf]
    have hb : ∀ i : Fin 8, p (3 + i) = q (3 + i) := fun i => h _ (by omega)
    simp only [hb]
  · rw [if_neg haf, if_neg haf]

/-- The last byte of the fields matters: a buffer that differs there has another effect. -/
theorem udpApply_last {m : Machine} {p q : Buf} (hf : 0 < udpFields m p)
    (h : Buf.Agree (2 + udpFields m p) p q)
    (hlast : p (2 + udpFields m p) ≠ q (2 + udpFields m p)) (s : Server) :
    udpApply m s p ≠ udpApply m s q := by
  have h0 : p 0 = q 0 := h 0 (by omega)
  have h1 : p 1 = q 1 := h 1 (by omega)
  unfold udpFields at hf h hlast
  unfold udpApply udpa0 udpaf
  rw [← h0, ← h1]
  by_cases ha0 : m.lowByte (p 0) = 0xa0
  · rw [if_pos ha0] at hf h hlast
    rw [if_pos ha0, if_pos ha0]
    by_cases hi0 : m.lowByte (p 1) = 0
    · rw [if_pos hi0] at hlast
      rw [if_pos hi0, if_pos hi0]
      intro heq
      have hmask := congrArg Server.gipmask heq
      simp only [Buf.loadInt, Machine.ntohl_ofBytes] at hmask
      obtain ⟨-, -, -, hbyte⟩ := ofNetBytes_inj hmask
      exact hlast hbyte
    rw [if_neg hi0] at hf hlast
    rw [if_neg hi0, if_neg hi0]
    by_cases hp : isPortIndex m (p 1) = true
    · rw [if_pos hp] at hlast
      rw [if_pos hp, if_pos hp]
      intro heq
      have hrec := congrFun (congrArg Server.gportStat heq) (slotBits m (p 1))
      simp only [Function.update_self] at hrec
      have hip := congrArg PortStat.ip hrec
      simp only [udpRecord, Buf.loadInt, Machine.ntohl_ofBytes] at hip
      obtain ⟨-, -, -, hbyte⟩ := ofNetBytes_inj hip
      exact hlast hbyte
    · rw [if_neg hp] at hf
      omega
  rw [if_neg ha0] at hf hlast
  rw [if_neg ha0, if_neg ha0]
  by_cases haf : m.lowByte (p 0) = 0xaf
  · rw [if_pos haf] at hlast
    rw [if_pos haf, if_pos haf]
    intro heq
    have hrec := congrFun (congrArg Server.gportStat heq) 7
    have h7 := congrArg PortStat.stat hrec
    simp only [udpafRecord_eq] at h7
    exact hlast (Machine.lowByte_inj h7)
  · rw [if_neg haf] at hf
    omega

/-! ### Requests -/

/-- How many payload bytes are read on account of a request: `setnewip` skips one and
reads an address and a mask; a query is answered from its head. -/
def tcpFields (m : Machine) (pin : Buf) : Nat :=
  if m.lowByte (pin 0) = 0x51 then 9 else 0

/-- What `setnewip` leaves in the globals is decided by the type and those nine bytes. -/
theorem setnewip_congr {m : Machine} {p q : Buf} (h : Buf.Agree (3 + tcpFields m p) p q)
    (env : FopenEnv) (s : Server) : setnewip m env s p = setnewip m env s q := by
  have h0 : p 0 = q 0 := h 0 (by omega)
  unfold tcpFields at h
  unfold setnewip
  rw [← h0]
  by_cases h51 : m.lowByte (p 0) = 0x51
  · rw [if_pos h51] at h
    rw [if_neg (not_not_intro h51), if_neg (not_not_intro h51)]
    simp only [h.loadInt (p := 4) (by omega), h.loadInt (p := 8) (by omega)]
  · rw [if_pos h51, if_pos h51]

/-- Whatever the address was, after `setnewip` it is the one in the request. -/
theorem setnewip_address {m : Machine} {p : Buf} (h : m.lowByte (p 0) = 0x51) (env : FopenEnv)
    (s : Server) :
    (setnewip m env s p).2.gip = p.loadInt m 4 ∧
      (setnewip m env s p).2.gipmask = p.loadInt m 8 := by
  unfold setnewip
  rw [if_neg (not_not_intro h)]
  by_cases hne : p.loadInt m 4 ≠ s.gip ∨ p.loadInt m 8 ≠ s.gipmask
  · simp only [if_pos hne]
    exact ⟨trivial, trivial⟩
  · rw [not_or, not_not, not_not] at hne
    simp [hne]

theorem setnewip_last {m : Machine} {p q : Buf} (hf : 0 < tcpFields m p)
    (h : Buf.Agree (2 + tcpFields m p) p q)
    (hlast : p (2 + tcpFields m p) ≠ q (2 + tcpFields m p)) (env : FopenEnv) (s : Server) :
    setnewip m env s p ≠ setnewip m env s q := by
  have h0 : p 0 = q 0 := h 0 (by omega)
  unfold tcpFields at hf hlast
  by_cases h51 : m.lowByte (p 0) = 0x51
  · rw [if_pos h51] at hlast
    intro heq
    obtain ⟨-, hp⟩ := setnewip_address h51 env s
    obtain ⟨-, hq⟩ := setnewip_address (h0 ▸ h51) env s
    rw [heq, hq] at hp
    obtain ⟨-, -, -, hbyte⟩ := Machine.ofBytes_inj hp
    exact hlast hbyte.symm
  · rw [if_neg h51] at hf
    omega

/-- A query reads the index byte and nothing else of the message. -/
theorem tcp50_congr {m : Machine} {p q : Buf} (h : p 1 = q 1) (e : Eth0) (s : Server) (pout : Buf)
    (poutlen : Nat → Int) :
    (tcp50 m e s p pout poutlen).result = (tcp50 m e s q pout poutlen).result := by
  by_cases hff : m.lowByte (p 1) = 0xff
  · rw [tcp50_bulk m e s hff, tcp50_bulk m e s (h ▸ hff)]
  · have hff' : ¬ m.lowByte (q 1) = 0xff := h ▸ hff
    rw [tcp50, if_neg hff, tcp50, if_neg hff', tcp50Single_eq, tcp50Single_eq, h]
    cases singleReply m e s.gportStat (q 1) <;> rfl

end Mrs2lib

end SerialServer
