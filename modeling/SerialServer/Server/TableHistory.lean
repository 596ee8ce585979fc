import SerialServer.Core.LastWriter
import SerialServer.Server.Mrs2s

/-!
# SerialServer.Server.TableHistory

What the server's table holds after a history of datagrams.

A record of a port overwrites its slot, a status message the `stat` field of all slots,
and everything else leaves the table alone. So each slot is two registers of the
receive loop in the sense of `Core.LastWriter`, the settings and the status, and the
table after any history is read off the last datagram that wrote each.

The receive buffer is shared by all datagrams. `LongEnough` is what keeps them apart:
such a datagram has every byte `udp2send` reads, so leftovers do not matter and the loop
acts on the datagram alone (`threadUDPr_srv`).
-/

namespace SerialServer.Mrs2s

open Mrs2lib

/-- The datagram has every byte that `udp2send` reads of it. -/
def LongEnough (m : Machine) (d : List Byte) : Prop :=
  0 < d.length →
    (d.getD 2 0).toNat + 4 ≤ d.length ∧
      (crcOk m (Buf.ofList d) = true → 3 + udpFields m (Buf.ofList d) ≤ d.length)

instance (m : Machine) (d : List Byte) : Decidable (LongEnough m d) :=
  inferInstanceAs (Decidable (_ → _))

/-- Accepted: a correct checksum, and a type that is handled. -/
def accepted (m : Machine) (d : List Byte) : Bool :=
  decide (0 < d.length) && crcOk m (Buf.ofList d) &&
    (decide (d.getD 0 0 = 0xa0) || decide (d.getD 0 0 = 0xaf))

/-- An accepted record of port `i`. -/
def isRecord (m : Machine) (i : Fin 8) (d : List Byte) : Bool :=
  accepted m d && decide (d.getD 0 0 = 0xa0) && decide (d.getD 1 0 = portIndex i)

/-- An accepted message that carries the status of port `i`. -/
def isStatus (m : Machine) (i : Fin 8) (d : List Byte) : Bool :=
  isRecord m i d || (accepted m d && decide (d.getD 0 0 = 0xaf))

/-- The record such a message carries. -/
def recordOf (m : Machine) (d : List Byte) : PortStat := udpRecord m (Buf.ofList d)

/-- The status of port `i` in such a message. -/
def statusOf (m : Machine) (i : Fin 8) (d : List Byte) : Word :=
  if d.getD 0 0 = 0xa0 then m.lowByte (d.getD 3 0) else m.lowByte (d.getD (3 + i) 0)

/-- What a datagram does to the globals, by its own bytes. -/
def deliver (m : Machine) (s : Server) (d : List Byte) : Server :=
  if 0 < d.length ∧ crcOk m (Buf.ofList d) = true then udpApply m s (Buf.ofList d) else s

/-- A turn of the receive loop acts on the datagram alone. -/
theorem threadUDPr_srv {m : Machine} {d : List Byte} (hd : LongEnough m d) (connected : Bool)
    (t : UdpThread) : (threadUDPr m connected t d).srv = deliver m t.srv d := by
  unfold threadUDPr deliver
  by_cases hpos : 0 < d.length
  · obtain ⟨hwhole, hroom⟩ := hd hpos
    have hag := (Buf.receives_ofList d).agree (Buf.receives_store d t.buf)
    have hcrc : crcOk m (Buf.ofList d) = crcOk m (t.buf.store 0 d) :=
      crcOk_congr m (hag.mono hwhole)
    have hlen : (0 : Int) < d.length := by omega
    have hsrv : (udp2send m t.srv (t.buf.store 0 d) d.length t.outbuf t.outlen).srv =
        if crcOk m (Buf.ofList d) = true then udpApply m t.srv (Buf.ofList d) else t.srv := by
      cases hok : crcOk m (Buf.ofList d) with
      | false => rw [udp2send_rejected (.inr (hcrc ▸ hok))]; rfl
      | true =>
        rw [udp2send_accepted hlen (hcrc ▸ hok), udpApply_congr (hag.mono (hroom hok))]
        rfl
    rw [if_pos hlen]
    simp only [hpos, true_and]
    rw [← hsrv]
    split
    · rfl
    · split
      · split <;> rfl
      · rfl
  · rw [if_neg (by omega), if_neg (fun h => hpos h.1)]

/-- The loop over a history of datagrams acts on them one by one. -/
theorem foldl_threadUDPr_srv {m : Machine} (connected : Bool) {ds : List (List Byte)}
    (hds : ∀ d ∈ ds, LongEnough m d) (t : UdpThread) :
    (ds.foldl (threadUDPr m connected) t).srv = ds.foldl (deliver m) t.srv := by
  induction ds generalizing t with
  | nil => rfl
  | cons d ds ih =>
    rw [List.foldl_cons, List.foldl_cons, ih fun d' h' => hds d' (List.mem_cons_of_mem _ h'),
      threadUDPr_srv (hds d List.mem_cons_self)]

/-! ### The registers of the table -/

theorem accepted_iff {m : Machine} {d : List Byte} : accepted m d = true ↔
    (0 < d.length ∧ crcOk m (Buf.ofList d) = true) ∧
      (d.getD 0 0 = 0xa0 ∨ d.getD 0 0 = 0xaf) := by
  simp only [accepted, Bool.and_eq_true, Bool.or_eq_true, decide_eq_true_eq]

theorem isRecord_iff {m : Machine} {i : Fin 8} {d : List Byte} : isRecord m i d = true ↔
    (accepted m d = true ∧ d.getD 0 0 = 0xa0) ∧ d.getD 1 0 = portIndex i := by
  simp only [isRecord, Bool.and_eq_true, decide_eq_true_eq]

theorem isStatus_iff {m : Machine} {i : Fin 8} {d : List Byte} : isStatus m i d = true ↔
    isRecord m i d = true ∨ (accepted m d = true ∧ d.getD 0 0 = 0xaf) := by
  simp only [isStatus, Bool.or_eq_true, Bool.and_eq_true, decide_eq_true_eq]

/-- A record is a record of one port only. -/
theorem isRecord_unique {m : Machine} {i j : Fin 8} {d : List Byte} (hi : isRecord m i d = true)
    (hj : isRecord m j d = true) : i = j :=
  portIndex_inj ((isRecord_iff.1 hi).2.symm.trans (isRecord_iff.1 hj).2)

/-- Of type `0xa0`, only a record of the port carries its status. -/
theorem isStatus_eq_isRecord {m : Machine} {i : Fin 8} {d : List Byte} (h : d.getD 0 0 = 0xa0) :
    isStatus m i d = isRecord m i d := by
  have hne : (0xa0 : Byte) ≠ 0xaf := by decide
  rw [Bool.eq_iff_iff, isStatus_iff, h]
  simp only [hne, and_false, or_false]

/-- **What a datagram does to a slot.** -/
theorem deliver_gportStat (m : Machine) (s : Server) (d : List Byte) (i : Fin 8) :
    (deliver m s d).gportStat i =
      if isRecord m i d then recordOf m d
      else if isStatus m i d then { s.gportStat i with stat := statusOf m i d }
      else s.gportStat i := by
  have hne : (0xa0 : Byte) ≠ 0xaf := by decide
  simp only [isStatus_iff, isRecord_iff, accepted_iff]
  unfold deliver
  by_cases hok : 0 < d.length ∧ crcOk m (Buf.ofList d) = true
  · rw [if_pos hok]
    by_cases ha0 : d.getD 0 0 = 0xa0
    · rw [udpApply_a0 ha0]
      simp only [hok, ha0, hne, true_and, or_false, and_false]
      by_cases hi : d.getD 1 0 = portIndex i
      · rw [if_pos hi]
        exact if_pos hi
      · simp only [if_neg hi]
        exact if_neg hi
    · by_cases haf : d.getD 0 0 = 0xaf
      · rw [udpApply_af haf]
        simp only [hok, haf, hne.symm, true_and, false_and, or_true, if_true, if_false,
          statusOf, and_false]
        rfl
      · rw [udpApply_other ha0 haf]
        simp only [ha0, haf, or_false, and_false, false_and, if_false]
  · rw [if_neg hok]
    simp only [hok, false_and, or_false, if_false]

/-- The settings and the address of a record, with its status blanked. -/
def settings (r : PortStat) : PortStat := { r with stat := 0 }

/-- The settings of a slot are a register, written by the records of its port. -/
theorem settings_register (m : Machine) (i : Fin 8) :
    Register (deliver m) (fun s => settings (s.gportStat i)) (isRecord m i)
      (fun d => settings (recordOf m d)) where
  write := by
    intro s d hd
    simp only [deliver_gportStat, if_pos hd]
  keep := by
    intro s d hd
    simp only [deliver_gportStat, hd, Bool.false_eq_true, if_false]
    split <;> rfl

/-- The status of a slot is a register, written by those records and by every status
message. -/
theorem stat_register (m : Machine) (i : Fin 8) :
    Register (deliver m) (fun s => (s.gportStat i).stat) (isStatus m i) (statusOf m i) where
  write := by
    intro s d hd
    simp only [deliver_gportStat, if_pos hd]
    split
    · rename_i hrec
      obtain ⟨⟨-, ha0⟩, -⟩ := isRecord_iff.1 hrec
      rw [statusOf, if_pos ha0]
      rfl
    · rfl
  keep := by
    intro s d hd
    have hrec : isRecord m i d = false := by
      cases hr : isRecord m i d with
      | false => rfl
      | true => exact absurd (isStatus_iff.2 (.inl hr)) (by simp [hd])
    simp only [deliver_gportStat, hd, hrec, Bool.false_eq_true, if_false]

/-- Two slots with the same settings and the same status are the same. -/
theorem eq_of_settings {r r' : PortStat} (h : settings r = settings r') (hs : r.stat = r'.stat) :
    r = r' := by
  obtain ⟨⟩ := r
  obtain ⟨⟩ := r'
  simp only [settings, PortStat.mk.injEq] at h hs ⊢
  exact ⟨hs, h.2⟩

/-- What is known of the table after the datagrams `ds`, `T` giving the table after any
history. -/
structure LastWriter (m : Machine) (T : List (List Byte) → Fin 8 → PortStat)
    (ds : List (List Byte)) : Prop where
  /-- Slot by slot, the settings come from the last record of the port and the status
  from the last message that carries it. -/
  determined : ∀ i, T ds i =
    { (ds.filter (isRecord m i)).getLast?.elim initRecord (recordOf m) with
      stat := (ds.filter (isStatus m i)).getLast?.elim initRecord.stat (statusOf m i) }
  /-- Repeating an accepted message at once changes nothing. -/
  repeated : ∀ xs d ys, ds = xs ++ d :: ys → accepted m d = true →
    T (xs ++ d :: d :: ys) = T ds
  /-- Records of different ports commute. -/
  commuted : ∀ xs d d' ys i j, ds = xs ++ d :: d' :: ys → isRecord m i d = true →
    isRecord m j d' = true → i ≠ j → T (xs ++ d' :: d :: ys) = T ds
  /-- Rejected messages and records with no port's index can be deleted. -/
  deleted : ∀ keep : List Byte → Bool,
    (∀ d ∈ ds, keep d = false → accepted m d = false ∨
      d.getD 0 0 = 0xa0 ∧ ∀ i, d.getD 1 0 ≠ portIndex i) →
    T (ds.filter keep) = T ds

/-- **The table after any history of datagrams**, from the start of the server. -/
theorem table_last_writer (m : Machine) (e : Eth0) (s : Server) (connected : Bool)
    (buf outbuf : Buf) (outlen : Int) (sent ds : List (List Byte))
    (hds : ∀ d ∈ ds, LongEnough m d) :
    LastWriter m (fun ds => (ds.foldl (threadUDPr m connected)
      ⟨buf, outbuf, outlen, initGd m e s, sent⟩).srv.gportStat) ds := by
  -- The table is that of the datagrams taken on their own.
  have hT : ∀ ds' : List (List Byte), (∀ d ∈ ds', LongEnough m d) →
      (ds'.foldl (threadUDPr m connected) ⟨buf, outbuf, outlen, initGd m e s, sent⟩).srv =
        ds'.foldl (deliver m) (initGd m e s) :=
    fun ds' h' => foldl_threadUDPr_srv connected h' _
  refine ⟨?_, ?_, ?_, ?_⟩
  · intro i
    have hset := (settings_register m i).foldl (initGd m e s) ds
    have hstat := (stat_register m i).foldl (initGd m e s) ds
    refine eq_of_settings ?_ ?_
    · rw [hT ds hds, hset]
      cases (ds.filter (isRecord m i)).getLast? <;> rfl
    · rw [hT ds hds, hstat]
      cases (ds.filter (isStatus m i)).getLast? <;> rfl
  · rintro xs d ys rfl -
    have hds' : ∀ d' ∈ xs ++ d :: d :: ys, LongEnough m d' := by
      intro d' h'
      refine hds d' ?_
      simpa using h'
    funext i
    refine eq_of_settings ?_ ?_
    · rw [hT _ hds, hT _ hds', (settings_register m i).foldl_repeat]
    · rw [hT _ hds, hT _ hds', (stat_register m i).foldl_repeat]
  · rintro xs d d' ys j j' rfl hd hd' hne
    have hds' : ∀ d₀ ∈ xs ++ d' :: d :: ys, LongEnough m d₀ := by
      intro d₀ h₀
      refine hds d₀ ?_
      simp only [List.mem_append, List.mem_cons] at h₀ ⊢
      tauto
    funext i
    -- No slot is written by both.
    have hone : isRecord m i d = false ∨ isRecord m i d' = false := by
      by_contra hboth
      rw [not_or, Bool.not_eq_false, Bool.not_eq_false] at hboth
      exact hne ((isRecord_unique hd hboth.1).trans (isRecord_unique hboth.2 hd'))
    have hstat : isStatus m i d = false ∨ isStatus m i d' = false := by
      obtain ⟨⟨-, ha0⟩, -⟩ := isRecord_iff.1 hd
      obtain ⟨⟨-, ha0'⟩, -⟩ := isRecord_iff.1 hd'
      rw [isStatus_eq_isRecord ha0, isStatus_eq_isRecord ha0']
      exact hone
    refine eq_of_settings ?_ ?_
    · rw [hT _ hds, hT _ hds', (settings_register m i).foldl_swap _ _ _ hone]
    · rw [hT _ hds, hT _ hds', (stat_register m i).foldl_swap _ _ _ hstat]
  · intro keep hkeep
    have hds' : ∀ d ∈ ds.filter keep, LongEnough m d := fun d hd => hds d (List.mem_filter.1 hd).1
    have hstat : ∀ i, ∀ d ∈ ds, keep d = false → isStatus m i d = false := by
      intro i d hd hk
      by_contra hs
      rw [Bool.not_eq_false] at hs
      rcases hkeep d hd hk with hacc | ⟨ha0, hidx⟩
      · rcases isStatus_iff.1 hs with hr | ⟨ha, -⟩
        · exact absurd (isRecord_iff.1 hr).1.1 (by simp [hacc])
        · exact absurd ha (by simp [hacc])
      · rw [isStatus_eq_isRecord ha0] at hs
        exact hidx i (isRecord_iff.1 hs).2
    have hrec : ∀ i, ∀ d ∈ ds, keep d = false → isRecord m i d = false := by
      intro i d hd hk
      by_contra hr
      rw [Bool.not_eq_false] at hr
      exact absurd (isStatus_iff.2 (.inl hr)) (by simp [hstat i d hd hk])
    funext i
    refine eq_of_settings ?_ ?_
    · rw [hT _ hds, hT _ hds', (settings_register m i).foldl_filter _ (hrec i)]
    · rw [hT _ hds, hT _ hds', (stat_register m i).foldl_filter _ (hstat i)]

/-- A record of port 3, a broken one, a status message and a record of port 5. -/
theorem table_last_writer_mixed :
    let m : Machine := ⟨.big, .unsigned⟩
    LastWriter m (fun ds => (ds.foldl (threadUDPr m true) ⟨Buf.ofList [], Buf.ofList [], 0,
        initGd m ⟨0, 0⟩ ⟨fun _ => initRecord, 0, 0, [], [], none, none, []⟩, []⟩).srv.gportStat)
      [portFrame 0x13 ⟨0x10, 5, 3, 0, 1, 0, 7⟩, [0xa0, 0x13, 0x01, 0x11, 0x00],
        statFrame 0xaf (fun _ => 0x11), portFrame 0x15 ⟨0x10, 8, 3, 0, 1, 0, 9⟩] :=
  table_last_writer _ _ _ _ _ _ _ _ _ (by decide +kernel)

end SerialServer.Mrs2s
