import SerialServer.Reporter.TransferFlow

/-!
# SerialServer.Reporter.TransferDecode

What a client in telnet mode makes of the bytes it receives.

The telnet commands and the data of the device share one stream. The data goes out with its
IACs doubled, in as many pieces as the client takes, and `tcp_fd_write` writes the pending
commands before the rest of the data. So a command can get between the two halves of an IAC.
The banner is written as it is: one that contains an IAC is read as a command, whatever else
happens. Without one the first is the only thing that can go wrong: a client that has room for
the commands and decodes the stream finds all of them, and around them all data, along exactly
the runs in which no command is issued while the waiting data begins with the second half of an
IAC (`transfer_understood_iff`).
-/

namespace SerialServer.Dataxfer

open Escape (double)

/-! ### Scanning data and commands -/

/-- Doubled data is scanned as the data. -/
theorem scans_double (size : Nat) (bs : List Byte) : Scans size (double TN_IAC bs) bs [] := by
  have h := @scans_encode size (bs.map .data) fun item hitem => by
    obtain ⟨b, -, rfl⟩ := List.mem_map.1 hitem
    trivial
  have hbytes : (bs.map Item.data).flatMap Item.bytes = bs := by
    rw [List.flatMap_map]
    exact List.flatMap_singleton' bs
  have hcmds : (bs.map Item.data).flatMap Item.cmds = [] := by
    rw [List.flatMap_map]
    exact List.flatMap_eq_nil_iff.2 fun _ _ => rfl
  rwa [encode_data, hbytes, hcmds] at h

/-- Data without an IAC is scanned as it is. -/
theorem scans_plain (size : Nat) {bs : List Byte} (h : TN_IAC ∉ bs) : Scans size bs bs [] := by
  have hscans := scans_double size bs
  rwa [Escape.double_of_notMem _ h] at hscans

/-- What the program sends, a client with room for it can scan. -/
theorem Item.Answer.legal {size maxCmd : Nat} (hsize : size + 2 ≤ maxCmd) {item : Item}
    (h : item.Answer size) : item.Legal maxCmd := by
  cases item with
  | data b => trivial
  | command cmd => cases h
  | negotiate verb option => exact h
  | suboption option =>
    obtain ⟨hhead, hlen⟩ := h
    refine ⟨?_, Nat.le_trans (Nat.add_le_add_right hlen 2) hsize⟩
    rw [hhead]
    rfl

theorem Item.Answer.bytes {size : Nat} {item : Item} (h : item.Answer size) : item.bytes = [] := by
  cases item with
  | data b => cases h
  | command cmd => cases h
  | negotiate verb option => rfl
  | suboption option => rfl

theorem scans_answers {size maxCmd : Nat} (hsize : size + 2 ≤ maxCmd) {items : List Item}
    (h : ∀ item ∈ items, item.Answer size) :
    Scans maxCmd (encodeItems items) [] (items.flatMap Item.cmds) := by
  have hscans := scans_encode fun item hitem => (h item hitem).legal hsize
  rwa [List.flatMap_eq_nil_iff.2 fun item hitem => (h item hitem).bytes] at hscans

section

variable {maxCmd : Nat} {iac : Bool} (bs : List Byte)

/-- The second half of an IAC. -/
theorem scan_half : (processTelnetData maxCmd ⟨[TN_IAC], iac⟩ (TN_IAC :: bs)).cmds =
    (processTelnetData maxCmd ⟨[], iac⟩ bs).cmds := by
  rw [processTelnetData, List.foldl_cons, scanByte_doubled, foldl_scanByte_from]
  rfl

theorem scan_begin : (processTelnetData maxCmd ⟨[], iac⟩ (TN_IAC :: bs)).cmds =
    (processTelnetData maxCmd ⟨[TN_IAC], false⟩ bs).cmds := by
  rw [processTelnetData, List.foldl_cons, scanByte_begin, foldl_scanByte_from]
  rfl

theorem scan_data {b : Byte} (h : b ≠ TN_IAC) :
    (processTelnetData maxCmd ⟨[], iac⟩ (b :: bs)).cmds =
      (processTelnetData maxCmd ⟨[], iac⟩ bs).cmds := by
  rw [processTelnetData, List.foldl_cons, scanByte_data h, foldl_scanByte_from]
  rfl

end

theorem length_cmds {size : Nat} {items : List Item} (h : ∀ item ∈ items, item.Answer size) :
    (items.flatMap Item.cmds).length = items.length := by
  induction items with
  | nil => rfl
  | cons item items ih =>
    obtain ⟨hitem, hitems⟩ := List.forall_mem_cons.1 h
    have hone : item.cmds.length = 1 := by
      cases item with
      | data b => cases hitem
      | command cmd => cases hitem
      | negotiate verb option => rfl
      | suboption option => rfl
    rw [List.flatMap_cons, List.length_append, hone, ih hitems, List.length_cons, Nat.add_comm]

/-- **Commands behind the first half of an IAC are not understood**: the first of them is taken
for data, and what is left of it may hide the others. -/
theorem scan_garbled {size maxCmd : Nat} (hsize : size + 2 ≤ maxCmd) {items : List Item}
    (h : ∀ item ∈ items, item.Answer size) (iac : Bool) :
    (processTelnetData maxCmd ⟨[TN_IAC], iac⟩ (encodeItems items)).cmds.length ≤ items.length ∧
      (items ≠ [] → (processTelnetData maxCmd ⟨[TN_IAC], iac⟩ (encodeItems items)).cmds ≠
        items.flatMap Item.cmds) := by
  induction items generalizing iac with
  | nil => exact ⟨Nat.le_refl _, fun h => absurd rfl h⟩
  | cons item items ih =>
    obtain ⟨hitem, hitems⟩ := List.forall_mem_cons.1 h
    have hlength := length_cmds h
    -- Fewer commands come out than have been put in.
    have hfewer : ∀ cmds : List (List Byte), cmds.length ≤ items.length →
        cmds.length ≤ (item :: items).length ∧
          (item :: items ≠ [] → cmds ≠ (item :: items).flatMap Item.cmds) := by
      intro cmds hcmds
      rw [List.length_cons] at hlength ⊢
      refine ⟨by omega, fun _ heq => ?_⟩
      rw [heq] at hcmds
      omega
    obtain ⟨td, -, hrest⟩ := scans_answers hsize hitems ⟨[], iac⟩ rfl
    cases item with
    | data b => cases hitem
    | command cmd => cases hitem
    | negotiate verb option =>
      have hbytes : encodeItems (.negotiate verb option :: items) =
          TN_IAC :: verb :: option :: encodeItems items := rfl
      rw [hbytes, scan_half, scan_data _ hitem.2]
      by_cases hoption : option = TN_IAC
      · subst hoption
        rw [scan_begin]
        exact hfewer _ (ih hitems false).1
      · rw [scan_data _ hoption, hrest]
        exact hfewer _ (Nat.le_of_eq (length_cmds hitems))
    | suboption option =>
      have hbytes : encodeItems (.suboption option :: items) =
          TN_IAC :: 250 ::
            (double TN_IAC option ++ Item.encode (.command 240) ++ encodeItems items) := by
        rw [encode_cons]
        simp only [Item.encode, List.cons_append, List.nil_append, List.append_assoc]
      -- What remains of the suboption is its end, IAC SE.
      have hend : (Item.command 240).Legal maxCmd := by
        change (240 : Byte).toNat < 250
        decide
      have hscans := ((scans_double maxCmd option).append
        (@Item.scans maxCmd (.command 240) hend)).append (scans_answers hsize hitems)
      obtain ⟨td', -, hscan⟩ := hscans ⟨[], iac⟩ rfl
      rw [hbytes, scan_half, scan_data _ (by decide), hscan]
      have hcmds : [] ++ Item.cmds (.command 240) ++ items.flatMap Item.cmds =
          [TN_IAC, 240] :: items.flatMap Item.cmds := rfl
      dsimp only
      rw [hcmds, List.length_cons, length_cmds hitems]
      refine ⟨Nat.le_refl _, fun _ heq => ?_⟩
      rw [List.flatMap_cons] at heq
      have hhead := (List.cons.inj heq).1
      rw [List.cons_append, List.cons.injEq, List.cons_append, List.cons.injEq] at hhead
      exact absurd hhead.2.1 (by decide)

/-! ### What remains to be read -/

/-- A client that has read `bytes` has decoded the data `data` and the commands `cmds`; what is
pending for it is the rest of the data, `rest`. -/
inductive Reads (maxCmd : Nat) (cmds : List (List Byte)) (bytes data pending rest : List Byte) :
    Prop
  | whole (td : TelnetData) (clean : td.Clean)
      (scan : processTelnetData maxCmd ⟨[], false⟩ bytes = ⟨td, data, cmds⟩)
      (pending_eq : pending = double TN_IAC rest)
  /-- The first half of an IAC has been read. -/
  | half (iac : Bool) (after : List Byte)
      (scan : processTelnetData maxCmd ⟨[], false⟩ bytes = ⟨⟨[TN_IAC], iac⟩, data, cmds⟩)
      (pending_eq : pending = TN_IAC :: double TN_IAC after) (rest_eq : rest = TN_IAC :: after)

theorem count_double (bs : List Byte) :
    (double TN_IAC bs).count TN_IAC = 2 * bs.count TN_IAC := by
  induction bs with
  | nil => rfl
  | cons b bs ih =>
    rw [Escape.double_cons, List.count_append, ih, List.count_cons]
    by_cases hb : b = TN_IAC
    · subst hb
      rw [Escape.pair_self, if_pos (beq_self_eq_true _)]
      have htwo : [TN_IAC, TN_IAC].count TN_IAC = 2 := rfl
      omega
    · rw [Escape.pair_of_ne _ hb, if_neg (by simpa using hb), List.count_singleton,
        if_neg (by simpa using hb)]
      omega

section

variable {maxCmd : Nat} {cmds : List (List Byte)} {bytes data pending rest : List Byte}

/-- Which half comes next shows in the number of IACs that are pending. -/
theorem Reads.even (h : Reads maxCmd cmds bytes data pending rest)
    (heven : Even (pending.count TN_IAC)) : ∃ td : TelnetData, td.Clean ∧
      processTelnetData maxCmd ⟨[], false⟩ bytes = ⟨td, data, cmds⟩ ∧
        pending = double TN_IAC rest := by
  cases h with
  | whole td clean scan pending_eq => exact ⟨td, clean, scan, pending_eq⟩
  | half iac after scan pending_eq rest_eq =>
    rw [pending_eq, List.count_cons_self, count_double, Nat.even_add_one] at heven
    exact absurd (even_two_mul _) heven

theorem Reads.odd (h : Reads maxCmd cmds bytes data pending rest)
    (hodd : ¬ Even (pending.count TN_IAC)) : ∃ iac,
      processTelnetData maxCmd ⟨[], false⟩ bytes = ⟨⟨[TN_IAC], iac⟩, data, cmds⟩ := by
  cases h with
  | whole td clean scan pending_eq =>
    rw [pending_eq, count_double] at hodd
    exact absurd (even_two_mul _) hodd
  | half iac after scan pending_eq rest_eq => exact ⟨iac, scan⟩

/-- Some of what is pending is read. -/
theorem Reads.advance_whole {td : TelnetData} {xs ys : List Byte} (hclean : td.Clean)
    (hscan : processTelnetData maxCmd ⟨[], false⟩ bytes = ⟨td, data, cmds⟩)
    (hrest : double TN_IAC rest = xs ++ ys) :
    ∃ data' rest', rest = data' ++ rest' ∧
      Reads maxCmd cmds (bytes ++ xs) (data ++ data') ys rest' := by
  rcases Escape.double_split TN_IAC hrest with ⟨us, vs, rfl, rfl, rfl⟩ | ⟨us, vs, rfl, rfl, rfl⟩
  · obtain ⟨td', hclean', hscan'⟩ := scans_double maxCmd us td hclean
    refine ⟨us, vs, rfl, .whole td' hclean' ?_ rfl⟩
    rw [processTelnetData_append, hscan]
    dsimp only
    rw [hscan', List.append_nil]
  · obtain ⟨⟨cmd, iac⟩, hclean', hscan'⟩ := scans_double maxCmd us td hclean
    obtain rfl : cmd = [] := hclean'
    refine ⟨us, TN_IAC :: vs, rfl, .half false vs ?_ rfl rfl⟩
    have hhalf : processTelnetData maxCmd ⟨[], iac⟩ [TN_IAC] = ⟨⟨[TN_IAC], false⟩, [], []⟩ := rfl
    rw [← List.append_assoc, processTelnetData_append, processTelnetData_append, hscan]
    dsimp only
    rw [hscan']
    dsimp only
    rw [hhalf]
    simp

theorem Reads.advance {xs ys : List Byte} (h : Reads maxCmd cmds bytes data (xs ++ ys) rest) :
    ∃ data' rest', rest = data' ++ rest' ∧
      Reads maxCmd cmds (bytes ++ xs) (data ++ data') ys rest' := by
  cases h with
  | whole td clean scan pending_eq => exact advance_whole clean scan pending_eq.symm
  | half iac after scan pending_eq rest_eq =>
    cases xs with
    | nil =>
      refine ⟨[], rest, rfl, ?_⟩
      rw [List.append_nil, List.append_nil]
      exact .half iac after scan pending_eq rest_eq
    | cons x xs =>
      -- The second half completes the IAC.
      rw [List.cons_append, List.cons.injEq] at pending_eq
      obtain ⟨rfl, htail⟩ := pending_eq
      have hhalf : processTelnetData maxCmd ⟨[], false⟩ (bytes ++ [TN_IAC]) =
          ⟨⟨[], iac⟩, data ++ [TN_IAC], cmds⟩ := by
        rw [processTelnetData_append, scan]
        dsimp only
        rw [processTelnetData, List.foldl_cons, scanByte_doubled]
        simp
      have hclean : (⟨[], iac⟩ : TelnetData).Clean := rfl
      obtain ⟨data', rest', hrest, hreads⟩ := advance_whole hclean hhalf htail.symm
      refine ⟨TN_IAC :: data', rest', ?_, ?_⟩
      · rw [rest_eq, hrest, List.cons_append]
      · have hbytes : bytes ++ TN_IAC :: xs = bytes ++ [TN_IAC] ++ xs := by simp
        have hdata : data ++ TN_IAC :: data' = data ++ [TN_IAC] ++ data' := by simp
        rw [hbytes, hdata]
        exact hreads

/-- All of it is read. -/
theorem Reads.finish (h : Reads maxCmd cmds bytes data pending rest) :
    (processTelnetData maxCmd ⟨[], false⟩ (bytes ++ pending)).data = data ++ rest := by
  rw [← List.append_nil pending] at h
  obtain ⟨data', rest', rfl, hreads⟩ := h.advance
  cases hreads with
  | whole td clean scan pending_eq =>
    have hnil : rest' = [] := by
      have hlen := Escape.length_double TN_IAC rest'
      rw [← pending_eq, List.length_nil] at hlen
      exact List.length_eq_zero_iff.1 (by omega)
    rw [scan, hnil, List.append_nil]
  | half iac after scan pending_eq rest_eq => cases pending_eq

end

/-! ### The stream of a connection -/

/-- A client that reads what has been sent, and the commands that are pending, is told `issued`;
with the rest it reads the banner and all data of the device, `dev`. -/
def Streams (maxCmd : Nat) (banner : List Byte) (p : Pump Byte) (dev : List Byte)
    (issued : List Item) : Prop :=
  ∃ data rest, Reads maxCmd (issued.flatMap Item.cmds) (p.received ++ p.urgent) data p.pending rest ∧
    data ++ p.preamble.getD [] ++ rest = banner ++ dev

/-- What is true of the direction to the client as long as no command has been put between the two
halves of an IAC. -/
structure Decodes (maxCmd : Nat) (banner : List Byte) (p : Pump Byte) (dev : List Byte)
    (issued : List Item) : Prop where
  held : p.Held
  alert : p.Alert
  calm : p.Calm
  plain : TN_IAC ∉ p.preamble.getD []
  apart : p.urgent ≠ [] → Even (p.pending.count TN_IAC)
  streams : Streams maxCmd banner p dev issued

section

variable {maxCmd : Nat} {banner dev : List Byte} {p : Pump Byte} {issued : List Item}

/-- The parts of the invariant that are the same for every pump. -/
theorem Decodes.of_step (h : Decodes maxCmd banner p dev issued) (ev : Pump.Event Byte)
    {dev' : List Byte} {issued' : List Item} (plain : TN_IAC ∉ (p.step ev).preamble.getD [])
    (apart : (p.step ev).urgent ≠ [] → Even ((p.step ev).pending.count TN_IAC))
    (streams : Streams maxCmd banner (p.step ev) dev' issued') :
    Decodes maxCmd banner (p.step ev) dev' issued' :=
  ⟨Pump.step_held h.held ev, Pump.step_alert h.alert ev,
    (Pump.step_calm h.calm ev).2 (h.held.not_finishesEarly _), plain, apart, streams⟩

theorem Decodes.take (h : Decodes maxCmd banner p dev issued) (hreader : p.reader = true)
    (bytes : List Byte) (n : Nat) :
    Decodes maxCmd banner (p.step (.take (double TN_IAC bytes) n)) (dev ++ bytes) issued := by
  have hurgent : p.urgent = [] := by
    by_contra hne
    rw [(h.alert.urgent hne).1] at hreader
    cases hreader
  have hpending : p.pending = [] := by
    by_contra hne
    rw [(h.calm hne).1] at hreader
    cases hreader
  have hpreamble : p.preamble = none := by
    by_contra hne
    rw [(h.held hne).1] at hreader
    cases hreader
  have hstep : p.step (.take (double TN_IAC bytes) n) = p.take (double TN_IAC bytes) n :=
    if_pos hreader
  obtain ⟨hreceived, hrest, hurgent', hpreamble'⟩ := p.take_fields (double TN_IAC bytes) n
  -- All that has been read before is there.
  obtain ⟨data, rest, hreads, hall⟩ := h.streams
  rw [hurgent, List.append_nil, hpending] at hreads
  obtain ⟨td, hclean, hscan, hnil⟩ := hreads.even (by simp)
  have hnone : rest = [] := by
    have hlen := Escape.length_double TN_IAC rest
    rw [← hnil, List.length_nil] at hlen
    exact List.length_eq_zero_iff.1 (by omega)
  rw [hpreamble, hnone, Option.getD_none, List.append_nil, List.append_nil] at hall
  obtain ⟨data', rest', hsplit, hadvance⟩ :=
    Reads.advance_whole hclean hscan (List.take_append_drop n (double TN_IAC bytes)).symm
  refine h.of_step _ ?_ ?_ ⟨data ++ data', rest', ?_, ?_⟩
  · rw [hstep, hpreamble']
    exact h.plain
  · rw [hstep, hurgent', hurgent]
    exact fun hne => absurd rfl hne
  · rw [hstep, hreceived, hurgent', hurgent, hrest, List.append_nil]
    exact hadvance
  · rw [hstep, hpreamble', hpreamble, Option.getD_none, List.append_nil, List.append_assoc,
      ← hsplit, hall, List.append_assoc]

/-- Commands are issued while the pending data does not begin with half an IAC. -/
theorem Decodes.request {size : Nat} (hsize : size + 2 ≤ maxCmd)
    (h : Decodes maxCmd banner p dev issued) {items : List Item}
    (hanswers : ∀ item ∈ items, item.Answer size) (heven : Even (p.pending.count TN_IAC)) :
    Decodes maxCmd banner (p.step (.request (encodeItems items))) dev (issued ++ items) := by
  obtain ⟨data, rest, hreads, hall⟩ := h.streams
  obtain ⟨td, hclean, hscan, hpending⟩ := hreads.even heven
  obtain ⟨td', hclean', hscan'⟩ := scans_answers hsize hanswers td hclean
  refine h.of_step _ h.plain (fun _ => heven) ⟨data, rest, .whole td' hclean' ?_ hpending, hall⟩
  have hbytes : (p.step (.request (encodeItems items))).received ++
      (p.step (.request (encodeItems items))).urgent = p.received ++ p.urgent ++ encodeItems items :=
    (List.append_assoc ..).symm
  rw [hbytes, processTelnetData_append, hscan]
  dsimp only
  rw [hscan', List.append_nil, List.flatMap_append]

/-- Commands are issued, and the pending data begins with half an IAC: they are not understood. -/
theorem Decodes.garbles {size : Nat} (hsize : size + 2 ≤ maxCmd)
    (h : Decodes maxCmd banner p dev issued) {items : List Item}
    (hanswers : ∀ item ∈ items, item.Answer size) (hsome : items ≠ [])
    (hodd : ¬ Even (p.pending.count TN_IAC)) :
    (processTelnetData maxCmd ⟨[], false⟩ ((p.step (.request (encodeItems items))).received ++
      (p.step (.request (encodeItems items))).urgent)).cmds ≠ (issued ++ items).flatMap Item.cmds := by
  have hurgent : p.urgent = [] := by
    by_contra hne
    exact hodd (h.apart hne)
  obtain ⟨data, rest, hreads, -⟩ := h.streams
  rw [hurgent, List.append_nil] at hreads
  obtain ⟨iac, hscan⟩ := hreads.odd hodd
  have hbytes : (p.step (.request (encodeItems items))).received ++
      (p.step (.request (encodeItems items))).urgent = p.received ++ encodeItems items := by
    change p.received ++ (p.urgent ++ encodeItems items) = _
    rw [hurgent, List.nil_append]
  rw [hbytes, processTelnetData_append, hscan, List.flatMap_append]
  intro heq
  exact (scan_garbled hsize hanswers iac).2 hsome (List.append_cancel_left heq)

/-- The banner, and the data behind it, is sent once no commands are pending. -/
theorem streams_flushRest (hheld : p.Held) (hurgent : p.urgent = [])
    (hplain : TN_IAC ∉ p.preamble.getD []) (h : Streams maxCmd banner p dev issued) (n : Nat) :
    TN_IAC ∉ (p.flushRest n).preamble.getD [] ∧ (p.flushRest n).urgent = [] ∧
      Streams maxCmd banner (p.flushRest n) dev issued := by
  obtain ⟨data, rest, hreads, hall⟩ := h
  rw [hurgent, List.append_nil] at hreads
  rw [Pump.flushRest]
  cases hpre : p.preamble with
  | some bs =>
    rw [hpre, Option.getD_some] at hplain hall
    have hnil : p.pending = [] := (hheld (by rw [hpre]; exact Option.some_ne_none bs)).2
    obtain ⟨td, hclean, hscan, hpending⟩ := hreads.even (by rw [hnil]; simp)
    obtain ⟨td', hclean', hscan'⟩ :=
      @scans_plain maxCmd (bs.take n) (fun h => hplain (List.mem_of_mem_take h)) td hclean
    -- However much of the banner is left, the client reads on.
    have hstreams : ∀ q : Pump Byte, q.received = p.received ++ bs.take n → q.urgent = [] →
        q.pending = p.pending → q.preamble.getD [] = bs.drop n →
        TN_IAC ∉ q.preamble.getD [] ∧ q.urgent = [] ∧ Streams maxCmd banner q dev issued := by
      intro q hreceived hurgent' hpending' hpreamble
      rw [hpreamble]
      refine ⟨fun h => hplain (List.mem_of_mem_drop h), hurgent', data ++ bs.take n, rest, ?_, ?_⟩
      · rw [hreceived, hurgent', hpending', List.append_nil]
        refine .whole td' hclean' ?_ hpending
        rw [processTelnetData_append, hscan]
        dsimp only
        rw [hscan', List.append_nil]
      · rw [hpreamble, List.append_assoc data, List.take_append_drop]
        exact hall
    have hreceived : (p.sent ++ Lane.preamble.on (bs.take n)).map Prod.snd =
        p.received ++ bs.take n := by
      rw [List.map_append, Pump.map_snd_on]
      rfl
    dsimp only
    split
    · next hrest => exact hstreams _ hreceived hurgent rfl (List.isEmpty_iff.1 hrest).symm
    · exact hstreams _ hreceived hurgent rfl rfl
  | none =>
    rw [hpre, Option.getD_none, List.append_nil] at hall
    rw [← List.take_append_drop n p.pending] at hreads
    obtain ⟨data', rest', rfl, hadvance⟩ := hreads.advance
    have hstreams : ∀ q : Pump Byte, q.received = p.received ++ p.pending.take n →
        q.urgent = [] → q.pending = p.pending.drop n → q.preamble = none →
        TN_IAC ∉ q.preamble.getD [] ∧ q.urgent = [] ∧ Streams maxCmd banner q dev issued := by
      intro q hreceived hurgent' hpending' hpreamble
      rw [hpreamble]
      refine ⟨List.not_mem_nil, hurgent', data ++ data', rest', ?_, ?_⟩
      · rw [hreceived, hurgent', hpending', List.append_nil]
        exact hadvance
      · rw [hpreamble, Option.getD_none, List.append_nil, List.append_assoc]
        exact hall
    have hreceived : (p.sent ++ Lane.data.on (p.pending.take n)).map Prod.snd =
        p.received ++ p.pending.take n := by
      rw [List.map_append, Pump.map_snd_on]
      rfl
    dsimp only
    split
    · exact hstreams _ hreceived hurgent rfl rfl
    · exact hstreams _ hreceived hurgent rfl rfl

/-- To a client an empty banner is none. -/
theorem streams_dropEmpty (h : Streams maxCmd banner p dev issued) :
    Streams maxCmd banner p.dropEmpty dev issued := by
  obtain ⟨heq, hpreamble⟩ := p.dropEmpty_eq
  obtain ⟨data, rest, hreads, hall⟩ := h
  refine ⟨data, rest, ?_, ?_⟩
  · rw [heq]
    exact hreads
  · rw [hpreamble]
    exact hall

theorem Decodes.flush (h : Decodes maxCmd banner p dev issued) (k n : Nat) :
    Decodes maxCmd banner (p.step (.flush k n)) dev issued := by
  by_cases hwriter : p.writer = true
  · have hstep : p.step (.flush k n) = p.flush k n := if_pos hwriter
    -- What is pending of the commands and what is sent of them are the same bytes as before.
    have hbytes : (p.flushUrgent k).received ++ (p.flushUrgent k).urgent =
        p.received ++ p.urgent := by
      rw [Pump.flushUrgent, Pump.received, List.map_append, Pump.map_snd_on]
      dsimp only
      rw [List.append_assoc, List.take_append_drop]
      rfl
    have hstreams : Streams maxCmd banner (p.flushUrgent k) dev issued := by
      obtain ⟨data, rest, hreads, hall⟩ := h.streams
      exact ⟨data, rest, hbytes ▸ hreads, hall⟩
    have hflush : p.flush k n =
        if (p.flushUrgent k).urgent.isEmpty then (p.flushUrgent k).flushRest n
        else (p.flushUrgent k).dropEmpty := rfl
    by_cases hempty : (p.flushUrgent k).urgent = []
    · rw [if_pos (List.isEmpty_iff.2 hempty)] at hflush
      obtain ⟨hplain, hurgent, hrest⟩ :=
        streams_flushRest (p := p.flushUrgent k) h.held hempty h.plain hstreams n
      refine h.of_step _ ?_ ?_ ?_
      · rwa [hstep, hflush]
      · rw [hstep, hflush, hurgent]
        exact fun hne => absurd rfl hne
      · rwa [hstep, hflush]
    · rw [if_neg fun h => hempty (List.isEmpty_iff.1 h)] at hflush
      obtain ⟨heq, hpreamble⟩ := (p.flushUrgent k).dropEmpty_eq
      refine h.of_step _ ?_ ?_ ?_
      · rw [hstep, hflush, hpreamble]
        exact h.plain
      · rw [hstep, hflush, heq]
        intro _
        refine h.apart fun hnil => hempty ?_
        rw [Pump.flushUrgent, hnil]
        exact List.drop_nil
      · rw [hstep, hflush]
        exact streams_dropEmpty hstreams
  · have hstep : p.step (.flush k n) = p := if_neg hwriter
    rw [hstep]
    exact h

end

/-! ### Whole connections -/

namespace Transfer

variable {cfg : TransferConfig}

/-- All that a client of the connection has received. -/
def received (t : Transfer) : List Byte := t.toClient.map Prod.snd

/-- What the client has received, and the commands that are pending, tells it all commands; with
the rest it tells it all data. `maxCmd` is the longest command it can scan. -/
structure Understood (maxCmd : Nat) (cfg : TransferConfig) (t : Transfer) : Prop where
  cmds : (processTelnetData maxCmd ⟨[], false⟩ (t.received ++ t.neg.outTelnetCmd)).cmds =
    t.issued.flatMap Item.cmds
  data : (processTelnetData maxCmd ⟨[], false⟩
    (t.received ++ t.neg.outTelnetCmd ++ t.banner.getD [] ++ t.devToTcp)).data =
      cfg.banner.getD [] ++ t.fromDev

/-- A callback does not issue a command while the data that waits begins with the second half of an
IAC. -/
def KeepsPairs (cfg : TransferConfig) (t : Transfer) (ev : TransferEvent) : Prop :=
  (t.step cfg ev).issued ≠ t.issued → Even (t.devToTcp.count TN_IAC)

/-- The invariant of the connections in which no callback does. -/
def Whole (maxCmd : Nat) (cfg : TransferConfig) (t : Transfer) : Prop :=
  Decodes maxCmd (cfg.banner.getD []) (t.outbound cfg) t.fromDev t.issued

theorem Whole.understood {maxCmd : Nat} {t : Transfer} (h : t.Whole maxCmd cfg) :
    t.Understood maxCmd cfg := by
  obtain ⟨data, rest, hreads, hall⟩ := h.streams
  have hpreamble : (t.outbound cfg).preamble = t.banner := rfl
  have hpending : (t.outbound cfg).pending = t.devToTcp := rfl
  have hbytes : (t.outbound cfg).received ++ (t.outbound cfg).urgent =
      t.received ++ t.neg.outTelnetCmd := rfl
  rw [hbytes, hpending] at hreads
  rw [hpreamble] at hall
  constructor
  · cases hreads with
    | whole td clean scan pending_eq => rw [scan]
    | half iac after scan pending_eq rest_eq => rw [scan]
  cases hbanner : t.banner with
  | none =>
    rw [hbanner, Option.getD_none, List.append_nil] at hall
    rw [Option.getD_none, List.append_nil, hreads.finish, hall]
  | some bs =>
    -- Nothing waits behind the banner.
    have hnil : t.devToTcp = [] := (h.held (by rw [hpreamble, hbanner]; simp)).2
    have hplain : TN_IAC ∉ bs := by
      have := h.plain
      rwa [hpreamble, hbanner] at this
    obtain ⟨td, hclean, hscan, hrest⟩ := hreads.even (by rw [hnil]; simp)
    obtain ⟨td', hclean', hscan'⟩ := scans_plain maxCmd hplain td hclean
    have hrest' : rest = [] := by
      have hlen := Escape.length_double TN_IAC rest
      rw [← hrest, hnil, List.length_nil] at hlen
      exact List.length_eq_zero_iff.1 (by omega)
    rw [hbanner, hrest', Option.getD_some, List.append_nil] at hall
    rw [hnil, Option.getD_some, List.append_nil, processTelnetData_append, hscan]
    dsimp only
    rw [hscan', hall]

theorem setup_whole {maxCmd : Nat} (htelnet : cfg.enabled = .telnet)
    (hroom : (encodeItems telnetInitSeq).length ≤ cfg.negotiator.cmdbufSize)
    (hbanner : TN_IAC ∉ cfg.banner.getD []) (hsize : cfg.negotiator.replySize + 2 ≤ maxCmd)
    (n : Negotiator) (td : TelnetData) : (setup cfg n td).Whole maxCmd cfg := by
  have hinit := setup_telnet htelnet hroom n td
  have hwire : cfg.wire [] = [] := if_pos htelnet
  have hanswers : ∀ item ∈ telnetInitSeq, item.Answer cfg.negotiator.replySize := by
    intro item hitem
    have hverbs : ∀ item ∈ telnetInitSeq, ∃ verb option, item = .negotiate verb option ∧
        verb ∈ [TN_WILL, TN_WONT, TN_DO, TN_DONT] := by
      simp [telnetInitSeq]
    obtain ⟨verb, option, rfl, hverb⟩ := hverbs item hitem
    exact answer_verb option hverb
  obtain ⟨td', hclean, hscan⟩ := scans_answers hsize hanswers ⟨[], false⟩ rfl
  have hbytes : ((setup cfg n td).outbound cfg).received ++ ((setup cfg n td).outbound cfg).urgent =
      (setup cfg n td).neg.outTelnetCmd := rfl
  have hall : [] ++ cfg.banner.getD [] ++ [] = cfg.banner.getD [] ++ [] := rfl
  refine ⟨fun _ => ⟨hinit.reader, rfl⟩, ⟨fun _ => ⟨hinit.reader, hinit.writer⟩,
    fun _ => hinit.writer⟩, fun h => absurd rfl h, hbanner, fun _ => ?_, ?_⟩
  · exact ⟨0, rfl⟩
  · refine ⟨[], [], .whole td' hclean ?_ rfl, hall⟩
    rw [hbytes, hinit.out, hinit.issued, hscan]

theorem Whole.step {maxCmd : Nat} {t : Transfer} (htelnet : cfg.enabled = .telnet)
    (hsize : cfg.negotiator.replySize + 2 ≤ maxCmd) (h : t.Whole maxCmd cfg)
    {ev : TransferEvent} (hpairs : t.KeepsPairs cfg ev) : (t.step cfg ev).Whole maxCmd cfg := by
  have hwire : ∀ bytes, cfg.wire bytes = double TN_IAC bytes := fun _ => if_pos htelnet
  rw [Whole]
  cases step_moves cfg t ev with
  | stay out dev issued =>
    rw [out, dev, issued]
    exact h
  | take bytes n out reader dev issued =>
    rw [out, dev, issued, hwire]
    exact h.take reader bytes n
  | request items out some answers dev issued =>
    have heven : Even (t.devToTcp.count TN_IAC) := by
      refine hpairs fun heq => some ?_
      rw [issued] at heq
      exact List.append_right_eq_self.1 heq
    rw [out, dev, issued]
    exact h.request hsize answers heven
  | flush k n out writer dev issued =>
    rw [out, dev, issued]
    exact h.flush k n

theorem Whole.ends {maxCmd : Nat} {t : Transfer}
    (hsize : cfg.negotiator.replySize + 2 ≤ maxCmd) (h : t.Whole maxCmd cfg)
    {ev : TransferEvent} (hpairs : ¬ t.KeepsPairs cfg ev) :
    ¬ (t.step cfg ev).Understood maxCmd cfg := by
  rw [KeepsPairs, Classical.not_imp] at hpairs
  obtain ⟨hissued, hodd⟩ := hpairs
  intro hunderstood
  have hcmds := hunderstood.cmds
  have hbytes : (t.step cfg ev).received ++ (t.step cfg ev).neg.outTelnetCmd =
      ((t.step cfg ev).outbound cfg).received ++ ((t.step cfg ev).outbound cfg).urgent := rfl
  cases step_moves cfg t ev with
  | stay out dev issued => exact hissued issued
  | take bytes n out reader dev issued => exact hissued issued
  | flush k n out writer dev issued => exact hissued issued
  | request items out some answers dev issued =>
    rw [hbytes, out, issued] at hcmds
    exact Decodes.garbles hsize h answers some hodd hcmds

/-- **When a client in telnet mode understands the program**: in every state of a connection whose
banner has no IAC, it is told just the commands that have been issued, by what it has received
and those that are pending, and around them, with what waits, just the banner and the data of the
device, if and only if no callback issues a command while the data that waits begins with the
second half of an IAC. -/
theorem transfer_understood_iff {cfg : TransferConfig} (htelnet : cfg.enabled = .telnet)
    (hroom : (encodeItems telnetInitSeq).length ≤ cfg.negotiator.cmdbufSize)
    (hbanner : TN_IAC ∉ cfg.banner.getD []) {maxCmd : Nat}
    (hsize : cfg.negotiator.replySize + 2 ≤ maxCmd) (n : Negotiator) (td : TelnetData)
    (evs : List TransferEvent) :
    Run.Always (Transfer.step cfg) (Understood maxCmd cfg) (setup cfg n td) evs ↔
      Run.EachStep (Transfer.step cfg) (KeepsPairs cfg) (setup cfg n td) evs :=
  Run.always_iff_of_invariant (I := Whole maxCmd cfg) (setup_whole htelnet hroom hbanner hsize n td)
    (fun _ _ h hpairs => h.step htelnet hsize hpairs) (fun _ h => h.understood)
    fun _ _ h hpairs => h.ends hsize hpairs

/-- The client has taken the first half of an IAC when its DO COM-PORT is answered. -/
theorem transfer_understood_iff_half :
    let cfg : TransferConfig :=
      ⟨.telnet, none, none, none, 0, ⟨⟨false, [], 64⟩, false, 64⟩, 64⟩
    let env : NegotiatorEnv := ⟨⟨⟨13, 13, .cs8, false, false, false, false, false, false⟩,
      true, true, true, true, none⟩, none⟩
    let start := setup cfg ⟨false, 0, ⟨false, 0, 0⟩, [], false⟩ ⟨[], false⟩
    ¬ Run.Always (Transfer.step cfg) (Understood 66 cfg) start
      [.tcpWrite ⟨12, false⟩ ⟨0, false⟩, .devRead [255] (.wrote 1),
        .tcpRead telnetCmds (fun _ => env) [TN_IAC, TN_DO, TN_OPT_COM_PORT] .again] := by
  intro cfg env start h
  obtain ⟨-, -, hpairs, -⟩ := (@transfer_understood_iff cfg rfl (by decide) List.not_mem_nil 66
    (by decide) _ _ _).1 h
  have hodd := hpairs (by decide)
  exact absurd hodd (by decide)

end Transfer

end SerialServer.Dataxfer
