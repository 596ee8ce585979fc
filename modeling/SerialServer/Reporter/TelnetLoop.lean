import SerialServer.Core.Buffer
import SerialServer.Reporter.TelnetStream

/-!
# SerialServer.Reporter.TelnetLoop

The two loops that rewrite a transfer buffer in place.

`process_telnet_data` takes command bytes out of the bytes a client has sent by moving
the rest down over them; `handle_dev_fd_read` doubles the IACs in the bytes from the
device by moving the rest up. Both are modelled here as the assignments they make, on the
buffer and, for the first, on the array `telnet_cmd`. The first one computes the scan of
`SerialServer.Reporter.Telnet` and leaves everything behind the received bytes and behind
the end of `telnet_cmd` alone (`processLoop_scans`). The second one computes the doubled
bytes, but it moves one element more than there are (`doubleLoop_fits_iff`).
-/

namespace SerialServer.Dataxfer

/-! ### Taking the commands out -/

/-- `delete_char`. -/
def deleteChar (data : Buf) (pos len : Nat) : Buf × Nat :=
  (data.pullDown pos (len - 1 - pos), len - 1)

/-- The array `telnet_cmd` with `telnet_cmd_pos` and `suboption_iac`. -/
structure TelnetCmdBuf where
  telnetCmd : Buf
  telnetCmdPos : Nat
  suboptionIac : Bool

namespace TelnetCmdBuf

/-- `telnet_cmd[telnet_cmd_pos] = b; telnet_cmd_pos++;` -/
def store (t : TelnetCmdBuf) (b : Byte) : TelnetCmdBuf :=
  { t with
    telnetCmd := Function.update t.telnetCmd t.telnetCmdPos b
    telnetCmdPos := t.telnetCmdPos + 1 }

/-- `telnet_cmd_pos = n;` -/
def atPos (t : TelnetCmdBuf) (n : Nat) : TelnetCmdBuf := { t with telnetCmdPos := n }

/-- What `handle_telnet_cmd` gets: `telnet_cmd` and its length. -/
def cmd (t : TelnetCmdBuf) : List Byte := t.telnetCmd.slice 0 t.telnetCmdPos

/-- The state of the scanner. -/
def abs (t : TelnetCmdBuf) : TelnetData := ⟨t.cmd, t.suboptionIac⟩

/-- Only the first `maxCmd + 1` elements are in use. -/
def InBounds (maxCmd : Nat) (t : TelnetCmdBuf) : Prop := t.telnetCmdPos ≤ maxCmd + 1

end TelnetCmdBuf

/-- The locals of `process_telnet_data` and the commands handled so far. -/
structure TelnetLoop where
  data : Buf
  i : Nat
  len : Nat
  td : TelnetCmdBuf
  cmds : List (List Byte)

/-- The body of the loop. `maxCmd` is `MAX_TELNET_CMD_SIZE`. -/
def loopBody (maxCmd : Nat) (s : TelnetLoop) : TelnetLoop :=
  if s.td.telnetCmdPos ≠ 0 then
    let tnByte := s.data s.i
    if s.td.telnetCmdPos = 1 ∧ tnByte = 255 then
      { s with i := s.i + 1, td := { s.td with telnetCmdPos := 0 } }
    else
      let (data, len) := deleteChar s.data s.i s.len
      let s := { s with data := data, len := len }
      if s.td.telnetCmdPos = 1 then
        let td := s.td.store tnByte
        if tnByte.toNat < 250 then
          { s with td := { td with telnetCmdPos := 0 }, cmds := s.cmds ++ [td.cmd] }
        else { s with td := td }
      else if s.td.telnetCmdPos = 2 then
        let td := s.td.store tnByte
        if td.telnetCmd 1 ≠ (250 : Byte) then
          { s with td := { td with telnetCmdPos := 0 }, cmds := s.cmds ++ [td.cmd] }
        else { s with td := td }
      else if s.td.suboptionIac then
        if tnByte = 240 then
          let td := { s.td with telnetCmdPos := s.td.telnetCmdPos - 1 }
          { s with
            td := { td with telnetCmdPos := 0, suboptionIac := false }
            cmds := s.cmds ++ [td.cmd] }
        else if tnByte = 255 then { s with td := { s.td with suboptionIac := false } }
        else
          { s with
            td := { s.td with telnetCmdPos := s.td.telnetCmdPos - 1, suboptionIac := false } }
      else
        let td := if maxCmd < s.td.telnetCmdPos then s.td.atPos maxCmd else s.td
        let td := td.store tnByte
        { s with td := if tnByte = 255 then { td with suboptionIac := true } else td }
  else if s.data s.i = 255 then
    let td := s.td.store 255
    let (data, len) := deleteChar s.data s.i s.len
    { s with data := data, len := len, td := { td with suboptionIac := false } }
  else { s with i := s.i + 1 }

theorem loopBody_measure (maxCmd : Nat) (s : TelnetLoop) (h : s.i < s.len) :
    (loopBody maxCmd s).len - (loopBody maxCmd s).i + 1 = s.len - s.i := by
  simp only [loopBody, deleteChar]
  repeat' split
  all_goals dsimp only
  all_goals omega

/-- `process_telnet_data`, from `i` on. -/
def processLoop (maxCmd : Nat) (s : TelnetLoop) : TelnetLoop :=
  if s.i < s.len then processLoop maxCmd (loopBody maxCmd s) else s
termination_by s.len - s.i
decreasing_by
  have := loopBody_measure maxCmd s ‹_›
  omega

/-! ### What one turn does to the buffer -/

/-- A turn of the loop: `out` stays in front of `i`, the bytes behind the one that was
looked at are still to come, and nothing behind the received bytes has changed. -/
structure Advances (s s' : TelnetLoop) (out : List Byte) : Prop where
  kept : s'.data.slice 0 s'.i = s.data.slice 0 s.i ++ out
  ahead : s'.data.slice s'.i (s'.len - s'.i) = s.data.slice (s.i + 1) (s.len - (s.i + 1))
  le : s'.i ≤ s'.len
  len_le : s'.len ≤ s.len
  frame : ∀ j, s.len ≤ j → s'.data j = s.data j

/-- The byte stays. -/
theorem Advances.keep {s s' : TelnetLoop} (h : s.i < s.len) (hdata : s'.data = s.data)
    (hi : s'.i = s.i + 1) (hlen : s'.len = s.len) : Advances s s' [s.data s.i] := by
  refine ⟨?_, ?_, ?_, Nat.le_of_eq hlen, fun j _ => by rw [hdata]⟩
  · rw [hdata, hi, Buf.slice_succ, Nat.zero_add]
  · rw [hdata, hi, hlen]
  · omega

/-- The byte is deleted. -/
theorem Advances.delete {s s' : TelnetLoop} (h : s.i < s.len)
    (hdata : s'.data = (deleteChar s.data s.i s.len).1) (hi : s'.i = s.i)
    (hlen : s'.len = s.len - 1) : Advances s s' [] := by
  have happly : ∀ j, s'.data j = if s.i ≤ j ∧ j < s.len - 1 then s.data (j + 1) else s.data j := by
    intro j
    have hend : s.i + (s.len - 1 - s.i) = s.len - 1 := by omega
    rw [hdata, deleteChar]
    dsimp only
    rw [Buf.pullDown_apply, hend]
  refine ⟨?_, ?_, by omega, by omega, ?_⟩
  · rw [List.append_nil, hi]
    refine Buf.slice_congr fun k hk => ?_
    rw [happly, if_neg (by omega)]
  · have hcount : s'.len - s'.i = s.len - (s.i + 1) := by omega
    rw [hcount, hi]
    apply List.ext_getElem (by simp)
    intro k h₁ h₂
    rw [Buf.slice_length] at h₁
    rw [Buf.getElem_slice, Buf.getElem_slice, happly, if_pos (by omega)]
    congr 1
    omega
  · intro j hj
    rw [happly, if_neg (by omega)]

/-! ### What one turn does to the command -/

namespace TelnetCmdBuf

variable {maxCmd : Nat} {t : TelnetCmdBuf} {b : Byte}

@[simp] theorem length_cmd (t : TelnetCmdBuf) : t.cmd.length = t.telnetCmdPos :=
  Buf.slice_length ..

theorem cmd_store (t : TelnetCmdBuf) (b : Byte) : (t.store b).cmd = t.cmd ++ [b] := by
  rw [cmd, store, Buf.slice_succ, Nat.zero_add, cmd]
  dsimp only
  rw [Function.update_self]
  congr 1
  refine Buf.slice_congr fun k hk => ?_
  rw [Function.update_of_ne (by omega)]

theorem cmd_atPos {n : Nat} (h : n ≤ t.telnetCmdPos) : (t.atPos n).cmd = t.cmd.take n := by
  have hsplit := Buf.slice_append t.telnetCmd 0 n (t.telnetCmdPos - n)
  rw [Nat.add_sub_cancel' h] at hsplit
  rw [cmd, cmd, hsplit, List.take_left' (Buf.slice_length ..)]
  rfl

theorem cmd_pred (t : TelnetCmdBuf) : (t.atPos (t.telnetCmdPos - 1)).cmd = t.cmd.dropLast := by
  rw [cmd_atPos (Nat.sub_le ..), List.dropLast_eq_take, length_cmd]

/-- Storing inside the array leaves what is behind it alone. -/
theorem store_frame (h : t.telnetCmdPos ≤ maxCmd) {j : Nat} (hj : maxCmd < j) :
    (t.store b).telnetCmd j = t.telnetCmd j :=
  Function.update_of_ne (by omega) _ _

theorem cmd_one (h : 2 ≤ t.telnetCmdPos) : t.cmd.getD 1 0 = t.telnetCmd 1 := by
  have hlt : 1 < t.cmd.length := by
    rw [length_cmd]
    omega
  rw [List.getD_eq_getElem _ _ hlt]
  exact Buf.getElem_slice ..

end TelnetCmdBuf

/-- A turn of the loop is a step of the scan. -/
structure Turn (maxCmd : Nat) (s s' : TelnetLoop) : Prop where
  td : s'.td.abs = (scanByte maxCmd ⟨s.td.abs, [], s.cmds⟩ (s.data s.i)).td
  cmds : s'.cmds = (scanByte maxCmd ⟨s.td.abs, [], s.cmds⟩ (s.data s.i)).cmds
  advances : Advances s s' (scanByte maxCmd ⟨s.td.abs, [], s.cmds⟩ (s.data s.i)).data
  inBounds : s'.td.InBounds maxCmd
  frame : ∀ j, maxCmd < j → s'.td.telnetCmd j = s.td.telnetCmd j

/-- A turn that deletes the byte it has looked at. -/
theorem Turn.delete {maxCmd : Nat} {s s' : TelnetLoop} (hi : s.i < s.len)
    (hdata : s'.data = (deleteChar s.data s.i s.len).1) (hi' : s'.i = s.i)
    (hlen : s'.len = s.len - 1)
    (hscan : scanByte maxCmd ⟨s.td.abs, [], s.cmds⟩ (s.data s.i) = ⟨s'.td.abs, [], s'.cmds⟩)
    (hbounds : s'.td.InBounds maxCmd)
    (hframe : ∀ j, maxCmd < j → s'.td.telnetCmd j = s.td.telnetCmd j) : Turn maxCmd s s' := by
  refine ⟨?_, ?_, ?_, hbounds, hframe⟩
  · rw [hscan]
  · rw [hscan]
  · rw [hscan]
    exact .delete hi hdata hi' hlen

/-- A turn that keeps it. -/
theorem Turn.keep {maxCmd : Nat} {s s' : TelnetLoop} (hi : s.i < s.len)
    (hdata : s'.data = s.data) (hi' : s'.i = s.i + 1) (hlen : s'.len = s.len)
    (hscan : scanByte maxCmd ⟨s.td.abs, [], s.cmds⟩ (s.data s.i) =
      ⟨s'.td.abs, [s.data s.i], s'.cmds⟩)
    (hbounds : s'.td.InBounds maxCmd)
    (hframe : ∀ j, maxCmd < j → s'.td.telnetCmd j = s.td.telnetCmd j) : Turn maxCmd s s' := by
  refine ⟨?_, ?_, ?_, hbounds, hframe⟩
  · rw [hscan]
  · rw [hscan]
  · rw [hscan]
    exact .keep hi hdata hi' hlen

section

variable {maxCmd : Nat} {s : TelnetLoop}

/-- Outside of commands. -/
theorem loopBody_idle (hi : s.i < s.len) (h0 : s.td.telnetCmdPos = 0) :
    Turn maxCmd s (loopBody maxCmd s) := by
  have hcmd : s.td.cmd = [] := List.eq_nil_of_length_eq_zero (by simpa using h0)
  by_cases hb : s.data s.i = 255
  · rw [loopBody, if_neg (by omega), if_pos hb]
    refine .delete hi rfl rfl rfl ?_ ?_ fun j hj => TelnetCmdBuf.store_frame (by omega) hj
    · have hstore : TelnetCmdBuf.abs { s.td.store 255 with suboptionIac := false } =
          ⟨(s.td.store 255).cmd, false⟩ := rfl
      rw [hstore, TelnetCmdBuf.cmd_store, TelnetCmdBuf.abs, hcmd, hb]
      rfl
    · simp only [TelnetCmdBuf.InBounds, TelnetCmdBuf.store]
      omega
  · rw [loopBody, if_neg (by omega), if_neg hb]
    refine .keep hi rfl rfl rfl ?_ ?_ fun _ _ => rfl
    · rw [scanByte, TelnetCmdBuf.abs, hcmd]
      dsimp only [List.length_nil]
      rw [if_neg (fun h => h rfl), if_neg hb, List.nil_append]
    · simp only [TelnetCmdBuf.InBounds]
      omega

/-- Behind an IAC. -/
theorem loopBody_iac (hmax : 2 ≤ maxCmd) (hi : s.i < s.len) (h1 : s.td.telnetCmdPos = 1) :
    Turn maxCmd s (loopBody maxCmd s) := by
  have hlen : s.td.cmd.length = 1 := by rw [TelnetCmdBuf.length_cmd, h1]
  rw [loopBody, if_pos (by omega)]
  dsimp only
  by_cases hb : s.data s.i = 255
  · rw [if_pos ⟨h1, hb⟩]
    refine .keep hi rfl rfl rfl ?_ (Nat.zero_le _) fun _ _ => rfl
    rw [scanByte, TelnetCmdBuf.abs]
    dsimp only
    rw [if_pos (by omega), if_pos ⟨hlen, hb⟩, List.nil_append]
    rfl
  rw [if_neg (fun h => hb h.2), if_pos h1]
  by_cases hlt : (s.data s.i).toNat < 250
  · rw [if_pos hlt]
    refine .delete hi rfl rfl rfl ?_ (Nat.zero_le _) fun j hj =>
      TelnetCmdBuf.store_frame (by omega) hj
    rw [scanByte, TelnetCmdBuf.abs]
    dsimp only
    rw [if_pos (by omega), if_neg (fun h => hb h.2), if_pos hlen, if_pos hlt,
      TelnetCmdBuf.cmd_store]
    rfl
  · rw [if_neg hlt]
    refine .delete hi rfl rfl rfl ?_ ?_ fun j hj => TelnetCmdBuf.store_frame (by omega) hj
    · rw [scanByte, TelnetCmdBuf.abs]
      dsimp only
      rw [if_pos (by omega), if_neg (fun h => hb h.2), if_pos hlen, if_neg hlt,
        TelnetCmdBuf.abs, TelnetCmdBuf.cmd_store]
      rfl
    · simp only [TelnetCmdBuf.InBounds, TelnetCmdBuf.store]
      omega

/-- Behind IAC and a verb. -/
theorem loopBody_verb (hmax : 2 ≤ maxCmd) (hi : s.i < s.len) (h2 : s.td.telnetCmdPos = 2) :
    Turn maxCmd s (loopBody maxCmd s) := by
  have hlen : s.td.cmd.length = 2 := by rw [TelnetCmdBuf.length_cmd, h2]
  have hpos : (s.td.store (s.data s.i)).telnetCmdPos = 3 := by
    rw [TelnetCmdBuf.store]
    dsimp only
    omega
  have hverb := TelnetCmdBuf.cmd_one (t := s.td.store (s.data s.i)) (by omega)
  rw [TelnetCmdBuf.cmd_store] at hverb
  rw [loopBody, if_pos (by omega)]
  dsimp only
  rw [if_neg (by omega), if_neg (by omega), if_pos h2, ← hverb]
  by_cases hsb : (s.td.cmd ++ [s.data s.i]).getD 1 0 ≠ 250
  · rw [if_pos hsb]
    refine .delete hi rfl rfl rfl ?_ (Nat.zero_le _) fun j hj =>
      TelnetCmdBuf.store_frame (by omega) hj
    rw [scanByte, TelnetCmdBuf.abs]
    dsimp only
    rw [if_pos (by omega), if_neg (by omega), if_neg (by omega), if_pos hlen, if_pos hsb,
      TelnetCmdBuf.cmd_store]
    rfl
  · rw [if_neg hsb]
    refine .delete hi rfl rfl rfl ?_ ?_ fun j hj => TelnetCmdBuf.store_frame (by omega) hj
    · rw [scanByte, TelnetCmdBuf.abs]
      dsimp only
      rw [if_pos (by omega), if_neg (by omega), if_neg (by omega), if_pos hlen, if_neg hsb,
        TelnetCmdBuf.abs, TelnetCmdBuf.cmd_store]
      rfl
    · simp only [TelnetCmdBuf.InBounds]
      omega

/-- Behind an IAC in a suboption. -/
theorem loopBody_suboptionIac (hin : s.td.InBounds maxCmd) (hi : s.i < s.len)
    (h3 : 3 ≤ s.td.telnetCmdPos) (hiac : s.td.suboptionIac = true) :
    Turn maxCmd s (loopBody maxCmd s) := by
  have hlen := TelnetCmdBuf.length_cmd s.td
  have hpred := TelnetCmdBuf.cmd_pred s.td
  rw [TelnetCmdBuf.InBounds] at hin
  rw [loopBody, if_pos (by omega)]
  dsimp only
  rw [if_neg (by omega), if_neg (by omega), if_neg (by omega), if_pos hiac]
  have hscan : ∀ r, (if s.data s.i = 240 then
        (⟨⟨[], false⟩, [], s.cmds ++ [s.td.cmd.dropLast]⟩ : TelnetScan)
      else if s.data s.i = 255 then ⟨⟨s.td.cmd, false⟩, [], s.cmds⟩
      else ⟨⟨s.td.cmd.dropLast, false⟩, [], s.cmds⟩) = r →
      scanByte maxCmd ⟨s.td.abs, [], s.cmds⟩ (s.data s.i) = r := by
    rintro r rfl
    rw [scanByte, TelnetCmdBuf.abs]
    dsimp only
    rw [if_pos (by omega), if_neg (by omega), if_neg (by omega), if_neg (by omega), if_pos hiac]
  by_cases hend : s.data s.i = 240
  · rw [if_pos hend]
    refine .delete hi rfl rfl rfl (hscan _ ?_) (Nat.zero_le _) fun _ _ => rfl
    rw [if_pos hend, ← hpred]
    rfl
  rw [if_neg hend]
  by_cases hb : s.data s.i = 255
  · rw [if_pos hb]
    refine .delete hi rfl rfl rfl (hscan _ ?_) hin fun _ _ => rfl
    rw [if_neg hend, if_pos hb]
    rfl
  · rw [if_neg hb]
    refine .delete hi rfl rfl rfl (hscan _ ?_) ?_ fun _ _ => rfl
    · rw [if_neg hend, if_neg hb, ← hpred]
      rfl
    · simp only [TelnetCmdBuf.InBounds]
      omega

/-- In a suboption. -/
theorem loopBody_suboption (hin : s.td.InBounds maxCmd) (hi : s.i < s.len)
    (h3 : 3 ≤ s.td.telnetCmdPos) (hiac : s.td.suboptionIac = false) :
    Turn maxCmd s (loopBody maxCmd s) := by
  have hlen := TelnetCmdBuf.length_cmd s.td
  rw [TelnetCmdBuf.InBounds] at hin
  -- The position the byte goes to, and what of the command is in front of it.
  obtain ⟨td, htd, hpos, hcmd, harr⟩ : ∃ td : TelnetCmdBuf,
      (if maxCmd < s.td.telnetCmdPos then s.td.atPos maxCmd else s.td) = td ∧
        td.telnetCmdPos ≤ maxCmd ∧
        (if maxCmd < s.td.cmd.length then s.td.cmd.take maxCmd else s.td.cmd) = td.cmd ∧
        td.telnetCmd = s.td.telnetCmd ∧ td.suboptionIac = false := by
    by_cases hlong : maxCmd < s.td.telnetCmdPos
    · refine ⟨s.td.atPos maxCmd, if_pos hlong, Nat.le_refl _, ?_, rfl, hiac⟩
      rw [if_pos (by omega), TelnetCmdBuf.cmd_atPos (by omega)]
    · exact ⟨s.td, if_neg hlong, by omega, if_neg (by omega), rfl, hiac⟩
  obtain ⟨harr, hflag⟩ := harr
  have hscan : scanByte maxCmd ⟨s.td.abs, [], s.cmds⟩ (s.data s.i) =
      ⟨⟨td.cmd ++ [s.data s.i], decide (s.data s.i = 255)⟩, [], s.cmds⟩ := by
    rw [scanByte, TelnetCmdBuf.abs]
    dsimp only
    rw [if_pos (by omega), if_neg (by omega), if_neg (by omega), if_neg (by omega), hiac,
      if_neg Bool.false_ne_true, hcmd]
  have hframe : ∀ j, maxCmd < j → (td.store (s.data s.i)).telnetCmd j = s.td.telnetCmd j := by
    intro j hj
    rw [TelnetCmdBuf.store_frame hpos hj, harr]
  have hbounds : (td.store (s.data s.i)).telnetCmdPos ≤ maxCmd + 1 := Nat.succ_le_succ hpos
  rw [loopBody, if_pos (by omega)]
  dsimp only
  rw [if_neg (by omega), if_neg (by omega), if_neg (by omega),
    if_neg (fun h => Bool.false_ne_true (hiac.symm.trans h)), htd]
  by_cases hb : s.data s.i = 255
  · rw [if_pos hb]
    refine .delete hi rfl rfl rfl ?_ hbounds hframe
    rw [hscan, decide_eq_true hb, ← TelnetCmdBuf.cmd_store]
    rfl
  · rw [if_neg hb]
    refine .delete hi rfl rfl rfl ?_ hbounds hframe
    rw [hscan, decide_eq_false hb, ← TelnetCmdBuf.cmd_store, ← hflag]
    rfl

/-- **A turn of the loop is a step of the scan.** -/
theorem loopBody_turn (hmax : 2 ≤ maxCmd) (hin : s.td.InBounds maxCmd) (hi : s.i < s.len) :
    Turn maxCmd s (loopBody maxCmd s) := by
  have hcases : s.td.telnetCmdPos = 0 ∨ s.td.telnetCmdPos = 1 ∨ s.td.telnetCmdPos = 2 ∨
      3 ≤ s.td.telnetCmdPos := by omega
  rcases hcases with h | h | h | h
  · exact loopBody_idle hi h
  · exact loopBody_iac hmax hi h
  · exact loopBody_verb hmax hi h
  · cases hiac : s.td.suboptionIac with
    | true => exact loopBody_suboptionIac hin hi h hiac
    | false => exact loopBody_suboption hin hi h hiac

end

/-! ### The loop -/

/-- What the loop leaves, given what is in front of `i` and what is still to come. -/
structure Scanned (maxCmd : Nat) (s s' : TelnetLoop) (r : TelnetScan) : Prop where
  data : s'.data.slice 0 s'.len = s.data.slice 0 s.i ++ r.data
  td : s'.td.abs = r.td
  cmds : s'.cmds = r.cmds
  len_le : s'.len ≤ s.len
  inBounds : s'.td.InBounds maxCmd
  dataFrame : ∀ j, s.len ≤ j → s'.data j = s.data j
  cmdFrame : ∀ j, maxCmd < j → s'.td.telnetCmd j = s.td.telnetCmd j

theorem processLoop_scanned {maxCmd : Nat} (hmax : 2 ≤ maxCmd) (s : TelnetLoop)
    (hin : s.td.InBounds maxCmd) (hi : s.i ≤ s.len) :
    Scanned maxCmd s (processLoop maxCmd s)
      ((s.data.slice s.i (s.len - s.i)).foldl (scanByte maxCmd) ⟨s.td.abs, [], s.cmds⟩) := by
  -- The induction follows the loop; a turn takes one byte off the front of what is to come.
  induction s using processLoop.induct maxCmd with
  | case1 s hlt ih =>
    have hturn := loopBody_turn hmax hin hlt
    have hrest := ih hturn.inBounds hturn.advances.le
    have hslice : s.data.slice s.i (s.len - s.i) =
        s.data s.i :: s.data.slice (s.i + 1) (s.len - (s.i + 1)) := by
      have hcount : s.len - s.i = s.len - (s.i + 1) + 1 := by omega
      rw [hcount, Buf.slice_cons]
    rw [processLoop, if_pos hlt, hslice, List.foldl_cons, foldl_scanByte_from]
    rw [foldl_scanByte_from, hturn.advances.ahead, hturn.td, hturn.cmds] at hrest
    refine ⟨?_, hrest.td, hrest.cmds, Nat.le_trans hrest.len_le hturn.advances.len_le,
      hrest.inBounds, ?_, ?_⟩
    · rw [hrest.data, hturn.advances.kept]
      exact List.append_assoc ..
    · intro j hj
      rw [hrest.dataFrame j (Nat.le_trans hturn.advances.len_le hj), hturn.advances.frame j hj]
    · intro j hj
      rw [hrest.cmdFrame j hj, hturn.frame j hj]
  | case2 s hge =>
    have hend : s.i = s.len := by omega
    rw [processLoop, if_neg hge, hend, Nat.sub_self]
    refine ⟨?_, rfl, rfl, Nat.le_refl _, hin, fun _ _ => rfl, fun _ _ => rfl⟩
    rw [hend]
    exact (List.append_nil _).symm

/-- `process_telnet_data` on a buffer with `len` bytes. -/
def processInPlace (maxCmd : Nat) (data : Buf) (len : Nat) (td : TelnetCmdBuf) : TelnetLoop :=
  processLoop maxCmd ⟨data, 0, len, td, []⟩

/-- **The loop in place computes the scan**: it leaves the data in front and returns its
length, handles the commands, and assigns to no element behind the bytes it was given nor
behind the end of `telnet_cmd`, which has `maxCmd + 1` elements. -/
theorem processInPlace_scans {maxCmd : Nat} (hmax : 2 ≤ maxCmd) (data : Buf) (len : Nat)
    {td : TelnetCmdBuf} (hin : td.InBounds maxCmd) :
    let r := processInPlace maxCmd data len td
    let scan := processTelnetData maxCmd td.abs (data.slice 0 len)
    r.data.slice 0 r.len = scan.data ∧ r.td.abs = scan.td ∧ r.cmds = scan.cmds ∧
      r.td.InBounds maxCmd ∧ (∀ j, len ≤ j → r.data j = data j) ∧
      ∀ j, maxCmd < j → r.td.telnetCmd j = td.telnetCmd j := by
  have h := processLoop_scanned hmax ⟨data, 0, len, td, []⟩ hin (Nat.zero_le _)
  exact ⟨h.data, h.td, h.cmds, h.inBounds, h.dataFrame, h.cmdFrame⟩

/-- A doubled IAC and a break among two bytes of data. -/
theorem processInPlace_scans_break :
    let r := processInPlace 31 (Buf.ofList [65, 255, 255, 255, 243, 66]) 6 ⟨fun _ => 0, 0, false⟩
    r.data.slice 0 r.len = [65, 255, 66] ∧ r.cmds = [[255, 243]] := by
  have h := @processInPlace_scans 31 (by decide) (Buf.ofList [65, 255, 255, 255, 243, 66]) 6
    ⟨fun _ => 0, 0, false⟩ (Nat.zero_le _)
  exact ⟨h.1, h.2.2.1⟩

/-! ### Doubling the IACs -/

/-- `PORT_BUFSIZE`: the size of a transfer buffer. -/
def portBufsize : Nat := 64

/-- The locals of the loop in `handle_dev_fd_read`, and the indices it has assigned to. -/
structure DoubleLoop where
  buf : Buf
  count : Nat
  i : Nat
  written : List Nat

/-- The body of the loop, its `i++` included. -/
def doubleBody (s : DoubleLoop) : DoubleLoop :=
  if s.buf s.i = 255 then
    { buf := Function.update (s.buf.pushUp s.i (s.count - s.i)) (s.i + 1) 255
      count := s.count + 1
      i := s.i + 2
      written := s.written ++ ((List.range' (s.i + 2) (s.count - s.i)).reverse ++ [s.i + 1]) }
  else { s with i := s.i + 1 }

theorem doubleBody_measure (s : DoubleLoop) (h : s.i < s.count) :
    (doubleBody s).count - (doubleBody s).i + 1 = s.count - s.i := by
  rw [doubleBody]
  split
  · dsimp only
    omega
  · dsimp only
    omega

/-- The loop, from `i` on. -/
def doubleLoop (s : DoubleLoop) : DoubleLoop :=
  if s.i < s.count then doubleLoop (doubleBody s) else s
termination_by s.count - s.i
decreasing_by
  have := doubleBody_measure s ‹_›
  omega

/-- The bytes that are still to be looked at. -/
def DoubleLoop.ahead (s : DoubleLoop) : List Byte := s.buf.slice s.i (s.count - s.i)

/-- A turn doubles the byte in front, if it is an IAC. -/
theorem doubleBody_spec {s : DoubleLoop} (h : s.i < s.count) :
    s.ahead = s.buf s.i :: (doubleBody s).ahead ∧
      (doubleBody s).buf.slice 0 (doubleBody s).i =
        s.buf.slice 0 s.i ++ Escape.pair TN_IAC (s.buf s.i) ∧
      (doubleBody s).i ≤ (doubleBody s).count := by
  have hahead : s.ahead = s.buf s.i :: s.buf.slice (s.i + 1) (s.count - (s.i + 1)) := by
    have hcount : s.count - s.i = s.count - (s.i + 1) + 1 := by omega
    rw [DoubleLoop.ahead, hcount, Buf.slice_cons]
  rw [hahead, DoubleLoop.ahead, doubleBody]
  by_cases hb : s.buf s.i = 255
  · rw [if_pos hb]
    dsimp only
    refine ⟨?_, ?_, by omega⟩
    · -- What is ahead has moved up by one.
      have hcount : s.count + 1 - (s.i + 2) = s.count - (s.i + 1) := by omega
      rw [hcount]
      congr 1
      apply List.ext_getElem (by simp)
      intro k h₁ h₂
      rw [Buf.slice_length] at h₁
      rw [Buf.getElem_slice, Buf.getElem_slice, Function.update_of_ne (by omega),
        Buf.pushUp_apply, if_pos (by omega)]
      congr 1
      omega
    · rw [Buf.slice_succ, Buf.slice_succ, Nat.zero_add, Nat.zero_add, Function.update_self,
        Function.update_of_ne (by omega), Buf.pushUp_apply, if_neg (by omega), hb,
        Escape.pair_self, List.append_assoc]
      congr 1
      refine Buf.slice_congr fun k hk => ?_
      rw [Function.update_of_ne (by omega), Buf.pushUp_apply, if_neg (by omega)]
  · rw [if_neg hb, Escape.pair_of_ne _ hb]
    dsimp only
    refine ⟨rfl, ?_, h⟩
    rw [Buf.slice_succ, Nat.zero_add]

/-- The indices a turn assigns to: with an IAC in front, the highest is one behind the bytes
that are there afterwards. -/
theorem doubleBody_written {s : DoubleLoop} (h : s.i < s.count) (size : Nat) :
    (∀ k ∈ (doubleBody s).written, k < size) ↔
      (∀ k ∈ s.written, k < size) ∧ (s.buf s.i = 255 → (doubleBody s).count < size) := by
  rw [doubleBody]
  by_cases hb : s.buf s.i = 255
  · rw [if_pos hb]
    simp only [List.mem_append, List.mem_reverse, List.mem_range'_1, List.mem_singleton]
    constructor
    · intro hall
      refine ⟨fun k hk => hall k (.inl hk), fun _ => hall _ (.inr (.inl ?_))⟩
      omega
    · rintro ⟨hold, hnew⟩ k (hk | hk | hk)
      · exact hold k hk
      · have := hnew hb
        omega
      · have := hnew hb
        omega
  · rw [if_neg hb]
    exact ⟨fun hall => ⟨hall, fun h' => absurd h' hb⟩, fun hall => hall.1⟩

theorem doubleLoop_spec (s : DoubleLoop) (hi : s.i ≤ s.count) (size : Nat) :
    (doubleLoop s).buf.slice 0 (doubleLoop s).count =
        s.buf.slice 0 s.i ++ Escape.double TN_IAC s.ahead ∧
      ((∀ k ∈ (doubleLoop s).written, k < size) ↔ (∀ k ∈ s.written, k < size) ∧
        (TN_IAC ∈ s.ahead → s.count + s.ahead.count TN_IAC < size)) := by
  induction s using doubleLoop.induct with
  | case1 s hlt ih =>
    obtain ⟨hahead, hfront, hle⟩ := doubleBody_spec hlt
    obtain ⟨hbytes, hwritten⟩ := ih hle
    have hown := doubleBody_written hlt size
    rw [doubleLoop, if_pos hlt, hbytes, hfront, hahead, Escape.double_cons, List.append_assoc,
      hwritten, hown]
    refine ⟨rfl, ?_⟩
    -- Later turns move further up than this one.
    have hcount : (doubleBody s).count = s.count + if s.buf s.i = 255 then 1 else 0 := by
      rw [doubleBody]
      split
      · rfl
      · rfl
    rw [List.count_cons, List.mem_cons, hcount]
    by_cases hb : s.buf s.i = 255
    · have hbeq : (s.buf s.i == TN_IAC) = true := beq_iff_eq.2 hb
      rw [if_pos hb, hbeq, if_pos rfl]
      by_cases hmem : TN_IAC ∈ (doubleBody s).ahead
      · have hpos := List.count_pos_iff.2 hmem
        constructor
        · rintro ⟨⟨hold, hnew⟩, hlater⟩
          refine ⟨hold, fun _ => ?_⟩
          have := hlater hmem
          omega
        · rintro ⟨hold, hall⟩
          have := hall (.inl hb.symm)
          exact ⟨⟨hold, fun _ => by omega⟩, fun _ => by omega⟩
      · have hzero := List.count_eq_zero.2 hmem
        rw [hzero]
        constructor
        · rintro ⟨⟨hold, hnew⟩, -⟩
          refine ⟨hold, fun _ => ?_⟩
          have := hnew hb
          omega
        · rintro ⟨hold, hall⟩
          have := hall (.inl hb.symm)
          exact ⟨⟨hold, fun _ => by omega⟩, fun h => absurd h hmem⟩
    · have hbeq : (s.buf s.i == TN_IAC) = false := beq_eq_false_iff_ne.2 hb
      rw [if_neg hb, hbeq, if_neg Bool.false_ne_true]
      constructor
      · rintro ⟨⟨hold, -⟩, hlater⟩
        refine ⟨hold, ?_⟩
        rintro (h | h)
        · exact absurd h.symm hb
        · exact hlater h
      · rintro ⟨hold, hall⟩
        exact ⟨⟨hold, fun h => absurd h hb⟩, fun h => hall (.inr h)⟩
  | case2 s hge =>
    have hend : s.i = s.count := by omega
    have hahead : s.ahead = [] := by
      rw [DoubleLoop.ahead, hend, Nat.sub_self]
      rfl
    rw [doubleLoop, if_neg hge, hahead, hend]
    exact ⟨(List.append_nil _).symm, by simp⟩

/-- The loop on a buffer into which `count` bytes were read. -/
def doubleIacs (buf : Buf) (count : Nat) : DoubleLoop := doubleLoop ⟨buf, count, 0, []⟩

/-- **It leaves the bytes with their IACs doubled.** -/
theorem doubleIacs_bytes (buf : Buf) (count : Nat) :
    (doubleIacs buf count).buf.slice 0 (doubleIacs buf count).count =
      Escape.double TN_IAC (buf.slice 0 count) :=
  (doubleLoop_spec ⟨buf, count, 0, []⟩ (Nat.zero_le _) 0).1

/-- **It stays in the buffer unless all the 32 bytes that can be read are IACs**: then it
assigns to the byte behind `dev_to_tcpbuf`. -/
theorem doubleIacs_fits_iff (buf : Buf) {count : Nat} (h : count ≤ portBufsize / 2) :
    (∀ k ∈ (doubleIacs buf count).written, k < portBufsize) ↔
      ¬ (count = portBufsize / 2 ∧ ∀ b ∈ buf.slice 0 count, b = TN_IAC) := by
  have hspec := (doubleLoop_spec ⟨buf, count, 0, []⟩ (Nat.zero_le _) portBufsize).2
  have hahead : DoubleLoop.ahead ⟨buf, count, 0, []⟩ = buf.slice 0 count := rfl
  rw [hahead] at hspec
  have hlen : (buf.slice 0 count).length = count := Buf.slice_length ..
  have hle : (buf.slice 0 count).count TN_IAC ≤ count :=
    Nat.le_trans List.count_le_length (Nat.le_of_eq hlen)
  have hall : (buf.slice 0 count).count TN_IAC = count ↔ ∀ b ∈ buf.slice 0 count, b = TN_IAC := by
    conv_lhs => rhs; rw [← hlen]
    rw [List.count_eq_length]
    exact ⟨fun h b hb => (h b hb).symm, fun h b hb => (h b hb).symm⟩
  rw [doubleIacs, hspec, ← hall]
  rw [portBufsize] at h ⊢
  constructor
  · rintro ⟨-, hfit⟩ ⟨hcount, hiacs⟩
    have hmem : TN_IAC ∈ buf.slice 0 count := List.count_pos_iff.1 (by omega)
    have := hfit hmem
    dsimp only at this
    omega
  · intro hnot
    refine ⟨by simp, fun _ => ?_⟩
    dsimp only
    omega

/-- A read of 32 IACs, and one of 31. -/
theorem doubleIacs_fits_iacs :
    ¬ (∀ k ∈ (doubleIacs (fun _ => TN_IAC) 32).written, k < portBufsize) ∧
      ∀ k ∈ (doubleIacs (fun _ => TN_IAC) 31).written, k < portBufsize := by
  refine ⟨fun h => (doubleIacs_fits_iff _ (by decide)).1 h ⟨rfl, ?_⟩,
    (doubleIacs_fits_iff _ (by decide)).2 fun h => absurd h.1 (by decide)⟩
  intro b hb
  obtain ⟨k, -, rfl⟩ := List.mem_map.1 hb
  rfl

end SerialServer.Dataxfer
