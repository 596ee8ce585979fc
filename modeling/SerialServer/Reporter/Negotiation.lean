import SerialServer.Reporter.Port
import SerialServer.Reporter.TelnetStream

/-!
# SerialServer.Reporter.Negotiation

Telnet commands and their answers: `handle_telnet_cmd` of `telnet.c` with the table of
options and the handlers of `dataxfer.c`.

The table `telnet_cmds` is one global of the program. `telnet_init` hands every connection
a pointer to it, so its flags are shared by all ports and are not set again when a client
connects. What a command issues goes to the port's `out_telnet_cmd`, element by element, as
long as there is room.

`handle_telnet_cmd` calls the option handler of the entry it finds, and only the entry of
the com-port option has one. Such a call through a null pointer is `none` here.
-/

namespace SerialServer.Dataxfer

/-! ### The table of options -/

/-- `struct telnet_cmd`. Of the two handlers it is only kept that an entry has those of the
com-port option; the others are null. -/
structure TelnetCmd where
  option : Byte
  iWill : Bool
  iDo : Bool
  sentWill : Bool
  sentDo : Bool
  remWill : Bool
  remDo : Bool
  comPort : Bool
  deriving Repr, DecidableEq

/-- `TN_OPT_BINARY_TRANSMISSION`. -/
abbrev TN_OPT_BINARY_TRANSMISSION : Byte := 0

/-- `TN_OPT_ECHO`. -/
abbrev TN_OPT_ECHO : Byte := 1

/-- `TN_OPT_SUPPRESS_GO_AHEAD`. -/
abbrev TN_OPT_SUPPRESS_GO_AHEAD : Byte := 3

/-- `TN_OPT_COM_PORT`. -/
abbrev TN_OPT_COM_PORT : Byte := 44

/-- `telnet_cmds`, as the program starts with it. -/
def telnetCmds : List TelnetCmd :=
  [⟨TN_OPT_SUPPRESS_GO_AHEAD, false, true, true, false, false, false, false⟩,
    ⟨TN_OPT_ECHO, false, true, true, true, false, false, false⟩,
    ⟨TN_OPT_BINARY_TRANSMISSION, true, true, false, true, false, false, false⟩,
    ⟨TN_OPT_COM_PORT, true, false, false, false, false, false, true⟩]

/-- `find_cmd`. -/
def findCmd (table : List TelnetCmd) (option : Byte) : Option TelnetCmd :=
  table.find? fun c => c.option = option

/-- Assign to the entry `find_cmd` has found. -/
def modifyCmd (option : Byte) (f : TelnetCmd → TelnetCmd) : List TelnetCmd → List TelnetCmd
  | [] => []
  | c :: cs => if c.option = option then f c :: cs else c :: modifyCmd option f cs

/-! ### What a command does -/

abbrev TN_WILL : Byte := 251
abbrev TN_WONT : Byte := 252
abbrev TN_DO : Byte := 253
abbrev TN_DONT : Byte := 254

/-- `telnet_init_seq`. -/
def telnetInitSeq : List Item :=
  [.negotiate TN_WILL TN_OPT_SUPPRESS_GO_AHEAD, .negotiate TN_WILL TN_OPT_ECHO,
    .negotiate TN_DONT TN_OPT_ECHO, .negotiate TN_DO TN_OPT_BINARY_TRANSMISSION]

/-- The modem lines a state notification carries. -/
structure ModemLines where
  cd : Bool
  ri : Bool
  dsr : Bool
  cts : Bool
  deriving Repr, DecidableEq

/-- The byte made of them. -/
def ModemLines.state (l : ModemLines) : Byte :=
  (if l.cd then 0x80 else 0) ||| (if l.ri then 0x40 else 0) ||| (if l.dsr then 0x20 else 0) |||
    (if l.cts then 0x10 else 0)

/-- The part of a port that the commands of its client keep, and `out_telnet_cmd` with the
error flag of its `telnet_data_t`. -/
structure Negotiator where
  is2217 : Bool
  lastModemstate : Byte
  com : ComPort
  outTelnetCmd : List Byte
  error : Bool
  deriving Repr, DecidableEq

/-- The settings of the program and of the port. -/
structure NegotiatorConfig where
  com : ComConfig
  /-- `dinfo.allow_2217` -/
  allow2217 : Bool
  /-- The size of `out_telnet_cmdbuf`. -/
  cmdbufSize : Nat

/-- What the system calls of one command return. -/
structure NegotiatorEnv where
  com : ComEnv
  /-- What `TIOCMGET` reports, if it succeeds. -/
  lines : Option ModemLines

/-- `send_i` and `telnet_send_option`: an element goes to the end of `out_telnet_cmd`, or, if
there is no room for it, the connection is to be given up. -/
def Negotiator.send (size : Nat) (n : Negotiator) (item : Item) : Negotiator :=
  if n.outTelnetCmd.length + item.encode.length ≤ size then
    { n with outTelnetCmd := n.outTelnetCmd ++ item.encode }
  else { n with error := true }

/-- What a command leaves behind: the table, the port without what is issued, the elements it
issues, in order, and the calls that change the table of ports. -/
structure Handled where
  table : List TelnetCmd
  port : Negotiator
  sends : List Item
  calls : List Call

/-- `com_port_will`, and whether it agrees. -/
def comPortWill (cfg : NegotiatorConfig) (env : NegotiatorEnv) (n : Negotiator) :
    Negotiator × List Item × Bool :=
  if !cfg.allow2217 then (n, [], false)
  else
    let state := (env.lines.map ModemLines.state).getD 0
    ({ n with
        is2217 := true
        lastModemstate := state
        com := { n.com with linestateMask := 0, modemstateMask := 255 } },
      [.suboption [TN_OPT_COM_PORT, 107, state]], true)

/-- The branch of `handle_telnet_cmd` for WILL. -/
def handleWill (cfg : NegotiatorConfig) (env : NegotiatorEnv) (table : List TelnetCmd)
    (n : Negotiator) (option : Byte) : Handled :=
  match findCmd table option with
  | none => ⟨table, n, [.negotiate TN_DONT option], []⟩
  | some cmd =>
      if !cmd.sentDo then
        let table := modifyCmd option (fun c => { c with remWill := true }) table
        if !cmd.iWill then ⟨table, n, [.negotiate TN_DONT option], []⟩
        else if cmd.comPort then
          let (n, notify, rv) := comPortWill cfg env n
          ⟨table, n, notify ++ [.negotiate (if rv then TN_DO else TN_DONT) option], []⟩
        else ⟨table, n, [.negotiate TN_DO option], []⟩
      else ⟨modifyCmd option (fun c => { c with sentDo := false, remWill := true }) table, n, [], []⟩

/-- The branch for WONT. -/
def handleWont (table : List TelnetCmd) (n : Negotiator) (option : Byte) : Handled :=
  match findCmd table option with
  | none => ⟨table, n, [.negotiate TN_DONT option], []⟩
  | some cmd =>
      if !cmd.sentDo then
        ⟨modifyCmd option (fun c => { c with remWill := false }) table, n,
          [.negotiate TN_DONT option], []⟩
      else
        ⟨modifyCmd option (fun c => { c with sentDo := false, remWill := false }) table, n, [], []⟩

/-- The branch for DO. -/
def handleDo (table : List TelnetCmd) (n : Negotiator) (option : Byte) : Handled :=
  match findCmd table option with
  | none => ⟨table, n, [.negotiate TN_WONT option], []⟩
  | some cmd =>
      if !cmd.sentWill then
        ⟨modifyCmd option (fun c => { c with remDo := true }) table, n,
          [.negotiate (if !cmd.iDo then TN_WONT else TN_WILL) option], []⟩
      else
        ⟨modifyCmd option (fun c => { c with sentWill := false, remDo := true }) table, n, [], []⟩

/-- The branch for DONT. -/
def handleDont (table : List TelnetCmd) (n : Negotiator) (option : Byte) : Handled :=
  match findCmd table option with
  | none => ⟨table, n, [.negotiate TN_WONT option], []⟩
  | some cmd =>
      if !cmd.sentWill then
        ⟨modifyCmd option (fun c => { c with remDo := false }) table, n,
          [.negotiate TN_WONT option], []⟩
      else
        ⟨modifyCmd option (fun c => { c with sentWill := false, remDo := false }) table, n, [], []⟩

/-- The branch for a suboption. -/
def handleSuboption (cfg : NegotiatorConfig) (env : NegotiatorEnv) (table : List TelnetCmd)
    (n : Negotiator) (option : List Byte) : Option Handled :=
  match findCmd table (option.getD 0 0) with
  | none => some ⟨table, n, [], []⟩
  | some cmd =>
      if cmd.comPort then
        let r := comPortHandler cfg.com env.com n.com option
        some ⟨table, { n with com := r.port }, r.reply.toList.map .suboption, r.calls⟩
      else none

/-- `handle_telnet_cmd`. A command below 250 is at most a break for the device. -/
def handleTelnetCmd (cfg : NegotiatorConfig) (env : NegotiatorEnv) (table : List TelnetCmd)
    (n : Negotiator) (cmd : List Byte) : Option Handled :=
  let nothing : Handled := ⟨table, n, [], []⟩
  if cmd.length < 2 then some nothing
  else
    let verb := cmd.getD 1 0
    let option := cmd.getD 2 0
    if verb.toNat < 250 then some nothing
    else if verb = 250 then handleSuboption cfg env table n (cmd.drop 2)
    else if verb = TN_WILL then some (handleWill cfg env table n option)
    else if verb = TN_WONT then some (handleWont table n option)
    else if verb = TN_DO then some (handleDo table n option)
    else if verb = TN_DONT then some (handleDont table n option)
    else some nothing

/-- The commands of one read, one after the other. -/
def handleTelnetCmds (cfg : NegotiatorConfig) (env : Nat → NegotiatorEnv) :
    List TelnetCmd → Negotiator → List (List Byte) → Option Handled
  | table, n, [] => some ⟨table, n, [], []⟩
  | table, n, cmd :: cmds =>
      match handleTelnetCmd cfg (env 0) table n cmd with
      | none => none
      | some r =>
          let n := r.sends.foldl (Negotiator.send cfg.cmdbufSize) r.port
          match handleTelnetCmds cfg (fun i => env (i + 1)) r.table n cmds with
          | none => none
          | some r' => some ⟨r'.table, r'.port, r.sends ++ r'.sends, r.calls ++ r'.calls⟩

/-! ### What is sent -/

/-- The elements the program sends: the four verbs, and suboptions of the com-port option that
are at most `size` long. -/
def Item.Answer (size : Nat) : Item → Prop
  | .negotiate verb _ => 250 < verb.toNat ∧ verb ≠ TN_IAC
  | .suboption option => option.head? = some TN_OPT_COM_PORT ∧ option.length ≤ size
  | _ => False

/-- How long a suboption can be. -/
def NegotiatorConfig.replySize (cfg : NegotiatorConfig) : Nat := max 6 cfg.com.maxXmit

/-- The reply to a command. It is never taken for a notification of the modem lines. -/
theorem comPortHandler_reply {cfg : NegotiatorConfig} {env : ComEnv} {p : ComPort}
    {option reply : List Byte} (h : (comPortHandler cfg.com env p option).reply = some reply) :
    (Item.suboption reply).Answer cfg.replySize ∧ reply.getD 1 0 ≠ 107 := by
  have hshort : ∀ n, n ≤ 6 → n ≤ cfg.replySize := fun n hn => Nat.le_trans hn (Nat.le_max_left ..)
  have hsecond : ∀ (a b : Byte) (l : List Byte), b ≠ 107 → (a :: b :: l).getD 1 0 ≠ 107 :=
    fun _ _ _ h => h
  rw [comPortHandler] at h
  dsimp only at h
  split at h
  · cases h
  split at h
  · obtain rfl := Option.some.inj h
    refine ⟨⟨rfl, ?_⟩, hsecond _ _ _ (by decide)⟩
    rw [List.length_append, List.length_take, NegotiatorConfig.replySize]
    simp only [List.length_cons, List.length_nil]
    omega
  -- The other replies are the option, the number of the command and a value.
  all_goals repeat' split at h
  all_goals first
    | cases h; done
    | obtain rfl := Option.some.inj h
      exact ⟨⟨rfl, hshort _ (Nat.le_of_ble_eq_true rfl)⟩, hsecond _ _ _ (by decide)⟩

/-- A command only issues answers, and leaves it to `send` to put them into `out_telnet_cmd`. -/
structure Handled.Sends (cfg : NegotiatorConfig) (n : Negotiator) (r : Handled) : Prop where
  answers : ∀ item ∈ r.sends, item.Answer cfg.replySize
  out : r.port.outTelnetCmd = n.outTelnetCmd
  error : r.port.error = n.error

theorem sends_one {cfg : NegotiatorConfig} {n : Negotiator} {item : Item}
    (h : item.Answer cfg.replySize) (table : List TelnetCmd) (calls : List Call) :
    Handled.Sends cfg n ⟨table, n, [item], calls⟩ :=
  ⟨List.forall_mem_singleton.2 h, rfl, rfl⟩

theorem sends_none (cfg : NegotiatorConfig) (n : Negotiator) (table : List TelnetCmd)
    (calls : List Call) : Handled.Sends cfg n ⟨table, n, [], calls⟩ :=
  ⟨fun _ h => absurd h List.not_mem_nil, rfl, rfl⟩

theorem answer_verb {verb : Byte} (option : Byte) {size : Nat}
    (h : verb ∈ [TN_WILL, TN_WONT, TN_DO, TN_DONT]) : (Item.negotiate verb option).Answer size := by
  have hverbs : ∀ v ∈ [TN_WILL, TN_WONT, TN_DO, TN_DONT], 250 < v.toNat ∧ v ≠ TN_IAC := by decide
  exact hverbs verb h

theorem handleWill_sends (cfg : NegotiatorConfig) (env : NegotiatorEnv) (table : List TelnetCmd)
    (n : Negotiator) (option : Byte) : (handleWill cfg env table n option).Sends cfg n := by
  have hdont := @answer_verb TN_DONT option cfg.replySize (by decide)
  have hdo := @answer_verb TN_DO option cfg.replySize (by decide)
  rw [handleWill]
  split
  · exact sends_one hdont ..
  dsimp only
  split
  · split
    · exact sends_one hdont ..
    split
    · rw [comPortWill]
      split
      · exact sends_one hdont ..
      · have hnotify : ∀ state : Byte,
            (Item.suboption [TN_OPT_COM_PORT, 107, state]).Answer cfg.replySize :=
          fun _ => ⟨rfl, Nat.le_trans (by simp) (Nat.le_max_left ..)⟩
        exact ⟨List.forall_mem_cons.2 ⟨hnotify _, List.forall_mem_singleton.2 hdo⟩, rfl, rfl⟩
    · exact sends_one hdo ..
  · exact sends_none ..

/-- The other three branches. -/
theorem sends_branch {cfg : NegotiatorConfig} {n : Negotiator} {verb : Byte} (option : Byte)
    (h : verb ∈ [TN_WILL, TN_WONT, TN_DO, TN_DONT]) (table table' : List TelnetCmd)
    (awaited : Bool) :
    Handled.Sends cfg n (if !awaited then ⟨table, n, [.negotiate verb option], []⟩
      else ⟨table', n, [], []⟩) := by
  split
  · exact sends_one (answer_verb option h) ..
  · exact sends_none ..

theorem handleWont_sends (cfg : NegotiatorConfig) (table : List TelnetCmd) (n : Negotiator)
    (option : Byte) : (handleWont table n option).Sends cfg n := by
  rw [handleWont]
  split
  · exact sends_one (answer_verb option (by decide)) ..
  · exact sends_branch option (by decide) ..

theorem handleDo_sends (cfg : NegotiatorConfig) (table : List TelnetCmd) (n : Negotiator)
    (option : Byte) : (handleDo table n option).Sends cfg n := by
  rw [handleDo]
  split
  · exact sends_one (answer_verb option (by decide)) ..
  · next cmd _ =>
    refine sends_branch option ?_ ..
    cases cmd.iDo with
    | true => decide
    | false => decide

theorem handleDont_sends (cfg : NegotiatorConfig) (table : List TelnetCmd) (n : Negotiator)
    (option : Byte) : (handleDont table n option).Sends cfg n := by
  rw [handleDont]
  split
  · exact sends_one (answer_verb option (by decide)) ..
  · exact sends_branch option (by decide) ..

theorem handleSuboption_sends {cfg : NegotiatorConfig} {env : NegotiatorEnv}
    {table : List TelnetCmd} {n : Negotiator} {option : List Byte} {r : Handled}
    (h : handleSuboption cfg env table n option = some r) : r.Sends cfg n := by
  rw [handleSuboption] at h
  split at h
  · obtain rfl := Option.some.inj h
    exact sends_none ..
  split at h
  · obtain rfl := Option.some.inj h
    refine ⟨fun item hitem => ?_, rfl, rfl⟩
    obtain ⟨reply, hreply, rfl⟩ := List.mem_map.1 hitem
    rw [Option.mem_toList] at hreply
    exact (comPortHandler_reply hreply).1
  · cases h

theorem handleTelnetCmd_sends {cfg : NegotiatorConfig} {env : NegotiatorEnv}
    {table : List TelnetCmd} {n : Negotiator} {cmd : List Byte} {r : Handled}
    (h : handleTelnetCmd cfg env table n cmd = some r) : r.Sends cfg n := by
  rw [handleTelnetCmd] at h
  dsimp only at h
  split at h
  · obtain rfl := Option.some.inj h
    exact sends_none ..
  split at h
  · obtain rfl := Option.some.inj h
    exact sends_none ..
  split at h
  · exact handleSuboption_sends h
  split at h
  · obtain rfl := Option.some.inj h
    exact handleWill_sends ..
  split at h
  · obtain rfl := Option.some.inj h
    exact handleWont_sends ..
  split at h
  · obtain rfl := Option.some.inj h
    exact handleDo_sends ..
  split at h
  · obtain rfl := Option.some.inj h
    exact handleDont_sends ..
  · obtain rfl := Option.some.inj h
    exact sends_none ..

/-- As long as there has been room for everything, `out_telnet_cmd` has grown by what was
issued. -/
theorem foldl_send {size : Nat} {items : List Item} {n : Negotiator}
    (h : (items.foldl (Negotiator.send size) n).error = false) :
    (items.foldl (Negotiator.send size) n).outTelnetCmd = n.outTelnetCmd ++ encodeItems items ∧
      n.error = false := by
  induction items generalizing n with
  | nil => exact ⟨(List.append_nil _).symm, h⟩
  | cons item items ih =>
    rw [List.foldl_cons] at h ⊢
    obtain ⟨hout, herror⟩ := ih h
    rw [Negotiator.send] at herror
    split at herror
    · next hroom =>
      have hsend : n.send size item =
          { n with outTelnetCmd := n.outTelnetCmd ++ item.encode } := by
        rw [Negotiator.send, if_pos hroom]
      rw [hout, hsend, encodeItems, encodeItems, List.flatMap_cons, List.append_assoc]
      exact ⟨rfl, herror⟩
    · cases herror

/-- **What the commands of one read issue**: answers, all of which are in `out_telnet_cmd` unless
the connection is to be given up. -/
theorem handleTelnetCmds_sends {cfg : NegotiatorConfig} {env : Nat → NegotiatorEnv}
    {table : List TelnetCmd} {n : Negotiator} {cmds : List (List Byte)} {r : Handled}
    (h : handleTelnetCmds cfg env table n cmds = some r) :
    (∀ item ∈ r.sends, item.Answer cfg.replySize) ∧
      (r.port.error = false →
        r.port.outTelnetCmd = n.outTelnetCmd ++ encodeItems r.sends ∧ n.error = false) := by
  induction cmds generalizing env table n r with
  | nil =>
    rw [handleTelnetCmds, Option.some.injEq] at h
    obtain rfl := h
    exact ⟨fun _ h => absurd h List.not_mem_nil, fun h => ⟨(List.append_nil _).symm, h⟩⟩
  | cons cmd cmds ih =>
    rw [handleTelnetCmds] at h
    split at h
    · cases h
    next r₁ hfirst =>
    dsimp only at h
    split at h
    · cases h
    next r₂ hrest =>
    rw [Option.some.injEq] at h
    obtain rfl := h
    have hsends := handleTelnetCmd_sends hfirst
    obtain ⟨hanswers, hout⟩ := ih hrest
    refine ⟨fun item hitem => ?_, fun herror => ?_⟩
    · rcases List.mem_append.1 hitem with hitem | hitem
      · exact hsends.answers item hitem
      · exact hanswers item hitem
    · obtain ⟨hout₂, herror₂⟩ := hout herror
      obtain ⟨hout₁, herror₁⟩ := foldl_send herror₂
      rw [hout₂, hout₁, hsends.out, encodeItems, encodeItems, encodeItems, List.flatMap_append,
        List.append_assoc]
      exact ⟨rfl, hsends.error ▸ herror₁⟩

end SerialServer.Dataxfer
