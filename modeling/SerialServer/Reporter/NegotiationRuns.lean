import SerialServer.Reporter.Negotiation

/-!
# SerialServer.Reporter.NegotiationRuns

Option negotiation over whole runs.

A command that negotiates (WILL, WONT, DO, DONT) is either answered, or it takes down one
of the flags of the table that say that an answer is awaited (`handleTelnetCmd_settles`). An
answer is issued when it is handed to `send_i`, which gives the connection up if there is no
room for it. No command sets a flag. As the table belongs to the program and not to the
connection, all but four of the negotiating commands of all clients are answered
(`program_answers`), and two ends that run this code keep negotiating as soon as there is one
message more on the way than answers are awaited (`link_conserves`). Which commands bring the
program down does not depend on the run (`program_survives_iff`).
-/

namespace SerialServer.Dataxfer

/-! ### Flags, answers and negotiating commands -/

/-- The answers the program waits for, for one option. -/
def TelnetCmd.flags (c : TelnetCmd) : Nat := c.sentWill.toNat + c.sentDo.toNat

/-- The answers it waits for. -/
def flags (table : List TelnetCmd) : Nat := (table.map TelnetCmd.flags).sum

/-- An element whose verb is WILL, WONT, DO or DONT. -/
def Item.negotiates : Item → Bool
  | .negotiate verb _ => 250 < verb.toNat && verb ≠ TN_IAC
  | .command cmd => 250 < cmd.toNat && cmd ≠ TN_IAC
  | _ => false

/-- How many of the elements negotiate. -/
def negotiated (items : List Item) : Nat := items.countP Item.negotiates

/-- A command that asks for an option or answers a request. -/
def negotiates (cmd : List Byte) : Bool :=
  2 ≤ cmd.length && 250 < (cmd.getD 1 0).toNat && cmd.getD 1 0 ≠ TN_IAC

theorem negotiated_append (xs ys : List Item) :
    negotiated (xs ++ ys) = negotiated xs + negotiated ys :=
  List.countP_append

/-- Changing the entry that is found moves the flags by as much as that entry's move. -/
theorem flags_modifyCmd {table : List TelnetCmd} {option : Byte} {cmd : TelnetCmd}
    (h : findCmd table option = some cmd) (f : TelnetCmd → TelnetCmd) :
    flags (modifyCmd option f table) + cmd.flags = flags table + (f cmd).flags := by
  induction table with
  | nil => cases h
  | cons c cs ih =>
    rw [findCmd, List.find?_cons] at h
    rw [modifyCmd]
    by_cases hc : c.option = option
    · rw [decide_eq_true hc] at h
      obtain rfl := Option.some.inj h
      rw [if_pos hc, flags, flags, List.map_cons, List.map_cons, List.sum_cons, List.sum_cons]
      omega
    · rw [decide_eq_false hc] at h
      have hrest := ih h
      rw [flags, flags] at hrest
      rw [if_neg hc, flags, flags, List.map_cons, List.map_cons, List.sum_cons, List.sum_cons]
      omega

/-- Changing what the other end has said leaves the flags alone. -/
theorem flags_modifyCmd_same {table : List TelnetCmd} {option : Byte} {cmd : TelnetCmd}
    (h : findCmd table option = some cmd) {f : TelnetCmd → TelnetCmd}
    (hf : (f cmd).flags = cmd.flags) : flags (modifyCmd option f table) = flags table := by
  have := flags_modifyCmd h f
  omega

/-! ### One command -/

/-- Of `asked` commands that negotiate, all are answered but those a flag was taken down for;
no flag is set. -/
structure Settles (asked : Nat) (table : List TelnetCmd) (r : Handled) : Prop where
  balance : negotiated r.sends + flags table = asked + flags r.table
  falls : flags r.table ≤ flags table

theorem settles_answer {table table' : List TelnetCmd} (h : flags table' = flags table)
    (n : Negotiator) {items : List Item} (hitems : negotiated items = 1) :
    Settles 1 table ⟨table', n, items, []⟩ :=
  ⟨by rw [h, hitems], Nat.le_of_eq h⟩

theorem settles_silent {table table' : List TelnetCmd} (h : flags table' + 1 = flags table)
    (n : Negotiator) : Settles 1 table ⟨table', n, [], []⟩ := by
  have hnone : negotiated [] = 0 := rfl
  refine ⟨?_, Nat.le_of_succ_le (Nat.le_of_eq h)⟩
  rw [hnone, ← h]
  exact (Nat.zero_add _).trans (Nat.add_comm ..)

theorem handleWill_settles (cfg : NegotiatorConfig) (env : NegotiatorEnv)
    (table : List TelnetCmd) (n : Negotiator) (option : Byte) :
    Settles 1 table (handleWill cfg env table n option) := by
  rw [handleWill]
  cases hfind : findCmd table option with
  | none => exact settles_answer rfl n rfl
  | some cmd =>
    have hsame := flags_modifyCmd_same hfind (f := fun c => { c with remWill := true }) rfl
    dsimp only
    cases hdo : cmd.sentDo with
    | true =>
      have hflags := flags_modifyCmd hfind fun c => { c with sentDo := false, remWill := true }
      simp only [TelnetCmd.flags, hdo, Bool.toNat_true, Bool.toNat_false] at hflags
      rw [if_neg (by simp)]
      exact settles_silent (by omega) n
    | false =>
      rw [if_pos (by simp)]
      split
      · exact settles_answer hsame n rfl
      split
      · rw [comPortWill]
        split
        · exact settles_answer hsame n rfl
        · exact settles_answer hsame _ rfl
      · exact settles_answer hsame n rfl

/-- The other three branches, which differ in the flag they look at. -/
theorem settles_branch {table : List TelnetCmd} {option : Byte} {cmd : TelnetCmd}
    (hfind : findCmd table option = some cmd) (n : Negotiator) {verb : Byte}
    (hverb : negotiated [.negotiate verb option] = 1) {awaited : Bool}
    {f g : TelnetCmd → TelnetCmd} (hf : (f cmd).flags = cmd.flags)
    (hg : awaited = true → (g cmd).flags + 1 = cmd.flags) :
    Settles 1 table (if !awaited then
        ⟨modifyCmd option f table, n, [.negotiate verb option], []⟩
      else ⟨modifyCmd option g table, n, [], []⟩) := by
  cases awaited with
  | true =>
    have hflags := flags_modifyCmd hfind g
    have := hg rfl
    rw [if_neg (by simp)]
    exact settles_silent (by omega) n
  | false =>
    rw [if_pos (by simp)]
    exact settles_answer (flags_modifyCmd_same hfind hf) n hverb

theorem handleWont_settles (table : List TelnetCmd) (n : Negotiator) (option : Byte) :
    Settles 1 table (handleWont table n option) := by
  rw [handleWont]
  cases hfind : findCmd table option with
  | none => exact settles_answer rfl n rfl
  | some cmd =>
    refine settles_branch hfind n rfl rfl fun h => ?_
    simp only [TelnetCmd.flags, h, Bool.toNat_true, Bool.toNat_false]

theorem handleDo_settles (table : List TelnetCmd) (n : Negotiator) (option : Byte) :
    Settles 1 table (handleDo table n option) := by
  rw [handleDo]
  cases hfind : findCmd table option with
  | none => exact settles_answer rfl n rfl
  | some cmd =>
    refine settles_branch hfind n (by cases cmd.iDo <;> rfl) rfl fun h => ?_
    simp only [TelnetCmd.flags, h, Bool.toNat_true, Bool.toNat_false]
    omega

theorem handleDont_settles (table : List TelnetCmd) (n : Negotiator) (option : Byte) :
    Settles 1 table (handleDont table n option) := by
  rw [handleDont]
  cases hfind : findCmd table option with
  | none => exact settles_answer rfl n rfl
  | some cmd =>
    refine settles_branch hfind n rfl rfl fun h => ?_
    simp only [TelnetCmd.flags, h, Bool.toNat_true, Bool.toNat_false]
    omega

theorem handleSuboption_flags {cfg : NegotiatorConfig} {env : NegotiatorEnv}
    {table : List TelnetCmd} {n : Negotiator} {option : List Byte} {r : Handled}
    (h : handleSuboption cfg env table n option = some r) :
    r.table = table ∧ negotiated r.sends = 0 := by
  rw [handleSuboption] at h
  split at h
  · obtain rfl := Option.some.inj h
    exact ⟨rfl, rfl⟩
  · split at h
    · obtain rfl := Option.some.inj h
      refine ⟨rfl, ?_⟩
      dsimp only
      cases (comPortHandler cfg.com env.com n.com option).reply <;> rfl
    · cases h

/-- **What one command does to the flags**: as many answers are issued as commands have come
that no flag was taken down for. -/
theorem handleTelnetCmd_settles {cfg : NegotiatorConfig} {env : NegotiatorEnv}
    {table : List TelnetCmd} {n : Negotiator} {cmd : List Byte} {r : Handled}
    (h : handleTelnetCmd cfg env table n cmd = some r) :
    Settles (negotiates cmd).toNat table r := by
  have hquiet : ∀ r : Handled, r.table = table → negotiated r.sends = 0 →
      negotiates cmd = false → Settles (negotiates cmd).toNat table r := by
    intro r htable hnone hcmd
    refine ⟨?_, Nat.le_of_eq (congrArg flags htable)⟩
    rw [htable, hnone, hcmd]
    rfl
  have hsettles : ∀ r : Handled, Settles 1 table r → negotiates cmd = true →
      Settles (negotiates cmd).toNat table r := by
    intro r hr hcmd
    rw [hcmd]
    exact hr
  rw [handleTelnetCmd] at h
  dsimp only at h
  split at h
  · next hshort =>
    obtain rfl := Option.some.inj h
    refine hquiet _ rfl rfl ?_
    rw [negotiates, decide_eq_false (by omega), Bool.false_and, Bool.false_and]
  next hlong =>
  have hlen : decide (2 ≤ cmd.length) = true := decide_eq_true (by omega)
  split at h
  · next hlow =>
    obtain rfl := Option.some.inj h
    refine hquiet _ rfl rfl ?_
    rw [negotiates, decide_eq_false (by omega : ¬ 250 < (cmd.getD 1 0).toNat), Bool.and_false,
      Bool.false_and]
  split at h
  · next hsb =>
    obtain ⟨htable, hnone⟩ := handleSuboption_flags h
    refine hquiet _ htable hnone ?_
    rw [negotiates, hlen, hsb]
    rfl
  split at h
  · next hverb =>
    obtain rfl := Option.some.inj h
    refine hsettles _ (handleWill_settles ..) ?_
    rw [negotiates, hlen, hverb]
    rfl
  split at h
  · next hverb =>
    obtain rfl := Option.some.inj h
    refine hsettles _ (handleWont_settles ..) ?_
    rw [negotiates, hlen, hverb]
    rfl
  split at h
  · next hverb =>
    obtain rfl := Option.some.inj h
    refine hsettles _ (handleDo_settles ..) ?_
    rw [negotiates, hlen, hverb]
    rfl
  split at h
  · next hverb =>
    obtain rfl := Option.some.inj h
    refine hsettles _ (handleDont_settles ..) ?_
    rw [negotiates, hlen, hverb]
    rfl
  · next hlow hsb hwill hwont hdo hdont =>
    obtain rfl := Option.some.inj h
    refine hquiet _ rfl rfl ?_
    -- Only 255 is left.
    have hiac : cmd.getD 1 0 = TN_IAC := by
      generalize cmd.getD 1 0 = verb at hlow hsb hwill hwont hdo hdont ⊢
      bv_omega
    rw [negotiates, hlen, hiac]
    rfl

/-! ### The program -/

/-- The program, as far as telnet commands go: one table, and what each port keeps. -/
structure Program (ι : Type) where
  table : List TelnetCmd
  port : ι → Negotiator

/-- What can happen: a client connects to a port, or a command of its client is handled. -/
inductive ProgramEvent (ι : Type)
  | connect (i : ι)
  | command (i : ι) (env : NegotiatorEnv) (cmd : List Byte)

/-- `telnet_init`, and what `setup_tcp_port` does to the rest. The flags of the table stay. -/
def telnetInit (size : Nat) (n : Negotiator) : Negotiator :=
  let n := { n with
    is2217 := false
    com := { n.com with breakSet := false }
    outTelnetCmd := []
    error := false }
  if (encodeItems telnetInitSeq).length ≤ size then
    { n with outTelnetCmd := encodeItems telnetInitSeq }
  else { n with error := true }

variable {ι : Type} [DecidableEq ι]

/-- An event, with the elements that are issued for a command. -/
def Program.step (cfg : ι → NegotiatorConfig) (p : Program ι) :
    ProgramEvent ι → Option (Program ι × List Item)
  | .connect i =>
      some (⟨p.table, Function.update p.port i (telnetInit (cfg i).cmdbufSize (p.port i))⟩, [])
  | .command i env cmd =>
      match handleTelnetCmd (cfg i) env p.table (p.port i) cmd with
      | none => none
      | some r =>
          some (⟨r.table, Function.update p.port i
            (r.sends.foldl (Negotiator.send (cfg i).cmdbufSize) r.port)⟩, r.sends)

/-- A run, with everything that is issued for the commands. -/
def Program.run (cfg : ι → NegotiatorConfig) :
    Program ι → List (ProgramEvent ι) → Option (Program ι × List Item)
  | p, [] => some (p, [])
  | p, ev :: evs =>
      match p.step cfg ev with
      | none => none
      | some (p', sent) =>
          match p'.run cfg evs with
          | none => none
          | some (p'', sent') => some (p'', sent ++ sent')

/-- The command of an event negotiates. -/
def ProgramEvent.negotiates : ProgramEvent ι → Bool
  | .connect _ => false
  | .command _ _ cmd => Dataxfer.negotiates cmd

theorem Program.step_settles {cfg : ι → NegotiatorConfig} {p p' : Program ι}
    {ev : ProgramEvent ι} {sent : List Item} (h : p.step cfg ev = some (p', sent)) :
    negotiated sent + flags p.table = ev.negotiates.toNat + flags p'.table ∧
      flags p'.table ≤ flags p.table := by
  cases ev with
  | connect i =>
    rw [step, Option.some.injEq, Prod.mk.injEq] at h
    obtain ⟨rfl, rfl⟩ := h
    exact ⟨rfl, Nat.le_refl _⟩
  | command i env cmd =>
    rw [step] at h
    cases hr : handleTelnetCmd (cfg i) env p.table (p.port i) cmd with
    | none =>
      rw [hr] at h
      cases h
    | some r =>
      rw [hr] at h
      dsimp only at h
      rw [Option.some.injEq, Prod.mk.injEq] at h
      obtain ⟨rfl, rfl⟩ := h
      have hsettles := handleTelnetCmd_settles hr
      exact ⟨hsettles.balance, hsettles.falls⟩

theorem Program.run_settles {cfg : ι → NegotiatorConfig} {p p' : Program ι}
    {evs : List (ProgramEvent ι)} {sent : List Item} (h : p.run cfg evs = some (p', sent)) :
    negotiated sent + flags p.table = evs.countP ProgramEvent.negotiates + flags p'.table ∧
      flags p'.table ≤ flags p.table := by
  induction evs generalizing p sent with
  | nil =>
    rw [run, Option.some.injEq, Prod.mk.injEq] at h
    obtain ⟨rfl, rfl⟩ := h
    exact ⟨rfl, Nat.le_refl _⟩
  | cons ev evs ih =>
    rw [run] at h
    split at h
    · cases h
    next p₁ sent₁ hstep =>
    split at h
    · cases h
    next p₂ sent₂ hrun =>
    rw [Option.some.injEq, Prod.mk.injEq] at h
    obtain ⟨rfl, rfl⟩ := h
    obtain ⟨hfirst, hle⟩ := step_settles hstep
    obtain ⟨hrest, hle'⟩ := ih hrun
    refine ⟨?_, Nat.le_trans hle' hle⟩
    have hcount : (ev :: evs).countP ProgramEvent.negotiates =
        evs.countP ProgramEvent.negotiates + ev.negotiates.toNat := by
      rw [List.countP_cons]
      cases ev.negotiates <;> rfl
    rw [negotiated_append, hcount]
    omega

/-- **Of all the negotiating commands of a run, from whatever clients and ports, all but at
most four are answered**: those for which a flag of the table was still up. Connecting sets
no flag again. -/
theorem program_answers {cfg : ι → NegotiatorConfig} {port : ι → Negotiator} {p : Program ι}
    {evs : List (ProgramEvent ι)} {sent : List Item}
    (h : Program.run cfg ⟨telnetCmds, port⟩ evs = some (p, sent)) :
    negotiated sent + 4 = evs.countP ProgramEvent.negotiates + flags p.table ∧ flags p.table ≤ 4 :=
  Program.run_settles h

/-- Two clients turn down ECHO, one after the other. The first takes down a flag, and the second
is answered. -/
theorem program_answers_echo :
    let cfg : Bool → NegotiatorConfig := fun _ => ⟨⟨false, [], 64⟩, false, 64⟩
    let env : NegotiatorEnv := ⟨⟨⟨13, 13, .cs8, false, false, false, false, false, false⟩,
      true, true, true, true, none⟩, none⟩
    let evs : List (ProgramEvent Bool) :=
      [.command true env [TN_IAC, TN_DONT, TN_OPT_ECHO],
        .command false env [TN_IAC, TN_DONT, TN_OPT_ECHO]]
    let start : Program Bool := ⟨telnetCmds, fun _ => ⟨false, 0, ⟨false, 0, 0⟩, [], false⟩⟩
    ∃ p, Program.run cfg start evs = some (p, [.negotiate TN_WONT TN_OPT_ECHO]) ∧
      flags p.table = 3 := by
  intro cfg env evs start
  obtain ⟨p, hp⟩ : ∃ p, Program.run cfg start evs = some (p, [.negotiate TN_WONT TN_OPT_ECHO]) :=
    ⟨_, rfl⟩
  have hcount : evs.countP ProgramEvent.negotiates = 2 := rfl
  have hone : negotiated [.negotiate TN_WONT TN_OPT_ECHO] = 1 := rfl
  have h := (program_answers hp).1
  exact ⟨p, hp, by omega⟩

/-! ### Calls through null pointers -/

/-- What no command changes: the options of the table, and which of them have handlers. -/
def skeleton (table : List TelnetCmd) : List (Byte × Bool) :=
  table.map fun c => (c.option, c.comPort)

theorem skeleton_modifyCmd {f : TelnetCmd → TelnetCmd} (hf : ∀ c, (f c).option = c.option)
    (hp : ∀ c, (f c).comPort = c.comPort) (option : Byte) (table : List TelnetCmd) :
    skeleton (modifyCmd option f table) = skeleton table := by
  induction table with
  | nil => rfl
  | cons c cs ih =>
    rw [modifyCmd]
    split
    · rw [skeleton, skeleton, List.map_cons, List.map_cons, hf, hp]
    · rw [skeleton] at ih ⊢
      rw [List.map_cons, ih]
      rfl

/-- The handlers of the entry that is found depend on the skeleton only. -/
theorem findCmd_comPort {table table' : List TelnetCmd} (h : skeleton table = skeleton table')
    (option : Byte) :
    (findCmd table option).map TelnetCmd.comPort =
      (findCmd table' option).map TelnetCmd.comPort := by
  have hfind : ∀ t : List TelnetCmd, (findCmd t option).map TelnetCmd.comPort =
      ((skeleton t).find? fun c => c.1 = option).map Prod.snd := by
    intro t
    rw [findCmd, skeleton, List.find?_map, Option.map_map]
    rfl
  rw [hfind, hfind, h]

theorem handleWill_skeleton (cfg : NegotiatorConfig) (env : NegotiatorEnv)
    (table : List TelnetCmd) (n : Negotiator) (option : Byte) :
    skeleton (handleWill cfg env table n option).table = skeleton table := by
  rw [handleWill]
  split
  · rfl
  · dsimp only
    repeat' split
    all_goals refine skeleton_modifyCmd ?_ ?_ option table <;> exact fun _ => rfl

theorem handleWont_skeleton (table : List TelnetCmd) (n : Negotiator) (option : Byte) :
    skeleton (handleWont table n option).table = skeleton table := by
  rw [handleWont]
  repeat' split
  · rfl
  all_goals refine skeleton_modifyCmd ?_ ?_ option table <;> exact fun _ => rfl

theorem handleDo_skeleton (table : List TelnetCmd) (n : Negotiator) (option : Byte) :
    skeleton (handleDo table n option).table = skeleton table := by
  rw [handleDo]
  split
  · rfl
  · split
    all_goals refine skeleton_modifyCmd ?_ ?_ option table <;> exact fun _ => rfl

theorem handleDont_skeleton (table : List TelnetCmd) (n : Negotiator) (option : Byte) :
    skeleton (handleDont table n option).table = skeleton table := by
  rw [handleDont]
  repeat' split
  · rfl
  all_goals refine skeleton_modifyCmd ?_ ?_ option table <;> exact fun _ => rfl

theorem handleTelnetCmd_skeleton {cfg : NegotiatorConfig} {env : NegotiatorEnv}
    {table : List TelnetCmd} {n : Negotiator} {cmd : List Byte} {r : Handled}
    (h : handleTelnetCmd cfg env table n cmd = some r) : skeleton r.table = skeleton table := by
  rw [handleTelnetCmd] at h
  dsimp only at h
  repeat' split at h
  · obtain rfl := Option.some.inj h
    rfl
  · obtain rfl := Option.some.inj h
    rfl
  · exact congrArg skeleton (handleSuboption_flags h).1
  · obtain rfl := Option.some.inj h
    exact handleWill_skeleton ..
  · obtain rfl := Option.some.inj h
    exact handleWont_skeleton ..
  · obtain rfl := Option.some.inj h
    exact handleDo_skeleton ..
  · obtain rfl := Option.some.inj h
    exact handleDont_skeleton ..
  · obtain rfl := Option.some.inj h
    rfl

/-- A suboption of an option that is in the table without a handler. -/
def callsNull (cmd : List Byte) : Bool :=
  2 ≤ cmd.length && cmd.getD 1 0 = 250 &&
    [TN_OPT_SUPPRESS_GO_AHEAD, TN_OPT_ECHO, TN_OPT_BINARY_TRANSMISSION].contains (cmd.getD 2 0)

/-- The entries of the table. -/
theorem telnetCmds_comPort (o : Byte) : (findCmd telnetCmds o).map TelnetCmd.comPort =
    if o = TN_OPT_COM_PORT then some true
    else if [TN_OPT_SUPPRESS_GO_AHEAD, TN_OPT_ECHO, TN_OPT_BINARY_TRANSMISSION].contains o then
      some false
    else none := by
  by_cases h3 : o = 3#8
  · subst h3
    rfl
  by_cases h1 : o = 1#8
  · subst h1
    rfl
  by_cases h0 : o = 0#8
  · subst h0
    rfl
  by_cases h44 : o = 44#8
  · subst h44
    rfl
  · have hnone : findCmd telnetCmds o = none := by
      simp [findCmd, telnetCmds, Ne.symm h3, Ne.symm h1, Ne.symm h0, Ne.symm h44]
    have hne : o ≠ TN_OPT_COM_PORT := h44
    rw [hnone, if_neg hne, if_neg (by simp [h3, h1, h0])]
    rfl

theorem handleSuboption_none {cfg : NegotiatorConfig} {env : NegotiatorEnv}
    {table : List TelnetCmd} (h : skeleton table = skeleton telnetCmds) (n : Negotiator)
    (option : List Byte) :
    handleSuboption cfg env table n option = none ↔
      [TN_OPT_SUPPRESS_GO_AHEAD, TN_OPT_ECHO, TN_OPT_BINARY_TRANSMISSION].contains
        (option.getD 0 0) = true := by
  have hfind := (findCmd_comPort h (option.getD 0 0)).trans (telnetCmds_comPort _)
  rw [handleSuboption]
  generalize option.getD 0 0 = o at hfind ⊢
  have hcom : o = TN_OPT_COM_PORT → ¬ [TN_OPT_SUPPRESS_GO_AHEAD, TN_OPT_ECHO,
      TN_OPT_BINARY_TRANSMISSION].contains o = true := by
    rintro rfl
    decide
  cases hcmd : findCmd table o with
  | none =>
    rw [hcmd, Option.map_none] at hfind
    refine iff_of_false (Option.some_ne_none _) fun hnull => ?_
    rw [if_neg fun h => hcom h hnull, if_pos hnull] at hfind
    cases hfind
  | some cmd =>
    rw [hcmd, Option.map_some] at hfind
    dsimp only
    cases hport : cmd.comPort with
    | true =>
      refine iff_of_false (by simp) fun hnull => ?_
      rw [if_neg fun h => hcom h hnull, if_pos hnull, hport] at hfind
      cases hfind
    | false =>
      refine iff_of_true rfl ?_
      rw [hport] at hfind
      split at hfind
      · cases hfind
      split at hfind
      · next hnull => exact hnull
      · cases hfind

theorem handleTelnetCmd_none {cfg : NegotiatorConfig} {env : NegotiatorEnv}
    {table : List TelnetCmd} (h : skeleton table = skeleton telnetCmds) (n : Negotiator)
    (cmd : List Byte) :
    handleTelnetCmd cfg env table n cmd = none ↔ callsNull cmd = true := by
  rw [handleTelnetCmd, callsNull]
  by_cases hlen : cmd.length < 2
  · rw [if_pos hlen, decide_eq_false (by omega)]
    exact iff_of_false (by simp) (by simp)
  rw [if_neg hlen, decide_eq_true (by omega)]
  dsimp only
  by_cases hsb : cmd.getD 1 0 = 250
  · have hget : (cmd.drop 2).getD 0 0 = cmd.getD 2 0 := by
      simp only [List.getD_eq_getElem?_getD, List.getElem?_drop, Nat.add_zero]
    rw [if_neg (by rw [hsb]; decide), if_pos hsb, handleSuboption_none h, hget, decide_eq_true hsb,
      Bool.true_and, Bool.true_and]
  · rw [if_neg hsb, decide_eq_false hsb]
    refine iff_of_false ?_ (by simp)
    repeat' split
    all_goals exact Option.some_ne_none _

/-- The command of an event is one that calls a null pointer. -/
def ProgramEvent.callsNull : ProgramEvent ι → Bool
  | .connect _ => false
  | .command _ _ cmd => Dataxfer.callsNull cmd

theorem Program.step_none {cfg : ι → NegotiatorConfig} {p : Program ι}
    (h : skeleton p.table = skeleton telnetCmds) (ev : ProgramEvent ι) :
    p.step cfg ev = none ↔ ev.callsNull = true := by
  cases ev with
  | connect i => exact iff_of_false (by simp [step]) (by simp [ProgramEvent.callsNull])
  | command i env cmd =>
    have hcmd := @handleTelnetCmd_none (cfg i) env _ h (p.port i) cmd
    rw [step, ProgramEvent.callsNull, ← hcmd]
    cases handleTelnetCmd (cfg i) env p.table (p.port i) cmd with
    | none => exact iff_of_true rfl rfl
    | some r => exact iff_of_false (by simp) (by simp)

theorem Program.step_skeleton {cfg : ι → NegotiatorConfig} {p p' : Program ι}
    {ev : ProgramEvent ι} {sent : List Item} (h : p.step cfg ev = some (p', sent)) :
    skeleton p'.table = skeleton p.table := by
  cases ev with
  | connect i =>
    rw [step, Option.some.injEq, Prod.mk.injEq] at h
    rw [← h.1]
  | command i env cmd =>
    rw [step] at h
    cases hr : handleTelnetCmd (cfg i) env p.table (p.port i) cmd with
    | none =>
      rw [hr] at h
      cases h
    | some r =>
      rw [hr] at h
      dsimp only at h
      rw [Option.some.injEq, Prod.mk.injEq] at h
      rw [← h.1]
      exact handleTelnetCmd_skeleton hr

theorem Program.run_none {cfg : ι → NegotiatorConfig} {p : Program ι}
    (h : skeleton p.table = skeleton telnetCmds) (evs : List (ProgramEvent ι)) :
    p.run cfg evs = none ↔ ∃ ev ∈ evs, ev.callsNull = true := by
  induction evs generalizing p with
  | nil => exact iff_of_false (by simp [run]) (by simp)
  | cons ev evs ih =>
    rw [run, List.exists_mem_cons_iff]
    cases hstep : p.step cfg ev with
    | none => exact iff_of_true rfl (.inl ((step_none h ev).1 hstep))
    | some r =>
      obtain ⟨p', sent⟩ := r
      have hev : ¬ ev.callsNull = true := by
        have hnull := @step_none _ _ cfg _ h ev
        rw [← hnull, hstep]
        exact Option.some_ne_none _
      have hrest := ih ((step_skeleton hstep).trans h)
      dsimp only
      cases hrun : p'.run cfg evs with
      | none => exact iff_of_true rfl (.inr (hrest.1 hrun))
      | some r' =>
        refine iff_of_false (Option.some_ne_none _) ?_
        rintro (h' | h')
        · exact hev h'
        · rw [hrest.2 h'] at hrun
          cases hrun

/-- **The program survives a run exactly when no client has finished a suboption of SUPPRESS
GO AHEAD, ECHO or BINARY**, whatever else has happened before, on whatever port. -/
theorem program_survives_iff (cfg : ι → NegotiatorConfig) (port : ι → Negotiator)
    (evs : List (ProgramEvent ι)) :
    (Program.run cfg ⟨telnetCmds, port⟩ evs).isSome ↔ ∀ ev ∈ evs, ¬ ev.callsNull = true := by
  have hnone := @Program.run_none _ _ cfg ⟨telnetCmds, port⟩ rfl evs
  rw [Option.isSome_iff_ne_none, Ne, hnone]
  simp only [not_exists, not_and]

/-! ### The commands of a port -/

/-- A command of the com-port option does the same for two ports that differ in their masks. -/
theorem comPortHandler_masks {cfg : ComConfig} {env : ComEnv} {p q : ComPort} (option : List Byte)
    (h : p.breakSet = q.breakSet) :
    (comPortHandler cfg env p option).calls = (comPortHandler cfg env q option).calls ∧
      (comPortHandler cfg env p option).port.breakSet =
        (comPortHandler cfg env q option).port.breakSet := by
  rw [comPortHandler, comPortHandler, h]
  dsimp only
  repeat' split
  all_goals first
    | exact ⟨rfl, h⟩
    | exact ⟨rfl, rfl⟩

/-- What a command does to the table of ports, and to the break of the port, is what its suboption
does, if it has one of the com-port option. -/
theorem handleTelnetCmd_calls {cfg : NegotiatorConfig} {env : NegotiatorEnv}
    {table : List TelnetCmd} (hskeleton : skeleton table = skeleton telnetCmds)
    {n : Negotiator} {cmd : List Byte} {r : Handled}
    (h : handleTelnetCmd cfg env table n cmd = some r) :
    match comPortOption cmd with
    | some option => r.calls = (comPortHandler cfg.com env.com n.com option).calls ∧
        r.port.com = (comPortHandler cfg.com env.com n.com option).port
    | none => r.calls = [] ∧ r.port.com.breakSet = n.com.breakSet := by
  have hnothing : comPortOption cmd = none → r.calls = [] ∧ r.port.com.breakSet = n.com.breakSet →
      match comPortOption cmd with
      | some option => r.calls = (comPortHandler cfg.com env.com n.com option).calls ∧
          r.port.com = (comPortHandler cfg.com env.com n.com option).port
      | none => r.calls = [] ∧ r.port.com.breakSet = n.com.breakSet := by
    intro hnone hr
    rw [hnone]
    exact hr
  rw [handleTelnetCmd] at h
  dsimp only at h
  by_cases hlen : cmd.length < 2
  · rw [if_pos hlen] at h
    obtain rfl := Option.some.inj h
    exact hnothing (if_pos hlen) ⟨rfl, rfl⟩
  rw [if_neg hlen] at h
  by_cases hsb : cmd.getD 1 0 = 250
  · rw [if_neg (by rw [hsb]; decide), if_pos hsb, handleSuboption] at h
    have hget : (cmd.drop 2).getD 0 0 = cmd.getD 2 0 := by
      simp only [List.getD_eq_getElem?_getD, List.getElem?_drop, Nat.add_zero]
    have hfind := (findCmd_comPort hskeleton (cmd.getD 2 0)).trans (telnetCmds_comPort _)
    rw [hget] at h
    by_cases hcom : cmd.getD 2 0 = TN_OPT_COM_PORT
    · have hoption : comPortOption cmd = some (cmd.drop 2) := by
        rw [comPortOption, if_neg hlen, if_pos ⟨hsb, hcom⟩]
      rw [if_pos hcom] at hfind
      rw [hoption]
      split at h
      · next hnone =>
        rw [hnone] at hfind
        cases hfind
      · next entry hentry =>
        rw [hentry, Option.map_some] at hfind
        rw [Option.some.inj hfind, if_pos rfl] at h
        obtain rfl := Option.some.inj h
        exact ⟨rfl, rfl⟩
    · have hoption : comPortOption cmd = none := by
        rw [comPortOption, if_neg hlen, if_neg fun h => hcom h.2]
      refine hnothing hoption ?_
      rw [if_neg hcom] at hfind
      split at h
      · obtain rfl := Option.some.inj h
        exact ⟨rfl, rfl⟩
      · next entry hentry =>
        rw [hentry, Option.map_some] at hfind
        have hport : entry.comPort = false := by
          split at hfind
          · exact Option.some.inj hfind
          · cases hfind
        rw [hport] at h
        cases h
  · have hoption : comPortOption cmd = none := by
      rw [comPortOption, if_neg hlen, if_neg fun h => hsb h.1]
    refine hnothing hoption ?_
    rw [if_neg hsb] at h
    split at h
    · obtain rfl := Option.some.inj h
      exact ⟨rfl, rfl⟩
    split at h
    · obtain rfl := Option.some.inj h
      rw [handleWill]
      split
      · exact ⟨rfl, rfl⟩
      dsimp only
      split
      · split
        · exact ⟨rfl, rfl⟩
        split
        · rw [comPortWill]
          split
          · exact ⟨rfl, rfl⟩
          · exact ⟨rfl, rfl⟩
        · exact ⟨rfl, rfl⟩
      · exact ⟨rfl, rfl⟩
    split at h
    · obtain rfl := Option.some.inj h
      rw [handleWont]
      split
      · exact ⟨rfl, rfl⟩
      · split
        · exact ⟨rfl, rfl⟩
        · exact ⟨rfl, rfl⟩
    split at h
    · obtain rfl := Option.some.inj h
      rw [handleDo]
      split
      · exact ⟨rfl, rfl⟩
      · split
        · exact ⟨rfl, rfl⟩
        · exact ⟨rfl, rfl⟩
    split at h
    · obtain rfl := Option.some.inj h
      rw [handleDont]
      split
      · exact ⟨rfl, rfl⟩
      · split
        · exact ⟨rfl, rfl⟩
        · exact ⟨rfl, rfl⟩
    · obtain rfl := Option.some.inj h
      exact ⟨rfl, rfl⟩

/-- Sending an element does not change the port otherwise. -/
theorem foldl_send_com (size : Nat) (items : List Item) (n : Negotiator) :
    (items.foldl (Negotiator.send size) n).com = n.com := by
  induction items generalizing n with
  | nil => rfl
  | cons item items ih =>
    rw [List.foldl_cons, ih, Negotiator.send]
    split
    · rfl
    · rfl

/-- **The table of ports does not depend on the negotiation**: it sees the calls of `runCommands`,
whatever the options that are on. -/
theorem handleTelnetCmds_calls {cfg : NegotiatorConfig} {env : Nat → NegotiatorEnv}
    {table : List TelnetCmd} (hskeleton : skeleton table = skeleton telnetCmds)
    {n : Negotiator} {cmds : List (List Byte)} {r : Handled} {c : ComPort}
    (h : handleTelnetCmds cfg env table n cmds = some r) (hc : c.breakSet = n.com.breakSet) :
    (runCommands cfg.com (fun i => (env i).com) c cmds).2 = r.calls ∧
      (runCommands cfg.com (fun i => (env i).com) c cmds).1.breakSet = r.port.com.breakSet := by
  induction cmds generalizing env table n r c with
  | nil =>
    rw [handleTelnetCmds, Option.some.injEq] at h
    obtain rfl := h
    exact ⟨rfl, hc⟩
  | cons cmd cmds ih =>
    rw [handleTelnetCmds] at h
    split at h
    · cases h
    next r₁ hfirst =>
    dsimp only at h
    split at h
    · cases h
    next r₂ hrest =>
    rw [Option.some.injEq] at h
    obtain rfl := h
    have hskeleton₁ := (handleTelnetCmd_skeleton hfirst).trans hskeleton
    have hcom := foldl_send_com cfg.cmdbufSize r₁.sends r₁.port
    have hone := handleTelnetCmd_calls hskeleton hfirst
    rw [runCommands]
    cases hoption : comPortOption cmd with
    | none =>
      rw [hoption] at hone
      obtain ⟨hcalls, hbreak⟩ := hone
      obtain ⟨hcalls₂, hbreak₂⟩ :=
        ih (c := c) hskeleton₁ hrest (by rw [hcom, hbreak, hc])
      dsimp only
      rw [hcalls, List.nil_append]
      exact ⟨hcalls₂, hbreak₂⟩
    | some option =>
      rw [hoption] at hone
      obtain ⟨hcalls, hport⟩ := hone
      obtain ⟨hmasks, hmasks'⟩ :=
        @comPortHandler_masks cfg.com (env 0).com c n.com option hc
      obtain ⟨hcalls₂, hbreak₂⟩ :=
        ih (c := (comPortHandler cfg.com (env 0).com c option).port) hskeleton₁ hrest
          (by rw [hcom, hport, hmasks'])
      dsimp only
      rw [hcalls, hmasks, hcalls₂]
      exact ⟨rfl, hbreak₂⟩

/-! ### Two ends -/

/-- Two programs of this kind that talk to each other, each for one connection, and what is on
the way in either direction. -/
structure Link where
  near : List TelnetCmd × Negotiator
  far : List TelnetCmd × Negotiator
  toFar : List Item
  toNear : List Item

/-- What an end issues for an element it receives. An end that calls a null pointer issues
nothing. -/
def receive (cfg : NegotiatorConfig) (env : NegotiatorEnv) (side : List TelnetCmd × Negotiator)
    (item : Item) : (List TelnetCmd × Negotiator) × List Item :=
  match item.cmds with
  | [] => (side, [])
  | cmd :: _ =>
      match handleTelnetCmd cfg env side.1 side.2 cmd with
      | none => (side, [])
      | some r => ((r.table, r.port), r.sends)

/-- The element in front of one of the channels is received; `true` says that it is the one to
the far end. -/
def Link.step (cfg : NegotiatorConfig) (l : Link) (ev : Bool × NegotiatorEnv) : Link :=
  if ev.1 then
    match l.toFar with
    | [] => l
    | item :: rest =>
        let r := receive cfg ev.2 l.far item
        { l with far := r.1, toFar := rest, toNear := l.toNear ++ r.2 }
  else
    match l.toNear with
    | [] => l
    | item :: rest =>
        let r := receive cfg ev.2 l.near item
        { l with near := r.1, toNear := rest, toFar := l.toFar ++ r.2 }

/-- The negotiating elements on the way. -/
def Link.inFlight (l : Link) : Nat := negotiated l.toFar + negotiated l.toNear

/-- The answers the two ends wait for. -/
def Link.flags (l : Link) : Nat := Dataxfer.flags l.near.1 + Dataxfer.flags l.far.1

/-- An element that negotiates is a command that does. -/
theorem Item.cmds_negotiates (item : Item) :
    (item.cmds = [] ∧ item.negotiates = false) ∨
      ∃ cmd, item.cmds = [cmd] ∧ Dataxfer.negotiates cmd = item.negotiates := by
  cases item with
  | data b => exact .inl ⟨rfl, rfl⟩
  | command c => exact .inr ⟨_, rfl, rfl⟩
  | negotiate verb option => exact .inr ⟨_, rfl, rfl⟩
  | suboption option => exact .inr ⟨_, rfl, rfl⟩

/-- A call through a null pointer is no negotiation. -/
theorem negotiates_of_none {cfg : NegotiatorConfig} {env : NegotiatorEnv}
    {table : List TelnetCmd} {n : Negotiator} {cmd : List Byte}
    (h : handleTelnetCmd cfg env table n cmd = none) : negotiates cmd = false := by
  rw [handleTelnetCmd] at h
  dsimp only at h
  by_cases hsb : cmd.getD 1 0 = 250
  · have hlow : decide (250 < (250 : Byte).toNat) = false := rfl
    rw [negotiates, hsb, hlow, Bool.and_false, Bool.false_and]
  · rw [if_neg hsb] at h
    repeat' split at h
    all_goals cases h

theorem receive_settles (cfg : NegotiatorConfig) (env : NegotiatorEnv)
    (side : List TelnetCmd × Negotiator) (item : Item) :
    negotiated (receive cfg env side item).2 + flags side.1 =
        negotiated [item] + flags (receive cfg env side item).1.1 ∧
      flags (receive cfg env side item).1.1 ≤ flags side.1 := by
  have hitem : negotiated [item] = item.negotiates.toNat := by
    rw [negotiated, List.countP_cons, List.countP_nil]
    cases item.negotiates <;> rfl
  rw [hitem, receive]
  rcases item.cmds_negotiates with ⟨hnil, hquiet⟩ | ⟨cmd, hcmd, heq⟩
  · rw [hnil, hquiet]
    exact ⟨rfl, Nat.le_refl _⟩
  · rw [hcmd, ← heq]
    dsimp only
    cases hr : handleTelnetCmd cfg env side.1 side.2 cmd with
    | none =>
      rw [negotiates_of_none hr]
      exact ⟨rfl, Nat.le_refl _⟩
    | some r =>
      have hsettles := handleTelnetCmd_settles hr
      exact ⟨hsettles.balance, hsettles.falls⟩

theorem Link.step_conserves (cfg : NegotiatorConfig) (l : Link) (ev : Bool × NegotiatorEnv) :
    (l.step cfg ev).inFlight + l.flags = l.inFlight + (l.step cfg ev).flags ∧
      (l.step cfg ev).flags ≤ l.flags := by
  rw [step]
  split
  · split
    · exact ⟨rfl, Nat.le_refl _⟩
    · next item rest hfar =>
      obtain ⟨hbalance, hfalls⟩ := receive_settles cfg ev.2 l.far item
      have hcons : negotiated l.toFar = negotiated [item] + negotiated rest := by
        rw [hfar, ← negotiated_append, List.singleton_append]
      simp only [inFlight, flags, negotiated_append, hcons]
      exact ⟨by omega, by omega⟩
  · split
    · exact ⟨rfl, Nat.le_refl _⟩
    · next item rest hnear =>
      obtain ⟨hbalance, hfalls⟩ := receive_settles cfg ev.2 l.near item
      have hcons : negotiated l.toNear = negotiated [item] + negotiated rest := by
        rw [hnear, ← negotiated_append, List.singleton_append]
      simp only [inFlight, flags, negotiated_append, hcons]
      exact ⟨by omega, by omega⟩

theorem Link.run_conserves (cfg : NegotiatorConfig) (l : Link)
    (evs : List (Bool × NegotiatorEnv)) :
    (evs.foldl (Link.step cfg) l).inFlight + l.flags =
      l.inFlight + (evs.foldl (Link.step cfg) l).flags := by
  induction evs generalizing l with
  | nil => rfl
  | cons ev evs ih =>
    have hstep := (Link.step_conserves cfg l ev).1
    have hrest := ih (l.step cfg ev)
    rw [List.foldl_cons]
    omega

/-- **Negotiation between two ends of this kind does not die out**: in whatever order they
receive, a message that leaves without an answer takes a flag with it. So as many messages
stay on the way as there were at the start beyond the answers that were awaited. -/
theorem link_conserves (cfg : NegotiatorConfig) (l : Link) (evs : List (Bool × NegotiatorEnv)) :
    (evs.foldl (Link.step cfg) l).inFlight + l.flags =
        l.inFlight + (evs.foldl (Link.step cfg) l).flags ∧
      l.inFlight - l.flags ≤ (evs.foldl (Link.step cfg) l).inFlight := by
  have hrun := Link.run_conserves cfg l evs
  exact ⟨hrun, by omega⟩

/-- Two programs that have each had a client before are connected: eight messages are on the
way, and stay on the way. -/
example (cfg : NegotiatorConfig) (near far : Negotiator) (evs : List (Bool × NegotiatorEnv)) :
    let table := telnetCmds.map fun c => { c with sentWill := false, sentDo := false }
    let start : Link := ⟨(table, near), (table, far), telnetInitSeq, telnetInitSeq⟩
    (evs.foldl (Link.step cfg) start).inFlight ≥ 8 := by
  intro table start
  have hrun := Link.run_conserves cfg start evs
  have hflags : start.flags = 0 := rfl
  have hflight : start.inFlight = 8 := rfl
  omega

end SerialServer.Dataxfer
