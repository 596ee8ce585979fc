import SerialServer.Core.LastWriter
import SerialServer.Reporter.PortsRuns

/-!
# SerialServer.Reporter.PortsReload

What becomes of a new configuration.

The configuration is read anew while connections go on, so a port may have one configuration
and be wanted with another (`PortInfo.wanted`). For each name there is at most one configuration
that is wanted: `portconfig` writes it, `clear_old_port_config` deletes those of other
configurations, and the connections that end leave it as it is. As a port without a connection is
as it is wanted, the file has taken effect as soon as there is no connection any more
(`reload_settles`).
-/

namespace SerialServer.Dataxfer

/-- The configuration a port has. -/
def PortInfo.actual (p : PortInfo) : NewPort := ⟨p.conf, p.port.enabled, p.timeout, p.configNum⟩

/-- The configuration it is to have when its connection ends, unless it is to be deleted. -/
def PortInfo.wanted (p : PortInfo) : Option NewPort :=
  if p.configNum = none then none else some (p.newConfig.getD p.actual)

/-- The configuration that is wanted for a name. -/
def wantedIn (l : List PortInfo) (name : PortName) : Option NewPort :=
  (l.find? (·.name = name)).bind PortInfo.wanted

/-- What the program is to come to. -/
def Ports.wanted (s : Ports) : PortName → Option NewPort := wantedIn s.ports

variable {l l' : List PortInfo} {p q : PortInfo}

theorem NewPort.portInfo_wanted {c : NewPort} (hnum : c.configNum ≠ none) (id : Nat)
    (fd : Option Fd) : (c.portInfo id fd).wanted = some c := if_neg hnum

theorem PortInfo.Sound.wanted_configNum (hp : p.Sound) {c : NewPort} (h : p.wanted = some c) :
    c.configNum = p.configNum := by
  rw [PortInfo.wanted] at h
  split at h
  · cases h
  next hnum =>
  obtain rfl := Option.some.inj h
  cases hnew : p.newConfig with
  | none => rfl
  | some c =>
    obtain ⟨-, -, hnone | hsame⟩ := hp.pending c hnew
    · exact absurd hnone hnum
    · exact hsame.symm

/-- A port without a connection has the configuration that is wanted. -/
theorem PortInfo.Sound.wanted_of_idle (hp : p.Sound) (hidle : p.port.Idle) :
    p.wanted = some p.actual := by
  obtain ⟨hnew, hnum⟩ := hp.settled hidle
  rw [PortInfo.wanted, if_neg hnum, hnew]
  rfl

/-! ### The list as a table -/

theorem wantedIn_cons (p : PortInfo) (l : List PortInfo) (name : PortName) :
    wantedIn (p :: l) name = if p.name = name then p.wanted else wantedIn l name := by
  rw [wantedIn, List.find?_cons]
  by_cases hname : p.name = name
  · rw [if_pos hname, decide_eq_true hname]
    rfl
  · rw [if_neg hname, decide_eq_false hname]
    rfl

theorem wantedIn_of_notMem {name : PortName} (h : name ∉ l.map PortInfo.name) :
    wantedIn l name = none := by
  induction l with
  | nil => rfl
  | cons p l ih =>
    rw [List.map_cons, List.mem_cons, not_or] at h
    rw [wantedIn_cons, if_neg fun hp => h.1 hp.symm, ih h.2]

/-- A name belongs to one port only. -/
theorem wantedIn_of_mem (h : (l.map PortInfo.name).Nodup) (hp : p ∈ l) :
    wantedIn l p.name = p.wanted := by
  induction l with
  | nil => cases hp
  | cons q l ih =>
    rw [List.map_cons, List.nodup_cons] at h
    rw [wantedIn_cons]
    rcases List.mem_cons.1 hp with rfl | hp
    · exact if_pos rfl
    · have hne : q.name ≠ p.name := fun hname => h.1 (hname ▸ List.mem_map_of_mem hp)
      rw [if_neg hne, ih h.2 hp]

/-- A port in the place of another writes what is wanted for the name. -/
theorem wantedIn_middle (h : ((l ++ p :: l').map PortInfo.name).Nodup) (hname : q.name = p.name) :
    wantedIn (l ++ q :: l') = Function.update (wantedIn (l ++ p :: l')) p.name q.wanted := by
  funext name
  induction l with
  | nil =>
    rw [List.nil_append, List.nil_append, wantedIn_cons, hname, Function.update_apply,
      wantedIn_cons]
    by_cases hsame : p.name = name
    · rw [if_pos hsame, if_pos hsame.symm]
    · rw [if_neg hsame, if_neg hsame, if_neg fun h => hsame h.symm]
  | cons x l ih =>
    rw [List.cons_append, List.map_cons, List.nodup_cons] at h
    rw [List.cons_append, List.cons_append, wantedIn_cons, ih h.2, Function.update_apply,
      Function.update_apply, wantedIn_cons]
    split
    · next hx =>
      rw [if_neg]
      rintro rfl
      exact h.1 (hx ▸ List.mem_map_of_mem (by simp))
    · rfl

theorem wantedIn_removed (h : ((l ++ p :: l').map PortInfo.name).Nodup) :
    wantedIn (l ++ l') = Function.update (wantedIn (l ++ p :: l')) p.name none := by
  funext name
  rw [Function.update_apply]
  split
  · next hname =>
    rw [List.map_append, List.map_cons, List.nodup_middle, List.nodup_cons,
      ← List.map_append] at h
    exact wantedIn_of_notMem (hname ▸ h.1)
  · next hother =>
    clear h
    induction l with
    | nil => rw [List.nil_append, List.nil_append, wantedIn_cons, if_neg fun hp => hother hp.symm]
    | cons x l ih => rw [List.cons_append, List.cons_append, wantedIn_cons, wantedIn_cons, ih]

theorem wantedIn_added (h : q.name ∉ l.map PortInfo.name) :
    wantedIn (l ++ [q]) = Function.update (wantedIn l) q.name q.wanted := by
  funext name
  induction l with
  | nil =>
    rw [List.nil_append, wantedIn_cons, Function.update_apply]
    by_cases hsame : q.name = name
    · rw [if_pos hsame, if_pos hsame.symm]
    · rw [if_neg hsame, if_neg fun h => hsame h.symm]
  | cons x l ih =>
    rw [List.map_cons, List.mem_cons, not_or] at h
    rw [List.cons_append, wantedIn_cons, ih h.2, Function.update_apply, Function.update_apply,
      wantedIn_cons]
    split
    · next hx =>
      have hne : name ≠ q.name := fun hsame => h.1 (hsame.symm.trans hx.symm)
      rw [if_neg hne]
    · rfl

theorem wantedIn_same (h : ((l ++ p :: l').map PortInfo.name).Nodup) (hname : q.name = p.name)
    (hwanted : q.wanted = p.wanted) : wantedIn (l ++ q :: l') = wantedIn (l ++ p :: l') := by
  rw [wantedIn_middle h hname, hwanted, ← wantedIn_of_mem h (by simp), Function.update_eq_self]

/-- What happens to connections, and nothing else. -/
def PortsEvent.serves : PortsEvent → Bool
  | .connect _ _ => true
  | .callback _ _ => true
  | .disconnectPort _ => true
  | _ => false

/-! ### What the functions do to it -/

namespace Ports

variable {s : Ports}

theorem wanted_of_roll {n : Nat} (h : s.roll = (l, n)) : s.wanted = wantedIn l :=
  congrArg (fun r : Roll => wantedIn r.1) h

/-- A connection leaves what is wanted as it is, also when it ends. -/
theorem leave_wanted (hs : s.roll.Sound) (hp : p ∈ s.ports) {r : Result}
    (henabled : r.port.enabled = p.port.enabled) : (s.leave p r).wanted = s.wanted := by
  obtain ⟨l, l', hl⟩ := List.append_of_mem hp
  have hsound : p.Sound := hs.each p hp
  have hnames : ((l ++ p :: l').map PortInfo.name).Nodup := hl ▸ hs.names
  have hports := congrArg Prod.fst (leave_roll hs hl r)
  change (s.leave p r).ports = _ at hports
  rw [wanted, wanted, hports, hl]
  split
  · next hended hnum =>
    -- The port was to be deleted.
    have hnone : wantedIn (l ++ p :: l') p.name = none := by
      rw [wantedIn_of_mem hnames (by simp), PortInfo.wanted, if_pos hnum]
    rw [wantedIn_removed hnames, ← hnone, Function.update_eq_self]
  · next k c hended hnum hnew =>
    obtain ⟨hname, hc, -⟩ := hsound.pending c hnew
    refine wantedIn_same hnames hname ?_
    rw [NewPort.portInfo_wanted hc, PortInfo.wanted, hnum, hnew]
    rfl
  · refine wantedIn_same hnames rfl ?_
    simp only [PortInfo.wanted, PortInfo.actual, henabled]

theorem run_wanted (hs : s.roll.Sound) (hp : p ∈ s.ports) {a : Action}
    (ha : a.ofConnection = true) : (s.run p a).wanted = s.wanted := by
  rw [run]
  split
  · rfl
  · refine leave_wanted hs hp ?_
    rcases (hs.each p hp).states with hconn | hidle
    · exact (callback_outcome p.conf (s.inuse p) hconn ha).enabled
    · rw [callback_idle p.conf (s.inuse p) hidle ha]

theorem connect_wanted (hs : s.roll.Sound) (fd : Fd) (env : SetupEnv) :
    (s.connect fd env).wanted = s.wanted := by
  rw [connect]
  split
  · rfl
  split
  · rfl
  · next p hfind =>
    exact leave_wanted hs (List.mem_of_find?_eq_some hfind)
      (handleAcceptPortRead_outcome p.conf (s.inuse p) env p.port).1

/-- What `portconfig` does: it writes the configuration of the line, unless it returns an error. -/
theorem portconfig_wanted (hs : s.roll.Sound) (env : StartupEnv) (line : ConfigLine) (k : Nat) :
    ((portconfig env s line k).2 ≠ none ∧ (portconfig env s line k).1.wanted = s.wanted) ∨
      (portconfig env s line k).2 = none ∧ ∃ c, line.newPort k = .ok c ∧
        (portconfig env s line k).1.wanted = Function.update s.wanted c.name (some c) := by
  rw [portconfig]
  split
  · exact .inl ⟨Option.some_ne_none _, rfl⟩
  next c hc =>
  have hnum : c.configNum ≠ none := by
    rw [(newPort_ok hc).2]
    exact Option.some_ne_none k
  split
  · next curr hfind =>
    obtain ⟨hp, hname⟩ := find_name hfind
    obtain ⟨l, l', hl⟩ := List.append_of_mem hp
    have hnames : ((l ++ curr :: l').map PortInfo.name).Nodup := hl ▸ hs.names
    refine .inr ?_
    split
    · obtain ⟨fd, hroll⟩ := replacePort_roll hs hl hname.symm hnum env
      refine ⟨rfl, c, hc, ?_⟩
      have hq : (c.portInfo s.nextId fd).name = curr.name := hname.symm
      rw [wanted_of_roll hroll, wanted, hl, wantedIn_middle hnames hq,
        NewPort.portInfo_wanted hnum, hname]
    · refine ⟨rfl, c, hc, ?_⟩
      rw [postponePort]
      dsimp only
      generalize (if curr.newConfig.isSome = true then
        { curr.port with enabled := .disabled } else curr.port) = port
      have hput : (s.put { curr with
          port := port
          configNum := c.configNum
          newConfig := some c }).roll = (l ++ _ :: l', s.nextId) := put_roll hs.ids hl rfl
      have hmiddle := @wantedIn_middle l l' curr { curr with
        port := port
        configNum := c.configNum
        newConfig := some c } hnames rfl
      rw [wanted_of_roll hput, hmiddle, wanted, hl, hname]
      exact congrArg _ (if_neg hnum)
  · next hnone =>
    have hnew : c.name ∉ s.ports.map PortInfo.name := by
      intro hmem
      obtain ⟨p, hp, hname⟩ := List.mem_map.1 hmem
      exact absurd hname (by simpa using List.find?_eq_none.1 hnone p hp)
    rcases addPort_roll env s c with ⟨hrv, fd, hroll⟩ | ⟨hrv, hroll⟩
    · refine .inr ⟨hrv, c, hc, ?_⟩
      rw [wanted_of_roll hroll]
      exact (@wantedIn_added s.ports (c.portInfo s.nextId fd) hnew).trans
        (by rw [NewPort.portInfo_wanted hnum]; rfl)
    · refine .inl ⟨hrv, ?_⟩
      exact congrArg (fun r : Roll => wantedIn r.1) hroll

theorem clearOldPorts_names {k : Nat} {rest : List PortInfo} {s : Ports} {name : PortName}
    (h : name ∉ rest.map PortInfo.name) :
    name ∉ (clearOldPorts k s rest).2.map PortInfo.name := by
  induction rest generalizing s with
  | nil => exact h
  | cons p rest ih =>
    rw [List.map_cons, List.mem_cons, not_or] at h
    rw [clearOldPorts]
    split
    · split
      · exact ih h.2
      · rw [List.map_cons, List.mem_cons, not_or]
        exact ⟨h.1, ih h.2⟩
    · rw [List.map_cons, List.mem_cons, not_or]
      exact ⟨h.1, ih h.2⟩

/-- What `clear_old_port_config` does: what is wanted from an old configuration is not wanted any
more. -/
theorem clearOldPorts_wanted {k : Nat} {rest : List PortInfo} {s : Ports}
    (hnames : (rest.map PortInfo.name).Nodup) (hsound : ∀ p ∈ rest, p.Sound) (name : PortName) :
    wantedIn (clearOldPorts k s rest).2 name =
      (wantedIn rest name).filter (·.configNum = some k) := by
  induction rest generalizing s with
  | nil => rfl
  | cons p rest ih =>
    obtain ⟨hp, hrest⟩ := List.forall_mem_cons.1 hsound
    rw [List.map_cons, List.nodup_cons] at hnames
    -- What an old port is wanted with goes.
    have hold : p.configNum ≠ some k → p.wanted.filter (·.configNum = some k) = none := by
      intro hnum
      rw [Option.filter_eq_none_iff]
      intro c hc hk
      exact hnum ((hp.wanted_configNum hc).symm.trans (of_decide_eq_true hk))
    rw [clearOldPorts]
    split
    · next hnum =>
      split
      · rw [wantedIn_cons]
        split
        · next hname =>
          rw [hold hnum, wantedIn_of_notMem (clearOldPorts_names (hname ▸ hnames.1))]
        · exact ih hnames.2 hrest
      · dsimp only
        rw [wantedIn_cons, wantedIn_cons]
        by_cases hname : p.name = name
        · rw [if_pos hname, hold hnum]
          exact (if_pos hname).trans (if_pos rfl)
        · rw [if_neg hname, ← ih hnames.2 hrest]
          exact if_neg hname
    · next hnum =>
      rw [not_not] at hnum
      dsimp only
      rw [wantedIn_cons, wantedIn_cons]
      split
      · cases hwanted : p.wanted with
        | none => rfl
        | some c =>
          rw [Option.filter_some_pos]
          exact decide_eq_true ((hp.wanted_configNum hwanted).trans hnum)
      · exact ih hnames.2 hrest

/-! ### Reading a file -/

/-- The lines of a configuration file, each with what the system calls for it return. -/
abbrev ConfigFile := List (StartupEnv × ConfigLine)

/-- The file is read as configuration `k`. -/
def readLines (k : Nat) (s : Ports) (file : ConfigFile) : Ports :=
  file.foldl (fun s line => s.step (.portconfig line.1 line.2 k)) s

/-- The file is read, and what it does not name is cleared. -/
def reload (k : Nat) (s : Ports) (file : ConfigFile) : Ports :=
  (s.readLines k file).step (.clearOldPortConfig k)

/-- The configuration of a line that is taken without an error. -/
def taken (k : Nat) (s : Ports) (env : StartupEnv) (line : ConfigLine) : Option NewPort :=
  if env.fresh s && (portconfig env s line k).2 = none then (line.newPort k).toOption else none

/-- The configurations of the lines that are. -/
def accepted (k : Nat) : Ports → ConfigFile → List NewPort
  | _, [] => []
  | s, (env, line) :: file =>
      (s.taken k env line).toList ++ accepted k (s.step (.portconfig env line k)) file

theorem taken_configNum {k : Nat} {env : StartupEnv} {line : ConfigLine} {c : NewPort}
    (h : s.taken k env line = some c) : c.configNum = some k := by
  rw [taken] at h
  split at h
  · cases hc : line.newPort k with
    | error error =>
      rw [hc] at h
      cases h
    | ok c' =>
      rw [hc] at h
      obtain rfl : c' = c := Option.some.inj h
      exact (newPort_ok hc).2
  · cases h

theorem accepted_configNum {k : Nat} {file : ConfigFile} {s : Ports} :
    ∀ c ∈ s.accepted k file, c.configNum = some k := by
  induction file generalizing s with
  | nil => exact fun _ h => absurd h List.not_mem_nil
  | cons head file ih =>
    intro c hc
    rcases List.mem_append.1 hc with hc | hc
    · exact taken_configNum (by simpa using hc)
    · exact ih c hc

/-- A configuration is to be that of its name. -/
def write (wanted : PortName → Option NewPort) (c : NewPort) : PortName → Option NewPort :=
  Function.update wanted c.name (some c)

/-- The configuration of a name is a register. -/
theorem write_register (name : PortName) :
    Register write (· name) (fun c => decide (c.name = name)) some where
  write := by
    intro wanted c h
    obtain rfl := of_decide_eq_true h
    exact Function.update_self ..
  keep := by
    intro wanted c h
    exact Function.update_of_ne (fun hname => of_decide_eq_false h hname.symm) ..

theorem line_wanted {k : Nat} (hs : s.roll.Sound) (hsane : s.crashed = false) (env : StartupEnv)
    (line : ConfigLine) :
    (s.step (.portconfig env line k)).wanted = (s.taken k env line).toList.foldl write s.wanted := by
  rw [step, hsane, taken]
  cases hfresh : env.fresh s with
  | false => rw [if_neg (by simp [PortsEvent.ready, hfresh]), if_neg (by simp)]; rfl
  | true =>
    rw [if_pos (by simpa [PortsEvent.ready] using hfresh), perform]
    rcases portconfig_wanted hs env line k with ⟨herror, hsame⟩ | ⟨hnone, c, hc, hwritten⟩
    · rw [if_neg (by simpa using herror), hsame]
      rfl
    · rw [if_pos (by simpa using hnone), hc, hwritten]
      rfl

theorem line_sane {k : Nat} (hsane : s.crashed = false) (env : StartupEnv) (line : ConfigLine) :
    (s.step (.portconfig env line k)).crashed = false := by
  rw [step]
  split
  · exact (portconfig_crashed env s line k).trans hsane
  · exact hsane

/-- What a file does: the lines that are accepted write their configurations. -/
theorem readLines_wanted {k : Nat} {file : ConfigFile} {s : Ports} (hs : s.roll.Sound)
    (hsane : s.crashed = false) :
    (s.readLines k file).roll.Sound ∧ (s.readLines k file).crashed = false ∧
      (s.readLines k file).wanted = (s.accepted k file).foldl write s.wanted := by
  induction file generalizing s with
  | nil => exact ⟨hs, hsane, rfl⟩
  | cons head file ih =>
    obtain ⟨env, line⟩ := head
    obtain ⟨hsound, hsane', hwanted⟩ :=
      ih ((step_changes hs (.portconfig env line k)).sound hs) (line_sane hsane env line)
    refine ⟨hsound, hsane', hwanted.trans ?_⟩
    rw [accepted, List.foldl_append, line_wanted hs hsane]

/-- What reading a file anew does: of what was wanted before, nothing is left. -/
theorem reload_wanted {k : Nat} {file : ConfigFile} (hs : s.roll.Sound) (hsane : s.crashed = false)
    (hnew : ∀ p ∈ s.ports, p.configNum ≠ some k) (name : PortName) :
    (s.reload k file).wanted name =
      ((s.accepted k file).filter (·.name = name)).getLast? := by
  obtain ⟨hsound, hsane', hwanted⟩ := @readLines_wanted k file s hs hsane
  have hclear : (s.reload k file).wanted name =
      ((s.readLines k file).wanted name).filter (·.configNum = some k) := by
    rw [reload, step, hsane']
    exact clearOldPorts_wanted hsound.names hsound.each name
  rw [hclear, hwanted, (write_register name).foldl]
  cases hlast : ((s.accepted k file).filter (·.name = name)).getLast? with
  | some c =>
    have hc := (List.mem_filter.1 (List.mem_of_getLast? hlast)).1
    exact Option.filter_some_pos (decide_eq_true (accepted_configNum c hc))
  | none =>
    -- The line that was wanted before is one of an old configuration.
    refine Option.filter_eq_none_iff.2 fun c hc => ?_
    obtain ⟨p, hfind, hp⟩ := Option.bind_eq_some_iff.1 hc
    have hmem := List.mem_of_find?_eq_some hfind
    intro hk
    exact hnew p hmem (((hs.each p hmem).wanted_configNum hp).symm.trans (of_decide_eq_true hk))

/-! ### Until it has taken effect -/

theorem serves_wanted (hs : s.roll.Sound) {ev : PortsEvent} (hev : ev.serves = true) :
    (s.step ev).wanted = s.wanted := by
  rw [step]
  split
  · next hready =>
    obtain ⟨-, hready⟩ := Bool.and_eq_true_iff.1 hready
    cases ev with
    | connect fd env => exact connect_wanted hs fd env
    | callback id a =>
      rw [perform]
      split
      · rfl
      · next p hfind =>
        refine run_wanted hs (List.mem_of_find?_eq_some hfind) ?_
        unfold Action.ofConnection
        rw [show a.ofSelector = true from hready, Bool.true_or]
    | disconnectPort portspec =>
      rw [perform, Dataxfer.disconnectPort]
      split
      · rfl
      next p hfind =>
      split
      · rfl
      · exact run_wanted hs (find_name hfind).1 rfl
    | portconfig | clearOldPortConfig | setporttimeout | setportenable | shutdownPorts => cases hev
  · rfl

theorem serves_run (hs : s.roll.Sound) {later : List PortsEvent}
    (hlater : ∀ ev ∈ later, ev.serves = true) :
    (later.foldl step s).roll.Sound ∧ (later.foldl step s).wanted = s.wanted := by
  refine Run.EachStep.foldl (I := fun t : Ports => t.roll.Sound ∧ t.wanted = s.wanted)
    (C := fun _ ev => ev.serves = true) ⟨hs, rfl⟩ ?_ (Run.eachStep_events.2 hlater)
  rintro t ev ⟨ht, hwanted⟩ hev
  exact ⟨(step_changes ht ev).sound ht, (serves_wanted ht hev).trans hwanted⟩

/-- A name without a connection has the configuration that is wanted for it. -/
theorem find_actual (hs : s.roll.Sound) {name : PortName}
    (hidle : ∀ p ∈ s.ports, p.name = name → p.port.devToTcpState = .unconnected) :
    (s.ports.find? (·.name = name)).map PortInfo.actual = s.wanted name := by
  rw [wanted, wantedIn]
  cases hfind : s.ports.find? (·.name = name) with
  | none => rfl
  | some p =>
    obtain ⟨hp, hname⟩ := find_name hfind
    have hsound := hs.each p hp
    rcases hsound.states with hconn | hidle'
    · exact absurd (hidle p hp hname) hconn.devToTcp
    · exact (hsound.wanted_of_idle hidle').symm

/-- **A new configuration takes effect as soon as it can.** Once a file has been read with a new
number, a name without a connection has the port of the last line that was accepted for it, and
none if there is no such line, whatever the clients have done since. -/
theorem reload_settles {evs later : List PortsEvent} {k : Nat} {file : ConfigFile}
    (hsane : (evs.foldl step start).crashed = false)
    (hnew : ∀ p ∈ (evs.foldl step start).ports, p.configNum ≠ some k)
    (hlater : ∀ ev ∈ later, ev.serves = true) {name : PortName}
    (hidle : ∀ p ∈ (later.foldl step ((evs.foldl step start).reload k file)).ports,
      p.name = name → p.port.devToTcpState = .unconnected) :
    ((later.foldl step ((evs.foldl step start).reload k file)).ports.find? (·.name = name)).map
        PortInfo.actual =
      (((evs.foldl step start).accepted k file).filter (·.name = name)).getLast? := by
  have hs := run_sound evs
  have hread := (@readLines_wanted k file _ hs hsane).1
  obtain ⟨hsound, hwanted⟩ :=
    serves_run ((step_changes hread (.clearOldPortConfig k)).sound hread) hlater
  calc ((later.foldl step ((evs.foldl step start).reload k file)).ports.find?
        (·.name = name)).map PortInfo.actual
      = (later.foldl step ((evs.foldl step start).reload k file)).wanted name :=
        find_actual hsound hidle
    _ = ((evs.foldl step start).reload k file).wanted name := congrFun hwanted name
    _ = (((evs.foldl step start).accepted k file).filter (·.name = name)).getLast? :=
        reload_wanted hs hsane hnew name

/-- The device of a port is changed while there is a connection, which then ends. -/
theorem reload_settles_moved :
    let line (dev : List Char) : ConfigLine :=
      ⟨⟨['2', '0', '0', '1'], dev, true, none, none, none, ⟨false, [], 256⟩, 31⟩, true,
        "raw".toList, some 0, true⟩
    let evs : List PortsEvent := [.portconfig (.listens 3) (line ['a']) 1,
      .connect 3 ⟨true, true, true, true, true, true, true, true, 0⟩]
    let t := [.callback 0 .except].foldl step
      ((evs.foldl step start).reload 2 [(.invalid, line ['b'])])
    (t.ports.find? (·.name = ['2', '0', '0', '1'])).map PortInfo.actual =
      some ⟨(line ['b']).conf, .raw, 0, some 2⟩ := by
  intro line evs t
  have hnew : ∀ p ∈ (evs.foldl step start).ports, p.configNum ≠ some 2 := by
    intro p hp
    obtain rfl := List.mem_singleton.1 hp
    decide
  have hidle : ∀ p ∈ t.ports, p.name = ['2', '0', '0', '1'] →
      p.port.devToTcpState = .unconnected := by
    intro p hp _
    obtain rfl := List.mem_singleton.1 hp
    rfl
  exact (reload_settles rfl hnew (by simp [PortsEvent.serves]) hidle).trans rfl

end Ports

end SerialServer.Dataxfer
