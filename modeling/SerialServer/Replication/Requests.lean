import SerialServer.Replication.Settings

/-!
# SerialServer.Replication.Requests

Which events leave the server's settings those of the reporter.

Only two kinds of events change a setting: a connection that gets as far as `myinit_gd`, and
the commands of a telnet client. Nothing that a connection records is broadcast, so it has to
be in the table already (`SetupShown`). Of the commands, SET-STOPSIZE broadcasts the record
`myport2sn` names; whatever the commands after the last of these in one read record has to be
what the record held when that was broadcast (`NotesShown`). A run keeps the settings in
agreement just when it starts so and every event of it is of that kind, by what the event asks
for and the state it finds (`settings_replicated_iff`).
-/

namespace SerialServer

open Dataxfer Run

/-! ### The commands of a client -/

/-- What a command asks for, of what is recorded. -/
inductive LineRequest
  | baud (val : Word)
  | dataSize (c : Byte)
  | parity (c : Byte)
  | stopSize (c : Byte)
  /-- Flow control in one of the directions, or the RTS line. -/
  | flow
  deriving Repr, DecidableEq

/-- The request in a suboption of the com-port option. -/
def lineRequest (cisco : Bool) (option : List Byte) : Option LineRequest :=
  let len := option.length
  let c := option.getD 2 0
  match (option.getD 1 0).toNat with
  | 1 =>
      if cisco then if len < 3 then none else some (.baud (c.setWidth 32))
      else if len < 6 then none
      else some (.baud (ofNetBytes c (option.getD 3 0) (option.getD 4 0) (option.getD 5 0)))
  | 2 => if len < 3 then none else some (.dataSize c)
  | 3 => if len < 3 then none else some (.parity c)
  | 4 => if len < 3 then none else some (.stopSize c)
  | 5 =>
      if len < 3 then none
      else if c.toNat ≤ 3 ∨ 10 ≤ c.toNat ∧ c.toNat ≤ 19 then some .flow
      else none
  | _ => none

/-- A field of a record, and the code that is written to it. -/
abbrev Note := Field × Word

/-- The speed of the line behind a request for `asked`, as SET-BAUDRATE finds it. -/
def Dataxfer.ComEnv.speed (env : ComEnv) (asked : Option Speed) : Speed :=
  if env.setOk || !env.getAgainOk then asked.getD env.termios.ispeed else env.termios.ispeed

/-- What is recorded of a request: the code of what was asked for, or of what the line has if
that is nothing it can be set to. If the line cannot be read, rate and size are not recorded,
and parity and stop size with the code of 0. -/
def LineRequest.note (cisco : Bool) (env : ComEnv) : LineRequest → Option Note
  | .baud val =>
      if env.getOk then
        some (.baud, Dataxfer.baud2n (env.speed (if val ≠ 0 then getBaudRate cisco val else none)))
      else none
  | .dataSize c =>
      if env.getOk then
        some (.bits, Dataxfer.bits2n ((CharSize.ofOption c).getD env.termios.csize).bits)
      else none
  | .parity c =>
      some (.parity, parity2n (
        if env.getOk then
          if c = 1 ∨ c = 2 ∨ c = 3 then c.setWidth 32 else env.termios.parityVal
        else 0))
  | .stopSize c =>
      some (.stop, stop2n (
        if env.getOk then if c = 1 ∨ c = 2 then c.setWidth 32 else env.termios.stopVal else 0))
  | .flow => some (.flowctrl, 0)

/-- What is recorded of the commands of one read; `env i` is what the system calls of command
`i` return. -/
def notes (cfg : ComConfig) (env : Nat → ComEnv) : List (List Byte) → List Note
  | [] => []
  | cmd :: cmds =>
      ((comPortOption cmd).bind fun option =>
          (lineRequest cfg.cisco option).bind fun r => r.note cfg.cisco (env 0)).toList ++
        notes cfg (fun i => env (i + 1)) cmds

/-- The last code that is written to field `f`. -/
def lastNote (f : Field) (ws : List Note) : Option Word :=
  (ws.filter (·.1 = f)).getLast?.map (·.2)

/-- In the slot of port `pname` the last code for each field is the one it had when the record
was last broadcast: with the last stop size, or before the read. -/
def NotesShown (pname : PortName) (t : PortTable) (ws : List Note) : Prop :=
  ∀ k : Fin 8, (k : Int) = digitSlot pname → ∀ (f : Field) (v : Word),
    if k = portSlot pname then
      lastNote f (ws.rtakeWhile (·.1 ≠ .stop)) = some v →
        (lastNote f (ws.rdropWhile (·.1 ≠ .stop))).getD (f.get (t (k : Nat))) = v
    else lastNote f ws = some v → f.get (t (k : Nat)) = v

/-! ### Connections -/

/-- The connection gets as far as opening the device. -/
def Dataxfer.SetupEnv.admitted (env : SetupEnv) : Bool :=
  env.acceptOk && env.keepaliveOk && env.fcntlOk && env.nodelayOk && env.accessOk && env.lockOk

/-- The device can be opened and set up. -/
def Dataxfer.SetupEnv.opened (env : SetupEnv) (cfg : PortConfig) (enabled : PortState) : Bool :=
  env.openOk && (enabled = .rawlp || cfg.disablebreak || env.tcsetattrOk)

/-- The slots of port `pname` show what a connection records: the defaults, and the address of
the client if the device could be set up. -/
structure SetupShown (pname : PortName) (t : PortTable) (opened : Bool) (remote : Word) :
    Prop where
  defaults : ∀ k : Fin 8, (k : Int) = digitSlot pname → ∀ f : Field, f ≠ .ip →
    f.get (t (k : Nat)) = f.get Dataxfer.initRecord
  noAddress : ∀ k : Fin 8, (k : Int) = digitSlot pname → ¬ (opened = true ∧ k = portSlot pname) →
    (t (k : Nat)).ip = 0
  address : opened = true → (t (portSlot pname : Nat)).ip = remote

variable {n : Nat}

/-- The event leaves no setting behind that the server does not have, if it had all before. -/
def Replicates (cfg : Config n) (s : Ser2net n) (ev : Event n) : Prop :=
  let p := s.ports ev.1
  match ev.2 with
  | .accept env =>
      p.enabled ≠ .disabled → p.tcpToDevState = .unconnected →
        isDeviceAlreadyInuse cfg s ev.1 = false → env.admitted = true →
          SetupShown (cfg.name ev.1) s.table (env.opened (cfg.port ev.1) p.enabled) env.remote
  | .tcpRead (.data bytes) env =>
      p.tcpToDevState = .waitingInput → p.enabled = .telnet →
        NotesShown (cfg.name ev.1) s.table (notes (cfg.port ev.1).com env.com
          (processTelnetData (cfg.port ev.1).maxCmd p.tnData bytes).cmds)
  | _ => True

/-! ### Calls that leave nothing behind -/

variable {pname : PortName} {t : PortTable} {cs ds : List Call}

/-- The call changes a status only. -/
def Dataxfer.Call.IsStatus : Call → Bool
  | .myChangeStat _ => true
  | _ => false

theorem lastWritten_concat (pname : PortName) (k : Int) (f : Field) (cs : List Call) (c : Call) :
    lastWritten pname k f (cs ++ [c]) = (c.writes pname k f).or (lastWritten pname k f cs) := by
  unfold lastWritten
  rw [List.filter_append]
  cases hc : c.writes pname k f with
  | none => simp [hc]
  | some v => simp [hc]

/-- Calls that change a status only do not show. -/
theorem carried_append_status (hds : ∀ c ∈ ds, c.IsStatus = true) :
    Carried pname t (cs ++ ds) ↔ Carried pname t cs := by
  induction ds using List.reverseRecOn with
  | nil => rw [List.append_nil]
  | append_singleton ds c ih =>
    rw [← ih fun c hc => hds c (List.mem_append_left _ hc), ← List.append_assoc]
    have hc := hds c (List.mem_append_right _ (List.mem_singleton.2 rfl))
    cases c with
    | myChangeStat stat =>
      refine forall₃_congr fun k f v => ?_
      have hsent : sent pname k (cs ++ ds ++ [.myChangeStat stat]) = sent pname k (cs ++ ds) :=
        List.rdropWhile_concat_pos _ _ _ rfl
      have hunsent : unsent pname k (cs ++ ds ++ [.myChangeStat stat]) =
          unsent pname k (cs ++ ds) ++ [.myChangeStat stat] := List.rtakeWhile_concat_pos _ _ _ rfl
      rw [hsent, hunsent, lastWritten_concat]
      simp [Call.writes, Call.assigns]
    | _ => cases hc

theorem carried_of_status (hds : ∀ c ∈ ds, c.IsStatus = true) : Carried pname t ds := by
  have hnil : Carried pname t [] := fun k f v h => absurd h (by simp [unsent, lastWritten])
  have happend : Carried pname t ([] ++ ds) ↔ Carried pname t [] := carried_append_status hds
  exact happend.2 hnil

/-- Calls of which none broadcasts a record have to write what is there. -/
theorem carried_silent (hcs : ∀ c ∈ cs, ∀ k, c.carries pname k = false) :
    Carried pname t cs ↔ ∀ (k : Fin 8) (f : Field) (v : Word),
      lastWritten pname (k : Nat) f cs = some v → f.get (t (k : Nat)) = v := by
  refine forall₃_congr fun k f v => ?_
  have hsent : sent pname k cs = [] :=
    List.rdropWhile_eq_nil_iff.2 fun c hc => by simp [hcs c hc k]
  have hunsent : unsent pname k cs = cs :=
    List.rtakeWhile_eq_self_iff.2 fun c hc => by simp [hcs c hc k]
  rw [hsent, hunsent]
  simp [lastWritten]

/-! ### What a connection calls -/

theorem eq_portSlot_iff {k : Fin 8} : ((k : Nat) : Int) = myport2sn pname ↔ k = portSlot pname := by
  rw [← portSlot_val]
  constructor
  · intro h
    exact Fin.ext (Int.ofNat.inj h)
  · intro h
    rw [h]

theorem lastWritten_myinitGd (pname : PortName) (k : Int) (f : Field) :
    lastWritten pname k f [.myinitGd] =
      if k = digitSlot pname then some (f.get Dataxfer.initRecord) else none := by
  refine (lastWritten_concat pname k f [] .myinitGd).trans ?_
  exact Option.or_none

theorem carried_refused (remote : Word) :
    Carried pname t [.myinitGd] ↔ SetupShown pname t false remote := by
  rw [carried_silent (by simp [Call.carries])]
  simp only [lastWritten_myinitGd]
  constructor
  · intro h
    have hfield : ∀ k : Fin 8, (k : Int) = digitSlot pname → ∀ f : Field,
        f.get (t (k : Nat)) = f.get Dataxfer.initRecord :=
      fun k hk f => h k f _ (if_pos hk)
    exact ⟨fun k hk f _ => hfield k hk f, fun k hk _ => hfield k hk .ip,
      fun hopen => absurd hopen Bool.false_ne_true⟩
  · intro h k f v hv
    split at hv
    · next hk =>
      rw [← Option.some.inj hv]
      by_cases hf : f = .ip
      · rw [hf]
        exact h.noAddress k hk (by simp)
      · exact h.defaults k hk f hf
    · cases hv

theorem carried_opened (stat remote : Word) :
    Carried pname t [.myinitGd, .myChangeStat stat, .mySaveIpRemote remote] ↔
      SetupShown pname t true remote := by
  rw [carried_silent (by simp [Call.carries])]
  have hlast : ∀ (k : Fin 8) (f : Field), lastWritten pname (k : Nat) f
      [.myinitGd, .myChangeStat stat, .mySaveIpRemote remote] =
        if k = portSlot pname ∧ f = .ip then some remote
        else if (k : Int) = digitSlot pname then some (f.get Dataxfer.initRecord) else none := by
    intro k f
    have hstat := lastWritten_concat pname (k : Nat) f [.myinitGd] (.myChangeStat stat)
    have hnone : (Call.myChangeStat stat).writes pname (k : Nat) f = none := ite_self _
    rw [hnone, Option.none_or, lastWritten_myinitGd] at hstat
    refine (lastWritten_concat pname (k : Nat) f [.myinitGd, .myChangeStat stat]
      (.mySaveIpRemote remote)).trans ?_
    rw [show [Call.myinitGd, .myChangeStat stat] = [.myinitGd] ++ [.myChangeStat stat] from rfl,
      hstat]
    simp only [Call.writes, Call.slot, Call.assigns, eq_portSlot_iff]
    by_cases hk : k = portSlot pname
    · by_cases hf : f = .ip <;> simp [hk, hf]
    · simp [hk]
  simp only [hlast]
  constructor
  · intro h
    refine ⟨fun k hk f hf => h k f _ ?_, fun k hk hne => h k .ip _ ?_, fun _ =>
      h (portSlot pname) .ip _ ?_⟩
    · simp [hk, hf]
    · simp [show k ≠ portSlot pname by simpa using hne, hk, Field.get, Dataxfer.initRecord]
    · simp
  · intro h k f v hv
    split at hv
    · next hip =>
      obtain ⟨rfl, rfl⟩ := hip
      rw [← Option.some.inj hv]
      exact h.address rfl
    split at hv
    · next hip hk =>
      rw [← Option.some.inj hv]
      by_cases hf : f = .ip
      · subst hf
        exact h.noAddress k hk fun hopen => hip ⟨hopen.2, rfl⟩
      · exact h.defaults k hk f hf
    · cases hv

/-! ### What the commands call -/

/-- What a setting call writes. -/
def Dataxfer.Call.note : Call → Note
  | .prnspeed s => (.baud, Dataxfer.baud2n s)
  | .mysavebits v => (.bits, Dataxfer.bits2n v)
  | .mysaveparity v => (.parity, parity2n v)
  | .mysavestop v => (.stop, stop2n v)
  | .mysaveflowc _ => (.flowctrl, 0)
  | _ => (.ip, 0)

theorem writes_note {c : Call} (hc : c.IsSetting = true) (pname : PortName) (k : Int) (f : Field) :
    c.writes pname k f = if k = digitSlot pname ∧ c.note.1 = f then some c.note.2 else none := by
  cases c with
  | myinitGd => cases hc
  | myChangeStat stat => cases hc
  | mySaveIpRemote inp => cases hc
  | _ =>
    simp only [Call.writes, Call.slot, Call.assigns, Call.note]
    by_cases hk : k = digitSlot pname <;> simp [hk, eq_comm]

theorem carries_note (pname : PortName) (k : Fin 8) (c : Call) :
    c.carries pname k = decide (c.note.1 = .stop ∧ k = portSlot pname) := by
  cases c <;> simp [Call.carries, Call.note]

theorem lastNote_concat (f : Field) (ws : List Note) (w : Note) :
    lastNote f (ws ++ [w]) = if w.1 = f then some w.2 else lastNote f ws := by
  unfold lastNote
  rw [List.filter_append]
  by_cases hw : w.1 = f <;> simp [hw]

theorem lastWritten_note (hcs : ∀ c ∈ cs, c.IsSetting = true) (k : Int) (f : Field) :
    lastWritten pname k f cs =
      if k = digitSlot pname then lastNote f (cs.map Call.note) else none := by
  induction cs using List.reverseRecOn with
  | nil => exact (ite_self _).symm
  | append_singleton cs c ih =>
    have hc := hcs c (List.mem_append_right _ (List.mem_singleton.2 rfl))
    rw [lastWritten_concat, writes_note hc, ih fun c hc => hcs c (List.mem_append_left _ hc),
      List.map_append, List.map_singleton, lastNote_concat]
    by_cases hk : k = digitSlot pname
    · by_cases hf : c.note.1 = f <;> simp [hk, hf]
    · simp [hk]

theorem rdropWhile_map {α β : Type} (g : α → β) (q : β → Bool) (l : List α) :
    (l.map g).rdropWhile q = (l.rdropWhile (q ∘ g)).map g := by
  rw [List.rdropWhile, List.rdropWhile, ← List.map_reverse, List.dropWhile_map, List.map_reverse]

theorem rtakeWhile_map {α β : Type} (g : α → β) (q : β → Bool) (l : List α) :
    (l.map g).rtakeWhile q = (l.rtakeWhile (q ∘ g)).map g := by
  rw [List.rtakeWhile, List.rtakeWhile, ← List.map_reverse, List.takeWhile_map, List.map_reverse]

/-- **What setting calls leave behind**, by what they write. -/
theorem carried_note (hcs : ∀ c ∈ cs, c.IsSetting = true) :
    Carried pname t cs ↔ NotesShown pname t (cs.map Call.note) := by
  refine forall_congr' fun k => ?_
  have hsent : ∀ c ∈ sent pname k cs, c.IsSetting = true :=
    fun c hc => hcs c ((List.rdropWhile_prefix _ _).subset hc)
  have hunsent : ∀ c ∈ unsent pname k cs, c.IsSetting = true :=
    fun c hc => hcs c ((List.rtakeWhile_suffix _ _).subset hc)
  by_cases hk : (k : Int) = digitSlot pname
  · rw [forall_prop_of_true hk]
    refine forall₂_congr fun f v => ?_
    rw [lastWritten_note hsent, lastWritten_note hunsent, if_pos hk, if_pos hk]
    by_cases hp : k = portSlot pname
    · have hq : (fun c : Call => !c.carries pname k) =
          (fun w : Note => decide (w.1 ≠ .stop)) ∘ Call.note := by
        funext c
        simp [carries_note, hp]
      rw [if_pos hp, rdropWhile_map, rtakeWhile_map, ← hq]
      exact Iff.rfl
    · have hq : ∀ c : Call, (!c.carries pname k) = true := by
        intro c
        simp [carries_note, hp]
      have hnone : sent pname k cs = [] := List.rdropWhile_eq_nil_iff.2 fun c _ => hq c
      have hall : unsent pname k cs = cs := List.rtakeWhile_eq_self_iff.2 fun c _ => hq c
      rw [if_neg hp, hnone, hall]
      rfl
  · refine iff_of_true (fun f v hv => ?_) fun h => absurd h hk
    rw [lastWritten_note hunsent, if_neg hk] at hv
    cases hv

theorem setBaudrate_note (cisco : Bool) (env : ComEnv) (val : Word) :
    (setBaudrate cisco env val).calls.map Call.note =
      ((LineRequest.baud val).note cisco env).toList := by
  unfold setBaudrate LineRequest.note
  cases env.getOk with
  | false => rfl
  | true =>
    dsimp only
    generalize (if val ≠ 0 then getBaudRate cisco val else none) = asked
    have hspeed : (if env.getAgainOk then
        (env.change (asked.map fun s t => { t with ispeed := s, ospeed := s })).2
      else (env.change (asked.map fun s t => { t with ispeed := s, ospeed := s })).1).ispeed =
        env.speed asked := by
      unfold ComEnv.speed ComEnv.change
      cases asked with
      | none => simp
      | some s => cases env.setOk <;> cases env.getAgainOk <;> rfl
    simp only [if_true, List.map_singleton, Call.note, hspeed, Option.toList_some]

theorem setDatasize_note (cisco : Bool) (env : ComEnv) (c : Byte) :
    (setDatasize env c).calls.map Call.note =
      ((LineRequest.dataSize c).note cisco env).toList := by
  unfold setDatasize LineRequest.note ComEnv.change
  cases env.getOk with
  | false => rfl
  | true =>
    dsimp only
    cases CharSize.ofOption c <;> rfl

theorem setParity_note (cisco : Bool) (env : ComEnv) (c : Byte) :
    (setParity env c).calls.map Call.note =
      ((LineRequest.parity c).note cisco env).toList := by
  unfold setParity LineRequest.note ComEnv.change
  cases env.getOk with
  | false => rfl
  | true =>
    by_cases h1 : c = 1
    · simp [h1, Call.note, Termios.parityVal]
    by_cases h2 : c = 2
    · simp [h2, Call.note, Termios.parityVal]
    by_cases h3 : c = 3
    · simp [h3, Call.note, Termios.parityVal]
    · simp only [if_true, h1, h2, h3, if_false, or_self, List.map_singleton, Call.note,
        Option.toList_some]

theorem setStopsize_note (cisco : Bool) (env : ComEnv) (c : Byte) :
    (setStopsize env c).calls.map Call.note =
      ((LineRequest.stopSize c).note cisco env).toList := by
  unfold setStopsize LineRequest.note ComEnv.change
  cases env.getOk with
  | false => rfl
  | true =>
    by_cases h1 : c = 1
    · simp [h1, Call.note, Termios.stopVal]
    by_cases h2 : c = 2
    · simp [h2, Call.note, Termios.stopVal]
    · simp only [if_true, h1, h2, if_false, or_self, List.map_singleton, Call.note,
        Option.toList_some]

/-- Only flow control and the RTS line are recorded of SET-CONTROL. -/
theorem setControl_note (cisco : Bool) (env : ComEnv) (breakSet : Bool) (c : Byte) :
    (setControl env breakSet c).1.calls.map Call.note =
      ((if c.toNat ≤ 3 ∨ 10 ≤ c.toNat ∧ c.toNat ≤ 19 then some LineRequest.flow else none).bind
        fun r => r.note cisco env).toList := by
  unfold setControl
  by_cases h3 : c.toNat ≤ 3
  · rw [if_pos h3, if_pos (.inl h3)]
    rfl
  rw [if_neg h3]
  by_cases h19 : 13 ≤ c.toNat ∧ c.toNat ≤ 19
  · rw [if_pos h19, if_pos (.inr ⟨by omega, h19.2⟩)]
    rfl
  rw [if_neg h19]
  by_cases h9 : c.toNat ≤ 9
  · -- The break signal and the DTR line.
    have hno : ¬ (c.toNat ≤ 3 ∨ 10 ≤ c.toNat ∧ c.toNat ≤ 19) := by omega
    rw [if_pos h9, if_neg hno]
    split <;> rfl
  rw [if_neg (by omega : ¬ c.toNat ≤ 6), if_neg h9]
  by_cases h12 : c.toNat ≤ 12
  · rw [if_pos h12, if_pos (.inr ⟨by omega, by omega⟩)]
    rfl
  · have hno : ¬ (c.toNat ≤ 3 ∨ 10 ≤ c.toNat ∧ c.toNat ≤ 19) := by omega
    rw [if_neg h12, if_neg hno]
    rfl

/-- **What a command calls** is what its request has recorded. -/
theorem comPortHandler_note (cfg : ComConfig) (env : ComEnv) (p : ComPort) (option : List Byte) :
    (comPortHandler cfg env p option).calls.map Call.note =
      ((lineRequest cfg.cisco option).bind fun r => r.note cfg.cisco env).toList := by
  by_cases hlen : option.length < 2
  · have hzero : option.getD 1 0 = 0 := List.getD_eq_default _ _ (by omega)
    unfold comPortHandler lineRequest
    rw [if_pos hlen, hzero]
    rfl
  unfold comPortHandler lineRequest
  dsimp only
  rw [if_neg hlen]
  generalize (option.getD 1 0).toNat = cmd
  split
  · rfl
  · -- SET-BAUDRATE
    split
    · split
      · rfl
      · exact setBaudrate_note ..
    · split
      · rfl
      · exact setBaudrate_note ..
  · -- SET-DATASIZE
    split
    · rfl
    · exact setDatasize_note cfg.cisco ..
  · -- SET-PARITY
    split
    · rfl
    · exact setParity_note cfg.cisco ..
  · -- SET-STOPSIZE
    split
    · rfl
    · exact setStopsize_note cfg.cisco ..
  · -- SET-CONTROL
    split
    · rfl
    · exact setControl_note ..
  · rfl
  · rfl
  · split <;> rfl
  · split <;> rfl
  · split
    · rfl
    · split <;> rfl
  · split <;> first | rfl | contradiction

theorem runCommands_note (cfg : ComConfig) (cmds : List (List Byte)) :
    ∀ (env : Nat → ComEnv) (p : ComPort),
      (runCommands cfg env p cmds).2.map Call.note = notes cfg env cmds := by
  induction cmds with
  | nil => exact fun _ _ => rfl
  | cons cmd cmds ih =>
    intro env p
    rw [runCommands, notes]
    cases comPortOption cmd with
    | none => exact ih _ _
    | some option =>
      dsimp only
      rw [List.map_append, comPortHandler_note, ih]
      rfl

/-! ### Events -/

/-- The calls of a callback that changes no setting. -/
abbrev StatusOnly (r : Result) : Prop := ∀ c ∈ r.calls, c.IsStatus = true

theorem statusOnly_nil (p : Port) (moved : Nat) : StatusOnly ⟨p, [], moved⟩ :=
  fun _ hc => absurd hc List.not_mem_nil

theorem StatusOnly.andThen {r : Result} {f : Port → Result} (hr : StatusOnly r)
    (hf : StatusOnly (f r.port)) : StatusOnly (r.andThen f) := by
  intro c hc
  rcases List.mem_append.1 hc with hc | hc
  · exact hr c hc
  · exact hf c hc

theorem statusOnly_firstData (p p' : Port) (count moved : Nat) :
    StatusOnly ⟨p', firstData p count, moved⟩ := by
  intro c hc
  have hc' : c ∈ firstData p count := hc
  unfold firstData at hc'
  split at hc'
  · rw [List.mem_singleton.1 hc']
    rfl
  · exact absurd hc' List.not_mem_nil

theorem statusOnly_finishShutdownPort (p : Port) : StatusOnly (finishShutdownPort p) := by
  intro c hc
  rw [List.mem_singleton.1 hc]
  rfl

theorem statusOnly_shutdownPort (p : Port) : StatusOnly (shutdownPort p) := by
  unfold shutdownPort
  dsimp only
  split
  · exact statusOnly_nil _ _
  · exact statusOnly_finishShutdownPort _

theorem statusOnly_writeToDev (w : WriteResult) (size : Nat) (p : Port) :
    StatusOnly (writeToDev w size p) := by
  unfold writeToDev
  split
  · exact statusOnly_nil _ _
  · exact statusOnly_shutdownPort _
  · dsimp only
    split <;> exact statusOnly_firstData _ _ _ _

theorem statusOnly_handleDevFdRead (r : ReadResult) (w : WriteResult) (p : Port) :
    StatusOnly (handleDevFdRead r w p) := by
  unfold handleDevFdRead
  split
  · exact statusOnly_shutdownPort _
  · exact statusOnly_shutdownPort _
  · dsimp only
    split
    · exact statusOnly_firstData _ _ _ _
    · exact .andThen (statusOnly_firstData _ _ _ _) (statusOnly_shutdownPort _)
    · repeat' split
      all_goals exact statusOnly_firstData _ _ _ _

theorem statusOnly_devFdWrite (w : BufferWrite) (p : Port) : StatusOnly (devFdWrite w p) := by
  unfold devFdWrite
  split
  · unfold handleDevFdWrite
    dsimp only
    split
    · exact .andThen (statusOnly_nil _ _) (statusOnly_shutdownPort _)
    split <;> exact statusOnly_nil _ _
  · unfold handleDevFdDevstrWrite
    dsimp only
    split
    · exact statusOnly_shutdownPort _
    split <;> exact statusOnly_nil _ _
  · unfold handleDevFdCloseWrite
    dsimp only
    split
    · exact statusOnly_finishShutdownPort _
    split
    · exact statusOnly_nil _ _
    · exact statusOnly_finishShutdownPort _

theorem statusOnly_handleTcpFdWrite (w : TcpWrite) (p : Port) :
    StatusOnly (handleTcpFdWrite w p) := by
  unfold handleTcpFdWrite
  split
  · exact statusOnly_shutdownPort _
  · exact statusOnly_nil _ _
  · exact statusOnly_shutdownPort _
  · split <;> split <;> exact statusOnly_nil _ _

theorem accept_not_admitted (cfg : PortConfig) (inuse : Bool) {env : SetupEnv} (p : Port)
    (h : ¬ env.admitted = true) : (handleAcceptPortRead cfg inuse env p).calls = [] := by
  unfold handleAcceptPortRead
  split
  · rfl
  split
  · rfl
  split
  · rfl
  rename_i haccept
  split
  · rfl
  rename_i hkeep
  unfold setupTcpPort
  split
  · rfl
  rename_i hfcntl
  split
  · rfl
  rename_i hnodelay
  split
  · rfl
  rename_i haccess
  split
  · rfl
  rename_i hlock
  refine absurd ?_ h
  simp only [Bool.not_eq_true', Bool.not_eq_false] at haccept hkeep hfcntl hnodelay haccess hlock
  simp [SetupEnv.admitted, haccept, hkeep, hfcntl, hnodelay, haccess, hlock]

/-- **What a connection leaves behind.** -/
theorem carried_accept (cfg : PortConfig) (inuse : Bool) (env : SetupEnv) (p : Port) :
    Carried pname t (handleAcceptPortRead cfg inuse env p).calls ↔
      (p.tcpToDevState = .unconnected → inuse = false → env.admitted = true →
        SetupShown pname t (env.opened cfg p.enabled) env.remote) := by
  have hnone : ∀ cs : List Call, cs = [] → Carried pname t cs := by
    rintro cs rfl
    exact carried_of_status fun c hc => absurd hc List.not_mem_nil
  by_cases hstate : p.tcpToDevState = .unconnected
  swap
  · refine iff_of_true (hnone _ ?_) fun h => absurd h hstate
    rw [handleAcceptPortRead, if_pos hstate]
  cases inuse with
  | true =>
    refine iff_of_true (hnone _ ?_) nofun
    rw [handleAcceptPortRead, if_neg (not_not_intro hstate), if_pos rfl]
  | false =>
    by_cases hadmitted : env.admitted = true
    swap
    · exact iff_of_true (hnone _ (accept_not_admitted cfg false p hadmitted))
        fun _ _ h => absurd h hadmitted
    have hcalls : (handleAcceptPortRead cfg false env p).calls =
        if env.opened cfg p.enabled = true then
          [.myinitGd, .myChangeStat 0x10, .mySaveIpRemote env.remote]
        else [.myinitGd] := by
      unfold SetupEnv.admitted at hadmitted
      simp only [Bool.and_eq_true] at hadmitted
      obtain ⟨⟨⟨⟨⟨haccept, hkeep⟩, hfcntl⟩, hnodelay⟩, haccess⟩, hlock⟩ := hadmitted
      unfold handleAcceptPortRead setupTcpPort SetupEnv.opened
      simp only [hstate, haccept, hkeep, hfcntl, hnodelay, haccess, hlock, ne_eq, not_true_eq_false,
        Bool.not_true, Bool.false_eq_true, if_false]
      cases env.openOk with
      | false => rfl
      | true =>
        by_cases hraw : p.enabled = .rawlp
        · simp [hraw]
        · cases cfg.disablebreak <;> cases env.tcsetattrOk <;> simp [hraw]
    rw [hcalls, forall_prop_of_true hstate, forall_prop_of_true rfl,
      forall_prop_of_true hadmitted]
    cases env.opened cfg p.enabled with
    | false => exact carried_refused env.remote
    | true => exact carried_opened 0x10 env.remote

theorem notesShown_nil : NotesShown pname t [] := by
  intro k _ f v
  simp [lastNote]

/-- **What the data of a client leaves behind.** -/
theorem carried_tcpRead (cfg : PortConfig) (bytes : List Byte) (env : TcpReadEnv) (p : Port) :
    Carried pname t (handleTcpFdRead cfg (.data bytes) env p).calls ↔
      (p.enabled = .telnet → NotesShown pname t
        (notes cfg.com env.com (processTelnetData cfg.maxCmd p.tnData bytes).cmds)) := by
  cases bytes with
  | nil => exact iff_of_true (carried_of_status (statusOnly_shutdownPort p)) fun _ => notesShown_nil
  | cons b bs =>
    by_cases htelnet : p.enabled = .telnet
    · rw [forall_prop_of_true htelnet, ← runCommands_note cfg.com _ env.com p.com,
        ← carried_note (runCommands_calls cfg.com env.com p.com _)]
      rw [handleTcpFdRead]
      dsimp only
      rw [if_pos htelnet]
      split
      · exact carried_append_status (statusOnly_shutdownPort _)
      split
      · exact Iff.rfl
      · exact carried_append_status (statusOnly_writeToDev _ _ _)
    · refine iff_of_true ?_ fun h => absurd h htelnet
      rw [handleTcpFdRead]
      dsimp only
      rw [if_neg htelnet]
      exact carried_of_status (statusOnly_writeToDev _ _ _)

/-- **The events that leave nothing behind.** -/
theorem carried_iff_replicates (cfg : Config n) (s : Ser2net n) (ev : Event n) :
    Carried (cfg.name ev.1) s.table (eventResult cfg s ev).calls ↔ Replicates cfg s ev := by
  obtain ⟨i, a⟩ := ev
  have hstatus : ∀ {r : Result}, StatusOnly r → Carried (cfg.name i) s.table r.calls :=
    fun h => carried_of_status h
  unfold eventResult callback Replicates
  dsimp only
  cases hready : a.ready (s.ports i) with
  | false =>
    refine iff_of_true (hstatus (statusOnly_nil _ _)) ?_
    cases a with
    | accept env => exact fun h => absurd h (by simpa [Action.ready] using hready)
    | tcpRead r env =>
      cases r with
      | error => trivial
      | data bytes => exact fun h => absurd h (by simpa [Action.ready] using hready)
    | _ => trivial
  | true =>
    cases a with
    | accept env =>
      have henabled : (s.ports i).enabled ≠ .disabled := by simpa [Action.ready] using hready
      exact (carried_accept (cfg.port i) (isDeviceAlreadyInuse cfg s i) env (s.ports i)).trans
        ⟨fun h _ => h, fun h => h henabled⟩
    | devRead r w => exact iff_of_true (hstatus (statusOnly_handleDevFdRead r w _)) trivial
    | devWrite w => exact iff_of_true (hstatus (statusOnly_devFdWrite w _)) trivial
    | tcpRead r env =>
      have hstate : (s.ports i).tcpToDevState = .waitingInput := by
        simpa [Action.ready] using hready
      cases r with
      | error => exact iff_of_true (hstatus (statusOnly_shutdownPort _)) trivial
      | data bytes =>
        exact (carried_tcpRead (cfg.port i) bytes env (s.ports i)).trans
          ⟨fun h _ => h, fun h => h hstate⟩
    | tcpWrite w => exact iff_of_true (hstatus (statusOnly_handleTcpFdWrite w _)) trivial
    | except => exact iff_of_true (hstatus (statusOnly_shutdownPort _)) trivial
    | disconnect => exact iff_of_true (hstatus (statusOnly_shutdownPort _)) trivial
    | shutdown => exact iff_of_true (hstatus (statusOnly_shutdownPort _)) trivial
    | changeState state => exact iff_of_true (hstatus (statusOnly_nil _ _)) trivial

/-- **When the settings are replicated.** Along a run the server has the reporter's
settings in every state if and only if it has them at the start, what a connection records is
in the table already, and what commands record goes out with a stop size behind it, or is in
the table, too. -/
theorem settings_replicated_iff (cfg : Config n) (m : Machine) (connected : Bool) (x : System n)
    (hx : x.Sound) (evs : List (Event n)) :
    Always (System.step cfg m connected) (fun x => SettingsAgree x.tables) x evs ↔
      SettingsAgree x.tables ∧
        EachStep (System.step cfg m connected) (fun x ev => Replicates cfg x.net ev) x evs := by
  refine always_iff_eachStep hx (fun y ev hy => hy.step ev) fun y ev hy hagree => ?_
  rw [System.step_relay hy, ← carried_iff_replicates]
  exact carried_iff hagree _ _

/-- A port named 3001 and a server that has just started. -/
theorem settings_replicated_iff_start :
    let m : Machine := ⟨.big, .unsigned⟩
    let cfg : Config 1 := ⟨m, fun _ =>
      ⟨"3001".toList, "/dev/ttyS1".toList, true, none, none, none, ⟨false, [], 256⟩, 31⟩⟩
    let x : System 1 := ⟨start fun _ => .telnet, ⟨Buf.ofList [], Buf.ofList [], 0,
      Mrs2lib.initGd m ⟨0, 0⟩ ⟨fun _ => Mrs2lib.initRecord, 0, 0, [], [], none, none, []⟩, []⟩⟩
    let evs : List (Event 1) := [(0, .accept ⟨true, true, true, true, true, true, true, true, 7⟩)]
    Always (System.step cfg m true) (fun x => SettingsAgree x.tables) x evs ↔
      SettingsAgree x.tables ∧
        EachStep (System.step cfg m true) (fun x ev => Replicates cfg x.net ev) x evs :=
  settings_replicated_iff _ _ _ _ (System.sound_start _ _) _

/-- A client connects to port 3001 and sets 9600 baud. The reporter has recorded the rate
and the client's address, the server neither. -/
theorem baud_not_replicated :
    let m : Machine := ⟨.big, .unsigned⟩
    let cfg : Config 1 := ⟨m, fun _ =>
      ⟨"3001".toList, "/dev/ttyS1".toList, true, none, none, none, ⟨false, [], 256⟩, 31⟩⟩
    let x : System 1 := ⟨start fun _ => .telnet, ⟨Buf.ofList [], Buf.ofList [], 0,
      Mrs2lib.initGd m ⟨0, 0⟩ ⟨fun _ => Mrs2lib.initRecord, 0, 0, [], [], none, none, []⟩, []⟩⟩
    let dev : Termios := ⟨B115200, B115200, .cs8, false, false, false, false, false, false⟩
    let evs : List (Event 1) :=
      [(0, .accept ⟨true, true, true, true, true, true, true, true, 7⟩),
        (0, .tcpRead (.data [255, 250, 44, 1, 0, 0, 0x25, 0x80, 255, 240])
          ⟨fun _ => ⟨dev, true, true, true, true, none⟩, false, .wrote 0⟩)]
    let y := evs.foldl (System.step cfg m true) x
    (y.tables.1 1 = ⟨0x10, 5, 3, 0, 1, 0, 7⟩ ∧ y.tables.2 1 = ⟨0x10, 8, 3, 0, 1, 0, 0⟩) ∧
      ¬ Always (System.step cfg m true) (fun x => SettingsAgree x.tables) x evs := by
  intro m cfg x dev evs y
  have hdiffer : ∀ z : System 1, z.tables.1 1 = ⟨0x10, 5, 3, 0, 1, 0, 7⟩ ∧
      z.tables.2 1 = ⟨0x10, 8, 3, 0, 1, 0, 0⟩ → ¬ SettingsAgree z.tables := by
    rintro z ⟨h₁, h₂⟩ hagree
    have hbaud : Field.baud.get (z.tables.2 1) = Field.baud.get (z.tables.1 1) := hagree 1 .baud
    rw [h₁, h₂] at hbaud
    exact absurd hbaud (by decide)
  have hlast : y.tables.1 1 = ⟨0x10, 5, 3, 0, 1, 0, 7⟩ ∧
      y.tables.2 1 = ⟨0x10, 8, 3, 0, 1, 0, 0⟩ := by decide +kernel
  exact ⟨hlast, fun h => hdiffer y hlast (always_iff.1 h evs [] (List.append_nil evs).symm)⟩

end SerialServer
