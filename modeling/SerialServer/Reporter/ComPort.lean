import SerialServer.Reporter.Report

/-!
# SerialServer.Reporter.ComPort

RFC 2217 commands: `com_port_handler` of `dataxfer.c`.

A command reads the line settings of the device, may change them, records what it
finds in the table and replies. What the system calls of one command return is its
`ComEnv`, the current settings of the device among it; `tcsetattr` either takes over
all that is asked for or nothing. The commands differ in the change they ask for and in
the value they read back, from their own copy of the settings except for the baud rate,
which is read from the device again.

The table is changed through the calls a command makes, at most one each
(`comPortHandler_calls`).
-/

namespace SerialServer.Dataxfer

/-- The modem lines `TIOCMGET` reports, as far as they are looked at. -/
structure ModemBits where
  dtr : Bool
  rts : Bool
  deriving Repr, DecidableEq

/-- What the system calls of one command return. -/
structure ComEnv where
  /-- The settings of the device when the command arrives. -/
  termios : Termios
  /-- `tcgetattr` succeeds. -/
  getOk : Bool
  /-- So does the second `tcgetattr` of SET-BAUDRATE. -/
  getAgainOk : Bool
  /-- `tcsetattr` succeeds. -/
  setOk : Bool
  /-- `TIOCSBRK` or `TIOCCBRK` succeeds. -/
  breakOk : Bool
  /-- What `TIOCMGET` reports, if it succeeds. -/
  modem : Option ModemBits
  deriving Repr, DecidableEq

/-- The local copy of the settings, changed as `f` says, and what the device has after
`tcsetattr`. Without a change there is no `tcsetattr`. -/
def ComEnv.change (env : ComEnv) (f : Option (Termios → Termios)) : Termios × Termios :=
  match f with
  | some f => (f env.termios, if env.setOk then f env.termios else env.termios)
  | none => (env.termios, env.termios)

/-- The part of a `port_info_t` the commands keep. -/
structure ComPort where
  breakSet : Bool
  linestateMask : Byte
  modemstateMask : Byte
  deriving Repr, DecidableEq

/-- What a setting command finds: the settings of the device after it, the value it
replies and the calls it makes. -/
structure Setting where
  dev : Termios
  val : Word
  calls : List Call
  deriving Repr, DecidableEq

/-! ### The setting commands -/

/-- SET-BAUDRATE, for the number `val` of the client. -/
def setBaudrate (cisco : Bool) (env : ComEnv) (val : Word) : Setting :=
  if env.getOk then
    let rate := if val ≠ 0 then getBaudRate cisco val else none
    let (termio, dev) := env.change (rate.map fun s t => { t with ispeed := s, ospeed := s })
    let termio := if env.getAgainOk then dev else termio
    let val := termio.ispeed
    ⟨dev, getRateFromBaudRate cisco val val, [.prnspeed val]⟩
  else ⟨env.termios, getRateFromBaudRate cisco 0 0, []⟩

/-- The character size a client asks for. -/
def CharSize.ofOption (c : Byte) : Option CharSize :=
  if c = 5 then some .cs5
  else if c = 6 then some .cs6
  else if c = 7 then some .cs7
  else if c = 8 then some .cs8
  else none

/-- The number of data bits. -/
def CharSize.bits : CharSize → Word
  | .cs5 => 5
  | .cs6 => 6
  | .cs7 => 7
  | .cs8 => 8

/-- SET-DATASIZE. -/
def setDatasize (env : ComEnv) (c : Byte) : Setting :=
  if env.getOk then
    let (termio, dev) := env.change ((CharSize.ofOption c).map fun s t => { t with csize := s })
    let val := termio.csize.bits
    ⟨dev, val, [.mysavebits val]⟩
  else ⟨env.termios, 0, []⟩

/-- The parity of the settings, as RFC 2217 numbers it. -/
def Termios.parityVal (t : Termios) : Word :=
  if t.parenb then (if t.parodd then 2 else 3) else 1

/-- SET-PARITY. The value is recorded even when `tcgetattr` has failed. -/
def setParity (env : ComEnv) (c : Byte) : Setting :=
  let (dev, val) : Termios × Word :=
    if env.getOk then
      let (termio, dev) := env.change
        (if c = 1 then some fun t => { t with parenb := false, parodd := false }
        else if c = 2 then some fun t => { t with parenb := true, parodd := true }
        else if c = 3 then some fun t => { t with parenb := true, parodd := false }
        else none)
      (dev, termio.parityVal)
    else (env.termios, 0)
  ⟨dev, val, [.mysaveparity val]⟩

/-- The stop size of the settings, as RFC 2217 numbers it. -/
def Termios.stopVal (t : Termios) : Word := if t.cstopb then 2 else 1

/-- SET-STOPSIZE. The value is recorded even when `tcgetattr` has failed. -/
def setStopsize (env : ComEnv) (c : Byte) : Setting :=
  let (dev, val) : Termios × Word :=
    if env.getOk then
      let (termio, dev) := env.change
        (if c = 1 then some fun t => { t with cstopb := false }
        else if c = 2 then some fun t => { t with cstopb := true }
        else none)
      (dev, termio.stopVal)
    else (env.termios, 0)
  ⟨dev, val, [.mysavestop val]⟩

/-- SET-CONTROL 0 … 3: outbound flow control. -/
def setOutbound (env : ComEnv) (c : Byte) : Setting :=
  let (dev, val) : Termios × Word :=
    if env.getOk then
      let (termio, dev) := env.change
        (if c = 1 then some fun t => { t with ixon := false, ixoff := false, crtscts := false }
        else if c = 2 then some fun t => { t with ixon := true, ixoff := true, crtscts := false }
        else if c = 3 then some fun t => { t with ixon := false, ixoff := false, crtscts := true }
        else none)
      (dev, if termio.crtscts then 3 else if termio.ixon then 2 else 1)
    else (env.termios, 0)
  ⟨dev, val, [.mysaveflowc val]⟩

/-- SET-CONTROL 13 … 19: inbound flow control, of which only XON/XOFF can be set. -/
def setInbound (env : ComEnv) (c : Byte) : Setting :=
  let (dev, val) : Termios × Word :=
    if env.getOk then
      let (termio, dev) := env.change (if c = 15 then some fun t => { t with ixoff := true }
        else none)
      (dev, if termio.crtscts then 16 else if termio.ixoff then 15 else 14)
    else (env.termios, 0)
  ⟨dev, val, [.mysaveflowc val]⟩

/-- SET-CONTROL 10 … 12: the RTS line. Its state is handed to `mysaveflowc`. -/
def setRts (env : ComEnv) : Setting :=
  let val : Word := match env.modem with
    | none => 10
    | some b => if b.rts then 11 else 12
  ⟨env.termios, val, [.mysaveflowc val]⟩

/-- SET-CONTROL 7 … 9: the DTR line. -/
def setDtr (env : ComEnv) : Setting :=
  let val : Word := match env.modem with
    | none => 7
    | some b => if b.dtr then 8 else 9
  ⟨env.termios, val, []⟩

/-- SET-CONTROL: the setting and `break_set`. -/
def setControl (env : ComEnv) (breakSet : Bool) (c : Byte) : Setting × Bool :=
  if c.toNat ≤ 3 then (setOutbound env c, breakSet)
  else if 13 ≤ c.toNat ∧ c.toNat ≤ 19 then (setInbound env c, breakSet)
  else if c.toNat ≤ 6 then
    let breakSet := if c = 4 then breakSet
      else if env.breakOk then decide (c = 5) else breakSet
    (⟨env.termios, if breakSet then 5 else 6, []⟩, breakSet)
  else if c.toNat ≤ 9 then (setDtr env, breakSet)
  else if c.toNat ≤ 12 then (setRts env, breakSet)
  else (⟨env.termios, 0, []⟩, breakSet)

/-! ### The handler -/

/-- The settings of the program and of the port a command looks at. -/
structure ComConfig where
  /-- `cisco_ios_baud_rates`. -/
  cisco : Bool
  /-- `dinfo.signature`. -/
  signature : List Byte
  /-- `MAX_TELNET_CMD_XMIT_BUF`. -/
  maxXmit : Nat

/-- What a command leaves behind: the port, the settings of the device, the calls made
and the option that is sent back. -/
structure ComResult where
  port : ComPort
  dev : Termios
  calls : List Call
  reply : Option (List Byte)

/-- A setting with the reply of command `n`. -/
def Setting.result (s : Setting) (p : ComPort) (reply : List Byte) : ComResult :=
  ⟨p, s.dev, s.calls, some reply⟩

/-- `com_port_handler`. -/
def comPortHandler (cfg : ComConfig) (env : ComEnv) (p : ComPort) (option : List Byte) :
    ComResult :=
  let len := option.length
  let c := option.getD 2 0
  let nothing : ComResult := ⟨p, env.termios, [], none⟩
  if len < 2 then nothing
  else
    match (option.getD 1 0).toNat with
    | 0 => { nothing with reply := some ([44, 100] ++ cfg.signature.take (cfg.maxXmit - 2)) }
    | 1 =>
        if cfg.cisco then
          if len < 3 then nothing
          else
            let s := setBaudrate cfg.cisco env (c.setWidth 32)
            s.result p [44, 101, chr s.val]
        else if len < 6 then nothing
        else
          let s := setBaudrate cfg.cisco env
            (ofNetBytes c (option.getD 3 0) (option.getD 4 0) (option.getD 5 0))
          s.result p ([44, 101] ++ netBytes s.val)
    | 2 =>
        if len < 3 then nothing
        else
          let s := setDatasize env c
          s.result p [44, 102, chr s.val]
    | 3 =>
        if len < 3 then nothing
        else
          let s := setParity env c
          s.result p [44, 103, chr s.val]
    | 4 =>
        if len < 3 then nothing
        else
          let s := setStopsize env c
          s.result p [44, 104, chr s.val]
    | 5 =>
        if len < 3 then nothing
        else
          let (s, breakSet) := setControl env p.breakSet c
          s.result { p with breakSet := breakSet } [44, 105, chr s.val]
    | 8 => { nothing with reply := some [44, 108] }
    | 9 => { nothing with reply := some [44, 109] }
    | 10 =>
        if len < 3 then nothing
        else ⟨{ p with linestateMask := c }, env.termios, [], some [44, 110, c]⟩
    | 11 =>
        if len < 3 then nothing
        else ⟨{ p with modemstateMask := c }, env.termios, [], some [44, 111, c]⟩
    | 12 =>
        if len < 3 then nothing
        else if 1 ≤ c.toNat ∧ c.toNat ≤ 3 then { nothing with reply := some [44, 112, c] }
        else nothing
    | _ => nothing

/-- A call that records one setting of the line. -/
def Call.IsSetting : Call → Bool
  | .prnspeed _ => true
  | .mysavebits _ => true
  | .mysaveparity _ => true
  | .mysavestop _ => true
  | .mysaveflowc _ => true
  | _ => false

/-- No call, or one that records a setting. -/
def AtMostOne (calls : List Call) : Prop :=
  calls = [] ∨ ∃ c, c.IsSetting = true ∧ calls = [c]

theorem setBaudrate_calls (cisco : Bool) (env : ComEnv) (val : Word) :
    AtMostOne (setBaudrate cisco env val).calls := by
  unfold setBaudrate
  split
  · exact .inr ⟨_, rfl, rfl⟩
  · exact .inl rfl

theorem setDatasize_calls (env : ComEnv) (c : Byte) : AtMostOne (setDatasize env c).calls := by
  unfold setDatasize
  split
  · exact .inr ⟨_, rfl, rfl⟩
  · exact .inl rfl

theorem setControl_calls (env : ComEnv) (breakSet : Bool) (c : Byte) :
    AtMostOne (setControl env breakSet c).1.calls := by
  unfold setControl
  split
  · exact .inr ⟨_, rfl, rfl⟩
  split
  · exact .inr ⟨_, rfl, rfl⟩
  split
  · exact .inl rfl
  split
  · exact .inl rfl
  split
  · exact .inr ⟨_, rfl, rfl⟩
  · exact .inl rfl

/-- A command makes at most one call, and that call records a setting. -/
theorem comPortHandler_calls (cfg : ComConfig) (env : ComEnv) (p : ComPort)
    (option : List Byte) : AtMostOne (comPortHandler cfg env p option).calls := by
  have hnone : AtMostOne [] := .inl rfl
  unfold comPortHandler
  dsimp only
  split
  · exact hnone
  split
  · exact hnone
  · -- SET-BAUDRATE
    split
    · split
      · exact hnone
      · exact setBaudrate_calls ..
    · split
      · exact hnone
      · exact setBaudrate_calls ..
  · -- SET-DATASIZE
    split
    · exact hnone
    · exact setDatasize_calls ..
  · -- SET-PARITY
    split
    · exact hnone
    · exact .inr ⟨_, rfl, rfl⟩
  · -- SET-STOPSIZE
    split
    · exact hnone
    · exact .inr ⟨_, rfl, rfl⟩
  · -- SET-CONTROL
    split
    · exact hnone
    · exact setControl_calls ..
  · exact hnone
  · exact hnone
  · split <;> exact hnone
  · split <;> exact hnone
  · split
    · exact hnone
    · split <;> exact hnone
  · exact hnone

end SerialServer.Dataxfer
