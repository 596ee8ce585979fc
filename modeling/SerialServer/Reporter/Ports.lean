import SerialServer.Core.Roster
import SerialServer.Reporter.Port

/-!
# SerialServer.Reporter.Ports

The list of ports and its configuration: `portconfig`, `clear_old_port_config`, the end of
`finish_shutdown_port`, `change_port_state` and the functions of the control port that use it.

A `PortInfo` is an element of the list `ports` with the number `id` of its allocation, so that a
port that takes the place of another is told apart from it. What its callbacks do is left to
`callback`. A port whose `config_num` is -1 has none.

The sockets that listen, with the TCP port each is bound to, are the kernel's; which port's
data a handler for them is called with is the selector's. Descriptors of connections and devices
are left out, and so is port 0, which stands for the standard input. A state is `crashed` once
a port that has been freed, or a null pointer, has been used. The selector is taken to do nothing
when it is given -1 for a descriptor.
-/

namespace SerialServer.Dataxfer

open Roster

/-- A file descriptor; -1 is none at all. -/
abbrev Fd := Nat

/-- A port that has been configured, before it is in use: `new_port` in `portconfig`. -/
structure NewPort where
  conf : PortConfig
  enabled : PortState
  timeout : Nat
  configNum : Option Nat

/-- The name of the port. -/
def NewPort.name (c : NewPort) : PortName := c.conf.portname

/-- An element of `ports`. -/
structure PortInfo where
  id : Nat
  conf : PortConfig
  timeout : Nat
  configNum : Option Nat
  acceptfd : Option Fd
  port : Port
  newConfig : Option NewPort

/-- The name of the port. -/
def PortInfo.name (p : PortInfo) : PortName := p.conf.portname

/-- `dev_to_tcp_state == PORT_UNCONNECTED`. -/
def PortInfo.unconnected (p : PortInfo) : Bool := p.port.devToTcpState = .unconnected

/-- A new port as an element of the list. -/
def NewPort.portInfo (c : NewPort) (id : Nat) (acceptfd : Option Fd) : PortInfo where
  id := id
  conf := c.conf
  timeout := c.timeout
  configNum := c.configNum
  acceptfd := acceptfd
  port := initPortData c.enabled
  newConfig := none

/-- The program: `ports`, what the kernel knows of its listening sockets, and the selector of
the handlers for them. -/
structure Ports where
  ports : List PortInfo
  nextId : Nat
  sockets : Fd → Option PortName
  handlers : Fd → Option Nat
  crashed : Bool

/-- The program has started. -/
def Ports.start : Ports := ⟨[], 0, fun _ => none, fun _ => none, false⟩

/-- `p` is what has become of the port with its number. -/
def Ports.put (s : Ports) (p : PortInfo) : Ports :=
  { s with ports := exchange PortInfo.id p.id p s.ports }

/-! ### Listening -/

/-- The system calls after `socket` that `startup_port` gives up on. -/
inductive SetupCall
  | fcntl
  | setsockopt
  | bind
  | listen
  deriving Repr, DecidableEq

/-- What `startup_port` returns then. -/
def SetupCall.error : SetupCall → String
  | .fcntl => "Could not fcntl the accept port"
  | .setsockopt => "Unable to set reuseaddress on socket"
  | .bind => "Unable to bind TCP port"
  | .listen => "Unable to listen to TCP port"

/-- What the system calls of `startup_port` return. -/
inductive StartupEnv
  /-- `scan_tcp_port` fails. -/
  | invalid
  /-- `socket` fails. -/
  | noSocket
  /-- There is a socket, which is closed again. -/
  | fails (fd : Fd) (call : SetupCall)
  | listens (fd : Fd)
  deriving Repr, DecidableEq

/-- A new descriptor is not that of another socket. -/
def StartupEnv.fresh (s : Ports) : StartupEnv → Bool
  | .invalid => true
  | .noSocket => true
  | .fails fd _ => s.sockets fd = none
  | .listens fd => s.sockets fd = none

/-- `startup_port`: the program and the port, and what is returned. -/
def startupPort (env : StartupEnv) (s : Ports) (p : PortInfo) :
    Ports × PortInfo × Option String :=
  match env with
  | .invalid => (s, p, some "port number was invalid")
  | .noSocket => (s, { p with acceptfd := none }, some "Unable to create TCP socket")
  | .fails fd call => (s, { p with acceptfd := some fd }, some call.error)
  | .listens fd =>
      ({ s with
          sockets := grant s.sockets (some fd) p.name
          handlers := grant s.handlers (some fd) p.id },
        { p with acceptfd := some fd }, none)

/-- `change_port_state`. -/
def changePortState (env : StartupEnv) (s : Ports) (p : PortInfo) (state : PortState) :
    Ports × PortInfo × Option String :=
  if p.port.enabled = state then (s, p, none)
  else if state = .disabled then
    ({ s with
        sockets := revoke s.sockets p.acceptfd
        handlers := revoke s.handlers p.acceptfd },
      { p with acceptfd := none, port := { p.port with enabled := state } }, none)
  else if p.port.enabled = .disabled then
    let (s, p, rv) := startupPort env s p
    (s, { p with port := { p.port with enabled := state } }, rv)
  else (s, { p with port := { p.port with enabled := state } }, none)

/-- `free_port`. Nothing is started here, and a new configuration listens to nothing. -/
def freePort (s : Ports) (p : PortInfo) : Ports :=
  (changePortState .invalid s p .disabled).1

/-! ### Connections -/

/-- `is_device_already_inuse`. -/
def Ports.inuse (s : Ports) (p : PortInfo) : Bool :=
  s.ports.any fun q => q.id ≠ p.id && q.conf.devname = p.conf.devname &&
    q.port.tcpToDevState ≠ .unconnected

/-- `finish_shutdown_port` has been called: it is what reports 0x00. -/
def Result.ended (r : Result) : Bool := r.calls.contains (.myChangeStat 0x00)

/-- The end of `finish_shutdown_port`: a port that is to be deleted is, and one that has been
configured anew is replaced. -/
def finishShutdown (s : Ports) (p : PortInfo) : Ports :=
  match p.configNum with
  | none =>
      let (s, p, _) := changePortState .invalid s p .disabled
      freePort { s with ports := discard PortInfo.id p.id s.ports } p
  | some _ =>
      match p.newConfig with
      | none => s
      | some c =>
          -- `sel_set_fd_handlers` comes before the old port gives up the descriptor.
          let q := c.portInfo s.nextId p.acceptfd
          freePort { s with
              ports := exchange PortInfo.id p.id q s.ports
              nextId := s.nextId + 1
              handlers := grant s.handlers p.acceptfd q.id }
            { p with
              acceptfd := none
              port := { p.port with enabled := .disabled }
              newConfig := none }

/-- The callbacks of a connection that are not functions of the control port. -/
def Action.ofSelector : Action → Bool
  | .devRead _ _ => true
  | .devWrite _ => true
  | .tcpRead _ _ => true
  | .tcpWrite _ => true
  | .except => true
  | _ => false

/-- The port is deleted or replaced when its connection has ended. -/
def PortInfo.doomed (p : PortInfo) : Bool := p.configNum.isNone || p.newConfig.isSome

/-- The callback goes on with what is no longer there after `shutdown_port`. -/
def PortInfo.misuses (p : PortInfo) (a : Action) (r : Result) : Bool :=
  r.ended &&
    match a with
    -- The open string, or the banner, is null.
    | .devWrite _ => p.port.devWriter = .devstr
    -- `tcp_fd_write` looks at `out_telnet_cmd` of a port that has been freed.
    | .tcpWrite w => p.port.banner.isSome || (w = .cmdFailed && p.doomed)
    | _ => false

/-- A callback of port `p` has come to `r`. -/
def Ports.leave (s : Ports) (p : PortInfo) (r : Result) : Ports :=
  let p' := { p with port := r.port }
  if r.ended then finishShutdown (s.put p') p' else s.put p'

/-- A callback of port `p`. -/
def Ports.run (s : Ports) (p : PortInfo) (a : Action) : Ports :=
  let r := callback p.conf (s.inuse p) p.port a
  if p.misuses a r then { s with crashed := true } else s.leave p r

/-! ### Configuring -/

/-- A line of the configuration, with what the functions that read its parts return. -/
structure ConfigLine where
  /-- The port number, the device, and what `devconfig` makes of the rest. -/
  conf : PortConfig
  /-- `scan_tcp_port` returns 0. -/
  portOk : Bool
  state : List Char
  /-- `scan_int` of the timeout, unless it returns -1. -/
  timeout : Option Nat
  /-- `devconfig` returns 0. -/
  devcfgOk : Bool

/-- The states by their names. -/
def portState (state : List Char) : Option PortState :=
  if state = "raw".toList then some .raw
  else if state = "rawlp".toList then some .rawlp
  else if state = "telnet".toList then some .telnet
  else if state = "off".toList then some .disabled
  else none

/-- The first part of `portconfig`, up to the search for the port. -/
def ConfigLine.newPort (line : ConfigLine) (configNum : Nat) : Except String NewPort :=
  if !line.portOk then .error "port number was invalid"
  else
    match portState line.state with
    | none => .error "state was invalid"
    | some state =>
      match line.timeout with
      | none => .error "timeout was invalid"
      | some timeout =>
        if !line.devcfgOk then .error "device configuration invalid"
        else .ok ⟨line.conf, state, timeout, some configNum⟩

/-- `portconfig` for a port without a connection: the new one takes over the socket, and what
`change_port_state` returns is dropped. -/
def replacePort (env : StartupEnv) (s : Ports) (curr : PortInfo) (c : NewPort) : Ports :=
  let q := { c.portInfo s.nextId curr.acceptfd with port := initPortData curr.port.enabled }
  let s := freePort { s with
      ports := exchange PortInfo.id curr.id q s.ports
      nextId := s.nextId + 1
      handlers := grant s.handlers curr.acceptfd q.id }
    { curr with acceptfd := none, port := { curr.port with enabled := .disabled } }
  let (s, q, _) := changePortState env s q c.enabled
  s.put q

/-- `portconfig` for a port with a connection. -/
def postponePort (s : Ports) (curr : PortInfo) (c : NewPort) : Ports :=
  let port := if curr.newConfig.isSome then { curr.port with enabled := .disabled } else curr.port
  s.put { curr with port := port, configNum := c.configNum, newConfig := some c }

/-- `portconfig` for a port that is new. -/
def addPort (env : StartupEnv) (s : Ports) (c : NewPort) : Ports × Option String :=
  let p := c.portInfo s.nextId none
  let (s', p', rv) := if c.enabled ≠ .disabled then startupPort env s p else (s, p, none)
  match rv with
  | some error => (freePort s' p', some error)
  | none => ({ s' with ports := s'.ports ++ [p'], nextId := s'.nextId + 1 }, none)

/-- `portconfig`: the program, and what is returned. -/
def portconfig (env : StartupEnv) (s : Ports) (line : ConfigLine) (configNum : Nat) :
    Ports × Option String :=
  match line.newPort configNum with
  | .error error => (s, some error)
  | .ok c =>
      match s.ports.find? (·.name = c.name) with
      | some curr =>
          if curr.unconnected then (replacePort env s curr c, none)
          else (postponePort s curr c, none)
      | none => addPort env s c

/-- The loop of `clear_old_port_config` over the rest of the list: the program, with its old list,
and what the rest of the list becomes. -/
def clearOldPorts (currConfig : Nat) : Ports → List PortInfo → Ports × List PortInfo
  | s, [] => (s, [])
  | s, p :: rest =>
      if p.configNum ≠ some currConfig then
        if p.unconnected then clearOldPorts currConfig (freePort s p) rest
        else
          let (s, rest) := clearOldPorts currConfig s rest
          (s, { p with configNum := none } :: rest)
      else
        let (s, rest) := clearOldPorts currConfig s rest
        (s, p :: rest)

/-- `clear_old_port_config`. -/
def clearOldPortConfig (s : Ports) (currConfig : Nat) : Ports :=
  let (s, ports) := clearOldPorts currConfig s s.ports
  { s with ports := ports }

/-! ### The control port and the end of the program -/

/-- `setporttimeout`, once the arguments have been read. -/
def setporttimeout (s : Ports) (portspec : PortName) (timeout : Nat) : Ports :=
  match s.ports.find? (·.name = portspec) with
  | none => s
  | some p => s.put { p with timeout := timeout }

/-- `setportenable`: the program, and what is written to the control port. -/
def setportenable (env : StartupEnv) (s : Ports) (portspec : PortName) (enable : List Char) :
    Ports × List String :=
  match s.ports.find? (·.name = portspec) with
  | none => (s, ["Invalid port number: ", String.ofList portspec, "\n\r"])
  | some p =>
      match portState enable with
      | none => (s, ["Invalid enable: ", String.ofList enable, "\n\r"])
      | some state =>
          let (s, p, rv) := changePortState env s p state
          (s.put p, rv.elim [] ([·, "\n\r"]))

/-- `disconnect_port`. -/
def disconnectPort (s : Ports) (portspec : PortName) : Ports × List String :=
  match s.ports.find? (·.name = portspec) with
  | none => (s, ["Invalid port number: ", String.ofList portspec, "\n\r"])
  | some p =>
      if p.port.tcpToDevState = .unconnected then
        (s, ["Port not connected: ", String.ofList portspec, "\n\r"])
      else (s.run p .disconnect, [])

/-- The loop of `shutdown_ports`: `none` when it goes on from a port that has been freed. -/
def shutdownLoop : Ports → List PortInfo → Option Ports
  | s, [] => some s
  | s, p :: rest =>
      let r := shutdownPort p.port
      if r.ended then none
      else shutdownLoop (s.put { p with configNum := none, port := r.port }) rest

/-- `shutdown_ports`. -/
def shutdownPorts (s : Ports) : Ports :=
  (shutdownLoop s s.ports).getD { s with crashed := true }

/-! ### Runs -/

/-- What can happen to the program. -/
inductive PortsEvent
  | portconfig (env : StartupEnv) (line : ConfigLine) (configNum : Nat)
  | clearOldPortConfig (currConfig : Nat)
  /-- There is a connection request at a listening socket. -/
  | connect (fd : Fd) (env : SetupEnv)
  /-- Another callback of the port with number `id`. -/
  | callback (id : Nat) (a : Action)
  | setporttimeout (portspec : PortName) (timeout : Nat)
  | setportenable (env : StartupEnv) (portspec : PortName) (enable : List Char)
  | disconnectPort (portspec : PortName)
  | shutdownPorts

/-- What can happen next: a new socket has a new descriptor, and a callback is one that the
selector or a timer runs. -/
def PortsEvent.ready (s : Ports) : PortsEvent → Bool
  | .portconfig env _ _ => env.fresh s
  | .setportenable env _ _ => env.fresh s
  | .callback _ a => a.ofSelector
  | _ => true

/-- The selector calls `handle_accept_port_read`, with the port the handler was set for. It does
not ask whether that is enabled. -/
def Ports.connect (s : Ports) (fd : Fd) (env : SetupEnv) : Ports :=
  match s.handlers fd with
  | none => s
  | some id =>
      match s.ports.find? (·.id = id) with
      | none => { s with crashed := true }
      | some p => s.leave p (handleAcceptPortRead p.conf (s.inuse p) env p.port)

/-- What an event does. -/
def Ports.perform (s : Ports) : PortsEvent → Ports
  | .portconfig env line configNum => (Dataxfer.portconfig env s line configNum).1
  | .clearOldPortConfig currConfig => Dataxfer.clearOldPortConfig s currConfig
  | .connect fd env => s.connect fd env
  | .callback id a =>
      match s.ports.find? (·.id = id) with
      | none => s
      | some p => s.run p a
  | .setporttimeout portspec timeout => Dataxfer.setporttimeout s portspec timeout
  | .setportenable env portspec enable => (Dataxfer.setportenable env s portspec enable).1
  | .disconnectPort portspec => (Dataxfer.disconnectPort s portspec).1
  | .shutdownPorts => Dataxfer.shutdownPorts s

/-- The program goes on. -/
def Ports.step (s : Ports) (ev : PortsEvent) : Ports :=
  if !s.crashed && ev.ready s then s.perform ev else s

end SerialServer.Dataxfer
