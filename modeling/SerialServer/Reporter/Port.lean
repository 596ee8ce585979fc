import SerialServer.Reporter.ComPort
import SerialServer.Reporter.Telnet

/-!
# SerialServer.Reporter.Port

The life of a serial port: the callbacks of `dataxfer.c`.

A `Port` is a `port_info_t` with what the callbacks look at and change. A callback is a
function of the port and of what the system calls it makes return, and gives a
`Result`: the port, the calls that change the table, in order, and how many bytes it has
read from or written to the device for the client. That number is not in the source; it
is what the status of a port is to be measured against.

Contents of buffers are left out except for the data a client sends, which carries the
RFC 2217 commands; so are the timers, the traces, the monitors of the control port and
the replies to the client. The descriptors are present as whether they are open.
`Action.ready` says which handlers the selector can run.
-/

namespace SerialServer.Dataxfer

/-- The states of a transfer. -/
inductive XferState
  | unconnected
  | waitingInput
  | waitingOutputClear
  | closing
  deriving Repr, DecidableEq

/-- The values of `enabled`. -/
inductive PortState
  | disabled
  | raw
  | rawlp
  | telnet
  deriving Repr, DecidableEq

/-- The handler installed for writing to the device. -/
inductive DevWriter
  /-- `handle_dev_fd_write` -/
  | data
  /-- `handle_dev_fd_devstr_write` -/
  | devstr
  /-- `handle_dev_fd_close_write` -/
  | close
  deriving Repr, DecidableEq

/-- `struct port_info`. A string to be written is its remaining length. -/
structure Port where
  enabled : PortState
  /-- `tcpfd != -1` -/
  tcpfd : Bool
  tcpBytesReceived : Word
  tcpBytesSent : Word
  banner : Option Nat
  /-- `devfd != -1` -/
  devfd : Bool
  devBytesReceived : Word
  devBytesSent : Word
  tcpToDevState : XferState
  /-- `tcp_to_dev.cursize` -/
  tcpToDev : Nat
  devstr : Option Nat
  closestr : Option Nat
  devToTcpState : XferState
  /-- `dev_to_tcp.cursize` -/
  devToTcp : Nat
  devWriter : DevWriter
  tnData : TelnetData
  com : ComPort
  deriving Repr, DecidableEq

/-- What one configuration line says about a port. -/
structure PortConfig where
  portname : PortName
  devname : List Char
  /-- `dinfo.disablebreak` -/
  disablebreak : Bool
  /-- The lengths of the configured strings, once expanded. -/
  banner : Option Nat
  openstr : Option Nat
  closestr : Option Nat
  com : ComConfig
  /-- `MAX_TELNET_CMD_SIZE` -/
  maxCmd : Nat

/-- What a callback leaves behind. -/
structure Result where
  port : Port
  calls : List Call
  /-- Bytes read from or written to the device for the client. -/
  moved : Nat

/-- Go on with another part of the callback. -/
def Result.andThen (r : Result) (f : Port → Result) : Result :=
  let r' := f r.port
  ⟨r'.port, r.calls ++ r'.calls, r.moved + r'.moved⟩

/-- What `read` returns: an error, or bytes, none of them at the end of the stream. -/
inductive ReadResult
  | error
  | data (bytes : List Byte)
  deriving Repr, DecidableEq

/-- What `write` returns, after retries for `EINTR`. -/
inductive WriteResult
  | wrote (count : Nat)
  /-- `EAGAIN` -/
  | again
  /-- Any other error. -/
  | failed
  deriving Repr, DecidableEq

/-- What `buffer_write` has written before it returned, and whether it returned -1. -/
structure BufferWrite where
  written : Nat
  failed : Bool
  deriving Repr, DecidableEq

/-! ### Shutting down -/

/-- `finish_shutdown_port`. -/
def finishShutdownPort (p : Port) : Result where
  port := { p with
    devfd := false
    tcpToDevState := .unconnected
    tcpToDev := 0
    tcpBytesReceived := 0
    tcpBytesSent := 0
    banner := none
    devstr := none
    devToTcpState := .unconnected
    devToTcp := 0
    devBytesReceived := 0
    devBytesSent := 0 }
  calls := [.myChangeStat 0x00]
  moved := 0

/-- `shutdown_port`: with a close string, the device stays open until it is written. -/
def shutdownPort (p : Port) : Result :=
  let p := { p with tcpfd := false, devstr := p.closestr }
  if p.devstr.isSome && p.devfd then
    ⟨{ p with tcpToDevState := .closing, devWriter := .close }, [], 0⟩
  else finishShutdownPort p

/-! ### Connecting -/

/-- What the system calls of `handle_accept_port_read` and `setup_tcp_port` return. -/
structure SetupEnv where
  acceptOk : Bool
  keepaliveOk : Bool
  fcntlOk : Bool
  nodelayOk : Bool
  /-- `hosts_access` lets the client in. -/
  accessOk : Bool
  /-- `uucp_mk_lock` returns 0. -/
  lockOk : Bool
  openOk : Bool
  tcsetattrOk : Bool
  /-- `inp.s_addr` in `mySaveIpRemote`. -/
  remote : Word
  deriving Repr, DecidableEq

/-- `setup_tcp_port`. -/
def setupTcpPort (cfg : PortConfig) (env : SetupEnv) (p : Port) : Result :=
  if !env.fcntlOk then ⟨{ p with tcpfd := false }, [], 0⟩
  else if !env.nodelayOk then ⟨{ p with tcpfd := false }, [], 0⟩
  else if !env.accessOk then ⟨{ p with tcpfd := false }, [], 0⟩
  else if !env.lockOk then ⟨{ p with tcpfd := false }, [], 0⟩
  else if !env.openOk then ⟨{ p with tcpfd := false, devfd := false }, [.myinitGd], 0⟩
  else if p.enabled ≠ .rawlp && !cfg.disablebreak && !env.tcsetattrOk then
    ⟨{ p with tcpfd := false, devfd := false }, [.myinitGd], 0⟩
  else
    ⟨{ p with
        devfd := true
        com := { p.com with breakSet := false }
        banner := cfg.banner
        devstr := cfg.openstr
        devWriter := if cfg.openstr.isSome then .devstr else .data
        closestr := cfg.closestr
        devToTcpState := .waitingInput
        tcpToDevState := .waitingInput
        tnData := if p.enabled = .telnet then { p.tnData with telnetCmd := [] } else p.tnData },
      [.myinitGd, .myChangeStat 0x10, .mySaveIpRemote env.remote], 0⟩

/-- `handle_accept_port_read`. `inuse` is what `is_device_already_inuse` returns. -/
def handleAcceptPortRead (cfg : PortConfig) (inuse : Bool) (env : SetupEnv) (p : Port) : Result :=
  if p.tcpToDevState ≠ .unconnected then ⟨p, [], 0⟩
  else if inuse then ⟨p, [], 0⟩
  else if !env.acceptOk then ⟨{ p with tcpfd := false }, [], 0⟩
  else if !env.keepaliveOk then ⟨{ p with tcpfd := true }, [], 0⟩
  else setupTcpPort cfg env { p with tcpfd := true }

/-! ### Data from the device -/

/-- The call made for the first bytes of a connection. -/
def firstData (p : Port) (count : Nat) : List Call :=
  if 0 < count ∧ p.devBytesSent = 0 ∧ p.devBytesReceived = 0 then [.myChangeStat 0x11] else []

/-- `handle_dev_fd_read`: `read` has returned `r`, and `write` to the client returns `w`. -/
def handleDevFdRead (r : ReadResult) (w : WriteResult) (p : Port) : Result :=
  match r with
  | .error => shutdownPort p
  | .data [] => shutdownPort p
  | .data (b :: bs) =>
      let count := (b :: bs).length
      let calls := firstData p count
      let p := { p with devBytesReceived := p.devBytesReceived + BitVec.ofNat 32 count }
      -- A telnet stream gets its IACs doubled.
      let size := if p.enabled = .telnet then count + (b :: bs).count 255 else count
      let p := { p with devToTcp := size }
      match w with
      | .again => ⟨{ p with devToTcpState := .waitingOutputClear }, calls, count⟩
      | .failed => (⟨p, calls, count⟩ : Result).andThen shutdownPort
      | .wrote n =>
          let n := min n size
          let p := { p with tcpBytesSent := p.tcpBytesSent + BitVec.ofNat 32 n, devToTcp := size - n }
          if p.devToTcp ≠ 0 then
            ⟨{ p with devToTcpState := .waitingOutputClear }, calls, count⟩
          else ⟨p, calls, count⟩

/-! ### Deferred writes to the device -/

/-- `handle_dev_fd_write`: `dev_fd_write` of the data from the client. -/
def handleDevFdWrite (w : BufferWrite) (p : Port) : Result :=
  let n := min w.written p.tcpToDev
  let p := { p with tcpToDev := p.tcpToDev - n }
  if w.failed then (⟨p, [], n⟩ : Result).andThen shutdownPort
  else if p.tcpToDev = 0 then ⟨{ p with tcpToDevState := .waitingInput }, [], n⟩
  else ⟨p, [], n⟩

/-- The rest of `handle_dev_fd_devstr_write`: once the string is out, data follows. -/
def devstrDone (p : Port) : Port :=
  if p.devstr = some 0 then { p with devstr := none, devWriter := .data } else p

/-- `handle_dev_fd_devstr_write`: `dev_fd_write` of the open string. -/
def handleDevFdDevstrWrite (w : BufferWrite) (p : Port) : Result :=
  let left := p.devstr.getD 0 - w.written
  let p := { p with devstr := some left }
  let r :=
    if w.failed then shutdownPort p
    else if left = 0 then ⟨{ p with tcpToDevState := .waitingInput }, [], 0⟩
    else ⟨p, [], 0⟩
  { r with port := devstrDone r.port }

/-- `handle_dev_fd_close_write`. -/
def handleDevFdCloseWrite (w : BufferWrite) (p : Port) : Result :=
  let left := p.devstr.getD 0 - w.written
  let p := { p with devstr := some left }
  if w.failed then finishShutdownPort p
  else if left ≠ 0 then ⟨p, [], 0⟩
  else finishShutdownPort p

/-- The device can be written to: the installed handler. -/
def devFdWrite (w : BufferWrite) (p : Port) : Result :=
  match p.devWriter with
  | .data => handleDevFdWrite w p
  | .devstr => handleDevFdDevstrWrite w p
  | .close => handleDevFdCloseWrite w p

/-! ### Data from the client -/

/-- The commands of a client, one after the other: the port and the calls made. `env i`
is what the system calls of command `i` return. -/
def runCommands (cfg : ComConfig) (env : Nat → ComEnv) :
    ComPort → List (List Byte) → ComPort × List Call
  | c, [] => (c, [])
  | c, cmd :: cmds =>
      match comPortOption cmd with
      | some option =>
          let r := comPortHandler cfg (env 0) c option
          let rest := runCommands cfg (fun i => env (i + 1)) r.port cmds
          (rest.1, r.calls ++ rest.2)
      | none => runCommands cfg (fun i => env (i + 1)) c cmds

/-- What happens during `handle_tcp_fd_read`, after the read: the commands' system calls,
whether the replies overflow their buffer (`tn_data.error`), and the `write`. -/
structure TcpReadEnv where
  com : Nat → ComEnv
  error : Bool
  write : WriteResult

/-- The end of `handle_tcp_fd_read`: `size` bytes go to the device. -/
def writeToDev (w : WriteResult) (size : Nat) (p : Port) : Result :=
  match w with
  | .again => ⟨{ p with tcpToDev := size, tcpToDevState := .waitingOutputClear }, [], 0⟩
  | .failed => shutdownPort { p with tcpToDev := size }
  | .wrote n =>
      let n := min n size
      let calls := firstData p n
      let p := { p with
        devBytesSent := p.devBytesSent + BitVec.ofNat 32 n
        tcpToDev := size - n }
      if p.tcpToDev ≠ 0 then ⟨{ p with tcpToDevState := .waitingOutputClear }, calls, n⟩
      else ⟨p, calls, n⟩

/-- `handle_tcp_fd_read`. -/
def handleTcpFdRead (cfg : PortConfig) (r : ReadResult) (env : TcpReadEnv) (p : Port) : Result :=
  match r with
  | .error => shutdownPort p
  | .data [] => shutdownPort p
  | .data (b :: bs) =>
      let p := { p with
        tcpBytesReceived := p.tcpBytesReceived + BitVec.ofNat 32 (b :: bs).length }
      if p.enabled = .telnet then
        let scan := processTelnetData cfg.maxCmd p.tnData (b :: bs)
        let (com, calls) := runCommands cfg.com env.com p.com scan.cmds
        let p := { p with tnData := scan.td, com := com }
        let r : Result := ⟨p, calls, 0⟩
        if env.error then r.andThen shutdownPort
        else if scan.data.length = 0 then r
        else r.andThen (writeToDev env.write scan.data.length)
      else writeToDev env.write (b :: bs).length p

/-! ### Deferred writes to the client -/

/-- What comes of `tcp_fd_write`. -/
inductive TcpWrite
  /-- Writing the pending telnet commands fails. -/
  | cmdFailed
  /-- They are not all written yet. -/
  | cmdPending
  /-- Writing the data fails. -/
  | failed
  | wrote (count : Nat)
  deriving Repr, DecidableEq

/-- The rest of `handle_tcp_fd_banner_write`: once the banner is out, data follows. -/
def bannerDone (p : Port) : Port :=
  if p.banner = some 0 then { p with banner := none } else p

/-- `handle_tcp_fd_write` and `handle_tcp_fd_banner_write`. -/
def handleTcpFdWrite (w : TcpWrite) (p : Port) : Result :=
  match w with
  | .cmdFailed => { shutdownPort p with port := bannerDone (shutdownPort p).port }
  | .cmdPending => ⟨bannerDone p, [], 0⟩
  | .failed => { shutdownPort p with port := bannerDone (shutdownPort p).port }
  | .wrote n =>
      match p.banner with
      | some size =>
          if size - n = 0 then ⟨{ p with banner := none, devToTcpState := .waitingInput }, [], 0⟩
          else ⟨{ p with banner := some (size - n) }, [], 0⟩
      | none =>
          if p.devToTcp - n = 0 then ⟨{ p with devToTcp := 0, devToTcpState := .waitingInput }, [], 0⟩
          else ⟨{ p with devToTcp := p.devToTcp - n }, [], 0⟩

/-! ### All callbacks -/

/-- A callback with what its system calls return. -/
inductive Action
  /-- `handle_accept_port_read` -/
  | accept (env : SetupEnv)
  /-- `handle_dev_fd_read` -/
  | devRead (r : ReadResult) (w : WriteResult)
  /-- The write handler of the device. -/
  | devWrite (w : BufferWrite)
  /-- `handle_tcp_fd_read` -/
  | tcpRead (r : ReadResult) (env : TcpReadEnv)
  /-- The write handler of the client. -/
  | tcpWrite (w : TcpWrite)
  /-- `handle_dev_fd_except`, `handle_tcp_fd_except`, `got_timeout` when the time has run
  out: they shut the port down. -/
  | except
  /-- `disconnect_port` -/
  | disconnect
  /-- `shutdown_ports` -/
  | shutdown
  /-- `change_port_state` -/
  | changeState (state : PortState)

/-- A client is connected and data is passed on. -/
def Port.isOpen (p : Port) : Bool :=
  p.tcpToDevState = .waitingInput || p.tcpToDevState = .waitingOutputClear

/-- The handlers that can run: those the selector watches for. The device is read and
written only while it is open, and each side is read only while nothing it has sent
before is waiting. -/
def Action.ready (p : Port) : Action → Bool
  | .accept _ => p.enabled ≠ .disabled
  | .devRead _ _ => p.isOpen && p.devToTcpState = .waitingInput
  | .devWrite _ =>
      match p.devWriter with
      | .data => p.tcpToDevState = .waitingOutputClear || p.tcpToDevState = .closing
      | .devstr => p.isOpen
      | .close => p.tcpToDevState = .closing
  | .tcpRead _ _ => p.tcpToDevState = .waitingInput
  | .tcpWrite _ => p.isOpen
  | .except => p.isOpen
  | .disconnect => p.tcpToDevState ≠ .unconnected
  | .shutdown => true
  | .changeState _ => true

/-- A callback runs. -/
def callback (cfg : PortConfig) (inuse : Bool) (p : Port) (a : Action) : Result :=
  if !a.ready p then ⟨p, [], 0⟩
  else
    match a with
    | .accept env => handleAcceptPortRead cfg inuse env p
    | .devRead r w => handleDevFdRead r w p
    | .devWrite w => devFdWrite w p
    | .tcpRead r env => handleTcpFdRead cfg r env p
    | .tcpWrite w => handleTcpFdWrite w p
    | .except => shutdownPort p
    | .disconnect => shutdownPort p
    | .shutdown => shutdownPort p
    | .changeState state => ⟨{ p with enabled := state }, [], 0⟩

/-- `init_port_data`, with the state the configuration gives. -/
def initPortData (state : PortState) : Port where
  enabled := state
  tcpfd := false
  tcpBytesReceived := 0
  tcpBytesSent := 0
  banner := none
  devfd := false
  devBytesReceived := 0
  devBytesSent := 0
  tcpToDevState := .unconnected
  tcpToDev := 0
  devstr := none
  closestr := none
  devToTcpState := .unconnected
  devToTcp := 0
  devWriter := .data
  tnData := ⟨[], false⟩
  com := ⟨false, 0, 0⟩

end SerialServer.Dataxfer
