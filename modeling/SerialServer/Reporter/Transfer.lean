import SerialServer.Core.Pump
import SerialServer.Reporter.NegotiationRuns
import SerialServer.Reporter.TelnetLoop

/-!
# SerialServer.Reporter.Transfer

One connection, with the bytes that go through it: the data path of `dataxfer.c`.

A `Transfer` has what the callbacks of a connected port look at: what is left of the banner
and of the open string, the two buffers, the telnet state, the idle timer, and which of the
four handlers of its two descriptors are enabled. An enabled handler runs when its descriptor
is ready, so `Transfer.step` runs a callback only if it is enabled. `sel_set_fd_handlers`
replaces the handlers of a descriptor and leaves enabled what is enabled.

A connection ends with `shutdown_port`. It ends the whole program where a callback goes on
with a banner or an open string that `finish_shutdown_port` has freed, and where a null pointer
is called (see `handleTelnetCmd`). An ended connection keeps the state it had before.

The traces and the monitors of the control port, which get copies, are left out, and so is a
change of the port's state by the control port while it is connected. What `tcp_fd_write` reads
of a port that is to be deleted once it has been is a matter of `Ports`. The loop that doubles
IACs stores a byte behind its buffer when all of half a buffer are IACs (`doubleIacs_fits_iff`);
what it overwrites there is not modelled, and the stream is that of the other bytes.
-/

namespace SerialServer.Dataxfer

open Escape (double)

/-- Whether a connection goes on. -/
inductive Life
  | running
  | closed
  /-- The program is gone. -/
  | crashed
  deriving Repr, DecidableEq

/-- What the configuration says about a port, with its strings expanded. -/
structure TransferConfig where
  enabled : PortState
  banner : Option (List Byte)
  openstr : Option (List Byte)
  closestr : Option (List Byte)
  /-- Seconds, or 0. -/
  timeout : Nat
  negotiator : NegotiatorConfig
  /-- `MAX_TELNET_CMD_SIZE` -/
  maxCmd : Nat

/-- A connected port. A buffer is what is left in it to be written. -/
structure Transfer where
  life : Life
  banner : Option (List Byte)
  devstr : Option (List Byte)
  devToTcp : List Byte
  tcpToDev : List Byte
  /-- The read handler of the device is enabled. -/
  devReader : Bool
  devWriter : Bool
  tcpReader : Bool
  tcpWriter : Bool
  tnData : TelnetData
  /-- `out_telnet_cmd` and what the commands of the client change. -/
  neg : Negotiator
  timeoutLeft : Int
  /-- Not in the source: all that has been written to the client. -/
  toClient : List (Lane × Byte)
  /-- All that has been written to the device. -/
  toDev : List (Lane × Byte)
  /-- All that has been read from the device. -/
  fromDev : List Byte
  /-- The data, without telnet commands, that has been read from the client. -/
  fromClient : List Byte
  /-- The telnet commands that have been put into `out_telnet_cmd`. -/
  issued : List Item

/-! ### Setting up -/

/-- `setup_tcp_port`, once the device is open. `n` and `td` are what the last connection has
left. -/
def Transfer.setup (cfg : TransferConfig) (n : Negotiator) (td : TelnetData) : Transfer :=
  let telnet := cfg.enabled = .telnet
  let neg :=
    if telnet then telnetInit cfg.negotiator.cmdbufSize n
    else { n with is2217 := false, com := { n.com with breakSet := false }, outTelnetCmd := [] }
  -- Only `telnet_cmd_send` and a banner make the client's writer wait for room.
  let ready := telnet && !neg.error
  { life := .running
    banner := cfg.banner
    devstr := cfg.openstr
    devToTcp := []
    tcpToDev := []
    devReader := !ready
    devWriter := cfg.openstr.isSome
    tcpReader := true
    tcpWriter := ready || (!telnet && cfg.banner.isSome)
    tnData := if telnet then { td with telnetCmd := [] } else td
    neg := neg
    timeoutLeft := cfg.timeout
    toClient := []
    toDev := []
    fromDev := []
    fromClient := []
    issued := if ready then telnetInitSeq else [] }

/-! ### Callbacks -/

/-- `reset_timer`. -/
def Transfer.resetTimer (cfg : TransferConfig) (t : Transfer) : Transfer :=
  { t with timeoutLeft := cfg.timeout }

/-- `shutdown_port`. -/
def Transfer.shutdown (t : Transfer) : Transfer := { t with life := .closed }

/-- `shutdown_port`, in a callback that then looks at a banner or an open string. Without a
close string it has been freed. -/
def Transfer.shutdownString (cfg : TransferConfig) (t : Transfer) : Transfer :=
  if cfg.closestr.isSome then t.shutdown else { t with life := .crashed }

/-- `telnet_output_ready`, called for every command that is sent. -/
def Transfer.outputReady (items : List Item) (t : Transfer) : Transfer :=
  if items.isEmpty then t
  else { t with issued := t.issued ++ items, devReader := false, tcpWriter := true }

/-- `handle_dev_fd_read`: `read` has returned `bytes`, and `write` to the client returns `w`. -/
def Transfer.handleDevFdRead (cfg : TransferConfig) (bytes : List Byte) (w : WriteResult)
    (t : Transfer) : Transfer :=
  let buf := if cfg.enabled = .telnet then double TN_IAC bytes else bytes
  let t' := { t with fromDev := t.fromDev ++ bytes }
  match w with
  | .failed => t.shutdown
  | .again =>
      { t' with devToTcp := buf, devReader := false, tcpWriter := true }.resetTimer cfg
  | .wrote n =>
      let t' := { t' with
        devToTcp := buf.drop n
        toClient := t.toClient ++ Lane.data.on (buf.take n) }
      if (buf.drop n).isEmpty then t'.resetTimer cfg
      else { t' with devReader := false, tcpWriter := true }.resetTimer cfg

/-- The end of `handle_tcp_fd_read`: `buf` goes to the device. -/
def Transfer.writeToDev (cfg : TransferConfig) (buf : List Byte) (w : WriteResult)
    (t : Transfer) : Transfer :=
  let t' := { t with fromClient := t.fromClient ++ buf }
  match w with
  | .failed => t.shutdown
  | .again =>
      { t' with tcpToDev := buf, tcpReader := false, devWriter := true }.resetTimer cfg
  | .wrote n =>
      let t' := { t' with
        tcpToDev := buf.drop n
        toDev := t.toDev ++ Lane.data.on (buf.take n) }
      if (buf.drop n).isEmpty then t'.resetTimer cfg
      else { t' with tcpReader := false, devWriter := true }.resetTimer cfg

/-- `handle_tcp_fd_read`: `read` has returned `bytes`. `table` is `telnet_cmds`, which the
connections of other ports change as well. -/
def Transfer.handleTcpFdRead (cfg : TransferConfig) (table : List TelnetCmd)
    (env : Nat → NegotiatorEnv) (bytes : List Byte) (w : WriteResult) (t : Transfer) : Transfer :=
  if cfg.enabled = .telnet then
    let scan := processTelnetData cfg.maxCmd t.tnData bytes
    match handleTelnetCmds cfg.negotiator env table t.neg scan.cmds with
    | none => { t with life := .crashed }
    | some r =>
        if r.port.error then t.shutdown
        else
          let t := { t with tnData := scan.td, neg := r.port }.outputReady r.sends
          if scan.data.isEmpty then { t with tcpToDev := [] } else t.writeToDev cfg scan.data w
  else t.writeToDev cfg bytes w

/-- `dev_fd_write` of the open string, and then of the data of the client:
`handle_dev_fd_devstr_write` and `handle_dev_fd_write`. -/
def Transfer.devFdWrite (cfg : TransferConfig) (w : BufferWrite) (t : Transfer) : Transfer :=
  match t.devstr with
  | some buf =>
      if w.failed then t.shutdownString cfg
      else
        let t := { t with toDev := t.toDev ++ Lane.preamble.on (buf.take w.written) }
        if (buf.drop w.written).isEmpty then
          { t with devstr := none, tcpReader := true, devWriter := false }.resetTimer cfg
        else { t with devstr := some (buf.drop w.written) }.resetTimer cfg
  | none =>
      if w.failed then t.shutdown
      else
        let t' := { t with
          tcpToDev := t.tcpToDev.drop w.written
          toDev := t.toDev ++ Lane.data.on (t.tcpToDev.take w.written) }
        if (t.tcpToDev.drop w.written).isEmpty then
          { t' with tcpReader := true, devWriter := false }.resetTimer cfg
        else t'.resetTimer cfg

/-- The rest of `handle_tcp_fd_banner_write`, when `tcp_fd_write` has not come to the banner: an
empty one is freed nevertheless. -/
def Transfer.dropBanner (t : Transfer) : Transfer :=
  match t.banner with
  | some [] => { t with banner := none }
  | _ => t

/-- The end of `tcp_fd_write`: the banner is written, and then the data of the device;
`handle_tcp_fd_banner_write` and `handle_tcp_fd_write`. -/
def Transfer.tcpFdWriteRest (cfg : TransferConfig) (w : BufferWrite) (t : Transfer) : Transfer :=
  match t.banner with
  | some buf =>
      if w.failed then t.shutdownString cfg
      else
        let t := { t with toClient := t.toClient ++ Lane.preamble.on (buf.take w.written) }
        if (buf.drop w.written).isEmpty then
          { t with banner := none, devReader := true, tcpWriter := false }.resetTimer cfg
        else { t with banner := some (buf.drop w.written) }.resetTimer cfg
  | none =>
      if w.failed then t.shutdown
      else
        let t' := { t with
          devToTcp := t.devToTcp.drop w.written
          toClient := t.toClient ++ Lane.data.on (t.devToTcp.take w.written) }
        if (t.devToTcp.drop w.written).isEmpty then
          { t' with devReader := true, tcpWriter := false }.resetTimer cfg
        else t'.resetTimer cfg

/-- `tcp_fd_write`: the pending telnet commands are written first, and nothing else before
they all are. -/
def Transfer.tcpFdWrite (cfg : TransferConfig) (c w : BufferWrite) (t : Transfer) : Transfer :=
  let out := t.neg.outTelnetCmd
  if out.isEmpty then t.tcpFdWriteRest cfg w
  else if c.failed then
    if t.banner.isSome then t.shutdownString cfg else t.shutdown
  else
    let t := { t with
      neg := { t.neg with outTelnetCmd := out.drop c.written }
      toClient := t.toClient ++ Lane.urgent.on (out.take c.written) }
    if (out.drop c.written).isEmpty then t.tcpFdWriteRest cfg w else t.dropBanner

/-- The notification of the modem lines. -/
def notifyModemstate (modemstate : Byte) : Item := .suboption [TN_OPT_COM_PORT, 107, modemstate]

/-- `telnet_send_option`: there may be no room for it. -/
def Transfer.sendOption (size : Nat) (item : Item) (t : Transfer) : Transfer :=
  let t' := { t with neg := t.neg.send size item }
  if t.neg.outTelnetCmd.length + item.encode.length ≤ size then t'.outputReady [item] else t'

/-- `got_timeout`, once a second. `lines` is what `TIOCMGET` reports, if it succeeds. -/
def Transfer.gotTimeout (cfg : TransferConfig) (lines : Option ModemLines) (t : Transfer) :
    Transfer :=
  let left := if cfg.timeout ≠ 0 then t.timeoutLeft - 1 else t.timeoutLeft
  if cfg.timeout ≠ 0 ∧ left < 0 then t.shutdown
  else
    let t := { t with timeoutLeft := left }
    match lines with
    | none => t
    | some l =>
        let modemstate := l.state &&& t.neg.com.modemstateMask
        if t.neg.is2217 ∧ modemstate ≠ t.neg.lastModemstate then
          { t with neg := { t.neg with lastModemstate := modemstate } }.sendOption
            cfg.negotiator.cmdbufSize (notifyModemstate modemstate)
        else t

/-! ### All of them -/

/-- A callback of a connected port, with what its system calls return. -/
inductive TransferEvent
  /-- `handle_dev_fd_read`, with data. -/
  | devRead (bytes : List Byte) (w : WriteResult)
  /-- The write handler of the device. -/
  | devWrite (w : BufferWrite)
  /-- `handle_tcp_fd_read`, with data. -/
  | tcpRead (table : List TelnetCmd) (env : Nat → NegotiatorEnv) (bytes : List Byte)
      (w : WriteResult)
  /-- The write handler of the client. -/
  | tcpWrite (c w : BufferWrite)
  /-- `got_timeout` -/
  | timeout (lines : Option ModemLines)
  /-- Either end is closed or fails, or the control port or the end of the program shuts the
  port down. -/
  | close

/-- How much `handle_dev_fd_read` reads at once: in telnet mode there has to be room for the
doubled IACs. -/
def TransferConfig.readSize (cfg : TransferConfig) : Nat :=
  if cfg.enabled = .telnet then portBufsize / 2 else portBufsize

/-- The callbacks that can run. A device that is only written to has nothing to read. -/
def TransferEvent.ready (cfg : TransferConfig) (t : Transfer) : TransferEvent → Bool
  | .devRead bytes _ =>
      t.devReader && cfg.enabled ≠ .rawlp && 0 < bytes.length && bytes.length ≤ cfg.readSize
  | .devWrite _ => t.devWriter
  | .tcpRead _ _ bytes _ => t.tcpReader && 0 < bytes.length && bytes.length ≤ portBufsize
  | .tcpWrite _ _ => t.tcpWriter
  | .timeout _ => true
  | .close => true

/-- A callback. -/
def Transfer.callback (cfg : TransferConfig) (t : Transfer) : TransferEvent → Transfer
  | .devRead bytes w => t.handleDevFdRead cfg bytes w
  | .devWrite w => t.devFdWrite cfg w
  | .tcpRead table env bytes w => t.handleTcpFdRead cfg table env bytes w
  | .tcpWrite c w => t.tcpFdWrite cfg c w
  | .timeout lines => t.gotTimeout cfg lines
  | .close => t.shutdown

/-- A callback runs if it can. One that ends the connection leaves the rest as it is. -/
def Transfer.step (cfg : TransferConfig) (t : Transfer) (ev : TransferEvent) : Transfer :=
  if t.life = .running && ev.ready cfg t then
    let t' := t.callback cfg ev
    if t'.life = .running then t' else { t with life := t'.life }
  else t

end SerialServer.Dataxfer
