import SerialServer.Core.Machine

/-!
# SerialServer.Reporter.Telnet

Taking telnet commands out of the data from a client: `process_telnet_data` of
`telnet.c`.

The function goes through the bytes it was given with the state of the command it is in
the middle of, drops the bytes that belong to commands and hands each finished command
to `handle_telnet_cmd`. Handling a command does not feed back into the scan, so the scan
is a fold that collects the data and the finished commands.
-/

namespace SerialServer.Dataxfer

/-- The scanner's part of a `telnet_data_t`: `telnet_cmd[0 … telnet_cmd_pos - 1]` and
`suboption_iac`. -/
structure TelnetData where
  telnetCmd : List Byte
  suboptionIac : Bool
  deriving Repr, DecidableEq

/-- What has come out of the data so far: the scanner, the bytes that stay in the buffer
and the commands that were handled, each with its leading IAC. -/
structure TelnetScan where
  td : TelnetData
  data : List Byte
  cmds : List (List Byte)
  deriving Repr, DecidableEq

/-- One byte of `process_telnet_data`. `maxCmd` is `MAX_TELNET_CMD_SIZE`. -/
def scanByte (maxCmd : Nat) (s : TelnetScan) (b : Byte) : TelnetScan :=
  let cmd := s.td.telnetCmd
  if cmd.length ≠ 0 then
    if cmd.length = 1 ∧ b = 255 then
      -- A doubled IAC is one byte of data.
      { s with td := { s.td with telnetCmd := [] }, data := s.data ++ [b] }
    else if cmd.length = 1 then
      let cmd := cmd ++ [b]
      if b.toNat < 250 then { s with td := { s.td with telnetCmd := [] }, cmds := s.cmds ++ [cmd] }
      else { s with td := { s.td with telnetCmd := cmd } }
    else if cmd.length = 2 then
      let cmd := cmd ++ [b]
      if cmd.getD 1 0 ≠ 250 then
        { s with td := { s.td with telnetCmd := [] }, cmds := s.cmds ++ [cmd] }
      else { s with td := { s.td with telnetCmd := cmd } }
    else if s.td.suboptionIac then
      if b = 240 then { s with td := ⟨[], false⟩, cmds := s.cmds ++ [cmd.dropLast] }
      else if b = 255 then { s with td := ⟨cmd, false⟩ }
      else { s with td := ⟨cmd.dropLast, false⟩ }
    else
      -- Past the end of the array the last byte is overwritten.
      let cmd := (if maxCmd < cmd.length then cmd.take maxCmd else cmd) ++ [b]
      { s with td := ⟨cmd, decide (b = 255)⟩ }
  else if b = 255 then { s with td := ⟨[255], false⟩ }
  else { s with data := s.data ++ [b] }

/-- `process_telnet_data`. -/
def processTelnetData (maxCmd : Nat) (td : TelnetData) (data : List Byte) : TelnetScan :=
  data.foldl (scanByte maxCmd) ⟨td, [], []⟩

/-- What `handle_telnet_cmd` gives the handler of the com-port option: the suboption a
command carries, if it is one of that option. -/
def comPortOption (cmd : List Byte) : Option (List Byte) :=
  if cmd.length < 2 then none
  else if cmd.getD 1 0 = 250 ∧ cmd.getD 2 0 = 44 then some (cmd.drop 2)
  else none

end SerialServer.Dataxfer
