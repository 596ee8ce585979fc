import SerialServer.Server.Received

/-!
# SerialServer.Server.Mrs2s

The two receive loops of the server process, `mrs2s.c`.

`threadUDPr` hands the datagrams of the reporter to `udp2send` and passes each summary
on to the connected client; the loop in `main` that a child process runs reads from its
client, calls `tcp2send` and sends what that asks for. Both keep one receive buffer for
all messages: `read` and `recvfrom` overwrite its first bytes and leave the rest. A
turn is a function of the state and of what the system call has returned, with what
`send` was given recorded in `sent`.

Left out are the printed lines and the process around the loops (sockets, `fork`,
starting and cancelling the thread).
-/

namespace SerialServer.Mrs2s

open Mrs2lib

/-! ### Datagrams -/

/-- The locals of `threadUDPr`, the globals it shares, and what it has sent. -/
structure UdpThread where
  buf : Buf
  outbuf : Buf
  outlen : Int
  srv : Server
  sent : List (List Byte)

/-- One turn of the loop in `threadUDPr`, after `recvfrom` has returned the bytes `d`
(none of them for an error or an empty datagram). `connected` is `new_fd != -1`. -/
def threadUDPr (m : Machine) (connected : Bool) (t : UdpThread) (d : List Byte) : UdpThread :=
  if (0 : Int) < d.length then
    let buf := t.buf.store 0 d
    let r := udp2send m t.srv buf d.length t.outbuf t.outlen
    let t := { t with buf := buf, outbuf := r.pout, outlen := r.poutlen, srv := r.srv }
    if !connected then t
    else if r.op = 0 then
      if 0 < t.outlen then
        { t with sent := t.sent ++ [t.outbuf.slice 0 t.outlen.toNat] }
      else t
    else t
  else t

/-! ### Requests -/

/-- The bytes one `read(new_fd, buf, 300)` can return. -/
structure Chunk where
  bytes : List Byte
  pos : 0 < bytes.length
  le : bytes.length ≤ 300

/-- What `read` returns: an error, the end of the stream, or bytes. -/
inductive ReadResult
  | error
  | eof
  | data (d : Chunk)

/-- What happens around one turn of the loop: the address of `eth0`, whether the scripts
can be written, and whether the `i`-th `send` of the turn succeeds. -/
structure TurnEnv where
  eth0 : Eth0
  fopen : FopenEnv
  sendOk : Nat → Bool

/-- The locals of the loop, the globals, and what has been sent to the client. -/
structure Child where
  buf : Buf
  outbuf : Buf
  poutlen : Nat → Int
  srv : Server
  sent : List (List Byte)
  /-- The loop has not been left: no `break`, and `retTcpSend` is 0. -/
  running : Bool

/-- The sends of `case 9`: the messages at `p`, of the lengths `poutlen[i]` for the given
`i`, until one fails. -/
def sendBulk (sendOk : Nat → Bool) (outbuf : Buf) (poutlen : Nat → Int) :
    Nat → List Nat → List (List Byte) × Bool
  | _, [] => ([], true)
  | p, i :: is =>
      if !sendOk i then ([], false)
      else
        let rest := sendBulk sendOk outbuf poutlen (p + (poutlen i).toNat) is
        (outbuf.slice p (poutlen i).toNat :: rest.1, rest.2)

/-- The `switch` on the result of `tcp2send`. -/
def answer (m : Machine) (env : TurnEnv) (c : Child) (op : Int) : Child :=
  if op = 0 then
    if !env.sendOk 0 then { c with running := false }
    else { c with sent := c.sent ++ [c.outbuf.slice 0 (c.poutlen 0).toNat] }
  else if op = 9 then
    let r := sendBulk env.sendOk c.outbuf c.poutlen 0 (List.range 9)
    { c with sent := c.sent ++ r.1, running := r.2 }
  else if op = 0x51 then
    if !env.sendOk 0 then { c with running := false }
    else
      { c with
        sent := c.sent ++ [c.outbuf.slice 0 (c.poutlen 0).toNat]
        srv := (setnewip m env.fopen c.srv c.buf).2 }
  else c

/-- One turn of the loop, after `read` has returned `r`. -/
def clientTurn (m : Machine) (env : TurnEnv) (c : Child) (r : ReadResult) : Child :=
  if !c.running then c
  else
    match r with
    | .error => { c with running := false }
    | .eof => { c with running := false }
    | .data d =>
        let buf := c.buf.store 0 d.bytes
        let t := tcp2send m env.eth0 c.srv buf d.bytes.length c.outbuf c.poutlen
        answer m env
          { c with buf := t.pin, outbuf := t.pout, poutlen := t.poutlen, srv := t.srv } t.op

end SerialServer.Mrs2s
