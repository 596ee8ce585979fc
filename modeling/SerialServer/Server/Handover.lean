import SerialServer.Server.TableHistory

/-!
# SerialServer.Server.Handover

One connection, from `accept` to the two processes that serve it afterwards, `mrs2s.c`.

`main` cancels the thread that receives broadcasts, forks, and starts a thread in the child
and one in the parent, which closes its end of the connection last. Each thread opens a socket
in `udp_broadcast_init` and puts it into `gUDPfd`, which belongs to the process and not to the
thread: whatever `socket` is called last there, `recvfrom` reads from then on. A broadcast goes
to every socket that is bound when it arrives; the socket of the cancelled thread stays bound,
and nobody reads it any more. Parent and child have their own copy of the table and of `gUDPfd`
from the fork on, and both have the connection.

A turn of `threadUDPr` is four steps here: the call of `recvfrom`, which looks at `gUDPfd`, its
return, `udp2send`, and the `send` behind the look at `new_fd` (`turn_eq`). A thread that has
been cancelled dies in `recvfrom`, or on the way there, in whatever it prints.
-/

namespace SerialServer.Handover

open Mrs2lib Mrs2s

/-! ### Threads -/

/-- A datagram `recvfrom` can return. -/
structure Broadcast where
  bytes : List Byte
  pos : 0 < bytes.length
  le : bytes.length ≤ 500
  deriving DecidableEq

/-- A broadcast, numbered as it arrives. -/
structure Msg where
  id : Nat
  body : Broadcast
  deriving DecidableEq

/-- A thread of the system: the one that is cancelled, and those that are started in the two
processes. -/
inductive Who
  | old
  | parent
  | child
  deriving Repr, DecidableEq

/-- A receive socket, and what waits there. Each is named for the thread that opens it. -/
structure Sock where
  bound : Bool
  queue : List Msg

/-- Where a thread is in `threadUDPr`. -/
inductive Pc
  /-- In `udp_broadcast_init`, before `socket`. -/
  | opening
  /-- In `udp_broadcast_init`, before `bind`. -/
  | binding
  /-- Before `recvfrom`. -/
  | ready
  /-- In `recvfrom`, called for `fd`. -/
  | waiting (fd : Who)
  /-- `recvfrom` has returned `b`. -/
  | received (b : Msg)
  /-- `udp2send` has returned `op` for `b`. -/
  | applied (b : Msg) (op : Int)
  /-- Cancelled. -/
  | dead
  deriving DecidableEq

/-- A thread with its locals. -/
structure Worker where
  buf : Buf
  outbuf : Buf
  outlen : Int
  pc : Pc

/-- The globals of a process, and the broadcasts its table has seen. -/
structure Mem where
  srv : Server
  /-- `new_fd != -1`. -/
  newFd : Bool
  /-- The socket that `gUDPfd` is, or none if it is -1. -/
  gUDPfd : Option Who
  applied : List Msg

/-- What has been sent to the client, and for which broadcast. -/
structure Sent where
  msg : Msg
  bytes : List Byte
  deriving DecidableEq

/-- A thread in its process, the sockets, and what has been sent. -/
structure Turn where
  worker : Worker
  mem : Mem
  socks : Who → Sock
  sent : List Sent

/-- The thread is at another place. -/
def Worker.goto (w : Worker) (pc : Pc) : Worker := { w with pc := pc }

/-- `bind(gUDPfd)`. A socket that is bound stays so. -/
def bindSocket (ok : Bool) (gUDPfd : Option Who) (socks : Who → Sock) : Who → Sock :=
  match gUDPfd with
  | some fd =>
      if ok then Function.update socks fd { socks fd with bound := true } else socks
  | none => socks

/-- One step of `threadUDPr` in thread `me`; `ok` is whether `socket` or `bind` succeeds, if it is
one of these that is called. `inet_aton` takes the address it is given. -/
def workerStep (m : Machine) (me : Who) (ok : Bool) (t : Turn) : Turn :=
  match t.worker.pc with
  | .opening =>
      { t with
        worker := t.worker.goto (if ok then .binding else .ready)
        mem := { t.mem with gUDPfd := if ok then some me else none } }
  | .binding =>
      { t with worker := t.worker.goto .ready, socks := bindSocket ok t.mem.gUDPfd t.socks }
  | .ready =>
      match t.mem.gUDPfd with
      | some fd => { t with worker := t.worker.goto (.waiting fd) }
      | none => t
  | .waiting fd =>
      match (t.socks fd).queue with
      | [] => t
      | b :: q =>
          { t with
            worker := t.worker.goto (.received b)
            socks := Function.update t.socks fd { t.socks fd with queue := q } }
  | .received b =>
      let buf := t.worker.buf.store 0 b.body.bytes
      let r := udp2send m t.mem.srv buf b.body.bytes.length t.worker.outbuf t.worker.outlen
      { t with
        worker := ⟨buf, r.pout, r.poutlen, .applied b r.op⟩
        mem := { t.mem with srv := r.srv, applied := t.mem.applied ++ [b] } }
  | .applied b op =>
      { t with
        worker := t.worker.goto .ready
        sent :=
          if t.mem.newFd ∧ op = 0 ∧ 0 < t.worker.outlen then
            t.sent ++ [⟨b, t.worker.outbuf.slice 0 t.worker.outlen.toNat⟩]
          else t.sent }
  | .dead => t

/-- **Four steps are a turn** of `threadUDPr` on the first broadcast that waits at `gUDPfd`. -/
theorem turn_eq (m : Machine) (me : Who) (ok : Bool) (w : Worker) (g : Mem) (socks : Who → Sock)
    (sent : List Sent) {fd : Who} {b : Msg} {q : List Msg} (hpc : w.pc = .ready)
    (hfd : g.gUDPfd = some fd) (hq : (socks fd).queue = b :: q) :
    let t := (workerStep m me ok)^[4] ⟨w, g, socks, sent⟩
    let u := threadUDPr m g.newFd ⟨w.buf, w.outbuf, w.outlen, g.srv, sent.map Sent.bytes⟩
      b.body.bytes
    t.worker.pc = .ready ∧ (t.socks fd).queue = q ∧ t.mem.applied = g.applied ++ [b] ∧
      (⟨t.worker.buf, t.worker.outbuf, t.worker.outlen, t.mem.srv, t.sent.map Sent.bytes⟩ :
        UdpThread) = u := by
  intro t u
  obtain ⟨buf, outbuf, outlen, pc⟩ := w
  obtain ⟨srv, newFd, gUDPfd, applied⟩ := g
  obtain rfl : pc = .ready := hpc
  obtain rfl : gUDPfd = some fd := hfd
  have hu : u = threadUDPr m newFd ⟨buf, outbuf, outlen, srv, sent.map Sent.bytes⟩
      b.body.bytes := rfl
  have hpos : (0 : Int) < b.body.bytes.length := Int.natCast_pos.2 b.body.pos
  rw [threadUDPr, if_pos hpos] at hu
  dsimp only at hu
  generalize hr : udp2send m srv (buf.store 0 b.body.bytes) b.body.bytes.length outbuf outlen = r
    at hu
  have hreturn : workerStep m me ok ⟨⟨buf, outbuf, outlen, .waiting fd⟩,
      ⟨srv, newFd, some fd, applied⟩, socks, sent⟩ =
        ⟨⟨buf, outbuf, outlen, .received b⟩, ⟨srv, newFd, some fd, applied⟩,
          Function.update socks fd { socks fd with queue := q }, sent⟩ := by
    simp only [workerStep, hq]
    rfl
  have ht : t = ⟨⟨buf.store 0 b.body.bytes, r.pout, r.poutlen, .ready⟩,
      ⟨r.srv, newFd, some fd, applied ++ [b]⟩,
      Function.update socks fd { socks fd with queue := q },
      if newFd ∧ r.op = 0 ∧ 0 < r.poutlen then
        sent ++ [⟨b, r.pout.slice 0 r.poutlen.toNat⟩] else sent⟩ := by
    show workerStep m me ok (workerStep m me ok (workerStep m me ok ⟨⟨buf, outbuf, outlen,
      .waiting fd⟩, ⟨srv, newFd, some fd, applied⟩, socks, sent⟩)) = _
    rw [hreturn, ← hr]
    rfl
  rw [ht, hu]
  refine ⟨rfl, ?_, rfl, ?_⟩
  · show (Function.update socks fd { socks fd with queue := q } fd).queue = q
    rw [Function.update_self]
  cases newFd with
  | false => simp
  | true =>
    by_cases hop : r.op = 0
    · by_cases hlen : 0 < r.poutlen <;> simp [hop, hlen]
    · simp [hop]

/-! ### The system -/

/-- Where `main` of the server process is. -/
inductive Main
  /-- In `accept`. -/
  | listening
  | accepted
  /-- Behind `pthread_cancel`. -/
  | cancelled
  | forked
  /-- Behind `startUDPrecv`. -/
  | restarted
  /-- Behind `close(new_fd)` and `new_fd=-1`. -/
  | closed
  deriving Repr, DecidableEq

/-- The old thread has been cancelled. -/
def Main.stopped : Main → Bool
  | .listening => false
  | .accepted => false
  | _ => true

/-- A process and the thread it has started after the fork. -/
structure Proc where
  mem : Mem
  worker : Option Worker

/-- The server process and its child, with the thread that is cancelled and the sockets of all
threads. -/
structure St where
  main : Main
  old : Worker
  parent : Proc
  child : Option Proc
  socks : Who → Sock
  sent : List Sent
  /-- The number of the next broadcast. -/
  next : Nat
  /-- The broadcasts that have arrived since `accept`. -/
  since : List Msg

/-- What happens. The connection is one for which `fork` succeeds. -/
inductive Event
  /-- A broadcast arrives. -/
  | arrive (d : Broadcast)
  /-- `main` of the server goes on; `ok` is whether `accept` or `pthread_create` succeeds. -/
  | main (ok : Bool)
  /-- `main` of the child calls `startUDPrecv`. -/
  | start (ok : Bool)
  /-- A thread goes on; `ok` is whether `socket` or `bind` succeeds. -/
  | work (who : Who) (ok : Bool)
  /-- The old thread, cancelled, dies where it is. -/
  | die

/-- A broadcast arrives at a socket. -/
def Sock.hear (b : Msg) (k : Sock) : Sock :=
  if k.bound then { k with queue := k.queue ++ [b] } else k

/-- A thread that has just been started. -/
def Worker.fresh : Worker := ⟨Buf.ofList [], Buf.ofList [], 0, .opening⟩

/-- `startUDPrecv`. -/
def Proc.start (ok : Bool) (p : Proc) : Proc :=
  if ok && p.worker.isNone then { p with worker := some Worker.fresh } else p

/-- A thread with all it works on. -/
def St.turn (s : St) : Who → Option Turn
  | .old => some ⟨s.old, s.parent.mem, s.socks, s.sent⟩
  | .parent => s.parent.worker.map fun w => ⟨w, s.parent.mem, s.socks, s.sent⟩
  | .child => s.child.bind fun c => c.worker.map fun w => ⟨w, c.mem, s.socks, s.sent⟩

/-- The system when the thread has made of it `t`. -/
def St.put (s : St) (t : Turn) : Who → St
  | .old =>
      { s with
        old := t.worker, parent := { s.parent with mem := t.mem }, socks := t.socks
        sent := t.sent }
  | .parent => { s with parent := ⟨t.mem, some t.worker⟩, socks := t.socks, sent := t.sent }
  | .child => { s with child := some ⟨t.mem, some t.worker⟩, socks := t.socks, sent := t.sent }

/-- A thread goes on. -/
def St.work (m : Machine) (s : St) (who : Who) (ok : Bool) : St :=
  match s.turn who with
  | some t => s.put (workerStep m who ok t) who
  | none => s

theorem work_of_turn (m : Machine) {s : St} {who : Who} {t : Turn} (h : s.turn who = some t)
    (ok : Bool) : s.work m who ok = s.put (workerStep m who ok t) who := by
  rw [St.work, h]

/-- A thread that is not there does nothing. -/
theorem work_of_none (m : Machine) {s : St} {who : Who} (h : s.turn who = none) (ok : Bool) :
    s.work m who ok = s := by
  rw [St.work, h]

/-- `main` of the server process goes on. -/
def mainStep (s : St) (ok : Bool) : St :=
  match s.main with
  | .listening =>
      if ok then
        { s with main := .accepted
                 parent := { s.parent with mem := { s.parent.mem with newFd := true } } }
      else s
  | .accepted => { s with main := .cancelled }
  | .cancelled => { s with main := .forked, child := some ⟨s.parent.mem, none⟩ }
  | .forked => { s with main := .restarted, parent := s.parent.start ok }
  | .restarted =>
      { s with main := .closed
               parent := { s.parent with mem := { s.parent.mem with newFd := false } } }
  | .closed => s

/-- `recvfrom` is what the thread is in, or calls next. -/
def Pc.receiving : Pc → Bool
  | .ready => true
  | .waiting _ => true
  | _ => false

/-- The old thread dies. -/
def St.kill (s : St) : St := { s with old := s.old.goto .dead }

/-- The old thread goes on. Once it is cancelled it gets no further than `recvfrom`. -/
def oldStep (m : Machine) (s : St) (ok : Bool) : St :=
  if s.main.stopped && s.old.pc.receiving then s.kill else s.work m .old ok

/-- One step of the system. -/
def step (m : Machine) (s : St) : Event → St
  | .arrive d =>
      let b : Msg := ⟨s.next, d⟩
      { s with
        socks := fun who => (s.socks who).hear b
        next := s.next + 1
        since := if s.main = .listening then s.since else s.since ++ [b] }
  | .main ok => mainStep s ok
  | .start ok => { s with child := s.child.map (Proc.start ok) }
  | .work .old ok => oldStep m s ok
  | .work .parent ok => s.work m .parent ok
  | .work .child ok => s.work m .child ok
  | .die => if s.main.stopped then s.kill else s

/-! ### What a thread does to a broadcast -/

/-- The broadcast a thread has in hand. -/
def Pc.holding : Pc → Option Msg
  | .received b => some b
  | .applied b _ => some b
  | _ => none

/-- How often a thread will still send the broadcast it has in hand, at most. -/
def Worker.hold (w : Worker) (b : Msg) : Nat := if w.pc.holding = some b then 1 else 0

/-- How often a broadcast has been sent. -/
def sends (sent : List Sent) (b : Msg) : Nat := sent.countP (·.msg = b)

/-- The socket that a thread of a process with this `gUDPfd` reads next. Before it has called
`socket` there is none: `gUDPfd` will be another. -/
def Worker.source (w : Worker) (gUDPfd : Option Who) : Option Who :=
  match w.pc with
  | .opening => none
  | .waiting fd => some fd
  | .dead => none
  | _ => gUDPfd

/-- The thread reads a socket that is bound. -/
def Worker.bound (w : Worker) (g : Mem) (socks : Who → Sock) : Bool :=
  (w.source g.gUDPfd).any fun fd => (socks fd).bound

/-- The thread still has to apply the broadcast, and will. -/
def Worker.Todo (w : Worker) (g : Mem) (socks : Who → Sock) (b : Msg) : Prop :=
  w.pc = .received b ∨ ∃ fd, w.source g.gUDPfd = some fd ∧ b ∈ (socks fd).queue

/-- There is nothing for the thread to do. -/
def Turn.Idle (t : Turn) : Prop :=
  match t.worker.pc with
  | .ready => t.mem.gUDPfd = none
  | .waiting fd => (t.socks fd).queue = []
  | .dead => True
  | _ => False

/-- **What one step of a thread does.** -/
inductive Moved (m : Machine) (me : Who) (t : Turn) : Turn → Prop
  | opened (ok : Bool) (hpc : t.worker.pc = .opening) :
      Moved m me t ⟨t.worker.goto (if ok then .binding else .ready),
        { t.mem with gUDPfd := if ok then some me else none }, t.socks, t.sent⟩
  | bound (ok : Bool) (hpc : t.worker.pc = .binding) :
      Moved m me t ⟨t.worker.goto .ready, t.mem, bindSocket ok t.mem.gUDPfd t.socks, t.sent⟩
  | called (fd : Who) (hpc : t.worker.pc = .ready) (hfd : t.mem.gUDPfd = some fd) :
      Moved m me t ⟨t.worker.goto (.waiting fd), t.mem, t.socks, t.sent⟩
  | got (fd : Who) (b : Msg) (q : List Msg) (hpc : t.worker.pc = .waiting fd)
      (hq : (t.socks fd).queue = b :: q) :
      Moved m me t ⟨t.worker.goto (.received b), t.mem,
        Function.update t.socks fd { t.socks fd with queue := q }, t.sent⟩
  | applied (b : Msg) (op : Int) (srv : Server) (buf outbuf : Buf) (outlen : Int)
      (hpc : t.worker.pc = .received b)
      (hsrv : srv = (udp2send m t.mem.srv (t.worker.buf.store 0 b.body.bytes)
        b.body.bytes.length t.worker.outbuf t.worker.outlen).srv) :
      Moved m me t ⟨⟨buf, outbuf, outlen, .applied b op⟩,
        { t.mem with srv := srv, applied := t.mem.applied ++ [b] }, t.socks, t.sent⟩
  | answered (b : Msg) (op : Int) (sent : List Sent) (hpc : t.worker.pc = .applied b op)
      (hsent : sent = t.sent ∨
        t.mem.newFd = true ∧ op = 0 ∧ ∃ bytes, sent = t.sent ++ [⟨b, bytes⟩]) :
      Moved m me t ⟨t.worker.goto .ready, t.mem, t.socks, sent⟩
  | idle (h : t.Idle) : Moved m me t t

theorem workerStep_moved (m : Machine) (me : Who) (ok : Bool) (t : Turn) :
    Moved m me t (workerStep m me ok t) := by
  unfold workerStep
  split
  · next hpc => exact .opened ok hpc
  · next hpc => exact .bound ok hpc
  · next hpc =>
    split
    · next fd hfd => exact .called fd hpc hfd
    · next hfd => exact .idle (by rw [Turn.Idle, hpc]; exact hfd)
  · next fd hpc =>
    split
    · next hq => exact .idle (by rw [Turn.Idle, hpc]; exact hq)
    · next b q hq => exact .got fd b q hpc hq
  · next b hpc => exact .applied b _ _ _ _ _ hpc rfl
  · next b op hpc =>
    refine .answered b op _ hpc ?_
    split
    · next hsend => exact .inr ⟨hsend.1, hsend.2.1, _, rfl⟩
    · exact .inl rfl
  · next hpc => exact .idle (by rw [Turn.Idle, hpc]; trivial)

/-- Binding a socket leaves what waits there. -/
theorem queue_bindSocket (ok : Bool) (gUDPfd : Option Who) (socks : Who → Sock) (who : Who) :
    (bindSocket ok gUDPfd socks who).queue = (socks who).queue := by
  cases gUDPfd with
  | none => rfl
  | some fd =>
    cases ok with
    | false => rfl
    | true =>
      show (Function.update socks fd _ who).queue = _
      by_cases h : who = fd
      · subst h
        rw [Function.update_self]
      · rw [Function.update_of_ne h]

/-- It binds no other. -/
theorem bindSocket_of_ne (ok : Bool) {gUDPfd : Option Who} {who : Who} (h : gUDPfd ≠ some who)
    (socks : Who → Sock) : bindSocket ok gUDPfd socks who = socks who := by
  cases gUDPfd with
  | none => rfl
  | some fd =>
    cases ok with
    | false => rfl
    | true => exact Function.update_of_ne (fun heq => h (congrArg some heq.symm)) _ _

/-! ### What a thread keeps -/

/-- The thread has `gUDPfd` to itself: from its `socket` on it is the socket the thread opened,
or none. -/
structure Owns (me : Who) (w : Worker) (gUDPfd : Option Who) : Prop where
  own : w.pc ≠ .opening → gUDPfd = none ∨ gUDPfd = some me
  reads : ∀ fd, w.pc = .waiting fd → gUDPfd = some fd

/-- A thread that is about to open its socket does not mind what `gUDPfd` is. -/
theorem owns_opening {w : Worker} (h : w.pc = .opening) (me : Who) (gUDPfd : Option Who) :
    Owns me w gUDPfd :=
  ⟨fun hne => absurd h hne, fun fd hpc => by rw [h] at hpc; cases hpc⟩

/-- What a thread finds in `gUDPfd` is the socket it opened. -/
theorem Owns.eq_me {me fd : Who} {w : Worker} {gUDPfd : Option Who} (h : Owns me w gUDPfd)
    (hpc : w.pc ≠ .opening) (hfd : gUDPfd = some fd) : fd = me := by
  obtain hnone | hme := h.own hpc
  · rw [hnone] at hfd
    cases hfd
  · exact Option.some.inj (hfd.symm.trans hme)

theorem Owns.waiting {me fd : Who} {w : Worker} {gUDPfd : Option Who} (h : Owns me w gUDPfd)
    (hpc : w.pc = .waiting fd) : fd = me :=
  h.eq_me (by simp [hpc]) (h.reads fd hpc)

theorem Owns.source {me fd : Who} {w : Worker} {gUDPfd : Option Who} (h : Owns me w gUDPfd)
    (hsource : w.source gUDPfd = some fd) : fd = me := by
  unfold Worker.source at hsource
  split at hsource
  · cases hsource
  · next fd' hpc =>
    obtain rfl := Option.some.inj hsource
    exact h.waiting hpc
  · cases hsource
  · next hpc _ _ => exact h.eq_me hpc hsource

variable {m : Machine} {me : Who} {t t' : Turn}

/-- `gUDPfd` changes at `socket` only. -/
theorem Moved.gUDPfd (h : Moved m me t t') : t'.mem.gUDPfd = t.mem.gUDPfd ∨
    t.worker.pc = .opening ∧ (t'.mem.gUDPfd = none ∨ t'.mem.gUDPfd = some me) := by
  cases h with
  | opened ok hpc => cases ok <;> simp [hpc]
  | _ => exact .inl rfl

theorem Moved.newFd (h : Moved m me t t') : t'.mem.newFd = t.mem.newFd := by
  cases h <;> rfl

/-- Nothing is taken from a socket the thread does not wait at. -/
theorem Moved.queue (h : Moved m me t t') {who : Who}
    (hwho : ∀ fd, t.worker.pc = .waiting fd → fd ≠ who) :
    (t'.socks who).queue = (t.socks who).queue := by
  cases h with
  | bound ok hpc => exact queue_bindSocket ok t.mem.gUDPfd t.socks who
  | got fd b q hpc hq =>
    exact congrArg Sock.queue (Function.update_of_ne (hwho fd hpc).symm _ _)
  | _ => rfl

/-- Nothing changes at a socket that is not the thread's. -/
theorem Moved.socks (h : Moved m me t t') {who : Who}
    (hwho : ∀ fd, t.worker.pc = .waiting fd → fd ≠ who) (hfd : t.mem.gUDPfd ≠ some who) :
    t'.socks who = t.socks who := by
  cases h with
  | bound ok hpc => exact bindSocket_of_ne ok hfd t.socks
  | got fd b q hpc hq => exact Function.update_of_ne (hwho fd hpc).symm _ _
  | _ => rfl

theorem sends_append (sent : List Sent) (b b' : Msg) (bytes : List Byte) :
    sends (sent ++ [⟨b', bytes⟩]) b = sends sent b + if b' = b then 1 else 0 := by
  unfold sends
  rw [List.countP_append]
  by_cases h : b' = b <;> simp [h]

/-- What a thread sends that does not come from `recvfrom` was in its hand. -/
theorem Moved.hold (h : Moved m me t t') (hpc : ∀ fd, t.worker.pc ≠ .waiting fd) (b : Msg) :
    sends t'.sent b + t'.worker.hold b ≤ sends t.sent b + t.worker.hold b := by
  unfold Worker.hold
  cases h with
  | opened ok hpc' => cases ok <;> simp [Worker.goto, Pc.holding]
  | bound ok hpc' => simp [Worker.goto, Pc.holding]
  | called fd hpc' hfd => simp [Worker.goto, Pc.holding]
  | got fd b' q hpc' hq => exact absurd hpc' (hpc fd)
  | applied b' op srv buf outbuf outlen hpc' hsrv =>
    rw [hpc']
    exact Nat.le_refl _
  | answered b' op sent hpc' hsent =>
    rw [hpc']
    obtain rfl | ⟨-, -, bytes, rfl⟩ := hsent
    · simp [Worker.goto, Pc.holding]
    · rw [sends_append]
      simp [Worker.goto, Pc.holding]
  | idle hidle => exact Nat.le_refl _

/-- A thread that finds the connection closed sends nothing. -/
theorem Moved.sent (h : Moved m me t t')
    (hfd : ∀ b, t.worker.pc = .applied b 0 → t.mem.newFd = false) : t'.sent = t.sent := by
  cases h with
  | answered b op sent hpc hsent =>
    obtain rfl | ⟨hopen, rfl, -⟩ := hsent
    · rfl
    · rw [hfd b hpc] at hopen
      cases hopen
  | _ => rfl

end SerialServer.Handover
