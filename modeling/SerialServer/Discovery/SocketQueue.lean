import SerialServer.Core.Ring
import SerialServer.Core.Run
import SerialServer.Core.Tally

/-!
# SerialServer.Discovery.SocketQueue

The threads of the embedded web server (`mongoose37xp.c`).

The master puts the sockets it accepts into a queue and the workers take them out. The condition
variables are those the program makes for Windows: an event that remembers one signal, and a pulse
for all that wait at that moment. `pthread_cond_wait` gives up the mutex first and waits then, so
a thread can be between the two.

A section under the mutex is one step. What it works on is touched only there, it looks at
`stop_flag` once at most, and that does not go back to 0.
-/

namespace SerialServer.Mongoose

/-- An accepted connection. -/
abbrev Socket := Nat

/-- `ARRAY_SIZE(ctx->queue)`. -/
abbrev queueSize := 20

/-! ### The threads -/

/-- Where a worker is. -/
inductive WorkerState
  /-- At the start of `worker_thread`. -/
  | created
  /-- Before `consume_socket`. -/
  | idle
  /-- In `pthread_cond_wait`, without the mutex, and not waiting yet. -/
  | parting
  | asleep
  /-- In `pthread_cond_wait`, and to have the mutex again. -/
  | woken
  /-- At the end of `consume_socket`, which has got this. -/
  | returning (got : Option Socket)
  /-- With `conn->client`, unless `consume_socket` has left it as it was. -/
  | serving (got : Option Socket)
  /-- Behind the loop. -/
  | leaving
  | gone
  deriving Repr, DecidableEq

/-- Where the master is. -/
inductive MasterState
  | polling
  /-- Before `produce_socket`. -/
  | offering (so : Socket)
  | parting (so : Socket)
  | asleep (so : Socket)
  | woken (so : Socket)
  /-- Behind the loop, before the broadcast. -/
  | stopping
  /-- Behind the broadcast. -/
  | closing
  /-- On its way to wait for the workers. -/
  | lingering
  | waiting
  | roused
  | done
  deriving Repr, DecidableEq

/-- `struct mg_context`, with `n` workers: as far as the threads go, and what has become of the
sockets. -/
structure Context (n : Nat) where
  stopFlag : Nat
  numThreads : Nat
  queue : Ring Socket
  worker : Fin n → WorkerState
  master : MasterState
  /-- The events of the condition variables: each is set as long as a signal has not been seen. -/
  sqFull : Bool
  sqEmpty : Bool
  cond : Bool
  queued : List Socket
  taken : List Socket
  served : List Socket
  /-- The sockets that a worker has taken and not served. -/
  lost : List Socket
  /-- The sockets that the master has not put into the queue. -/
  dropped : List Socket

variable {n : Nat}

/-- The end of `mg_start`. -/
def Context.start (n : Nat) : Context n where
  stopFlag := 0
  numThreads := n
  queue := ⟨fun _ => 0, 0, 0⟩
  worker := fun _ => .created
  master := .polling
  sqFull := false
  sqEmpty := false
  cond := false
  queued := []
  taken := []
  served := []
  lost := []
  dropped := []

namespace Context

/-- A worker goes on. -/
def goto (ctx : Context n) (w : Fin n) (state : WorkerState) : Context n :=
  { ctx with worker := Function.update ctx.worker w state }

/-! ### Condition variables -/

/-- `pthread_cond_signal(&ctx->sq_full)`: one of the threads that wait goes on, and if none does, the
event stays set. -/
def signalFull (ctx : Context n) (wake : Option (Fin n)) : Context n :=
  match wake with
  | some w => ctx.goto w .woken
  | none => { ctx with sqFull := true }

/-- A thread that can go on with the signal. -/
def canWake (ctx : Context n) : Option (Fin n) → Bool
  | some w => ctx.worker w = .asleep
  | none => decide (∀ w, ctx.worker w ≠ .asleep)

/-- `pthread_cond_signal(&ctx->sq_empty)`. -/
def signalEmpty (ctx : Context n) : Context n :=
  match ctx.master with
  | .asleep so => { ctx with master := .woken so }
  | _ => { ctx with sqEmpty := true }

/-- `pthread_cond_signal(&ctx->cond)`. -/
def signalCond (ctx : Context n) : Context n :=
  match ctx.master with
  | .waiting => { ctx with master := .roused }
  | _ => { ctx with cond := true }

/-- `pthread_cond_broadcast(&ctx->sq_full)`. -/
def broadcastFull (ctx : Context n) : Context n :=
  { ctx with worker := fun w => if ctx.worker w = .asleep then .woken else ctx.worker w }

/-! ### Workers -/

/-- `consume_socket`, from where the mutex is had to where it is given up. -/
def consumeSocket (ctx : Context n) (w : Fin n) : Context n :=
  if ctx.queue.head = ctx.queue.tail ∧ ctx.stopFlag = 0 then ctx.goto w .parting
  else if ctx.queue.tail < ctx.queue.head then
    let so := ctx.queue.first queueSize
    signalEmpty { ctx.goto w (.returning (some so)) with
      queue := ctx.queue.take queueSize
      taken := ctx.taken ++ [so] }
  else signalEmpty (ctx.goto w (.returning none))

/-- What a worker does next. -/
def work (ctx : Context n) (w : Fin n) : Context n :=
  match ctx.worker w with
  | .idle => ctx.consumeSocket w
  | .woken => ctx.consumeSocket w
  | .parting =>
      if ctx.sqFull then { ctx.goto w .woken with sqFull := false } else ctx.goto w .asleep
  | .returning got =>
      if ctx.stopFlag = 0 then { ctx.goto w (.serving got) with served := ctx.served ++ got.toList }
      else { ctx.goto w .leaving with lost := ctx.lost ++ got.toList }
  | .serving _ => ctx.goto w .idle
  | .leaving => signalCond { ctx.goto w .gone with numThreads := ctx.numThreads - 1 }
  | _ => ctx

/-! ### The master -/

/-- `produce_socket`, from where the mutex is had to where it is given up. -/
def produceSocket (ctx : Context n) (so : Socket) (wake : Option (Fin n)) : Context n :=
  if ctx.stopFlag = 0 ∧ queueSize ≤ ctx.queue.head - ctx.queue.tail then
    { ctx with master := .parting so }
  else if ctx.canWake wake then
    if ctx.queue.head - ctx.queue.tail < queueSize then
      signalFull { ctx with
        queue := ctx.queue.put queueSize so
        queued := ctx.queued ++ [so]
        master := .polling } wake
    else signalFull { ctx with dropped := ctx.dropped ++ [so], master := .polling } wake
  else ctx

/-- The loop that waits for the workers. -/
def awaitWorkers (ctx : Context n) : Context n :=
  if 0 < ctx.numThreads then { ctx with master := .lingering }
  else { ctx with stopFlag := 2, master := .done }

/-- What the master does next, if it is not that a client arrives. -/
def run (ctx : Context n) (wake : Option (Fin n)) : Context n :=
  match ctx.master with
  | .polling => if ctx.stopFlag = 0 then ctx else { ctx with master := .stopping }
  | .offering so => ctx.produceSocket so wake
  | .parting so =>
      if ctx.sqEmpty then { ctx with master := .woken so, sqEmpty := false }
      else { ctx with master := .asleep so }
  | .woken so => ctx.produceSocket so wake
  | .stopping => { ctx.broadcastFull with master := .closing }
  | .closing => ctx.awaitWorkers
  | .lingering =>
      if ctx.cond then { ctx with master := .roused, cond := false }
      else { ctx with master := .waiting }
  | .roused => ctx.awaitWorkers
  | _ => ctx

/-! ### Runs -/

/-- What can happen. -/
inductive QueueEvent (n : Nat)
  /-- A worker starts, with memory for its connection or without. -/
  | begin (w : Fin n) (ok : Bool)
  | work (w : Fin n)
  /-- `accept_new_connection`. -/
  | accept (so : Socket)
  /-- The master goes on. If that is to signal `sq_full`, the system has chosen who goes on. -/
  | run (wake : Option (Fin n))
  /-- `mg_stop`. -/
  | stop
  deriving DecidableEq

/-- What an event does. -/
def step (ctx : Context n) : QueueEvent n → Context n
  | .begin w ok =>
      if ctx.worker w = .created then ctx.goto w (if ok then .idle else .leaving) else ctx
  | .work w => ctx.work w
  | .accept so =>
      if ctx.master = .polling ∧ ctx.stopFlag = 0 then { ctx with master := .offering so } else ctx
  | .run wake => ctx.run wake
  | .stop => if ctx.stopFlag = 0 then { ctx with stopFlag := 1 } else ctx

end Context

end SerialServer.Mongoose
