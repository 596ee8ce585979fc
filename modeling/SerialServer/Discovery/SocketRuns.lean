import SerialServer.Discovery.SocketQueue

/-!
# SerialServer.Discovery.SocketRuns

What becomes of the sockets the web server accepts.

A `Move` is what one step of a thread can do, and every event is one (`step_move`). The queue gives
the sockets out in the order they have come, each to one worker, and none is lost as long as the
server has not been told to stop (`sockets_delivered`). What a worker or the master has in its
hands then is not closed.
-/

namespace SerialServer.Mongoose

namespace Context

variable {n : Nat} {ctx ctx' : Context n} {w : Fin n}

/-! ### One step -/

/-- The master is in `produce_socket`, with the mutex. -/
def Producing (ctx : Context n) (so : Socket) : Prop :=
  ctx.master = .offering so ∨ ctx.master = .woken so

/-- A worker is in `consume_socket`, with the mutex. -/
def Consuming (ctx : Context n) (w : Fin n) : Prop :=
  ctx.worker w = .idle ∨ ctx.worker w = .woken

theorem Consuming.elim {P : WorkerState → Prop} (h : ctx.Consuming w) (hidle : P .idle)
    (hwoken : P .woken) : P (ctx.worker w) := by
  rcases h with h | h
  · rwa [h]
  · rwa [h]

/-- The master looks whether there are workers. -/
def Ending (ctx : Context n) : Prop := ctx.master = .closing ∨ ctx.master = .roused

/-- What a step does. -/
inductive Move (ctx : Context n) (ev : QueueEvent n) : Context n → Prop
  | stay : Move ctx ev ctx
  | begins (w : Fin n) (ok : Bool) : ctx.worker w = .created →
      Move ctx ev (ctx.goto w (if ok then .idle else .leaving))
  | parts (w : Fin n) : ctx.Consuming w → ctx.queue.head = ctx.queue.tail → ctx.stopFlag = 0 →
      Move ctx ev (ctx.goto w .parting)
  | takes (w : Fin n) : ctx.Consuming w → ctx.queue.tail < ctx.queue.head →
      Move ctx ev (signalEmpty { ctx.goto w (.returning (some (ctx.queue.first queueSize))) with
        queue := ctx.queue.take queueSize
        taken := ctx.taken ++ [ctx.queue.first queueSize] })
  | misses (w : Fin n) : ctx.Consuming w → ¬ ctx.queue.tail < ctx.queue.head →
      ¬ (ctx.queue.head = ctx.queue.tail ∧ ctx.stopFlag = 0) →
      Move ctx ev (signalEmpty (ctx.goto w (.returning none)))
  | wakes (w : Fin n) : ctx.worker w = .parting → ctx.sqFull = true →
      Move ctx ev { ctx.goto w .woken with sqFull := false }
  | sleeps (w : Fin n) : ctx.worker w = .parting → ctx.sqFull = false →
      Move ctx ev (ctx.goto w .asleep)
  | serves (w : Fin n) (got : Option Socket) : ctx.worker w = .returning got → ctx.stopFlag = 0 →
      Move ctx ev { ctx.goto w (.serving got) with served := ctx.served ++ got.toList }
  | loses (w : Fin n) (got : Option Socket) : ctx.worker w = .returning got → ctx.stopFlag ≠ 0 →
      Move ctx ev { ctx.goto w .leaving with lost := ctx.lost ++ got.toList }
  | closes (w : Fin n) (got : Option Socket) : ctx.worker w = .serving got →
      Move ctx ev (ctx.goto w .idle)
  | leaves (w : Fin n) : ctx.worker w = .leaving →
      Move ctx ev (signalCond { ctx.goto w .gone with numThreads := ctx.numThreads - 1 })
  | offers (so : Socket) : ctx.master = .polling → ctx.stopFlag = 0 →
      Move ctx ev { ctx with master := .offering so }
  | quits : ctx.master = .polling → ctx.stopFlag ≠ 0 → Move ctx ev { ctx with master := .stopping }
  | masterParts (so : Socket) : ctx.Producing so → ctx.stopFlag = 0 → queueSize ≤ ctx.queue.size →
      Move ctx ev { ctx with master := .parting so }
  | puts (so : Socket) (wake : Option (Fin n)) : ev = .run wake → ctx.Producing so →
      ctx.canWake wake = true → ctx.queue.size < queueSize →
      Move ctx ev (signalFull { ctx with
        queue := ctx.queue.put queueSize so
        queued := ctx.queued ++ [so]
        master := .polling } wake)
  | drops (so : Socket) (wake : Option (Fin n)) : ctx.Producing so → ctx.canWake wake = true →
      ctx.stopFlag ≠ 0 →
      Move ctx ev (signalFull { ctx with dropped := ctx.dropped ++ [so], master := .polling } wake)
  | masterWakes (so : Socket) : ctx.master = .parting so → ctx.sqEmpty = true →
      Move ctx ev { ctx with master := .woken so, sqEmpty := false }
  | masterSleeps (so : Socket) : ctx.master = .parting so → ctx.sqEmpty = false →
      Move ctx ev { ctx with master := .asleep so }
  | broadcasts : ctx.master = .stopping → Move ctx ev { ctx.broadcastFull with master := .closing }
  | lingers : ctx.Ending → 0 < ctx.numThreads → Move ctx ev { ctx with master := .lingering }
  | finishes : ctx.Ending → ctx.numThreads = 0 →
      Move ctx ev { ctx with stopFlag := 2, master := .done }
  | rouses : ctx.master = .lingering → ctx.cond = true →
      Move ctx ev { ctx with master := .roused, cond := false }
  | waits : ctx.master = .lingering → ctx.cond = false → Move ctx ev { ctx with master := .waiting }
  | stops : ctx.stopFlag = 0 → Move ctx ev { ctx with stopFlag := 1 }

theorem consumeSocket_move (ev : QueueEvent n) (h : ctx.Consuming w) :
    Move ctx ev (ctx.consumeSocket w) := by
  rw [consumeSocket]
  split
  · next hempty => exact .parts w h hempty.1 hempty.2
  · next hnot =>
    split
    · next hlt => exact .takes w h hlt
    · next hle => exact .misses w h hle hnot

theorem work_move (ctx : Context n) (ev : QueueEvent n) (w : Fin n) : Move ctx ev (ctx.work w) := by
  rw [work]
  split
  · next h => exact consumeSocket_move ev (.inl h)
  · next h => exact consumeSocket_move ev (.inr h)
  · next h =>
    split
    · next hset => exact .wakes w h hset
    · next hset => exact .sleeps w h (Bool.eq_false_iff.2 hset)
  · next got h =>
    split
    · next hstop => exact .serves w got h hstop
    · next hstop => exact .loses w got h hstop
  · next got h => exact .closes w got h
  · next h => exact .leaves w h
  · exact .stay

theorem produceSocket_move {so : Socket} (h : ctx.Producing so) (wake : Option (Fin n)) :
    Move ctx (.run wake) (ctx.produceSocket so wake) := by
  rw [produceSocket]
  split
  · next hfull => exact .masterParts so h hfull.1 hfull.2
  next hnot =>
  split
  · next hwake =>
    split
    · next hroom => exact .puts so wake rfl h hwake hroom
    · next hfull => exact .drops so wake h hwake fun hstop => hnot ⟨hstop, Nat.le_of_not_lt hfull⟩
  · exact .stay

theorem awaitWorkers_move (ev : QueueEvent n) (h : ctx.Ending) : Move ctx ev ctx.awaitWorkers := by
  rw [awaitWorkers]
  split
  · next hthreads => exact .lingers h hthreads
  · next hnone => exact .finishes h (Nat.eq_zero_of_not_pos hnone)

theorem run_move (ctx : Context n) (wake : Option (Fin n)) : Move ctx (.run wake) (ctx.run wake) := by
  rw [run]
  split
  · next h =>
    split
    · exact .stay
    · next hstop => exact .quits h hstop
  · next so h => exact produceSocket_move (.inl h) wake
  · next so h =>
    split
    · next hset => exact .masterWakes so h hset
    · next hset => exact .masterSleeps so h (Bool.eq_false_iff.2 hset)
  · next so h => exact produceSocket_move (.inr h) wake
  · next h => exact .broadcasts h
  · next h => exact awaitWorkers_move _ (.inl h)
  · next h =>
    split
    · next hset => exact .rouses h hset
    · next hset => exact .waits h (Bool.eq_false_iff.2 hset)
  · next h => exact awaitWorkers_move _ (.inr h)
  · exact .stay

/-- **Every event is a move.** -/
theorem step_move (ctx : Context n) (ev : QueueEvent n) : Move ctx ev (ctx.step ev) := by
  cases ev with
  | begin w ok =>
    rw [step]
    split
    · next h => exact .begins w ok h
    · exact .stay
  | work w => exact work_move ctx _ w
  | accept so =>
    rw [step]
    split
    · next h => exact .offers so h.1 h.2
    · exact .stay
  | run wake => exact run_move ctx wake
  | stop =>
    rw [step]
    split
    · next h => exact .stops h
    · exact .stay

/-! ### Sockets -/

/-- A worker has taken the socket, and has not looked at `stop_flag` yet. -/
def holds (so : Socket) (state : WorkerState) : Nat := if state = .returning (some so) then 1 else 0

/-- A worker comes back without a socket only when the server stops, so it serves none twice. -/
def Allowed (stopFlag : Nat) : WorkerState → Prop
  | .returning none => stopFlag ≠ 0
  | .serving none => False
  | _ => True

/-- What becomes of the sockets. -/
structure Delivered (ctx : Context n) : Prop where
  fits : ctx.queue.Fits queueSize
  tail_le : ctx.queue.tail ≤ queueSize
  fifo : ctx.queued = ctx.taken ++ ctx.queue.contents queueSize
  once : ∀ so, ctx.taken.count so =
    ctx.served.count so + ctx.lost.count so + tally (holds so) ctx.worker
  running : ctx.stopFlag = 0 → ctx.lost = [] ∧ ctx.dropped = []
  allowed : ∀ w, Allowed ctx.stopFlag (ctx.worker w)

theorem allowed_stopped {stopFlag stopFlag' : Nat} (hstop : stopFlag' ≠ 0) {state : WorkerState}
    (h : Allowed stopFlag state) : Allowed stopFlag' state := by
  unfold Allowed at h ⊢
  split
  · exact hstop
  · exact h
  · trivial

theorem start_delivered (n : Nat) : (start n).Delivered where
  fits := ⟨Nat.le_refl 0, Nat.zero_le _⟩
  tail_le := Nat.zero_le _
  fifo := rfl
  once := by
    intro so
    have hnone : tally (holds so) (start n).worker = 0 := tally_eq_zero_iff.2 fun _ => rfl
    rw [hnone]
    rfl
  running := fun _ => ⟨rfl, rfl⟩
  allowed := fun _ => trivial

theorem goto_allowed {stopFlag : Nat} {state : WorkerState} (hstate : Allowed stopFlag state)
    (h : ∀ v, Allowed stopFlag (ctx.worker v)) :
    ∀ v, Allowed stopFlag ((ctx.goto w state).worker v) :=
  (Function.forall_update_iff ctx.worker fun _ => Allowed stopFlag).2 ⟨hstate, fun v _ => h v⟩

theorem goto_holds (ctx : Context n) (w : Fin n) (state : WorkerState) (so : Socket) :
    tally (holds so) (ctx.goto w state).worker + holds so (ctx.worker w) =
      tally (holds so) ctx.worker + holds so state := tally_update ..

theorem count_toList (l : List Socket) (got : Option Socket) (so : Socket) :
    (l ++ got.toList).count so = l.count so + holds so (.returning got) := by
  cases got with
  | none => rw [Option.toList_none, List.append_nil]; rfl
  | some x =>
    rw [Option.toList_some, List.count_append, List.count_singleton, holds]
    simp

namespace Delivered

/-- A worker goes on and does nothing with sockets. -/
theorem goto (h : ctx.Delivered) {state : WorkerState} (hstate : Allowed ctx.stopFlag state)
    (hold : ∀ so, holds so (ctx.worker w) = 0) (hnew : ∀ so, holds so state = 0) :
    (ctx.goto w state).Delivered := by
  refine ⟨h.fits, h.tail_le, h.fifo, fun so => ?_, h.running, goto_allowed hstate h.allowed⟩
  have hsum : tally (holds so) (ctx.goto w state).worker = tally (holds so) ctx.worker := by
    have := goto_holds ctx w state so
    rwa [hold, hnew, Nat.add_zero, Nat.add_zero] at this
  rw [hsum]
  exact h.once so

/-- The rest of the context has nothing to do with sockets. -/
theorem others (h : ctx.Delivered) (numThreads : Nat) (master : MasterState)
    (sqFull sqEmpty cond : Bool) : Delivered { ctx with
      numThreads := numThreads
      master := master
      sqFull := sqFull
      sqEmpty := sqEmpty
      cond := cond } :=
  ⟨h.fits, h.tail_le, h.fifo, h.once, h.running, h.allowed⟩

/-- The server stops. -/
theorem stopped (h : ctx.Delivered) {stopFlag : Nat} (hstop : stopFlag ≠ 0) (master : MasterState) :
    Delivered { ctx with stopFlag := stopFlag, master := master } :=
  ⟨h.fits, h.tail_le, h.fifo, h.once, fun hzero => absurd hzero hstop,
    fun v => allowed_stopped hstop (h.allowed v)⟩

theorem signalEmpty (h : ctx.Delivered) : ctx.signalEmpty.Delivered := by
  rw [Context.signalEmpty]
  split
  · exact h.others ..
  · exact h.others ..

theorem signalCond (h : ctx.Delivered) : ctx.signalCond.Delivered := by
  rw [Context.signalCond]
  split
  · exact h.others ..
  · exact h.others ..

theorem signalFull (h : ctx.Delivered) {wake : Option (Fin n)} (hwake : ctx.canWake wake = true) :
    (ctx.signalFull wake).Delivered := by
  cases wake with
  | none => exact h.others ..
  | some w =>
    have hw : ctx.worker w = .asleep := of_decide_eq_true hwake
    exact h.goto trivial (fun so => by rw [hw]; rfl) fun so => rfl

end Delivered

theorem Consuming.holds (h : ctx.Consuming w) (so : Socket) :
    Context.holds so (ctx.worker w) = 0 :=
  h.elim (P := fun state => Context.holds so state = 0) rfl rfl

theorem Move.delivered {ev : QueueEvent n} (hmove : Move ctx ev ctx') (h : ctx.Delivered) :
    ctx'.Delivered := by
  cases hmove with
  | stay => exact h
  | begins w ok hw =>
    cases ok with
    | true => exact h.goto trivial (fun so => by rw [hw]; rfl) fun so => rfl
    | false => exact h.goto trivial (fun so => by rw [hw]; rfl) fun so => rfl
  | parts w hw hempty hstop => exact h.goto trivial hw.holds fun so => rfl
  | takes w hw hlt =>
    refine Delivered.signalEmpty ?_
    obtain ⟨hcontents, hfits, -, htail⟩ := Ring.take_spec h.fits hlt
    refine ⟨hfits, htail, ?_, fun so => ?_, h.running, goto_allowed trivial h.allowed⟩
    · change ctx.queued = _
      rw [h.fifo, hcontents, List.append_assoc]
      rfl
    · have hsum := goto_holds ctx w (.returning (some (ctx.queue.first queueSize))) so
      have hcount := count_toList ctx.taken (some (ctx.queue.first queueSize)) so
      have honce := h.once so
      rw [hw.holds] at hsum
      dsimp only [Option.toList_some] at hcount ⊢
      change List.count so (ctx.taken ++ [ctx.queue.first queueSize]) =
        ctx.served.count so + ctx.lost.count so + _
      omega
  | misses w hw hle hnot =>
    have hstop : ctx.stopFlag ≠ 0 := fun hstop =>
      hnot ⟨Nat.le_antisymm (Nat.le_of_not_lt hle) h.fits.tail_le, hstop⟩
    have hback : (ctx.goto w (.returning none)).Delivered := h.goto hstop hw.holds fun so => rfl
    exact hback.signalEmpty
  | wakes w hw hset =>
    have hwoken : (ctx.goto w .woken).Delivered :=
      h.goto trivial (fun so => by rw [hw]; rfl) fun so => rfl
    exact hwoken.others ..
  | sleeps w hw hset => exact h.goto trivial (fun so => by rw [hw]; rfl) fun so => rfl
  | serves w got hw hstop =>
    have hsome : Allowed ctx.stopFlag (.serving got) := by
      have hgot := h.allowed w
      rw [hw] at hgot
      cases got with
      | none => exact absurd hstop hgot
      | some so => trivial
    refine ⟨h.fits, h.tail_le, h.fifo, fun so => ?_, h.running, goto_allowed hsome h.allowed⟩
    have hsum := goto_holds ctx w (.serving got) so
    have hcount := count_toList ctx.served got so
    have honce := h.once so
    have hserving : holds so (.serving got) = 0 := rfl
    rw [hw] at hsum
    change ctx.taken.count so = (ctx.served ++ got.toList).count so + ctx.lost.count so +
      tally (holds so) (ctx.goto w (.serving got)).worker
    omega
  | loses w got hw hstop =>
    refine ⟨h.fits, h.tail_le, h.fifo, fun so => ?_, fun hzero => absurd hzero hstop,
      goto_allowed trivial h.allowed⟩
    have hsum := goto_holds ctx w .leaving so
    have hcount := count_toList ctx.lost got so
    have honce := h.once so
    have hleaving : holds so .leaving = 0 := rfl
    rw [hw] at hsum
    change ctx.taken.count so = ctx.served.count so + (ctx.lost ++ got.toList).count so +
      tally (holds so) (ctx.goto w .leaving).worker
    omega
  | closes w got hw => exact h.goto trivial (fun so => by rw [hw]; rfl) fun so => rfl
  | leaves w hw =>
    have hgone : (ctx.goto w .gone).Delivered :=
      h.goto trivial (fun so => by rw [hw]; rfl) fun so => rfl
    exact (hgone.others ..).signalCond
  | offers so hpolling hstop => exact h.others ..
  | quits hpolling hstop => exact h.others ..
  | masterParts so hso hstop hfull => exact h.others ..
  | puts so wake hev hso hwake hroom =>
    refine Delivered.signalFull ?_ hwake
    refine ⟨Ring.fits_put h.fits hroom so, h.tail_le, ?_, h.once, h.running, h.allowed⟩
    change ctx.queued ++ [so] = ctx.taken ++ _
    rw [h.fifo, Ring.contents_put h.fits hroom, List.append_assoc]
  | drops so wake hso hwake hstop =>
    refine Delivered.signalFull ?_ hwake
    exact ⟨h.fits, h.tail_le, h.fifo, h.once, fun hzero => absurd hzero hstop, h.allowed⟩
  | masterWakes so hso hset => exact h.others ..
  | masterSleeps so hso hset => exact h.others ..
  | broadcasts hstopping =>
    have hsame : ∀ so, tally (holds so) ctx.broadcastFull.worker = tally (holds so) ctx.worker := by
      intro so
      refine congrArg (fun f : Fin n → Nat => ∑ v, f v) (funext fun v => ?_)
      rw [broadcastFull]
      dsimp only
      split
      · next hv =>
        rw [hv]
        rfl
      · rfl
    refine ⟨h.fits, h.tail_le, h.fifo, fun so => (h.once so).trans ?_, h.running, fun v => ?_⟩
    · rw [← hsame]
      rfl
    · rw [broadcastFull]
      dsimp only
      split
      · trivial
      · exact h.allowed v
  | lingers hending hthreads => exact h.others ..
  | finishes hending hnone => exact h.stopped (by decide) .done
  | rouses hlingering hset => exact h.others ..
  | waits hlingering hset => exact h.others ..
  | stops hstop => exact h.stopped (by decide) ctx.master

/-- **What becomes of the sockets**, in every state of every run: the queue gives them out in the
order they have come, and each to one worker, who serves it unless the server stops. Nothing is
lost as long as it does not. -/
theorem sockets_delivered (n : Nat) (evs : List (QueueEvent n)) :
    Run.Always step Delivered (start n) evs :=
  Run.Always.of_invariant (C := fun _ _ => True) (start_delivered n)
    (fun ctx ev h _ => (step_move ctx ev).delivered h) (fun _ h => h)
    (Run.EachStep.of_forall fun _ _ => trivial)

end Context

end SerialServer.Mongoose
