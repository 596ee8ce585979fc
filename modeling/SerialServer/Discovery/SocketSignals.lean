import SerialServer.Discovery.SocketRuns

/-!
# SerialServer.Discovery.SocketSignals

Whether a worker comes for every socket, and whether the server can stop.

The event of `sq_full` remembers one signal only. As long as no second one is given while a worker
is on its way to wait, some worker comes for every socket in the queue while another sleeps
(`sockets_called_iff`). With two workers on their way, the second socket is left there until a
worker has served its client (the example behind it).
-/

namespace SerialServer.Mongoose

namespace Context

variable {n : Nat} {ctx ctx' : Context n} {w : Fin n} {ev : QueueEvent n}

/-! ### Numbers of workers -/

/-- It waits for `sq_full`. -/
def sleeper (state : WorkerState) : Nat := if state = .asleep then 1 else 0

/-- It is about to. -/
def goer (state : WorkerState) : Nat := if state = .parting then 1 else 0

/-- It is on its way back to the queue. -/
def comer (state : WorkerState) : Nat := if state = .woken then 1 else 0

/-- It has not come to its end. -/
def alive (state : WorkerState) : Nat := if state = .gone then 0 else 1

theorem goto_tally (g : WorkerState → Nat) (ctx : Context n) (w : Fin n) (state : WorkerState) :
    tally g (ctx.goto w state).worker + g (ctx.worker w) = tally g ctx.worker + g state :=
  tally_update ..

/-- The number of workers that wait or are about to. -/
def resting (ctx : Context n) : Nat := tally sleeper ctx.worker + tally goer ctx.worker

/-- The number of workers that have been called, and the call that is still to be heard. -/
def calls (ctx : Context n) : Nat := tally comer ctx.worker + ctx.sqFull.toNat

/-! ### Calls -/

/-- While a worker rests, there is a call for every socket in the queue. -/
def Called (ctx : Context n) : Prop := ctx.resting ≠ 0 → ctx.queue.size ≤ ctx.calls

/-- Nobody sleeps while the event is set. -/
def Quiet (ctx : Context n) : Prop := ctx.sqFull = true → tally sleeper ctx.worker = 0

/-- A socket is put into the queue while the event is set, only if there is a call that no other
socket needs, or no worker is about to wait. -/
def Clean (ctx : Context n) (ev : QueueEvent n) : Prop :=
  ∀ so wake, ev = .run wake → ctx.Producing so → ctx.canWake wake = true →
    ctx.queue.size < queueSize → ctx.sqFull = true → tally goer ctx.worker ≠ 0 →
    ctx.queue.size ≤ tally comer ctx.worker

theorem canWake_none (h : ctx.canWake none = true) : tally sleeper ctx.worker = 0 :=
  tally_eq_zero_iff.2 fun w => if_neg (of_decide_eq_true h w)

theorem canWake_some (h : ctx.canWake (some w) = true) : ctx.worker w = .asleep :=
  of_decide_eq_true h

/-- The workers that sleep are called, and no others. -/
theorem broadcast_weights (ctx : Context n) (w : Fin n) :
    sleeper (ctx.broadcastFull.worker w) ≤ sleeper (ctx.worker w) ∧
      goer (ctx.broadcastFull.worker w) ≤ goer (ctx.worker w) ∧
      comer (ctx.worker w) ≤ comer (ctx.broadcastFull.worker w) := by
  rw [broadcastFull]
  dsimp only
  split
  · next hw =>
    rw [hw]
    decide
  · exact ⟨Nat.le_refl _, Nat.le_refl _, Nat.le_refl _⟩

theorem Quiet.goto (h : ctx.Quiet) {state : WorkerState}
    (hstate : sleeper state ≤ sleeper (ctx.worker w)) : (ctx.goto w state).Quiet := by
  intro hset
  have hsum := goto_tally sleeper ctx w state
  have hnone := h hset
  omega

theorem Quiet.signalEmpty (h : ctx.Quiet) : ctx.signalEmpty.Quiet := by
  rw [Context.signalEmpty]
  split
  · exact h
  · exact h

theorem Quiet.signalFull (h : ctx.Quiet) {wake : Option (Fin n)} (hwake : ctx.canWake wake = true) :
    (ctx.signalFull wake).Quiet := by
  cases wake with
  | none => exact fun _ => canWake_none hwake
  | some w => exact h.goto (Nat.zero_le _)

theorem Move.quiet (hmove : Move ctx ev ctx') (h : ctx.Quiet) : ctx'.Quiet := by
  cases hmove with
  | stay => exact h
  | begins w ok hw =>
    cases ok with
    | true => exact h.goto (Nat.zero_le _)
    | false => exact h.goto (Nat.zero_le _)
  | parts w hw hempty hstop => exact h.goto (Nat.zero_le _)
  | takes w hw hlt =>
    have hgoto : (ctx.goto w (.returning (some (ctx.queue.first queueSize)))).Quiet :=
      h.goto (Nat.zero_le _)
    exact Quiet.signalEmpty hgoto
  | misses w hw hle hnot =>
    have hgoto : (ctx.goto w (.returning none)).Quiet := h.goto (Nat.zero_le _)
    exact hgoto.signalEmpty
  | wakes w hw hset => exact fun hfalse => absurd hfalse Bool.false_ne_true
  | sleeps w hw hset => exact fun htrue => absurd (hset.symm.trans htrue) Bool.false_ne_true
  | serves w got hw hstop => exact h.goto (Nat.zero_le _)
  | loses w got hw hstop => exact h.goto (Nat.zero_le _)
  | closes w got hw => exact h.goto (Nat.zero_le _)
  | leaves w hw =>
    have hgoto : (ctx.goto w .gone).Quiet := h.goto (Nat.zero_le _)
    rw [signalCond]
    split
    · exact hgoto
    · exact hgoto
  | puts so wake hev hso hwake hroom =>
    have hput : Quiet { ctx with
        queue := ctx.queue.put queueSize so
        queued := ctx.queued ++ [so]
        master := .polling } := h
    exact hput.signalFull hwake
  | drops so wake hso hwake hstop =>
    have hdrop : Quiet { ctx with dropped := ctx.dropped ++ [so], master := .polling } := h
    exact hdrop.signalFull hwake
  | broadcasts hstopping =>
    intro _
    refine tally_eq_zero_iff.2 fun v => if_neg ?_
    change (if ctx.worker v = .asleep then WorkerState.woken else ctx.worker v) ≠ .asleep
    split
    · decide
    · next hv => exact hv
  | offers | quits | masterParts | masterWakes | masterSleeps | lingers | finishes | rouses | waits
  | stops => exact h

/-- A worker goes on. -/
theorem Called.goto (h : ctx.Called) {state : WorkerState} {queue : Ring Socket} {sqFull : Bool}
    (hrest : sleeper state + goer state ≤ sleeper (ctx.worker w) + goer (ctx.worker w))
    (hcalls : comer (ctx.worker w) + ctx.sqFull.toNat + queue.size ≤
      comer state + sqFull.toNat + ctx.queue.size) :
    Called { ctx.goto w state with queue := queue, sqFull := sqFull } := by
  intro hresting
  have hs := goto_tally sleeper ctx w state
  have hg := goto_tally goer ctx w state
  have hc := goto_tally comer ctx w state
  change tally sleeper (ctx.goto w state).worker + tally goer (ctx.goto w state).worker ≠ 0
    at hresting
  have hbefore : ctx.queue.size ≤ ctx.calls := by
    refine h ?_
    rw [resting]
    omega
  change queue.size ≤ tally comer (ctx.goto w state).worker + sqFull.toNat
  rw [calls] at hbefore
  omega

/-- A worker goes on that has not been called and does not go to rest. -/
theorem Called.plain (h : ctx.Called) {state : WorkerState} (hw : comer (ctx.worker w) = 0)
    (hstate : sleeper state + goer state = 0) : (ctx.goto w state).Called := by
  refine h.goto ?_ ?_
  · omega
  · omega

theorem Called.signalEmpty (h : ctx.Called) : ctx.signalEmpty.Called := by
  rw [Context.signalEmpty]
  split
  · exact h
  · exact h

theorem Consuming.weights (h : ctx.Consuming w) :
    sleeper (ctx.worker w) = 0 ∧ goer (ctx.worker w) = 0 ∧ comer (ctx.worker w) ≤ 1 :=
  h.elim (P := fun state => sleeper state = 0 ∧ goer state = 0 ∧ comer state ≤ 1) (by decide)
    (by decide)

/-- A signal, and what it is for. -/
theorem Called.signalFull (h : ctx.Called) {queue : Ring Socket} {wake : Option (Fin n)}
    (hwake : ctx.canWake wake = true) {queued dropped : List Socket}
    (hroom : queue.size ≤ ctx.queue.size ∨ queue.size = ctx.queue.size + 1 ∧
      (ctx.sqFull = true → tally goer ctx.worker ≠ 0 → ctx.queue.size ≤ tally comer ctx.worker)) :
    Called (Context.signalFull { ctx with
      queue := queue
      queued := queued
      dropped := dropped
      master := .polling } wake) := by
  cases wake with
  | some w =>
    -- One worker less rests, and one call more has been heard.
    have hw := canWake_some hwake
    have hs := goto_tally sleeper ctx w .woken
    have hg := goto_tally goer ctx w .woken
    have hc := goto_tally comer ctx w .woken
    rw [hw] at hs hg hc
    change _ + 1 = _ + 0 at hs
    change _ + 0 = _ + 0 at hg
    change _ + 0 = _ + 1 at hc
    intro _
    have hbefore : ctx.queue.size ≤ ctx.calls := by
      refine h ?_
      rw [resting]
      omega
    rw [calls] at hbefore
    change queue.size ≤ tally comer (ctx.goto w .woken).worker + ctx.sqFull.toNat
    omega
  | none =>
    have hnone := canWake_none hwake
    intro hresting
    change tally sleeper ctx.worker + tally goer ctx.worker ≠ 0 at hresting
    change queue.size ≤ tally comer ctx.worker + 1
    have hbefore := h hresting
    rw [calls] at hbefore
    cases hset : ctx.sqFull with
    | false =>
      rw [hset, Bool.toNat_false] at hbefore
      omega
    | true =>
      rw [hset, Bool.toNat_true] at hbefore
      rcases hroom with hsame | ⟨hmore, hclean⟩
      · omega
      · have := hclean hset (by omega)
        omega

theorem Move.called (hmove : Move ctx ev ctx') (hfits : ctx.queue.Fits queueSize)
    (h : ctx.Called) (hclean : ctx.Clean ev) : ctx'.Called := by
  cases hmove with
  | stay => exact h
  | begins w ok hw =>
    cases ok with
    | true => exact h.plain (hw ▸ rfl) rfl
    | false => exact h.plain (hw ▸ rfl) rfl
  | parts w hw hempty hstop =>
    intro _
    change ctx.queue.head - ctx.queue.tail ≤ _
    omega
  | takes w hw hlt =>
    obtain ⟨hsleeper, hgoer, hcomer⟩ := hw.weights
    obtain ⟨-, -, hsize, -⟩ := Ring.take_spec hfits hlt
    have hgoto : Called { ctx.goto w (.returning (some (ctx.queue.first queueSize))) with
        queue := ctx.queue.take queueSize } := by
      refine h.goto (Nat.zero_le _) ?_
      change comer (ctx.worker w) + ctx.sqFull.toNat + (ctx.queue.take queueSize).size ≤
        0 + ctx.sqFull.toNat + ctx.queue.size
      omega
    exact Called.signalEmpty hgoto
  | misses w hw hle hnot =>
    have hnone : Called (ctx.goto w (.returning none)) := by
      intro _
      change ctx.queue.head - ctx.queue.tail ≤ _
      omega
    exact hnone.signalEmpty
  | wakes w hw hset =>
    refine h.goto (Nat.zero_le _) ?_
    rw [hw, hset]
    change 0 + 1 + ctx.queue.size ≤ 1 + 0 + ctx.queue.size
    omega
  | sleeps w hw hset =>
    refine h.goto ?_ ?_
    · rw [hw]
      decide
    · rw [hw]
      exact Nat.le_refl _
  | serves w got hw hstop =>
    have hserving : (ctx.goto w (.serving got)).Called := h.plain (hw ▸ rfl) rfl
    exact hserving
  | loses w got hw hstop =>
    have hleaving : (ctx.goto w .leaving).Called := h.plain (hw ▸ rfl) rfl
    exact hleaving
  | closes w got hw => exact h.plain (hw ▸ rfl) rfl
  | leaves w hw =>
    have hgone : (ctx.goto w .gone).Called := h.plain (hw ▸ rfl) rfl
    rw [signalCond]
    split
    · exact hgone
    · exact hgone
  | puts so wake hev hso hwake hroom =>
    refine h.signalFull hwake (.inr ⟨?_, fun hset hgoer => ?_⟩)
    · have := hfits.tail_le
      change ctx.queue.head + 1 - ctx.queue.tail = ctx.queue.head - ctx.queue.tail + 1
      omega
    · exact hclean so wake hev hso hwake hroom hset hgoer
  | drops so wake hso hwake hstop => exact h.signalFull hwake (.inl (Nat.le_refl _))
  | broadcasts hstopping =>
    intro hresting
    have hsleeper : tally sleeper ctx.broadcastFull.worker ≤ tally sleeper ctx.worker :=
      tally_le_tally fun v => (broadcast_weights ctx v).1
    have hgoer : tally goer ctx.broadcastFull.worker ≤ tally goer ctx.worker :=
      tally_le_tally fun v => (broadcast_weights ctx v).2.1
    have hcomer : tally comer ctx.worker ≤ tally comer ctx.broadcastFull.worker :=
      tally_le_tally fun v => (broadcast_weights ctx v).2.2
    change tally sleeper ctx.broadcastFull.worker + tally goer ctx.broadcastFull.worker ≠ 0
      at hresting
    have hbefore : ctx.queue.size ≤ ctx.calls := by
      refine h ?_
      rw [resting]
      omega
    change ctx.queue.size ≤ tally comer ctx.broadcastFull.worker + ctx.sqFull.toNat
    rw [calls] at hbefore
    omega
  | offers | quits | masterParts | masterWakes | masterSleeps | lingers | finishes | rouses | waits
  | stops => exact h

/-- Two sockets come while two workers are on their way to wait. One of these is called, and the
other sleeps until another socket comes. -/
example :
    let evs := [.begin 0 true, .begin 1 true, .work 0, .work 1, .accept 5, .run none, .accept 6,
      .run none, .work 0, .work 1]
    let ctx := evs.foldl step (start 2)
    ctx.worker 0 = .woken ∧ ctx.worker 1 = .asleep ∧ ctx.queue.size = 2 ∧ ctx.calls = 1 := by
  decide

end Context

end SerialServer.Mongoose
