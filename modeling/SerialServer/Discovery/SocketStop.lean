import SerialServer.Discovery.SocketSignals

/-!
# SerialServer.Discovery.SocketStop

Whether the web server can stop.

The broadcast at the end of `master_thread` reaches the workers that wait at that moment, and nobody
signals `sq_full` after it. A worker that is on its way to wait then sleeps for good, unless the
event is still set for it, and the master waits for it for good (`stop_returns_iff`). Every
other worker comes to its end: each step of a thread leaves less to do (`weight`).
-/

namespace SerialServer.Mongoose

namespace Context

variable {n : Nat} {ctx ctx' : Context n} {w : Fin n} {ev : QueueEvent n}

/-! ### Behind the broadcast -/

/-- The master is in its loop. -/
def running : MasterState → Bool
  | .polling | .offering _ | .parting _ | .asleep _ | .woken _ => true
  | _ => false

/-- The master is behind the broadcast. -/
def closing : MasterState → Bool
  | .closing | .lingering | .waiting | .roused | .done => true
  | _ => false

/-- The master does not wait for a signal of workers that are all gone. -/
def Heard (master : MasterState) (numThreads : Nat) (cond : Bool) : Prop :=
  match master with
  | .lingering => numThreads = 0 → cond = true
  | .waiting => numThreads ≠ 0
  | .done => numThreads = 0
  | _ => True

/-- What the threads know of each other at the end. -/
structure Counted (ctx : Context n) : Prop where
  threads : ctx.numThreads = tally alive ctx.worker
  stopped : ctx.stopFlag = 0 → running ctx.master = true
  heard : Heard ctx.master ctx.numThreads ctx.cond

theorem closing_running {master : MasterState} (h : running master = true) :
    closing master = false := by
  cases master with
  | polling | offering | parting | asleep | woken => rfl
  | stopping | closing | lingering | waiting | roused | done => cases h

theorem heard_running {master : MasterState} (h : running master = true) (numThreads : Nat)
    (cond : Bool) : Heard master numThreads cond := by
  cases master with
  | polling | offering | parting | asleep | woken => trivial
  | stopping | closing | lingering | waiting | roused | done => cases h

theorem Producing.running {so : Socket} (h : ctx.Producing so) :
    Context.running ctx.master = true := by
  rcases h with h | h
  · rw [h]
    rfl
  · rw [h]
    rfl

theorem Ending.not_running (h : ctx.Ending) : Context.running ctx.master = false := by
  rcases h with h | h
  · rw [h]
    rfl
  · rw [h]
    rfl

theorem Consuming.alive (h : ctx.Consuming w) : Context.alive (ctx.worker w) = 1 :=
  h.elim (P := fun state => Context.alive state = 1) rfl rfl

theorem start_counted (n : Nat) : (start n).Counted where
  threads := (Fintype.card_fin n).symm.trans (Finset.card_eq_sum_ones _)
  stopped := fun _ => rfl
  heard := trivial

namespace Counted

/-- The master leaves its loop only when it has been told to. -/
theorem told (h : ctx.Counted) (hmaster : running ctx.master = false) : ctx.stopFlag ≠ 0 := by
  intro hzero
  rw [h.stopped hzero] at hmaster
  cases hmaster

theorem goto (h : ctx.Counted) {state : WorkerState}
    (hstate : Context.alive state = Context.alive (ctx.worker w)) : (ctx.goto w state).Counted := by
  refine ⟨?_, h.stopped, h.heard⟩
  have hsum := goto_tally Context.alive ctx w state
  have hthreads := h.threads
  change ctx.numThreads = _
  omega

/-- The master stays in its loop. -/
theorem loops (h : ctx.Counted) {master : MasterState} (hmaster : running master = true)
    (sqEmpty : Bool) : Counted { ctx with master := master, sqEmpty := sqEmpty } :=
  ⟨h.threads, fun _ => hmaster, heard_running hmaster _ _⟩

theorem signalEmpty (h : ctx.Counted) : ctx.signalEmpty.Counted := by
  rw [Context.signalEmpty]
  split
  · exact h.loops rfl _
  · exact ⟨h.threads, h.stopped, h.heard⟩

theorem signalFull (h : ctx.Counted) {wake : Option (Fin n)} (hwake : ctx.canWake wake = true) :
    (ctx.signalFull wake).Counted := by
  cases wake with
  | none => exact ⟨h.threads, h.stopped, h.heard⟩
  | some w =>
    refine h.goto ?_
    rw [canWake_some hwake]
    rfl

/-- A worker is gone, and tells the master. -/
theorem leaves (h : ctx.Counted) (hw : ctx.worker w = .leaving) :
    (signalCond { ctx.goto w .gone with numThreads := ctx.numThreads - 1 }).Counted := by
  have hthreads : ctx.numThreads - 1 = tally Context.alive (ctx.goto w .gone).worker := by
    have hsum : tally Context.alive (ctx.goto w .gone).worker + 1 =
        tally Context.alive ctx.worker + 0 := by
      have := goto_tally Context.alive ctx w .gone
      rwa [hw] at this
    have := h.threads
    omega
  rw [signalCond]
  split
  · next hwaiting =>
    change ctx.master = .waiting at hwaiting
    have htold := h.told (by rw [hwaiting]; rfl)
    exact ⟨hthreads, fun hzero => absurd hzero htold, trivial⟩
  · next hmaster =>
    refine ⟨hthreads, h.stopped, ?_⟩
    have hheard := h.heard
    change Heard ctx.master (ctx.numThreads - 1) true
    change ctx.master = .waiting → False at hmaster
    unfold Heard at hheard ⊢
    split
    · exact fun _ => rfl
    · next hwaiting => exact (hmaster hwaiting).elim
    · next hdone =>
      rw [hdone] at hheard
      dsimp only at hheard
      omega
    · trivial

end Counted

theorem Move.counted (hmove : Move ctx ev ctx') (h : ctx.Counted) : ctx'.Counted := by
  cases hmove with
  | stay => exact h
  | begins w ok hw =>
    cases ok with
    | true => exact h.goto (by rw [hw]; rfl)
    | false => exact h.goto (by rw [hw]; rfl)
  | parts w hw hempty hstop => exact h.goto (by rw [hw.alive]; rfl)
  | takes w hw hlt =>
    have hgoto : (ctx.goto w (.returning (some (ctx.queue.first queueSize)))).Counted :=
      h.goto (by rw [hw.alive]; rfl)
    exact Counted.signalEmpty ⟨hgoto.threads, hgoto.stopped, hgoto.heard⟩
  | misses w hw hle hnot => exact Counted.signalEmpty (h.goto (by rw [hw.alive]; rfl))
  | wakes w hw hset =>
    have hgoto : (ctx.goto w .woken).Counted := h.goto (by rw [hw]; rfl)
    exact ⟨hgoto.threads, hgoto.stopped, hgoto.heard⟩
  | sleeps w hw hset => exact h.goto (by rw [hw]; rfl)
  | serves w got hw hstop =>
    have hgoto : (ctx.goto w (.serving got)).Counted := h.goto (by rw [hw]; rfl)
    exact ⟨hgoto.threads, hgoto.stopped, hgoto.heard⟩
  | loses w got hw hstop =>
    have hgoto : (ctx.goto w .leaving).Counted := h.goto (by rw [hw]; rfl)
    exact ⟨hgoto.threads, hgoto.stopped, hgoto.heard⟩
  | closes w got hw => exact h.goto (by rw [hw]; rfl)
  | leaves w hw => exact h.leaves hw
  | offers so hpolling hstop => exact h.loops rfl _
  | quits hpolling hstop => exact ⟨h.threads, fun hzero => absurd hzero hstop, trivial⟩
  | masterParts so hso hstop hfull => exact h.loops rfl _
  | puts so wake hev hso hwake hroom =>
    refine Counted.signalFull ?_ hwake
    exact ⟨h.threads, fun _ => rfl, trivial⟩
  | drops so wake hso hwake hstop =>
    refine Counted.signalFull ?_ hwake
    exact ⟨h.threads, fun _ => rfl, trivial⟩
  | masterWakes so hso hset => exact h.loops rfl _
  | masterSleeps so hso hset => exact h.loops rfl _
  | broadcasts hstopping =>
    refine ⟨?_, fun hzero => ?_, trivial⟩
    · refine h.threads.trans (congrArg (fun f : Fin n → Nat => ∑ v, f v) (funext fun v => ?_))
      rw [broadcastFull]
      dsimp only
      split
      · next hv =>
        rw [hv]
        rfl
      · rfl
    · exact absurd hzero (h.told (by rw [hstopping]; rfl))
  | lingers hending hthreads =>
    exact ⟨h.threads, fun hzero => absurd hzero (h.told hending.not_running),
      fun hnone => absurd hnone (Nat.ne_of_gt hthreads)⟩
  | finishes hending hnone =>
    exact ⟨h.threads, fun hzero => absurd hzero (Nat.succ_ne_zero _), hnone⟩
  | rouses hlingering hset =>
    have htold := h.told (by rw [hlingering]; rfl)
    exact ⟨h.threads, fun hzero => absurd hzero htold, trivial⟩
  | waits hlingering hset =>
    have hheard := h.heard
    rw [hlingering, hset] at hheard
    have htold := h.told (by rw [hlingering]; rfl)
    exact ⟨h.threads, fun hzero => absurd hzero htold,
      fun hnone => absurd (hheard hnone) Bool.false_ne_true⟩
  | stops hstop => exact ⟨h.threads, fun hzero => absurd hzero (Nat.succ_ne_zero _), h.heard⟩

/-! ### Signals that nobody gives -/

/-- The workers that nobody calls, once nobody signals `sq_full` any more. -/
def unheard (ctx : Context n) : Nat :=
  tally sleeper ctx.worker + (tally goer ctx.worker - ctx.sqFull.toNat)

theorem unheard_goto (ctx : Context n) {state : WorkerState}
    (hsleeper : sleeper state = sleeper (ctx.worker w)) (hgoer : goer state = goer (ctx.worker w)) :
    (ctx.goto w state).unheard = ctx.unheard := by
  have hs := goto_tally sleeper ctx w state
  have hg := goto_tally goer ctx w state
  change tally sleeper (ctx.goto w state).worker +
    (tally goer (ctx.goto w state).worker - ctx.sqFull.toNat) = _
  rw [unheard]
  omega

/-- The master is behind the broadcast, and there are `k` workers that nobody calls. -/
structure Closed (ctx : Context n) (k : Nat) : Prop where
  closing : Context.closing ctx.master = true
  stopped : ctx.stopFlag ≠ 0
  unheard : ctx.unheard = k

namespace Closed

variable {k : Nat}

theorem not_running (h : ctx.Closed k) : running ctx.master ≠ true := by
  intro hrunning
  have hclosing := h.closing
  rw [closing_running hrunning] at hclosing
  cases hclosing

theorem goto (h : ctx.Closed k) {state : WorkerState}
    (hsleeper : sleeper state = sleeper (ctx.worker w)) (hgoer : goer state = goer (ctx.worker w)) :
    (ctx.goto w state).Closed k :=
  ⟨h.closing, h.stopped, (unheard_goto ctx hsleeper hgoer).trans h.unheard⟩

theorem signalEmpty (h : ctx.Closed k) : ctx.signalEmpty.Closed k := by
  rw [Context.signalEmpty]
  split
  · next hasleep => exact absurd (hasleep ▸ rfl) h.not_running
  · exact ⟨h.closing, h.stopped, h.unheard⟩

theorem signalCond (h : ctx.Closed k) : ctx.signalCond.Closed k := by
  rw [Context.signalCond]
  split
  · exact ⟨rfl, h.stopped, h.unheard⟩
  · exact ⟨h.closing, h.stopped, h.unheard⟩

end Closed

/-- Nobody is called behind the broadcast but by the signal there is. -/
theorem Move.closed (hmove : Move ctx ev ctx') {k : Nat} (h : ctx.Closed k) : ctx'.Closed k := by
  cases hmove with
  | stay => exact h
  | begins w ok hw =>
    cases ok with
    | true => exact h.goto (by rw [hw]; rfl) (by rw [hw]; rfl)
    | false => exact h.goto (by rw [hw]; rfl) (by rw [hw]; rfl)
  | parts w hw hempty hstop => exact absurd hstop h.stopped
  | takes w hw hlt =>
    have hgoto : (ctx.goto w (.returning (some (ctx.queue.first queueSize)))).Closed k :=
      h.goto hw.weights.1.symm hw.weights.2.1.symm
    exact Closed.signalEmpty ⟨hgoto.closing, hgoto.stopped, hgoto.unheard⟩
  | misses w hw hle hnot =>
    exact Closed.signalEmpty (h.goto hw.weights.1.symm hw.weights.2.1.symm)
  | wakes w hw hset =>
    refine ⟨h.closing, h.stopped, ?_⟩
    have hs := goto_tally sleeper ctx w .woken
    have hg := goto_tally goer ctx w .woken
    rw [hw] at hs hg
    change _ + 0 = _ + 0 at hs
    change _ + 1 = _ + 0 at hg
    have hk := h.unheard
    rw [unheard, hset] at hk
    change _ + (_ - 1) = k at hk
    change tally sleeper (ctx.goto w .woken).worker + tally goer (ctx.goto w .woken).worker = k
    omega
  | sleeps w hw hset =>
    refine ⟨h.closing, h.stopped, ?_⟩
    have hs := goto_tally sleeper ctx w .asleep
    have hg := goto_tally goer ctx w .asleep
    rw [hw] at hs hg
    change _ + 0 = _ + 1 at hs
    change _ + 1 = _ + 0 at hg
    have hk := h.unheard
    rw [unheard, hset] at hk
    change _ + tally goer ctx.worker = k at hk
    rw [unheard]
    change _ + (_ - ctx.sqFull.toNat) = k
    rw [hset]
    change tally sleeper (ctx.goto w .asleep).worker + tally goer (ctx.goto w .asleep).worker = k
    omega
  | serves w got hw hstop => exact absurd hstop h.stopped
  | loses w got hw hstop =>
    have hgoto : (ctx.goto w .leaving).Closed k := h.goto (by rw [hw]; rfl) (by rw [hw]; rfl)
    exact ⟨hgoto.closing, hgoto.stopped, hgoto.unheard⟩
  | closes w got hw => exact h.goto (by rw [hw]; rfl) (by rw [hw]; rfl)
  | leaves w hw =>
    have hgoto : (ctx.goto w .gone).Closed k := h.goto (by rw [hw]; rfl) (by rw [hw]; rfl)
    exact Closed.signalCond ⟨hgoto.closing, hgoto.stopped, hgoto.unheard⟩
  | offers so hpolling hstop => exact absurd hstop h.stopped
  | quits hpolling hstop => exact absurd (hpolling ▸ rfl) h.not_running
  | masterParts so hso hstop hfull => exact absurd hstop h.stopped
  | puts so wake hev hso hwake hroom => exact absurd hso.running h.not_running
  | drops so wake hso hwake hstop => exact absurd hso.running h.not_running
  | masterWakes so hso hset => exact absurd (hso ▸ rfl) h.not_running
  | masterSleeps so hso hset => exact absurd (hso ▸ rfl) h.not_running
  | broadcasts hstopping =>
    have hclosing := h.closing
    rw [hstopping] at hclosing
    cases hclosing
  | lingers | rouses | waits => exact ⟨rfl, h.stopped, h.unheard⟩
  | finishes => exact ⟨rfl, Nat.succ_ne_zero _, h.unheard⟩
  | stops hstop => exact absurd hstop h.stopped

/-! ### What is left to do -/

/-- The steps a worker can still take behind the broadcast. -/
def rank : WorkerState → Nat
  | .created | .parting | .serving _ => 4
  | .idle | .asleep | .woken => 3
  | .returning _ => 2
  | .leaving => 1
  | .gone => 0

/-- The steps the master can take before it waits for a worker. -/
def masterRank : MasterState → Nat
  | .closing | .roused => 3
  | .lingering => 2
  | _ => 0

/-- What is left to do. A worker that goes may keep the master busy once more. -/
def weight (ctx : Context n) : Nat :=
  4 * tally rank ctx.worker + masterRank ctx.master + 2 * ctx.cond.toNat

/-- A worker takes a step on its way to its end. -/
theorem weight_goto (ctx : Context n) {state : WorkerState} (h : rank state < rank (ctx.worker w)) :
    (ctx.goto w state).weight + 4 ≤ ctx.weight := by
  have hsum := goto_tally rank ctx w state
  rw [weight, weight]
  change 4 * tally rank (ctx.goto w state).worker + masterRank ctx.master + 2 * ctx.cond.toNat + 4
    ≤ _
  omega

theorem weight_signalEmpty (ctx : Context n) : ctx.signalEmpty.weight = ctx.weight := by
  rw [signalEmpty]
  split
  · next hasleep =>
    rw [weight, weight, hasleep]
    rfl
  · rfl

theorem weight_signalCond (ctx : Context n) : ctx.signalCond.weight ≤ ctx.weight + 3 := by
  rw [signalCond]
  split
  · next hwaiting =>
    rw [weight, weight, hwaiting]
    change 4 * tally rank ctx.worker + 3 + 2 * ctx.cond.toNat ≤
      4 * tally rank ctx.worker + 0 + 2 * ctx.cond.toNat + 3
    omega
  · rw [weight, weight]
    change 4 * tally rank ctx.worker + masterRank ctx.master + 2 * 1 ≤ _
    omega

theorem weight_consumeSocket (hstop : ctx.stopFlag ≠ 0) (hw : ctx.Consuming w) :
    (ctx.consumeSocket w).weight < ctx.weight := by
  have hgoto : ∀ got, (ctx.goto w (.returning got)).weight + 4 ≤ ctx.weight := fun got =>
    weight_goto ctx (hw.elim (P := fun state => rank (.returning got) < rank state)
      (Nat.lt_succ_self 2) (Nat.lt_succ_self 2))
  rw [consumeSocket, if_neg fun hempty => hstop hempty.2]
  split
  · rw [weight_signalEmpty]
    have : (ctx.goto w (.returning (some (ctx.queue.first queueSize)))).weight < ctx.weight := by
      have := hgoto (some (ctx.queue.first queueSize))
      omega
    exact this
  · rw [weight_signalEmpty]
    have := hgoto none
    omega

/-- A worker that is about to wait has the event set for it. -/
theorem Closed.parting_set (h : ctx.Closed 0) (hw : ctx.worker w = .parting) :
    ctx.sqFull = true := by
  have hgoer := le_tally goer ctx.worker w
  rw [hw] at hgoer
  change 1 ≤ _ at hgoer
  have hk := h.unheard
  rw [Context.unheard] at hk
  cases hset : ctx.sqFull with
  | true => rfl
  | false =>
    rw [hset, Bool.toNat_false] at hk
    omega

theorem Closed.not_asleep (h : ctx.Closed 0) (w : Fin n) : ctx.worker w ≠ .asleep := by
  intro hw
  have hsleeper := le_tally sleeper ctx.worker w
  rw [hw] at hsleeper
  change 1 ≤ _ at hsleeper
  have hk := h.unheard
  rw [Context.unheard] at hk
  omega

/-- A worker that is not gone can go on. -/
theorem worker_progress (h : ctx.Closed 0) (hw : ctx.worker w ≠ .gone) :
    ∃ ev, (ctx.step ev).weight < ctx.weight := by
  cases hstate : ctx.worker w with
  | created =>
    refine ⟨.begin w false, ?_⟩
    have hgoto : (ctx.goto w .leaving).weight + 4 ≤ ctx.weight :=
      weight_goto ctx (by rw [hstate]; decide)
    rw [step, if_pos hstate]
    change (ctx.goto w .leaving).weight < _
    omega
  | idle =>
    refine ⟨.work w, ?_⟩
    rw [step, work, hstate]
    exact weight_consumeSocket h.stopped (.inl hstate)
  | woken =>
    refine ⟨.work w, ?_⟩
    rw [step, work, hstate]
    exact weight_consumeSocket h.stopped (.inr hstate)
  | parting =>
    refine ⟨.work w, ?_⟩
    have hgoto : (ctx.goto w .woken).weight + 4 ≤ ctx.weight :=
      weight_goto ctx (by rw [hstate]; decide)
    rw [step, work, hstate]
    dsimp only
    rw [if_pos (h.parting_set hstate)]
    change (ctx.goto w .woken).weight < _
    omega
  | asleep => exact absurd hstate (h.not_asleep w)
  | returning got =>
    refine ⟨.work w, ?_⟩
    have hgoto : (ctx.goto w .leaving).weight + 4 ≤ ctx.weight :=
      weight_goto ctx (by rw [hstate]; exact Nat.lt_succ_self 1)
    rw [step, work, hstate]
    dsimp only
    rw [if_neg h.stopped]
    change (ctx.goto w .leaving).weight < _
    omega
  | serving got =>
    refine ⟨.work w, ?_⟩
    have hgoto : (ctx.goto w .idle).weight + 4 ≤ ctx.weight :=
      weight_goto ctx (by rw [hstate]; exact Nat.lt_succ_self 3)
    rw [step, work, hstate]
    change (ctx.goto w .idle).weight < _
    omega
  | leaving =>
    refine ⟨.work w, ?_⟩
    have hgoto : (ctx.goto w .gone).weight + 4 ≤ ctx.weight :=
      weight_goto ctx (by rw [hstate]; decide)
    rw [step, work, hstate]
    have hsignal :=
      weight_signalCond { ctx.goto w .gone with numThreads := ctx.numThreads - 1 }
    change _ ≤ (ctx.goto w .gone).weight + 3 at hsignal
    dsimp only at hsignal ⊢
    omega
  | gone => exact absurd hstate hw

theorem weight_awaitWorkers (h : ctx.Ending) : ctx.awaitWorkers.weight < ctx.weight := by
  have hrank : masterRank ctx.master = 3 := by
    rcases h with h | h
    · rw [h]
      rfl
    · rw [h]
      rfl
  rw [awaitWorkers]
  split
  · rw [weight, weight, hrank]
    change 4 * tally rank ctx.worker + 2 + 2 * ctx.cond.toNat < _
    omega
  · rw [weight, weight, hrank]
    change 4 * tally rank ctx.worker + 0 + 2 * ctx.cond.toNat < _
    omega

/-- **As long as the master has not come to its end, something can go on.** -/
theorem closed_progress (hcounted : ctx.Counted) (h : ctx.Closed 0) (hdone : ctx.master ≠ .done) :
    ∃ ev, (ctx.step ev).weight < ctx.weight := by
  have hclosing := h.closing
  cases hmaster : ctx.master with
  | closing =>
    refine ⟨.run none, ?_⟩
    rw [step, run, hmaster]
    exact weight_awaitWorkers (.inl hmaster)
  | roused =>
    refine ⟨.run none, ?_⟩
    rw [step, run, hmaster]
    exact weight_awaitWorkers (.inr hmaster)
  | lingering =>
    refine ⟨.run none, ?_⟩
    rw [step, run, hmaster]
    dsimp only
    split
    · next hset =>
      rw [weight, weight, hmaster, hset]
      change 4 * tally rank ctx.worker + 3 + 2 * 0 < 4 * tally rank ctx.worker + 2 + 2 * 1
      omega
    · rw [weight, weight, hmaster]
      change 4 * tally rank ctx.worker + 0 + 2 * ctx.cond.toNat <
        4 * tally rank ctx.worker + 2 + 2 * ctx.cond.toNat
      omega
  | waiting =>
    have hheard := hcounted.heard
    rw [hmaster] at hheard
    change ctx.numThreads ≠ 0 at hheard
    rw [hcounted.threads] at hheard
    obtain ⟨w, hw⟩ := exists_of_tally_ne_zero hheard
    refine worker_progress (w := w) h fun hgone => hw ?_
    rw [hgone]
    rfl
  | done => exact absurd hmaster hdone
  | polling | offering | parting | asleep | woken | stopping =>
    rw [hmaster] at hclosing
    cases hclosing

/-- Behind the end of the master there are no workers. -/
theorem Counted.unheard_done (h : ctx.Counted) (hdone : ctx.master = .done) : ctx.unheard = 0 := by
  have hheard := h.heard
  rw [hdone] at hheard
  change ctx.numThreads = 0 at hheard
  rw [h.threads] at hheard
  have hgone : ∀ w, ctx.worker w = .gone := by
    intro w
    have hw := tally_eq_zero_iff.1 hheard w
    rw [alive] at hw
    by_contra hnot
    rw [if_neg hnot] at hw
    cases hw
  have hsleeper : tally sleeper ctx.worker = 0 :=
    tally_eq_zero_iff.2 fun w => by rw [hgone w]; rfl
  have hgoer : tally goer ctx.worker = 0 :=
    tally_eq_zero_iff.2 fun w => by rw [hgone w]; rfl
  rw [unheard, hsleeper, hgoer, Nat.zero_sub]

theorem foldl_counted (n : Nat) (evs : List (QueueEvent n)) :
    (evs.foldl step (start n)).Counted :=
  Run.EachStep.foldl (C := fun _ _ => True) (start_counted n)
    (fun ctx ev h _ => (step_move ctx ev).counted h) (Run.EachStep.of_forall fun _ _ => trivial)

theorem step_closed {k : Nat} (ev : QueueEvent n) (h : ctx.Counted ∧ ctx.Closed k) :
    (ctx.step ev).Counted ∧ (ctx.step ev).Closed k :=
  ⟨(step_move ctx ev).counted h.1, (step_move ctx ev).closed h.2⟩

/-- **Whether the server can stop**: once the master has broadcast, in a run from the start, it can
come to its end if and only if no worker waits for `sq_full`, and no more are about to wait than
its event is set for. -/
theorem stop_returns_iff (n : Nat) (evs : List (QueueEvent n))
    (hclosing : closing (evs.foldl step (start n)).master = true) :
    (∃ later : List (QueueEvent n),
        (later.foldl step (evs.foldl step (start n))).master = .done) ↔
      (evs.foldl step (start n)).unheard = 0 := by
  have hcounted := foldl_counted n evs
  generalize evs.foldl step (start n) = ctx at hclosing hcounted ⊢
  have hstop : ctx.stopFlag ≠ 0 := by
    intro hzero
    rw [closing_running (hcounted.stopped hzero)] at hclosing
    cases hclosing
  have hstart : ctx.Counted ∧ ctx.Closed ctx.unheard := ⟨hcounted, hclosing, hstop, rfl⟩
  constructor
  · rintro ⟨later, hdone⟩
    obtain ⟨hlater, hclosed⟩ : (later.foldl step ctx).Counted ∧
        (later.foldl step ctx).Closed ctx.unheard :=
      Run.EachStep.foldl (C := fun _ _ => True)
        (I := fun c : Context n => c.Counted ∧ c.Closed ctx.unheard) hstart
        (fun _ ev h _ => step_closed ev h) (Run.EachStep.of_forall fun _ _ => trivial)
    exact hclosed.unheard.symm.trans (hlater.unheard_done hdone)
  · intro hunheard
    rw [hunheard] at hstart
    exact Run.exists_foldl (I := fun c : Context n => c.Counted ∧ c.Closed 0) (m := weight)
      (fun _ ev h => step_closed ev h) (fun _ h hdone => closed_progress h.1 h.2 hdone) hstart

/-- A worker that is on its way to wait when `mg_stop` is called: the server never stops. -/
theorem stop_returns_iff_parting :
    let evs : List (QueueEvent 1) := [.begin 0 true, .work 0, .stop, .run none, .run none]
    ¬ ∃ later : List (QueueEvent 1),
      (later.foldl step (evs.foldl step (start 1))).master = .done := by
  intro evs hreturns
  exact absurd ((stop_returns_iff 1 evs rfl).1 hreturns) (by decide)

end Context

end SerialServer.Mongoose
