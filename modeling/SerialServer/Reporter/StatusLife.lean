import SerialServer.Reporter.Ser2net

/-!
# SerialServer.Reporter.StatusLife

The order in which the status of a port is written over the life of its connections.

A session is announced by `0x10`, its first data by `0x11`, and its end by `0x00`.
`Protocol` is that order. It hangs on the counters of a port, which say whether there has
been data before: they agree with where the session stands as long as neither has wrapped
around (`InOrder`). The order is proved of the moves of `Reporter.Session` and then of runs.
-/

namespace SerialServer.Dataxfer

open Run

variable {n : Nat}

/-! ### The order of the values written -/

/-- Where a session stands. -/
inductive Phase
  | idle
  | opened
  | active
  deriving Repr, DecidableEq

/-- **The session protocol**: what may have been written to a slot, and where that leaves
the session. A session is `0x10`, then at most one `0x11`, then `0x00`s until the next; a
program that shuts down writes `0x00` for ports without a session too. -/
inductive Protocol : Phase → List Word → Prop
  | start : Protocol .idle []
  | connected {ws : List Word} : Protocol .idle ws → Protocol .opened (ws ++ [0x10])
  | firstData {ws : List Word} : Protocol .opened ws → Protocol .active (ws ++ [0x11])
  | over {ph : Phase} {ws : List Word} : Protocol ph ws → Protocol .idle (ws ++ [0x00])

/-- Where the session of a connection stands, by its counters. -/
def Session.phase (s : Session) : Phase :=
  if s.connected then (if s.fresh then .opened else .active) else .idle

/-- The values written are in order, and no counter has wrapped around. -/
structure InOrder (s : Session) (written : List Word) : Prop where
  protocol : Protocol s.phase written
  counted : s.connected = true → s.received.toNat + s.sent.toNat ≤ s.moved

theorem statWords_append (cs cs' : List Call) :
    statWords (cs ++ cs') = statWords cs ++ statWords cs' :=
  List.filterMap_append

theorem statWords_setting {c : Call} (h : c.IsSetting = true) : statWords [c] = [] := by
  cases c with
  | myChangeStat stat => exact absurd h (by simp [Call.IsSetting])
  | _ => rfl

/-- A counter that does not wrap around. -/
theorem counter_toNat {w : Word} {k : Nat} (h : w.toNat + k < 2 ^ 32) :
    (w + BitVec.ofNat 32 k).toNat = w.toNat + k := by
  rw [BitVec.toNat_add, BitVec.toNat_ofNat, Nat.mod_eq_of_lt (a := k) (by omega),
    Nat.mod_eq_of_lt h]

/-- Once it has counted something it is not zero. -/
theorem counter_ne_zero {w : Word} {k : Nat} (h : w.toNat + k < 2 ^ 32) (hk : 0 < k) :
    w + BitVec.ofNat 32 k ≠ 0 := by
  intro hz
  have hsum : w.toNat + k = 0 := by rw [← counter_toNat h, hz]; rfl
  omega

/-- Counted data: the first of it is announced. -/
theorem InOrder.first {s s' : Session} {ws : List Word} (h : InOrder s ws)
    (hc : s.connected = true) (hc' : s'.connected = true) (hfresh : ¬ s'.fresh)
    (hcount : s'.received.toNat + s'.sent.toNat ≤ s'.moved) :
    InOrder s' (ws ++ statWords s.first) := by
  have hphase : s'.phase = .active := by simp [Session.phase, hc', hfresh]
  refine ⟨?_, fun _ => hcount⟩
  rw [hphase]
  by_cases hf : s.fresh
  · have hop : s.phase = .opened := by simp [Session.phase, hc, hf]
    have hp := h.protocol
    rw [hop] at hp
    simpa [Session.first, hf, statWords] using hp.firstData
  · have hact : s.phase = .active := by simp [Session.phase, hc, hf]
    have hp := h.protocol
    rw [hact] at hp
    simpa [Session.first, hf, statWords] using hp

/-- **Every move keeps the order**, as long as fewer than 2³² bytes have gone through. -/
theorem Move.inOrder {silent : Prop} {s s' : Session} {cs : List Call} {ws : List Word}
    (hm : Move silent s cs s') (hb : s'.moved < 2 ^ 32) (h : InOrder s ws) :
    InOrder s' (ws ++ statWords cs) := by
  cases hm with
  | setting hc hset => simpa [statWords_setting hset] using h
  | deferred hc _ =>
    have hcount := h.counted hc
    have hphase : Protocol s.phase (ws ++ statWords []) := by
      simpa [statWords] using h.protocol
    refine ⟨hphase, fun _ => ?_⟩
    show s.received.toNat + s.sent.toNat ≤ s.moved + _
    omega
  | @received k hc hpos =>
    have hcount := h.counted hc
    have hlt : s.moved + k < 2 ^ 32 := hb
    have hroom : s.received.toNat + k < 2 ^ 32 := by omega
    refine h.first hc hc (fun hf => counter_ne_zero hroom hpos hf.2) ?_
    show (s.received + BitVec.ofNat 32 k).toNat + s.sent.toNat ≤ s.moved + k
    rw [counter_toNat hroom]
    omega
  | @sent k hc hpos =>
    have hcount := h.counted hc
    have hlt : s.moved + k < 2 ^ 32 := hb
    have hroom : s.sent.toNat + k < 2 ^ 32 := by omega
    refine h.first hc hc (fun hf => counter_ne_zero hroom hpos hf.1) ?_
    show s.received.toNat + (s.sent + BitVec.ofNat 32 k).toNat ≤ s.moved + k
    rw [counter_toNat hroom]
    omega
  | finished => exact ⟨h.protocol.over, fun hc => absurd hc (by simp)⟩
  | refused hc => simpa [statWords] using h
  | opened inp hc =>
    have hp := h.protocol
    rw [show s.phase = .idle by simp [Session.phase, hc]] at hp
    exact ⟨hp.connected, fun _ => Nat.le_refl 0⟩

theorem Moves.inOrder {silent : Prop} {bound : Nat} {s s' : Session} {cs : List Call}
    {ws : List Word} (hm : Moves silent bound s cs s') (hb : bound < 2 ^ 32) (h : InOrder s ws) :
    InOrder s' (ws ++ statWords cs) := by
  have hstart : InOrder s (ws ++ statWords []) := by simpa [statWords] using h
  refine hm.invariant (I := fun s done => InOrder s (ws ++ statWords done)) hstart ?_
  intro s₁ cs₁ s₂ done hmove hle hI
  rw [statWords_append, ← List.append_assoc]
  exact hmove.inOrder (Nat.lt_of_le_of_lt hle hb) hI

/-- What a run keeps of port `i`. -/
structure Orderly (cfg : Config n) (i : Fin n) (w : Watched n) : Prop where
  wellFormed : w.net.WellFormed
  inOrder : InOrder (w.session i) (w.written (cfg.slot i))

theorem watch_written (cfg : Config n) (w : Watched n) (i : Fin n) (a : Action) :
    (watch cfg w (i, a)).written (cfg.slot i) =
      w.written (cfg.slot i) ++ statWords (eventResult cfg w.net (i, a)).calls :=
  Function.update_self _ _ _

theorem watch_orderly {cfg : Config n} {i : Fin n} (hslot : ∀ j ≠ i, cfg.slot j ≠ cfg.slot i)
    {w : Watched n} {ev : Event n} (h : Orderly cfg i w)
    (hb : (watch cfg w ev).moved i < 2 ^ 32) : Orderly cfg i (watch cfg w ev) := by
  refine ⟨step_wellFormed h.wellFormed ev, ?_⟩
  by_cases hev : ev.1 = i
  · obtain ⟨j, a⟩ := ev
    obtain rfl : j = i := hev
    rw [watch_written]
    exact (watch_moves h.wellFormed j a).inOrder hb h.inOrder
  · obtain ⟨-, -, -, hwritten⟩ := watch_other hslot w hev
    rw [watch_session_other w hev, hwritten]
    exact h.inOrder

/-- A setup that fails, at any step, writes no status. -/
theorem handleAcceptPortRead_failed (cfg : PortConfig) (inuse : Bool) (env : SetupEnv) (p : Port)
    (h : (handleAcceptPortRead cfg inuse env p).port.tcpToDevState = .unconnected) :
    statWords (handleAcceptPortRead cfg inuse env p).calls = [] := by
  rcases handleAcceptPortRead_cases cfg inuse env p with hfail | hdone
  · rcases hfail.calls with hnil | ⟨-, hreset⟩
    · rw [hnil]
      rfl
    · rw [hreset]
      rfl
  · rw [hdone.state] at h
    cases h

theorem callback_accept_failed (cfg : PortConfig) (inuse : Bool) (env : SetupEnv) (p : Port)
    (h : (callback cfg inuse p (.accept env)).port.tcpToDevState = .unconnected) :
    statWords (callback cfg inuse p (.accept env)).calls = [] := by
  unfold callback at h ⊢
  split
  · rfl
  · rename_i hready
    rw [if_neg hready] at h
    exact handleAcceptPortRead_failed cfg inuse env p h

/-- **Status broadcasts follow the session protocol.** For a port with a slot of its own and
fewer than 2³² bytes in a session, what is written to the slot keeps to `Protocol` in every
state of every run, and is between sessions just when the port is unconnected; and a setup
that leaves the port unconnected writes nothing. -/
theorem status_protocol (cfg : Config n) (i : Fin n) (hslot : ∀ j ≠ i, cfg.slot j ≠ cfg.slot i)
    (state : Fin n → PortState) (evs : List (Event n))
    (hbytes : Always (watch cfg) (fun w => w.moved i < 2 ^ 32) (watchStart state) evs) :
    Always (watch cfg)
      (fun w => ∃ ph, Protocol ph (w.written (cfg.slot i)) ∧
        (ph = .idle ↔ (w.net.ports i).tcpToDevState = .unconnected))
      (watchStart state) evs ∧
    EachStep (watch cfg)
      (fun w ev => ∀ env, ev = (i, .accept env) →
        ((watch cfg w ev).net.ports i).tcpToDevState = .unconnected →
        (watch cfg w ev).written (cfg.slot i) = w.written (cfg.slot i))
      (watchStart state) evs := by
  refine ⟨?_, .of_forall ?_⟩
  · have hstart : Orderly cfg i (watchStart state) := by
      refine ⟨start_wellFormed state, ?_, fun _ => Nat.le_refl 0⟩
      exact Protocol.start
    refine .of_invariant hstart (fun w ev hw hb => watch_orderly hslot hw hb) ?_ hbytes.after
    intro w hw
    refine ⟨_, hw.inOrder.protocol, ?_⟩
    unfold Session.phase Watched.session Port.session
    by_cases hu : (w.net.ports i).tcpToDevState = .unconnected
    · simp [hu]
    · simp only [hu, ne_eq, not_false_eq_true, decide_true, if_true, iff_false]
      split <;> simp
  · rintro w ev env rfl hfail
    have hport : (eventResult cfg w.net (i, .accept env)).port.tcpToDevState = .unconnected := by
      simpa [watch, step] using hfail
    rw [watch_written]
    have hnone := callback_accept_failed _ _ _ _ hport
    simp only [eventResult, hnone, List.append_nil]

/-- A session of port 3001: a failed open, a connection, data in both directions, a hangup. -/
theorem status_protocol_session :
    let setup : SetupEnv := ⟨true, true, true, true, true, true, true, true, 0⟩
    let cfg : Config 1 := ⟨⟨.big, .unsigned⟩, fun _ =>
      ⟨"3001".toList, "/dev/ttyS1".toList, true, none, none, none, ⟨false, [], 256⟩, 31⟩⟩
    let evs : List (Event 1) :=
      [(0, .accept { setup with openOk := false }), (0, .accept setup),
        (0, .devRead (.data [1, 2]) (.wrote 2)),
        (0, .tcpRead (.data [3]) ⟨fun _ => ⟨⟨B9600, B9600, .cs8, false, false, false, false,
          false, false⟩, true, true, true, true, none⟩, false, .wrote 1⟩),
        (0, .except)]
    Always (watch cfg)
      (fun w => ∃ ph, Protocol ph (w.written (cfg.slot 0)) ∧
        (ph = .idle ↔ (w.net.ports 0).tcpToDevState = .unconnected))
      (watchStart fun _ => .raw) evs ∧
    EachStep (watch cfg)
      (fun w ev => ∀ env, ev = (0, .accept env) →
        ((watch cfg w ev).net.ports 0).tcpToDevState = .unconnected →
        (watch cfg w ev).written (cfg.slot 0) = w.written (cfg.slot 0))
      (watchStart fun _ => .raw) evs :=
  status_protocol _ 0 (by decide) _ _ (by decide +kernel)

end SerialServer.Dataxfer
